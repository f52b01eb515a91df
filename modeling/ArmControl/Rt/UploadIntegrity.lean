import ArmControl.Lib.Bytes
import ArmControl.Lib.Run
import ArmControl.Rt.ReferenceUpload

/-!
# Integrity of an upload over any sequence of calls

A `Log` is an upload with the calls made on it and what each returned.  Everything the admitted
reference promises is read off those calls: which BEGIN opened it, which CHUNKs and which SEAL were
accepted since.

* `begins`, `chunks`, `seals`   the accepted calls of each kind, exact retries included;
* `encode`                      the serialised knots of a curve, knot by knot;
* `Provenance`                  where an admitted reference comes from;
* `upload_integrity`            **an admitted reference is the parse of the accepted chunks, and a
                                refused call leaves the candidate as it was.**
-/

namespace ArmControl.Rt
namespace Upload
open ReferenceUpload

inductive Call where
  | observeEpoch (epoch : ℕ)
  | «begin» (b : ReferenceBeginPayload) (selectedId selectedRevision : ℕ)
  | chunk (c : ReferenceChunkPayload)
  | «seal» (s : ReferenceSealPayload) (now : ℕ)
  | abort (id : ℕ)
  | discard
  deriving DecidableEq

/-- the result of a call, if it has one, and its effect -/
def call (sha256 : List (BitVec 8) → Digest) (u : ReferenceUpload) :
    Call → Option ReferenceResult × ReferenceUpload
  | .observeEpoch epoch => (none, u.observeEpoch epoch)
  | .begin b id revision => ((u.begin b id revision).1, (u.begin b id revision).2)
  | .chunk c => ((u.chunk c).1, (u.chunk c).2)
  | .seal s now => ((u.seal sha256 s now).1, (u.seal sha256 s now).2)
  | .abort id => ((u.abort id).1, (u.abort id).2)
  | .discard => (none, u.discard)

structure Log where
  upload : ReferenceUpload
  calls : List (Call × Option ReferenceResult) := []

def step (sha256 : List (BitVec 8) → Digest) (s : Log) (c : Call) : Log :=
  { upload := (call sha256 s.upload c).2
    calls := s.calls ++ [(c, (call sha256 s.upload c).1)] }

/-- `ReferenceUpload(session, joint_hash, n, model)` -/
def opened (session joints n : ℕ) (model : Digest) : Log :=
  { upload := { session := session, joints := joints, n := n, model := model } }

/-! ## the accepted calls of a history -/

abbrev History := List (Call × Option ReferenceResult)

def begins (calls : History) : List ReferenceBeginPayload :=
  calls.filterMap fun
    | (.begin b _ _, some .ok) => some b
    | _ => none

def chunks (calls : History) : List ReferenceChunkPayload :=
  calls.filterMap fun
    | (.chunk c, some .ok) => some c
    | _ => none

/-- the accepted SEALs, each with the time of its call -/
def seals (calls : History) : List (ReferenceSealPayload × ℕ) :=
  calls.filterMap fun
    | (.seal s now, some .ok) => some (s, now)
    | _ => none

/-- the call is no epoch change, no discard and no accepted abort -/
def Keeps (epoch : ℕ) : Call × Option ReferenceResult → Prop
  | (.observeEpoch e, _) => e = epoch
  | (.abort _, r) => r ≠ some .ok
  | (.discard, _) => False
  | _ => True

/-- the bytes the accepted chunks add up to: an exact retry adds nothing -/
def content (calls : History) : List (BitVec 8) := (chunks calls).eraseDups.flatMap (·.data)

/-- every chunk starts where the ones before it end -/
def InOrder (cs : List ReferenceChunkPayload) : Prop :=
  ∀ pre c, pre ++ [c] <+: cs → c.offset = (pre.flatMap (·.data)).length

/-- the serialised knots: time, positions and, for Hermite curves, velocities, knot by knot -/
def encode (r : NativeReference) : List (BitVec 8) :=
  (List.range r.k).flatMap fun i =>
    Bytes.ofNat 8 (r.times i).bits.toNat ++
      (List.range r.n).flatMap (fun j => Bytes.ofNat 8 (r.q i j).bits.toNat) ++
      if r.hermite then (List.range r.n).flatMap (fun j => Bytes.ofNat 8 (r.v i j).bits.toNat) else []

/-- `pre` and `post` are the calls before and after the BEGIN that opened `a` -/
structure Provenance (sha256 : List (BitVec 8) → Digest) (s : Log) (a : AdmittedReference)
    (pre post : History) : Prop where
  opening : ∃ id revision, s.calls = pre ++ (.begin a.identity id revision, some .ok) :: post
  new : a.identity ∉ begins pre
  keeps : ∀ x ∈ post, Keeps a.identity.armEpoch x
  session : a.identity.sessionId = s.upload.session
  joints : a.identity.jointOrderHash = s.upload.joints
  n : a.identity.n = s.upload.n
  model : a.identity.modelDigest = s.upload.model
  epoch : a.identity.armEpoch = s.upload.epoch
  bytes : s.upload.bytes = content post
  inOrder : InOrder (chunks post).eraseDups
  length : (content post).length = a.identity.byteCount
  sealed : ∃ p now later, seals post = (p, now) :: later ∧ sha256 (content post) = p.sha256 ∧
    a.sealedAtNs = now
  shape : a.curve.n = a.identity.n ∧ a.curve.k = a.identity.knots ∧
    a.curve.hermite = a.identity.hermite
  parsed : encode a.curve = content post
  valid : a.curve.validReference = true
  starts : if a.identity.expectedRevision = 0 then (a.curve.times 0).value = .fin 0
    else Value.le (.fin 0) (a.curve.times 0).value = true

/-! ## what a call can do -/

/-- the BEGIN names what the upload is bound to -/
structure Bound (u : ReferenceUpload) (b : ReferenceBeginPayload) : Prop where
  session : b.sessionId = u.session
  joints : b.jointOrderHash = u.joints
  n : b.n = u.n
  model : b.modelDigest = u.model
  epoch : b.armEpoch = u.epoch

theorem Bound.keep {u u' : ReferenceUpload} {b : ReferenceBeginPayload} (h : Bound u b)
    (hs : u'.session = u.session) (hj : u'.joints = u.joints) (hn : u'.n = u.n)
    (hm : u'.model = u.model) (he : u'.epoch = u.epoch) : Bound u' b where
  session := by rw [hs]; exact h.session
  joints := by rw [hj]; exact h.joints
  n := by rw [hn]; exact h.n
  model := by rw [hm]; exact h.model
  epoch := by rw [he]; exact h.epoch

/-- the chunk is one of the pieces of 88 bytes the candidate is cut into -/
structure Piece (b : ReferenceBeginPayload) (c : ReferenceChunkPayload) : Prop where
  upload : c.uploadId = b.uploadId
  reserved : c.reserved = 0
  positive : 0 < c.length
  data : c.data.length = c.length
  aligned : c.offset % referenceChunkBytes = 0
  length : c.length = min referenceChunkBytes (b.byteCount - c.offset)
  inside : c.offset + c.length ≤ b.byteCount

def openCandidate (u : ReferenceUpload) (b : ReferenceBeginPayload) : ReferenceUpload :=
  { u with
    lastUpload := b.uploadId
    candidate := { u.candidate with identity := b, curve := {} }
    present := true, isSealed := false, bytes := [] }

def withCurve (u : ReferenceUpload) (curve : NativeReference) : ReferenceUpload :=
  { u with candidate := { u.candidate with curve := curve } }

def sealCandidate (u : ReferenceUpload) (now : ℕ) : ReferenceUpload :=
  { u with
    candidate := { u.candidate with
      curve := decodeCurve u.candidate.identity u.bytes, sealedAtNs := now }
    isSealed := true }

/-- the curve passes the checks of SEAL -/
structure Passes (b : ReferenceBeginPayload) (curve : NativeReference) : Prop where
  starts : Value.lt (curve.times 0).value (.fin 0) = false
  initial : b.expectedRevision = 0 → (curve.times 0).value = .fin 0
  valid : curve.validReference = true

/-- everything a call on `u` can return and do -/
inductive Move (sha256 : List (BitVec 8) → Digest) (u : ReferenceUpload) :
    Call → Option ReferenceResult × ReferenceUpload → Prop
  | sameEpoch : Move sha256 u (.observeEpoch u.epoch) (none, u)
  | newEpoch (epoch : ℕ) (h : epoch ≠ u.epoch) : Move sha256 u (.observeEpoch epoch)
      (none, { u with epoch := epoch, present := false, isSealed := false })
  | refuse (c : Call) (r : ReferenceResult) (hr : r ≠ .ok) (he : ∀ epoch, c ≠ .observeEpoch epoch)
      (hd : c ≠ .discard) : Move sha256 u c (some r, u)
  | retryBegin (b : ReferenceBeginPayload) (id revision : ℕ) (hp : u.present = true)
      (hb : b = u.candidate.identity) : Move sha256 u (.begin b id revision) (some .ok, u)
  | openBegin (b : ReferenceBeginPayload) (id revision : ℕ) (hp : u.present = false)
      (hb : Bound u b) (hv : b.valid = true) (hid : u.lastUpload < b.uploadId) :
      Move sha256 u (.begin b id revision) (some .ok, openCandidate u b)
  | retryChunk (c : ReferenceChunkPayload) (hp : u.present = true)
      (hc : Piece u.candidate.identity c) (hstop : c.offset + c.length ≤ u.bytes.length)
      (hdata : Bytes.slice u.bytes c.offset c.length = c.data) :
      Move sha256 u (.chunk c) (some .ok, u)
  | nextChunk (c : ReferenceChunkPayload) (hp : u.present = true) (hs : u.isSealed = false)
      (hc : Piece u.candidate.identity c) (hoff : c.offset = u.bytes.length) :
      Move sha256 u (.chunk c) (some .ok, { u with bytes := u.bytes ++ c.data })
  | retrySeal (s : ReferenceSealPayload) (now : ℕ) (hp : u.present = true)
      (hs : u.isSealed = true) : Move sha256 u (.seal s now) (some .ok, u)
  | badCurve (s : ReferenceSealPayload) (now : ℕ) (hs : u.isSealed = false) :
      Move sha256 u (.seal s now)
        (some .malformed, withCurve u (decodeCurve u.candidate.identity u.bytes))
  | firstSeal (s : ReferenceSealPayload) (now : ℕ) (hp : u.present = true)
      (hs : u.isSealed = false) (hlen : u.bytes.length = u.candidate.identity.byteCount)
      (hsha : sha256 u.bytes = s.sha256)
      (hcurve : Passes u.candidate.identity (decodeCurve u.candidate.identity u.bytes)) :
      Move sha256 u (.seal s now) (some .ok, sealCandidate u now)
  | reabort (id : ℕ) (hp : u.present = false) : Move sha256 u (.abort id) (some .ok, u)
  | abort (id : ℕ) (hp : u.present = true) :
      Move sha256 u (.abort id) (some .ok, { u with lastAborted := id }.discard)
  | discard : Move sha256 u .discard (none, u.discard)

section
variable {sha256 : List (BitVec 8) → Digest} {u : ReferenceUpload}

theorem move_observeEpoch (epoch : ℕ) :
    Move sha256 u (.observeEpoch epoch) (none, u.observeEpoch epoch) := by
  unfold observeEpoch
  split
  case isTrue h => exact .newEpoch epoch h
  case isFalse h =>
    rw [not_not] at h
    subst h
    exact .sameEpoch

theorem move_begin (b : ReferenceBeginPayload) (id revision : ℕ) :
    Move sha256 u (.begin b id revision)
      (some (u.begin b id revision).1, (u.begin b id revision).2) := by
  unfold ReferenceUpload.begin
  split
  case isTrue => exact .refuse _ _ nofun nofun nofun
  case isFalse hv =>
  split
  case isTrue => exact .refuse _ _ nofun nofun nofun
  case isFalse hb =>
  split
  case isTrue => exact .refuse _ _ nofun nofun nofun
  case isFalse =>
  split
  case isTrue hp =>
    split
    case isTrue =>
      split
      case isTrue h => exact .retryBegin b id revision hp h
      case isFalse => exact .refuse _ _ nofun nofun nofun
    case isFalse => exact .refuse _ _ nofun nofun nofun
  case isFalse hp =>
    split
    case isTrue => exact .refuse _ _ nofun nofun nofun
    case isFalse hid =>
      push Not at hb
      obtain ⟨h1, h2, h3, h4, h5⟩ := hb
      exact .openBegin b id revision (Bool.eq_false_iff.mpr hp) ⟨h1, h2, h3, h5, h4⟩
        (Bool.eq_true_of_not_eq_false hv) (not_le.mp hid)

theorem move_chunk (c : ReferenceChunkPayload) :
    Move sha256 u (.chunk c) (some (u.chunk c).1, (u.chunk c).2) := by
  unfold ReferenceUpload.chunk
  dsimp only
  split
  case isTrue => exact .refuse _ _ nofun nofun nofun
  case isFalse hv =>
  split
  case isTrue => exact .refuse _ _ nofun nofun nofun
  case isFalse hp =>
  split
  case isTrue => exact .refuse _ _ nofun nofun nofun
  case isFalse hpiece =>
  rw [Bool.not_eq_false] at hv
  simp only [ReferenceChunkPayload.valid, Bool.and_eq_true, bne_iff_ne, beq_iff_eq,
    decide_eq_true_eq] at hv
  push Not at hp hpiece
  rw [ne_eq, Bool.not_eq_false] at hp
  have hc : Piece u.candidate.identity c :=
    { upload := hp.2, reserved := hv.1.1.1.1.2, positive := Nat.pos_of_ne_zero hv.1.1.1.2,
      data := hv.2, aligned := hpiece.2.1, length := hpiece.2.2, inside := hpiece.1 }
  split
  case isTrue hstop =>
    split
    case isTrue hdata => exact .retryChunk c hp.1 hc hstop hdata
    case isFalse => exact .refuse _ _ nofun nofun nofun
  case isFalse =>
    split
    case isTrue => exact .refuse _ _ nofun nofun nofun
    case isFalse hs =>
      push Not at hs
      rw [ne_eq, Bool.not_eq_true] at hs
      exact .nextChunk c hp.1 hs.1 hc hs.2

theorem move_seal (s : ReferenceSealPayload) (now : ℕ) :
    Move sha256 u (.seal s now) (some (u.seal sha256 s now).1, (u.seal sha256 s now).2) := by
  unfold ReferenceUpload.seal
  dsimp only
  split
  case isTrue => exact .refuse _ _ nofun nofun nofun
  case isFalse =>
  split
  case isTrue => exact .refuse _ _ nofun nofun nofun
  case isFalse hp =>
  split
  case isTrue => exact .refuse _ _ nofun nofun nofun
  case isFalse hlen =>
  split
  case isTrue => exact .refuse _ _ nofun nofun nofun
  case isFalse hsha =>
  push Not at hp
  rw [ne_eq, Bool.not_eq_false] at hp
  split
  case isTrue hs => exact .retrySeal s now hp.1 hs
  case isFalse hs =>
    rw [Bool.not_eq_true] at hs
    split
    case isTrue => exact .badCurve s now hs
    case isFalse hcurve =>
      push Not at hcurve
      obtain ⟨h1, h2, h3⟩ := hcurve
      exact .firstSeal s now hp.1 hs (not_not.mp hlen) (not_not.mp hsha)
        ⟨Bool.eq_false_iff.mpr h1, h2, Bool.eq_true_of_not_eq_false h3⟩

theorem move_abort (id : ℕ) :
    Move sha256 u (.abort id) (some (u.abort id).1, (u.abort id).2) := by
  unfold ReferenceUpload.abort
  split
  case isTrue => exact .refuse _ _ nofun nofun nofun
  case isFalse =>
  split
  case isTrue hp =>
    split
    case isTrue => exact .reabort id hp
    case isFalse => exact .refuse _ _ nofun nofun nofun
  case isFalse hp =>
    split
    case isTrue => exact .refuse _ _ nofun nofun nofun
    case isFalse => exact .abort id (Bool.eq_true_of_not_eq_false hp)

theorem move_call (c : Call) : Move sha256 u c (call sha256 u c) := by
  cases c with
  | observeEpoch epoch => exact move_observeEpoch epoch
  | «begin» b id revision => exact move_begin b id revision
  | chunk c => exact move_chunk c
  | «seal» s now => exact move_seal s now
  | abort id => exact move_abort id
  | discard => exact .discard

end

/-! ## the parse of the knots -/

theorem readF64_fold (bs : List (BitVec 8)) (at_ w : ℕ) (h : at_ + w ≤ bs.length) :
    (List.range w).foldr (fun i acc => acc * 256 + ((bs[at_ + i]?).getD 0).toNat) 0 =
      Bytes.nat (Bytes.slice bs at_ w) := by
  induction w generalizing at_ with
  | zero => simp [Bytes.slice, Bytes.nat]
  | succ w ih =>
    have hlt : at_ < bs.length := by omega
    have hs : Bytes.slice bs at_ (w + 1) = bs[at_] :: Bytes.slice bs (at_ + 1) w := by
      rw [Bytes.slice, List.drop_eq_getElem_cons hlt, List.take_succ_cons]
      rfl
    have hshift : ∀ i, at_ + 1 + i = at_ + (i + 1) := by
      intro i
      omega
    have ih' := ih (at_ + 1) (by omega)
    simp only [hshift] at ih'
    rw [List.range_succ_eq_map, List.foldr_cons, List.foldr_map, hs, Bytes.nat, Nat.add_zero,
      List.getElem?_eq_getElem hlt, ih']
    show Bytes.nat _ * 256 + (bs[at_]).toNat = _
    omega

/-- a double read from the bytes is those bytes -/
theorem bytes_readF64 {bs : List (BitVec 8)} {at_ : ℕ} (h : at_ + 8 ≤ bs.length) :
    Bytes.ofNat 8 (readF64 bs at_).bits.toNat = Bytes.slice bs at_ 8 := by
  have hlen := Bytes.length_slice h
  have hlt := Bytes.nat_lt (Bytes.slice bs at_ 8)
  rw [hlen] at hlt
  rw [readF64, readF64_fold bs at_ 8 h, BitVec.toNat_ofNat, Nat.mod_eq_of_lt (by omega)]
  have := Bytes.ofNat_nat (Bytes.slice bs at_ 8)
  rwa [hlen] at this

theorem flatMap_congr {α β : Type*} {l : List α} {f g : α → List β} (h : ∀ x ∈ l, f x = g x) :
    l.flatMap f = l.flatMap g := by
  rw [List.flatMap_def, List.flatMap_def, List.map_congr_left h]

/-- the columns of one knot: `n` doubles from position `at_` on -/
theorem flatMap_readF64 {bs : List (BitVec 8)} {at_ n : ℕ} {f : ℕ → F64} (h : at_ + 8 * n ≤ bs.length)
    (hf : ∀ j < n, f j = readF64 bs (at_ + 8 * j)) :
    (List.range n).flatMap (fun j => Bytes.ofNat 8 (f j).bits.toNat) = Bytes.slice bs at_ (8 * n) := by
  rw [← Bytes.flatMap_slice]
  apply flatMap_congr
  intro j hj
  have hj' := List.mem_range.mp hj
  rw [hf j hj', bytes_readF64 (by omega)]

/-- the serialised size of one knot -/
def knotBytes (b : ReferenceBeginPayload) : ℕ := 8 + 8 * b.n * (if b.hermite then 2 else 1)

/-- the bytes of knot `i` -/
theorem encode_knot {b : ReferenceBeginPayload} {bs : List (BitVec 8)} {i : ℕ} (hi : i < b.knots)
    (h : knotBytes b * i + knotBytes b ≤ bs.length) :
    Bytes.ofNat 8 ((decodeCurve b bs).times i).bits.toNat ++
      (List.range b.n).flatMap (fun j => Bytes.ofNat 8 ((decodeCurve b bs).q i j).bits.toNat) ++
      (if b.hermite then
        (List.range b.n).flatMap (fun j => Bytes.ofNat 8 ((decodeCurve b bs).v i j).bits.toNat)
      else []) =
    Bytes.slice bs (knotBytes b * i) (knotBytes b) := by
  generalize hat : knotBytes b * i = at_ at h ⊢
  have hat' : i * (8 + 8 * b.n * (if b.hermite then 2 else 1)) = at_ := by
    rw [← hat, Nat.mul_comm]
    rfl
  have ht : (decodeCurve b bs).times i = readF64 bs at_ := by
    rw [← hat']
    exact if_pos hi
  have hq : ∀ j < b.n, (decodeCurve b bs).q i j = readF64 bs (at_ + 8 + 8 * j) := by
    intro j hj
    rw [← hat']
    exact if_pos ⟨hi, hj⟩
  cases hh : b.hermite with
  | false =>
    have hst : knotBytes b = 8 + 8 * b.n := by simp [knotBytes, hh]
    rw [if_neg Bool.false_ne_true, ht, bytes_readF64 (by omega), flatMap_readF64 (by omega) hq,
      Bytes.slice_append, List.append_nil, hst]
  | true =>
    have hst : knotBytes b = 8 + 8 * b.n + 8 * b.n := by
      simp only [knotBytes, hh, if_true]
      omega
    have hv : ∀ j < b.n, (decodeCurve b bs).v i j = readF64 bs (at_ + (8 + 8 * b.n) + 8 * j) := by
      intro j hj
      rw [← hat', ← Nat.add_assoc _ 8]
      exact if_pos ⟨hh, hi, hj⟩
    rw [if_pos rfl, ht, bytes_readF64 (by omega), flatMap_readF64 (by omega) hq,
      Bytes.slice_append, flatMap_readF64 (by omega) hv, Bytes.slice_append, hst]

/-- **The parse is the inverse of the serialisation.** -/
theorem encode_decodeCurve {b : ReferenceBeginPayload} {bs : List (BitVec 8)} (hv : b.valid = true)
    (h : bs.length = b.byteCount) : encode (decodeCurve b bs) = bs := by
  have hcount : b.byteCount = knotBytes b * b.knots := by
    simp only [ReferenceBeginPayload.valid, Bool.and_eq_true, beq_iff_eq] at hv
    rw [hv.1.1.2, Nat.mul_comm]
    rfl
  rw [hcount] at h
  calc encode (decodeCurve b bs)
      = (List.range b.knots).flatMap (fun i => Bytes.slice bs (0 + knotBytes b * i) (knotBytes b)) := by
        apply flatMap_congr
        intro i hi
        have hi' := List.mem_range.mp hi
        rw [Nat.zero_add]
        apply encode_knot hi'
        rw [h, ← Nat.mul_succ]
        exact Nat.mul_le_mul_left _ hi'
    _ = Bytes.slice bs 0 (knotBytes b * b.knots) := Bytes.flatMap_slice bs 0 _ _
    _ = bs := Bytes.slice_all h

/-! ## retries and pieces -/

section
variable {α : Type*} [BEq α] [LawfulBEq α] {l : List α} {x : α}

theorem eraseDups_retry (h : x ∈ l) : (l ++ [x]).eraseDups = l.eraseDups := by
  rw [List.eraseDups_append]
  simp [List.removeAll, h]

theorem eraseDups_next (h : x ∉ l) : (l ++ [x]).eraseDups = l.eraseDups ++ [x] := by
  rw [List.eraseDups_append]
  simp [List.removeAll, h, List.eraseDups_cons]

end

section
variable {b : ReferenceBeginPayload} {cs : List ReferenceChunkPayload} {c : ReferenceChunkPayload}

theorem InOrder.init (h : InOrder (cs ++ [c])) : InOrder cs :=
  fun pre x hpre => h pre x (hpre.trans (List.prefix_append _ _))

theorem InOrder.last (h : InOrder (cs ++ [c])) : c.offset = (cs.flatMap (·.data)).length :=
  h cs c (List.prefix_refl _)

theorem InOrder.snoc (h : InOrder cs) (hc : c.offset = (cs.flatMap (·.data)).length) :
    InOrder (cs ++ [c]) := by
  intro pre x hpre
  rcases Run.prefix_snoc_iff.mp hpre with hpre | heq
  · exact h pre x hpre
  · obtain ⟨hpre', hx⟩ := List.append_inj' heq rfl
    rw [hpre', List.singleton_inj.mp hx]
    exact hc

theorem flatMap_snoc : (cs ++ [c]).flatMap (·.data) = cs.flatMap (·.data) ++ c.data := by
  rw [List.flatMap_append, List.flatMap_singleton]

/-- a piece's bytes stand at its offset -/
theorem InOrder.slice (h : InOrder cs) (hc : c ∈ cs) :
    Bytes.slice (cs.flatMap (·.data)) c.offset c.data.length = c.data := by
  obtain ⟨pre, post, rfl⟩ := List.append_of_mem hc
  have hoff : c.offset = (pre.flatMap (·.data)).length := by
    apply h pre c
    rw [show pre ++ c :: post = (pre ++ [c]) ++ post by simp]
    exact List.prefix_append _ _
  rw [hoff, Bytes.slice, List.flatMap_append, List.drop_left, List.flatMap_cons, List.take_left]

/-- the pieces cover every aligned position of what they add up to -/
theorem exists_piece (h : InOrder cs) (hp : ∀ c ∈ cs, Piece b c) {o : ℕ}
    (ho : o % referenceChunkBytes = 0) (hlt : o < (cs.flatMap (·.data)).length) :
    ∃ c ∈ cs, c.offset = o := by
  induction cs using List.reverseRecOn with
  | nil => simp at hlt
  | append_singleton cs c ih =>
    by_cases hin : o < (cs.flatMap (·.data)).length
    · obtain ⟨x, hx, hox⟩ := ih h.init (fun x hx => hp x (by simp [hx])) hin
      exact ⟨x, by simp [hx], hox⟩
    · refine ⟨c, by simp, ?_⟩
      -- the last piece is at most 88 bytes long and both positions are multiples of 88
      have hc := hp c (by simp)
      have hlast := h.last
      have hlen := hc.length
      have hal := hc.aligned
      rw [flatMap_snoc, List.length_append, hc.data] at hlt
      simp only [referenceChunkBytes] at ho hal hlen
      omega

theorem Piece.ext {c c' : ReferenceChunkPayload} (h : Piece b c) (h' : Piece b c')
    (ho : c.offset = c'.offset) (hd : c.data = c'.data) : c = c' := by
  have hl : c.length = c'.length := by rw [h.length, h'.length, ho]
  have hu : c.uploadId = c'.uploadId := by rw [h.upload, h'.upload]
  have hr : c.reserved = c'.reserved := by rw [h.reserved, h'.reserved]
  cases c
  cases c'
  simp only at hl hu hr ho hd
  subst hl hu hr ho hd
  rfl

/-- an accepted piece within the received bytes was accepted before -/
theorem mem_of_retry (h : InOrder cs) (hp : ∀ c ∈ cs, Piece b c) (hc : Piece b c)
    (hstop : c.offset + c.length ≤ (cs.flatMap (·.data)).length)
    (hdata : Bytes.slice (cs.flatMap (·.data)) c.offset c.length = c.data) : c ∈ cs := by
  have hpos := hc.positive
  obtain ⟨x, hx, hox⟩ := exists_piece h hp hc.aligned (by omega)
  have hpx := hp x hx
  have hlen : x.length = c.length := by rw [hpx.length, hc.length, hox]
  have hxd := h.slice hx
  rw [hpx.data, hox, hlen, hdata] at hxd
  rw [hc.ext hpx hox.symm hxd]
  exact hx

/-- a piece at the end of the received bytes is new -/
theorem not_mem_of_next (h : InOrder cs) (hp : ∀ c ∈ cs, Piece b c)
    (hoff : c.offset = (cs.flatMap (·.data)).length) : c ∉ cs := by
  intro hc
  have hsl := h.slice hc
  have hpos := (hp c hc).positive
  rw [hoff, Bytes.slice, List.drop_length] at hsl
  have hd := (hp c hc).data
  rw [← hsl] at hd
  simp at hd
  omega

end

/-! ## the candidate and its history -/

theorem begins_append (as bs : History) : begins (as ++ bs) = begins as ++ begins bs :=
  List.filterMap_append

theorem chunks_append (as bs : History) : chunks (as ++ bs) = chunks as ++ chunks bs :=
  List.filterMap_append

theorem seals_append (as bs : History) : seals (as ++ bs) = seals as ++ seals bs :=
  List.filterMap_append

/-- a refused call is in none of the lists -/
theorem refused_quiet (c : Call) {r : ReferenceResult} (hr : r ≠ .ok) :
    begins [(c, some r)] = [] ∧ chunks [(c, some r)] = [] ∧ seals [(c, some r)] = [] := by
  cases c <;> cases r <;> first | exact absurd rfl hr | exact ⟨rfl, rfl, rfl⟩

structure SealedBy (sha256 : List (BitVec 8) → Digest) (u : ReferenceUpload)
    (seals : List (ReferenceSealPayload × ℕ)) : Prop where
  length : u.bytes.length = u.candidate.identity.byteCount
  first : ∃ p now later, seals = (p, now) :: later ∧ sha256 u.bytes = p.sha256 ∧
    u.candidate.sealedAtNs = now
  curve : u.candidate.curve = decodeCurve u.candidate.identity u.bytes
  passes : Passes u.candidate.identity u.candidate.curve

/-- the candidate of `s` was opened between `pre` and `post` -/
structure Staged (sha256 : List (BitVec 8) → Digest) (s : Log) (pre post : History) : Prop where
  opening : ∃ id revision,
    s.calls = pre ++ (.begin s.upload.candidate.identity id revision, some .ok) :: post
  new : s.upload.candidate.identity ∉ begins pre
  keeps : ∀ x ∈ post, Keeps s.upload.candidate.identity.armEpoch x
  bound : Bound s.upload s.upload.candidate.identity
  valid : s.upload.candidate.identity.valid = true
  bytes : s.upload.bytes = content post
  inOrder : InOrder (chunks post).eraseDups
  pieces : ∀ c ∈ chunks post, Piece s.upload.candidate.identity c
  unsealed : s.upload.isSealed = false → seals post = []
  sealed : s.upload.isSealed = true → SealedBy sha256 s.upload (seals post)

structure Integrity (sha256 : List (BitVec 8) → Digest) (s : Log) : Prop where
  staged : s.upload.present = true → ∃ pre post, Staged sha256 s pre post
  last : ∀ b ∈ begins s.calls, b.uploadId ≤ s.upload.lastUpload
  increasing : (begins s.calls).eraseDups.Pairwise (fun b b' => b.uploadId < b'.uploadId)

section
variable {sha256 : List (BitVec 8) → Digest} {s : Log} {pre post : History}

theorem Staged.mem_begins (h : Staged sha256 s pre post) :
    s.upload.candidate.identity ∈ begins s.calls := by
  obtain ⟨id, revision, hcalls⟩ := h.opening
  rw [hcalls, begins_append]
  exact List.mem_append_right _ List.mem_cons_self

/-- the candidate after one more call -/
theorem Staged.snoc (h : Staged sha256 s pre post) (u : ReferenceUpload)
    (x : Call × Option ReferenceResult) (hk : Keeps s.upload.candidate.identity.armEpoch x)
    (hid : u.candidate.identity = s.upload.candidate.identity)
    (hb : Bound u s.upload.candidate.identity)
    (hbytes : u.bytes = content (post ++ [x])) (ho : InOrder (chunks (post ++ [x])).eraseDups)
    (hpc : ∀ c ∈ chunks [x], Piece s.upload.candidate.identity c)
    (hu : u.isSealed = false → seals (post ++ [x]) = [])
    (hs : u.isSealed = true → SealedBy sha256 u (seals (post ++ [x]))) :
    Staged sha256 { upload := u, calls := s.calls ++ [x] } pre (post ++ [x]) := by
  obtain ⟨id, revision, hcalls⟩ := h.opening
  refine { opening := ⟨id, revision, ?_⟩, new := ?_, keeps := ?_, bound := ?_, valid := ?_,
           bytes := hbytes, inOrder := ho, pieces := ?_, unsealed := hu, sealed := hs }
  · show s.calls ++ [x] = pre ++ (.begin u.candidate.identity id revision, some .ok) :: (post ++ [x])
    rw [hcalls, hid]
    simp
  · show u.candidate.identity ∉ begins pre
    rw [hid]
    exact h.new
  · intro y hy
    show Keeps u.candidate.identity.armEpoch y
    rw [hid]
    rcases List.mem_append.mp hy with hy | hy
    · exact h.keeps y hy
    · rw [List.mem_singleton.mp hy]
      exact hk
  · show Bound u u.candidate.identity
    rw [hid]
    exact hb
  · show u.candidate.identity.valid = true
    rw [hid]
    exact h.valid
  · intro c hc
    show Piece u.candidate.identity c
    rw [hid]
    rw [chunks_append] at hc
    rcases List.mem_append.mp hc with hc | hc
    · exact h.pieces c hc
    · exact hpc c hc

/-- a call that neither adds bytes nor seals -/
theorem Staged.quiet (h : Staged sha256 s pre post) (x : Call × Option ReferenceResult)
    (hk : Keeps s.upload.candidate.identity.armEpoch x) (hc : chunks [x] = [])
    (hs : seals [x] = []) :
    Staged sha256 { s with calls := s.calls ++ [x] } pre (post ++ [x]) := by
  have hchunks : chunks (post ++ [x]) = chunks post := by rw [chunks_append, hc, List.append_nil]
  have hseals : seals (post ++ [x]) = seals post := by rw [seals_append, hs, List.append_nil]
  refine h.snoc s.upload x hk rfl h.bound ?_ ?_ ?_ ?_ ?_
  · rw [h.bytes, content, content, hchunks]
  · rw [hchunks]
    exact h.inOrder
  · rw [hc]
    intro c hmem
    cases hmem
  · rw [hseals]
    exact h.unsealed
  · rw [hseals]
    exact h.sealed

end

/-! ## one call -/

section
variable {sha256 : List (BitVec 8) → Digest} {s : Log} {pre post : History}

theorem Staged.retryChunk (h : Staged sha256 s pre post) {c : ReferenceChunkPayload}
    (hc : Piece s.upload.candidate.identity c)
    (hstop : c.offset + c.length ≤ s.upload.bytes.length)
    (hdata : Bytes.slice s.upload.bytes c.offset c.length = c.data) :
    Staged sha256 { s with calls := s.calls ++ [(.chunk c, some .ok)] } pre
      (post ++ [(.chunk c, some .ok)]) := by
  rw [h.bytes] at hstop hdata
  have hmem : c ∈ chunks post := by
    rw [← List.mem_eraseDups]
    exact mem_of_retry h.inOrder (fun x hx => h.pieces x (List.mem_eraseDups.mp hx)) hc hstop hdata
  have hchunks : (chunks (post ++ [(.chunk c, some .ok)])).eraseDups = (chunks post).eraseDups := by
    rw [chunks_append]
    exact eraseDups_retry hmem
  have hseals : seals (post ++ [(.chunk c, some .ok)]) = seals post := by
    rw [seals_append]
    exact List.append_nil _
  refine h.snoc s.upload _ trivial rfl h.bound ?_ ?_ ?_ ?_ ?_
  · rw [h.bytes, content, content, hchunks]
  · rw [hchunks]
    exact h.inOrder
  · intro x hx
    rw [List.mem_singleton.mp hx]
    exact hc
  · rw [hseals]
    exact h.unsealed
  · rw [hseals]
    exact h.sealed

theorem Staged.nextChunk (h : Staged sha256 s pre post) {c : ReferenceChunkPayload}
    (hs : s.upload.isSealed = false) (hc : Piece s.upload.candidate.identity c)
    (hoff : c.offset = s.upload.bytes.length) :
    Staged sha256 { upload := { s.upload with bytes := s.upload.bytes ++ c.data }
                    calls := s.calls ++ [(.chunk c, some .ok)] } pre
      (post ++ [(.chunk c, some .ok)]) := by
  rw [h.bytes] at hoff
  have hnew : c ∉ chunks post := by
    rw [← List.mem_eraseDups]
    exact not_mem_of_next h.inOrder (fun x hx => h.pieces x (List.mem_eraseDups.mp hx)) hoff
  have hchunks : (chunks (post ++ [(.chunk c, some .ok)])).eraseDups =
      (chunks post).eraseDups ++ [c] := by
    rw [chunks_append]
    exact eraseDups_next hnew
  have hseals : seals (post ++ [(.chunk c, some .ok)]) = seals post := by
    rw [seals_append]
    exact List.append_nil _
  refine h.snoc _ _ trivial rfl (h.bound.keep rfl rfl rfl rfl rfl) ?_ ?_ ?_ ?_ ?_
  · show s.upload.bytes ++ c.data = content _
    rw [content, hchunks, flatMap_snoc, h.bytes]
    rfl
  · rw [hchunks]
    exact h.inOrder.snoc hoff
  · intro x hx
    rw [List.mem_singleton.mp hx]
    exact hc
  · rw [hseals]
    exact h.unsealed
  · intro hs'
    exact absurd hs' (by rw [show s.upload.isSealed = false from hs]; exact Bool.false_ne_true)

theorem Staged.seal (h : Staged sha256 s pre post) {p : ReferenceSealPayload} {now : ℕ}
    (hs : s.upload.isSealed = false)
    (hlen : s.upload.bytes.length = s.upload.candidate.identity.byteCount)
    (hsha : sha256 s.upload.bytes = p.sha256)
    (hcurve : Passes s.upload.candidate.identity
      (decodeCurve s.upload.candidate.identity s.upload.bytes)) :
    Staged sha256 { upload := sealCandidate s.upload now
                    calls := s.calls ++ [(.seal p now, some .ok)] } pre
      (post ++ [(.seal p now, some .ok)]) := by
  have hchunks : chunks (post ++ [(.seal p now, some .ok)]) = chunks post := by
    rw [chunks_append]
    exact List.append_nil _
  have hseals : seals (post ++ [(.seal p now, some .ok)]) = [(p, now)] := by
    rw [seals_append, h.unsealed hs]
    rfl
  refine h.snoc _ _ trivial rfl (h.bound.keep rfl rfl rfl rfl rfl) ?_ ?_ ?_ ?_ ?_
  · show s.upload.bytes = _
    rw [h.bytes, content, content, hchunks]
  · rw [hchunks]
    exact h.inOrder
  · intro x hx
    cases hx
  · intro hs'
    cases hs'
  · intro _
    rw [hseals]
    exact { length := hlen, first := ⟨p, now, [], rfl, hsha, rfl⟩, curve := rfl, passes := hcurve }

theorem Staged.retrySeal (h : Staged sha256 s pre post) (p : ReferenceSealPayload) (now : ℕ)
    (hs : s.upload.isSealed = true) :
    Staged sha256 { s with calls := s.calls ++ [(.seal p now, some .ok)] } pre
      (post ++ [(.seal p now, some .ok)]) := by
  have hchunks : chunks (post ++ [(.seal p now, some .ok)]) = chunks post := by
    rw [chunks_append]
    exact List.append_nil _
  refine h.snoc s.upload _ trivial rfl h.bound ?_ ?_ ?_ ?_ ?_
  · rw [h.bytes, content, content, hchunks]
  · rw [hchunks]
    exact h.inOrder
  · intro x hx
    cases hx
  · intro hs'
    rw [hs] at hs'
    cases hs'
  · intro _
    obtain ⟨hl, ⟨q, t, later, hq, hsha, hat⟩, hcurve, hpass⟩ := h.sealed hs
    rw [seals_append, hq]
    exact { length := hl, first := ⟨q, t, _, rfl, hsha, hat⟩, curve := hcurve, passes := hpass }

theorem Staged.badCurve (h : Staged sha256 s pre post) (p : ReferenceSealPayload) (now : ℕ)
    (curve : NativeReference) (hs : s.upload.isSealed = false) :
    Staged sha256 { upload := withCurve s.upload curve
                    calls := s.calls ++ [(.seal p now, some .malformed)] } pre
      (post ++ [(.seal p now, some .malformed)]) := by
  have hchunks : chunks (post ++ [(.seal p now, some .malformed)]) = chunks post := by
    rw [chunks_append]
    exact List.append_nil _
  refine h.snoc _ _ trivial rfl (h.bound.keep rfl rfl rfl rfl rfl) ?_ ?_ ?_ ?_ ?_
  · show s.upload.bytes = _
    rw [h.bytes, content, content, hchunks]
  · rw [hchunks]
    exact h.inOrder
  · intro x hx
    cases hx
  · intro _
    rw [seals_append, h.unsealed hs]
    rfl
  · intro hs'
    exact absurd hs' (by rw [show (withCurve s.upload curve).isSealed = false from hs]; simp)

/-- a BEGIN that opens a candidate -/
theorem staged_open {b : ReferenceBeginPayload} (id revision : ℕ) (hb : Bound s.upload b)
    (hv : b.valid = true) (hnew : b ∉ begins s.calls) :
    Staged sha256 { upload := openCandidate s.upload b
                    calls := s.calls ++ [(.begin b id revision, some .ok)] } s.calls [] where
  opening := ⟨id, revision, rfl⟩
  new := hnew
  keeps := by intro x hx; cases hx
  bound := hb.keep rfl rfl rfl rfl rfl
  valid := hv
  bytes := rfl
  inOrder := by
    intro pre c hpre
    have := List.prefix_nil.mp hpre
    simp at this
  pieces := by intro c hc; cases hc
  unsealed := fun _ => rfl
  sealed := by intro hs; cases hs

end

/-! ## every sequence of calls -/

section
variable {sha256 : List (BitVec 8) → Digest} {s : Log}

/-- a call that accepts no new BEGIN -/
theorem Integrity.keep (h : Integrity sha256 s) (u : ReferenceUpload)
    (x : Call × Option ReferenceResult) (hx : ∀ b ∈ begins [x], b ∈ begins s.calls)
    (hl : u.lastUpload = s.upload.lastUpload)
    (hst : u.present = true → ∃ pre post, Staged sha256 ⟨u, s.calls ++ [x]⟩ pre post) :
    Integrity sha256 ⟨u, s.calls ++ [x]⟩ := by
  have hmem : ∀ b ∈ begins (s.calls ++ [x]), b ∈ begins s.calls := by
    intro b hb
    rw [begins_append] at hb
    rcases List.mem_append.mp hb with hb | hb
    · exact hb
    · exact hx b hb
  refine ⟨hst, ?_, ?_⟩
  · intro b hb
    show b.uploadId ≤ u.lastUpload
    rw [hl]
    exact h.last b (hmem b hb)
  · show (begins (s.calls ++ [x])).eraseDups.Pairwise _
    have hd : (begins (s.calls ++ [x])).eraseDups = (begins s.calls).eraseDups := by
      rw [begins_append]
      match hb : begins [x] with
      | [] => rw [List.append_nil]
      | [b] => exact eraseDups_retry (hx b (by rw [hb]; exact List.mem_singleton_self b))
      | b :: b' :: l =>
        have hlen : (begins [x]).length ≤ 1 := List.length_filterMap_le _ _
        rw [hb] at hlen
        simp at hlen
    rw [hd]
    exact h.increasing

/-- the same, for a call that leaves the upload and the accepted pieces as they are -/
theorem Integrity.quiet (h : Integrity sha256 s) (x : Call × Option ReferenceResult)
    (hx : ∀ b ∈ begins [x], b ∈ begins s.calls) (hc : chunks [x] = []) (hs : seals [x] = [])
    (hk : ∀ pre post, Staged sha256 s pre post → Keeps s.upload.candidate.identity.armEpoch x) :
    Integrity sha256 ⟨s.upload, s.calls ++ [x]⟩ := by
  refine h.keep s.upload x hx rfl (fun hp => ?_)
  obtain ⟨pre, post, hst⟩ := h.staged hp
  exact ⟨pre, _, hst.quiet x (hk pre post hst) hc hs⟩

theorem integrity_step (h : Integrity sha256 s) (c : Call) : Integrity sha256 (step sha256 s c) := by
  have hm : Move sha256 s.upload c (call sha256 s.upload c) := move_call c
  unfold step
  generalize call sha256 s.upload c = out at hm ⊢
  cases hm with
  | sameEpoch =>
    exact h.quiet _ (by intro b hb; cases hb) rfl rfl (fun _ _ hst => hst.bound.epoch.symm)
  | newEpoch epoch hne => exact h.keep _ _ (by intro b hb; cases hb) rfl (by intro hp; cases hp)
  | refuse c r hr he hd =>
    obtain ⟨hb, hc, hs⟩ := refused_quiet c hr
    refine h.quiet _ (by rw [hb]; intro b hb; cases hb) hc hs (fun _ _ _ => ?_)
    cases c with
    | observeEpoch epoch => exact absurd rfl (he epoch)
    | discard => exact absurd rfl hd
    | abort id =>
      intro hok
      exact hr (Option.some.inj hok)
    | «begin» b id revision => trivial
    | chunk c => trivial
    | «seal» p now => trivial
  | retryBegin b id revision hp hb =>
    subst hb
    obtain ⟨pre, post, hst⟩ := h.staged hp
    refine h.quiet _ ?_ rfl rfl (fun _ _ _ => trivial)
    intro b hb
    rw [List.mem_singleton.mp hb]
    exact hst.mem_begins
  | openBegin b id revision hp hb hv hid =>
    have hnew : b ∉ begins s.calls := by
      intro hmem
      have := h.last b hmem
      omega
    have hbegins : begins (s.calls ++ [(.begin b id revision, some .ok)]) = begins s.calls ++ [b] :=
      begins_append _ _
    refine ⟨fun _ => ⟨s.calls, [], staged_open id revision hb hv hnew⟩, ?_, ?_⟩
    · intro x hx
      show x.uploadId ≤ b.uploadId
      rw [hbegins] at hx
      rcases List.mem_append.mp hx with hx | hx
      · have := h.last x hx
        omega
      · rw [List.mem_singleton.mp hx]
    · show (begins (s.calls ++ [(.begin b id revision, some .ok)])).eraseDups.Pairwise _
      rw [hbegins, eraseDups_next hnew]
      refine List.pairwise_append.mpr ⟨h.increasing, List.pairwise_singleton _ _, ?_⟩
      intro x hx y hy
      have := h.last x (List.mem_eraseDups.mp hx)
      rw [List.mem_singleton.mp hy]
      omega
  | retryChunk c hp hc hstop hdata =>
    refine h.keep _ _ (by intro b hb; cases hb) rfl (fun _ => ?_)
    obtain ⟨pre, post, hst⟩ := h.staged hp
    exact ⟨pre, _, hst.retryChunk hc hstop hdata⟩
  | nextChunk c hp hs hc hoff =>
    refine h.keep _ _ (by intro b hb; cases hb) rfl (fun _ => ?_)
    obtain ⟨pre, post, hst⟩ := h.staged hp
    exact ⟨pre, _, hst.nextChunk hs hc hoff⟩
  | retrySeal p now hp hs =>
    refine h.keep _ _ (by intro b hb; cases hb) rfl (fun _ => ?_)
    obtain ⟨pre, post, hst⟩ := h.staged hp
    exact ⟨pre, _, hst.retrySeal p now hs⟩
  | badCurve p now hs =>
    refine h.keep _ _ (by intro b hb; cases hb) rfl (fun hp => ?_)
    obtain ⟨pre, post, hst⟩ := h.staged hp
    exact ⟨pre, _, hst.badCurve p now _ hs⟩
  | firstSeal p now hp hs hlen hsha hcurve =>
    refine h.keep _ _ (by intro b hb; cases hb) rfl (fun _ => ?_)
    obtain ⟨pre, post, hst⟩ := h.staged hp
    exact ⟨pre, _, hst.seal hs hlen hsha hcurve⟩
  | reabort id hp =>
    refine h.keep _ _ (by intro b hb; cases hb) rfl (fun hp' => ?_)
    rw [hp] at hp'
    cases hp'
  | abort id hp => exact h.keep _ _ (by intro b hb; cases hb) rfl (by intro hp; cases hp)
  | discard => exact h.keep _ _ (by intro b hb; cases hb) rfl (by intro hp; cases hp)

theorem integrity_run (session joints n : ℕ) (model : Digest) (es : List Call) :
    Integrity sha256 (Run.run (step sha256) (opened session joints n model) es) := by
  refine Run.invariant (I := Integrity sha256) ⟨?_, ?_, ?_⟩ (fun _ c _ h => integrity_step h c)
    (Run.along_of_forall (C := fun _ _ => True) (fun _ _ => trivial) es)
  · intro hp
    cases hp
  · intro b hb
    cases hb
  · exact List.Pairwise.nil

/-- the constructor's arguments stay -/
theorem bound_step (s : Log) (c : Call) :
    (step sha256 s c).upload.session = s.upload.session ∧
    (step sha256 s c).upload.joints = s.upload.joints ∧
    (step sha256 s c).upload.n = s.upload.n ∧ (step sha256 s c).upload.model = s.upload.model := by
  have hm : Move sha256 s.upload c (call sha256 s.upload c) := move_call c
  unfold step
  generalize call sha256 s.upload c = out at hm ⊢
  cases hm <;> exact ⟨rfl, rfl, rfl, rfl⟩

/-- a refused call leaves the candidate as it was -/
theorem refused_keeps {c : Call} {r : ReferenceResult} (u : ReferenceUpload)
    (h : (call sha256 u c).1 = some r) (hr : r ≠ .ok) :
    (call sha256 u c).2.present = u.present ∧ (call sha256 u c).2.isSealed = u.isSealed ∧
    (call sha256 u c).2.candidate.identity = u.candidate.identity ∧
    (call sha256 u c).2.bytes = u.bytes ∧ (call sha256 u c).2.admitted = u.admitted := by
  have hm : Move sha256 u c (call sha256 u c) := move_call c
  generalize call sha256 u c = out at hm h ⊢
  cases hm with
  | refuse c r' hr' he hd => exact ⟨rfl, rfl, rfl, rfl, rfl⟩
  | badCurve p now hs =>
    refine ⟨rfl, rfl, rfl, rfl, ?_⟩
    simp [ReferenceUpload.admitted, withCurve, hs]
  | _ =>
    first
    | exact absurd (Option.some.inj h).symm hr
    | cases h

/-- where the admitted reference comes from -/
theorem Staged.provenance {pre post : History} (h : Staged sha256 s pre post)
    (hs : s.upload.isSealed = true) : Provenance sha256 s s.upload.candidate pre post := by
  obtain ⟨hlen, hfirst, hcurve, hpass⟩ := h.sealed hs
  rw [h.bytes] at hlen hfirst hcurve
  refine { opening := h.opening, new := h.new, keeps := h.keeps, session := h.bound.session,
           joints := h.bound.joints, n := h.bound.n, model := h.bound.model,
           epoch := h.bound.epoch, bytes := h.bytes, inOrder := h.inOrder, length := hlen,
           sealed := hfirst, shape := ?_, parsed := ?_, valid := hpass.valid, starts := ?_ }
  · rw [hcurve]
    exact ⟨rfl, rfl, rfl⟩
  · rw [hcurve]
    exact encode_decodeCurve h.valid hlen
  · split
    case isTrue h0 => exact hpass.initial h0
    case isFalse =>
      have hk := NativeReference.two_le_k hpass.valid
      have hfin := NativeReference.finite_time hpass.valid (show 0 < _ by omega)
      have hge := hpass.starts
      rw [F64.value_of_finite hfin] at hge ⊢
      simpa using hge

end

/-- **Integrity of uploads.**  After any sequence of calls, an admitted reference comes from one
BEGIN accepted since the last epoch change, discard or abort; its bytes are the accepted chunks in
order and hash to the digest of its first accepted SEAL, its curve is their parse.  Newly accepted
BEGINs have increasing upload ids, and a call that is refused leaves the candidate as it was. -/
theorem upload_integrity (sha256 : List (BitVec 8) → Digest) (session joints n : ℕ) (model : Digest)
    (es : List Call) :
    let s := Run.run (step sha256) (opened session joints n model) es
    (s.upload.session = session ∧ s.upload.joints = joints ∧ s.upload.n = n ∧
      s.upload.model = model) ∧
    (∀ a, s.upload.admitted = some a → ∃ pre post, Provenance sha256 s a pre post) ∧
    (begins s.calls).eraseDups.Pairwise (fun b b' => b.uploadId < b'.uploadId) ∧
    ∀ c r, (call sha256 s.upload c).1 = some r → r ≠ .ok →
      (call sha256 s.upload c).2.present = s.upload.present ∧
      (call sha256 s.upload c).2.isSealed = s.upload.isSealed ∧
      (call sha256 s.upload c).2.candidate.identity = s.upload.candidate.identity ∧
      (call sha256 s.upload c).2.bytes = s.upload.bytes ∧
      (call sha256 s.upload c).2.admitted = s.upload.admitted := by
  intro s
  have h : Integrity sha256 s := integrity_run session joints n model es
  refine ⟨?_, ?_, h.increasing, fun c r hc hr => refused_keeps s.upload hc hr⟩
  · refine Run.invariant (I := fun s : Log => s.upload.session = session ∧ s.upload.joints = joints ∧
        s.upload.n = n ∧ s.upload.model = model) ⟨rfl, rfl, rfl, rfl⟩ ?_
      (Run.along_of_forall (C := fun _ _ => True) (fun _ _ => trivial) es)
    rintro s c - ⟨rfl, rfl, rfl, rfl⟩
    exact bound_step _ c
  · intro a ha
    unfold ReferenceUpload.admitted at ha
    split at ha
    case isTrue hps =>
      rw [Bool.and_eq_true] at hps
      obtain ⟨pre, post, hst⟩ := h.staged hps.1
      rw [← Option.some.inj ha]
      exact ⟨pre, post, hst.provenance hps.2⟩
    case isFalse => cases ha

end Upload
end ArmControl.Rt
