import Mathlib.Tactic.Tauto
import ArmControl.RemoteRt.Protocol
import ArmControl.Rt.Wire

/-!
# The two ends of the wire decode alike

The server reads packed structs at fixed offsets with wrapping integers; the client walks a format
string with unbounded ones.  `body` names the fields of a server struct the way the client's
dictionaries do.

* `unpack_header`, `zip_fields`   both ends see the same numbers in the same fields;
* `mode_agrees`, `begin_agrees`, ...   one opcode at a time;
* `decoders_agree`   **on every frame and datagram the two ends accept the same and decode the
                     same.**
-/

namespace ArmControl.RemoteRt
open Bytes
open Rt

/-! ## the fields of a server struct, under the client's names -/

def modeBody (p : Wire.ReferenceModePayload) : Dict :=
  [(.sessionId, .int p.sessionId.toNat), (.jointOrderHash, .int p.jointOrderHash.toNat),
    (.modelDigest, .bytes p.modelDigest), (.enable, .int p.enable.toNat)]

def beginBody (p : Wire.ReferenceBeginPayload) : Dict :=
  [(.sessionId, .int p.sessionId.toNat), (.uploadId, .int p.uploadId.toNat),
    (.referenceId, .int p.referenceId.toNat), (.jointOrderHash, .int p.jointOrderHash.toNat),
    (.modelDigest, .bytes p.modelDigest), (.armEpoch, .int p.armEpoch.toNat),
    (.expectedRevision, .int p.expectedRevision.toNat), (.revision, .int p.revision.toNat),
    (.byteCount, .int p.byteCount.toNat), (.knots, .int p.knots.toNat), (.n, .int p.n.toNat),
    (.flags, .int p.flags.toNat)]

/-- a chunk before its padding is cut off -/
def paddedChunkBody (p : Wire.ReferenceChunkPayload) : Dict :=
  [(.uploadId, .int p.uploadId.toNat), (.offset, .int p.offset.toNat),
    (.length, .int p.length.toNat), (.reserved, .int p.reserved.toNat), (.data, .bytes p.data)]

def chunkBody (p : Wire.ReferenceChunkPayload) : Dict :=
  [(.uploadId, .int p.uploadId.toNat), (.offset, .int p.offset.toNat),
    (.length, .int p.length.toNat), (.reserved, .int p.reserved.toNat),
    (.data, .bytes (p.data.take p.length.toNat))]

def sealBody (p : Wire.ReferenceSealPayload) : Dict :=
  [(.uploadId, .int p.uploadId.toNat), (.sha256, .bytes p.sha256)]

def commitBody (p : Wire.ReferenceCommitPayload) : Dict :=
  [(.sessionId, .int p.sessionId.toNat), (.uploadId, .int p.uploadId.toNat),
    (.referenceId, .int p.referenceId.toNat), (.armEpoch, .int p.armEpoch.toNat),
    (.expectedRevision, .int p.expectedRevision.toNat), (.revision, .int p.revision.toNat),
    (.reserved0, .int p.reserved0.toNat), (.protectedUntil, .float p.protectedUntil),
    (.latestPhase, .float p.latestPhase), (.selectionBudgetNs, .int p.selectionBudgetNs.toNat)]

def retireBody (p : Wire.ReferenceRetirePayload) : Dict :=
  [(.sessionId, .int p.sessionId.toNat), (.id, .int p.id.toNat), (.armEpoch, .int p.armEpoch.toNat),
    (.revision, .int p.revision.toNat)]

def replyBody (p : Wire.ReferenceReplyPayload) : Dict :=
  [(.uploadId, .int p.uploadId.toNat), (.referenceId, .int p.referenceId.toNat),
    (.revision, .int p.revision.toNat), (.result, .int p.result.toNat),
    (.operation, .int p.operation.toNat), (.reserved0, .int p.reserved0.toNat)]

def groupMemberBody (p : Wire.GroupMemberPayload) : Dict :=
  [(.sessionId, .int p.sessionId.toNat), (.groupId, .int p.groupId.toNat),
    (.armEpoch, .int p.armEpoch.toNat), (.memberIndex, .int p.memberIndex.toNat),
    (.memberCount, .int p.memberCount.toNat), (.reserved0, .int p.reserved0.toNat)]

def groupCommitBody (p : Wire.GroupCommitPayload) : Dict :=
  [(.sessionId, .int p.sessionId.toNat), (.groupId, .int p.groupId.toNat),
    (.uploadId, .int p.uploadId.toNat), (.referenceId, .int p.referenceId.toNat),
    (.budgetNs, .int p.budgetNs.toNat), (.armEpoch, .int p.armEpoch.toNat),
    (.memberIndex, .int p.memberIndex.toNat)]

def groupStatusBody (p : Wire.GroupStatusPayload) : Dict :=
  [(.groupId, .int p.groupId.toNat), (.deadlineNs, .int p.deadlineNs.toNat),
    (.selectedNs, .int p.selectedNs.toNat), (.result, .int p.result.toNat),
    (.operation, .int p.operation.toNat), (.state, .int p.state.toNat),
    (.peerVerdict, .int p.peerVerdict.toNat), (.reserved0, .int p.reserved0.toNat)]

def modeSelectBody (p : Wire.ModeSelectPayload) : Dict :=
  [(.sessionId, .int p.sessionId.toNat), (.generation, .int p.generation.toNat),
    (.expectedPredecessor, .int p.expectedPredecessor.toNat), (.armEpoch, .int p.armEpoch.toNat),
    (.desiredMode, .int p.desiredMode.toNat), (.reserved0, .int p.reserved0.toNat),
    (.modelDigest, .bytes p.modelDigest), (.requestFlags, .int p.requestFlags.toNat),
    (.reserved, .bytes p.reserved)]

def modeStatusBody (p : Wire.ModeSelectReplyPayload) : Dict :=
  [(.sessionId, .int p.sessionId.toNat), (.generation, .int p.generation.toNat),
    (.predecessor, .int p.predecessor.toNat), (.armEpoch, .int p.armEpoch.toNat),
    (.result, .int p.result.toNat), (.selectedMode, .int p.selectedMode.toNat),
    (.requestedMode, .int p.requestedMode.toNat), (.detail, .int p.detail.toNat),
    (.reserved, .bytes p.reserved)]

/-- the arrays have `n` live entries -/
def commandBody (p : Wire.ReferenceCommandPacket) : Dict :=
  [(.n, .int p.n.toNat), (.seq, .int p.seq.toNat), (.armEpoch, .int p.armEpoch.toNat),
    (.tMonoNs, .int p.tMonoNs.toNat), (.sessionId, .int p.sessionId.toNat),
    (.referenceId, .int p.referenceId.toNat), (.revision, .int p.revision.toNat),
    (.ageUs, .int p.ageUs.toNat), (.phase, .float p.phase), (.validForUs, .int p.validForUs.toNat),
    (.phaseWindowUs, .int p.phaseWindowUs.toNat),
    (.tauFf, .floats ((List.range p.n.toNat).map p.tauFf)),
    (.kp, .floats ((List.range p.n.toNat).map p.kp)),
    (.kd, .floats ((List.range p.n.toNat).map p.kd))]

/-- the body of an accepted v7 or REFERENCE_MODE frame -/
def referenceBody (type : ℕ) (text : List Byte) : Dict :=
  match type with
  | Wire.ctlReferenceMode => modeBody (.read text)
  | Wire.ctlReferenceBegin => beginBody (.read text)
  | Wire.ctlReferenceChunk => chunkBody (.read text)
  | Wire.ctlReferenceSeal => sealBody (.read text)
  | Wire.ctlReferenceCommit => commitBody (.read text)
  | Wire.ctlReferenceAbort => retireBody (.read text)
  | Wire.ctlCancelReference => retireBody (.read text)
  | Wire.ctlReferenceStatus => replyBody (.read text)
  | Wire.ctlGroupJoin => groupMemberBody (.read text)
  | Wire.ctlGroupCancel => groupMemberBody (.read text)
  | Wire.ctlGroupCommit => groupCommitBody (.read text)
  | Wire.ctlGroupStatus => groupStatusBody (.read text)
  | _ => []

/-! ## formats against offsets -/

theorem unpackFrom_drop (c : Code) (fmt : List Code) (t : List Byte) (at_ : ℕ) :
    unpackFrom (c :: fmt) (t.drop at_) =
      c.value (slice t at_ c.size) :: unpackFrom fmt (t.drop (at_ + c.size)) := by
  rw [unpackFrom, List.drop_drop]
  rfl

theorem unpackFrom_nil (t : List Byte) : unpackFrom [] t = [] := rfl

theorem unpackFrom_start (fmt : List Code) (t : List Byte) :
    unpackFrom fmt t = unpackFrom fmt (t.drop 0) := rfl

theorem unpack_header (t : List Byte) :
    unpackFrom ctlFmt t =
      [.int (Wire.ControlPacket.read t).magic.toNat, .int (Wire.ControlPacket.read t).version.toNat,
        .int (Wire.ControlPacket.read t).type.toNat, .int (Wire.ControlPacket.read t).seq.toNat,
        .int (Wire.ControlPacket.read t).arg.toNat, .int (Wire.ControlPacket.read t).tMonoNs.toNat,
        .bytes (Wire.ControlPacket.read t).text] := by
  rw [unpackFrom_start]
  simp only [ctlFmt, unpackFrom_drop, unpackFrom_nil, Code.size, Code.value, Wire.ControlPacket.read,
    Wire.toNat_u16, Wire.toNat_u32, Wire.toNat_u64, Nat.reduceAdd]

/-! ## numbers against words -/

theorem require_then (a b : Bool) : (do require a; require b) = require (a && b) := by
  cases a <;> rfl

theorem any_eq (b : List Byte) : any b = !Wire.zeroBytes b := by
  rw [any, Wire.zeroBytes, List.any_eq_not_all_not]
  congr 2
  funext x
  exact Bool.not_not _

/-- the client's way to say that a field is not set -/
theorem eq_zero_iff {w : ℕ} (x : BitVec w) : (x == 0) = !(x.toNat != 0) := by
  rw [Wire.beq_zero_toNat, bne, Bool.not_not]

/-- the client's bound on a revision says nothing new about a word -/
theorem succ_iff (x y : BitVec 32) :
    (x != 0 && x == y + 1) =
      (decide (0 < x.toNat) && x.toNat == y.toNat + 1 && decide (y.toNat + 1 ≤ 0xFFFFFFFF)) := by
  have hx := x.isLt
  rw [Wire.succ_toNat, Bool.eq_iff_iff]
  simp only [Bool.and_eq_true, bne_iff_ne, beq_iff_eq, decide_eq_true_eq]
  omega

/-- the flags left after masking two of them out, in 32 bits and without a bound -/
theorem ldiff_iff (x m : BitVec 32) : (x &&& ~~~m == 0) = (Nat.ldiff x.toNat m.toNat == 0) := by
  rw [eq_zero_iff, bne, Bool.not_not]
  congr 1
  apply Nat.eq_of_testBit_eq
  intro i
  rw [BitVec.toNat_and, Nat.testBit_and, Nat.testBit_ldiff, BitVec.testBit_toNat, BitVec.testBit_toNat,
    BitVec.testBit_toNat, BitVec.getLsbD_not]
  rcases Nat.lt_or_ge i 32 with hi | hi
  · simp [hi]
  · simp [BitVec.getLsbD_of_ge _ _ hi]

/-! ## the checks of a body, opcode by opcode -/

theorem mode_check (p : Wire.ReferenceModePayload) (hz : Wire.zeroBytes p.reserved = true) :
    validateReferenceBody ctlReferenceMode (modeBody p) = require p.valid := by
  show require (p.sessionId.toNat != 0 && p.enable.toNat == 1 && any p.modelDigest) = _
  rw [Wire.ReferenceModePayload.valid, hz, Wire.bne_zero_toNat, Wire.beq_toNat, any_eq, Bool.and_true]
  rfl

theorem begin_check (p : Wire.ReferenceBeginPayload) (hz : Wire.zeroBytes p.reserved = true) :
    validateReferenceBody ctlReferenceBegin (beginBody p) = require p.valid := by
  rw [validateReferenceBody]
  simp only [require_then]
  congr 1
  rw [Wire.ReferenceBeginPayload.valid, succ_iff, ldiff_iff, Wire.beq_toNat p.byteCount, hz]
  by_cases hkn : p.knots.toNat ≤ 128 ∧ p.n.toNat ≤ 16
  · rw [p.size_toNat hkn.1 hkn.2]
    simp only [Wire.bne_zero_toNat, any_eq, Bool.and_true, BitVec.le_def, Bool.and_assoc, allSet,
      revisionFollows, List.all_cons, List.all_nil]
    rfl
  · -- out of range on both ends, where the size may wrap
    have hk : ∀ a b c d e f g : Bool, (a && (b && ((c && decide (p.knots.toNat ≤ 128) && d &&
        decide (p.n.toNat ≤ 16)) && (e && (f && g))))) = false := by
      intro a b c d e f g
      rcases not_and_or.mp hkn with h | h <;> simp [h]
    have hk' : ∀ a b c d e f : Bool, (a && decide (p.knots.toNat ≤ 128) && b &&
        decide (p.n.toNat ≤ 16) && c && d && e && f) = false := by
      intro a b c d e f
      rcases not_and_or.mp hkn with h | h <;> simp [h]
    exact (hk _ _ _ _ _ _ _).trans (hk' _ _ _ _ _ _).symm

theorem chunk_check (p : Wire.ReferenceChunkPayload) (hd : p.data.length = 88) :
    validateReferenceBody ctlReferenceChunk (paddedChunkBody p) = require p.valid := by
  rw [validateReferenceBody]
  simp only [require_then]
  congr 1
  show ((p.uploadId.toNat != 0 && !(p.reserved.toNat != 0) && decide (1 ≤ p.length.toNat) &&
      decide (p.length.toNat ≤ 88)) &&
    (decide ((p.offset.toNat : ℤ) ≤ (33792 : ℤ) - p.length.toNat) &&
      !any (p.data.drop p.length.toNat))) = p.valid
  have hw : (p.length.setWidth 32).toNat = p.length.toNat := by
    rw [BitVec.toNat_setWidth, Nat.mod_eq_of_lt]
    have := p.length.isLt
    omega
  have hpos : (p.length != 0) = decide (1 ≤ p.length.toNat) := by
    rw [Wire.bne_zero_toNat, Bool.eq_iff_iff, bne_iff_ne, decide_eq_true_eq]
    omega
  have hlen : decide (p.length.setWidth 32 ≤ Wire.referenceChunkBytes) =
      decide (p.length.toNat ≤ 88) := by
    rw [decide_eq_decide, BitVec.le_def, hw]
    rfl
  rw [Wire.ReferenceChunkPayload.valid, hpos, hlen, Wire.bne_zero_toNat, eq_zero_iff, any_eq, Bool.not_not]
  by_cases h88 : p.length.toNat ≤ 88
  · have hmax : (Wire.maxReferenceBytes - p.length.setWidth 32).toNat = 33792 - p.length.toNat := by
      have hm : Wire.maxReferenceBytes.toNat = 33792 := rfl
      rw [BitVec.toNat_sub_of_le (by rw [BitVec.le_def, hw, hm]; omega), hw, hm]
    have hoff : decide (p.offset ≤ Wire.maxReferenceBytes - p.length.setWidth 32) =
        decide ((p.offset.toNat : ℤ) ≤ (33792 : ℤ) - p.length.toNat) := by
      rw [decide_eq_decide, BitVec.le_def, hmax]
      omega
    have hsl : slice p.data p.length.toNat (88 - p.length.toNat) = p.data.drop p.length.toNat := by
      rw [slice, List.take_of_length_le]
      rw [List.length_drop, hd]
    rw [hoff, hsl]
    simp only [Bool.and_assoc]
  · simp [h88]

theorem seal_check (p : Wire.ReferenceSealPayload) (hz : Wire.zeroBytes p.reserved = true) :
    validateReferenceBody ctlReferenceSeal (sealBody p) = require p.valid := by
  show require (p.uploadId.toNat != 0) = _
  rw [Wire.ReferenceSealPayload.valid, hz, Wire.bne_zero_toNat, Bool.and_true]

/-- the phases of a COMMIT, both finite -/
theorem phases_check {cut latest : F64} (hc : cut.isFinite = true) (hl : latest.isFinite = true)
    (revised budget : Bool) :
    (if revised then Value.lt (.fin 0) latest.value && Value.le latest.value cut.value && !budget
      else Value.eq latest.value cut.value && Value.eq cut.value (.fin 0)) =
    (if revised then !budget && Value.le latest.value cut.value && Value.lt (.fin 0) latest.value
      else Value.eq latest.value (.fin 0) && Value.eq cut.value (.fin 0)) := by
  rw [F64.value_of_finite hc, F64.value_of_finite hl]
  cases revised with
  | true =>
    rw [if_pos rfl, if_pos rfl, Bool.and_comm, Bool.and_comm (Value.lt _ _), Bool.and_assoc]
  | false =>
    rw [if_neg Bool.false_ne_true, if_neg Bool.false_ne_true, Bool.eq_iff_iff]
    simp only [Value.eq_fin, Bool.and_eq_true, decide_eq_true_eq]
    constructor
    · rintro ⟨h, h0⟩
      exact ⟨h.trans h0, h0⟩
    · rintro ⟨h, h0⟩
      exact ⟨h.trans h0.symm, h0⟩

theorem commit_check (p : Wire.ReferenceCommitPayload) (hz : Wire.zeroBytes p.reserved = true) :
    validateReferenceBody ctlReferenceCommit (commitBody p) = require p.valid := by
  rw [validateReferenceBody]
  simp only [require_then]
  congr 1
  rw [Wire.ReferenceCommitPayload.valid, succ_iff, hz]
  by_cases hf : p.protectedUntil.isFinite = true ∧ p.latestPhase.isFinite = true
  · have hph := phases_check hf.1 hf.2 (p.expectedRevision.toNat != 0)
      (p.selectionBudgetNs.toNat != 0)
    simp only [Wire.bne_zero_toNat, eq_zero_iff, Bool.and_true, Bool.and_assoc, allSet, revisionFollows,
      List.all_cons, List.all_nil] at hph ⊢
    rw [← hph]
    rfl
  · have hk : ∀ a b c d e f : Bool, (a && (b && (c && ((p.protectedUntil.isFinite &&
        p.latestPhase.isFinite && d && e) && f)))) = false := by
      intro a b c d e f
      rcases not_and_or.mp hf with h | h <;> simp [h]
    have hk' : ∀ a b c d e : Bool, (a && p.protectedUntil.isFinite && p.latestPhase.isFinite && b &&
        c && d && e) = false := by
      intro a b c d e
      rcases not_and_or.mp hf with h | h <;> simp [h]
    exact (hk _ _ _ _ _ _).trans (hk' _ _ _ _ _).symm

theorem abort_check (p : Wire.ReferenceRetirePayload) (hz : Wire.zeroBytes p.reserved = true) :
    validateReferenceBody ctlReferenceAbort (retireBody p) =
      require (p.valid Wire.ctlReferenceAbort) := by
  rw [validateReferenceBody]
  simp only [require_then]
  congr 1
  rw [Wire.ReferenceRetirePayload.valid, if_pos rfl, hz, Wire.beq_toNat]
  simp only [Wire.bne_zero_toNat, Bool.and_true]
  rfl

theorem cancel_check (p : Wire.ReferenceRetirePayload) (hz : Wire.zeroBytes p.reserved = true) :
    validateReferenceBody ctlCancelReference (retireBody p) =
      require (p.valid Wire.ctlCancelReference) := by
  rw [validateReferenceBody]
  simp only [require_then]
  congr 1
  rw [Wire.ReferenceRetirePayload.valid, if_neg (by decide), hz]
  simp only [Wire.bne_zero_toNat, Bool.and_true, BitVec.lt_def]
  rfl

theorem reply_check (p : Wire.ReferenceReplyPayload) (hz : Wire.zeroBytes p.reserved = true) :
    validateReferenceBody ctlReferenceStatus (replyBody p) = require p.valid := by
  rw [validateReferenceBody]
  simp only [require_then]
  congr 1
  rw [Wire.ReferenceReplyPayload.valid, hz]
  show ((decide (p.result.toNat ≤ 9) && !(p.reserved0.toNat != 0)) &&
    (decide (32 ≤ p.operation.toNat) && decide (p.operation.toNat ≤ 37))) = _
  simp only [eq_zero_iff, Bool.and_true, BitVec.le_def, Bool.and_assoc]
  rw [Bool.and_comm (!_), Bool.and_assoc]
  rfl

theorem groupMember_check (p : Wire.GroupMemberPayload) (hz : Wire.zeroBytes p.reserved = true) :
    validateReferenceBody.groupMember (groupMemberBody p) = require p.valid := by
  rw [validateReferenceBody.groupMember]
  simp only [require_then]
  congr 1
  rw [Wire.GroupMemberPayload.valid, hz]
  simp only [Wire.bne_zero_toNat, eq_zero_iff, Bool.and_true, BitVec.le_def, BitVec.lt_def, Bool.and_assoc,
    allSet, List.all_cons, List.all_nil]
  rfl

theorem groupCommit_check (p : Wire.GroupCommitPayload) (hz : Wire.zeroBytes p.reserved = true) :
    validateReferenceBody ctlGroupCommit (groupCommitBody p) = require p.valid := by
  rw [validateReferenceBody]
  simp only [require_then]
  congr 1
  rw [Wire.GroupCommitPayload.valid, hz]
  simp only [Wire.bne_zero_toNat, Bool.and_true, BitVec.le_def, BitVec.lt_def, Bool.and_assoc, allSet,
    List.all_cons, List.all_nil]
  rfl

theorem groupStatus_check (p : Wire.GroupStatusPayload) (hz : Wire.zeroBytes p.reserved = true) :
    validateReferenceBody ctlGroupStatus (groupStatusBody p) = require p.valid := by
  rw [validateReferenceBody]
  simp only [require_then]
  congr 1
  rw [Wire.GroupStatusPayload.valid, hz, Wire.beq_toNat p.operation]
  simp only [Wire.bne_zero_toNat, eq_zero_iff, Bool.and_true, BitVec.le_def, Bool.and_assoc]
  rfl

/-! ## the bodies -/

theorem drop_eq_slice {t : List Byte} {at_ len : ℕ} (h : t.length = at_ + len) :
    t.drop at_ = slice t at_ len := by
  rw [slice, List.take_of_length_le]
  rw [List.length_drop]
  omega

/-- a body with trailing reserved bytes: `d` is its dictionary, `valid` the server's verdict -/
theorem padded_agrees {op : ℕ} {l : Layout} {t : List Byte} {d : Dict} {valid : Bool} {n : ℕ}
    (hop : op ≠ ctlReferenceChunk) (hpad : l.padding ≠ 0) (ht : t.length = n + l.padding)
    (hzip : l.names.zip (unpackFrom l.fmt t) = d)
    (hcheck : Wire.zeroBytes (slice t n l.padding) = true →
      validateReferenceBody op d = require valid)
    (hbad : Wire.zeroBytes (slice t n l.padding) = false → valid = false) :
    (unpackReferenceBody op l t).toOption = if valid then some d else none := by
  have hdrop : t.drop (t.length - l.padding) = slice t n l.padding := by
    rw [← drop_eq_slice ht]
    congr 1
    omega
  unfold unpackReferenceBody
  rw [hdrop, hzip, any_eq]
  cases hz : Wire.zeroBytes (slice t n l.padding) with
  | false =>
    rw [hbad hz, if_pos ⟨hpad, rfl⟩]
    rfl
  | true =>
    rw [if_neg (fun h => Bool.false_ne_true h.2)]
    dsimp only
    rw [hcheck hz, if_neg hop]
    cases valid <;> rfl

theorem not_valid_of_reserved {a z : Bool} (h : z = false) : (a && z) = false := by
  rw [h, Bool.and_false]

theorem mode_zip (t : List Byte) :
    List.zip [.sessionId, .jointOrderHash, .modelDigest, .enable]
      (unpackFrom [.q, .q, .s 32, .i] t) = modeBody (.read t) := by
  rw [unpackFrom_start]
  simp only [unpackFrom_drop, unpackFrom_nil, Code.size, Code.value, Wire.ReferenceModePayload.read,
    modeBody, Wire.toNat_u32, Wire.toNat_u64, Nat.reduceAdd, List.zip_cons_cons, List.zip_nil_left]

theorem begin_zip (t : List Byte) :
    List.zip [.sessionId, .uploadId, .referenceId, .jointOrderHash, .modelDigest, .armEpoch,
          .expectedRevision, .revision, .byteCount, .knots, .n, .flags]
      (unpackFrom [.q, .q, .q, .q, .s 32, .i, .i, .i, .i, .h, .h, .i] t) = beginBody (.read t) := by
  rw [unpackFrom_start]
  simp only [unpackFrom_drop, unpackFrom_nil, Code.size, Code.value, Wire.ReferenceBeginPayload.read,
    beginBody, Wire.toNat_u16, Wire.toNat_u32, Wire.toNat_u64, Nat.reduceAdd, List.zip_cons_cons,
    List.zip_nil_left]

theorem chunk_zip (t : List Byte) :
    List.zip [.uploadId, .offset, .length, .reserved, .data]
      (unpackFrom [.q, .i, .h, .h, .s 88] t) = paddedChunkBody (.read t) := by
  rw [unpackFrom_start]
  simp only [unpackFrom_drop, unpackFrom_nil, Code.size, Code.value, Wire.ReferenceChunkPayload.read,
    paddedChunkBody, Wire.toNat_u16, Wire.toNat_u32, Wire.toNat_u64, Nat.reduceAdd,
    List.zip_cons_cons, List.zip_nil_left]

theorem seal_zip (t : List Byte) :
    List.zip [.uploadId, .sha256] (unpackFrom [.q, .s 32] t) = sealBody (.read t) := by
  rw [unpackFrom_start]
  simp only [unpackFrom_drop, unpackFrom_nil, Code.size, Code.value, Wire.ReferenceSealPayload.read,
    sealBody, Wire.toNat_u64, Nat.reduceAdd, List.zip_cons_cons, List.zip_nil_left]

theorem commit_zip (t : List Byte) :
    List.zip [.sessionId, .uploadId, .referenceId, .armEpoch, .expectedRevision, .revision,
        .reserved0, .protectedUntil, .latestPhase, .selectionBudgetNs]
      (unpackFrom [.q, .q, .q, .i, .i, .i, .i, .d, .d, .q] t) = commitBody (.read t) := by
  rw [unpackFrom_start]
  simp only [unpackFrom_drop, unpackFrom_nil, Code.size, Code.value, Wire.ReferenceCommitPayload.read,
    commitBody, Wire.f64, Wire.u64, Wire.toNat_u32, Wire.toNat_field t _ 8, Nat.reduceAdd,
    List.zip_cons_cons, List.zip_nil_left]

theorem retire_zip (t : List Byte) :
    List.zip [.sessionId, .id, .armEpoch, .revision] (unpackFrom [.q, .q, .i, .i] t) =
      retireBody (.read t) := by
  rw [unpackFrom_start]
  simp only [unpackFrom_drop, unpackFrom_nil, Code.size, Code.value, Wire.ReferenceRetirePayload.read,
    retireBody, Wire.toNat_u32, Wire.toNat_u64, Nat.reduceAdd, List.zip_cons_cons, List.zip_nil_left]

theorem reply_zip (t : List Byte) :
    List.zip [.uploadId, .referenceId, .revision, .result, .operation, .reserved0]
      (unpackFrom [.q, .q, .i, .i, .i, .i] t) = replyBody (.read t) := by
  rw [unpackFrom_start]
  simp only [unpackFrom_drop, unpackFrom_nil, Code.size, Code.value, Wire.ReferenceReplyPayload.read,
    replyBody, Wire.toNat_u32, Wire.toNat_u64, Nat.reduceAdd, List.zip_cons_cons, List.zip_nil_left]

theorem groupMember_zip (t : List Byte) :
    List.zip [.sessionId, .groupId, .armEpoch, .memberIndex, .memberCount, .reserved0]
      (unpackFrom [.q, .q, .i, .i, .i, .i] t) = groupMemberBody (.read t) := by
  rw [unpackFrom_start]
  simp only [unpackFrom_drop, unpackFrom_nil, Code.size, Code.value, Wire.GroupMemberPayload.read,
    groupMemberBody, Wire.toNat_u32, Wire.toNat_u64, Nat.reduceAdd, List.zip_cons_cons,
    List.zip_nil_left]

theorem groupCommit_zip (t : List Byte) :
    List.zip [.sessionId, .groupId, .uploadId, .referenceId, .budgetNs, .armEpoch, .memberIndex]
      (unpackFrom [.q, .q, .q, .q, .q, .i, .i] t) = groupCommitBody (.read t) := by
  rw [unpackFrom_start]
  simp only [unpackFrom_drop, unpackFrom_nil, Code.size, Code.value, Wire.GroupCommitPayload.read,
    groupCommitBody, Wire.toNat_u32, Wire.toNat_u64, Nat.reduceAdd, List.zip_cons_cons,
    List.zip_nil_left]

theorem groupStatus_zip (t : List Byte) :
    List.zip [.groupId, .deadlineNs, .selectedNs, .result, .operation, .state, .peerVerdict,
        .reserved0] (unpackFrom [.q, .q, .q, .i, .i, .i, .i, .i] t) = groupStatusBody (.read t) := by
  rw [unpackFrom_start]
  simp only [unpackFrom_drop, unpackFrom_nil, Code.size, Code.value, Wire.GroupStatusPayload.read,
    groupStatusBody, Wire.toNat_u32, Wire.toNat_u64, Nat.reduceAdd, List.zip_cons_cons,
    List.zip_nil_left]

section
variable {t : List Byte} (ht : t.length = 104)
include ht

theorem chunk_agrees {l : Layout} (hl : referenceLayouts ctlReferenceChunk = some l) :
    (unpackReferenceBody ctlReferenceChunk l t).toOption =
      if (Wire.ReferenceChunkPayload.read t).valid then some (chunkBody (.read t)) else none := by
  have hd : (Wire.ReferenceChunkPayload.read t).data.length = 88 := length_slice (by omega)
  have hcheck := chunk_check (Wire.ReferenceChunkPayload.read t) hd
  obtain rfl := (Option.some.inj hl).symm
  unfold unpackReferenceBody
  dsimp only
  rw [if_neg (fun h => h.1 rfl), chunk_zip, hcheck]
  cases (Wire.ReferenceChunkPayload.read t).valid <;> rfl

/-- one opcode's body, on both ends -/
theorem body_agrees {op : ℕ} {l : Layout} (hl : referenceLayouts op = some l) :
    (unpackReferenceBody op l t).toOption =
      if Wire.validReferenceBody op t then some (referenceBody op t) else none := by
  unfold referenceLayouts at hl
  split at hl
  case h_1 =>
    obtain rfl := (Option.some.inj hl).symm
    exact padded_agrees (n := 52) (by decide) (by decide) ht (mode_zip t) (mode_check (.read t))
      not_valid_of_reserved
  case h_2 =>
    obtain rfl := (Option.some.inj hl).symm
    exact padded_agrees (n := 88) (by decide) (by decide) ht (begin_zip t) (begin_check (.read t))
      not_valid_of_reserved
  case h_3 => exact chunk_agrees ht hl
  case h_4 =>
    obtain rfl := (Option.some.inj hl).symm
    exact padded_agrees (n := 40) (by decide) (by decide) ht (seal_zip t) (seal_check (.read t))
      not_valid_of_reserved
  case h_5 =>
    obtain rfl := (Option.some.inj hl).symm
    exact padded_agrees (n := 64) (by decide) (by decide) ht (commit_zip t)
      (commit_check (.read t)) not_valid_of_reserved
  case h_6 =>
    obtain rfl := (Option.some.inj hl).symm
    exact padded_agrees (n := 24) (by decide) (by decide) ht (retire_zip t)
      (abort_check (.read t)) not_valid_of_reserved
  case h_7 =>
    obtain rfl := (Option.some.inj hl).symm
    exact padded_agrees (n := 24) (by decide) (by decide) ht (retire_zip t)
      (cancel_check (.read t)) not_valid_of_reserved
  case h_8 =>
    obtain rfl := (Option.some.inj hl).symm
    exact padded_agrees (n := 32) (by decide) (by decide) ht (reply_zip t)
      (reply_check (.read t)) not_valid_of_reserved
  case h_9 =>
    obtain rfl := (Option.some.inj hl).symm
    exact padded_agrees (n := 32) (by decide) (by decide) ht (groupMember_zip t)
      (groupMember_check (.read t)) not_valid_of_reserved
  case h_10 =>
    obtain rfl := (Option.some.inj hl).symm
    exact padded_agrees (n := 32) (by decide) (by decide) ht (groupMember_zip t)
      (groupMember_check (.read t)) not_valid_of_reserved
  case h_11 =>
    obtain rfl := (Option.some.inj hl).symm
    exact padded_agrees (n := 48) (by decide) (by decide) ht (groupCommit_zip t)
      (groupCommit_check (.read t)) not_valid_of_reserved
  case h_12 =>
    obtain rfl := (Option.some.inj hl).symm
    exact padded_agrees (n := 44) (by decide) (by decide) ht (groupStatus_zip t)
      (groupStatus_check (.read t)) not_valid_of_reserved
  case h_13 => cases hl

end

/-! ## the frames -/

/-- an opcode without a layout is refused by the server too -/
theorem layout_none {op : ℕ} (h : referenceLayouts op = none) (t : List Byte) :
    Wire.validReferenceBody op t = false := by
  unfold referenceLayouts at h
  split at h
  case h_13 => unfold Wire.validReferenceBody; split <;> first | rfl | contradiction
  all_goals cases h

theorem layout_some {op : ℕ} {l : Layout} (h : referenceLayouts op = some l) :
    op = ctlReferenceMode ∨ (op ≠ ctlReferenceMode ∧ Wire.referenceOpcode op = true) := by
  unfold referenceLayouts at h
  split at h
  case h_1 => exact .inl rfl
  case h_13 => cases h
  all_goals exact .inr ⟨by decide, by decide⟩

/-- the two header tests -/
theorem header_agrees {op : ℕ} {l : Layout} (h : referenceLayouts op = some l)
    (negotiated : Bool) (magic arg : BitVec 32) (ver : BitVec 16) :
    (magic.toNat != magicCtl ||
      ver.toNat != (if op = ctlReferenceMode then version else referenceVersion) ||
      arg.toNat != 0 || (op != ctlReferenceMode && !negotiated)) =
    (magic != Wire.magicCtl || arg != 0 ||
      (if op = Wire.ctlReferenceMode then ver != Wire.version
        else !negotiated || ver != Wire.referenceVersion || !Wire.referenceOpcode op)) := by
  have hm : (magic != Wire.magicCtl) = (magic.toNat != magicCtl) := by
    rw [bne, bne, Wire.beq_toNat]
    rfl
  have hv : (ver != Wire.version) = (ver.toNat != version) := by
    rw [bne, bne, Wire.beq_toNat]
    rfl
  have hr : (ver != Wire.referenceVersion) = (ver.toNat != referenceVersion) := by
    rw [bne, bne, Wire.beq_toNat]
    rfl
  rw [hm, hv, hr, Wire.bne_zero_toNat arg]
  rcases layout_some h with rfl | ⟨hne, hop⟩
  · rw [if_pos rfl, if_pos rfl, show (ctlReferenceMode != ctlReferenceMode) = false from rfl,
      Bool.false_and, Bool.or_false, Bool.or_assoc, Bool.or_comm (ver.toNat != _), ← Bool.or_assoc]
  · rw [if_neg hne, if_neg hne, hop, bne_iff_ne.mpr hne, Bool.true_and, Bool.not_true, Bool.or_false,
      Bool.or_comm (!negotiated), Bool.or_assoc (magic.toNat != _), Bool.or_comm (ver.toNat != _),
      ← Bool.or_assoc, Bool.or_assoc]

/-- **v7 and REFERENCE_MODE frames.** -/
theorem referenceControl_agrees (data : List Byte) (negotiated : Bool) :
    (unpackReferenceControl data negotiated).toOption =
      (Wire.decodeReferenceControl data negotiated).map
        (fun p => (p.type.toNat, p.seq.toNat, referenceBody p.type.toNat p.text)) := by
  unfold unpackReferenceControl Wire.decodeReferenceControl ctlSize
  by_cases hlen : data.length = 128
  · rw [if_neg (not_not.mpr hlen), if_neg (not_not.mpr hlen), unpack_header]
    have htext : (Wire.ControlPacket.read data).text.length = 104 := length_slice (by omega)
    generalize Wire.ControlPacket.read data = p at htext ⊢
    dsimp only
    cases hl : referenceLayouts p.type.toNat with
    | none =>
      rw [layout_none hl, Bool.not_false, Bool.or_true]
      rfl
    | some l =>
      have hb := body_agrees htext hl
      dsimp only
      rw [header_agrees hl negotiated p.magic p.arg p.version]
      generalize (p.magic != Wire.magicCtl || p.arg != 0 || _) = refused
      cases refused with
      | true =>
        rw [Bool.true_or, if_pos rfl, if_pos rfl]
        rfl
      | false =>
        rw [Bool.false_or, if_neg Bool.false_ne_true]
        cases hv : Wire.validReferenceBody p.type.toNat p.text with
        | false =>
          rw [hv, if_neg Bool.false_ne_true] at hb
          rw [Bool.not_false, if_pos rfl]
          cases hu : unpackReferenceBody p.type.toNat l p.text with
          | error e => rfl
          | ok d =>
            rw [hu] at hb
            cases hb
        | true =>
          rw [hv, if_pos rfl] at hb
          rw [Bool.not_true, if_neg Bool.false_ne_true]
          cases hu : unpackReferenceBody p.type.toNat l p.text with
          | error e =>
            rw [hu] at hb
            cases hb
          | ok d =>
            rw [hu] at hb
            obtain rfl := Option.some.inj hb
            rfl
  · rw [if_pos hlen, if_pos hlen]
    rfl

/-- the mode opcodes: one body, one check -/
theorem mode_opcode_agrees {what : String} {opcode : ℕ} {names : List Field} {fmt : List Code}
    {check : Dict → Except String Unit} {body : List Byte → Dict} {valid : List Byte → Bool}
    (hzip : ∀ t, names.zip (unpackFrom fmt t) = body t)
    (hcheck : ∀ t, (check (body t)).toOption = if valid t then some () else none) (data : List Byte) :
    (unpackMode what opcode names fmt check data).toOption =
      if data.length ≠ 128 then none
      else if (Wire.ControlPacket.read data).magic != Wire.magicCtl ||
          (Wire.ControlPacket.read data).arg != 0 ||
          (Wire.ControlPacket.read data).type.toNat != opcode ||
          (Wire.ControlPacket.read data).version != Wire.version then none
      else if !valid (Wire.ControlPacket.read data).text then none
      else some (body (Wire.ControlPacket.read data).text ++
        [(.seq, .int (Wire.ControlPacket.read data).seq.toNat)]) := by
  unfold unpackMode ctlSize
  by_cases hlen : data.length = 128
  · rw [if_neg (not_not.mpr hlen), if_neg (not_not.mpr hlen), unpack_header]
    generalize Wire.ControlPacket.read data = p
    dsimp only
    have hm : (p.magic != Wire.magicCtl) = (p.magic.toNat != magicCtl) := by
      rw [bne, bne, Wire.beq_toNat]
      rfl
    have hv : (p.version != Wire.version) = (p.version.toNat != version) := by
      rw [bne, bne, Wire.beq_toNat]
      rfl
    have hhead : (p.magic.toNat != magicCtl || p.version.toNat != version || p.arg.toNat != 0 ||
        p.type.toNat != opcode) = (p.magic != Wire.magicCtl || p.arg != 0 || p.type.toNat != opcode ||
        p.version != Wire.version) := by
      rw [hm, hv, Wire.bne_zero_toNat p.arg, Bool.or_assoc (p.magic.toNat != _), Bool.or_assoc,
        Bool.or_assoc (p.magic.toNat != _), Bool.or_assoc, Bool.or_assoc,
        Bool.or_comm (p.version.toNat != _), Bool.or_assoc]
    rw [hhead, hzip]
    have hc := hcheck p.text
    split
    case isTrue => rfl
    case isFalse =>
      cases hval : valid p.text with
      | false =>
        rw [hval, if_neg Bool.false_ne_true] at hc
        rw [Bool.not_false, if_pos rfl]
        cases hu : check (body p.text) with
        | error e => rfl
        | ok d =>
          rw [hu] at hc
          cases hc
      | true =>
        rw [hval, if_pos rfl] at hc
        rw [Bool.not_true, if_neg Bool.false_ne_true]
        cases hu : check (body p.text) with
        | error e =>
          rw [hu] at hc
          cases hc
        | ok d => rfl
  · rw [if_pos hlen, if_pos hlen]
    rfl

/-- one test of a chain of refusals -/
theorem toOption_refuse {c v : Bool} {e : String} {x : Except String Unit}
    (h : x.toOption = if v then some () else none) :
    (if c = true then .error e else x).toOption = if (!c && v) = true then some () else none := by
  cases c with
  | true => rfl
  | false => exact h

theorem modeSelect_check (p : Wire.ModeSelectPayload) :
    (checkModeSelect (modeSelectBody p)).toOption = if p.valid then some () else none := by
  have hchain : (checkModeSelect (modeSelectBody p)).toOption = if
      !(p.reserved0.toNat != 0 || p.requestFlags.toNat != 0 || any p.reserved) &&
      (!!(p.sessionId.toNat != 0 && p.generation.toNat != 0 && p.armEpoch.toNat != 0) &&
      (!(p.generation.toNat != p.expectedPredecessor.toNat + 1) &&
      (!!(p.desiredMode.toNat == 1 || p.desiredMode.toNat == 2) &&
      (!((p.desiredMode.toNat == 2) != any p.modelDigest) && true)))) then some () else none :=
    toOption_refuse (toOption_refuse (toOption_refuse (toOption_refuse (toOption_refuse rfl))))
  have hsucc : (p.generation != 0 && p.generation == p.expectedPredecessor + 1) =
      (p.generation.toNat != 0 && !(p.generation.toNat != p.expectedPredecessor.toNat + 1)) := by
    rw [Wire.succ_toNat, bne, bne, Bool.not_not]
  have hmode : (if p.desiredMode = Wire.modeReference then !Wire.zeroBytes p.modelDigest
      else Wire.zeroBytes p.modelDigest) = !((p.desiredMode.toNat == 2) != any p.modelDigest) := by
    have hiff : p.desiredMode = Wire.modeReference ↔ (p.desiredMode.toNat == 2) = true := by
      rw [beq_iff_eq, ← BitVec.toNat_inj]
      rfl
    rw [any_eq]
    by_cases h : p.desiredMode = Wire.modeReference
    · rw [if_pos h, hiff.mp h]
      cases Wire.zeroBytes p.modelDigest <;> rfl
    · rw [if_neg h, Bool.eq_false_iff.mpr (fun h2 => h (hiff.mpr h2))]
      cases Wire.zeroBytes p.modelDigest <;> rfl
  have hs : (p.desiredMode == Wire.modeStreamed) = (p.desiredMode.toNat == 1) := Wire.beq_toNat _ _
  have hr : (p.desiredMode == Wire.modeReference) = (p.desiredMode.toNat == 2) := Wire.beq_toNat _ _
  rw [hchain, Wire.ModeSelectPayload.valid, hsucc, hmode, hs, hr, Wire.bne_zero_toNat, Wire.bne_zero_toNat,
    eq_zero_iff, eq_zero_iff, any_eq p.reserved]
  congr 1
  rw [eq_iff_iff]
  simp only [Bool.and_eq_true, Bool.not_eq_true', Bool.or_eq_false_iff, Bool.not_not,
    Bool.not_eq_false']
  tauto

theorem modeStatus_check (p : Wire.ModeSelectReplyPayload) :
    (checkModeStatus (modeStatusBody p)).toOption = if p.valid then some () else none := by
  have hchain : (checkModeStatus (modeStatusBody p)).toOption = if
      !any p.reserved &&
      (!!decide (p.result.toNat ≤ 7) &&
      (!!(p.requestedMode.toNat == 1 || p.requestedMode.toNat == 2) &&
      (!!(p.selectedMode.toNat == 0 || p.selectedMode.toNat == 1 || p.selectedMode.toNat == 2) &&
        true))) then some () else none :=
    toOption_refuse (toOption_refuse (toOption_refuse (toOption_refuse rfl)))
  have hres : decide (p.result ≤ Wire.modeSelRefused) = decide (p.result.toNat ≤ 7) := by
    rw [decide_eq_decide, BitVec.le_def]
    rfl
  rw [hchain, Wire.ModeSelectReplyPayload.valid, hres, any_eq]
  simp only [Wire.beq_toNat p.selectedMode, Wire.beq_toNat p.requestedMode]
  congr 1
  rw [eq_iff_iff]
  simp only [Bool.and_eq_true, Bool.not_not]
  tauto

theorem modeSelect_zip (t : List Byte) :
    List.zip [.sessionId, .generation, .expectedPredecessor, .armEpoch, .desiredMode, .reserved0,
        .modelDigest, .requestFlags, .reserved] (unpackFrom modeSelectFmt t) =
      modeSelectBody (.read t) := by
  rw [unpackFrom_start]
  simp only [modeSelectFmt, unpackFrom_drop, unpackFrom_nil, Code.size, Code.value,
    Wire.ModeSelectPayload.read, modeSelectBody, Wire.toNat_u16, Wire.toNat_u32, Wire.toNat_u64,
    Nat.reduceAdd, List.zip_cons_cons, List.zip_nil_left]

theorem modeStatus_zip (t : List Byte) :
    List.zip [.sessionId, .generation, .predecessor, .armEpoch, .result, .selectedMode,
        .requestedMode, .detail, .reserved] (unpackFrom modeStatusFmt t) =
      modeStatusBody (.read t) := by
  rw [unpackFrom_start]
  simp only [modeStatusFmt, unpackFrom_drop, unpackFrom_nil, Code.size, Code.value,
    Wire.ModeSelectReplyPayload.read, modeStatusBody, Wire.toNat_u16, Wire.toNat_u32, Wire.toNat_u64,
    Nat.reduceAdd, List.zip_cons_cons, List.zip_nil_left]

/-- **MODE_SELECT frames.** -/
theorem modeSelect_agrees (data : List Byte) :
    (unpackModeSelect data).toOption = (Wire.decodeModeSelect data Wire.ctlModeSelect).map
      (fun p => modeSelectBody (.read p.text) ++ [(.seq, .int p.seq.toNat)]) := by
  rw [unpackModeSelect, mode_opcode_agrees modeSelect_zip (fun t => modeSelect_check (.read t)),
    Wire.decodeModeSelect]
  rw [if_pos rfl]
  split_ifs <;> rfl

/-- **MODE_STATUS frames.** -/
theorem modeStatus_agrees (data : List Byte) :
    (unpackModeStatus data).toOption = (Wire.decodeModeSelect data Wire.ctlModeStatus).map
      (fun p => modeStatusBody (.read p.text) ++ [(.seq, .int p.seq.toNat)]) := by
  rw [unpackModeStatus, mode_opcode_agrees modeStatus_zip (fun t => modeStatus_check (.read t)),
    Wire.decodeModeSelect]
  rw [if_neg (show Wire.ctlModeStatus ≠ Wire.ctlModeSelect by decide)]
  split_ifs <;> rfl

/-! ## the dynamics envelope -/

theorem unpackFrom_doubles (t : List Byte) (at_ n : ℕ) :
    unpackFrom (List.replicate n .d) (t.drop at_) =
      (List.range n).map (fun j => .float (Wire.f64 t (at_ + 8 * j))) := by
  induction n generalizing at_ with
  | zero => rfl
  | succ n ih =>
    rw [List.replicate_succ, unpackFrom_drop, ih, List.range_succ_eq_map, List.map_cons, List.map_map]
    congr 1
    apply List.map_congr_left
    intro j _
    show Val.float (Wire.f64 t (at_ + 8 + 8 * j)) = Val.float (Wire.f64 t (at_ + 8 * (j + 1)))
    congr 2
    omega

theorem unpack_command (t : List Byte) :
    unpackFrom referenceCmdFmt t =
      let p := Wire.ReferenceCommandPacket.read t
      [.int p.magic.toNat, .int p.version.toNat, .int p.n.toNat, .int p.seq.toNat,
        .int p.armEpoch.toNat, .int p.tMonoNs.toNat, .int p.sessionId.toNat,
        .int p.referenceId.toNat, .int p.revision.toNat, .int p.ageUs.toNat, .float p.phase,
        .int p.validForUs.toNat, .int p.phaseWindowUs.toNat] ++
      (List.range 48).map (fun j => .float (Wire.f64 t (64 + 8 * j))) := by
  rw [unpackFrom_start, referenceCmdFmt]
  simp only [List.cons_append, List.nil_append, unpackFrom_drop, unpackFrom_doubles, Code.size,
    Code.value, Wire.ReferenceCommandPacket.read, Wire.f64, Wire.u64, Wire.toNat_u16, Wire.toNat_u32,
    Wire.toNat_field t _ 8, Nat.reduceAdd]

theorem floats_map (f : ℕ → F64) (n : ℕ) :
    floats ((List.range n).map (fun j => .float (f j))) = (List.range n).map f := by
  rw [floats, List.filterMap_map]
  exact congrFun List.filterMap_eq_map _

theorem drop_map_range {α : Type} (f : ℕ → α) (m n : ℕ) :
    ((List.range n).map f).drop m = (List.range (n - m)).map (fun j => f (m + j)) := by
  apply List.ext_getElem
  · simp
  · intro i h h'
    simp

theorem take_map_range {α : Type} (f : ℕ → α) {m n : ℕ} (h : m ≤ n) :
    ((List.range n).map f).take m = (List.range m).map f := by
  rw [← List.map_take, List.take_range, Nat.min_eq_left h]

/-- the three arrays of an envelope -/
theorem command_arrays (t : List Byte) :
    ((List.range 3).map fun j =>
      (floats ((List.range 48).map fun j => .float (Wire.f64 t (64 + 8 * j)))).extract (j * 16)
        ((j + 1) * 16)) =
    [(List.range 16).map (Wire.ReferenceCommandPacket.read t).tauFf,
      (List.range 16).map (Wire.ReferenceCommandPacket.read t).kp,
      (List.range 16).map (Wire.ReferenceCommandPacket.read t).kd] := by
  have hex : ∀ a, a + 16 ≤ 48 → ((List.range 48).map fun j => Wire.f64 t (64 + 8 * j)).extract a
      (a + 16) = (List.range 16).map fun j => Wire.f64 t (64 + 8 * a + 8 * j) := by
    intro a ha
    rw [List.extract_eq_take_drop, drop_map_range, Nat.add_sub_cancel_left,
      take_map_range _ (by omega)]
    apply List.map_congr_left
    intro j _
    congr 1
    omega
  rw [floats_map fun j => Wire.f64 t (64 + 8 * j)]
  have hex' := fun j (hj : j < 3) => hex (j * 16) (by omega)
  show [_, _, _] = _
  refine congrArg₂ List.cons ((hex' 0 (by decide)).trans ?_) (congrArg₂ List.cons
    ((hex' 1 (by decide)).trans ?_) (congrArg₂ List.cons ((hex' 2 (by decide)).trans ?_) rfl))
  all_goals rfl

theorem any_map_range {f : ℕ → F64} {g : F64 → Bool} {n : ℕ} :
    ((List.range n).map f).any g = true ↔ ∃ j < n, g (f j) = true := by
  simp

/-- the padding of an array -/
theorem any_drop_range {f : ℕ → F64} {g : F64 → Bool} {m n : ℕ} :
    (((List.range n).map f).drop m).any g = true ↔ ∃ j < n, m ≤ j ∧ g (f j) = true := by
  rw [drop_map_range, any_map_range (f := fun j => f (m + j))]
  constructor
  · rintro ⟨j, hj, h⟩
    exact ⟨m + j, by omega, by omega, h⟩
  · rintro ⟨j, hj, hm, h⟩
    refine ⟨j - m, by omega, ?_⟩
    rw [Nat.add_sub_cancel' hm]
    exact h

/-- the client's test of the arrays, entry by entry -/
theorem arrays_check (tau kp kd : ℕ → F64) (n : ℕ) :
    (([(List.range 16).map tau, (List.range 16).map kp, (List.range 16).map kd].any
        (fun a => a.any fun x => !x.isFinite) ||
      ([(List.range 16).map tau, (List.range 16).map kp, (List.range 16).map kd].drop 1).any
        (fun a => a.any fun x => Value.lt x.value (.fin 0)) ||
      [(List.range 16).map tau, (List.range 16).map kp, (List.range 16).map kd].any
        (fun a => (a.drop n).any fun x => !Value.eq x.value (.fin 0))) = true) ↔
    ¬ ((List.range 16).all fun j =>
      (tau j).isFinite && (kp j).isFinite && (kd j).isFinite &&
        !Value.lt (kp j).value (.fin 0) && !Value.lt (kd j).value (.fin 0) &&
        !(decide (n ≤ j) &&
          (!Value.eq (tau j).value (.fin 0) || !Value.eq (kp j).value (.fin 0) ||
            !Value.eq (kd j).value (.fin 0)))) = true := by
  rw [List.all_eq_true]
  simp only [List.drop_succ_cons, List.drop_zero, List.any_cons, List.any_nil, Bool.or_false,
    Bool.or_eq_true, any_map_range, any_drop_range, List.mem_range, Bool.and_eq_true,
    Bool.not_eq_true', Bool.and_eq_false_iff, Bool.or_eq_false_iff, decide_eq_false_iff_not]
  constructor
  · rintro h hall
    rcases h with ((⟨j, hj, h⟩ | ⟨j, hj, h⟩ | ⟨j, hj, h⟩) | ⟨j, hj, h⟩ | ⟨j, hj, h⟩) |
      ⟨j, hj, hm, h⟩ | ⟨j, hj, hm, h⟩ | ⟨j, hj, hm, h⟩ <;>
      · have := hall j hj
        simp_all
  · intro h
    push Not at h
    obtain ⟨j, hj, h⟩ := h
    by_contra hc
    push Not at hc
    obtain ⟨⟨⟨h1, h2, h3⟩, h4, h5⟩, h6, h7, h8⟩ := hc
    have e1 := h1 j hj
    have e2 := h2 j hj
    have e3 := h3 j hj
    have e4 := h4 j hj
    have e5 := h5 j hj
    have e6 := h6 j hj
    have e7 := h7 j hj
    have e8 := h8 j hj
    simp_all

/-- the client's test of the header -/
theorem command_header (p : Wire.ReferenceCommandPacket) :
    (p.magic.toNat != magicCmd || p.version.toNat != referenceVersion ||
      !(decide (1 ≤ p.n.toNat) && decide (p.n.toNat ≤ maxJoints)) ||
      !(p.armEpoch.toNat != 0 && (p.sessionId.toNat != 0 && (p.referenceId.toNat != 0 &&
        (p.revision.toNat != 0 && (p.validForUs.toNat != 0 && (p.phaseWindowUs.toNat != 0 &&
          true)))))) ||
      !p.phase.isFinite || Value.lt p.phase.value (.fin 0) ||
      decide (p.validForUs.toNat < p.ageUs.toNat)) =
    !(p.magic == Wire.magicCmd && p.version == Wire.referenceVersion && decide (1 ≤ p.n) &&
      decide (p.n.toNat ≤ Wire.maxJoints) && p.sessionId != 0 && p.armEpoch != 0 &&
      p.referenceId != 0 && p.revision != 0 && p.phase.isFinite &&
      !Value.lt p.phase.value (.fin 0) && p.validForUs != 0 && p.phaseWindowUs != 0 &&
      !decide (p.validForUs < p.ageUs)) := by
  have hm : (p.magic == Wire.magicCmd) = (p.magic.toNat == magicCmd) := Wire.beq_toNat _ _
  have hv : (p.version == Wire.referenceVersion) = (p.version.toNat == referenceVersion) :=
    Wire.beq_toNat _ _
  have hn : decide (1 ≤ p.n) = decide (1 ≤ p.n.toNat) := by
    rw [decide_eq_decide, BitVec.le_def]
    rfl
  have hage : decide (p.validForUs < p.ageUs) = decide (p.validForUs.toNat < p.ageUs.toNat) := by
    rw [decide_eq_decide, BitVec.lt_def]
  rw [hm, hv, hn, hage, bne, bne, Bool.eq_iff_iff]
  simp only [Wire.bne_zero_toNat, Bool.and_true, Bool.or_eq_true, Bool.not_eq_true', Bool.and_eq_false_iff,
    Bool.not_eq_false', show Wire.maxJoints = maxJoints from rfl]
  tauto

/-- the two tests of the client together are the server's -/
theorem command_verdict (p : Wire.ReferenceCommandPacket) {A B head entries : Bool} {d : Dict}
    (hvalid : p.valid = (head && entries)) (hA : A = !head) (hB : B = true ↔ ¬ entries = true)
    (hd : head = true → d = commandBody p) (e e' : String) :
    (if A = true then Except.error e else if B = true then .error e' else .ok d).toOption =
      (if p.valid = true then some p else none).map commandBody := by
  rw [hvalid, hA]
  cases head with
  | false => rfl
  | true =>
    rw [Bool.not_true, if_neg Bool.false_ne_true, hd rfl, Bool.true_and]
    cases entries with
    | false =>
      rw [if_pos (hB.mpr Bool.false_ne_true), if_neg Bool.false_ne_true]
      rfl
    | true =>
      rw [if_neg (fun h => hB.mp h rfl), if_pos rfl]
      rfl

/-- **Dynamics envelopes.** -/
theorem referenceCommand_agrees (data : List Byte) (negotiated : Bool) :
    (unpackReferenceCommand data negotiated).toOption =
      (Wire.decodeReferenceCommand data negotiated).map commandBody := by
  unfold unpackReferenceCommand Wire.decodeReferenceCommand referenceCmdSize
  split
  case isTrue => rfl
  case isFalse =>
    rw [unpack_command]
    dsimp only [List.cons_append, List.nil_append]
    rw [command_arrays]
    generalize Wire.ReferenceCommandPacket.read data = p
    refine command_verdict p rfl (command_header p) (arrays_check p.tauFf p.kp p.kd p.n.toNat) ?_ _ _
    intro hhead
    have hn : p.n.toNat ≤ 16 := by
      simp only [Bool.and_eq_true, decide_eq_true_eq] at hhead
      exact hhead.1.1.1.1.1.1.1.1.1.2
    show _ ++ [(Field.tauFf, Val.floats (List.take p.n.toNat ((List.range 16).map p.tauFf))),
      (Field.kp, Val.floats (List.take p.n.toNat ((List.range 16).map p.kp))),
      (Field.kd, Val.floats (List.take p.n.toNat ((List.range 16).map p.kd)))] = commandBody p
    rw [take_map_range _ hn, take_map_range _ hn, take_map_range _ hn]
    rfl

/-- **The two wire decoders agree.**  On every control frame, with and without negotiation, and on
every envelope, server and client accept the same, and then see the same opcode, sequence number
and fields. -/
theorem decoders_agree (data : List Byte) (negotiated : Bool) :
    (unpackReferenceControl data negotiated).toOption =
      (Wire.decodeReferenceControl data negotiated).map
        (fun p => (p.type.toNat, p.seq.toNat, referenceBody p.type.toNat p.text)) ∧
    (unpackModeSelect data).toOption = (Wire.decodeModeSelect data Wire.ctlModeSelect).map
      (fun p => modeSelectBody (.read p.text) ++ [(.seq, .int p.seq.toNat)]) ∧
    (unpackModeStatus data).toOption = (Wire.decodeModeSelect data Wire.ctlModeStatus).map
      (fun p => modeStatusBody (.read p.text) ++ [(.seq, .int p.seq.toNat)]) ∧
    (unpackReferenceCommand data negotiated).toOption =
      (Wire.decodeReferenceCommand data negotiated).map commandBody :=
  ⟨referenceControl_agrees data negotiated, modeSelect_agrees data, modeStatus_agrees data,
    referenceCommand_agrees data negotiated⟩

end ArmControl.RemoteRt
