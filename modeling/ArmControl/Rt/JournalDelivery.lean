import ArmControl.Rt.FaultJournal

/-!
# Delivery of the fault journal

The index of a record is its position in `claimed`; the words of the program are these numbers
modulo `2^32`.  The window `released ≤ n < released + 16` is the part of the ring the producers may
use: each of its slots is published, held by one producer, or still carries the mark of the lap
before.

* `Inv`                 the invariant of the window;
* `Keeps`               a successful claim finds the ring not full, and no counter wraps;
* `journal_delivered`   then every record is emitted once, in claim order, as it was written.
-/

namespace ArmControl.Rt
namespace Journal
open Function Run Wrap

/-! ## records, field by field -/

/-- the first `i` fields of `dst` are those of `src` -/
def agree (i : ℕ) (src dst : FaultRecord) : Prop := ∀ j < i, copyField src dst j = dst

theorem agree_zero (src dst : FaultRecord) : agree 0 src dst := fun _ h => absurd h (Nat.not_lt_zero _)

theorem agree_copy {i : ℕ} {src dst : FaultRecord} (h : agree i src dst) :
    agree (i + 1) src (copyField src dst i) := by
  have hcomm : ∀ j, copyField src (copyField src dst i) j = copyField src (copyField src dst j) i := by
    intro j
    unfold copyField
    split <;> split <;> rfl
  have hidem : copyField src (copyField src dst i) i = copyField src dst i := by
    unfold copyField
    split <;> simp
  intro j hj
  rcases Nat.lt_succ_iff_lt_or_eq.mp hj with hj | rfl
  · rw [hcomm, h j hj]
  · exact hidem

theorem agree_all {src dst : FaultRecord} (h : agree fields src dst) : dst = src := by
  have h0 := h 0 (by decide)
  have h1 := h 1 (by decide)
  have h2 := h 2 (by decide)
  have h3 := h 3 (by decide)
  have h4 := h 4 (by decide)
  have h5 := h 5 (by decide)
  have h6 := h 6 (by decide)
  have h7 := h 7 (by decide)
  cases src
  cases dst
  simp only [copyField, FaultRecord.mk.injEq, and_true, true_and] at *
  subst h0 h1 h2 h3 h4 h5 h6 h7
  simp

/-! ## the window -/

/-- the record a producer is writing, the word of its index, and how many fields are done -/
def held : ProducerPc → Option (FaultRecord × BitVec 32 × ℕ)
  | .fill r head i => some (r, head, i)
  | .publish r head => some (r, head, fields)
  | _ => none

/-- a call that has not claimed an index yet -/
def undecided : ProducerPc → ℕ
  | .loadHead _ | .loadTail _ _ _ | .drop | .claim _ _ _ | .contend => 1
  | _ => 0

abbrev word (n : ℕ) : BitVec 32 := BitVec.ofNat 32 n

/-- the mark an unpublished slot of the window carries: the one of the lap before -/
def staleMark (n : ℕ) : BitVec 32 := if n < faultRing then 0 else word (n - faultRing + 1)

theorem staleMark_ne (n : ℕ) : staleMark n ≠ word (n + 1) := by
  unfold staleMark faultRing
  split_ifs with h
  · exact wrap_ne (m := 0) (by omega) (by omega)
  · exact wrap_ne (by omega) (by omega)

theorem slotOf_word (n : ℕ) : slotOf (word n) = n % faultRing :=
  wrap_cell (by decide)

def State.at (s : State) (n : ℕ) : FaultSlot := s.ring (n % faultRing)

def State.published (s : State) (n : ℕ) : Prop :=
  (s.at n).ready = word (n + 1) ∧ s.claimed[n]? = some (s.at n).record

/-- producer `p` is writing the record of index `n` -/
def State.owns (s : State) (p : Producer) (n : ℕ) : Prop :=
  ∃ r i, held (s.pc p) = some (r, word n, i) ∧ s.claimed[n]? = some r ∧ agree i r (s.at n).record

/-- what the consumer's position says -/
def State.consumerOk (s : State) : Prop :=
  match s.consumer with
  | .idle | .loadTail => s.emitted.length = s.released
  | .loadReady tail => tail = word s.released ∧ s.emitted.length = s.released
  | .copy tail r i => tail = word s.released ∧ s.emitted.length = s.released ∧
      s.published s.released ∧ i < fields ∧ agree i (s.at s.released).record r
  | .storeTail tail r => tail = word s.released ∧ s.emitted.length = s.released ∧
      s.published s.released ∧ s.claimed[s.released]? = some r
  | .print tail r => tail + 1 = word s.released ∧ s.emitted.length + 1 = s.released ∧
      s.claimed[s.emitted.length]? = some r

structure Inv (s : State) : Prop where
  head : s.faultHead = word s.claimed.length
  tail : s.faultTail = word s.released
  low : s.released ≤ s.claimed.length
  high : s.claimed.length ≤ s.released + faultRing
  slots : ∀ n, s.released ≤ n → n < s.released + faultRing →
    s.published n ∨ ((s.at n).ready = staleMark n ∧ (n < s.claimed.length → ∃ p, s.owns p n))
  owner : ∀ p r h i, held (s.pc p) = some (r, h, i) → ∃ n, s.released ≤ n ∧ n < s.claimed.length ∧
    h = word n ∧ s.owns p n ∧ (s.at n).ready = staleMark n
  distinct : ∀ p q, p ≠ q → ∀ r h i r' h' i', held (s.pc p) = some (r, h, i) →
    held (s.pc q) = some (r', h', i') → h ≠ h'
  fill : ∀ p r h i, s.pc p = .fill r h i → i < fields
  consumer : s.consumerOk
  order : s.emitted <+: s.claimed
  counted : s.calls = s.claimed.length + s.faultDropped.toNat + s.faultContended.toNat +
    undecided (s.pc .rt) + undecided (s.pc .control)

variable {s : State}

theorem State.published.lt {n : ℕ} (h : s.published n) : n < s.claimed.length :=
  (List.getElem?_eq_some_iff.mp h.2).1

theorem not_published_of_stale {n : ℕ} (h : (s.at n).ready = staleMark n) : ¬ s.published n :=
  fun hp => staleMark_ne n (h.symm.trans hp.1)

/-! ## frames: what a change leaves alone -/

/-- two states with the same claims, whose slot of index `n` is the same -/
structure SameAt (s t : State) (n : ℕ) : Prop where
  slot : t.at n = s.at n
  claim : t.claimed[n]? = s.claimed[n]?

theorem State.published.frame {t : State} {n : ℕ} (h : s.published n) (e : SameAt s t n) :
    t.published n := by
  unfold published
  rw [e.slot, e.claim]
  exact h

theorem State.owns.frame {t : State} {p : Producer} {n : ℕ} (h : s.owns p n) (e : SameAt s t n)
    (hpc : held (t.pc p) = held (s.pc p)) : t.owns p n := by
  unfold owns
  rw [e.slot, e.claim, hpc]
  exact h

theorem consumerOk_frame {t : State} (h : s.consumerOk) (hc : t.consumer = s.consumer)
    (hr : t.released = s.released) (he : t.emitted = s.emitted)
    (hcl : s.claimed <+: t.claimed)
    (hslot : s.published s.released → t.at s.released = s.at s.released) : t.consumerOk := by
  have hclaim : ∀ {n : ℕ} {r : FaultRecord}, s.claimed[n]? = some r → t.claimed[n]? = some r := by
    intro n r hn
    obtain ⟨l, hl⟩ := hcl
    rw [← hl, List.getElem?_append_left (List.getElem?_eq_some_iff.mp hn).1]
    exact hn
  have hpub : s.published s.released → t.published s.released := by
    intro hp
    refine ⟨?_, ?_⟩
    · rw [hslot hp]
      exact hp.1
    · rw [hslot hp]
      exact hclaim hp.2
  unfold State.consumerOk at h ⊢
  rw [hc, hr, he]
  cases hcons : s.consumer with
  | idle | loadTail | loadReady => simpa [hcons] using h
  | copy tail r i =>
    simp only [hcons] at h ⊢
    obtain ⟨h1, h2, h3, h4, h5⟩ := h
    refine ⟨h1, h2, hpub h3, h4, ?_⟩
    rw [hslot h3]
    exact h5
  | storeTail tail r =>
    simp only [hcons] at h ⊢
    obtain ⟨h1, h2, h3, h4⟩ := h
    exact ⟨h1, h2, hpub h3, hclaim h4⟩
  | print tail r =>
    simp only [hcons] at h ⊢
    obtain ⟨h1, h2, h3⟩ := h
    exact ⟨h1, h2, hclaim h3⟩

/-- a producer that holds nothing changes its position and the counters only -/
theorem Inv.quiet (h : Inv s) {p : Producer} {pc : ProducerPc} (hp : held (s.pc p) = none)
    (hpc : held pc = none) {d c : BitVec 32} {k : ℕ}
    (hk : k = s.claimed.length + d.toNat + c.toNat + undecided (update s.pc p pc .rt) +
      undecided (update s.pc p pc .control)) :
    Inv ({ s with faultDropped := d, faultContended := c, calls := k }.goto p pc) := by
  have hheld : ∀ q, held (update s.pc p pc q) = held (s.pc q) := by
    intro q
    by_cases hq : q = p
    · subst hq
      rw [update_self, hpc, hp]
    · rw [update_of_ne hq]
  have hown : ∀ {q n}, s.owns q n →
      ({ s with faultDropped := d, faultContended := c, calls := k }.goto p pc).owns q n :=
    fun ho => ho.frame ⟨rfl, rfl⟩ (hheld _)
  refine ⟨h.head, h.tail, h.low, h.high, fun n h1 h2 => ?_, fun q r hh i hq => ?_,
    fun q q' hne r hh i r' hh' i' hq hq' => ?_, fun q r hh i hq => ?_, h.consumer, h.order, hk⟩
  · rcases h.slots n h1 h2 with hs | ⟨hs, ho⟩
    · exact .inl hs
    · refine .inr ⟨hs, fun hlt => ?_⟩
      obtain ⟨q, ho⟩ := ho hlt
      exact ⟨q, hown ho⟩
  · obtain ⟨n, h1, h2, h3, h4, h5⟩ := h.owner q r hh i ((hheld q) ▸ hq)
    exact ⟨n, h1, h2, h3, hown h4, h5⟩
  · exact h.distinct q q' hne r hh i r' hh' i' ((hheld q) ▸ hq) ((hheld q') ▸ hq')
  · by_cases he : q = p
    · subst he
      have hq' : update s.pc q pc q = .fill r hh i := hq
      rw [update_self] at hq'
      rw [hq'] at hpc
      cases hpc
    · have hq' : update s.pc p pc q = .fill r hh i := hq
      rw [update_of_ne he] at hq'
      exact h.fill q r hh i hq'

/-- a claimed record keeps its place when another one is claimed -/
theorem getElem?_snoc {l : List FaultRecord} {n : ℕ} (h : n < l.length) (r : FaultRecord) :
    (l ++ [r])[n]? = l[n]? := List.getElem?_append_left h

/-- the successful CAS: a new index, held by this producer -/
theorem Inv.claim (h : Inv s) {p : Producer} {r : FaultRecord} {tries : ℕ}
    (hp : s.pc p = .claim r s.faultHead tries)
    (hroom : (s.faultHead - s.faultTail).toNat < faultRing) :
    Inv ({ s with faultHead := s.faultHead + 1, claimed := s.claimed ++ [r] }.goto p
      (.fill r s.faultHead 0)) := by
  have hlen : s.claimed.length < s.released + faultRing := by
    rw [h.head, h.tail, wrap_sub h.low (by have := h.high; unfold faultRing at this; omega)] at hroom
    have := h.low
    omega
  have hnone : held (s.pc p) = none := by rw [hp]; rfl
  have hsame : ∀ {n}, n < s.claimed.length → SameAt s ({ s with
      faultHead := s.faultHead + 1, claimed := s.claimed ++ [r] }.goto p (.fill r s.faultHead 0)) n :=
    fun hn => ⟨rfl, getElem?_snoc hn r⟩
  have hother : ∀ {q}, q ≠ p → update s.pc p (.fill r s.faultHead 0) q = s.pc q :=
    fun hq => update_of_ne hq _ _
  -- nobody but `p` can be at a fresh index
  have hne : ∀ {q r' h' i'}, held (s.pc q) = some (r', h', i') → s.faultHead ≠ h' := by
    intro q r' h' i' hq
    obtain ⟨n, h1, h2, rfl, -, -⟩ := h.owner q r' h' i' hq
    rw [h.head]
    exact (wrap_ne h2 (by have := h.high; unfold faultRing at this; omega)).symm
  have hown : ∀ {q n}, s.owns q n → n < s.claimed.length → ({ s with
      faultHead := s.faultHead + 1, claimed := s.claimed ++ [r] }.goto p
        (.fill r s.faultHead 0)).owns q n := by
    intro q n ho hn
    refine ho.frame (hsame hn) ?_
    have hq : q ≠ p := by
      rintro rfl
      obtain ⟨_, _, ho, -⟩ := ho
      rw [hnone] at ho
      cases ho
    exact congrArg held (hother hq)
  have hnew : ({ s with faultHead := s.faultHead + 1, claimed := s.claimed ++ [r] }.goto p
      (.fill r s.faultHead 0)).owns p s.claimed.length := by
    refine ⟨r, 0, ?_, ?_, agree_zero _ _⟩
    · show held (update s.pc p (.fill r s.faultHead 0) p) = _
      rw [update_self, h.head]
      rfl
    · exact List.getElem?_concat_length
  have hfresh : (s.at s.claimed.length).ready = staleMark s.claimed.length := by
    rcases h.slots s.claimed.length h.low hlen with hpub | ⟨hs, -⟩
    · exact absurd hpub.lt (lt_irrefl _)
    · exact hs
  have hlen' : (s.claimed ++ [r]).length = s.claimed.length + 1 := by simp
  refine ⟨?_, h.tail, ?_, ?_, fun n h1 h2 => ?_, fun q r' h' i hq => ?_,
    fun q q' hne' r' h' i r'' h'' i' hq hq' => ?_, fun q r' h' i hq => ?_, ?_, ?_, ?_⟩
  · show s.faultHead + 1 = word (s.claimed ++ [r]).length
    rw [hlen', h.head]
    exact wrap_succ _
  · show s.released ≤ (s.claimed ++ [r]).length
    have := h.low
    omega
  · show (s.claimed ++ [r]).length ≤ s.released + faultRing
    omega
  · rcases h.slots n h1 h2 with hpub | ⟨hs, ho⟩
    · exact .inl (hpub.frame (hsame hpub.lt))
    · refine .inr ⟨hs, fun hn => ?_⟩
      have hn' : n < s.claimed.length + 1 := by rw [← hlen']; exact hn
      rcases Nat.lt_succ_iff_lt_or_eq.mp hn' with hn' | rfl
      · obtain ⟨q, ho⟩ := ho hn'
        exact ⟨q, hown ho hn'⟩
      · exact ⟨p, hnew⟩
  · by_cases hqp : q = p
    · subst hqp
      have hq' : held (update s.pc q (.fill r s.faultHead 0) q) = some (r', h', i) := hq
      rw [update_self] at hq'
      cases hq'
      refine ⟨s.claimed.length, h.low, ?_, h.head, hnew, hfresh⟩
      show s.claimed.length < (s.claimed ++ [r]).length
      omega
    · have hq' : held (update s.pc p (.fill r s.faultHead 0) q) = some (r', h', i) := hq
      rw [hother hqp] at hq'
      obtain ⟨n, k1, k2, k3, k4, k5⟩ := h.owner q r' h' i hq'
      refine ⟨n, k1, ?_, k3, hown k4 k2, k5⟩
      show n < (s.claimed ++ [r]).length
      omega
  · have e1 : held (update s.pc p (.fill r s.faultHead 0) q) = some (r', h', i) := hq
    have e2 : held (update s.pc p (.fill r s.faultHead 0) q') = some (r'', h'', i') := hq'
    by_cases hqp : q = p
    · subst hqp
      rw [update_self] at e1
      rw [hother (Ne.symm hne')] at e2
      cases e1
      exact hne e2
    · rw [hother hqp] at e1
      by_cases hqp' : q' = p
      · subst hqp'
        rw [update_self] at e2
        cases e2
        exact (hne e1).symm
      · rw [hother hqp'] at e2
        exact h.distinct q q' hne' r' h' i r'' h'' i' e1 e2
  · have hq' : update s.pc p (.fill r s.faultHead 0) q = .fill r' h' i := hq
    by_cases hqp : q = p
    · subst hqp
      rw [update_self] at hq'
      cases hq'
      decide
    · rw [hother hqp] at hq'
      exact h.fill q r' h' i hq'
  · exact consumerOk_frame h.consumer rfl rfl rfl (List.prefix_append _ _) fun _ => rfl
  · exact h.order.trans (List.prefix_append _ _)
  · have hc := h.counted
    show s.calls = (s.claimed ++ [r]).length + s.faultDropped.toNat + s.faultContended.toNat +
      undecided (update s.pc p (.fill r s.faultHead 0) .rt) +
      undecided (update s.pc p (.fill r s.faultHead 0) .control)
    rw [hlen', hc]
    cases p <;> simp [update, hp, undecided] <;> omega

/-- the state after a producer has written its slot -/
def State.wrote (s : State) (p : Producer) (h : BitVec 32) (slot : FaultSlot) (pc : ProducerPc) :
    State := (s.setSlot h slot).goto p pc

theorem wrote_at_self (p : Producer) (n : ℕ) (slot : FaultSlot) (pc : ProducerPc) :
    (s.wrote p (word n) slot pc).at n = slot := by
  show update s.ring (slotOf (word n)) slot (n % faultRing) = slot
  rw [slotOf_word, update_self]

/-- the other indices of the window keep their slots -/
theorem Inv.wrote_at (h : Inv s) {p : Producer} {n m : ℕ} (slot : FaultSlot) (pc : ProducerPc)
    (hn : s.released ≤ n ∧ n < s.claimed.length)
    (hm : s.released ≤ m ∧ m < s.released + faultRing) (hne : m ≠ n) :
    (s.wrote p (word n) slot pc).at m = s.at m := by
  show update s.ring (slotOf (word n)) slot (m % faultRing) = s.ring (m % faultRing)
  rw [slotOf_word, update_of_ne]
  intro he
  exact hne (cell_inj hm ⟨hn.1, by have := h.high; omega⟩ he)

/-- a producer writes a part of the slot it holds, or publishes it -/
theorem Inv.write (h : Inv s) {p : Producer} {r : FaultRecord} {hd : BitVec 32} {i : ℕ}
    (hp : held (s.pc p) = some (r, hd, i)) {pc : ProducerPc} {slot : FaultSlot}
    (hpc : undecided pc = 0) (hfill : ∀ r h j, pc = .fill r h j → j < fields)
    (hcase : (∃ j, held pc = some (r, hd, j) ∧ slot.ready = (s.ring (slotOf hd)).ready ∧
        agree j r slot.record) ∨
      (held pc = none ∧ slot.ready = hd + 1 ∧ slot.record = r)) :
    Inv (s.wrote p hd slot pc) := by
  obtain ⟨n, hlo, hhi, rfl, hown, hstale⟩ := h.owner p r hd i hp
  have hclaim : s.claimed[n]? = some r := by
    obtain ⟨r', j, he, hc, -⟩ := hown
    rw [hp] at he
    cases he
    exact hc
  have hwin : n < s.released + faultRing := by have := h.high; omega
  have hslotn : s.ring (slotOf (word n)) = s.at n := by rw [slotOf_word]; rfl
  have hself : (s.wrote p (word n) slot pc).at n = slot := wrote_at_self p n slot pc
  have hother : ∀ {q}, q ≠ p → (s.wrote p (word n) slot pc).pc q = s.pc q :=
    fun hq => update_of_ne hq _ _
  have hmine : (s.wrote p (word n) slot pc).pc p = pc := update_self _ _ _
  have hsame : ∀ {m}, s.released ≤ m → m < s.released + faultRing → m ≠ n →
      SameAt s (s.wrote p (word n) slot pc) m :=
    fun h1 h2 hne => ⟨h.wrote_at slot pc ⟨hlo, hhi⟩ ⟨h1, h2⟩ hne, rfl⟩
  -- another producer holds another index
  have hdist : ∀ {q m}, q ≠ p → s.owns q m → m ≠ n := by
    rintro q m hq ⟨r', j, he, -⟩ rfl
    exact h.distinct q p hq r' (word m) j r (word m) i he hp rfl
  have hkeep : ∀ {q m}, q ≠ p → s.released ≤ m → m < s.released + faultRing → s.owns q m →
      (s.wrote p (word n) slot pc).owns q m := fun hq h1 h2 ho =>
    ho.frame (hsame h1 h2 (hdist hq ho)) (congrArg held (hother hq))
  have hpub : ∀ {m}, s.released ≤ m → m < s.released + faultRing → s.published m → m ≠ n := by
    rintro m - - hm rfl
    exact not_published_of_stale hstale hm
  refine ⟨h.head, h.tail, h.low, h.high, fun m h1 h2 => ?_, fun q r' h' j hq => ?_,
    fun q q' hne r' h' j r'' h'' j' hq hq' => ?_, fun q r' h' j hq => ?_, ?_, h.order, ?_⟩
  · replace h1 : s.released ≤ m := h1
    replace h2 : m < s.released + faultRing := h2
    by_cases hm : m = n
    · subst hm
      rcases hcase with ⟨j, h1', h2', h3'⟩ | ⟨-, h2', h3'⟩
      · refine .inr ⟨?_, fun _ => ⟨p, r, j, ?_, hclaim, ?_⟩⟩
        · rw [hself, h2', hslotn]
          exact hstale
        · rw [hmine]
          exact h1'
        · rw [hself]
          exact h3'
      · refine .inl ⟨?_, ?_⟩
        · rw [hself, h2']
          exact wrap_succ m
        · rw [hself, h3']
          exact hclaim
    · rcases h.slots m h1 h2 with hs | ⟨hs, ho⟩
      · exact .inl (hs.frame (hsame h1 h2 hm))
      · refine .inr ⟨?_, fun hlt => ?_⟩
        · rw [(hsame h1 h2 hm).slot]
          exact hs
        · obtain ⟨q, ho⟩ := ho hlt
          have hq : q ≠ p := by
            rintro rfl
            obtain ⟨r', j, he, -⟩ := ho
            rw [hp, Option.some.injEq, Prod.mk.injEq, Prod.mk.injEq] at he
            -- the words of two indices of the window are equal only when the indices are
            rcases lt_trichotomy m n with hlt' | heq | hgt
            · exact wrap_ne hlt' (by unfold faultRing at *; omega) he.2.1.symm
            · exact hm heq
            · exact wrap_ne hgt (by unfold faultRing at *; omega) he.2.1
          exact ⟨q, hkeep hq h1 h2 ho⟩
  · by_cases hqp : q = p
    · subst hqp
      rw [hmine] at hq
      rcases hcase with ⟨j', h1', h2', h3'⟩ | ⟨h1', -, -⟩
      · rw [h1'] at hq
        cases hq
        refine ⟨n, hlo, hhi, rfl, ⟨r, j, ?_, hclaim, ?_⟩, ?_⟩
        · rw [hmine]
          exact h1'
        · rw [hself]
          exact h3'
        · rw [hself, h2', hslotn]
          exact hstale
      · rw [h1'] at hq
        cases hq
    · rw [hother hqp] at hq
      obtain ⟨m, k1, k2, k3, k4, k5⟩ := h.owner q r' h' j hq
      have hm : m < s.released + faultRing := by have := h.high; omega
      refine ⟨m, k1, k2, k3, hkeep hqp k1 hm k4, ?_⟩
      rw [(hsame k1 hm (hdist hqp k4)).slot]
      exact k5
  · have hword : ∀ {q r' h' j}, held ((s.wrote p (word n) slot pc).pc q) = some (r', h', j) →
        ∃ r'' j', held (s.pc q) = some (r'', h', j') := by
      intro q r' h' j hq
      by_cases hqp : q = p
      · subst hqp
        rw [hmine] at hq
        rcases hcase with ⟨j', h1', -⟩ | ⟨h1', -⟩
        · rw [h1'] at hq
          cases hq
          exact ⟨_, _, hp⟩
        · rw [h1'] at hq
          cases hq
      · rw [hother hqp] at hq
        exact ⟨_, _, hq⟩
    obtain ⟨a, b, e1⟩ := hword hq
    obtain ⟨a', b', e2⟩ := hword hq'
    exact h.distinct q q' hne _ _ _ _ _ _ e1 e2
  · by_cases hqp : q = p
    · subst hqp
      rw [hmine] at hq
      exact hfill _ _ _ hq
    · rw [hother hqp] at hq
      exact h.fill q r' h' j hq
  · refine consumerOk_frame h.consumer rfl rfl rfl (List.prefix_refl _) fun hpub' => ?_
    have hlt : s.released < s.released + faultRing := by unfold faultRing; omega
    exact (hsame le_rfl hlt (hpub le_rfl hlt hpub')).slot
  · have hund : undecided (s.pc p) = 0 := by
      cases hs : s.pc p <;> simp_all [held, undecided]
    have hc := h.counted
    show s.calls = s.claimed.length + s.faultDropped.toNat + s.faultContended.toNat +
      undecided (update s.pc p pc .rt) + undecided (update s.pc p pc .control)
    rw [hc]
    cases p <;> simp [update, hpc, hund]

/-! ## the consumer -/

theorem consumer_step (h : Inv s) {c : ConsumerPc} (hc : { s with consumer := c }.consumerOk) :
    Inv { s with consumer := c } :=
  ⟨h.head, h.tail, h.low, h.high, h.slots, h.owner, h.distinct, h.fill, hc, h.order, h.counted⟩

/-- the copied record is printed -/
theorem Inv.printed (h : Inv s) {tail : BitVec 32} {r : FaultRecord}
    (hc : s.consumer = .print tail r) :
    Inv { s with emitted := s.emitted ++ [r], consumer := .loadReady (tail + 1) } := by
  have hok := h.consumer
  simp only [State.consumerOk, hc] at hok
  obtain ⟨h1, h2, h3⟩ := hok
  refine ⟨h.head, h.tail, h.low, h.high, h.slots, h.owner, h.distinct, h.fill, ⟨h1, ?_⟩, ?_,
    h.counted⟩
  · show (s.emitted ++ [r]).length = s.released
    rw [List.length_append, List.length_singleton]
    exact h2
  · obtain ⟨l, hl⟩ := h.order
    rw [← hl, List.getElem?_append_right le_rfl, Nat.sub_self] at h3
    cases l with
    | nil => cases h3
    | cons x l =>
      cases h3
      exact ⟨l, by rw [← hl, List.append_assoc]; rfl⟩

/-- the slot of the oldest index is released -/
theorem Inv.release (h : Inv s) {tail : BitVec 32} {r : FaultRecord}
    (hc : s.consumer = .storeTail tail r) :
    Inv { s with
      faultTail := tail + 1, released := s.released + 1, consumer := .print tail r } := by
  have hok := h.consumer
  simp only [State.consumerOk, hc] at hok
  obtain ⟨rfl, hlen, hpub, hr⟩ := hok
  have hlow : s.released + 1 ≤ s.claimed.length := hpub.lt
  refine ⟨h.head, wrap_succ _, hlow, ?_, fun n h1 h2 => ?_, fun p r' h' i hp => ?_, h.distinct,
    h.fill, ⟨wrap_succ _, ?_, ?_⟩, h.order, h.counted⟩
  · show s.claimed.length ≤ s.released + 1 + faultRing
    have := h.high
    omega
  · replace h1 : s.released + 1 ≤ n := h1
    replace h2 : n < s.released + 1 + faultRing := h2
    by_cases hn : n < s.released + faultRing
    · exact h.slots n (by omega) hn
    · -- the new index of the window is one lap after the released one
      have hn' : n = s.released + faultRing := by omega
      subst hn'
      have hat : s.at (s.released + faultRing) = s.at s.released := by
        show s.ring _ = s.ring _
        rw [Nat.add_mod_right]
      refine .inr ⟨?_, fun hlt => ?_⟩
      · show (s.at (s.released + faultRing)).ready = _
        rw [hat, hpub.1, staleMark, if_neg (by omega), Nat.add_sub_cancel]
      · have := h.high
        replace hlt : s.released + faultRing < s.claimed.length := hlt
        omega
  · obtain ⟨n, k1, k2, k3, k4, k5⟩ := h.owner p r' h' i hp
    refine ⟨n, ?_, k2, k3, k4, k5⟩
    show s.released + 1 ≤ n
    rcases Nat.lt_or_eq_of_le k1 with hlt | rfl
    · exact hlt
    · exact absurd hpub (not_published_of_stale k5)
  · show s.emitted.length + 1 = s.released + 1
    rw [hlen]
  · show s.claimed[s.emitted.length]? = some r
    rw [hlen]
    exact hr

theorem Inv.consume (h : Inv s) : Inv (consume s) := by
  have hok := h.consumer
  unfold Journal.consume
  cases hc : s.consumer with
  | idle => exact h
  | loadTail =>
    simp only [State.consumerOk, hc] at hok
    exact consumer_step h ⟨h.tail, hok⟩
  | loadReady tail =>
    simp only [State.consumerOk, hc] at hok
    obtain ⟨rfl, hlen⟩ := hok
    dsimp only
    split_ifs with hr
    · refine consumer_step h ⟨rfl, hlen, ?_, by decide, agree_zero _ _⟩
      -- the mark is the one of this lap: the slot is published
      rcases h.slots s.released le_rfl (by unfold faultRing; omega) with hpub | ⟨hs, -⟩
      · exact hpub
      · rw [slotOf_word] at hr
        exact absurd (hs.symm.trans (hr.trans (wrap_succ _))) (staleMark_ne _)
    · exact consumer_step h hlen
  | copy tail r i =>
    simp only [State.consumerOk, hc] at hok
    obtain ⟨rfl, hlen, hpub, hi, hag⟩ := hok
    have hag' := agree_copy hag
    dsimp only
    rw [slotOf_word]
    split_ifs with hlast
    · refine consumer_step h ⟨rfl, hlen, hpub, ?_⟩
      rw [hlast] at hag'
      have hrec := agree_all hag'
      show s.claimed[s.released]? = some (copyField (s.at s.released).record r i)
      rw [hrec]
      exact hpub.2
    · exact consumer_step h ⟨rfl, hlen, hpub, by omega, hag'⟩
  | storeTail tail r => exact h.release hc
  | print tail r => exact h.printed hc

/-! ## runs -/

/-- a claim that succeeds finds the ring not full, and a counter that is incremented does not wrap -/
def Keeps (s : State) : Event → Prop
  | .produce p =>
    match s.pc p with
    | .claim _ head _ => head = s.faultHead → (s.faultHead - s.faultTail).toNat < faultRing
    | .drop => s.faultDropped.toNat + 1 < 2^32
    | .contend => s.faultContended.toNat + 1 < 2^32
    | _ => True
  | _ => True

instance (s : State) : DecidablePred (Keeps s)
  | .produce p => by
    unfold Keeps
    dsimp only
    split <;> infer_instance
  | .call _ _ | .drain | .consume => isTrue trivial

theorem toNat_succ {x : BitVec 32} (h : x.toNat + 1 < 2^32) : (x + 1).toNat = x.toNat + 1 := by
  rw [BitVec.toNat_add]
  exact Nat.mod_eq_of_lt h

/-- a producer moves between two positions of the search for an index -/
theorem Inv.search (h : Inv s) {p : Producer} {pc : ProducerPc} (hp : held (s.pc p) = none)
    (hpc : held pc = none) (hu : undecided pc = undecided (s.pc p)) : Inv (s.goto p pc) := by
  have hc := h.counted
  have hq := h.quiet hp hpc (d := s.faultDropped) (c := s.faultContended) (k := s.calls) (by
    rw [hc]
    cases p <;> simp [update, hu])
  exact hq

theorem Inv.produce (h : Inv s) {p : Producer} (hk : Keeps s (.produce p)) :
    Inv (produce s p) := by
  have hc := h.counted
  unfold Journal.produce
  simp only [Keeps] at hk
  cases hp : s.pc p with
  | idle => exact h
  | loadHead r => exact h.search (by rw [hp]; rfl) rfl (by rw [hp]; rfl)
  | loadTail r head tries =>
    dsimp only
    split_ifs <;> exact h.search (by rw [hp]; rfl) rfl (by rw [hp]; rfl)
  | drop =>
    rw [hp] at hk
    refine h.quiet (by rw [hp]; rfl) rfl ?_
    rw [toNat_succ hk, hc]
    cases p <;> simp [update, hp, undecided] <;> omega
  | claim r head tries =>
    rw [hp] at hk
    dsimp only at hk ⊢
    split_ifs with hcas
    · subst hcas
      exact h.claim hp (hk rfl)
    · exact h.search (by rw [hp]; rfl) rfl (by rw [hp]; rfl)
    · exact h.search (by rw [hp]; rfl) rfl (by rw [hp]; rfl)
  | contend =>
    rw [hp] at hk
    refine h.quiet (by rw [hp]; rfl) rfl ?_
    rw [toNat_succ hk, hc]
    cases p <;> simp [update, hp, undecided] <;> omega
  | fill r head i =>
    have hheld : held (s.pc p) = some (r, head, i) := by rw [hp]; rfl
    obtain ⟨n, -, -, rfl, ⟨r', j, he, -, hag⟩, -⟩ := h.owner p r head i hheld
    rw [hheld] at he
    cases he
    have hi := h.fill p r _ i hp
    rw [← show s.ring (slotOf (word n)) = s.at n by rw [slotOf_word]; rfl] at hag
    have hag' := agree_copy hag
    dsimp only
    refine h.write hheld ?_ (fun r' h' j hj => ?_) (.inl ⟨i + 1, ?_, rfl, hag'⟩)
    · split_ifs <;> rfl
    · split_ifs at hj with hlast
      cases hj
      omega
    · split_ifs with hlast
      · rw [hlast]
        rfl
      · rfl
  | publish r head =>
    have hheld : held (s.pc p) = some (r, head, fields) := by rw [hp]; rfl
    obtain ⟨n, -, -, rfl, ⟨r', j, he, -, hag⟩, -⟩ := h.owner p r head fields hheld
    rw [hheld] at he
    cases he
    have hrec : (s.ring (slotOf (word n))).record = r := by
      rw [slotOf_word]
      exact agree_all hag
    exact h.write hheld rfl (fun _ _ _ hj => by cases hj) (.inr ⟨rfl, rfl, hrec⟩)

theorem Inv.step (h : Inv s) {e : Event} (hk : Keeps s e) : Inv (step s e) := by
  cases e with
  | call p c =>
    unfold Journal.step
    dsimp only
    split_ifs with hp
    · have hc := h.counted
      refine h.quiet (by rw [hp]; rfl) rfl ?_
      rw [hc]
      cases p
      · simp [update, hp, undecided]
        omega
      · simp [update, hp, undecided]
    · exact h
  | produce p => exact h.produce hk
  | drain =>
    unfold Journal.step
    dsimp only
    split_ifs with hi
    · have hok := h.consumer
      simp only [State.consumerOk, hi] at hok
      exact consumer_step h hok
    · exact h
  | consume => exact h.consume

theorem inv_init : Inv {} where
  head := rfl
  tail := rfl
  low := le_rfl
  high := Nat.zero_le _
  slots n _ h2 := .inr ⟨by
    have h2' : n < faultRing := by simpa using h2
    simp [staleMark, h2', State.at], fun h => absurd h (Nat.not_lt_zero _)⟩
  owner _ _ _ _ h := by cases h
  distinct _ _ _ _ _ _ _ _ _ h := by cases h
  fill _ _ _ _ h := by cases h
  consumer := rfl
  order := List.prefix_refl _
  counted := rfl

/-- no call is in progress -/
def State.quiescent (s : State) : Prop := (∀ p, s.pc p = .idle) ∧ s.consumer = .idle

/-- the slot the consumer is copying -/
def reading : ConsumerPc → Option (BitVec 32)
  | .copy tail _ _ | .storeTail tail _ => some tail
  | _ => none

structure Delivered (s : State) : Prop where
  /-- each record at most once, in claim order, as it was written -/
  order : s.emitted <+: s.claimed
  /-- and none is left out: a drain that ends while no producer is writing has emitted all -/
  complete : (∀ p, held (s.pc p) = none) → ∀ tail, s.consumer = .loadReady tail →
    (s.ring (slotOf tail)).ready ≠ tail + 1 → s.emitted = s.claimed
  /-- a producer writes only a slot that was released, that nobody else writes and nobody reads -/
  exclusive : ∀ p r h i, held (s.pc p) = some (r, h, i) →
    (h - s.faultTail).toNat < faultRing ∧
    (∀ q r' h' i', q ≠ p → held (s.pc q) = some (r', h', i') → slotOf h' ≠ slotOf h) ∧
    ∀ tail, reading s.consumer = some tail → slotOf tail ≠ slotOf h
  accounted : s.quiescent → s.calls = s.emitted.length + (s.faultHead - s.faultTail).toNat +
    s.faultDropped.toNat + s.faultContended.toNat

theorem Inv.emitted_length (h : Inv s) :
    (s.consumer = .idle ∨ ∃ tail, s.consumer = .loadReady tail) → s.emitted.length = s.released := by
  have hok := h.consumer
  rintro (hc | ⟨tail, hc⟩)
  · simpa [State.consumerOk, hc] using hok
  · simp only [State.consumerOk, hc] at hok
    exact hok.2

theorem Inv.inRing (h : Inv s) :
    (s.faultHead - s.faultTail).toNat = s.claimed.length - s.released := by
  rw [h.head, h.tail, wrap_sub h.low]
  have := h.high
  unfold faultRing at this
  omega

theorem Inv.reading (h : Inv s) {tail : BitVec 32} (hr : reading s.consumer = some tail) :
    tail = word s.released ∧ s.published s.released := by
  have hok := h.consumer
  cases hc : s.consumer with
  | copy t r i =>
    simp only [State.consumerOk, hc] at hok
    rw [hc] at hr
    cases hr
    exact ⟨hok.1, hok.2.2.1⟩
  | storeTail t r =>
    simp only [State.consumerOk, hc] at hok
    rw [hc] at hr
    cases hr
    exact ⟨hok.1, hok.2.2.1⟩
  | _ =>
    rw [hc] at hr
    cases hr

theorem Inv.delivered (h : Inv s) : Delivered s := by
  refine ⟨h.order, fun hnone tail hc hr => ?_, fun p r hd i hp => ?_, fun hq => ?_⟩
  · have hlen := h.emitted_length (.inr ⟨tail, hc⟩)
    have hok := h.consumer
    simp only [State.consumerOk, hc] at hok
    obtain ⟨rfl, -⟩ := hok
    have hall : s.claimed.length ≤ s.released := by
      by_contra hlt
      rcases h.slots s.released le_rfl (by unfold faultRing; omega) with hpub | ⟨-, ho⟩
      · rw [slotOf_word] at hr
        exact hr (hpub.1.trans (wrap_succ _).symm)
      · obtain ⟨p, r, i, hp, -⟩ := ho (not_le.mp hlt)
        rw [hnone p] at hp
        cases hp
    exact h.order.eq_of_length_le (by omega)
  · obtain ⟨n, h1, h2, rfl, -, hstale⟩ := h.owner p r hd i hp
    have hwin : n < s.released + faultRing := by have := h.high; omega
    refine ⟨?_, fun q r' h' i' hq hh => ?_, fun tail hr => ?_⟩
    · rw [h.tail, wrap_sub h1 (by unfold faultRing at hwin; omega)]
      omega
    · obtain ⟨m, k1, k2, rfl, -, -⟩ := h.owner q r' h' i' hh
      rw [slotOf_word, slotOf_word]
      intro he
      have hm := cell_inj ⟨k1, by have := h.high; omega⟩ ⟨h1, hwin⟩ he
      exact h.distinct q p hq r' _ i' r _ i hh hp (by rw [hm])
    · obtain ⟨rfl, hpub⟩ := h.reading hr
      rw [slotOf_word, slotOf_word]
      intro he
      have hm := cell_inj ⟨le_rfl, by unfold faultRing; omega⟩ ⟨h1, hwin⟩ he
      rw [hm] at hpub
      exact not_published_of_stale hstale hpub
  · have hlen := h.emitted_length (.inl hq.2)
    have hc := h.counted
    rw [hq.1, hq.1] at hc
    rw [h.inRing, hc, hlen]
    have := h.low
    simp only [undecided]
    omega

/-- the control thread journals one record -/
def put : List Event := .call .control {} :: List.replicate 12 (.produce .control)

/-- the consumer takes one record and looks for the next -/
def take : List Event := List.replicate 11 .consume

/-- the RT loop is about to claim index 0; the positions of the control thread and the consumer -/
structure Parked (s : State) (hd tl : BitVec 32) (c : ProducerPc) (k : ConsumerPc) : Prop where
  head : s.faultHead = hd
  tail : s.faultTail = tl
  rt : s.pc .rt = .claim {} 0 0
  control : s.pc .control = c
  consumer : s.consumer = k

section
variable {hd tl : BitVec 32} {r : FaultRecord} {k : ConsumerPc} {c : ProducerPc}

theorem Parked.goto (h : Parked s hd tl c k) (pc : ProducerPc) :
    Parked (s.goto .control pc) hd tl pc k := by
  refine ⟨h.head, h.tail, ?_, ?_, h.consumer⟩
  · show update s.pc .control pc .rt = _
    rw [update_of_ne (by decide)]
    exact h.rt
  · show update s.pc .control pc .control = pc
    rw [update_self]

theorem Parked.claims (h : Parked s hd tl .idle k) (hroom : (hd - tl).toNat < faultRing) :
    ∃ r, Parked (run step s [.call .control {}, .produce .control, .produce .control,
      .produce .control]) (hd + 1) tl (.fill r hd 0) k := by
  obtain ⟨h1, h2, h3, h4, h5⟩ := h
  refine ⟨({} : JournalCall).record, ?_, ?_, ?_, ?_, ?_⟩ <;>
    simp only [run_cons, run_nil, step, produce, State.goto, h4, h1, h2, h5, if_true, update_self,
      if_neg (not_le.mpr hroom)]
  · rw [update_of_ne (by decide), update_of_ne (by decide), update_of_ne (by decide),
      update_of_ne (by decide)]
    exact h3

theorem Parked.fills {i : ℕ} (h : Parked s hd tl (.fill r (hd - 1) i) k) :
    Parked (step s (.produce .control)) hd tl
      (if i + 1 = fields then .publish r (hd - 1) else .fill r (hd - 1) (i + 1)) k := by
  simp only [step, produce, h.control]
  refine Parked.goto (c := .fill r (hd - 1) i) ?_ _
  exact ⟨h.head, h.tail, h.rt, h.control, h.consumer⟩

/-- the record is written and published -/
theorem Parked.publishes (h : Parked s hd tl (.fill r (hd - 1) 0) k) :
    Parked (run step s (List.replicate 9 (.produce .control))) hd tl .idle k ∧
      ((run step s (List.replicate 9 (.produce .control))).ring (slotOf (hd - 1))).ready = hd := by
  have h8 : ∀ {s : State}, Parked s hd tl (.publish r (hd - 1)) k →
      Parked (step s (.produce .control)) hd tl .idle k ∧
        ((step s (.produce .control)).ring (slotOf (hd - 1))).ready = hd := by
    intro s h
    simp only [step, produce, h.control]
    refine ⟨Parked.goto (c := .publish r (hd - 1)) ?_ _, ?_⟩
    · exact ⟨h.head, h.tail, h.rt, h.control, h.consumer⟩
    show (update s.ring (slotOf (hd - 1)) _ (slotOf (hd - 1))).ready = hd
    rw [update_self]
    exact BitVec.sub_add_cancel hd 1
  exact h8 h.fills.fills.fills.fills.fills.fills.fills.fills

theorem Parked.put (h : Parked s hd tl .idle k) (hroom : (hd - tl).toNat < faultRing) :
    Parked (run step s put) (hd + 1) tl .idle k ∧
      ((run step s put).ring (slotOf hd)).ready = hd + 1 := by
  obtain ⟨r, hc⟩ := h.claims hroom
  have hc' : Parked (run step s [.call .control {}, .produce .control, .produce .control,
      .produce .control]) (hd + 1) tl (.fill r (hd + 1 - 1) 0) k := by
    rw [BitVec.add_sub_cancel]
    exact hc
  have hp := hc'.publishes
  rw [BitVec.add_sub_cancel] at hp
  exact hp

theorem Parked.copies {i : ℕ} (h : Parked s hd tl c (.copy tl r i)) : ∃ r',
    Parked (step s .consume) hd tl c
      (if i + 1 = fields then .storeTail tl r' else .copy tl r' (i + 1)) := by
  simp only [step, consume, h.consumer]
  exact ⟨_, h.head, h.tail, h.rt, h.control, rfl⟩

theorem Parked.take (h : Parked s hd tl c (.loadReady tl))
    (hr : (s.ring (slotOf tl)).ready = tl + 1) :
    Parked (run step s take) hd (tl + 1) c (.loadReady (tl + 1)) := by
  have h0 : Parked (step s .consume) hd tl c (.copy tl {} 0) := by
    simp only [step, consume, h.consumer, hr, if_true]
    exact ⟨h.head, h.tail, h.rt, h.control, rfl⟩
  obtain ⟨_, h1⟩ := h0.copies
  obtain ⟨_, h2⟩ := h1.copies
  obtain ⟨_, h3⟩ := h2.copies
  obtain ⟨_, h4⟩ := h3.copies
  obtain ⟨_, h5⟩ := h4.copies
  obtain ⟨_, h6⟩ := h5.copies
  obtain ⟨_, h7⟩ := h6.copies
  obtain ⟨r, h8⟩ := h7.copies
  have hend : ∀ {s : State}, Parked s hd tl c (.storeTail tl r) →
      Parked (step (step s .consume) .consume) hd (tl + 1) c (.loadReady (tl + 1)) := by
    intro s h
    simp only [step, consume, h.consumer]
    exact ⟨h.head, rfl, h.rt, h.control, rfl⟩
  exact hend h8

end

/-- one record is journaled and taken, `n` times -/
def cycles (n : ℕ) : List Event := (List.replicate n (put ++ take)).flatten

theorem Parked.cycles (h : Parked s 0 0 .idle (.loadReady 0)) (n : ℕ) :
    Parked (run step s (cycles n)) (word n) (word n) .idle (.loadReady (word n)) := by
  induction n with
  | zero => exact h
  | succ n ih =>
    rw [Journal.cycles, List.replicate_succ', List.flatten_append, List.flatten_singleton,
      run_append, run_append, show word (n + 1) = word n + 1 from (wrap_succ n).symm]
    obtain ⟨hp, hr⟩ := ih.put (by rw [BitVec.sub_self]; decide)
    exact hp.take hr

/-- the RT loop loads head and tail; `n` records are journaled and taken, 16 more are journaled, and
then the RT loop does its CAS -/
def late (n : ℕ) : List Event :=
  [.call .rt {}, .produce .rt, .produce .rt, .drain, .consume] ++ cycles n ++
    (List.replicate 16 put).flatten ++ [.produce .rt]

end Journal

end ArmControl.Rt
