import Mathlib.Data.List.Nodup
import ArmControl.Rt.Latch

/-!
# The latch discipline

Every interleaving of `latch`, `clear_latch`, `arm_unlatched` and the notice poll keeps:

* `Arb`      the arbitration: a position between a claim and its release holds the word, no two
             threads are at such positions, and an unstable word has a holder;
* `PcOk`     what the record holds at each position of a writer, a clearer and the notice poll;
* `Inv`      both, with the record of a SET latch and the notice bookkeeping;
* `latch_discipline`   the run theorem.
-/

namespace ArmControl.Rt
namespace Latch
open Run Function

/-- the value of the word a thread at this position has claimed and not released yet -/
def Pc.holds : Pc → Option LatchWord
  | .textBegin _ | .textEnd _ | .storeCode _ | .storeGen _ | .bumpSeq _ | .storeFault _
  | .journalFirst _ | .storeSet _ => some .writing
  | .clearFault | .clearCode | .clearGen | .clearText | .clearSecondary | .clearFree =>
    some .clearing
  | .armLoad | .armStart _ | .armOwner _ | .armPeer _ | .armPublish _ | .armFree => some .arming
  | _ => none

/-- the positions of the calls that only the control thread makes -/
def Pc.controlOnly : Pc → Bool
  | .clearLoad | .clearClaim _ | .clearFault | .clearCode | .clearGen | .clearText
  | .clearSecondary | .clearFree | .armClaim | .armLoad | .armStart _ | .armOwner _ | .armPeer _
  | .armPublish _ | .armFree | .armRaise | .noticeWord | .noticeSeq | .noticeCode _
  | .noticeText _ _ | .noticeSend _ | .noticeAck _ => true
  | _ => false

-- their equations, once for all that follows
attribute [grind] Pc.holds Pc.controlOnly

@[simp] theorem goto_pc (s : St) (t : Tid) (p : Pc) : (s.goto t p).pc = update s.pc t p := rfl

/-! ## arbitration -/

structure Arb (s : St) : Prop where
  own : ∀ t w, (s.pc t).holds = some w → s.word = w
  uniq : ∀ t u, (s.pc t).holds ≠ none → (s.pc u).holds ≠ none → t = u
  held : s.word = .free ∨ s.word = .set ∨ ∃ t, (s.pc t).holds ≠ none
  ctl : ∀ t, (s.pc t).controlOnly = true → t = .control

theorem holds_ne_free {p : Pc} {w : LatchWord} (h : p.holds = some w) :
    w ≠ .free ∧ w ≠ .set := by
  cases p <;> simp_all [Pc.holds] <;> subst h <;> simp

section
variable {s s' : St} {t : Tid} {p' : Pc}

/-- the control-only positions stay with the control thread -/
theorem Arb.ctl_update (h : Arb s) (hpc : s'.pc = update s.pc t p')
    (hc : p'.controlOnly = true → t = .control) :
    ∀ u, (s'.pc u).controlOnly = true → u = .control := by
  intro u hu
  by_cases e : u = t
  · subst e
    rw [hpc, update_self] at hu
    exact hc hu
  · rw [hpc, update_of_ne e] at hu
    exact h.ctl u hu

/-- a step that neither claims nor releases the word -/
theorem Arb.stay (h : Arb s) (hpc : s'.pc = update s.pc t p')
    (hc : p'.controlOnly = true → t = .control) (hw : s'.word = s.word)
    (hh : p'.holds = (s.pc t).holds) : Arb s' := by
  have e : ∀ u, (s'.pc u).holds = (s.pc u).holds := by
    intro u
    by_cases eu : u = t
    · subst eu
      rw [hpc, update_self, hh]
    · rw [hpc, update_of_ne eu]
  refine ⟨fun u w hu => ?_, fun u v hu hv => ?_, ?_, h.ctl_update hpc hc⟩
  · rw [hw]
    exact h.own u w (by rw [← e]; exact hu)
  · rw [e] at hu hv
    exact h.uniq u v hu hv
  · rw [hw]
    simpa only [e] using h.held

/-- while the word is FREE or SET nobody holds it -/
theorem Arb.nobody (h : Arb s) (hw : s.word = .free ∨ s.word = .set) (u : Tid) :
    (s.pc u).holds = none := by
  cases hu : (s.pc u).holds with
  | none => rfl
  | some w =>
    have e := h.own u w hu
    have n := holds_ne_free hu
    rcases hw with hw | hw
    · exact absurd (e.symm.trans hw) n.1
    · exact absurd (e.symm.trans hw) n.2

/-- a successful claim -/
theorem Arb.claim (h : Arb s) (hpc : s'.pc = update s.pc t p')
    (hc : p'.controlOnly = true → t = .control) (hw : s.word = .free ∨ s.word = .set)
    (hh : p'.holds = some s'.word) : Arb s' := by
  have other : ∀ u, (s'.pc u).holds ≠ none → u = t := by
    intro u hu
    by_contra e
    rw [hpc, update_of_ne e] at hu
    exact hu (h.nobody hw u)
  have at_t : (s'.pc t).holds = some s'.word := by rw [hpc, update_self, hh]
  refine ⟨fun u w hu => ?_, fun u v hu hv => ?_, .inr (.inr ⟨t, by simp [at_t]⟩),
    h.ctl_update hpc hc⟩
  · have e := other u (by simp [hu])
    subst e
    rw [at_t] at hu
    exact Option.some.inj hu
  · rw [other u hu, other v hv]

/-- a release: the holder publishes FREE or SET and holds nothing any more -/
theorem Arb.release (h : Arb s) (hpc : s'.pc = update s.pc t p')
    (hc : p'.controlOnly = true → t = .control) (ht : (s.pc t).holds ≠ none)
    (hw : s'.word = .free ∨ s'.word = .set) (hh : p'.holds = none) : Arb s' := by
  have none' : ∀ u, (s'.pc u).holds = none := by
    intro u
    by_cases e : u = t
    · subst e
      rw [hpc, update_self, hh]
    · rw [hpc, update_of_ne e]
      by_contra hu
      exact e (h.uniq u t hu ht)
  refine ⟨fun u w hu => ?_, fun u v hu _ => absurd (none' u) hu, ?_, h.ctl_update hpc hc⟩
  · rw [none'] at hu
    cases hu
  · rcases hw with hw | hw
    · exact .inl hw
    · exact .inr (.inl hw)

end

/-! ## the record -/

/-- the whole record is what the latch call `c` wrote, and `c` is the one winner since the last
clear -/
structure Recorded (s : St) (c : LatchCall) : Prop where
  winner : s.claims = [c]
  fault : s.fault = true
  code : s.faultCode = c.code
  gen : s.faultGen = c.originGen
  text : s.faultText = .text (wireText c.text)
  serial : 1 ≤ s.faultSeq

/-- what holds at each position; a writer fills the record field by field, `fault` last -/
def PcOk (s : St) : Pc → Prop
  | .textBegin c | .textEnd c => s.claims = [c] ∧ s.fault = false
  | .storeCode c => (s.claims = [c] ∧ s.fault = false) ∧ s.faultText = .text (wireText c.text)
  | .storeGen c => (s.claims = [c] ∧ s.fault = false) ∧ s.faultText = .text (wireText c.text) ∧
      s.faultCode = c.code
  | .bumpSeq c => (s.claims = [c] ∧ s.fault = false) ∧ s.faultText = .text (wireText c.text) ∧
      s.faultCode = c.code ∧ s.faultGen = c.originGen
  | .storeFault c => (s.claims = [c] ∧ s.fault = false) ∧
      s.faultText = .text (wireText c.text) ∧ s.faultCode = c.code ∧ s.faultGen = c.originGen ∧
      1 ≤ s.faultSeq
  | .journalFirst c | .storeSet c => Recorded s c
  | .clearClaim seen => seen ≠ .writing
  | .clearCode | .clearGen | .clearText | .clearSecondary | .clearFree => s.fault = false
  | .noticeSeq => s.word = .set
  | .noticeCode seq => s.word = .set ∧ seq = s.faultSeq ∧ s.faultNotified < seq
  | .noticeText seq code => s.word = .set ∧ seq = s.faultSeq ∧ s.faultNotified < seq ∧
      code = s.faultCode
  | .noticeSend n => s.word = .set ∧ s.faultNotified < s.faultSeq ∧
      n = ⟨s.faultSeq, s.faultCode, s.faultText⟩
  | .noticeAck seq => s.word = .set ∧ seq = s.faultSeq ∧ ∃ n ∈ s.delivered, n.seq = seq
  | _ => True

structure Inv (s : St) : Prop where
  arb : Arb s
  pcs : ∀ t, PcOk s (s.pc t)
  clean : s.word = .free ∨ s.word = .arming → s.fault = false ∧ s.claims = []
  set : s.word = .set → ∃ c, Recorded s c
  notified : s.faultNotified ≤ s.faultSeq
  known : ∀ n ∈ s.delivered, n.seq ≤ s.faultNotified ∨ s.pc .control = .noticeAck n.seq
  once : (s.delivered.map FaultNotice.seq).Nodup
  acked : s.faultNotified = 0 ∨ ∃ n ∈ s.delivered, n.seq = s.faultNotified

/-- the two states agree on the word, the record and the notices -/
structure SameRecord (s s' : St) : Prop where
  word : s'.word = s.word
  fault : s'.fault = s.fault
  code : s'.faultCode = s.faultCode
  gen : s'.faultGen = s.faultGen
  text : s'.faultText = s.faultText
  seq : s'.faultSeq = s.faultSeq
  notified : s'.faultNotified = s.faultNotified
  claims : s'.claims = s.claims
  delivered : s'.delivered = s.delivered

section
variable {s s' : St} {t : Tid} {p' : Pc}

theorem SameRecord.recorded (e : SameRecord s s') {c : LatchCall} (h : Recorded s c) :
    Recorded s' c :=
  ⟨e.claims ▸ h.winner, e.fault ▸ h.fault, e.code ▸ h.code, e.gen ▸ h.gen, e.text ▸ h.text,
    e.seq ▸ h.serial⟩

theorem SameRecord.pcOk (e : SameRecord s s') {p : Pc} (h : PcOk s p) : PcOk s' p := by
  have hr : ∀ c, Recorded s c → Recorded s' c := fun c => e.recorded
  obtain ⟨e1, e2, e3, e4, e5, e6, e7, e8, e9⟩ := e
  cases p <;> simp only [PcOk, e1, e2, e3, e4, e5, e6, e7, e8, e9] at h ⊢ <;>
    first | exact h | exact hr _ h

/-- a thread that holds nothing and does not read a SET latch constrains nothing -/
theorem PcOk.idle {p : Pc} (h : PcOk s p) (hh : p.holds = none)
    (hn : s.word ≠ .set ∨ p.controlOnly = false) (s' : St) : PcOk s' p := by
  cases p <;> simp_all [PcOk, Pc.holds, Pc.controlOnly]

/-- the other thread's position, when this thread moves -/
theorem pcs_update (hpc : s'.pc = update s.pc t p') (ht : PcOk s' p')
    (ho : ∀ u, u ≠ t → PcOk s' (s.pc u)) : ∀ u, PcOk s' (s'.pc u) := by
  intro u
  by_cases e : u = t
  · subst e
    rwa [hpc, update_self]
  · rw [hpc, update_of_ne e]
    exact ho u e

/-- the acknowledgement position is entered and left only by delivering and acknowledging -/
theorem known_update {l : List FaultNotice} {k : ℕ} (hpc : s'.pc = update s.pc t p')
    (ht : ∀ q, s.pc t ≠ .noticeAck q)
    (h : ∀ n ∈ l, n.seq ≤ k ∨ s.pc .control = .noticeAck n.seq) :
    ∀ n ∈ l, n.seq ≤ k ∨ s'.pc .control = .noticeAck n.seq := by
  intro n hn
  rcases h n hn with h | h
  · exact .inl h
  · have e : Tid.control ≠ t := fun e => ht n.seq (e ▸ h)
    right
    rw [hpc, update_of_ne e, h]

/-- a step that changes neither the word nor the record -/
theorem Inv.stay (h : Inv s) (hpc : s'.pc = update s.pc t p') (e : SameRecord s s')
    (hc : p'.controlOnly = true → t = .control) (hh : p'.holds = (s.pc t).holds)
    (ha : ∀ q, s.pc t ≠ .noticeAck q) (hp : PcOk s p') : Inv s' where
  arb := h.arb.stay hpc hc e.word hh
  pcs := pcs_update hpc (e.pcOk hp) fun u _ => e.pcOk (h.pcs u)
  clean := by
    rw [e.word, e.fault, e.claims]
    exact h.clean
  set := by
    rw [e.word]
    intro hw
    obtain ⟨c, hr⟩ := h.set hw
    exact ⟨c, e.recorded hr⟩
  notified := by
    rw [e.notified, e.seq]
    exact h.notified
  known := by
    rw [e.delivered, e.notified]
    exact known_update hpc ha h.known
  once := by
    rw [e.delivered]
    exact h.once
  acked := by
    rw [e.delivered, e.notified]
    exact h.acked

/-- the holder of the word changes the record -/
theorem Inv.write (h : Inv s) (hpc : s'.pc = update s.pc t p') {w : LatchWord}
    (hp : (s.pc t).holds = some w) (hh : p'.holds = some w) (ha : w ≠ .arming)
    (hc : p'.controlOnly = true → t = .control) (hw : s'.word = s.word)
    (hd : s'.delivered = s.delivered) (hn : s'.faultNotified = s.faultNotified)
    (hs : s.faultSeq ≤ s'.faultSeq) (ht : PcOk s' p') : Inv s' := by
  have word_eq : s.word = w := h.arb.own t w hp
  obtain ⟨n1, n2⟩ := holds_ne_free hp
  have nack : ∀ q, s.pc t ≠ .noticeAck q := by
    intro q e
    rw [e] at hp
    cases hp
  refine ⟨h.arb.stay hpc hc hw (hh.trans hp.symm), pcs_update hpc ht fun u hu => ?_, ?_, ?_, ?_,
    ?_, ?_, ?_⟩
  · refine (h.pcs u).idle ?_ (.inl (word_eq ▸ n2)) s'
    by_contra hu'
    exact hu (h.arb.uniq u t hu' (by simp [hp]))
  · rw [hw, word_eq]
    rintro (e | e)
    · exact absurd e n1
    · exact absurd e ha
  · rw [hw, word_eq]
    exact fun e => absurd e n2
  · rw [hn]
    exact h.notified.trans hs
  · rw [hd, hn]
    exact known_update hpc nack h.known
  · rw [hd]
    exact h.once
  · rw [hd, hn]
    exact h.acked

/-- a claim of the word; only the control thread claims it from SET -/
theorem Inv.claim (h : Inv s) (hpc : s'.pc = update s.pc t p')
    (hf : s.word = .free ∨ s.word = .set ∧ t = .control) (hp : ∀ q, s.pc t ≠ .noticeAck q)
    (hh : p'.holds = some s'.word) (hc : p'.controlOnly = true → t = .control)
    (hd : s'.delivered = s.delivered) (hn : s'.faultNotified = s.faultNotified)
    (hs : s'.faultSeq = s.faultSeq) (ht : PcOk s' p')
    (ha : s'.word = .arming → s'.fault = false ∧ s'.claims = []) : Inv s' := by
  have hf' : s.word = .free ∨ s.word = .set := hf.imp_right And.left
  obtain ⟨n1, n2⟩ := holds_ne_free hh
  refine ⟨h.arb.claim hpc hc hf' hh, pcs_update hpc ht fun u hu => ?_, ?_, ?_, ?_, ?_, ?_, ?_⟩
  · refine (h.pcs u).idle (h.arb.nobody hf' u) ?_ s'
    rcases hf with hf | ⟨-, rfl⟩
    · exact .inl (by simp [hf])
    · right
      by_contra hu'
      exact hu (h.arb.ctl u (by simpa using hu'))
  · rintro (e | e)
    · exact absurd e n1
    · exact ha e
  · exact fun e => absurd e n2
  · rw [hn, hs]
    exact h.notified
  · rw [hd, hn]
    exact known_update hpc hp h.known
  · rw [hd]
    exact h.once
  · rw [hd, hn]
    exact h.acked

/-- a release of the word: SET with the record complete, or FREE with no fault -/
theorem Inv.release (h : Inv s) (hpc : s'.pc = update s.pc t p') {w : LatchWord}
    (hp : (s.pc t).holds = some w) (hh : p'.holds = none)
    (hc : p'.controlOnly = true → t = .control) (hd : s'.delivered = s.delivered)
    (hn : s'.faultNotified = s.faultNotified) (hs : s'.faultSeq = s.faultSeq) (ht : PcOk s' p')
    (hw : (s'.word = .free ∧ s'.fault = false ∧ s'.claims = []) ∨
      (s'.word = .set ∧ ∃ c, Recorded s' c)) : Inv s' := by
  have word_eq : s.word = w := h.arb.own t w hp
  obtain ⟨n1, n2⟩ := holds_ne_free hp
  have nack : ∀ q, s.pc t ≠ .noticeAck q := by
    intro q e
    rw [e] at hp
    cases hp
  refine ⟨h.arb.release hpc hc (by simp [hp]) (hw.imp And.left And.left) hh,
    pcs_update hpc ht fun u hu => ?_, ?_, ?_, ?_, ?_, ?_, ?_⟩
  · refine (h.pcs u).idle ?_ (.inl (word_eq ▸ n2)) s'
    by_contra hu'
    exact hu (h.arb.uniq u t hu' (by simp [hp]))
  · intro e
    rcases hw with ⟨-, hw⟩ | ⟨hw, -⟩
    · exact hw
    · rw [hw] at e
      simp at e
  · intro e
    rcases hw with ⟨hw, -⟩ | ⟨-, hw⟩
    · rw [hw] at e
      simp at e
    · exact hw
  · rw [hn, hs]
    exact h.notified
  · rw [hd, hn]
    exact known_update hpc nack h.known
  · rw [hd]
    exact h.once
  · rw [hd, hn]
    exact h.acked

end

/-! ## one step -/

/-- at its own claim the control thread finds the word stable or being written -/
theorem Inv.stable_of_claim {s : St} (h : Inv s) (hp : (s.pc .control).holds = none)
    (hw : s.word ≠ .writing) : s.word = .free ∨ s.word = .set := by
  rcases h.arb.held with hf | hs | ⟨t, ht⟩
  · exact .inl hf
  · exact .inr hs
  · -- the holder is the RT thread, and it only ever claims WRITING
    exfalso
    cases t with
    | control => exact ht hp
    | rt =>
      have hc : (s.pc .rt).controlOnly = false := by
        cases hc : (s.pc .rt).controlOnly with
        | false => rfl
        | true => cases h.arb.ctl .rt hc
      have hwr : (s.pc .rt).holds = some .writing := by
        cases hpc : s.pc .rt <;> simp_all [Pc.holds, Pc.controlOnly]
      exact hw (h.arb.own .rt .writing hwr)

/-- the pending notice is newer than everything delivered before it -/
theorem Inv.deliver {s : St} (h : Inv s) {n : FaultNotice} (hp : s.pc .control = .noticeSend n) :
    Inv ({ s with delivered := s.delivered ++ [n] }.goto .control (.noticeAck n.seq)) := by
  have hok := h.pcs .control
  rw [hp] at hok
  obtain ⟨hw, hlt, rfl⟩ := hok
  have older : ∀ m ∈ s.delivered, m.seq < s.faultSeq := by
    intro m hm
    rcases h.known m hm with hk | hk
    · exact lt_of_le_of_lt hk hlt
    · rw [hp] at hk
      cases hk
  have rt_idle : ∀ u, u ≠ .control → PcOk s (s.pc u) → ∀ s', PcOk s' (s.pc u) := by
    intro u hu hok s'
    refine hok.idle (h.arb.nobody (.inr hw) u) (.inr ?_) s'
    by_contra hc
    exact hu (h.arb.ctl u (by simpa using hc))
  refine ⟨h.arb.stay rfl (fun _ => rfl) rfl (by rw [hp]; rfl),
    pcs_update rfl ⟨hw, rfl, _, List.mem_append_right _ List.mem_cons_self, rfl⟩
      fun u hu => rt_idle u hu (h.pcs u) _, h.clean, ?_, h.notified, ?_, ?_, ?_⟩
  · intro _
    obtain ⟨c, hc⟩ := h.set hw
    exact ⟨c, hc.winner, hc.fault, hc.code, hc.gen, hc.text, hc.serial⟩
  · intro m hm
    rcases List.mem_append.mp hm with hm | hm
    · rcases h.known m hm with hk | hk
      · exact .inl hk
      · rw [hp] at hk
        cases hk
    · rw [List.mem_singleton] at hm
      subst hm
      right
      simp
  · have hnew : s.faultSeq ∉ s.delivered.map FaultNotice.seq := by
      intro hmem
      obtain ⟨m, hm, he⟩ := List.mem_map.mp hmem
      exact absurd he (older m hm).ne
    simpa [St.goto, List.nodup_append, h.once] using fun m hm => (older m hm).ne
  · rcases h.acked with ha | ⟨m, hm, he⟩
    · exact .inl ha
    · exact .inr ⟨m, List.mem_append_left _ hm, he⟩

theorem Inv.ack {s : St} (h : Inv s) {seq : ℕ} (hp : s.pc .control = .noticeAck seq) :
    Inv ({ s with faultNotified := if s.faultNotified < seq then seq else s.faultNotified }.goto
      .control .idle) := by
  have hok := h.pcs .control
  rw [hp] at hok
  obtain ⟨hw, rfl, m, hm, hseq⟩ := hok
  refine ⟨h.arb.stay rfl (by simp [Pc.controlOnly]) rfl (by rw [hp]; rfl),
    pcs_update rfl trivial fun u hu => ?_, h.clean, ?_, ?_, ?_, h.once, ?_⟩
  · refine (h.pcs u).idle (h.arb.nobody (.inr hw) u) (.inr ?_) _
    by_contra hc
    exact hu (h.arb.ctl u (by simpa using hc))
  · intro _
    obtain ⟨c, hc⟩ := h.set hw
    exact ⟨c, hc.winner, hc.fault, hc.code, hc.gen, hc.text, hc.serial⟩
  · have := h.notified
    simp only [St.goto]
    split_ifs <;> omega
  · intro k hk
    left
    simp only [St.goto]
    rcases h.known k hk with hk | hk
    · split_ifs <;> omega
    · rw [hp] at hk
      injection hk with hk
      split_ifs <;> omega
  · simp only [St.goto]
    split_ifs
    · exact .inr ⟨m, hm, hseq⟩
    · exact h.acked

theorem inv_start {s : St} (h : Inv s) (t : Tid) (c : Call) : Inv (start s t c) := by
  unfold start
  split
  · rename_i p hp he
    have hpc : (s.goto t p).pc = update s.pc t p := rfl
    have hs : SameRecord s (s.goto t p) := ⟨rfl, rfl, rfl, rfl, rfl, rfl, rfl, rfl, rfl⟩
    cases c <;> simp only [Call.entry, Option.ite_none_right_eq_some, Option.some.injEq] at he
    case latch c =>
      subst he
      exact h.stay hpc hs (by simp [Pc.controlOnly]) (by simp [hp, Pc.holds]) (by simp [hp]) trivial
    all_goals
      obtain ⟨ht, rfl⟩ := he
      exact h.stay hpc hs (fun _ => ht) (by simp [hp, Pc.holds]) (by simp [hp]) trivial
  · exact h

theorem inv_go {s : St} (h : Inv s) (t : Tid) (outcome : Bool) (now : ℕ) :
    Inv (go s t outcome now) := by
  have hok := h.pcs t
  have hctl := h.arb.ctl t
  unfold go
  cases hp : s.pc t with
  | idle => exact h
  | latchClaim c =>
    simp only
    split_ifs with hw
    · obtain ⟨hf, hcl⟩ := h.clean (.inl hw)
      exact h.claim rfl (.inl hw) (by simp [hp]) rfl (by simp [Pc.controlOnly]) rfl rfl rfl
        ⟨by simp [St.goto, hcl], hf⟩ (fun e => by cases e)
    · exact h.stay rfl ⟨rfl, rfl, rfl, rfl, rfl, rfl, rfl, rfl, rfl⟩ (by simp [Pc.controlOnly])
        (by simp [hp, Pc.holds]) (by simp [hp]) trivial
  | secondaryCode c =>
    refine h.stay rfl ⟨rfl, rfl, rfl, rfl, rfl, rfl, rfl, rfl, rfl⟩ ?_ ?_ (by simp [hp]) ?_ <;>
      split_ifs <;> simp [hp, Pc.holds, Pc.controlOnly, PcOk]
  | secondaryBit c =>
    refine h.stay rfl ⟨rfl, rfl, rfl, rfl, rfl, rfl, rfl, rfl, rfl⟩ ?_ ?_ (by simp [hp]) ?_ <;>
      split_ifs <;> simp [hp, Pc.holds, Pc.controlOnly, PcOk]
  | secondaryJournal c =>
    exact h.stay rfl ⟨rfl, rfl, rfl, rfl, rfl, rfl, rfl, rfl, rfl⟩ (by simp [Pc.controlOnly])
      (by simp [hp, Pc.holds]) (by simp [hp]) trivial
  | textBegin c =>
    rw [hp] at hok
    exact h.write rfl (by rw [hp]; rfl) rfl (by simp) (by simp [Pc.controlOnly]) rfl rfl rfl le_rfl
      hok
  | textEnd c =>
    rw [hp] at hok
    exact h.write rfl (by rw [hp]; rfl) rfl (by simp) (by simp [Pc.controlOnly]) rfl rfl rfl le_rfl
      ⟨hok, rfl⟩
  | storeCode c =>
    rw [hp] at hok
    exact h.write rfl (by rw [hp]; rfl) rfl (by simp) (by simp [Pc.controlOnly]) rfl rfl rfl le_rfl
      ⟨hok.1, hok.2, rfl⟩
  | storeGen c =>
    rw [hp] at hok
    exact h.write rfl (by rw [hp]; rfl) rfl (by simp) (by simp [Pc.controlOnly]) rfl rfl rfl le_rfl
      ⟨hok.1, hok.2.1, hok.2.2, rfl⟩
  | bumpSeq c =>
    rw [hp] at hok
    exact h.write rfl (by rw [hp]; rfl) rfl (by simp) (by simp [Pc.controlOnly]) rfl rfl rfl
      (Nat.le_succ _) ⟨hok.1, hok.2.1, hok.2.2.1, hok.2.2.2, Nat.le_add_left 1 _⟩
  | storeFault c =>
    rw [hp] at hok
    obtain ⟨⟨hcl, -⟩, htext, hcode, hgen, hseq⟩ := hok
    exact h.write rfl (by rw [hp]; rfl) rfl (by simp) (by simp [Pc.controlOnly]) rfl rfl rfl le_rfl
      ⟨hcl, rfl, hcode, hgen, htext, hseq⟩
  | journalFirst c =>
    rw [hp] at hok
    exact h.stay rfl ⟨rfl, rfl, rfl, rfl, rfl, rfl, rfl, rfl, rfl⟩ (by simp [Pc.controlOnly])
      (by simp [hp, Pc.holds]) (by simp [hp]) hok
  | storeSet c =>
    rw [hp] at hok
    obtain ⟨hcl, hf, hcode, hgen, htext, hseq⟩ := hok
    exact h.release rfl (by rw [hp]; rfl) rfl (by simp [Pc.controlOnly]) rfl rfl rfl trivial
      (.inr ⟨rfl, c, hcl, hf, hcode, hgen, htext, hseq⟩)
  | clearLoad =>
    have ht := hctl (by rw [hp]; rfl)
    simp only
    split_ifs with hw hb
    · exact h.stay rfl ⟨rfl, rfl, rfl, rfl, rfl, rfl, rfl, rfl, rfl⟩ (fun _ => ht)
        (by simp [hp, Pc.holds]) (by simp [hp]) trivial
    · exact h.stay rfl ⟨rfl, rfl, rfl, rfl, rfl, rfl, rfl, rfl, rfl⟩ (fun _ => ht)
        (by simp [hp, Pc.holds]) (by simp [hp]) trivial
    · exact h.stay rfl ⟨rfl, rfl, rfl, rfl, rfl, rfl, rfl, rfl, rfl⟩ (fun _ => ht)
        (by simp [hp, Pc.holds]) (by simp [hp]) hw
  | clearClaim seen =>
    have ht := hctl (by rw [hp]; rfl)
    simp only
    split_ifs with hw
    · subst ht
      rw [hp] at hok
      have hstable := h.stable_of_claim (by rw [hp]; rfl) (hw ▸ hok)
      exact h.claim rfl (hstable.imp_right fun e => ⟨e, rfl⟩) (by simp [hp]) rfl (fun _ => rfl) rfl
        rfl rfl trivial (fun e => by cases e)
    · exact h.stay rfl ⟨rfl, rfl, rfl, rfl, rfl, rfl, rfl, rfl, rfl⟩ (fun _ => ht)
        (by simp [hp, Pc.holds]) (by simp [hp]) trivial
  | clearFault =>
    have ht := hctl (by rw [hp]; rfl)
    exact h.write rfl (by rw [hp]; rfl) rfl (by simp) (fun _ => ht) rfl rfl rfl le_rfl rfl
  | clearCode =>
    have ht := hctl (by rw [hp]; rfl)
    rw [hp] at hok
    exact h.write rfl (by rw [hp]; rfl) rfl (by simp) (fun _ => ht) rfl rfl rfl le_rfl hok
  | clearGen =>
    have ht := hctl (by rw [hp]; rfl)
    rw [hp] at hok
    exact h.write rfl (by rw [hp]; rfl) rfl (by simp) (fun _ => ht) rfl rfl rfl le_rfl hok
  | clearText =>
    have ht := hctl (by rw [hp]; rfl)
    rw [hp] at hok
    exact h.write rfl (by rw [hp]; rfl) rfl (by simp) (fun _ => ht) rfl rfl rfl le_rfl hok
  | clearSecondary =>
    have ht := hctl (by rw [hp]; rfl)
    rw [hp] at hok
    exact h.stay rfl ⟨rfl, rfl, rfl, rfl, rfl, rfl, rfl, rfl, rfl⟩ (fun _ => ht)
      (by simp [hp, Pc.holds]) (by simp [hp]) hok
  | clearFree =>
    rw [hp] at hok
    exact h.release rfl (by rw [hp]; rfl) rfl (by simp [Pc.controlOnly]) rfl rfl rfl trivial
      (.inl ⟨rfl, hok, rfl⟩)
  | armClaim =>
    have ht := hctl (by rw [hp]; rfl)
    simp only
    split_ifs with hw
    · exact h.claim rfl (.inl hw) (by simp [hp]) rfl (fun _ => ht) rfl rfl rfl trivial
        (fun _ => h.clean (.inl hw))
    · exact h.stay rfl ⟨rfl, rfl, rfl, rfl, rfl, rfl, rfl, rfl, rfl⟩ (fun _ => ht)
        (by simp [hp, Pc.holds]) (by simp [hp]) trivial
  | armLoad | armStart gen | armOwner gen | armPeer gen | armPublish gen | armRaise =>
    have ht := hctl (by rw [hp]; rfl)
    exact h.stay rfl ⟨rfl, rfl, rfl, rfl, rfl, rfl, rfl, rfl, rfl⟩ (fun _ => ht)
      (by simp [hp, Pc.holds]) (by simp [hp]) trivial
  | armFree =>
    have ht := hctl (by rw [hp]; rfl)
    have hw := h.arb.own t .arming (by rw [hp]; rfl)
    exact h.release rfl (by rw [hp]; rfl) rfl (fun _ => ht) rfl rfl rfl trivial
      (.inl ⟨rfl, h.clean (.inr hw)⟩)
  | noticeWord =>
    have ht := hctl (by rw [hp]; rfl)
    refine h.stay rfl ⟨rfl, rfl, rfl, rfl, rfl, rfl, rfl, rfl, rfl⟩ (fun _ => ht) ?_ (by simp [hp])
      ?_
    · split_ifs <;> simp [hp, Pc.holds]
    · split_ifs with hw
      · exact hw
      · trivial
  | noticeSeq =>
    have ht := hctl (by rw [hp]; rfl)
    rw [hp] at hok
    refine h.stay rfl ⟨rfl, rfl, rfl, rfl, rfl, rfl, rfl, rfl, rfl⟩ (fun _ => ht) ?_ (by simp [hp])
      ?_
    · split_ifs <;> simp [hp, Pc.holds]
    · split_ifs with hs
      · trivial
      · exact ⟨hok, rfl, lt_of_le_of_ne h.notified (Ne.symm hs)⟩
  | noticeCode seq =>
    have ht := hctl (by rw [hp]; rfl)
    rw [hp] at hok
    exact h.stay rfl ⟨rfl, rfl, rfl, rfl, rfl, rfl, rfl, rfl, rfl⟩ (fun _ => ht)
      (by simp [hp, Pc.holds]) (by simp [hp]) ⟨hok.1, hok.2.1, hok.2.2, rfl⟩
  | noticeText seq code =>
    have ht := hctl (by rw [hp]; rfl)
    rw [hp] at hok
    obtain ⟨hw, rfl, hlt, rfl⟩ := hok
    exact h.stay rfl ⟨rfl, rfl, rfl, rfl, rfl, rfl, rfl, rfl, rfl⟩ (fun _ => ht)
      (by simp [hp, Pc.holds]) (by simp [hp]) ⟨hw, hlt, rfl⟩
  | noticeSend n =>
    have ht := hctl (by rw [hp]; rfl)
    subst ht
    simp only
    split_ifs with ho
    · exact h.deliver hp
    · exact h.stay rfl ⟨rfl, rfl, rfl, rfl, rfl, rfl, rfl, rfl, rfl⟩ (fun _ => rfl)
        (by simp [hp, Pc.holds]) (by simp [hp]) trivial
  | noticeAck seq =>
    have ht := hctl (by rw [hp]; rfl)
    subst ht
    exact h.ack hp

theorem inv_step {s : St} (h : Inv s) (e : Event) : Inv (step s e) := by
  cases e with
  | call t c => exact inv_start h t c
  | go t outcome now => exact inv_go h t outcome now

theorem inv_init : Inv {} where
  arb := ⟨fun _ _ h => (by cases h), fun _ _ h => absurd rfl h, .inl rfl, fun _ h => (by cases h)⟩
  pcs := fun _ => trivial
  clean := fun _ => ⟨rfl, rfl⟩
  set := fun h => by cases h
  notified := le_rfl
  known := fun _ h => by cases h
  once := List.nodup_nil
  acked := .inl rfl

theorem inv_run (es : List Event) : Inv (run step {} es) :=
  invariant (C := fun _ _ => True) inv_init (fun _ e _ h => inv_step h e)
    (along_of_forall (fun _ _ => trivial) es)

/-! ## arming -/

/-- what `begin_arm` prepares -/
def St.prepared (s : St) : ℕ × (ℕ × ℕ) × ℕ × ℕ := (s.armGen, s.armStart, s.cmdOwner, s.peerGen)

/-- the generation is prepared only by a thread inside the ARMING claim -/
theorem prepared_step (s : St) (e : Event) (h : (step s e).prepared ≠ s.prepared) :
    ∃ t, (s.pc t).holds = some .arming := by
  cases e with
  | call t c =>
    refine absurd ?_ h
    simp only [step, start]
    split <;> rfl
  | go t outcome now =>
    refine ⟨t, ?_⟩
    by_contra hn
    refine h ?_
    simp only [step, go]
    cases hp : s.pc t <;> simp only [hp, Pc.holds, not_true_eq_false] at hn ⊢ <;>
      first | rfl | (split_ifs <;> rfl)

/-- ARMING is claimed from FREE -/
theorem arming_step {s : St} (e : Event) (h : (step s e).word = .arming) (hs : s.word ≠ .arming) :
    s.word = .free := by
  cases e with
  | call t c =>
    refine absurd ?_ hs
    rw [← h]
    simp only [step, start]
    split <;> rfl
  | go t outcome now =>
    by_contra hf
    refine hs ?_
    rw [← h]
    simp only [step, go] at h ⊢
    cases hp : s.pc t <;> simp only [hp, hf, if_false] at h ⊢ <;>
      first | rfl | cases h | (split_ifs at h ⊢ <;> first | rfl | cases h)

/-! ## the notice poll -/

def Event.thread : Event → Tid
  | .call t _ => t
  | .go t _ _ => t

/-- the RT thread leaves a SET latch, its notice and the control thread's position alone -/
theorem rt_quiet {s : St} (h : Inv s) (hw : s.word = .set) {e : Event} (he : e.thread = .rt) :
    SameRecord s (step s e) ∧ (step s e).pc .control = s.pc .control := by
  have hh : (s.pc .rt).holds = none := h.arb.nobody (.inr hw) .rt
  have hc : (s.pc .rt).controlOnly = true → False := fun hc => by cases h.arb.ctl .rt hc
  have other : ∀ p, update s.pc .rt p .control = s.pc .control := fun p => update_of_ne (by simp) _ _
  cases e with
  | call t c =>
    cases he
    simp only [step, start]
    split
    · rename_i p _ _
      exact ⟨⟨rfl, rfl, rfl, rfl, rfl, rfl, rfl, rfl, rfl⟩, other p⟩
    · exact ⟨⟨rfl, rfl, rfl, rfl, rfl, rfl, rfl, rfl, rfl⟩, rfl⟩
  | go t outcome now =>
    cases he
    simp only [step, go]
    cases hp : s.pc .rt <;> simp only [hp, Pc.holds, Pc.controlOnly, reduceCtorEq] at hh hc ⊢
    case idle => exact ⟨⟨rfl, rfl, rfl, rfl, rfl, rfl, rfl, rfl, rfl⟩, trivial⟩
    case latchClaim c =>
      rw [if_neg (by simp [hw])]
      exact ⟨⟨rfl, rfl, rfl, rfl, rfl, rfl, rfl, rfl, rfl⟩, by rw [goto_pc, other]⟩
    case secondaryCode c | secondaryBit c | secondaryJournal c =>
      exact ⟨⟨rfl, rfl, rfl, rfl, rfl, rfl, rfl, rfl, rfl⟩, by rw [goto_pc, other]⟩
    all_goals exact absurd trivial hc

theorem SameRecord.trans {a b c : St} (h : SameRecord a b) (k : SameRecord b c) :
    SameRecord a c :=
  ⟨k.word.trans h.word, k.fault.trans h.fault, k.code.trans h.code, k.gen.trans h.gen,
    k.text.trans h.text, k.seq.trans h.seq, k.notified.trans h.notified,
    k.claims.trans h.claims, k.delivered.trans h.delivered⟩

theorem rt_quiet_run {s : St} (h : Inv s) (hw : s.word = .set) (r : List Event)
    (hr : ∀ e ∈ r, e.thread = .rt) :
    Inv (run step s r) ∧ SameRecord s (run step s r) ∧
      (run step s r).pc .control = s.pc .control := by
  induction r generalizing s with
  | nil => exact ⟨h, ⟨rfl, rfl, rfl, rfl, rfl, rfl, rfl, rfl, rfl⟩, rfl⟩
  | cons e r ih =>
    obtain ⟨e1, p1⟩ := rt_quiet h hw (hr e List.mem_cons_self)
    obtain ⟨hi, e2, p2⟩ := ih (inv_step h e) (e1.word.trans hw)
      fun x hx => hr x (List.mem_cons_of_mem _ hx)
    exact ⟨hi, e1.trans e2, p2.trans p1⟩

/-- one poll of the control thread that reaches the client: `pending_fault_notice`, the send and
nothing else, with any RT events in between -/
def poll (r0 r1 r2 r3 r4 : List Event) : List Event :=
  .call .control .notice :: (r0 ++ .go .control false 0 :: (r1 ++ .go .control false 0 ::
    (r2 ++ .go .control false 0 :: (r3 ++ .go .control false 0 ::
      (r4 ++ [.go .control true 0])))))

section
variable {s : St}

/-- RT events, then one step of the control thread that only moves it from `p` to `p'` -/
theorem poll_leg (h : Inv s) (hw : s.word = .set) {r : List Event}
    (p' : Pc) (hr : ∀ e ∈ r, e.thread = .rt)
    (hgo : ∀ s', SameRecord s s' → s'.pc .control = s.pc .control →
      go s' .control false 0 = s'.goto .control p') :
    ∃ s', run step s (r ++ [.go .control false 0]) = s' ∧ Inv s' ∧ SameRecord s s' ∧
      s'.pc .control = p' := by
  obtain ⟨hi, he, hp⟩ := rt_quiet_run h hw r hr
  refine ⟨_, rfl, ?_, ?_, ?_⟩
  · rw [run_snoc]
    exact inv_step hi _
  · rw [run_snoc, step, hgo _ he hp]
    exact he.trans ⟨rfl, rfl, rfl, rfl, rfl, rfl, rfl, rfl, rfl⟩
  · rw [run_snoc, step, hgo _ he hp, goto_pc, update_self]

/-- a SET latch whose serial has not been delivered is reported by the next poll -/
theorem poll_delivers (h : Inv s) (hw : s.word = .set) (hp : s.pc .control = .idle)
    (hnew : ∀ n ∈ s.delivered, n.seq ≠ s.faultSeq) {r0 r1 r2 r3 r4 : List Event}
    (hr : ∀ e ∈ r0 ++ r1 ++ r2 ++ r3 ++ r4, e.thread = .rt) :
    (run step s (poll r0 r1 r2 r3 r4)).delivered =
      s.delivered ++ [⟨s.faultSeq, s.faultCode, s.faultText⟩] := by
  simp only [List.mem_append] at hr
  have hne : s.faultSeq ≠ s.faultNotified := by
    obtain ⟨c, hc⟩ := h.set hw
    intro e
    rcases h.acked with ha | ⟨n, hn, hs⟩
    · have := hc.serial
      omega
    · exact hnew n hn (hs.trans e.symm)
  have h0 : Inv (start s .control .notice) := inv_start h _ _
  have e0 : SameRecord s (start s .control .notice) := by
    simp only [start, hp, Call.entry, if_true]
    exact ⟨rfl, rfl, rfl, rfl, rfl, rfl, rfl, rfl, rfl⟩
  have p0 : (start s .control .notice).pc .control = .noticeWord := by
    simp [start, hp, Call.entry]
  obtain ⟨s1, hs1, h1, e1, p1⟩ := poll_leg h0 (e0.word.trans hw) (r := r0) .noticeSeq
    (fun e he => hr e (by tauto)) (fun s' he hpc => by
      simp [go, hpc, p0, he.word, e0.word, hw])
  have e1 := e0.trans e1
  obtain ⟨s2, hs2, h2, e2, p2⟩ := poll_leg h1 (e1.word.trans hw) (r := r1)
    (.noticeCode s.faultSeq) (fun e he => hr e (by tauto)) (fun s' he hpc => by
      simp [go, hpc, p1, he.seq, he.notified, e1.seq, e1.notified, hne])
  have e2 := e1.trans e2
  obtain ⟨s3, hs3, h3, e3, p3⟩ := poll_leg h2 (e2.word.trans hw) (r := r2)
    (.noticeText s.faultSeq s.faultCode) (fun e he => hr e (by tauto)) (fun s' he hpc => by
      simp [go, hpc, p2, he.code, e2.code])
  have e3 := e2.trans e3
  obtain ⟨s4, hs4, h4, e4, p4⟩ := poll_leg h3 (e3.word.trans hw) (r := r3)
    (.noticeSend ⟨s.faultSeq, s.faultCode, s.faultText⟩) (fun e he => hr e (by tauto))
    (fun s' he hpc => by simp [go, hpc, p3, he.text, e3.text])
  have e4 := e3.trans e4
  obtain ⟨h5, e5, p5⟩ := rt_quiet_run h4 (e4.word.trans hw) r4 (fun e he => hr e (by tauto))
  have hrun : run step s (poll r0 r1 r2 r3 r4) =
      step (run step s4 r4) (.go .control true 0) := by
    rw [← hs4, ← hs3, ← hs2, ← hs1]
    simp [poll, run_append, step]
  rw [hrun, step, go, p5, p4]
  simp [St.goto, e5.delivered, e4.delivered]

end

/-- the discipline, as a property of the state a run has reached -/
structure Disciplined (s : St) : Prop where
  /-- at most one thread is between a claim of the word and its release -/
  exclusive : ∀ t u, (s.pc t).holds ≠ none → (s.pc u).holds ≠ none → t = u
  /-- a SET latch has the record of the one call that won the word since the last clear -/
  coherent : s.word = .set → ∃ c, s.claims = [c] ∧ s.fault = true ∧ s.faultCode = c.code ∧
    s.faultGen = c.originGen ∧ s.faultText = .text (wireText c.text)
  clean : s.word = .free ∨ s.word = .arming → s.fault = false
  /-- a generation is prepared and published inside ARMING, which is entered from FREE -/
  prepares : ∀ e, (step s e).prepared ≠ s.prepared → s.word = .arming
  arms : ∀ e, (step s e).word = .arming → s.word ≠ .arming → s.word = .free
  /-- any other word refuses the ARM: the call returns and nothing else changes -/
  refuses : ∀ outcome now, s.pc .control = .armClaim → s.word ≠ .free →
    step s (.go .control outcome now) = s.goto .control .idle
  /-- no serial is delivered twice, and the next poll reports a SET latch not delivered yet -/
  once : (s.delivered.map FaultNotice.seq).Nodup
  reported : ∀ r0 r1 r2 r3 r4, s.word = .set → s.pc .control = .idle →
    (∀ n ∈ s.delivered, n.seq ≠ s.faultSeq) →
    (∀ e ∈ r0 ++ r1 ++ r2 ++ r3 ++ r4, Event.thread e = .rt) →
    (run step s (poll r0 r1 r2 r3 r4)).delivered =
      s.delivered ++ [⟨s.faultSeq, s.faultCode, s.faultText⟩]

/-- **The latch discipline.**  In every interleaving, one atomic operation at a time. -/
theorem latch_discipline (es : List Event) : Disciplined (run step {} es) := by
  have h := inv_run es
  refine ⟨h.arb.uniq, fun hw => ?_, fun hw => (h.clean hw).1, fun e he => ?_,
    fun e => arming_step e, fun outcome now hp hw => ?_, h.once,
    fun r0 r1 r2 r3 r4 hw hp hnew hr => poll_delivers h hw hp hnew hr⟩
  · obtain ⟨c, hc⟩ := h.set hw
    exact ⟨c, hc.winner, hc.fault, hc.code, hc.gen, hc.text⟩
  · obtain ⟨t, ht⟩ := prepared_step _ e he
    exact h.arb.own t _ ht
  · simp [step, go, hp, hw]

end Latch

end ArmControl.Rt
