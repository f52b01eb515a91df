import ArmControl.Execution.StatusFold
import ArmControl.Lib.Run
import ArmControl.RemoteRt.ControlLink
import ArmControl.Supervisor.RuntimeState

/-!
# APPLIED is acceptance evidence (`plants/remote_rt/observation.py`, `RobotRuntime._step`)

* `Input`, `track`      what a tracker is fed, in any order and any number of times;
* `Paced`               the ARM epochs fed, and the packets of one epoch, are less than half of the words apart;
* `Accepted`            two healthy states, the later one newer, and nothing in between that closes the epoch;
* `appliedRules`        the runtime's rule over its executions;
* `applied_evidence`    **what is confirmed was accepted, and APPLIED is written for nothing else.**
-/

namespace ArmControl.Supervisor
open ArmControl.Execution
open RemoteRt (RtState epochReached)

namespace AppliedTracker

inductive Input where
  | feed (st : RtState)
  | disarmSent
  deriving DecidableEq

def step (t : AppliedTracker) : Input → AppliedTracker
  | .feed st => t.feed st
  | .disarmSent => t.disarmSent

/-- a tracker that was fed `ins` -/
def track (ins : List Input) : AppliedTracker := Run.run step {} ins

theorem track_snoc (ins : List Input) (i : Input) : track (ins ++ [i]) = (track ins).step i := Run.run_snoc step {} ins i

/-! ## serial numbers -/

/-- how far a word is after `base` -/
def place (base v : ℕ) : ℕ := (v + 2 ^ 32 - base % 2 ^ 32) % 2 ^ 32

/-- in a window of half the words the comparison is that of the places -/
theorem newer_iff {base a b : ℕ} (ha : place base a < 2 ^ 31) (hb : place base b < 2 ^ 31) :
    newer a b = true ↔ place base b < place base a := by
  unfold place at *
  unfold newer
  simp only [Bool.and_eq_true, decide_eq_true_eq]
  omega

theorem place_inj {base a b : ℕ} (ha : a < 2 ^ 32) (hb : b < 2 ^ 32) (h : place base a = place base b) : a = b := by
  unfold place at h
  omega

/-- a word, in the windows from `b` on and of its epoch from `c` on -/
def Input.Within (b : ℕ) (c : ℕ → ℕ) : Input → Prop
  | .feed st => st.armEpoch < 2 ^ 32 ∧ place b st.armEpoch < 2 ^ 31 ∧ place (c st.armEpoch) st.stateSeq < 2 ^ 31
  | .disarmSent => True

instance (b : ℕ) (c : ℕ → ℕ) : DecidablePred (Input.Within b c)
  | .feed _ => inferInstanceAs (Decidable (_ ∧ _))
  | .disarmSent => isTrue trivial

/-- all numbers lie in these windows -/
def Windows (b : ℕ) (c : ℕ → ℕ) (ins : List Input) : Prop := ∀ i ∈ ins, i.Within b c

theorem Windows.epochs {b : ℕ} {c : ℕ → ℕ} {ins : List Input} (h : Windows b c ins) (st : RtState) (hst : .feed st ∈ ins) : place b st.armEpoch < 2 ^ 31 := (h _ hst).2.1

theorem Windows.seqs {b : ℕ} {c : ℕ → ℕ} {ins : List Input} (h : Windows b c ins) (st : RtState) (hst : .feed st ∈ ins) : place (c st.armEpoch) st.stateSeq < 2 ^ 31 :=
  (h _ hst).2.2

theorem Windows.sub {b : ℕ} {c : ℕ → ℕ} {as bs : List Input} (h : Windows b c bs) (hsub : ∀ i ∈ as, i ∈ bs) : Windows b c as := fun i hi => h i (hsub i hi)

/-- numbers as counters give them: words, less than half of them apart -/
def Paced (ins : List Input) : Prop := ∃ b c, Windows b c ins

/-! ## the feed, case by case -/

variable {t : AppliedTracker} {st : RtState} {ins : List Input} {e : ℕ}

/-- ARMED and not FAULTED -/
def Healthy (st : RtState) : Prop := st.armed = true ∧ st.faulted = false

instance : DecidablePred Healthy := fun _ => inferInstanceAs (Decidable (_ ∧ _))

/-- a newer packet of the tracker's own epoch -/
def take (t : AppliedTracker) (st : RtState) : AppliedTracker :=
  if t.closed then { t with last := some st.stateSeq, faulted := t.faulted || st.faulted }
  else if Healthy st then
    { t with
      last := some st.stateSeq
      confirmed_ := if t.candidate.isSome then t.candidate else t.confirmed_
      candidate := some st.lastCmdSeq }
  else { t with last := some st.stateSeq, faulted := t.faulted || st.faulted, closed := true, candidate := none }

/-- the tracker at the first packet of an epoch -/
def opened (epoch : ℕ) : AppliedTracker := { epoch := some epoch }

theorem take_eq (t : AppliedTracker) (st : RtState) :
    (if t.closed then { t with last := some st.stateSeq, faulted := t.faulted || st.faulted }
      else if !st.armed || st.faulted then
        { t with last := some st.stateSeq, faulted := t.faulted || st.faulted, closed := true, candidate := none }
      else
        { t with
          last := some st.stateSeq
          faulted := t.faulted || st.faulted
          confirmed_ := if t.candidate.isSome then t.candidate else t.confirmed_
          candidate := some st.lastCmdSeq }) = t.take st := by
  unfold take
  by_cases hc : t.closed = true
  · rw [if_pos hc, if_pos hc]
  rw [if_neg hc, if_neg hc]
  by_cases hh : Healthy st
  · have hno : ¬ (!st.armed || st.faulted) = true := by rw [hh.1, hh.2]; exact Bool.false_ne_true
    rw [if_pos hh, if_neg hno, hh.2, Bool.or_false]
  · have hyes : (!st.armed || st.faulted) = true := by
      rw [Bool.or_eq_true, Bool.not_eq_true']
      by_contra hno
      rw [not_or, Bool.not_eq_false, Bool.not_eq_true] at hno
      exact hh hno
    rw [if_neg hh, if_pos hyes]

/-- a packet that is not of an older epoch -/
def heard (t : AppliedTracker) (st : RtState) : AppliedTracker :=
  if t.last.any fun l => !newer st.stateSeq l then t else t.take st

theorem feed_eq (t : AppliedTracker) (st : RtState) :
    t.feed st = if !(t.epoch.all fun e => newer st.armEpoch e) && t.epoch != some st.armEpoch then t
      else (if t.epoch.all fun e => newer st.armEpoch e then opened st.armEpoch else t).heard st := by
  unfold feed opened heard
  dsimp only
  generalize (if t.epoch.all fun e => newer st.armEpoch e then { epoch := some st.armEpoch } else t : AppliedTracker) = u
  rw [← take_eq u]

theorem heard_opened : (opened st.armEpoch).heard st = (opened st.armEpoch).take st := by
  unfold heard
  have hlast : (opened st.armEpoch).last = none := rfl
  rw [hlast, Option.any_none, if_neg Bool.false_ne_true]

theorem feed_fresh (h : (t.epoch.all fun e => newer st.armEpoch e) = true) : t.feed st = (opened st.armEpoch).take st := by
  rw [feed_eq, h, Bool.not_true, Bool.false_and, if_neg Bool.false_ne_true, if_pos (by rfl), heard_opened]

theorem fresh_of_epoch (h : t.epoch = some e) : (t.epoch.all fun e => newer st.armEpoch e) = newer st.armEpoch e := by
  rw [h, Option.all_some]

theorem feed_other (h : t.epoch = some e) (hold : newer st.armEpoch e = false) (hne : st.armEpoch ≠ e) : t.feed st = t := by
  have hother : (t.epoch != some st.armEpoch) = true := by
    rw [h]
    exact bne_iff_ne.mpr fun heq => hne (Option.some.inj heq).symm
  rw [feed_eq, fresh_of_epoch h, hold, hother, Bool.not_false, Bool.true_and, if_pos (by rfl)]

/-- a packet of the tracker's own epoch -/
theorem feed_own (h : t.epoch = some st.armEpoch) (hold : newer st.armEpoch st.armEpoch = false) : t.feed st = t.heard st := by
  have hown : (t.epoch != some st.armEpoch) = false := by
    rw [h]
    exact bne_self_eq_false _
  rw [feed_eq, fresh_of_epoch h, hold, hown, Bool.and_false, if_neg Bool.false_ne_true, if_neg Bool.false_ne_true]

theorem feed_late {l : ℕ} (h : t.epoch = some e) (hold : newer st.armEpoch e = false) (hl : t.last = some l)
    (hlate : newer st.stateSeq l = false) : t.feed st = t := by
  by_cases hsame : st.armEpoch = e
  · subst hsame
    rw [feed_own h hold, heard, hl, Option.any_some, hlate, Bool.not_false, if_pos (by rfl)]
  · exact feed_other h hold hsame

theorem feed_next {l : ℕ} (h : t.epoch = some st.armEpoch) (hold : newer st.armEpoch st.armEpoch = false) (hl : t.last = some l)
    (hnext : newer st.stateSeq l = true) : t.feed st = t.take st := by
  rw [feed_own h hold, heard, hl, Option.any_some, hnext, Bool.not_true, if_neg Bool.false_ne_true]

theorem newer_self (a : ℕ) : newer a a = false := by
  unfold newer
  have hzero : (a + 2 ^ 32 - a % 2 ^ 32) % 2 ^ 32 = 0 := by omega
  rw [hzero]
  exact Bool.and_eq_false_iff.mpr (.inl (decide_eq_false (Nat.lt_irrefl 0)))

/-! ## evidence -/

/-- in `seg` nothing closes the epoch: no DISARM was sent, and no FAULTED or disarmed packet of it is newer than those
before it -/
def Quiet (e : ℕ) (seg : List Input) : Prop :=
  ∀ as i bs, seg = as ++ i :: bs → i ≠ .disarmSent ∧ ∀ st, i = .feed st → st.armEpoch = e → Healthy st ∨
    ∃ w, .feed w ∈ as ∧ w.armEpoch = e ∧ newer st.stateSeq w.stateSeq = false

theorem quiet_nil : Quiet e [] := fun as _ _ h => absurd h.symm (by simp)

theorem Quiet.snoc {seg : List Input} (h : Quiet e seg) {i : Input} (hi : i ≠ .disarmSent)
    (hst : ∀ st, i = .feed st → st.armEpoch = e → Healthy st ∨ ∃ w, .feed w ∈ seg ∧ w.armEpoch = e ∧ newer st.stateSeq w.stateSeq = false) :
    Quiet e (seg ++ [i]) := by
  intro as j bs hsplit
  rcases List.eq_nil_or_concat bs with rfl | ⟨bs, k, rfl⟩
  · obtain ⟨rfl, hj⟩ := List.append_inj' hsplit rfl
    obtain rfl := List.singleton_inj.mp hj
    exact ⟨hi, hst⟩
  · have hsplit' : seg ++ [i] = (as ++ j :: bs) ++ [k] := by
      rw [hsplit, List.concat_eq_append, List.append_assoc]
      rfl
    exact h as j bs (List.append_inj' hsplit' rfl).1

/-- the packets of `e` begin with `seg` -/
structure Begins (e : ℕ) (ins seg : List Input) : Prop where
  split : ∃ pre, ins = pre ++ seg ∧ ∀ st, .feed st ∈ pre → st.armEpoch ≠ e
  first : ∃ st rest, seg = .feed st :: rest ∧ st.armEpoch = e

/-- a healthy packet of `e` with this number, and later a newer healthy one; the epoch was open up to there -/
def Accepted (ins : List Input) (e seq : ℕ) : Prop :=
  ∃ before seg y rest, ins = before ++ .feed y :: rest ∧ Begins e before seg ∧ Quiet e (seg ++ [.feed y]) ∧
    Healthy y ∧ y.armEpoch = e ∧
    ∃ x, .feed x ∈ seg ∧ Healthy x ∧ x.armEpoch = e ∧ x.lastCmdSeq = seq ∧ newer y.stateSeq x.stateSeq = true

theorem Accepted.append {seq : ℕ} (h : Accepted ins e seq) (more : List Input) : Accepted (ins ++ more) e seq := by
  obtain ⟨before, seg, y, rest, rfl, hrest⟩ := h
  exact ⟨before, seg, y, rest ++ more, by rw [List.append_assoc]; rfl, hrest⟩

/-- what the tracker's fields are about -/
structure Inv (b : ℕ) (c : ℕ → ℕ) (ins : List Input) (t : AppliedTracker) : Prop where
  empty : t.epoch = none → ∀ st, .feed st ∉ ins
  epoch : ∀ e, t.epoch = some e → ∀ st, .feed st ∈ ins → place b st.armEpoch ≤ place b e
  last : ∀ e, t.epoch = some e → ∃ x, .feed x ∈ ins ∧ x.armEpoch = e ∧ t.last = some x.stateSeq ∧
    ∀ st, .feed st ∈ ins → st.armEpoch = e → place (c e) st.stateSeq ≤ place (c e) x.stateSeq
  openFrom : ∀ e, t.epoch = some e → t.closed = false → ∃ seg, Begins e ins seg ∧ Quiet e seg ∧
    ∃ x, .feed x ∈ seg ∧ Healthy x ∧ x.armEpoch = e ∧ t.candidate = some x.lastCmdSeq ∧ t.last = some x.stateSeq
  candidate : t.closed = true → t.candidate = none
  evidence : ∀ e seq, t.confirmed e = some seq → Accepted ins e seq

theorem inv_nil (b : ℕ) (c : ℕ → ℕ) : Inv b c [] {} where
  empty := fun _ _ h => absurd h List.not_mem_nil
  epoch := by
    intro e he
    cases he
  last := by
    intro e he
    cases he
  openFrom := by
    intro e he
    cases he
  candidate := by
    intro h
    cases h
  evidence := by
    intro e seq h
    cases h

variable {b : ℕ} {c : ℕ → ℕ}

theorem mem_snoc {i j : Input} (h : i ∈ ins ++ [j]) : i ∈ ins ∨ i = j := by
  rcases List.mem_append.mp h with h | h
  · exact .inl h
  · exact .inr (List.mem_singleton.mp h)

theorem Begins.snoc {seg : List Input} (h : Begins e ins seg) (i : Input) : Begins e (ins ++ [i]) (seg ++ [i]) := by
  obtain ⟨⟨pre, rfl, hpre⟩, st, rest, rfl, hst⟩ := h
  exact ⟨⟨pre, List.append_assoc _ _ _, hpre⟩, st, rest ++ [i], rfl, hst⟩

theorem confirmed_eq (h : t.epoch = some e) : t.confirmed e = t.confirmed_ := if_pos h

theorem epoch_of_confirmed {seq : ℕ} (h : t.confirmed e = some seq) : t.epoch = some e := by
  unfold confirmed at h
  split_ifs at h with he
  exact he

/-- the first packet of a newer epoch -/
theorem Inv.fresh (hall : ∀ w, .feed w ∈ ins → place b w.armEpoch < place b st.armEpoch) :
    Inv b c (ins ++ [.feed st]) ((opened st.armEpoch).take st) := by
  have hepoch : ((opened st.armEpoch).take st).epoch = some st.armEpoch := by
    unfold take
    split_ifs <;> rfl
  have hlast : ((opened st.armEpoch).take st).last = some st.stateSeq := by
    unfold take
    split_ifs <;> rfl
  have hother : ∀ w, .feed w ∈ ins → w.armEpoch ≠ st.armEpoch := fun w hw he => by
    have hlt := hall w hw
    rw [he] at hlt
    exact absurd hlt (Nat.lt_irrefl _)
  refine ⟨fun hnone => ?_, fun e he w hw => ?_, fun e he => ?_, fun e he hopen => ?_, fun hclosed => ?_, fun e seq hc => ?_⟩
  · rw [hepoch] at hnone
    cases hnone
  · obtain rfl := Option.some.inj (hepoch.symm.trans he)
    rcases mem_snoc hw with hw | hw
    · exact (hall w hw).le
    · cases hw
      exact le_rfl
  · obtain rfl := Option.some.inj (hepoch.symm.trans he)
    refine ⟨st, List.mem_append_right _ (List.mem_singleton_self _), rfl, hlast, fun w hw hwe => ?_⟩
    rcases mem_snoc hw with hw | hw
    · exact absurd hwe (hother w hw)
    · cases hw
      exact le_rfl
  · obtain rfl := Option.some.inj (hepoch.symm.trans he)
    unfold take at hopen hlast ⊢
    rw [if_neg (by exact Bool.false_ne_true)] at hopen hlast ⊢
    by_cases hhealthy : Healthy st
    · rw [if_pos hhealthy] at hlast ⊢
      refine ⟨[.feed st], ⟨⟨ins, rfl, hother⟩, st, [], rfl, rfl⟩, ?_, st, List.mem_singleton_self _, hhealthy, rfl, rfl, rfl⟩
      exact quiet_nil.snoc (by exact nofun) fun w hw _ => by cases hw; exact .inl hhealthy
    · rw [if_neg hhealthy] at hopen
      cases hopen
  · unfold take at hclosed ⊢
    rw [if_neg (by exact Bool.false_ne_true)] at hclosed ⊢
    by_cases hhealthy : Healthy st
    · rw [if_pos hhealthy] at hclosed
      cases hclosed
    · rw [if_neg hhealthy]
  · have hnone : ((opened st.armEpoch).take st).confirmed_ = none := by
      unfold take
      split_ifs <;> rfl
    rw [confirmed_eq (epoch_of_confirmed hc), hnone] at hc
    cases hc

/-- a packet that changes nothing -/
theorem Inv.stale (h : Inv b c ins t) (he : t.epoch = some e) (hle : place b st.armEpoch ≤ place b e)
    (hlate : st.armEpoch = e → ∀ x, t.last = some x → newer st.stateSeq x = false ∧ place (c e) st.stateSeq ≤ place (c e) x) :
    Inv b c (ins ++ [.feed st]) t := by
  refine ⟨fun hnone => ?_, fun e' he' w hw => ?_, fun e' he' => ?_, fun e' he' hopen => ?_, h.candidate,
    fun e' seq hc => (h.evidence e' seq hc).append _⟩
  · rw [he] at hnone
    cases hnone
  · obtain rfl := Option.some.inj (he.symm.trans he')
    rcases mem_snoc hw with hw | hw
    · exact h.epoch _ he w hw
    · cases hw
      exact hle
  · obtain rfl := Option.some.inj (he.symm.trans he')
    obtain ⟨x, hx, hxe, hlast, hmax⟩ := h.last _ he
    refine ⟨x, List.mem_append_left _ hx, hxe, hlast, fun w hw hwe => ?_⟩
    rcases mem_snoc hw with hw | hw
    · exact hmax w hw hwe
    · cases hw
      exact (hlate hwe _ hlast).2
  · obtain rfl := Option.some.inj (he.symm.trans he')
    obtain ⟨seg, hbegins, hquiet, x, hx, hhealthy, hxe, hcand, hlast⟩ := h.openFrom _ he hopen
    refine ⟨seg ++ [.feed st], hbegins.snoc _, hquiet.snoc (by exact nofun) fun w hw hwe => ?_, x, List.mem_append_left _ hx,
      hhealthy, hxe, hcand, hlast⟩
    cases hw
    exact .inr ⟨x, hx, hxe, (hlate hwe _ hlast).1⟩

/-- a newer packet of the epoch -/
theorem Inv.next (h : Inv b c ins t) (he : t.epoch = some st.armEpoch)
    (hnext : ∀ x, t.last = some x → newer st.stateSeq x = true ∧ place (c st.armEpoch) x < place (c st.armEpoch) st.stateSeq) :
    Inv b c (ins ++ [.feed st]) (t.take st) := by
  have hepoch : (t.take st).epoch = some st.armEpoch := by
    unfold take
    split_ifs <;> exact he
  have hlast : (t.take st).last = some st.stateSeq := by
    unfold take
    split_ifs <;> rfl
  refine ⟨fun hnone => ?_, fun e he' w hw => ?_, fun e he' => ?_, fun e he' hopen => ?_, fun hclosed => ?_, fun e seq hc => ?_⟩
  · rw [hepoch] at hnone
    cases hnone
  · obtain rfl := Option.some.inj (hepoch.symm.trans he')
    rcases mem_snoc hw with hw | hw
    · exact h.epoch _ he w hw
    · cases hw
      exact le_rfl
  · obtain rfl := Option.some.inj (hepoch.symm.trans he')
    obtain ⟨x, -, -, hx, hmax⟩ := h.last _ he
    refine ⟨st, List.mem_append_right _ (List.mem_singleton_self _), rfl, hlast, fun w hw hwe => ?_⟩
    rcases mem_snoc hw with hw | hw
    · exact (hmax w hw hwe).trans (hnext _ hx).2.le
    · cases hw
      exact le_rfl
  · obtain rfl := Option.some.inj (hepoch.symm.trans he')
    have hwas : t.closed = false := by
      by_contra hclosed
      unfold take at hopen
      rw [if_pos (Bool.eq_true_of_not_eq_false hclosed)] at hopen
      exact hclosed hopen
    have hhealthy : Healthy st := by
      by_contra hsick
      unfold take at hopen
      rw [if_neg (by rw [hwas]; exact Bool.false_ne_true), if_neg hsick] at hopen
      cases hopen
    obtain ⟨seg, hbegins, hquiet, -⟩ := h.openFrom _ he hwas
    refine ⟨seg ++ [.feed st], hbegins.snoc _, hquiet.snoc (by exact nofun) fun w hw _ => by cases hw; exact .inl hhealthy, st,
      List.mem_append_right _ (List.mem_singleton_self _), hhealthy, rfl, ?_, hlast⟩
    unfold take
    rw [if_neg (by rw [hwas]; exact Bool.false_ne_true), if_pos hhealthy]
  · unfold take at hclosed ⊢
    by_cases hwas : t.closed = true
    · rw [if_pos hwas]
      exact h.candidate hwas
    rw [if_neg hwas] at hclosed ⊢
    by_cases hhealthy : Healthy st
    · rw [if_pos hhealthy] at hclosed
      exact absurd hclosed hwas
    · rw [if_neg hhealthy]
  · obtain rfl := Option.some.inj (hepoch.symm.trans (epoch_of_confirmed hc))
    rw [confirmed_eq hepoch] at hc
    have hold : ∀ seq, t.confirmed_ = some seq → Accepted (ins ++ [.feed st]) st.armEpoch seq := fun seq hseq =>
      (h.evidence _ seq ((confirmed_eq he).trans hseq)).append _
    unfold take at hc
    by_cases hwas : t.closed = true
    · rw [if_pos hwas] at hc
      exact hold seq hc
    rw [if_neg hwas] at hc
    by_cases hhealthy : Healthy st
    · rw [if_pos hhealthy] at hc
      obtain ⟨seg, hbegins, hquiet, x, hx, hxh, hxe, hcand, hxl⟩ := h.openFrom _ he (Bool.eq_false_iff.mpr hwas)
      rw [hcand] at hc
      cases hc
      exact ⟨ins, seg, st, [], rfl, hbegins, hquiet.snoc (by exact nofun) fun w hw _ => by cases hw; exact .inl hhealthy, hhealthy, rfl,
        x, hx, hxh, hxe, rfl, (hnext _ hxl).1⟩
    · rw [if_neg hhealthy] at hc
      exact hold seq hc

theorem Inv.disarm (h : Inv b c ins t) : Inv b c (ins ++ [.disarmSent]) t.disarmSent := by
  have hmem : ∀ st, .feed st ∈ ins ++ [.disarmSent] → .feed st ∈ ins := fun st hst => (mem_snoc hst).resolve_right (by exact nofun)
  refine ⟨fun hnone st hst => h.empty hnone st (hmem st hst), fun e he st hst => h.epoch e he st (hmem st hst), fun e he => ?_,
    fun e _ hopen => ?_, fun _ => rfl, fun e seq hc => ?_⟩
  · obtain ⟨x, hx, hxe, hlast, hmax⟩ := h.last e he
    exact ⟨x, List.mem_append_left _ hx, hxe, hlast, fun st hst => hmax st (hmem st hst)⟩
  · cases hopen
  · exact (h.evidence e seq hc).append _

/-- how a packet stands to those before it -/
inductive Standing (b : ℕ) (c : ℕ → ℕ) (ins : List Input) (t : AppliedTracker) (st : RtState) : Prop where
  | fresh (hall : ∀ w, .feed w ∈ ins → place b w.armEpoch < place b st.armEpoch)
    (hfeed : t.feed st = (opened st.armEpoch).take st)
  | stale (e : ℕ) (he : t.epoch = some e) (hle : place b st.armEpoch ≤ place b e)
    (hlate : st.armEpoch = e → ∀ x, t.last = some x → newer st.stateSeq x = false ∧ place (c e) st.stateSeq ≤ place (c e) x)
    (hfeed : t.feed st = t)
  | next (he : t.epoch = some st.armEpoch)
    (hnext : ∀ x, t.last = some x → newer st.stateSeq x = true ∧ place (c st.armEpoch) x < place (c st.armEpoch) st.stateSeq)
    (hfeed : t.feed st = t.take st)

theorem Inv.standing (h : Inv b c ins t) (hw : Windows b c (ins ++ [.feed st])) : Standing b c ins t st := by
  have hst : Input.feed st ∈ ins ++ [.feed st] := List.mem_append_right _ (List.mem_singleton_self _)
  cases he : t.epoch with
  | none =>
    exact .fresh (fun w hwm => absurd hwm (h.empty he w)) (feed_fresh (by rw [he, Option.all_none]))
  | some e =>
    obtain ⟨x, hx, hxe, hlast, hmax⟩ := h.last e he
    have hxin := hw.epochs x (List.mem_append_left _ hx)
    rw [hxe] at hxin
    cases hnew : newer st.armEpoch e with
    | true =>
      refine .fresh (fun w hwm => (h.epoch e he w hwm).trans_lt ?_) (feed_fresh ((fresh_of_epoch he).trans hnew))
      exact (newer_iff (hw.epochs st hst) hxin).mp hnew
    | false =>
      have hle : place b st.armEpoch ≤ place b e :=
        not_lt.mp fun hlt => Bool.false_ne_true (hnew.symm.trans ((newer_iff (hw.epochs st hst) hxin).mpr hlt))
      by_cases hsame : st.armEpoch = e
      · subst hsame
        have hseq := hw.seqs st hst
        have hxseq := hw.seqs x (List.mem_append_left _ hx)
        rw [hxe] at hxseq
        cases hnext : newer st.stateSeq x.stateSeq with
        | true =>
          refine .next he (fun y hy => ?_) (feed_next he hnew hlast hnext)
          obtain rfl := Option.some.inj (hlast.symm.trans hy)
          exact ⟨hnext, (newer_iff hseq hxseq).mp hnext⟩
        | false =>
          refine .stale _ he hle (fun _ y hy => ?_) (feed_late he hnew hlast hnext)
          obtain rfl := Option.some.inj (hlast.symm.trans hy)
          exact ⟨hnext, not_lt.mp fun hlt => Bool.false_ne_true (hnext.symm.trans ((newer_iff hseq hxseq).mpr hlt))⟩
      · exact .stale e he hle (fun heq => absurd heq hsame) (feed_other he hnew hsame)

theorem Inv.step (h : Inv b c ins t) {i : Input} (hw : Windows b c (ins ++ [i])) : Inv b c (ins ++ [i]) (t.step i) := by
  cases i with
  | disarmSent => exact h.disarm
  | feed st =>
    show Inv b c _ (t.feed st)
    cases h.standing hw with
    | fresh hall hfeed => exact hfeed ▸ Inv.fresh hall
    | stale e he hle hlate hfeed => exact hfeed.symm ▸ h.stale he hle hlate
    | next he hnext hfeed => exact hfeed ▸ h.next he hnext

theorem track_inv (ins : List Input) : Windows b c ins → Inv b c ins (track ins) := by
  induction ins using List.reverseRecOn with
  | nil => exact fun _ => inv_nil b c
  | append_singleton ins i ih =>
    intro hw
    rw [track_snoc]
    exact (ih (Windows.sub hw fun _ => List.mem_append_left _)).step hw

/-- what is confirmed is so by evidence -/
theorem evidence_of_confirmed (hp : Paced ins) {seq : ℕ} (h : (track ins).confirmed e = some seq) : Accepted ins e seq := by
  obtain ⟨b, c, hw⟩ := hp
  exact (track_inv ins hw).evidence e seq h

/-! ## what changes nothing -/

/-- fed before, or older than one that was: of an older epoch, or of the same one with an older number -/
def Old (ins : List Input) (st : RtState) : Prop :=
  .feed st ∈ ins ∨ ∃ w, .feed w ∈ ins ∧ (newer w.armEpoch st.armEpoch = true ∨
    w.armEpoch = st.armEpoch ∧ newer w.stateSeq st.stateSeq = true)

theorem feed_old (hp : Paced (ins ++ [.feed st])) (hold : Old ins st) : (track ins).feed st = track ins := by
  obtain ⟨b, c, hw⟩ := hp
  have hinv := track_inv ins (Windows.sub hw fun _ => List.mem_append_left _)
  have hst : Input.feed st ∈ ins ++ [.feed st] := List.mem_append_right _ (List.mem_singleton_self _)
  -- some packet fed before is at least as new
  have hbefore : ∃ w, .feed w ∈ ins ∧ (place b st.armEpoch < place b w.armEpoch ∨
      w.armEpoch = st.armEpoch ∧ place (c st.armEpoch) st.stateSeq ≤ place (c st.armEpoch) w.stateSeq) := by
    rcases hold with hold | ⟨w, hwm, hnew | ⟨hsame, hnew⟩⟩
    · exact ⟨st, hold, .inr ⟨rfl, le_rfl⟩⟩
    · exact ⟨w, hwm, .inl ((newer_iff (hw.epochs w (List.mem_append_left _ hwm)) (hw.epochs st hst)).mp hnew)⟩
    · have hwseq := hw.seqs w (List.mem_append_left _ hwm)
      rw [hsame] at hwseq
      exact ⟨w, hwm, .inr ⟨hsame, ((newer_iff hwseq (hw.seqs st hst)).mp hnew).le⟩⟩
  obtain ⟨w, hwm, hle⟩ := hbefore
  cases hinv.standing hw with
  | fresh hall hfeed =>
    have hlt := hall w hwm
    rcases hle with hle | ⟨hsame, -⟩
    · exact absurd (hlt.trans hle) (lt_irrefl _)
    · rw [hsame] at hlt
      exact absurd hlt (lt_irrefl _)
  | stale e he hle hlate hfeed => exact hfeed
  | next he hnext hfeed =>
    obtain ⟨x, -, -, hlast, hmax⟩ := hinv.last _ he
    obtain ⟨-, hlt⟩ := hnext _ hlast
    rcases hle with hle | ⟨hsame, hle⟩
    · exact absurd (hle.trans_le (hinv.epoch _ he w hwm)) (lt_irrefl _)
    · exact absurd ((hle.trans (hmax w hwm hsame)).trans_lt hlt) (lt_irrefl _)

/-! ## a closed epoch -/

/-- a closed epoch is over: its confirmation stands, until a newer epoch is the tracker's -/
theorem closed_stands (more : List Input) (he : (track ins).epoch = some e) (hclosed : (track ins).closed = true) :
    Windows b c (ins ++ more) →
      ((track (ins ++ more)).epoch = some e ∧ (track (ins ++ more)).closed = true ∧
          (track (ins ++ more)).confirmed_ = (track ins).confirmed_) ∨
        (∃ e', (track (ins ++ more)).epoch = some e' ∧ place b e < place b e') ∧
          ∃ st, .feed st ∈ more ∧ place b e < place b st.armEpoch := by
  induction more using List.reverseRecOn with
  | nil =>
    intro _
    rw [List.append_nil]
    exact .inl ⟨he, hclosed, rfl⟩
  | append_singleton more i ih =>
    rw [← List.append_assoc]
    intro hw
    have hw' : Windows b c (ins ++ more) := Windows.sub hw fun _ => List.mem_append_left _
    have hinv := track_inv (ins ++ more) hw'
    have hmore : ∀ st, Input.feed st ∈ more → Input.feed st ∈ more ++ [i] := fun st hst => List.mem_append_left _ hst
    have hstep := ih hw'
    rw [track_snoc]
    generalize track (ins ++ more) = t at *
    rcases hstep with ⟨hte, htc, htconf⟩ | ⟨⟨e', hte, hlt⟩, st', hst', hlt'⟩
    · cases i with
      | disarmSent => exact .inl ⟨hte, rfl, htconf⟩
      | feed st =>
        have hstep : t.step (.feed st) = t.feed st := rfl
        rw [hstep]
        cases hinv.standing hw with
        | fresh hall hfeed =>
          obtain ⟨x, hx, rfl, -⟩ := hinv.last e hte
          refine .inr ⟨⟨st.armEpoch, ?_, hall x hx⟩, st, List.mem_append_right _ (List.mem_singleton_self _), hall x hx⟩
          show (t.feed st).epoch = _
          rw [hfeed]
          unfold take
          split_ifs <;> rfl
        | stale _ _ _ _ hfeed =>
          rw [hfeed]
          exact .inl ⟨hte, htc, htconf⟩
        | next _ _ hfeed =>
          rw [hfeed]
          unfold take
          rw [if_pos htc]
          exact .inl ⟨hte, htc, htconf⟩
    · refine .inr ⟨?_, st', hmore st' hst', hlt'⟩
      cases i with
      | disarmSent => exact ⟨e', hte, hlt⟩
      | feed st =>
        show ∃ e', (t.feed st).epoch = some e' ∧ _
        cases hinv.standing hw with
        | fresh hall hfeed =>
          obtain ⟨x, hx, rfl, -⟩ := hinv.last e' hte
          refine ⟨st.armEpoch, ?_, hlt.trans (hall x hx)⟩
          rw [hfeed]
          unfold take
          split_ifs <;> rfl
        | stale _ _ _ _ hfeed =>
          rw [hfeed]
          exact ⟨e', hte, hlt⟩
        | next he' _ hfeed =>
          refine ⟨e', ?_, hlt⟩
          rw [hfeed]
          unfold take
          split_ifs <;> exact hte

theorem confirmed_closed {more : List Input} (hp : Paced (ins ++ more)) (he : (track ins).epoch = some e)
    (hclosed : (track ins).closed = true) :
    (track (ins ++ more)).confirmed e = (track ins).confirmed e ∨
      (track (ins ++ more)).confirmed e = none ∧ ∃ st, .feed st ∈ more ∧ newer st.armEpoch e = true := by
  obtain ⟨b, c, hw⟩ := hp
  rcases closed_stands more he hclosed hw with ⟨he', -, hconf⟩ | ⟨⟨e', he', hlt⟩, st, hst, hlt'⟩
  · left
    rw [confirmed_eq he', confirmed_eq he, hconf]
  · refine .inr ⟨?_, st, hst, ?_⟩
    · unfold confirmed
      rw [he', if_neg fun h => absurd (Option.some.inj h ▸ hlt) (lt_irrefl _)]
    · obtain ⟨x, hx, rfl, -⟩ := (track_inv ins (Windows.sub hw fun _ => List.mem_append_left _)).last e he
      exact (newer_iff (hw.epochs st (List.mem_append_right _ hst)) (hw.epochs x (List.mem_append_left _ hx))).mpr hlt'

end AppliedTracker

/-! ## the runtime's rule -/

/-- the frozen APPLIED rule, for one execution -/
def appliedRule (e : ExecutionId) : Act Unit := do
  let s ← get
  match s.executions e with
  | none => pure ()
  | some ex =>
    if ex.firstSeq.isSome ∧ ex.live ∧ s.tracker.faultSeen ex.epoch then
      receipt e .faulted "RT fault latched in this ARM generation" []
    else if ex.phase = .sent then
      match s.tracker.confirmed ex.epoch, ex.firstSeq with
      | none, _ => pure ()
      | some _, none => throw (.value "unsupported operand type(s) for -: 'int' and 'NoneType'")
      | some confirmed, some first =>
        if epochReached confirmed first then
          receipt e .applied "" [.commandSeq confirmed, .armEpoch ex.epoch]
        else pure ()
    else pure ()

/-- over all executions, oldest first -/
def appliedRules : Act Unit := do
  let s ← get
  Effect.each s.known appliedRule

section
open AppliedTracker

/-- the servo's packets: the number of a command of the epoch that it had selected, or the one it had at ARM -/
def Served (ins : List Input) (atArm : ℕ → ℕ) (selected : ℕ → Set ℕ) : Prop :=
  ∀ st, .feed st ∈ ins → st.lastCmdSeq = atArm st.armEpoch ∨ st.lastCmdSeq ∈ selected st.armEpoch

/-- the client numbers an epoch's commands above the server's number at ARM -/
def Numbered (s : RobotRuntime) (atArm : ℕ → ℕ) : Prop :=
  ∀ e ex first, s.executions e = some ex → ex.firstSeq = some first → newer first (atArm ex.epoch) = true

/-- the servo selected a command of the execution's epoch numbered at or after its first, and the epoch was healthy after -/
def Grounded (ins : List Input) (selected : ℕ → Set ℕ) (s : RobotRuntime) (r : Receipt) : Prop :=
  ∃ e ex first seq, s.executions e = some ex ∧ r.executionId = ex.status.executionId ∧ ex.firstSeq = some first ∧
    seq ∈ selected ex.epoch ∧ epochReached seq first = true ∧ Accepted ins ex.epoch seq

/-- what a receipt leaves of the runtime -/
structure Frame (s t : RobotRuntime) : Prop where
  tracker : t.tracker = s.tracker
  executions : ∀ e ex', t.executions e = some ex' → ∃ ex, s.executions e = some ex ∧ ex'.status.executionId = ex.status.executionId ∧
    ex'.firstSeq = ex.firstSeq ∧ ex'.epoch = ex.epoch

variable {s t u : RobotRuntime} {ins : List Input}

theorem Frame.refl (s : RobotRuntime) : Frame s s := ⟨rfl, fun _ ex h => ⟨ex, h, rfl, rfl, rfl⟩⟩

theorem Frame.trans (h₁ : Frame s t) (h₂ : Frame t u) : Frame s u := by
  refine ⟨h₂.tracker.trans h₁.tracker, fun e ex' he => ?_⟩
  obtain ⟨ex, hex, hid, hfirst, hepoch⟩ := h₂.executions e ex' he
  obtain ⟨ex₀, hex₀, hid₀, hfirst₀, hepoch₀⟩ := h₁.executions e ex hex
  exact ⟨ex₀, hex₀, hid.trans hid₀, hfirst.trans hfirst₀, hepoch.trans hepoch₀⟩

theorem apply_executionId {status status' : ExecutionStatus} {r : Receipt} (h : status.apply r = .ok status') :
    status'.executionId = status.executionId := by
  obtain ⟨-, ⟨-, rfl⟩ | ⟨-, -, rfl⟩⟩ := ExecutionStatus.apply_ok h <;> rfl

theorem write_ok {e : ExecutionId} {phase : Phase} {reason : String} {evidence : List Evidence} {at_ : ℕ}
    (h : s.write e phase reason evidence at_ = .ok t) :
    Frame s t ∧ (t.log = s.log ∨ ∃ ex r, s.executions e = some ex ∧ t.log = s.log ++ [.receipt r] ∧ r.phase = phase ∧
      r.executionId = ex.status.executionId) := by
  unfold RobotRuntime.write at h
  cases hex : s.executions e with
  | none =>
    rw [hex] at h
    cases h
    exact ⟨Frame.refl s, .inl rfl⟩
  | some ex =>
    rw [hex] at h
    dsimp only at h
    generalize hr : (Receipt.mk _ _ _ _ _ _ _) = r at h
    cases hcheck : r.check with
    | error err =>
      rw [hcheck] at h
      cases h
    | ok _ =>
      rw [hcheck] at h
      dsimp only at h
      cases happly : ex.status.apply r with
      | error err =>
        rw [happly] at h
        cases h
      | ok status =>
        rw [happly] at h
        cases h
        refine ⟨⟨rfl, fun e' ex' he' => ?_⟩, .inr ⟨ex, r, rfl, rfl, by rw [← hr], by rw [← hr]⟩⟩
        change Function.update s.executions e _ e' = some ex' at he'
        by_cases hsame : e' = e
        · subst hsame
          rw [Function.update_self, hex, Option.map_some] at he'
          cases he'
          exact ⟨ex, hex, apply_executionId happly, rfl, rfl⟩
        · rw [Function.update_of_ne hsame] at he'
          exact ⟨ex', he', rfl, rfl, rfl⟩

/-- every receipt written between `s` and `t` satisfies `P` -/
def Writes (P : Receipt → Prop) (s t : RobotRuntime) : Prop := ∃ new, t.log = s.log ++ new ∧ ∀ r, .receipt r ∈ new → P r

theorem Writes.same {P : Receipt → Prop} (h : t.log = s.log) : Writes P s t :=
  ⟨[], h.trans (List.append_nil _).symm, fun _ hr => absurd hr List.not_mem_nil⟩

theorem Writes.mono {P Q : Receipt → Prop} (h : Writes P s t) (hpq : ∀ r, P r → Q r) : Writes Q s t := by
  obtain ⟨new, hlog, hall⟩ := h
  exact ⟨new, hlog, fun r hr => hpq r (hall r hr)⟩

theorem Writes.trans {P : Receipt → Prop} (h₁ : Writes P s t) (h₂ : Writes P t u) : Writes P s u := by
  obtain ⟨new, hlog, hall⟩ := h₁
  obtain ⟨more, hlog', hall'⟩ := h₂
  refine ⟨new ++ more, by rw [hlog', hlog, List.append_assoc], fun r hr => ?_⟩
  rcases List.mem_append.mp hr with hr | hr
  · exact hall r hr
  · exact hall' r hr

/-- the log grows by at most the receipt -/
theorem receipt_spec (e : ExecutionId) (phase : Phase) (reason : String) (evidence : List Evidence) (s : RobotRuntime) :
    Effect.Holds (fun t => Frame s t ∧ Writes (fun r => r.phase = phase ∧
      ∃ ex, s.executions e = some ex ∧ r.executionId = ex.status.executionId) s t) (receipt e phase reason evidence) s := by
  unfold receipt Effect.Holds
  rw [Effect.ends_bind, ends_ask, Effect.ends_bind, Effect.ends_get]
  generalize (s.world s.reads).now = now
  cases hw : RobotRuntime.write { s with reads := s.reads + 1 } e phase reason evidence now with
  | ok t =>
    show Frame s t ∧ _
    obtain ⟨hframe, hlog | ⟨ex, r, hex, hlog, hphase, hid⟩⟩ := write_ok hw
    · exact ⟨⟨hframe.tracker, hframe.executions⟩, .same hlog⟩
    · refine ⟨⟨hframe.tracker, hframe.executions⟩, [.receipt r], hlog, fun r' hr' => ?_⟩
      cases List.mem_singleton.mp hr'
      exact ⟨hphase, ex, hex, hid⟩
  | error err =>
    show Effect.Ends _ _ (note (.illegal e phase err) >>= fun _ => throw (.ledger err)) _
    unfold note
    rw [Effect.ends_bind, Effect.ends_modify]
    refine ⟨⟨rfl, fun _ ex h => ⟨ex, h, rfl, rfl, rfl⟩⟩, [.illegal e phase err], rfl, fun r' hr' => ?_⟩
    cases List.mem_singleton.mp hr'

variable {atArm : ℕ → ℕ} {selected : ℕ → Set ℕ}

theorem selected_of_reached (hp : Paced ins) (hserved : Served ins atArm selected) {epoch seq first : ℕ}
    (hnew : newer first (atArm epoch) = true) (hreached : epochReached seq first = true)
    (hevidence : AppliedTracker.Accepted ins epoch seq) : seq ∈ selected epoch := by
  obtain ⟨before, seg, y, rest, rfl, hbegins, -, -, -, x, hx, -, rfl, rfl, -⟩ := hevidence
  obtain ⟨pre, rfl, -⟩ := hbegins.split
  have hfed : Input.feed x ∈ pre ++ seg ++ .feed y :: rest := List.mem_append_left _ (List.mem_append_right _ hx)
  refine (hserved x hfed).resolve_left fun hstale => ?_
  rw [hstale] at hreached
  unfold newer at hnew
  unfold epochReached at hreached
  simp only [Bool.and_eq_true, decide_eq_true_eq] at hnew hreached
  omega

/-- a receipt of the rules -/
def Fair (ins : List Input) (selected : ℕ → Set ℕ) (s : RobotRuntime) (r : Receipt) : Prop :=
  r.phase = .applied → Grounded ins selected s r

/-- one execution's rule: an APPLIED receipt is grounded -/
theorem appliedRule_grounded (hp : Paced ins) (hserved : Served ins atArm selected) (hnum : Numbered s atArm)
    (htrack : s.tracker = track ins) (hframe : Frame s t) (e : ExecutionId) :
    Effect.Holds (fun u => Frame s u ∧ Writes (Fair ins selected s) t u) (appliedRule e) t := by
  have hsame : Frame s t ∧ Writes (Fair ins selected s) t t := ⟨hframe, .same rfl⟩
  have hreceipt : ∀ {phase reason evidence}, (∀ r, r.phase = phase ∧ (∃ ex, t.executions e = some ex ∧
        r.executionId = ex.status.executionId) → Fair ins selected s r) →
      Effect.Holds (fun u => Frame s u ∧ Writes (Fair ins selected s) t u) (receipt e phase reason evidence) t := fun hfair =>
    (receipt_spec e _ _ _ t).mono (fun _ u hu => ⟨hframe.trans hu.1, hu.2.mono hfair⟩) fun _ u hu =>
      ⟨hframe.trans hu.1, hu.2.mono hfair⟩
  unfold appliedRule Effect.Holds
  rw [Effect.ends_bind, Effect.ends_get]
  cases hex : t.executions e with
  | none => exact hsame
  | some ex =>
    refine Effect.ends_ite (fun _ => hreceipt fun r hr happlied => ?_) fun _ => Effect.ends_ite (fun _ => ?_) fun _ => hsame
    · rw [hr.1] at happlied
      cases happlied
    · cases hconf : t.tracker.confirmed ex.epoch with
      | none => exact hsame
      | some seq =>
        cases hfirst : ex.firstSeq with
        | none => exact hsame
        | some first =>
          refine Effect.ends_ite (fun hreached => hreceipt fun r hr _ => ?_) fun _ => hsame
          obtain ⟨-, ex', hex', hid⟩ := hr
          obtain rfl := Option.some.inj (hex.symm.trans hex')
          obtain ⟨ex₀, hex₀, hid₀, hfirst₀, hepoch₀⟩ := hframe.executions e ex hex
          rw [hepoch₀, hframe.tracker, htrack] at hconf
          have hevidence : AppliedTracker.Accepted ins ex₀.epoch seq := evidence_of_confirmed hp hconf
          have hnew := hnum e ex₀ first hex₀ (hfirst₀.symm.trans hfirst)
          exact ⟨e, ex₀, first, seq, hex₀, hid.trans hid₀, hfirst₀.symm.trans hfirst,
            selected_of_reached hp hserved hnew hreached hevidence, hreached, hevidence⟩

/-- what the rules write as APPLIED is grounded -/
theorem appliedRules_grounded (hp : Paced ins) (hserved : Served ins atArm selected) (hnum : Numbered s atArm)
    (htrack : s.tracker = track ins) : Effect.Holds (Writes (Fair ins selected s) s) appliedRules s := by
  unfold appliedRules Effect.Holds
  rw [Effect.ends_bind, Effect.ends_get]
  have hloop : Effect.Holds (fun u => Frame s u ∧ Writes (Fair ins selected s) s u) (Effect.each s.known appliedRule) s := by
    refine Effect.Ends.each ⟨Frame.refl s, .same rfl⟩ fun e _ t ht => ?_
    exact (appliedRule_grounded hp hserved hnum htrack ht.1 e).mono (fun _ u hu => ⟨hu.1, ht.2.trans hu.2⟩) fun _ u hu =>
      ⟨hu.1, ht.2.trans hu.2⟩
  exact hloop.mono (fun _ _ hu => hu.2) fun _ _ hu => hu.2

/-- **APPLIED is acceptance evidence**: what is confirmed was said by a healthy packet of its epoch and by a newer one after it, with
nothing between the epoch's first packet and that one that closes the epoch; what was fed before or is older changes nothing; the
confirmation of a closed epoch stands while the epoch is the tracker's, and is withdrawn by a newer epoch; and an execution is APPLIED only
if the servo had selected a command of its epoch numbered at or after its first. -/
theorem applied_evidence (ins : List Input) (hp : Paced ins) :
    (∀ e seq, (track ins).confirmed e = some seq → Accepted ins e seq) ∧
    (∀ before st after, ins = before ++ .feed st :: after → Old before st → (track before).feed st = track before) ∧
    (∀ before more e, ins = before ++ more → (track before).epoch = some e → (track before).closed = true →
      (track ins).confirmed e = (track before).confirmed e ∨
        (track ins).confirmed e = none ∧ ∃ st, .feed st ∈ more ∧ newer st.armEpoch e = true) ∧
    ∀ (s : RobotRuntime) (atArm : ℕ → ℕ) (selected : ℕ → Set ℕ), s.tracker = track ins → Served ins atArm selected →
      Numbered s atArm → Effect.Holds (Writes (Fair ins selected s) s) appliedRules s := by
  refine ⟨fun e seq h => evidence_of_confirmed hp h, fun before st after hsplit hold => ?_, fun before more e hsplit he hclosed => ?_,
    fun s atArm selected htrack hserved hnum => appliedRules_grounded hp hserved hnum htrack⟩
  · obtain ⟨b, c, hw⟩ := hp
    refine feed_old ⟨b, c, fun i hi => hw i ?_⟩ hold
    rw [hsplit]
    rcases mem_snoc hi with hi | rfl
    · exact List.mem_append_left _ hi
    · exact List.mem_append_right _ List.mem_cons_self
  · subst hsplit
    exact confirmed_closed hp he hclosed

/-- an armed packet -/
def armedPacket (epoch seq cmd : ℕ) : RtState := { armEpoch := epoch, stateSeq := seq, lastCmdSeq := cmd, armed := true }

/-- two armed packets, the numbers of which wrap between them -/
def wrapped : List Input := [.feed (armedPacket 5 (2 ^ 32 - 1) 7), .feed (armedPacket 5 0 8)]

theorem wrapped_within : ∀ i ∈ wrapped, i.Within 0 fun _ => 2 ^ 32 - 10 := by decide +kernel

theorem applied_evidence_wrapped : (track wrapped).confirmed 5 = some 7 ∧ Accepted wrapped 5 7 :=
  have hconfirmed : (track wrapped).confirmed 5 = some 7 := by decide +kernel
  ⟨hconfirmed, (applied_evidence wrapped ⟨0, _, wrapped_within⟩).1 5 7 hconfirmed⟩

/-- a closed epoch whose confirmation a packet of the next one withdraws -/
def succeeded : List Input := wrapped ++ [.disarmSent, .feed (armedPacket 6 1 8)]

/-- ARM epochs that go around the words -/
def around : List Input :=
  [.feed (armedPacket 0 1 1), .feed (armedPacket (2 ^ 30) 1 1), .feed (armedPacket (2 ^ 31) 1 1), .feed (armedPacket (3 * 2 ^ 30) 1 1)]

/-- the confirmation of a closed epoch is withdrawn; and when the ARM epochs go around, a packet that was fed before counts again -/
theorem confirmation_withdrawn :
    ((track (wrapped ++ [.disarmSent])).closed = true ∧ (track (wrapped ++ [.disarmSent])).confirmed 5 = some 7 ∧
        (track succeeded).confirmed 5 = none) ∧
      .feed (armedPacket 0 1 1) ∈ around ∧ (track around).feed (armedPacket 0 1 1) ≠ track around := by
  decide +kernel

end

end ArmControl.Supervisor
