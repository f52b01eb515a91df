import ArmControl.MultiArm.Coordinator

/-!
# What the log of a coordinator may say

Each entry is admitted by what came before it (`Legal`), and a pair that ends early is answered by the
cancels of both its members (`Answered`).

* `current`      the pair that the log is about, and its lifecycle;
* `Healthy`      a state that `_states` lets through;
* `Staged`       where the pair was staged, and what came since;
* `Acked`, `Succeeded`, `Failing`   what an event means for the pair;
* `Admits`       the entries that may come next.
-/

namespace ArmControl.MultiArm

def Entry.move : Entry → Option (BimanualPlan × PairLifecycle)
  | .moved plan next => some (plan, next)
  | _ => none

/-- the pair that the log is about, and its lifecycle -/
def current (log : List Entry) : Option (BimanualPlan × PairLifecycle) := (log.filterMap Entry.move).getLast?

variable {g : Group} {log A B : List Entry} {x : Entry} {plan : BimanualPlan}

theorem current_moved (log : List Entry) (plan : BimanualPlan) (l : PairLifecycle) :
    current (log ++ [Entry.moved plan l]) = some (plan, l) := by
  unfold current
  rw [List.filterMap_append]
  exact List.getLast?_concat

theorem current_concat (hx : x.move = none) : current (log ++ [x]) = current log := by
  unfold current
  rw [List.filterMap_append, List.filterMap_cons_none hx, List.filterMap_nil, List.append_nil]

/-! ## states -/

/-- measured not longer than the timeout ago, armed, ready and without a fault -/
structure Healthy (g : Group) (now : ℚ) (s : ArmControlState) : Prop where
  session : given s.sessionId = true
  fresh : ∃ t : ℚ, s.observedAt = some (.fin t) ∧ t ≤ now ∧ now - t ≤ g.stateTimeoutS
  measured : s.position ≠ none ∧ s.velocity ≠ none
  armed : s.armed = some true
  ready : s.ready = some true
  known : s.executing ≠ none
  moving : s.stopped = some false ∧ s.frozen = some false
  unfaulted : given s.faultReason = false
  joint : s.modeLaw = some "joint"

theorem fin_not_lt {a b : ℚ} (h : Value.lt (.fin a) (.fin b) = false) : b ≤ a := by
  have hlt : ¬ a < b := of_decide_eq_false h
  exact not_lt.mp hlt

theorem false_of_known {o : Option Bool} (hk : o ≠ none) (ht : o ≠ some true) : o = some false := by
  cases o with
  | none => exact absurd rfl hk
  | some b =>
    cases b with
    | false => rfl
    | true => exact absurd rfl ht

/-- a sample that is not stale is no older than the timeout -/
theorem fresh_of_not_stale {now : ℚ} {s : ArmControlState} (h : Coordinator.stale g now (s.withObservation now) = false) :
    ∃ t : ℚ, s.observedAt = some (.fin t) ∧ t ≤ now ∧ now - t ≤ g.stateTimeoutS := by
  unfold Coordinator.stale ArmControlState.withObservation at h
  cases hobs : s.observedAt with
  | none =>
    rw [hobs] at h
    cases h
  | some v =>
    simp only [hobs, Option.map_some, Bool.or_eq_false_iff, Bool.not_eq_false'] at h
    obtain ⟨⟨⟨hfin, hpast⟩, -⟩, hage⟩ := h
    obtain ⟨t, rfl⟩ := Value.isFinite_iff.mp hfin
    refine ⟨t, rfl, fin_not_lt hpast, ?_⟩
    rw [Value.fin_sub] at hage
    split_ifs at hage with hpos
    · exact fin_not_lt hage
    · have hle : now - t ≤ 0 := fin_not_lt (Bool.eq_false_of_not_eq_true hpos)
      exact hle.trans g.positive.2.le

theorem healthy_of_states {name : String} {now : ℚ} {s : ArmControlState}
    (h : Coordinator.stateRefusal g name now (s.withObservation now) = none) :
    Healthy g now (s.withObservation now) := by
  unfold Coordinator.stateRefusal at h
  split_ifs at h with hsession hstale hmeasured harmed hknown hfault
  simp only [not_or] at hmeasured harmed hknown hfault
  exact
    { session := Bool.of_not_eq_false hsession
      fresh := fresh_of_not_stale (Bool.eq_false_of_not_eq_true hstale)
      measured := hmeasured
      armed := not_not.mp harmed.1
      ready := not_not.mp harmed.2
      known := hknown.1
      moving := ⟨false_of_known hknown.2.1 hfault.1, false_of_known hknown.2.2 hfault.2.1⟩
      unfaulted := Bool.eq_false_of_not_eq_true hfault.2.2.1
      joint := not_not.mp hfault.2.2.2 }

/-! ## the pair's part of the log -/

/-- the pair was staged on `states`, and `since` came after that -/
structure Staged (plan : BimanualPlan) (states : Side → ArmControlState) (since log : List Entry) : Prop where
  split : ∃ before now, log = before ++ .checked now states :: .moved plan .staging :: since
  last : ∀ p, .moved p .staging ∉ since

/-- a positive `plan_staged` of `a` in the session recorded at staging -/
def Acked (g : Group) (plan : BimanualPlan) (states : Side → ArmControlState) (a : Side) (since : List Entry) : Prop :=
  ∃ e, .event a e ∈ since ∧ e.kind = .planStaged ∧ e.ok = true ∧ e.planId = some (g.member plan a).planId ∧
    e.session = some (states a).sessionId

/-- a `leg_result` that is ok -/
def Succeeded (g : Group) (plan : BimanualPlan) (a : Side) (since : List Entry) : Prop :=
  ∃ e, .event a e ∈ since ∧ e.kind = .legResult ∧ e.ok = true ∧ e.planId = some (g.member plan a).planId

/-- `e` fails the pair, where `before` came since the staging; a second acknowledgement is not looked at -/
inductive Failing (g : Group) (plan : BimanualPlan) (states : Side → ArmControlState) (a : Side)
    (before : List Entry) (e : Event) : Prop where
  | restarted (h : e.session.isSome ∧ e.session ≠ some (states a).sessionId)
  | fault (h : e.kind = .fault)
  | failed (hkind : e.kind = .legResult) (hplan : e.planId = some (g.member plan a).planId) (hok : e.ok = false)
  | refused (hkind : e.kind = .planStaged) (hplan : e.planId = some (g.member plan a).planId)
      (hsession : e.session = some (states a).sessionId) (hok : e.ok = false) (hfirst : ¬ Acked g plan states a before)

def Unfailed (g : Group) (plan : BimanualPlan) (states : Side → ArmControlState) (since : List Entry) : Prop :=
  ∀ before a e after, since = before ++ .event a e :: after → ¬ Failing g plan states a before e

/-- two reads of the arms: in the recorded session and model, then with the staged plan loaded and not executing -/
def Checked (g : Group) (plan : BimanualPlan) (states : Side → ArmControlState) (log : List Entry) : Prop :=
  ∃ before now₁ now₂ s₁ s₂, log = before ++ [Entry.checked now₁ s₁, .checked now₂ s₂] ∧
    ∀ a, Healthy g now₁ (s₁ a) ∧ Healthy g now₂ (s₂ a) ∧
      (s₁ a).sessionId = (states a).sessionId ∧ (s₁ a).modelToken = (states a).modelToken ∧
      (s₂ a).modelToken = (states a).modelToken ∧
      (s₂ a).runningPlanId = some (g.member plan a).planId ∧ (s₂ a).executing = some false

/-- no plan of a pair that ended has this id -/
def Live (g : Group) (planId : String) (log : List Entry) : Prop :=
  ∀ p l, .moved p l ∈ log → l.active = false → ∀ b, (g.member p b).planId ≠ planId

/-- what may come after `log` -/
def Admits (g : Group) (log : List Entry) : Entry → Prop
  | .called (.stage a p) => ∃ plan l, current log = some (plan, l) ∧ l.active = true ∧ p = g.member plan a ∧
      Live g p.planId log
  | .called (.execute a planId) => ∃ plan, current log = some (plan, .executing) ∧
      planId = (g.member plan a).planId ∧ Live g planId log
  | .called (.cancel a _ planId) => ∃ plan l, current log = some (plan, l) ∧ l.active = false ∧
      planId = (g.member plan a).planId
  | .event _ _ => True
  | .checked now states => ∀ a, Healthy g now (states a)
  | .moved plan .staging => (∀ p l, current log = some (p, l) → l.active = false) ∧
      (∀ p l, .moved p l ∈ log → p.pairId ≠ plan.pairId) ∧ ∃ before now states, log = before ++ [Entry.checked now states]
  | .moved plan .ready => current log = some (plan, .staging) ∧ ∃ states since, Staged plan states since log ∧
      ∀ a, Acked g plan states a since
  | .moved plan .executing => current log = some (plan, .ready) ∧
      (∀ p, .moved p .executing ∈ log → p.pairId ≠ plan.pairId) ∧
      ∃ states since, Staged plan states since log ∧ (∀ a, Acked g plan states a since) ∧ Checked g plan states log
  | .moved plan .complete => current log = some (plan, .executing) ∧ ∃ states since, Staged plan states since log ∧
      (∀ a, Succeeded g plan a since) ∧ Unfailed g plan states since
  | .moved _ .idle => False
  | .moved plan _ => ∃ l, current log = some (plan, l) ∧ l.active = true

def Legal (g : Group) (log : List Entry) : Prop := ∀ before x after, log = before ++ x :: after → Admits g before x

theorem Legal.concat (h : Legal g log) (hx : Admits g log x) : Legal g (log ++ [x]) := by
  intro before y after heq
  rcases List.eq_nil_or_concat' after with rfl | ⟨after', z, rfl⟩
  · obtain ⟨rfl, hxy⟩ := List.append_inj' heq rfl
    rw [← List.singleton_inj.mp hxy]
    exact hx
  · rw [← List.cons_append, ← List.append_assoc] at heq
    obtain ⟨rfl, -⟩ := List.append_inj' heq rfl
    exact h before y after' rfl

/-- an event, or a cancel of a member of the pair -/
def Answer (g : Group) (plan : BimanualPlan) : Entry → Prop
  | .called (.cancel a _ planId) => planId = (g.member plan a).planId
  | .event _ _ => True
  | _ => False

/-- both cancels come before anything else that the coordinator does -/
def Cancelled (g : Group) (plan : BimanualPlan) (after : List Entry) : Prop :=
  ∃ next rest, after = next ++ rest ∧ (∀ x ∈ next, Answer g plan x) ∧
    ∀ a, ∃ reason, .called (.cancel a reason (g.member plan a).planId) ∈ next

def Answered (g : Group) (log : List Entry) : Prop :=
  ∀ before plan l after, log = before ++ .moved plan l :: after → l.aborted = true → Cancelled g plan after

theorem Cancelled.append (h : Cancelled g plan A) (B : List Entry) : Cancelled g plan (A ++ B) := by
  obtain ⟨next, rest, rfl, hall, hboth⟩ := h
  exact ⟨next, rest ++ B, List.append_assoc _ _ _, hall, hboth⟩

/-- what is no early end leaves the log answered -/
theorem Answered.append (h : Answered g log) (hA : ∀ p l, .moved p l ∈ A → l.aborted = false) :
    Answered g (log ++ A) := by
  intro before p l after heq habort
  rcases List.append_eq_append_iff.mp heq with ⟨mid, rfl, hmid⟩ | ⟨mid, rfl, hmid⟩
  · have hmem : .moved p l ∈ A := hmid ▸ List.mem_append_right _ List.mem_cons_self
    exact absurd ((hA p l hmem).symm.trans habort) Bool.false_ne_true
  · cases mid with
    | nil =>
      have hmem : .moved p l ∈ A := (List.nil_append A ▸ hmid) ▸ List.mem_cons_self
      exact absurd ((hA p l hmem).symm.trans habort) Bool.false_ne_true
    | cons y mid =>
      obtain ⟨rfl, rfl⟩ := List.cons.inj hmid
      exact (h before p l mid rfl habort).append A

/-- an early end with its cancels -/
theorem Answered.abort (h : Answered g log) {l : PairLifecycle} (hc : Cancelled g plan A)
    (hA : ∀ p l, .moved p l ∈ A → l.aborted = false) : Answered g (log ++ .moved plan l :: A) := by
  intro before p l' after heq habort
  rcases List.append_eq_append_iff.mp heq with ⟨mid, rfl, hmid⟩ | ⟨mid, rfl, hmid⟩
  · cases mid with
    | nil =>
      obtain ⟨hhead, rfl⟩ := List.cons.inj hmid
      obtain ⟨rfl, -⟩ := Entry.moved.inj hhead
      exact hc
    | cons y mid =>
      obtain ⟨-, rfl⟩ := List.cons.inj hmid
      have hmem := hA p l' (List.mem_append_right _ List.mem_cons_self)
      exact absurd (hmem.symm.trans habort) Bool.false_ne_true
  · cases mid with
    | nil =>
      obtain ⟨hhead, rfl⟩ := List.cons.inj hmid
      obtain ⟨rfl, -⟩ := Entry.moved.inj hhead
      exact hc
    | cons y mid =>
      obtain ⟨rfl, rfl⟩ := List.cons.inj hmid
      exact (h before p l' mid rfl habort).append _

end ArmControl.MultiArm
