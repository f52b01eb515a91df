import ArmControl.Lib.Run
import ArmControl.MultiArm.PairEvents

/-!
# The rules of a pair

Whatever the operations, the events and the handles: a member is executed only while its pair executes, a pair
executes only after the check and both acknowledgements, completes only with both results, and ends early with
a cancel of both members.

* `PairRules`    what the log of a coordinator says;
* `call_sound`, `stagePair_sound`, `executePair_sound`   the operations;
* `pair_rules`   the result.
-/

namespace ArmControl.MultiArm

variable {σ α : Type} {g : Group} {h : Handles σ} {handler : String → Event → Coordinator.M σ PUnit}
  {s t u : Coordinator σ} {r : PairRun} {clean : Prop}

/-- sound, and no other pair owns the group -/
def Stays (g : Group) (s t : Coordinator σ) : Prop := Sound g True t ∧ SamePlan s t

theorem Stays.refl (hs : Sound g True s) : Stays g s s := ⟨hs, rfl⟩

theorem Stays.trans (h₁ : SamePlan s t) (h₂ : Stays g t u) : Stays g s u := ⟨h₂.1, h₂.2.trans h₁⟩

theorem Sound.forget (hs : Sound g clean s) : Sound g False s := ⟨hs.tied.forget, hs.answered⟩

theorem onWorld_stays (hs : Sound g True s) (m : EStateM Failure σ α) :
    Effect.Holds (Stays g s) (Coordinator.onWorld m) s := by
  unfold Effect.Holds
  rw [ends_onWorld]
  exact Effect.ends_of (fun _ w _ => ⟨hs.world w, rfl⟩) fun _ w _ => ⟨hs.world w, rfl⟩

theorem deliver_stays (hst : Steady g handler) (hs : Sound g True s) (events : List (String × Event)) :
    Effect.Holds (Stays g s) (Coordinator.deliver handler events) s := by
  refine Effect.Ends.each (Stays.refl hs) fun x _ t ht => ?_
  rw [Effect.ends_tryCatch]
  have hrest := hst t ht.1 x.1 x.2
  exact hrest.mono (fun _ u hu => Stays.trans ht.2 hu) fun _ u hu => Stays.trans ht.2 hu

/-- a call that the log admits -/
theorem call_sound (hst : Steady g handler) (hs : Sound g True s) {c : HandleCall} (hc : Admits g s.log (.called c)) :
    Effect.Holds (Stays g s) (Coordinator.call h handler c) s := by
  have hcalled : Sound g True (s.add (.called c)) := by
    refine ⟨hs.tied.note rfl hc fun _ => ⟨trivial, fun _ _ _ _ _ _ _ a e heq => by cases heq⟩, ?_⟩
    refine hs.answered.append fun p l hp => ?_
    cases List.mem_singleton.mp hp
  unfold Coordinator.call Coordinator.note Effect.Holds
  rw [Effect.ends_bind, Effect.ends_modify, Effect.ends_bind, Effect.ends_get, Effect.ends_bind, Effect.ends_set,
    Effect.ends_bind]
  generalize (h.answer _ _).2 = w
  generalize (h.answer _ _).1 = reply
  have hsame : SamePlan s { s.add (.called c) with world := w } := rfl
  refine (deliver_stays hst (hcalled.world w) reply.events).mono (fun _ u hu => ?_) fun _ u hu => Stays.trans hsame hu
  cases reply.raised with
  | none => exact Stays.trans hsame hu
  | some e => exact Stays.trans hsame hu

theorem poll_sound (n : ℕ) (a : Side) (hs : Sound g True s) : Effect.Holds (Stays g s) (Coordinator.poll g h n a) s := by
  unfold Coordinator.poll Effect.Holds
  rw [Effect.ends_bind]
  refine (onWorld_stays hs _).mono (fun events t ht => ?_) fun _ _ ht => ht
  refine Effect.Ends.each ht fun e _ u hu => ?_
  exact (steady_onMemberEvent n u hu.1 (g.name a) e).mono (fun _ v hv => Stays.trans hu.2 hv)
    fun _ v hv => Stays.trans hu.2 hv

theorem abort_stays (n : ℕ) (hs : Sound g clean s) {next : PairLifecycle} (hnext : next.aborted = true)
    (reason : String) (arm : Option Side) :
    Effect.Holds (Stays g s) (Coordinator.abort g h (Coordinator.onMemberEvent g h n) next reason arm) s :=
  (abort_sound (quietly_onMemberEvent n) hs hnext reason arm).mono (fun _ _ ht => ⟨ht.1, ht.2.2⟩)
    fun _ _ ht => ⟨ht.1, ht.2.2⟩

/-! ## reads of the arms -/

/-- nothing happened but reads of both arms, the last of them `reads` -/
structure Peeks (g : Group) (reads : List (ℚ × (Side → ArmControlState))) (s t : Coordinator σ) : Prop where
  run : t.run = s.run
  pairs : t.consumedPairIds = s.consumedPairIds
  plans : t.consumedPlanIds = s.consumedPlanIds
  log : t.log = s.log ++ reads.map fun x => .checked x.1 x.2
  healthy : ∀ x ∈ reads, ∀ a, Healthy g x.1 (x.2 a)

theorem Peeks.trans {xs ys : List (ℚ × (Side → ArmControlState))} (h₁ : Peeks g xs s t) (h₂ : Peeks g ys t u) :
    Peeks g (xs ++ ys) s u where
  run := h₂.run.trans h₁.run
  pairs := h₂.pairs.trans h₁.pairs
  plans := h₂.plans.trans h₁.plans
  log := by rw [h₂.log, h₁.log, List.map_append, List.append_assoc]
  healthy := fun x hx => (List.mem_append.mp hx).elim (h₁.healthy x) (h₂.healthy x)

theorem Sound.checks (xs : List (ℚ × (Side → ArmControlState))) :
    ∀ {s : Coordinator σ}, Sound g True s → (∀ x ∈ xs, ∀ a, Healthy g x.1 (x.2 a)) →
      Sound g True { s with log := s.log ++ xs.map fun x => .checked x.1 x.2 } := by
  induction xs with
  | nil =>
    intro s hs _
    rw [List.map_nil, List.append_nil]
    exact hs
  | cons x xs ih =>
    intro s hs hall
    have hnoted : Sound g True (s.add (.checked x.1 x.2)) := by
      refine ⟨hs.tied.note rfl (hall x List.mem_cons_self) fun _ => ⟨trivial, fun _ _ _ _ _ _ _ a e heq => by cases heq⟩, ?_⟩
      refine hs.answered.append fun p l hp => ?_
      cases List.mem_singleton.mp hp
    have hrest := ih hnoted fun y hy => hall y (List.mem_cons_of_mem _ hy)
    rw [List.map_cons, List.append_cons]
    exact hrest

theorem Peeks.stays {xs : List (ℚ × (Side → ArmControlState))} (hp : Peeks g xs s t) (hs : Sound g True s) :
    Stays g s t := by
  have hchecks := hs.checks xs hp.healthy
  refine ⟨⟨hchecks.tied.congr hp.run hp.log hp.pairs hp.plans, ?_⟩, ?_⟩
  · rw [hp.log]
    exact hchecks.answered
  · unfold SamePlan
    rw [hp.run]

theorem ends_refuse {o : Option String} {Q : PUnit → Coordinator σ → Prop} {E : Failure → Coordinator σ → Prop}
    (hQ : o = none → Q ⟨⟩ s) (hE : ∀ text, E (.valueError text) s) : Effect.Ends Q E (Coordinator.refuse o) s := by
  cases o with
  | none => exact hQ rfl
  | some text => exact hE text

theorem armState_spec (a : Side) :
    Effect.Holds (Peeks g [] s) (Coordinator.armState h a) s := by
  have hworld : ∀ w, Peeks g [] s { s with world := w } := fun w =>
    ⟨rfl, rfl, rfl, (List.append_nil _).symm, List.forall_mem_nil _⟩
  unfold Coordinator.armState Effect.Holds
  rw [Effect.ends_bind, ends_onWorld]
  refine Effect.ends_of (fun x w _ => ?_) fun _ w _ => hworld w
  rw [Effect.ends_bind, ends_now]
  exact hworld _

/-- what `_states` returns is healthy, and in the log -/
theorem states_spec :
    Effect.Ends (fun both t => ∃ now, Peeks g [(now, both)] s t) (fun _ t => Peeks g [] s t)
      (Coordinator.states g h) s := by
  unfold Coordinator.states
  rw [Effect.ends_bind]
  refine (armState_spec .first).mono (fun x t₁ h₁ => ?_) fun _ _ h₁ => h₁
  rw [Effect.ends_bind]
  refine (armState_spec .second).mono (fun y t₂ h₂ => ?_) fun _ _ h₂ => h₁.trans h₂
  rw [Effect.ends_bind, ends_now]
  generalize (h.clock _).1 = now
  generalize (h.clock _).2 = w
  have h₃ : Peeks g [] s { t₂ with world := w } :=
    (h₁.trans h₂).trans ⟨rfl, rfl, rfl, (List.append_nil _).symm, List.forall_mem_nil _⟩
  rw [Effect.ends_bind]
  refine ends_refuse (fun hx => ?_) fun _ => h₃
  rw [Effect.ends_bind]
  refine ends_refuse (fun hy => ?_) fun _ => h₃
  unfold Coordinator.note
  rw [Effect.ends_bind, Effect.ends_modify]
  refine ⟨now, h₃.run, h₃.pairs, h₃.plans, ?_, ?_⟩
  · show t₂.log ++ [_] = _
    rw [h₃.log, List.map_nil, List.append_nil]
    rfl
  · intro z hz a
    rw [List.mem_singleton.mp hz]
    cases a with
    | first => exact healthy_of_states hx
    | second => exact healthy_of_states hy

/-- the run's sessions and models are those of the read -/
theorem checkRun_spec (r : PairRun) :
    Effect.Ends (fun _ t => ∃ now both, Peeks g [(now, both)] s t ∧
        ∀ a, (both a).sessionId = r.sessions a ∧ (both a).modelToken = r.models a)
      (fun _ t => ∃ reads, Peeks g reads s t) (Coordinator.checkRun g h r) s := by
  unfold Coordinator.checkRun
  rw [Effect.ends_bind]
  refine states_spec.mono (fun both t ht => ?_) fun _ _ ht => ⟨_, ht⟩
  obtain ⟨now, ht⟩ := ht
  rw [Effect.ends_bind]
  have hnone : ∀ a, Coordinator.runRefusal g r both a = none →
      (both a).sessionId = r.sessions a ∧ (both a).modelToken = r.models a := by
    intro a ha
    unfold Coordinator.runRefusal at ha
    split_ifs at ha with hsession hmodel
    exact ⟨not_not.mp hsession, not_not.mp hmodel⟩
  refine ends_refuse (fun h₁ => ends_refuse (fun h₂ => ⟨now, both, ht, fun a => ?_⟩) fun _ => ⟨_, ht⟩) fun _ => ⟨_, ht⟩
  cases a with
  | first => exact hnone _ h₁
  | second => exact hnone _ h₂

/-- a loop of checks that leave the state alone -/
theorem each_checked {β : Type} {P : β → Prop} {f : β → Coordinator.M σ PUnit} (xs : List β)
    (hf : ∀ x, Effect.Ends (fun _ t => t = s ∧ P x) (fun _ t => t = s) (f x) s) :
    Effect.Ends (fun _ t => t = s ∧ ∀ x ∈ xs, P x) (fun _ t => t = s) (Effect.each xs f) s := by
  induction xs with
  | nil => exact ⟨rfl, List.forall_mem_nil _⟩
  | cons x xs ih =>
    show Effect.Ends _ _ (f x >>= fun _ => Effect.each xs f) s
    rw [Effect.ends_bind]
    refine (hf x).mono (fun _ t ht => ?_) fun _ _ ht => ht
    obtain ⟨rfl, hx⟩ := ht
    exact ih.mono (fun _ u hu => ⟨hu.1, List.forall_mem_cons.mpr ⟨hx, hu.2⟩⟩) fun _ _ hu => hu

theorem raising_spec (x : Except Failure α) :
    Effect.Ends (fun a t => t = s ∧ x = .ok a) (fun _ t => t = s) (Coordinator.raising x) s := by
  cases x with
  | ok a => exact ⟨rfl, rfl⟩
  | error e => exact rfl

/-- a member plan that was let through has its arm's model token -/
theorem token_of_valid {member : ArmPlan} {state : ArmControlState} (hv : validateMember member state = .ok ⟨⟩) :
    ∃ body, member.payload = .ok body ∧ body.modelToken = state.modelToken := by
  unfold validateMember at hv
  cases hbody : member.payload with
  | error e =>
    rw [hbody] at hv
    cases hv
  | ok body =>
    refine ⟨body, rfl, ?_⟩
    by_contra htoken
    rw [hbody] at hv
    change (if body.planId ≠ some member.planId ∨ body.gated = false then _ else _) = _ at hv
    split_ifs at hv with hbad
    · cases hv
    · cases hv

theorem mem_order (g : Group) (plan : BimanualPlan) (a : Side) : a ∈ g.order plan := by
  unfold Group.order
  split_ifs <;> cases a <;> decide

theorem admitMember_spec (plan : BimanualPlan) (both : Side → ArmControlState) (a : Side) :
    Effect.Ends (fun _ t => t = s ∧ validateMember (g.member plan a) (both a) = .ok ⟨⟩) (fun _ t => t = s)
      (Coordinator.admitMember g plan both a) s := by
  unfold Coordinator.admitMember
  exact Effect.ends_ite (fun _ => rfl) fun _ => raising_spec _

theorem loadedMember_spec (plan : BimanualPlan) (both : Side → ArmControlState) (a : Side) :
    Effect.Ends (fun _ t => t = s ∧ validateMember (g.member plan a) (both a) = .ok ⟨⟩ ∧
        (both a).runningPlanId = some (g.member plan a).planId ∧ (both a).executing ≠ some true) (fun _ t => t = s)
      (Coordinator.loadedMember g plan both a) s := by
  unfold Coordinator.loadedMember
  refine Effect.ends_ite (fun _ => rfl) fun hloaded => ?_
  rw [not_or, not_not] at hloaded
  exact (raising_spec _).mono (fun _ _ ht => ⟨ht.1, ht.2, hloaded⟩) fun _ _ ht => ht

/-- what `execute_pair` has checked -/
theorem checkRelease_spec (r : PairRun) :
    Effect.Ends (fun _ t => ∃ now₁ s₁ now₂ s₂, Peeks g [(now₁, s₁), (now₂, s₂)] s t ∧
        ∀ a, (s₁ a).sessionId = r.sessions a ∧ (s₁ a).modelToken = r.models a ∧
          validateMember (g.member r.plan a) (s₂ a) = .ok ⟨⟩ ∧
          (s₂ a).runningPlanId = some (g.member r.plan a).planId ∧ (s₂ a).executing ≠ some true)
      (fun _ t => ∃ reads, Peeks g reads s t) (Coordinator.checkRelease g h r) s := by
  unfold Coordinator.checkRelease
  rw [Effect.ends_bind]
  refine (checkRun_spec r).mono (fun _ t ht => ?_) fun _ _ ht => ht
  obtain ⟨now₁, s₁, ht, hrun⟩ := ht
  rw [Effect.ends_bind]
  refine states_spec.mono (fun s₂ u hu => ?_) fun _ _ hu => ⟨_, ht.trans hu⟩
  obtain ⟨now₂, hu⟩ := hu
  rw [Effect.ends_bind]
  refine (each_checked _ fun a => loadedMember_spec r.plan s₂ a).mono (fun _ v hv => ?_) fun _ v hv => ?_
  · obtain ⟨rfl, hloaded⟩ := hv
    rw [ends_onWorld]
    have hboth := ht.trans hu
    refine Effect.ends_of (fun _ w _ => ?_) fun _ w _ => ⟨_, hboth.run, hboth.pairs, hboth.plans, hboth.log, hboth.healthy⟩
    refine ⟨now₁, s₁, now₂, s₂, ⟨hboth.run, hboth.pairs, hboth.plans, hboth.log, hboth.healthy⟩, fun a => ?_⟩
    obtain ⟨hvalid, hrunning, hstill⟩ := hloaded a (mem_order g r.plan a)
    exact ⟨(hrun a).1, (hrun a).2, hvalid, hrunning, hstill⟩
  · rw [hv]
    exact ⟨_, ht.trans hu⟩

/-! ## staging -/

theorem run_of_active (hactive : s.lifecycle.active = true) : ∃ r, s.run = some r ∧ r.lifecycle.active = true := by
  cases hr : s.run with
  | none =>
    rw [Coordinator.lifecycle, hr] at hactive
    cases hactive
  | some r => exact ⟨r, rfl, active_of_run hr ▸ hactive⟩

theorem stageMembers_sound (n : ℕ) (as : List Side) :
    ∀ {s : Coordinator σ} {r : PairRun}, Sound g True s → s.run = some r → r.lifecycle.active = true →
      Effect.Holds (Sound g True) (Coordinator.stageMembers g h n r.plan as) s := by
  induction as with
  | nil => exact fun hs _ _ => hs
  | cons a as ih =>
    intro s r hs hr hactive
    have hadmits : Admits g s.log (.called (.stage a (g.member r.plan a))) :=
      ⟨r.plan, r.lifecycle, hs.tied.current_eq hr, hactive, rfl, hs.tied.live r hr hactive a⟩
    unfold Coordinator.stageMembers Effect.Holds
    rw [Effect.ends_bind, Effect.ends_tryCatch, Effect.ends_bind]
    refine (call_sound (steady_onMemberEvent n) hs hadmits).mono (fun _ t ht => ?_) fun e t ht => ?_
    · rw [Effect.ends_pure, if_pos rfl, Effect.ends_bind, Effect.ends_get]
      refine Effect.ends_ite (fun hgo => ?_) fun _ => ht.1
      obtain ⟨r', hr', hactive'⟩ := run_of_active hgo
      obtain ⟨r'', hr'', hplan⟩ := ht.2.some hr
      obtain rfl := Option.some.inj (hr'.symm.trans hr'')
      rw [← hplan]
      exact ih ht.1 hr' hactive'
    · rw [Effect.ends_bind]
      exact (abort_stays n ht.1 rfl _ _).mono (fun _ u hu => hu.1) fun _ u hu => hu.1

theorem member_cases (g : Group) (plan : BimanualPlan) (a : Side) :
    (g.member plan a).planId = plan.left.planId ∨ (g.member plan a).planId = plan.right.planId := by
  unfold Group.member
  split_ifs
  · exact .inl rfl
  · exact .inr rfl

theorem stagePair_sound (n : ℕ) (plan : BimanualPlan) (hs : Sound g True s) :
    Effect.Holds (Sound g True) (Coordinator.stagePair g h n plan) s := by
  unfold Coordinator.stagePair Effect.Holds
  rw [Effect.ends_bind, Effect.ends_get, Effect.ends_bind]
  refine ends_refuse (fun hnone => ?_) fun _ => hs
  unfold Coordinator.stageRefusal at hnone
  split_ifs at hnone with hbusy hcovers hpair hplans
  rw [Effect.ends_bind]
  refine states_spec.mono (fun both t ht => ?_) fun _ t ht => (ht.stays hs).1
  obtain ⟨now, ht⟩ := ht
  rw [Effect.ends_bind]
  refine (each_checked _ fun a => admitMember_spec plan both a).mono (fun _ u hu => ?_) fun _ u hu => ?_
  · obtain ⟨rfl, hvalid⟩ := hu
    have hsound := (ht.stays hs).1
    rw [Effect.ends_bind, ends_onWorld]
    refine Effect.ends_of (fun _ w _ => ?_) fun _ w _ => hsound.world w
    rw [Effect.ends_bind, ends_now, Effect.ends_bind, Effect.ends_modify]
    generalize (h.clock _).1 = stamp
    generalize (h.clock _).2 = w'
    have hidle : u.lifecycle.active = false := by
      unfold Coordinator.lifecycle
      rw [ht.run]
      cases hr : s.run with
      | none => rfl
      | some r => exact Bool.eq_false_of_not_eq_true fun ha => hbusy ⟨r, hr, .inl ha⟩
    rw [not_or] at hplans
    have hfresh : ∀ a, (g.member plan a).planId ∉ u.consumedPlanIds := by
      intro a
      rw [ht.plans]
      rcases member_cases g plan a with ha | ha
      · rw [ha]
        exact hplans.1
      · rw [ha]
        exact hplans.2
    have htied := (hsound.world w').tied.own (t := stamp) hidle ht.log (ht.pairs ▸ hpair) hfresh (member_cases g plan)
      fun a => token_of_valid (hvalid a (mem_order g plan a))
    have hanswered : Answered g (Coordinator.own plan both stamp { u with world := w' }).log := by
      refine hsound.answered.append fun p l hp => ?_
      obtain ⟨-, rfl⟩ := Entry.moved.inj (List.mem_singleton.mp hp)
      rfl
    exact stageMembers_sound n _ ⟨htied, hanswered⟩ rfl rfl
  · rw [hu]
    exact (ht.stays hs).1

/-! ## release -/

/-- a pair that is ready and was checked may execute -/
theorem executing_sound (hs : Sound g True s) (hr : s.run = some r) (hready : r.lifecycle = .ready)
    {now₁ now₂ : ℚ} {s₁ s₂ : Side → ArmControlState} {u : Coordinator σ}
    (hp : Peeks g [(now₁, s₁), (now₂, s₂)] u s)
    (hc : ∀ a, (s₁ a).sessionId = r.sessions a ∧ (s₁ a).modelToken = r.models a ∧
      validateMember (g.member r.plan a) (s₂ a) = .ok ⟨⟩ ∧
      (s₂ a).runningPlanId = some (g.member r.plan a).planId ∧ (s₂ a).executing ≠ some true) :
    Sound g True (s.enter .executing fun r => r) := by
  have hactive : r.lifecycle.active = true := by rw [hready]; rfl
  refine ⟨hs.tied.moved hr ?_ nofun rfl (fun _ => ⟨trivial, hactive⟩) (fun _ _ hg => { hg with })
    fun states since ht => ?_, ?_⟩
  · obtain ⟨states, since, hstaged, ht, hg⟩ := hs.tied.tracked r hr
    refine ⟨hready ▸ hs.tied.current_eq hr, fun p hmem => ?_, states, since, hstaged, fun a => ?_, ?_⟩
    · obtain ⟨before, now, hlog⟩ := hstaged.split
      have hlog' : s.log = (before ++ [Entry.checked now states]) ++ .moved r.plan .staging :: since := by
        rw [hlog, List.append_assoc]
        rfl
      obtain ⟨-, hfresh, -⟩ := hs.tied.legal _ _ _ hlog'
      rw [hlog'] at hmem
      rcases List.mem_append.mp hmem with hmem | hmem
      · exact hfresh p _ hmem
      · rcases List.mem_cons.mp hmem with hmem | hmem
        · cases hmem
        · exact absurd hmem (ht.unreleased (.inr hready) p)
    · exact ht.acked_of_some (hg trivial hactive) (ht.both (.inl hready) a)
    · refine ⟨u.log, now₁, now₂, s₁, s₂, hp.log, fun a => ?_⟩
      have h₁ := hp.healthy _ List.mem_cons_self a
      have h₂ := hp.healthy _ (List.mem_cons_of_mem _ List.mem_cons_self) a
      obtain ⟨hsession, hmodel, hvalid, hrunning, hstill⟩ := hc a
      obtain ⟨body, hbody, htoken⟩ := token_of_valid hvalid
      obtain ⟨body', hbody', htoken'⟩ := ht.tokens a
      obtain rfl := Except.ok.inj (hbody.symm.trans hbody')
      exact ⟨h₁, h₂, hsession.trans (ht.sessions a), hmodel.trans (ht.models a), htoken.symm.trans htoken', hrunning,
        false_of_known h₂.known hstill⟩
  · exact
      { ht with
        acked := fun a text hack => (ht.acked a text hack).append _
        both := fun _ => ht.both (.inl hready)
        succeeded := fun a text hres => (ht.succeeded a text hres).append _
        unreleased := fun hl => by rcases hl with hl | hl <;> cases hl
        uncancelled := fun _ => ht.uncancelled hactive }
  · unfold Coordinator.enter
    rw [hr]
    refine hs.answered.append fun p l hp => ?_
    obtain ⟨-, rfl⟩ := Entry.moved.inj (List.mem_singleton.mp hp)
    rfl

theorem releaseMembers_sound (n : ℕ) (as : List Side) :
    ∀ {s : Coordinator σ} {r : PairRun}, Sound g True s → s.run = some r → r.lifecycle = .executing →
      Effect.Holds (Sound g True) (Coordinator.releaseMembers g h n r.plan as) s := by
  induction as with
  | nil => exact fun hs _ _ => hs
  | cons a as ih =>
    intro s r hs hr hexec
    have hactive : r.lifecycle.active = true := by rw [hexec]; rfl
    have hs' : Sound g True { s with releasing := some a } := ⟨hs.tied.congr rfl rfl rfl rfl, hs.answered⟩
    have hadmits : Admits g s.log (.called (.execute a (g.member r.plan a).planId)) :=
      ⟨r.plan, hexec ▸ hs.tied.current_eq hr, rfl, hs.tied.live r hr hactive a⟩
    unfold Coordinator.releaseMembers Effect.Holds
    rw [Effect.ends_bind, Effect.ends_modify, Effect.ends_bind]
    refine (call_sound (steady_onMemberEvent n) hs' hadmits).mono (fun _ t ht => ?_) fun _ t ht => ht.1
    rw [Effect.ends_bind, ends_now]
    generalize (h.clock _).1 = stamp
    generalize (h.clock _).2 = w
    unfold Coordinator.updateRun
    rw [Effect.ends_bind, Effect.ends_modify, Effect.ends_bind]
    have hreleased : Sound g True { t with
        world := w, run := t.run.map fun r => { r with releases := Function.update r.releases a (some stamp) } } :=
      (ht.1.world w).update (fun _ => rfl) (fun _ => rfl) fun _ _ _ _ _ ht => ⟨{ ht with }, fun _ hg => { hg with }⟩
    have hupdate : SamePlan t { t with
        world := w, run := t.run.map fun r => { r with releases := Function.update r.releases a (some stamp) } } :=
      samePlan_update fun _ => rfl
    have hsame := hupdate.trans ht.2
    refine (poll_sound n a hreleased).mono (fun _ v hv => ?_) fun _ v hv => hv.1
    rw [Effect.ends_bind, Effect.ends_get]
    refine Effect.ends_ite (fun hgo => ?_) fun _ => hv.1
    obtain ⟨r', hr', hplan⟩ := SamePlan.some (hv.2.trans hsame) hr
    rw [← hplan]
    exact ih hv.1 hr' (active_of_run hr' ▸ hgo)

/-- the end of a release context, after the body ended -/
def Coordinator.leaving (h : Handles σ) (raised : Option Failure) : Coordinator.M σ PUnit := do
  let swallowed ← Coordinator.onWorld (h.leaveRelease raised)
  match raised with
  | some e => if swallowed then pure ⟨⟩ else throw e
  | none => pure ⟨⟩

theorem withRelease_sound {body : Coordinator.M σ PUnit}
    (hbody : ∀ w, Effect.Holds (Sound g True) body { s with world := w }) (hs : Sound g True s) :
    Effect.Holds (Sound g True) (Coordinator.withRelease h body) s := by
  unfold Coordinator.withRelease Effect.Holds
  rw [Effect.ends_bind, ends_onWorld]
  refine Effect.ends_of (fun _ w _ => ?_) fun _ w _ => hs.world w
  rw [Effect.ends_bind, Effect.ends_tryCatch, Effect.ends_bind]
  have hleave : ∀ (raised : Option Failure) (t : Coordinator σ), Sound g True t →
      Effect.Holds (Sound g True) (Coordinator.leaving h raised) t := by
    intro raised t ht
    unfold Coordinator.leaving Effect.Holds
    rw [Effect.ends_bind, ends_onWorld]
    refine Effect.ends_of (fun swallowed w _ => ?_) fun _ w _ => ht.world w
    cases raised with
    | none => exact ht.world w
    | some e => exact Effect.ends_ite (fun _ => ht.world w) fun _ => ht.world w
  exact (hbody w).mono (fun _ t ht => hleave none t ht) fun e t ht => hleave (some e) t ht

theorem executePair_sound (n : ℕ) (pairId : String) (hs : Sound g True s) :
    Effect.Holds (Sound g True) (Coordinator.executePair g h n pairId) s := by
  unfold Coordinator.executePair Effect.Holds
  rw [Effect.ends_bind, Effect.ends_get]
  cases hr : s.run with
  | none => exact hs
  | some r =>
    refine Effect.ends_ite (fun _ => hs) fun _ => Effect.ends_ite (fun _ => hs) fun _ => Effect.ends_ite (fun _ => hs)
      fun hready => ?_
    rw [Effect.ends_bind, Effect.ends_tryCatch, Effect.ends_bind]
    refine (checkRelease_spec r).mono (fun _ t ht => ?_) fun e t ht => ?_
    · obtain ⟨now₁, s₁, now₂, s₂, hp, hc⟩ := ht
      have hrun : t.run = some r := hp.run.trans hr
      have hexec := executing_sound (hp.stays hs).1 hrun (not_not.mp hready) hp hc
      show Effect.Ends _ _ (Coordinator.release g h n r) t
      unfold Coordinator.release Coordinator.move
      rw [Effect.ends_bind, Effect.ends_modify, Effect.ends_bind, Effect.ends_modify, Effect.ends_tryCatch]
      have hrun' : (Coordinator.enter .executing (fun r => r) t).run = some { r with lifecycle := .executing } := by
        show t.run.map _ = _
        rw [hrun]
        rfl
      generalize Coordinator.enter .executing (fun r => r) t = m at hexec hrun'
      have hm : Sound g True { m with releasing := none } := ⟨hexec.tied.congr rfl rfl rfl rfl, hexec.answered⟩
      refine (withRelease_sound (fun w => ?_) hm).mono (fun _ _ hu => hu) fun e u hu => ?_
      · exact releaseMembers_sound (r := { r with lifecycle := .executing }) n _ (hm.world w) hrun' rfl
      · rw [Effect.ends_bind, Effect.ends_get]
        exact (abort_stays n hu rfl _ _).mono (fun _ _ hv => hv.1) fun _ _ hv => hv.1
    · obtain ⟨reads, hp⟩ := ht
      rw [Effect.ends_bind]
      exact (abort_stays n (hp.stays hs).1 rfl _ _).mono (fun _ _ hv => hv.1) fun _ _ hv => hv.1

/-! ## the other operations -/

theorem checkTimeouts_sound (n : ℕ) (hs : Sound g True s) :
    Effect.Holds (Sound g True) (Coordinator.checkTimeouts g h n) s := by
  unfold Coordinator.checkTimeouts Effect.Holds
  rw [Effect.ends_bind, Effect.ends_get]
  cases s.run with
  | none => exact hs
  | some r =>
    refine Effect.ends_ite (fun _ => ?_) fun _ => hs
    rw [Effect.ends_bind, Effect.ends_tryCatch, Effect.ends_bind]
    refine (checkRun_spec r).mono (fun _ t ht => ?_) fun e t ht => ?_
    · obtain ⟨now, both, hp, -⟩ := ht
      have hsound := (hp.stays hs).1
      rw [Effect.ends_pure, if_pos rfl]
      refine Effect.ends_ite (fun _ => ?_) fun _ => hsound
      rw [Effect.ends_bind, ends_now]
      refine Effect.ends_ite (fun _ => ?_) fun _ => hsound.world _
      exact (abort_stays n (hsound.world _) rfl _ _).mono (fun _ _ hu => hu.1) fun _ _ hu => hu.1
    · obtain ⟨reads, hp⟩ := ht
      have hsound := (hp.stays hs).1
      cases e with
      | valueError text =>
        rw [Effect.ends_bind]
        exact (abort_stays n hsound rfl _ _).mono (fun _ _ hu => hu.1) fun _ _ hu => hu.1
      | other text => exact hsound

theorem pump_sound (n : ℕ) (hs : Sound g True s) : Effect.Holds (Sound g True) (Coordinator.pump g h n) s := by
  unfold Coordinator.pump Effect.Holds
  rw [Effect.ends_bind]
  refine (poll_sound n .first hs).mono (fun _ t ht => ?_) fun _ _ ht => ht.1
  rw [Effect.ends_bind]
  exact (poll_sound n .second ht.1).mono (fun _ u hu => checkTimeouts_sound n hu.1) fun _ _ hu => hu.1

theorem cancelPair_sound (n : ℕ) (reason : String) (hs : Sound g True s) :
    Effect.Holds (Sound g True) (Coordinator.cancelPair g h n reason) s := by
  unfold Coordinator.cancelPair Effect.Holds
  rw [Effect.ends_bind, Effect.ends_get]
  cases hr : s.run with
  | none => exact hs
  | some r =>
    refine Effect.ends_ite (fun _ => ?_) fun hidle => ?_
    · exact (abort_stays n hs rfl _ _).mono (fun _ _ hu => hu.1) fun _ _ hu => hu.1
    · have hin : s.lifecycle.active = false := active_of_run hr ▸ Bool.eq_false_of_not_eq_true hidle
      exact (sendCancels_idles (quietly_onMemberEvent n) hin hr).mono (fun _ _ ht => hs.idles hin ht) fun _ _ hf => hf.elim

theorem op_sound (n : ℕ) (o : Coordinator.Op) (hs : Sound g True s) :
    Effect.Holds (Sound g True) (Coordinator.op g h n o) s := by
  cases o with
  | stagePair plan => exact stagePair_sound n plan hs
  | executePair pairId => exact executePair_sound n pairId hs
  | cancelPair reason => exact cancelPair_sound n reason hs
  | pump => exact pump_sound n hs
  | checkTimeouts => exact checkTimeouts_sound n hs
  | onMemberEvent armId e =>
    exact (steady_onMemberEvent n s hs armId e).mono (fun _ _ ht => ht.1) fun _ _ ht => ht.1

theorem new_sound (g : Group) (w : σ) : Sound g True { world := w : Coordinator σ } where
  tied :=
    { legal := fun before x after heq => by cases before <;> cases heq
      now := rfl
      tracked := fun _ hr => by cases hr
      consumed := fun _ _ hp => absurd hp List.not_mem_nil
      live := fun _ hr => by cases hr }
  answered := fun before p l after heq => by cases before <;> cases heq

theorem run_sound (n : ℕ) (w : σ) (ops : List Coordinator.Op) :
    Sound g True (Run.run (Coordinator.step g h n) { world := w } ops) := by
  refine Run.invariant (C := fun _ _ => True) (new_sound g w) (fun t o _ ht => ?_) (Run.along_of_forall (fun _ _ => trivial) ops)
  exact Effect.holds_iff.mp (op_sound n o ht)

/-! ## the result -/

/-- what the log of a coordinator says of every pair -/
structure PairRules (g : Group) (log : List Entry) : Prop where
  /-- a member is executed only while its pair executes -/
  execute : ∀ before a planId after, log = before ++ .called (.execute a planId) :: after →
    ∃ plan, current before = some (plan, .executing) ∧ planId = (g.member plan a).planId
  /-- a pair executes once, from ready, after both acknowledgements and right after the check -/
  executing : ∀ before plan after, log = before ++ .moved plan .executing :: after →
    current before = some (plan, .ready) ∧ (∀ p, .moved p .executing ∈ before → p.pairId ≠ plan.pairId) ∧
      ∃ states since, Staged plan states since before ∧ (∀ a, Acked g plan states a since) ∧
        Checked g plan states before
  /-- a pair completes with both results, and without a failing event -/
  complete : ∀ before plan after, log = before ++ .moved plan .complete :: after →
    current before = some (plan, .executing) ∧ ∃ states since, Staged plan states since before ∧
      (∀ a, Succeeded g plan a since) ∧ Unfailed g plan states since
  /-- an early end is that of an active pair; both members are cancelled, and neither is staged or executed again -/
  early : ∀ before plan l after, log = before ++ .moved plan l :: after → l.aborted = true →
    (∃ l', current before = some (plan, l') ∧ l'.active = true) ∧ Cancelled g plan after ∧
      ∀ a, (∀ b p, .called (.stage b p) ∈ after → p.planId ≠ (g.member plan a).planId) ∧
        ∀ b planId, .called (.execute b planId) ∈ after → planId ≠ (g.member plan a).planId

/-- **The rules of a pair.**  They hold of the log of every run, whatever the operations, the events (also those
inside each other) and the handles. -/
theorem pair_rules (g : Group) (h : Handles σ) (n : ℕ) (w : σ) (ops : List Coordinator.Op) :
    PairRules g (Run.run (Coordinator.step g h n) { world := w } ops).log := by
  have hsound : Sound g True (Run.run (Coordinator.step g h n) { world := w } ops) := run_sound n w ops
  generalize Run.run (Coordinator.step g h n) { world := w } ops = s at hsound
  have hlegal := hsound.tied.legal
  constructor
  · intro before a planId after hlog
    obtain ⟨plan, hcurrent, hplan, -⟩ := hlegal _ _ _ hlog
    exact ⟨plan, hcurrent, hplan⟩
  · intro before plan after hlog
    exact hlegal _ _ _ hlog
  · intro before plan after hlog
    exact hlegal _ _ _ hlog
  · intro before plan l after hlog habort
    have hin := inactive_of_aborted habort
    have hlive : ∀ mid c rest, s.log = mid ++ .called c :: rest → .moved plan l ∈ mid → ∀ planId, Live g planId mid →
        ∀ a, planId ≠ (g.member plan a).planId := fun mid c rest _ hmem planId hl a heq => hl plan l hmem hin a heq.symm
    have hsplit : ∀ c, .called c ∈ after → ∃ mid rest, s.log = mid ++ .called c :: rest ∧ .moved plan l ∈ mid := by
      intro c hc
      obtain ⟨xs, ys, rfl⟩ := List.append_of_mem hc
      refine ⟨before ++ .moved plan l :: xs, ys, ?_, List.mem_append_right _ List.mem_cons_self⟩
      rw [hlog, List.append_assoc]
      rfl
    refine ⟨?_, hsound.answered _ _ _ _ hlog habort, fun a => ⟨fun b p hc => ?_, fun b planId hc => ?_⟩⟩
    · have hadmits := hlegal _ _ _ hlog
      cases l with
      | cancelled => exact hadmits
      | faulted => exact hadmits
      | rejected => exact hadmits
      | idle => cases habort
      | staging => cases habort
      | ready => cases habort
      | executing => cases habort
      | complete => cases habort
    · obtain ⟨mid, rest, hmid, hmem⟩ := hsplit _ hc
      obtain ⟨-, -, -, -, -, hl⟩ := hlegal _ _ _ hmid
      exact hlive mid _ rest hmid hmem _ hl a
    · obtain ⟨mid, rest, hmid, hmem⟩ := hsplit _ hc
      obtain ⟨-, -, -, hl⟩ := hlegal _ _ _ hmid
      exact hlive mid _ rest hmid hmem _ hl a

end ArmControl.MultiArm
