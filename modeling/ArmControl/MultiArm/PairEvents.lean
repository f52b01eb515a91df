import ArmControl.MultiArm.PairInvariant

/-!
# Events, cancels and the early end of a pair

An event changes an active pair at most once more: once the pair has ended, events only answer the cancels.

* `Idles`         what may happen to a pair that is not active;
* `Sound`         a coordinator between two steps, `Open` one with a failing event in its log;
* `abort_sound`   the early end, with the cancels of both members;
* `event_sound`   an event from outside or from inside a call.
-/

namespace ArmControl.MultiArm

variable {σ α : Type} {g : Group} {h : Handles σ} {handler : String → Event → Coordinator.M σ PUnit}
  {s t u : Coordinator σ} {r : PairRun}

/-- the pair is not touched but for its cancels, and those of `as` are in the log -/
structure Idles (g : Group) (as : List Side) (s t : Coordinator σ) : Prop where
  run : ∃ p e, t.run = s.run.map fun r => { r with pendingCancels := p, cancelErrors := e }
  pairs : t.consumedPairIds = s.consumedPairIds
  plans : t.consumedPlanIds = s.consumedPlanIds
  log : ∃ new, t.log = s.log ++ new ∧ (∀ x ∈ new, ∃ r, s.run = some r ∧ Answer g r.plan x) ∧
    ∀ a ∈ as, ∃ r reason, s.run = some r ∧ .called (.cancel a reason (g.member r.plan a).planId) ∈ new

theorem Idles.of_same (hrun : t.run = s.run) (hpairs : t.consumedPairIds = s.consumedPairIds)
    (hplans : t.consumedPlanIds = s.consumedPlanIds) (hlog : t.log = s.log) : Idles g [] s t where
  run := by
    rw [hrun]
    cases s.run with
    | none => exact ⟨fun _ => false, fun _ => none, rfl⟩
    | some r => exact ⟨r.pendingCancels, r.cancelErrors, rfl⟩
  pairs := hpairs
  plans := hplans
  log := ⟨[], hlog.trans (List.append_nil _).symm, List.forall_mem_nil _, List.forall_mem_nil _⟩

theorem Idles.trans {as bs : List Side} (h₁ : Idles g as s t) (h₂ : Idles g bs t u) : Idles g (as ++ bs) s u := by
  obtain ⟨p₁, e₁, hrun₁⟩ := h₁.run
  obtain ⟨p₂, e₂, hrun₂⟩ := h₂.run
  obtain ⟨new₁, hlog₁, hall₁, has₁⟩ := h₁.log
  obtain ⟨new₂, hlog₂, hall₂, has₂⟩ := h₂.log
  have hplan : ∀ r', t.run = some r' → ∃ r, s.run = some r ∧ r'.plan = r.plan := by
    intro r' hr'
    rw [hrun₁] at hr'
    obtain ⟨r, hr, rfl⟩ := Option.map_eq_some_iff.mp hr'
    exact ⟨r, hr, rfl⟩
  refine ⟨⟨p₂, e₂, ?_⟩, h₂.pairs.trans h₁.pairs, h₂.plans.trans h₁.plans, new₁ ++ new₂, ?_, ?_, ?_⟩
  · rw [hrun₂, hrun₁, Option.map_map]
    rfl
  · rw [hlog₂, hlog₁, List.append_assoc]
  · intro x hx
    rcases List.mem_append.mp hx with hx | hx
    · exact hall₁ x hx
    · obtain ⟨r', hr', hans⟩ := hall₂ x hx
      obtain ⟨r, hr, heq⟩ := hplan r' hr'
      exact ⟨r, hr, heq ▸ hans⟩
  · intro a ha
    rcases List.mem_append.mp ha with ha | ha
    · obtain ⟨r, reason, hr, hmem⟩ := has₁ a ha
      exact ⟨r, reason, hr, List.mem_append_left _ hmem⟩
    · obtain ⟨r', reason, hr', hmem⟩ := has₂ a ha
      obtain ⟨r, hr, heq⟩ := hplan r' hr'
      exact ⟨r, reason, hr, List.mem_append_right _ (heq ▸ hmem)⟩

theorem Idles.lifecycle {as : List Side} (hi : Idles g as s t) : t.lifecycle = s.lifecycle := by
  obtain ⟨p, e, hrun⟩ := hi.run
  unfold Coordinator.lifecycle
  rw [hrun]
  cases s.run <;> rfl

/-- an entry that answers the run's pair -/
theorem Idles.add (hr : s.run = some r) {x : Entry} (hx : Answer g r.plan x) : Idles g [] s (s.add x) where
  run := ⟨r.pendingCancels, r.cancelErrors, by show s.run = _; rw [hr]; rfl⟩
  pairs := rfl
  plans := rfl
  log := ⟨[x], rfl, fun y hy => ⟨r, hr, List.mem_singleton.mp hy ▸ hx⟩, List.forall_mem_nil _⟩

/-- a change of the answers -/
theorem Idles.answered {f : PairRun → PairRun} (hf : ∀ r, ∃ p e, f r = { r with pendingCancels := p, cancelErrors := e }) :
    Idles g [] s { s with run := s.run.map f } := by
  refine ⟨?_, rfl, rfl, [], (List.append_nil _).symm, List.forall_mem_nil _, List.forall_mem_nil _⟩
  cases hrun : s.run with
  | none => exact ⟨fun _ => false, fun _ => none, rfl⟩
  | some r =>
    obtain ⟨p, e, heq⟩ := hf r
    exact ⟨p, e, congrArg some heq⟩

/-! ## a pair that is not active -/

theorem abort_inactive {Q : PUnit → Coordinator σ → Prop} {E : Failure → Coordinator σ → Prop}
    (hin : s.lifecycle.active = false) (hQ : Q ⟨⟩ s) (next : PairLifecycle) (reason : String) (arm : Option Side) :
    Effect.Ends Q E (Coordinator.abort g h handler next reason arm) s := by
  unfold Coordinator.abort
  rw [Effect.ends_bind, Effect.ends_get]
  exact Effect.ends_ite (fun ha => absurd (hin.symm.trans ha) Bool.false_ne_true) fun _ => hQ

/-- the handler only answers where no pair is active -/
def Quietly (g : Group) (handler : String → Event → Coordinator.M σ PUnit) : Prop :=
  ∀ s, s.lifecycle.active = false → ∀ armId e, Effect.Holds (Idles g [] s) (handler armId e) s

theorem idles_event (hin : s.lifecycle.active = false) (armId : String) (e : Event) :
    Effect.Holds (Idles g [] s) (Coordinator.onMemberEventWith g h handler armId e) s := by
  unfold Coordinator.onMemberEventWith
  have hrefl : Idles g [] s s := .of_same rfl rfl rfl rfl
  cases g.sideOf armId with
  | none => exact hrefl
  | some a =>
    show Effect.Ends _ _ (get >>= _) s
    rw [Effect.ends_bind, Effect.ends_get]
    cases hr : s.run with
    | none => exact hrefl
    | some r =>
      have hnoted : Idles g [] s (s.add (.event a e)) := .add hr trivial
      have hin' : (s.add (.event a e)).lifecycle.active = false := hin
      have hrin : r.lifecycle.active = false := by
        rw [Coordinator.lifecycle, hr] at hin
        exact hin
      show Effect.Ends _ _ (Coordinator.note (.event a e) >>= fun _ => Coordinator.onEvent g h handler r a e) s
      unfold Coordinator.note Coordinator.onEvent
      rw [Effect.ends_bind, Effect.ends_modify]
      refine Effect.ends_ite (fun _ => hnoted) fun _ => Effect.ends_ite (fun _ => abort_inactive hin' hnoted _ _ _) fun _ =>
        Effect.ends_ite (fun _ => abort_inactive hin' hnoted _ _ _) fun _ => Effect.ends_ite (fun _ => hnoted) fun _ => ?_
      cases e.kind with
      | planCleared =>
        refine Effect.ends_ite (fun _ => ?_) fun _ => hnoted
        exact Effect.ends_ite (fun _ => hnoted.trans (.answered fun r => ⟨_, _, rfl⟩)) fun _ =>
          hnoted.trans (.answered fun r => ⟨_, _, rfl⟩)
      | planStaged =>
        refine Effect.ends_ite (fun hstaging => ?_) fun _ => hnoted
        rw [hstaging.1] at hrin
        cases hrin
      | legResult =>
        refine Effect.ends_ite (fun hactive => ?_) fun _ => Effect.ends_ite (fun hexec => ?_) fun _ => hnoted
        · exact absurd (hrin.symm.trans hactive.1) Bool.false_ne_true
        · rw [hexec.1] at hrin
          cases hrin
      | fault => exact hnoted
      | other => exact hnoted

theorem quietly_none : Quietly g (σ := σ) fun _ _ => pure ⟨⟩ := fun _ _ _ _ => .of_same rfl rfl rfl rfl

theorem quietly_onMemberEvent (n : ℕ) : Quietly g (Coordinator.onMemberEvent g h n) := by
  intro s hin armId e
  cases n with
  | zero => exact idles_event hin armId e
  | succ n => exact idles_event hin armId e

theorem deliver_idles (hq : Quietly g handler) (hin : s.lifecycle.active = false) (events : List (String × Event)) :
    Effect.Holds (Idles g [] s) (Coordinator.deliver handler events) s := by
  refine Effect.Ends.each (.of_same rfl rfl rfl rfl) fun x _ t ht => ?_
  rw [Effect.ends_tryCatch]
  have hrest := hq t (ht.lifecycle ▸ hin) x.1 x.2
  exact hrest.mono (fun _ u hu => ht.trans hu) fun _ u hu => ht.trans hu

/-- a cancel reaches the handle, and its answers change nothing else -/
theorem cancel_idles (hq : Quietly g handler) (hin : s.lifecycle.active = false) (hr : s.run = some r) (a : Side)
    (reason : String) :
    Effect.Holds (Idles g [a] s) (Coordinator.call h handler (.cancel a reason (g.member r.plan a).planId)) s := by
  have hcalled : Idles g [a] s (s.add (.called (.cancel a reason (g.member r.plan a).planId))) :=
    { Idles.add (g := g) hr (x := .called (.cancel a reason (g.member r.plan a).planId)) rfl with
      log := ⟨[_], rfl, fun y hy => ⟨r, hr, List.mem_singleton.mp hy ▸ rfl⟩, fun b hb =>
        ⟨r, reason, hr, List.mem_singleton.mp hb ▸ List.mem_singleton_self _⟩⟩ }
  unfold Coordinator.call Coordinator.note Effect.Holds
  rw [Effect.ends_bind, Effect.ends_modify, Effect.ends_bind, Effect.ends_get, Effect.ends_bind, Effect.ends_set,
    Effect.ends_bind]
  generalize (h.answer _ _).2 = w
  generalize (h.answer _ _).1 = reply
  have hworld : Idles g [a] s { s.add (.called (.cancel a reason (g.member r.plan a).planId)) with world := w } :=
    ⟨hcalled.run, hcalled.pairs, hcalled.plans, hcalled.log⟩
  refine (deliver_idles hq (hworld.lifecycle ▸ hin) reply.events).mono (fun _ u hu => ?_) fun _ u hu => hworld.trans hu
  cases reply.raised with
  | none => exact hworld.trans hu
  | some e => exact hworld.trans hu

theorem sendCancel_idles (hq : Quietly g handler) (hin : s.lifecycle.active = false) {r₀ : PairRun}
    (hr : s.run = some r) (hplan : r₀.plan = r.plan) (a : Side) :
    Effect.Ends (fun _ => Idles g [a] s) (fun _ _ => False) (Coordinator.sendCancel g h handler r₀ a) s := by
  unfold Coordinator.sendCancel Coordinator.updateRun
  rw [Effect.ends_tryCatch, Effect.ends_bind, hplan]
  refine (cancel_idles hq hin hr a r₀.reason).mono (fun _ t ht => ?_) fun _ t ht => ?_
  · exact ht.trans (.answered fun r => ⟨_, _, rfl⟩)
  · exact ht.trans (.answered fun r => ⟨_, _, rfl⟩)

theorem cancels_idles (hq : Quietly g handler) {r₀ : PairRun} (as : List Side) :
    ∀ {s : Coordinator σ} {r : PairRun}, s.lifecycle.active = false → s.run = some r → r₀.plan = r.plan →
      Effect.Ends (fun _ => Idles g as s) (fun _ _ => False) (Effect.each as (Coordinator.sendCancel g h handler r₀)) s := by
  induction as with
  | nil => exact fun _ _ _ => .of_same rfl rfl rfl rfl
  | cons a as ih =>
    intro s r hin hr hplan
    show Effect.Ends _ _ (Coordinator.sendCancel g h handler r₀ a >>= fun _ => Effect.each as _) s
    rw [Effect.ends_bind]
    refine (sendCancel_idles hq hin hr hplan a).mono (fun _ t ht => ?_) fun _ _ hf => hf
    obtain ⟨p, e, hrun⟩ := ht.run
    rw [hr] at hrun
    exact (ih (ht.lifecycle ▸ hin) hrun hplan).mono (fun _ u hu => ht.trans hu) fun _ _ hf => hf

theorem sendCancels_idles (hq : Quietly g handler) (hin : s.lifecycle.active = false) (hr : s.run = some r) :
    Effect.Ends (fun _ => Idles g (g.setOrder.filter fun a => r.pendingCancels a) s) (fun _ _ => False)
      (Coordinator.sendCancels g h handler) s := by
  unfold Coordinator.sendCancels
  rw [Effect.ends_bind, Effect.ends_get, hr]
  exact cancels_idles hq _ hin hr rfl

/-! ## between two steps -/

/-- the run and its log, with every early end answered -/
structure Sound (g : Group) (clean : Prop) (s : Coordinator σ) : Prop where
  tied : Tied g clean s
  answered : Answered g s.log

/-- no other pair owns the group -/
def SamePlan (s t : Coordinator σ) : Prop := t.run.map PairRun.plan = s.run.map PairRun.plan

variable {clean : Prop}

theorem SamePlan.some (hp : SamePlan s t) (hr : s.run = some r) : ∃ r', t.run = some r' ∧ r'.plan = r.plan := by
  unfold SamePlan at hp
  rw [hr] at hp
  exact Option.map_eq_some_iff.mp hp

theorem Sound.world (hs : Sound g clean s) (w : σ) : Sound g clean { s with world := w } :=
  ⟨hs.tied.congr rfl rfl rfl rfl, hs.answered⟩

theorem ends_onWorld {m : EStateM Failure σ α} {Q : α → Coordinator σ → Prop} {E : Failure → Coordinator σ → Prop} :
    Effect.Ends Q E (Coordinator.onWorld m) s ↔
      Effect.Ends (fun a w => Q a { s with world := w }) (fun e w => E e { s with world := w }) m s.world :=
  Effect.ends_zoom

@[simp] theorem ends_now {Q : ℚ → Coordinator σ → Prop} {E : Failure → Coordinator σ → Prop} :
    Effect.Ends Q E (Coordinator.now h) s ↔ Q (h.clock s.world).1 { s with world := (h.clock s.world).2 } := Iff.rfl

theorem active_of_run (hr : s.run = some r) : s.lifecycle = r.lifecycle := by
  rw [Coordinator.lifecycle, hr]
  rfl

theorem Tied.of_inactive (ht : Tied g clean s) (hin : s.lifecycle.active = false) : Tied g True s :=
  { ht with
    tracked := fun r hr => by
      obtain ⟨states, since, hstaged, htrack, -⟩ := ht.tracked r hr
      rw [active_of_run hr] at hin
      exact ⟨states, since, hstaged, htrack, fun _ ha => absurd (hin.symm.trans ha) Bool.false_ne_true⟩ }

theorem Tied.answers (new : List Entry) :
    ∀ {s : Coordinator σ}, Tied g clean s → s.lifecycle.active = false →
      (∀ x ∈ new, ∃ r, s.run = some r ∧ Answer g r.plan x) → Tied g clean { s with log := s.log ++ new } := by
  induction new with
  | nil =>
    intro s ht _ _
    exact ht.congr rfl (List.append_nil _) rfl rfl
  | cons x new ih =>
    intro s ht hin hall
    obtain ⟨r, hr, hans⟩ := hall x List.mem_cons_self
    have hmove : x.move = none := by
      cases x with
      | moved plan l => exact hans.elim
      | called c => rfl
      | event a e => rfl
      | checked now states => rfl
    have hadmits : Admits g s.log x := by
      cases x with
      | called c =>
        cases c with
        | cancel a reason planId => exact ⟨r.plan, r.lifecycle, ht.current_eq hr, active_of_run hr ▸ hin, hans⟩
        | stage a plan => exact hans.elim
        | execute a planId => exact hans.elim
      | event a e => trivial
      | moved plan l => exact hans.elim
      | checked now states => exact hans.elim
    have hnoted : Tied g clean (s.add x) := ht.note hmove hadmits fun hc => ⟨hc, fun r' _ _ hr' ha => by
      rw [active_of_run hr'] at hin
      exact absurd (hin.symm.trans ha) Bool.false_ne_true⟩
    have hrest := ih hnoted hin fun y hy => hall y (List.mem_cons_of_mem _ hy)
    exact hrest.congr rfl (List.append_cons _ _ _) rfl rfl

theorem Tied.idles {as : List Side} (ht : Tied g clean s) (hin : s.lifecycle.active = false) (hi : Idles g as s t) :
    Tied g True t := by
  obtain ⟨p, e, hrun⟩ := hi.run
  obtain ⟨new, hlog, hall, -⟩ := hi.log
  have hupdated := (ht.answers new hin hall).update (f := fun r => { r with pendingCancels := p, cancelErrors := e })
    (fun _ => rfl) (fun _ => rfl) fun r states since _ _ htrack => ⟨{ htrack with }, fun _ hg => { hg with }⟩
  exact (hupdated.congr hrun hlog hi.pairs hi.plans).of_inactive (hi.lifecycle ▸ hin)

theorem answer_unmoved {plan p : BimanualPlan} {l : PairLifecycle} (hans : Answer g plan (.moved p l)) : False := hans

theorem Sound.idles {as : List Side} (hs : Sound g clean s) (hin : s.lifecycle.active = false) (hi : Idles g as s t) :
    Sound g True t := by
  refine ⟨hs.tied.idles hin hi, ?_⟩
  obtain ⟨new, hlog, hall, -⟩ := hi.log
  rw [hlog]
  refine hs.answered.append fun p l hp => ?_
  obtain ⟨r, -, hans⟩ := hall _ hp
  exact (answer_unmoved hans).elim

theorem Idles.samePlan {as : List Side} (hi : Idles g as s t) : SamePlan s t := by
  obtain ⟨p, e, hrun⟩ := hi.run
  unfold SamePlan
  rw [hrun, Option.map_map]
  rfl

theorem mem_setOrder (g : Group) (a : Side) : a ∈ g.setOrder := by
  unfold Group.setOrder
  split_ifs <;> cases a <;> decide

theorem inactive_of_aborted {l : PairLifecycle} (hl : l.aborted = true) : l.active = false := by
  cases l <;> first | rfl | cases hl

theorem ended_tied (ht : Tied g clean s) (hr : s.run = some r) (hactive : r.lifecycle.active = true)
    {next : PairLifecycle} (hnext : next.aborted = true) (reason : String) (arm : Option Side) (now : ℚ) :
    Tied g True (s.enter next (Coordinator.ending reason arm now)) := by
  have hin := inactive_of_aborted hnext
  have hne : ∀ l : PairLifecycle, l.aborted = false → next ≠ l := by
    rintro l hl rfl
    exact absurd (hl.symm.trans hnext) Bool.false_ne_true
  refine ht.moved hr ?_ (hne _ rfl) rfl (fun ha => absurd (hin.symm.trans ha) Bool.false_ne_true)
    (fun _ _ hg => { hg with }) fun states since htrack => ?_
  · have hcurrent : ∃ l, current s.log = some (r.plan, l) ∧ l.active = true := ⟨_, ht.current_eq hr, hactive⟩
    cases next with
    | cancelled => exact hcurrent
    | faulted => exact hcurrent
    | rejected => exact hcurrent
    | idle => cases hnext
    | staging => cases hnext
    | ready => cases hnext
    | executing => cases hnext
    | complete => cases hnext
  · exact
      { htrack with
        acked := fun a t hack => (htrack.acked a t hack).append _
        both := fun hl => by
          rcases hl with hl | hl
          · exact absurd hl (hne _ rfl)
          · exact absurd hl (hne _ rfl)
        succeeded := fun a t hres => (htrack.succeeded a t hres).append _
        unreleased := fun hl => by
          rcases hl with hl | hl
          · exact absurd hl (hne _ rfl)
          · exact absurd hl (hne _ rfl)
        uncancelled := fun ha => absurd (hin.symm.trans ha) Bool.false_ne_true }

/-- the early end of an active pair, and the cancels of both members -/
theorem abort_sound (hq : Quietly g handler) (hs : Sound g clean s) {next : PairLifecycle} (hnext : next.aborted = true)
    (reason : String) (arm : Option Side) :
    Effect.Holds (fun t => Sound g True t ∧ t.lifecycle.active = false ∧ SamePlan s t)
      (Coordinator.abort g h handler next reason arm) s := by
  by_cases hactive : s.lifecycle.active = true
  · have hin := inactive_of_aborted hnext
    obtain ⟨r, hr⟩ : ∃ r, s.run = some r := by
      cases hr : s.run with
      | none =>
        rw [Coordinator.lifecycle, hr] at hactive
        cases hactive
      | some r => exact ⟨r, rfl⟩
    unfold Coordinator.abort Coordinator.move Effect.Holds
    rw [Effect.ends_bind, Effect.ends_get, if_pos hactive, Effect.ends_bind, ends_now]
    generalize (h.clock s.world).1 = now
    generalize (h.clock s.world).2 = w
    rw [Effect.ends_bind, Effect.ends_modify, Effect.ends_bind]
    have hmoved := ended_tied (hs.tied.congr (t := { s with world := w }) rfl rfl rfl rfl) hr
      (active_of_run hr ▸ hactive) hnext reason arm now
    have hrun : (Coordinator.enter next (Coordinator.ending reason arm now) { s with world := w }).run =
        some { Coordinator.ending reason arm now r with lifecycle := next } := by
      show s.run.map _ = _
      rw [hr]
      rfl
    have hlog : (Coordinator.enter next (Coordinator.ending reason arm now) { s with world := w }).log =
        s.log ++ [Entry.moved r.plan next] := by
      show s.log ++ (s.run.map _).toList = _
      rw [hr]
      rfl
    generalize Coordinator.enter next (Coordinator.ending reason arm now) { s with world := w } = m
      at hmoved hrun hlog ⊢
    have hm : m.lifecycle.active = false := active_of_run hrun ▸ hin
    refine (sendCancels_idles hq hm hrun).mono (fun _ t ht => ?_) fun _ _ hf => hf.elim
    have hplan : SamePlan s t := by
      refine ht.samePlan.trans ?_
      rw [hrun, hr]
      rfl
    have hanswered : Answered g t.log := by
      obtain ⟨new, hnew, hall, has⟩ := ht.log
      rw [hnew, hlog, List.append_assoc]
      have hans : ∀ x ∈ new, Answer g r.plan x := fun x hx => by
        obtain ⟨r', hr', hans⟩ := hall x hx
        obtain rfl := Option.some.inj (hrun.symm.trans hr')
        exact hans
      refine hs.answered.abort ⟨new, [], (List.append_nil _).symm, hans, fun a => ?_⟩ fun p l hp =>
        (answer_unmoved (hans _ hp)).elim
      obtain ⟨r', reason', hr', hmem⟩ := has a (List.mem_filter.mpr ⟨mem_setOrder g a, rfl⟩)
      obtain rfl := Option.some.inj (hrun.symm.trans hr')
      exact ⟨reason', hmem⟩
    have hsound : Sound g True t := ⟨hmoved.idles hm ht, hanswered⟩
    unfold Coordinator.finish
    rw [Effect.ends_bind, Effect.ends_get, ends_onWorld]
    exact Effect.ends_of (fun _ v _ => ⟨hsound.world v, ht.lifecycle ▸ hm, hplan⟩) fun _ v _ =>
      ⟨hsound.world v, ht.lifecycle ▸ hm, hplan⟩
  · have hin := Bool.eq_false_of_not_eq_true hactive
    exact abort_inactive hin ⟨⟨hs.tied.of_inactive hin, hs.answered⟩, hin, rfl⟩ _ _ _

/-! ## events -/

theorem Sound.noted (hs : Sound g True s) {a : Side} {e : Event}
    (hok : ∀ r states since, s.run = some r → r.lifecycle.active = true → Track g r states since →
      Going g r states since → ¬ Failing g r.plan states a since e) : Sound g True (s.add (.event a e)) := by
  refine ⟨hs.tied.note rfl trivial fun _ => ⟨trivial, fun r states since hr ha ht hg a' e' heq => ?_⟩, ?_⟩
  · obtain ⟨rfl, rfl⟩ := Entry.event.inj heq
    exact hok r states since hr ha ht hg
  · refine hs.answered.append fun p l hp => ?_
    cases List.mem_singleton.mp hp

theorem Sound.opened (hs : Sound g True s) (a : Side) (e : Event) : Sound g False (s.add (.event a e)) := by
  refine ⟨hs.tied.note rfl trivial False.elim, ?_⟩
  refine hs.answered.append fun p l hp => ?_
  cases List.mem_singleton.mp hp

theorem Sound.update (hs : Sound g clean s) {f : PairRun → PairRun} (hplan : ∀ r, (f r).plan = r.plan)
    (hlifecycle : ∀ r, (f r).lifecycle = r.lifecycle)
    (hf : ∀ r states since, s.run = some r → Staged r.plan states since s.log → Track g r states since →
      Track g (f r) states since ∧ (clean → Going g r states since → Going g (f r) states since)) :
    Sound g clean { s with run := s.run.map f } :=
  ⟨hs.tied.update hplan hlifecycle hf, hs.answered⟩

theorem samePlan_update {f : PairRun → PairRun} (hplan : ∀ r, (f r).plan = r.plan) :
    SamePlan s { s with run := s.run.map f } := by
  show (s.run.map f).map PairRun.plan = s.run.map PairRun.plan
  rw [Option.map_map]
  exact congrArg (fun k => s.run.map k) (funext hplan)

/-- the last entry of the log is part of what came since the staging -/
theorem Staged.mem_last {plan : BimanualPlan} {states : Side → ArmControlState} {since log : List Entry} {x : Entry}
    (hs : Staged plan states since (log ++ [x])) (hx : x.move = none) : x ∈ since := by
  obtain ⟨before, now, heq⟩ := hs.split
  rcases List.eq_nil_or_concat' since with rfl | ⟨since', y, rfl⟩
  · rw [show before ++ [Entry.checked now states, .moved plan .staging] =
      (before ++ [Entry.checked now states]) ++ [Entry.moved plan .staging] by rw [List.append_assoc]; rfl] at heq
    obtain ⟨-, hlast⟩ := List.append_inj' heq rfl
    rw [List.singleton_inj.mp hlast] at hx
    cases hx
  · rw [← List.cons_append, ← List.cons_append, ← List.append_assoc] at heq
    obtain ⟨-, hlast⟩ := List.append_inj' heq rfl
    rw [List.singleton_inj.mp hlast]
    exact List.mem_append_right _ (List.mem_singleton_self _)

theorem onCleared_sound (hs : Sound g True s) (run : PairRun) (a : Side) (e : Event) :
    Effect.Holds (fun t => Sound g True t ∧ SamePlan s t) (Coordinator.onCleared run a e) s := by
  have hkeep : ∀ f : PairRun → PairRun, (∀ r, ∃ p c, f r = { r with pendingCancels := p, cancelErrors := c }) →
      Sound g True { s with run := s.run.map f } ∧ SamePlan s { s with run := s.run.map f } := by
    intro f hf
    have hplan : ∀ r, (f r).plan = r.plan := fun r => by
      obtain ⟨p, c, heq⟩ := hf r
      rw [heq]
    refine ⟨hs.update hplan (fun r => ?_) fun r states since _ _ ht => ?_, samePlan_update hplan⟩
    · obtain ⟨p, c, heq⟩ := hf r
      rw [heq]
    · obtain ⟨p, c, heq⟩ := hf r
      rw [heq]
      exact ⟨{ ht with }, fun _ hg => { hg with }⟩
  refine Effect.ends_ite (fun _ => ?_) fun _ => ⟨hs, rfl⟩
  exact Effect.ends_ite (fun _ => hkeep _ fun r => ⟨_, _, rfl⟩) fun _ => hkeep _ fun r => ⟨_, _, rfl⟩

/-- an acknowledgement in the run's records -/
def withAck (a : Side) (ok : Bool) (reason : String) (acks : Side → Option (Bool × String)) (t : ℚ) (r : PairRun) :
    PairRun :=
  { r with
    stageAcks := Function.update acks a (some (ok, reason))
    ackTimes := Function.update r.ackTimes a (some t) }

theorem withAck_track {states : Side → ArmControlState} {since : List Entry} (ht : Track g r states since)
    (hstaging : r.lifecycle = .staging) {a : Side} {ok : Bool} (hok : ok = true → Acked g r.plan states a since)
    (reason : String) (t : ℚ) : Track g (withAck a ok reason r.stageAcks t r) states since :=
  { ht with
    acked := fun b text hb => by
      change Function.update r.stageAcks a (some (ok, reason)) b = some (true, text) at hb
      by_cases hab : b = a
      · rw [hab, Function.update_self] at hb
        rw [hab]
        exact hok (Prod.mk.inj (Option.some.inj hb)).1
      · rw [Function.update_of_ne hab] at hb
        exact ht.acked b text hb
    both := fun hl => by
      change r.lifecycle = .ready ∨ r.lifecycle = .executing at hl
      rw [hstaging] at hl
      rcases hl with hl | hl <;> cases hl }

/-- both members are acknowledged -/
theorem ready_sound (hs : Sound g True s) (hr : s.run = some r) (hstaging : r.lifecycle = .staging)
    (hboth : ∀ a, (r.stageAcks a).isSome) (t : ℚ) :
    Sound g True (s.enter .ready fun r => { r with readyAt := some t }) := by
  refine ⟨hs.tied.moved hr ?_ nofun rfl (fun _ => ⟨trivial, by rw [hstaging]; rfl⟩) (fun _ _ hg => { hg with })
    fun states since ht => ?_, ?_⟩
  · obtain ⟨states, since, hstaged, ht, hg⟩ := hs.tied.tracked r hr
    refine ⟨hstaging ▸ hs.tied.current_eq hr, states, since, hstaged, fun a => ?_⟩
    exact ht.acked_of_some (hg trivial (by rw [hstaging]; rfl)) (hboth a)
  · have hactive : r.lifecycle.active = true := by rw [hstaging]; rfl
    exact
      { ht with
        acked := fun a text hack => (ht.acked a text hack).append _
        both := fun _ => hboth
        succeeded := fun a text hres => (ht.succeeded a text hres).append _
        unreleased := fun _ p hp => by
          rcases Tied.mem_moved hp with hp | ⟨-, hl⟩
          · exact ht.unreleased (.inl hstaging) p hp
          · cases hl
        uncancelled := fun _ => ht.uncancelled hactive }
  · unfold Coordinator.enter
    rw [hr]
    refine hs.answered.append fun p l hp => ?_
    obtain ⟨-, rfl⟩ := Entry.moved.inj (List.mem_singleton.mp hp)
    rfl

/-- an acknowledgement of the run's own plan in its session -/
theorem onStaged_sound (hq : Quietly g handler) (hs : Sound g True s) (hr : s.run = some r) {a : Side} {e : Event}
    (hkind : e.kind = .planStaged) (hplan : e.planId = some (g.member r.plan a).planId)
    (hsession : e.session = some (r.sessions a)) :
    Effect.Holds (fun t => Sound g True t ∧ SamePlan s t) (Coordinator.onStaged g h handler r a e)
      (s.add (.event a e)) := by
  have hother : ∀ {states : Side → ArmControlState} {since : List Entry}, Track g r states since →
      ¬ (e.session.isSome ∧ e.session ≠ some (states a).sessionId) := by
    intro states since ht hne
    rw [hsession, ht.sessions] at hne
    exact hne.2 rfl
  unfold Coordinator.onStaged
  refine Effect.ends_ite (fun hfirst => ?_) fun hlate => ?_
  · rw [Effect.ends_bind, ends_now]
    generalize (h.clock _).1 = t₁
    generalize (h.clock _).2 = w₁
    show Effect.Ends _ _ (Coordinator.updateRun (withAck a e.ok (e.reason.getD "") r.stageAcks t₁) >>= _) _
    unfold Coordinator.updateRun
    rw [Effect.ends_bind, Effect.ends_modify]
    have hsame : SamePlan s { s.add (.event a e) with
        world := w₁, run := s.run.map (withAck a e.ok (e.reason.getD "") r.stageAcks t₁) } :=
      samePlan_update fun _ => rfl
    cases hok : e.ok with
    | false =>
      rw [if_pos rfl]
      have hopen : Sound g False { s.add (.event a e) with
          world := w₁, run := s.run.map (withAck a false (e.reason.getD "") r.stageAcks t₁) } := by
        refine ((hs.opened a e).world w₁).update (fun _ => rfl) (fun _ => rfl) fun r' states since hr' _ ht => ?_
        obtain rfl := Option.some.inj (hr.symm.trans hr')
        have htrack : Track g (withAck a false (e.reason.getD "") r.stageAcks t₁ r) states since :=
          withAck_track ht hfirst.1 (fun hf => by cases hf) _ _
        exact ⟨htrack, False.elim⟩
      refine (abort_sound hq hopen rfl _ _).mono (fun _ u hu => ⟨hu.1, ?_⟩) fun _ u hu => ⟨hu.1, ?_⟩
      · exact hu.2.2.trans (hok ▸ hsame)
      · exact hu.2.2.trans (hok ▸ hsame)
    | true =>
      rw [if_neg nofun]
      have hnoted : Sound g True (s.add (.event a e)) := hs.noted fun r' states since hr' _ ht _ hfail => by
        obtain rfl := Option.some.inj (hr.symm.trans hr')
        cases hfail with
        | restarted hne => exact hother ht hne
        | fault hfault => cases hkind.symm.trans hfault
        | failed hfailed => cases hkind.symm.trans hfailed
        | refused _ _ _ hbad _ => cases hok.symm.trans hbad
      have hacked : Sound g True { s.add (.event a e) with
          world := w₁, run := s.run.map (withAck a true (e.reason.getD "") r.stageAcks t₁) } := by
        refine (hnoted.world w₁).update (fun _ => rfl) (fun _ => rfl) fun r' states since hr' hstaged ht => ?_
        obtain rfl := Option.some.inj (hr.symm.trans hr')
        refine ⟨withAck_track ht hfirst.1 (fun _ => ⟨e, hstaged.mem_last rfl, hkind, hok, hplan, ?_⟩) _ _, fun _ hg => ?_⟩
        · rw [hsession, ht.sessions]
        · refine { hg with acks := fun b x text hb => ?_ }
          change Function.update r.stageAcks a (some (true, _)) b = some (x, text) at hb
          by_cases hab : b = a
          · rw [hab, Function.update_self] at hb
            exact (Prod.mk.inj (Option.some.inj hb)).1.symm
          · rw [Function.update_of_ne hab] at hb
            exact hg.acks b x text hb
      rw [hok] at hsame
      refine Effect.ends_ite (fun hboth => ?_) fun _ => ⟨hacked, hsame⟩
      unfold Coordinator.move
      rw [Effect.ends_bind, ends_now, Effect.ends_modify]
      generalize (h.clock _).1 = t₂
      generalize (h.clock _).2 = w₂
      have hrun : s.run.map (withAck a true (e.reason.getD "") r.stageAcks t₁) =
          some (withAck a true (e.reason.getD "") r.stageAcks t₁ r) := by
        rw [hr]
        rfl
      refine ⟨ready_sound (hacked.world w₂) hrun hfirst.1 (fun b => ?_) t₂, ?_⟩
      · cases b with
        | first => exact hboth.1
        | second => exact hboth.2
      · refine Eq.trans ?_ hsame
        show Option.map PairRun.plan (Option.map _ (Option.map _ s.run)) = Option.map PairRun.plan (Option.map _ s.run)
        rw [Option.map_map]
        rfl
  · refine ⟨hs.noted fun r' states since hr' hactive ht hg hfail => ?_, rfl⟩
    obtain rfl := Option.some.inj (hr.symm.trans hr')
    cases hfail with
    | restarted hne => exact hother ht hne
    | fault hfault => cases hkind.symm.trans hfault
    | failed hfailed => cases hkind.symm.trans hfailed
    | refused _ _ _ _ hnone =>
      refine hnone (ht.acked_of_some hg ?_)
      by_cases hstaging : r.lifecycle = .staging
      · exact Option.isSome_iff_ne_none.mpr fun hnone => hlate ⟨hstaging, hnone⟩
      · refine ht.both ?_ a
        cases hl : r.lifecycle with
        | ready => exact .inl rfl
        | executing => exact .inr rfl
        | staging => exact absurd hl hstaging
        | idle => rw [hl] at hactive; cases hactive
        | complete => rw [hl] at hactive; cases hactive
        | cancelled => rw [hl] at hactive; cases hactive
        | faulted => rw [hl] at hactive; cases hactive
        | rejected => rw [hl] at hactive; cases hactive

/-- a result in the run's records -/
def withResult (a : Side) (ok : Bool) (reason : String) (results : Side → Option (Bool × String)) (r : PairRun) :
    PairRun :=
  { r with results := Function.update results a (some (ok, reason)) }

theorem withResult_track {states : Side → ArmControlState} {since : List Entry} (ht : Track g r states since) {a : Side}
    {ok : Bool} (hok : ok = true → Succeeded g r.plan a since) (reason : String) :
    Track g (withResult a ok reason r.results r) states since :=
  { ht with
    succeeded := fun b text hb => by
      change Function.update r.results a (some (ok, reason)) b = some (true, text) at hb
      by_cases hab : b = a
      · rw [hab, Function.update_self] at hb
        rw [hab]
        exact hok (Prod.mk.inj (Option.some.inj hb)).1
      · rw [Function.update_of_ne hab] at hb
        exact ht.succeeded b text hb }

/-- both members have succeeded -/
theorem complete_sound (hs : Sound g True s) (hr : s.run = some r) (hexec : r.lifecycle = .executing)
    (hboth : ∀ a, (r.results a).isSome) (t : ℚ) :
    Sound g True (s.enter .complete fun r => { r with completedAt := some t }) := by
  have hactive : r.lifecycle.active = true := by rw [hexec]; rfl
  refine ⟨hs.tied.moved hr ?_ nofun rfl nofun (fun _ _ hg => { hg with }) fun states since ht => ?_, ?_⟩
  · obtain ⟨states, since, hstaged, ht, hg⟩ := hs.tied.tracked r hr
    have hgoing := hg trivial hactive
    refine ⟨hexec ▸ hs.tied.current_eq hr, states, since, hstaged, fun a => ?_, hgoing.unfailed⟩
    exact ht.succeeded_of_some hgoing (hboth a)
  · exact
      { ht with
        acked := fun a text hack => (ht.acked a text hack).append _
        both := fun hl => by rcases hl with hl | hl <;> cases hl
        succeeded := fun a text hres => (ht.succeeded a text hres).append _
        unreleased := fun hl => by rcases hl with hl | hl <;> cases hl
        uncancelled := nofun }
  · unfold Coordinator.enter
    rw [hr]
    refine hs.answered.append fun p l hp => ?_
    obtain ⟨-, rfl⟩ := Entry.moved.inj (List.mem_singleton.mp hp)
    rfl

/-- a result of the run's own plan -/
theorem onResult_sound (hq : Quietly g handler) (hs : Sound g True s) (hr : s.run = some r) {a : Side} {e : Event}
    (hkind : e.kind = .legResult) (hplan : e.planId = some (g.member r.plan a).planId)
    (hsession : ¬ (e.session.isSome ∧ e.session ≠ some (r.sessions a))) :
    Effect.Holds (fun t => Sound g True t ∧ SamePlan s t) (Coordinator.onResult g h handler r a e)
      (s.add (.event a e)) := by
  unfold Coordinator.onResult
  refine Effect.ends_ite (fun hbad => ?_) fun hgood => ?_
  · show Effect.Ends _ _ (Coordinator.updateRun (withResult a false (e.reason.getD "") r.results) >>= _) _
    unfold Coordinator.updateRun
    rw [Effect.ends_bind, Effect.ends_modify]
    have hopen : Sound g False { s.add (.event a e) with
        run := s.run.map (withResult a false (e.reason.getD "") r.results) } := by
      refine (hs.opened a e).update (fun _ => rfl) (fun _ => rfl) fun r' states since hr' _ ht => ?_
      obtain rfl := Option.some.inj (hr.symm.trans hr')
      have htrack : Track g (withResult a false (e.reason.getD "") r.results r) states since :=
        withResult_track ht (fun hf => by cases hf) _
      exact ⟨htrack, False.elim⟩
    have hsame : SamePlan s { s.add (.event a e) with
        run := s.run.map (withResult a false (e.reason.getD "") r.results) } := samePlan_update fun _ => rfl
    exact (abort_sound hq hopen rfl _ _).mono (fun _ u hu => ⟨hu.1, hu.2.2.trans hsame⟩)
      fun _ u hu => ⟨hu.1, hu.2.2.trans hsame⟩
  · have hnoted : Sound g True (s.add (.event a e)) := hs.noted fun r' states since hr' hactive ht _ hfail => by
      obtain rfl := Option.some.inj (hr.symm.trans hr')
      cases hfail with
      | restarted hne =>
        rw [← ht.sessions] at hne
        exact hsession hne
      | fault hfault => cases hkind.symm.trans hfault
      | failed _ _ hbad => exact hgood ⟨hactive, hbad⟩
      | refused hstaged _ _ _ _ => cases hkind.symm.trans hstaged
    refine Effect.ends_ite (fun hfirst => ?_) fun _ => ⟨hnoted, rfl⟩
    have hok : e.ok = true := by
      refine Bool.of_not_eq_false fun hbad => hgood ⟨?_, hbad⟩
      rw [hfirst.1]
      rfl
    show Effect.Ends _ _ (Coordinator.updateRun (withResult a true (e.reason.getD "") r.results) >>= _) _
    unfold Coordinator.updateRun
    rw [Effect.ends_bind, Effect.ends_modify]
    have hkept : Sound g True { s.add (.event a e) with
        run := s.run.map (withResult a true (e.reason.getD "") r.results) } := by
      refine hnoted.update (fun _ => rfl) (fun _ => rfl) fun r' states since hr' hstaged ht => ?_
      obtain rfl := Option.some.inj (hr.symm.trans hr')
      refine ⟨withResult_track ht (fun _ => ⟨e, hstaged.mem_last rfl, hkind, hok, hplan⟩) _, fun _ hg => ?_⟩
      refine { hg with results := fun b x text hb => ?_ }
      change Function.update r.results a (some (true, _)) b = some (x, text) at hb
      by_cases hab : b = a
      · rw [hab, Function.update_self] at hb
        exact (Prod.mk.inj (Option.some.inj hb)).1.symm
      · rw [Function.update_of_ne hab] at hb
        exact hg.results b x text hb
    have hsame : SamePlan s { s.add (.event a e) with
        run := s.run.map (withResult a true (e.reason.getD "") r.results) } := samePlan_update fun _ => rfl
    refine Effect.ends_ite (fun hboth => ?_) fun _ => ⟨hkept, hsame⟩
    unfold Coordinator.move Coordinator.finish
    rw [Effect.ends_bind, ends_now, Effect.ends_bind, Effect.ends_modify, Effect.ends_bind, Effect.ends_get,
      ends_onWorld]
    generalize (h.clock _).1 = t₂
    generalize (h.clock _).2 = w₂
    have hrun : s.run.map (withResult a true (e.reason.getD "") r.results) =
        some (withResult a true (e.reason.getD "") r.results r) := by
      rw [hr]
      rfl
    have hdone := complete_sound (hkept.world w₂) hrun hfirst.1 (fun b => by
      cases b with
      | first => exact hboth.1
      | second => exact hboth.2) t₂
    have hsame' : SamePlan s (Coordinator.enter .complete (fun r => { r with completedAt := some t₂ })
        { s.add (.event a e) with
          world := w₂, run := s.run.map (withResult a true (e.reason.getD "") r.results) }) := by
      refine Eq.trans ?_ hsame
      show Option.map PairRun.plan (Option.map _ (Option.map _ s.run)) = Option.map PairRun.plan (Option.map _ s.run)
      rw [Option.map_map]
      rfl
    exact Effect.ends_of (fun _ v _ => ⟨hdone.world v, hsame'⟩) fun _ v _ => ⟨hdone.world v, hsame'⟩

/-- an event keeps the coordinator sound -/
theorem event_sound (hq : Quietly g handler) (hs : Sound g True s) (armId : String) (e : Event) :
    Effect.Holds (fun t => Sound g True t ∧ SamePlan s t) (Coordinator.onMemberEventWith g h handler armId e) s := by
  unfold Coordinator.onMemberEventWith
  cases g.sideOf armId with
  | none => exact ⟨hs, rfl⟩
  | some a =>
    show Effect.Ends _ _ (get >>= _) s
    rw [Effect.ends_bind, Effect.ends_get]
    cases hr : s.run with
    | none => exact ⟨hs, rfl⟩
    | some r =>
      show Effect.Ends _ _ (Coordinator.note (.event a e) >>= fun _ => Coordinator.onEvent g h handler r a e) s
      unfold Coordinator.note Coordinator.onEvent
      rw [Effect.ends_bind, Effect.ends_modify]
      have habort : ∀ reason, Effect.Holds (fun t => Sound g True t ∧ SamePlan s t)
          (Coordinator.abort g h handler .faulted reason (some a)) (s.add (.event a e)) := fun reason =>
        (abort_sound hq (hs.opened a e) rfl reason (some a)).mono (fun _ u hu => ⟨hu.1, hu.2.2⟩)
          fun _ u hu => ⟨hu.1, hu.2.2⟩
      refine Effect.ends_ite (fun hunbound => ⟨hs.noted ?_, rfl⟩) fun hbound =>
        Effect.ends_ite (fun _ => habort _) fun hsession =>
        Effect.ends_ite (fun _ => habort _) fun hfault => Effect.ends_ite (fun hforeign => ⟨hs.noted ?_, rfl⟩) fun hown => ?_
      · intro r' states since hr' _ ht _ hfail
        cases hfail with
        | restarted hne =>
          rw [hunbound.2] at hne
          cases hne.1
        | fault hf => rcases hunbound.1 with hk | hk <;> cases hk.symm.trans hf
        | failed hf => rcases hunbound.1 with hk | hk <;> cases hk.symm.trans hf
        | refused _ _ hsome _ _ => cases hunbound.2.symm.trans hsome
      · intro r' states since hr' _ ht _ hfail
        obtain rfl := Option.some.inj (hr.symm.trans hr')
        cases hfail with
        | restarted hne =>
          rw [← ht.sessions] at hne
          exact hsession hne
        | fault hf => exact hfault hf
        | failed _ hp _ => exact hforeign hp
        | refused _ hp _ _ _ => exact hforeign hp
      · have hplan := not_not.mp hown
        have hother : ∀ {states : Side → ArmControlState} {since : List Entry}, Track g r states since →
            ¬ (e.session.isSome ∧ e.session ≠ some (states a).sessionId) := fun ht hne => by
          rw [← ht.sessions] at hne
          exact hsession hne
        cases hkind : e.kind with
        | planCleared =>
          refine onCleared_sound (hs.noted fun r' states since hr' _ ht _ hfail => ?_) r a e
          obtain rfl := Option.some.inj (hr.symm.trans hr')
          cases hfail with
          | restarted hne => exact hother ht hne
          | fault hf => cases hkind.symm.trans hf
          | failed hf => cases hkind.symm.trans hf
          | refused hf => cases hkind.symm.trans hf
        | planStaged =>
          have hsome : e.session.isSome := Option.isSome_iff_ne_none.mpr fun hnone => hbound ⟨.inl hkind, hnone⟩
          exact onStaged_sound hq hs hr hkind hplan (not_not.mp fun hne => hsession ⟨hsome, hne⟩)
        | legResult => exact onResult_sound hq hs hr hkind hplan hsession
        | fault => exact absurd hkind hfault
        | other =>
          refine ⟨hs.noted fun r' states since hr' _ ht _ hfail => ?_, rfl⟩
          obtain rfl := Option.some.inj (hr.symm.trans hr')
          cases hfail with
          | restarted hne => exact hother ht hne
          | fault hf => cases hkind.symm.trans hf
          | failed hf => cases hkind.symm.trans hf
          | refused hf => cases hkind.symm.trans hf

/-- the handler keeps the coordinator sound -/
def Steady (g : Group) (handler : String → Event → Coordinator.M σ PUnit) : Prop :=
  ∀ s, Sound g True s → ∀ armId e, Effect.Holds (fun t => Sound g True t ∧ SamePlan s t) (handler armId e) s

theorem steady_onMemberEvent (n : ℕ) : Steady g (Coordinator.onMemberEvent g h n) := by
  intro s hs armId e
  cases n with
  | zero => exact event_sound quietly_none hs armId e
  | succ n => exact event_sound (quietly_onMemberEvent n) hs armId e

end ArmControl.MultiArm
