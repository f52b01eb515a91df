import ArmControl.MultiArm.PairRetirement
import ArmControl.MultiArm.ReleaseContext

/-!
# No arm plays a leg of a pair alone

* `Passes`          what an event may do to the pair and to what is sent;
* `Collects`        `execute_pair` up to the end of its `with`;
* `Together`        both members play, or none and both are cancelled;
* `Orderly`         when they do: an abort in the second member's poll leaves two deferred releases, which go out
                    although the pair has ended.
-/

namespace ArmControl.MultiArm.PairHardware

open Coordinator
open Retirement (benchGroup benchPlan benchState)

variable {σ α : Type} {g : Group} {v : Supervisors σ} {s t u : Coordinator (Hardware σ)} {r run : PairRun}
  {handler : String → Event → M (Hardware σ) PUnit}

/-! ## what an event may send -/

/-- how a pair goes on by itself -/
inductive Onward : PairLifecycle → PairLifecycle → Prop where
  | same (l : PairLifecycle) : Onward l l
  | ready : Onward .staging .ready
  | complete : Onward .executing .complete

theorem Onward.trans {k l m : PairLifecycle} (h₁ : Onward k l) (h₂ : Onward l m) : Onward k m := by
  cases h₁ with
  | same => exact h₂
  | ready =>
    cases h₂ with
    | same => exact .ready
  | complete =>
    cases h₂ with
    | same => exact .complete

theorem Onward.active {l m : PairLifecycle} (h : Onward l m) (hm : m.active = true) : l.active = true := by
  cases h with
  | same => exact hm
  | ready => rfl
  | complete => rfl

theorem Onward.of_inactive {l m : PairLifecycle} (h : Onward l m) (hin : l.active = false) : m = l := by
  cases h with
  | same => rfl
  | ready => cases hin
  | complete => cases hin

theorem Onward.not_aborted {l m : PairLifecycle} (h : Onward l m) (hactive : l.active = true) : m.aborted = false := by
  cases h with
  | same => cases l <;> first | rfl | cases hactive
  | ready => rfl
  | complete => rfl

/-- nothing is sent, or the pair ends and both members are cancelled -/
inductive Course (s t : Coordinator (Hardware σ)) : Prop where
  | quiet (hsent : t.world.sent = s.world.sent) (honward : Onward s.lifecycle t.lifecycle)
  | ended (hactive : s.lifecycle.active = true) (haborted : t.lifecycle.aborted = true) (new : List Sent)
    (hsent : t.world.sent = s.world.sent ++ new) (hcancels : ∀ x ∈ new, x.isRelease = false) (hboth : ∀ a, .cancel a ∈ new)

theorem Course.trans (h₁ : Course s t) (h₂ : Course t u) : Course s u := by
  cases h₁ with
  | quiet hsent honward =>
    cases h₂ with
    | quiet hsent' honward' => exact .quiet (hsent'.trans hsent) (honward.trans honward')
    | ended hactive haborted new hsent' hcancels hboth =>
      exact .ended (honward.active hactive) haborted new (hsent'.trans (by rw [hsent])) hcancels hboth
  | ended hactive haborted new hsent hcancels hboth =>
    cases h₂ with
    | quiet hsent' honward' =>
      exact .ended hactive (honward'.of_inactive (inactive_of_aborted haborted) ▸ haborted) new (hsent'.trans hsent) hcancels hboth
    | ended hactive' _ _ _ _ _ => exact absurd (inactive_of_aborted haborted) (by rw [hactive']; exact nofun)

structure Passes (s t : Coordinator (Hardware σ)) : Prop where
  course : Course s t
  deferred : t.world.deferred = s.world.deferred

theorem Passes.trans (h₁ : Passes s t) (h₂ : Passes t u) : Passes s u :=
  ⟨h₁.course.trans h₂.course, h₂.deferred.trans h₁.deferred⟩

theorem Passes.of_quiet (hlife : t.lifecycle = s.lifecycle) (hsent : t.world.sent = s.world.sent)
    (hdeferred : t.world.deferred = s.world.deferred) : Passes s t :=
  ⟨.quiet hsent (hlife ▸ .same _), hdeferred⟩

theorem Passes.refl : Passes s s := .of_quiet rfl rfl rfl

theorem passes_inside (m : EStateM Failure σ α) :
    Effect.Holds (fun t => Passes s t ∧ t.run = s.run) (onWorld (Supervisors.inside m)) s := by
  unfold Effect.Holds Supervisors.inside
  rw [ends_onWorld, Effect.ends_zoom]
  exact Effect.ends_of (fun _ _ _ => ⟨.of_quiet rfl rfl rfl, rfl⟩) fun _ _ _ => ⟨.of_quiet rfl rfl rfl, rfl⟩

theorem passes_now : Passes s { s with world := (v.handles.clock s.world).2 } := .of_quiet rfl rfl rfl

theorem passes_update {f : PairRun → PairRun} {E : Failure → Coordinator (Hardware σ) → Prop}
    (hf : ∀ r, (f r).lifecycle = r.lifecycle) : Effect.Ends (fun _ => Passes s) E (updateRun f) s := by
  refine .of_quiet ?_ rfl rfl
  show (s.run.map f |>.map PairRun.lifecycle).getD .idle = (s.run.map PairRun.lifecycle).getD .idle
  cases s.run with
  | none => rfl
  | some r => exact hf r

/-- the pair enters `next` -/
theorem lifecycle_enter (hr : s.run = some r) (next : PairLifecycle) (f : PairRun → PairRun) :
    (s.enter next f).lifecycle = next := by
  unfold Coordinator.lifecycle Coordinator.enter
  rw [hr]
  rfl

/-! ## cancels -/

def Passing (handler : String → Event → M (Hardware σ) PUnit) : Prop :=
  ∀ s armId e, Effect.Holds (Passes s) (handler armId e) s

theorem deliver_passes (hh : Passing handler) (events : List (String × Event)) :
    Effect.Holds (Passes s) (deliver handler events) s := by
  refine Effect.Ends.each .refl fun x _ t ht => ?_
  rw [Effect.ends_tryCatch]
  exact (hh t x.1 x.2).mono (fun _ _ hu => ht.trans hu) fun _ _ hu => ht.trans hu

/-- what the cancels of `as` do to a pair that has ended -/
structure Cancels (as : List Side) (s t : Coordinator (Hardware σ)) : Prop where
  lifecycle : t.lifecycle = s.lifecycle
  deferred : t.world.deferred = s.world.deferred
  sent : t.world.sent = s.world.sent ++ as.map Sent.cancel

theorem Passes.cancels (hp : Passes s t) (hl : s.lifecycle.aborted = true) : Cancels [] s t := by
  cases hp.course with
  | quiet hsent honward => exact ⟨honward.of_inactive (inactive_of_aborted hl), hp.deferred, hsent.trans (List.append_nil _).symm⟩
  | ended hactive _ _ _ _ _ => exact absurd (inactive_of_aborted hl) (by rw [hactive]; exact nofun)

theorem Cancels.trans {as bs : List Side} (h₁ : Cancels as s t) (h₂ : Cancels bs t u) : Cancels (as ++ bs) s u :=
  ⟨h₂.lifecycle.trans h₁.lifecycle, h₂.deferred.trans h₁.deferred, by
    rw [h₂.sent, h₁.sent, List.map_append, List.append_assoc]⟩

theorem call_cancels (hh : Passing handler) (hl : s.lifecycle.aborted = true) (a : Side) (reason planId : String) :
    Effect.Holds (Cancels [a] s) (call v.handles handler (.cancel a reason planId)) s := by
  unfold call note Effect.Holds
  rw [Effect.ends_bind, Effect.ends_modify, Effect.ends_bind, Effect.ends_get, Effect.ends_bind, Effect.ends_set,
    Effect.ends_bind]
  have hcalled : Cancels [a] s
      { s.add (.called (.cancel a reason planId)) with world := (v.handles.answer (.cancel a reason planId) s.world).2 } :=
    ⟨rfl, rfl, rfl⟩
  refine (deliver_passes hh _).mono (fun _ u hu => ?_) fun _ u hu => hcalled.trans (hu.cancels hl)
  have hdone := hcalled.trans (hu.cancels hl)
  cases (v.handles.answer (.cancel a reason planId) (s.add (.called (.cancel a reason planId))).world).1.raised with
  | none => exact hdone
  | some e => exact hdone

theorem sendCancel_cancels (hh : Passing handler) (hl : s.lifecycle.aborted = true) (r : PairRun) (a : Side) :
    Effect.Ends (fun _ => Cancels [a] s) (fun _ _ => False) (sendCancel g v.handles handler r a) s := by
  unfold sendCancel
  rw [Effect.ends_tryCatch, Effect.ends_bind]
  have hnoted : ∀ t, Cancels [a] s t → ∀ u, Passes t u → Cancels [a] s u := fun t ht u hu =>
    ht.trans (hu.cancels (ht.lifecycle ▸ hl))
  refine (call_cancels hh hl a _ _).mono (fun _ t ht => ?_) fun _ t ht => ?_
  · exact Effect.Ends.mono (passes_update (by exact fun _ => rfl)) (fun _ u hu => hnoted t ht u hu) fun _ _ hf => hf
  · exact Effect.Ends.mono (passes_update (by exact fun _ => rfl)) (fun _ u hu => hnoted t ht u hu) fun _ _ hf => hf

theorem cancels_each (hh : Passing handler) (r : PairRun) (as : List Side) :
    ∀ {s : Coordinator (Hardware σ)}, s.lifecycle.aborted = true →
      Effect.Ends (fun _ => Cancels as s) (fun _ _ => False) (Effect.each as (sendCancel g v.handles handler r)) s := by
  induction as with
  | nil => exact fun _ => ⟨rfl, rfl, (List.append_nil _).symm⟩
  | cons a as ih =>
    intro s hl
    show Effect.Ends _ _ (sendCancel g v.handles handler r a >>= fun _ => Effect.each as _) s
    rw [Effect.ends_bind]
    refine (sendCancel_cancels hh hl r a).mono (fun _ t ht => ?_) fun _ _ hf => hf
    exact (ih (ht.lifecycle ▸ hl)).mono (fun _ u hu => ht.trans hu) fun _ _ hf => hf

/-- the early end of a pair in flight cancels both members; another pair it leaves alone -/
theorem abort_passes (hh : Passing handler) {next : PairLifecycle} (hnext : next.aborted = true) (reason : String)
    (arm : Option Side) :
    Effect.Holds (fun t => Passes s t ∧ (s.lifecycle.active = true → t.lifecycle.aborted = true))
      (abort g v.handles handler next reason arm) s := by
  unfold abort Effect.Holds
  rw [Effect.ends_bind, Effect.ends_get]
  refine Effect.ends_ite (fun hactive => ?_) fun hidle => ⟨.refl, fun hactive => absurd hactive hidle⟩
  rw [Effect.ends_bind, ends_now]
  unfold move
  rw [Effect.ends_bind, Effect.ends_modify, Effect.ends_bind]
  obtain ⟨r, hr, -⟩ := run_of_active hactive
  generalize (v.handles.clock s.world).1 = now
  have hlife := lifecycle_enter (s := { s with world := (v.handles.clock s.world).2 }) hr next (ending reason arm now)
  have hrun : (({ s with world := (v.handles.clock s.world).2 } : Coordinator (Hardware σ)).enter next
      (ending reason arm now)).run = some { ending reason arm now r with lifecycle := next } := by
    show s.run.map _ = _
    rw [hr]
    rfl
  have hsent : (({ s with world := (v.handles.clock s.world).2 } : Coordinator (Hardware σ)).enter next
      (ending reason arm now)).world.sent = s.world.sent := rfl
  have hdeferred : (({ s with world := (v.handles.clock s.world).2 } : Coordinator (Hardware σ)).enter next
      (ending reason arm now)).world.deferred = s.world.deferred := rfl
  generalize ({ s with world := (v.handles.clock s.world).2 } : Coordinator (Hardware σ)).enter next
    (ending reason arm now) = s₁ at *
  have hl₁ : s₁.lifecycle.aborted = true := hlife ▸ hnext
  unfold sendCancels
  rw [Effect.ends_bind, Effect.ends_get, hrun]
  refine (cancels_each hh _ _ hl₁).mono (fun _ t ht => ?_) fun _ _ hf => hf.elim
  have hdone : ∀ u, Passes t u → Passes s u ∧ (s.lifecycle.active = true → u.lifecycle.aborted = true) := by
    intro u hu
    have hall := ht.trans (hu.cancels (ht.lifecycle ▸ hl₁))
    have haborted : u.lifecycle.aborted = true := hall.lifecycle ▸ hl₁
    refine ⟨⟨.ended hactive haborted _ (hsent ▸ hall.sent) (fun x hx => ?_) fun a => ?_, hall.deferred.trans hdeferred⟩,
      fun _ => haborted⟩
    · obtain ⟨a, -, rfl⟩ := List.mem_map.mp hx
      rfl
    · exact List.mem_map_of_mem (List.mem_append_left _ (List.mem_filter.mpr ⟨mem_setOrder g a, rfl⟩))
  unfold finish
  rw [Effect.ends_bind, Effect.ends_get]
  exact (passes_inside _).mono (fun _ u hu => hdone u hu.1) fun _ u hu => hdone u hu.1

/-! ## events -/

theorem updated_run {f : PairRun → PairRun} {E : Failure → Coordinator (Hardware σ) → Prop} (hr : s.run = some r)
    (hf : ∀ r, (f r).lifecycle = r.lifecycle) :
    Effect.Ends (fun _ t => Passes s t ∧ t.run = some (f r)) E (updateRun f) s := by
  refine ⟨passes_update (E := E) hf, ?_⟩
  show s.run.map f = _
  rw [hr]
  rfl

theorem passes_move {next : PairLifecycle} {f : PairRun → PairRun} {E : Failure → Coordinator (Hardware σ) → Prop}
    (hr : s.run = some r) (honward : Onward r.lifecycle next) : Effect.Ends (fun _ => Passes s) E (move next f) s := by
  refine ⟨.quiet rfl ?_, rfl⟩
  rw [active_of_run hr, lifecycle_enter hr]
  exact honward

theorem passes_abort (hh : Passing handler) {next : PairLifecycle} (hnext : next.aborted = true) (hp : Passes s t)
    (reason : String) (arm : Option Side) : Effect.Holds (Passes s) (abort g v.handles handler next reason arm) t :=
  (abort_passes hh hnext reason arm).mono (fun _ _ hu => hp.trans hu.1) fun _ _ hu => hp.trans hu.1

theorem staged_passes (hh : Passing handler) (hr : s.run = some r) (a : Side) (e : Event) :
    Effect.Holds (Passes s) (onStaged g v.handles handler r a e) s := by
  unfold onStaged Effect.Holds
  refine Effect.ends_ite (fun hstaging => ?_) fun _ => .refl
  rw [Effect.ends_bind, ends_now, Effect.ends_bind]
  have hnow : Passes s { s with world := (v.handles.clock s.world).2 } := passes_now
  refine Effect.Ends.mono (updated_run hr (by exact fun _ => rfl)) (fun _ t ht => ?_) fun _ _ ht => hnow.trans ht
  obtain ⟨hp, hrun⟩ := ht
  refine Effect.ends_ite (fun _ => passes_abort hh rfl (hnow.trans hp) _ _) fun _ => Effect.ends_ite (fun _ => ?_) fun _ => hnow.trans hp
  rw [Effect.ends_bind, ends_now]
  refine Effect.Ends.mono (passes_move hrun ?_) (fun _ u hu => (hnow.trans hp).trans (passes_now.trans hu)) fun _ _ hu => hu
  show Onward r.lifecycle _
  rw [hstaging.1]
  exact .ready

theorem result_passes (hh : Passing handler) (hr : s.run = some r) (a : Side) (e : Event) :
    Effect.Holds (Passes s) (onResult g v.handles handler r a e) s := by
  unfold onResult Effect.Holds
  refine Effect.ends_ite (fun _ => ?_) fun _ => Effect.ends_ite (fun hexecuting => ?_) fun _ => .refl
  · rw [Effect.ends_bind]
    exact Effect.Ends.mono (passes_update (by exact fun _ => rfl)) (fun _ t ht => passes_abort hh rfl ht _ _) fun _ _ ht => ht
  · rw [Effect.ends_bind]
    refine Effect.Ends.mono (updated_run hr (by exact fun _ => rfl)) (fun _ t ht => ?_) fun _ _ ht => ht
    obtain ⟨hp, hrun⟩ := ht
    refine Effect.ends_ite (fun _ => ?_) fun _ => hp
    rw [Effect.ends_bind, ends_now, Effect.ends_bind]
    refine Effect.Ends.mono (passes_move hrun ?_) (fun _ u hu => ?_) fun _ _ hu => hu
    · show Onward r.lifecycle _
      rw [hexecuting.1]
      exact .complete
    · have hdone : Passes s u := hp.trans (passes_now.trans hu)
      exact (passes_inside _).mono (fun _ _ h => hdone.trans h.1) fun _ _ h => hdone.trans h.1

theorem onEvent_passes (hh : Passing handler) (hr : s.run = some r) (a : Side) (e : Event) :
    Effect.Holds (Passes s) (onEvent g v.handles handler r a e) s := by
  unfold onEvent
  refine Effect.ends_ite (fun _ => .refl) fun _ => Effect.ends_ite (fun _ => passes_abort hh rfl .refl _ _) fun _ =>
    Effect.ends_ite (fun _ => passes_abort hh rfl .refl _ _) fun _ => Effect.ends_ite (fun _ => .refl) fun _ => ?_
  cases e.kind with
  | planCleared =>
    exact Effect.ends_ite (fun _ => Effect.ends_ite (fun _ => passes_update (by exact fun _ => rfl)) fun _ =>
      passes_update (by exact fun _ => rfl)) fun _ => .refl
  | planStaged => exact staged_passes hh hr a e
  | legResult => exact result_passes hh hr a e
  | fault => exact .refl
  | other => exact .refl

theorem event_passes (hh : Passing handler) : Passing (onMemberEventWith g v.handles handler) := by
  intro s armId e
  unfold onMemberEventWith
  cases g.sideOf armId with
  | none => exact .refl
  | some a =>
    show Effect.Ends _ _ (get >>= _) s
    rw [Effect.ends_bind, Effect.ends_get]
    cases hr : s.run with
    | none => exact .refl
    | some r =>
      show Effect.Ends _ _ (note (.event a e) >>= fun _ => onEvent g v.handles handler r a e) s
      unfold note
      rw [Effect.ends_bind, Effect.ends_modify]
      have hnoted : Passes s (s.add (.event a e)) := .of_quiet rfl rfl rfl
      exact (onEvent_passes hh (s := s.add (.event a e)) hr a e).mono (fun _ _ hu => hnoted.trans hu) fun _ _ hu => hnoted.trans hu

theorem passing_onMemberEvent (n : ℕ) : Passing (onMemberEvent g v.handles n) := by
  induction n with
  | zero => exact event_passes fun _ _ _ => .refl
  | succ n ih => exact event_passes ih

theorem poll_passes (n : ℕ) (a : Side) : Effect.Holds (Passes s) (poll g v.handles n a) s := by
  unfold poll Effect.Holds
  rw [Effect.ends_bind]
  refine (passes_inside _).mono (fun events t ht => ?_) fun _ _ ht => ht.1
  refine Effect.Ends.each ht.1 fun e _ u hu => ?_
  exact (passing_onMemberEvent n u _ e).mono (fun _ _ h => hu.trans h) fun _ _ h => hu.trans h

/-! ## the body of the `with` -/

/-- `with self._release_context(): ...` up to its end, and what the body raised -/
def collect (g : Group) (h : Handles σ) (n : ℕ) (plan : BimanualPlan) : M σ (Option Failure) := do
  onWorld h.enterRelease
  tryCatch (do releaseMembers g h n plan (g.order plan); pure none) fun e => pure (some e)

/-- the pair is EXECUTING, and no arm is being released -/
def started (s : Coordinator σ) : Coordinator σ := { s.enter .executing fun r => r with releasing := none }

/-- the loop ends as the first arms of `as` are deferred: all of them, if the pair goes on -/
structure Deferred (ds : List (Side × String)) (as : List Side) (t : Coordinator (Hardware σ)) : Prop where
  list : ∃ new, t.world.deferred = some (ds ++ new) ∧ new.map Prod.fst <+: as ∧
    (t.lifecycle = .executing → new.map Prod.fst = as)

/-- a release is deferred, or there is no staged plan -/
theorem execute_defers (n : ℕ) {ds : List (Side × String)} (hds : s.world.deferred = some ds) (a : Side) (planId : String) :
    Effect.Ends (fun _ t => Course s t ∧ ∃ executionId, t.world.deferred = some (ds ++ [(a, executionId)]))
      (fun _ t => Course s t) (call v.handles (onMemberEvent g v.handles n) (.execute a planId)) s := by
  unfold call note
  rw [Effect.ends_bind, Effect.ends_modify, Effect.ends_bind, Effect.ends_get, Effect.ends_bind, Effect.ends_set,
    Effect.ends_bind]
  have hanswer : v.handles.answer (.execute a planId) (s.add (.called (.execute a planId))).world = v.execute a planId s.world := rfl
  rw [hanswer]
  unfold Supervisors.execute
  rw [hds]
  cases v.execution a planId s.world.rest with
  | none => exact .quiet rfl (.same _)
  | some executionId => exact ⟨.quiet rfl (.same _), executionId, rfl⟩

theorem releaseMembers_defers (n : ℕ) (plan : BimanualPlan) (as : List Side) :
    ∀ {s : Coordinator (Hardware σ)} {ds : List (Side × String)}, s.world.deferred = some ds →
      Effect.Ends (fun _ t => Course s t ∧ Deferred ds as t) (fun _ t => Course s t)
        (releaseMembers g v.handles n plan as) s := by
  induction as with
  | nil =>
    intro s ds hds
    exact ⟨.quiet rfl (.same _), ⟨[], hds.trans (by rw [List.append_nil]), List.nil_prefix, fun _ => rfl⟩⟩
  | cons a as ih =>
    intro s ds hds
    show Effect.Ends _ _ (modify _ >>= _) s
    rw [Effect.ends_bind, Effect.ends_modify, Effect.ends_bind]
    have hlooped : Course s { s with releasing := some a } := .quiet rfl (.same _)
    refine (execute_defers n (s := { s with releasing := some a }) hds a _).mono (fun _ t ht => ?_) fun _ _ ht => hlooped.trans ht
    obtain ⟨ht, executionId, hdst⟩ := ht
    rw [Effect.ends_bind, ends_now, Effect.ends_bind]
    refine Effect.Ends.mono (passes_update (by exact fun _ => rfl)) (fun _ t' ht' => ?_) fun _ _ h => h
    have hdone : ∀ u, Passes t' u → Course s u ∧ u.world.deferred = some (ds ++ [(a, executionId)]) := fun u hu =>
      ⟨(hlooped.trans ht).trans (passes_now.trans (ht'.trans hu)).course, hu.deferred.trans (ht'.deferred.trans hdst)⟩
    rw [Effect.ends_bind]
    refine (poll_passes n a).mono (fun _ u hu => ?_) fun _ u hu => (hdone u hu).1
    obtain ⟨hcourse, hdsu⟩ := hdone u hu
    rw [Effect.ends_bind, Effect.ends_get]
    refine Effect.ends_ite (fun _ => ?_) fun hstopped => ?_
    · refine (ih hdsu).mono (fun _ w hw => ?_) fun _ _ hw => hcourse.trans hw
      obtain ⟨new, hnew, hprefix, hall⟩ := hw.2.list
      refine ⟨hcourse.trans hw.1, ⟨(a, executionId) :: new, hnew.trans (by rw [List.append_assoc]; rfl), ?_, fun he => ?_⟩⟩
      · exact List.cons_prefix_cons.mpr ⟨rfl, hprefix⟩
      · rw [List.map_cons, hall he]
    · exact ⟨hcourse, ⟨[(a, executionId)], hdsu, ⟨as, rfl⟩, fun he => absurd he hstopped⟩⟩

/-- the loop leaves the list in place -/
theorem collect_defers (n : ℕ) (plan : BimanualPlan) :
    Effect.Ends (fun raised t => Course s t ∧ (raised = none → Deferred [] (g.order plan) t)) (fun _ _ => False)
      (collect g v.handles n plan) s := by
  unfold collect
  rw [Effect.ends_bind, ends_onWorld]
  have hentered : Course s { s with world := { s.world with deferred := some [] } } := .quiet rfl (.same _)
  show Effect.Ends _ _ _ { s with world := { s.world with deferred := some [] } }
  rw [Effect.ends_tryCatch, Effect.ends_bind]
  refine (releaseMembers_defers n plan _ rfl).mono (fun _ t ht => ?_) fun e t ht => ?_
  · exact ⟨hentered.trans ht.1, fun _ => ht.2⟩
  · exact ⟨hentered.trans ht, nofun⟩

/-! ## the end of the `with` -/

/-- the context's end, from where the body left it -/
def close (h : Handles σ) (raised : Option Failure) : M σ PUnit := do
  let swallowed ← onWorld (h.leaveRelease raised)
  match raised with
  | some e => if swallowed then pure ⟨⟩ else throw e
  | none => pure ⟨⟩

theorem withRelease_collect (g : Group) (h : Handles σ) (n : ℕ) (plan : BimanualPlan) :
    withRelease h (releaseMembers g h n plan (g.order plan)) = collect g h n plan >>= close h := by
  unfold withRelease collect
  rw [bind_assoc]
  rfl

/-- what an exception in the `with` does -/
def settle (g : Group) (h : Handles σ) (n : ℕ) (raised : Option Failure) : M σ PUnit :=
  tryCatch (close h raised) fun e => do
    let s ← get
    abort g h (onMemberEvent g h n) .faulted
      ((s.releasing.map g.name).getD "None" ++ ": release failed: " ++ e.text) s.releasing

/-- `execute_pair` gets to the end of the `with` at `u` -/
def Collects (g : Group) (v : Supervisors σ) (n : ℕ) (run : PairRun) (s : Coordinator (Hardware σ)) (raised : Option Failure)
    (u : Coordinator (Hardware σ)) : Prop :=
  ∃ t, checkRelease g v.handles run s = .ok ⟨⟩ t ∧ collect g v.handles n run.plan (started t) = .ok raised u

/-- it sends the releases there -/
structure Releases (g : Group) (v : Supervisors σ) (n : ℕ) (run : PairRun) (s u : Coordinator (Hardware σ))
    (releases : List (Side × String)) (stamp : ℚ) (futures : Side → Future) : Prop where
  collects : Collects g v n run s none u
  deferred : u.world.deferred = some releases
  both : releases.length = 2
  stamped : ∃ now r, v.now u.world.rest = .ok now r ∧ stamp = now + groupBudgetS ∧ futures = (v.submit releases stamp r).1

variable {n : ℕ} {raised : Option Failure} {releases : List (Side × String)} {stamp : ℚ} {futures : Side → Future}

theorem Collects.unique {raised' : Option Failure} {u' : Coordinator (Hardware σ)} (h : Collects g v n run s raised u)
    (h' : Collects g v n run s raised' u') : raised' = raised ∧ u' = u := by
  obtain ⟨t, ht, hu⟩ := h
  obtain ⟨t', ht', hu'⟩ := h'
  rw [ht] at ht'
  obtain ⟨-, rfl⟩ := EStateM.Result.ok.inj ht'
  rw [hu] at hu'
  obtain ⟨rfl, rfl⟩ := EStateM.Result.ok.inj hu'
  exact ⟨rfl, rfl⟩

theorem ends_executePair {I : Coordinator (Hardware σ) → Prop} (hrun : s.run = some run) (hready : run.lifecycle = .ready) :
    Effect.Holds I (executePair g v.handles n run.plan.pairId) s ↔
      Effect.Ends (fun _ t => Effect.Holds I (release g v.handles n run) t)
        (fun e t => Effect.Holds I (abort g v.handles (onMemberEvent g v.handles n) .rejected e.text none) t)
        (checkRelease g v.handles run) s := by
  unfold executePair Effect.Holds
  rw [Effect.ends_bind, Effect.ends_get, hrun]
  show Effect.Ends _ _ (if run.plan.pairId ≠ run.plan.pairId then _ else _) s ↔ _
  rw [if_neg (not_not.mpr rfl), if_neg (by rw [hready]; exact nofun), if_neg (not_not.mpr hready), Effect.ends_bind,
    Effect.ends_tryCatch, Effect.ends_bind]
  refine ⟨fun h => h.mono (fun _ _ ht => ht) fun e t ht => ?_, fun h => h.mono (fun _ _ ht => ht) fun e t ht => ?_⟩
  · exact (Effect.ends_bind.mp ht).mono (fun _ _ hu => hu) fun _ _ hu => hu
  · exact Effect.ends_bind.mpr (ht.mono (fun _ _ hu => hu) fun _ _ hu => hu)

theorem ends_collected {I : Coordinator (Hardware σ) → Prop} (hrun : s.run = some run) (hready : run.lifecycle = .ready)
    (hc : Collects g v n run s raised u) :
    Effect.Holds I (executePair g v.handles n run.plan.pairId) s ↔ Effect.Holds I (settle g v.handles n raised) u := by
  obtain ⟨t, hcheck, hcollect⟩ := hc
  rw [ends_executePair hrun hready, Effect.ends_ok hcheck]
  unfold release move settle Effect.Holds
  rw [withRelease_collect, Effect.ends_bind, Effect.ends_modify, Effect.ends_bind, Effect.ends_modify, Effect.ends_tryCatch,
    Effect.ends_bind, Effect.ends_tryCatch]
  exact Effect.ends_ok hcollect

/-- nothing is sent, and the run is as it was -/
structure Still (s t : Coordinator (Hardware σ)) : Prop where
  run : t.run = s.run
  sent : t.world.sent = s.world.sent

theorem still_inside (m : EStateM Failure σ α) : Effect.Keeps (Still s) (onWorld (Supervisors.inside m)) := by
  intro t ht
  unfold Effect.Holds Supervisors.inside
  rw [ends_onWorld, Effect.ends_zoom]
  exact Effect.ends_of (fun _ _ _ => ⟨ht.run, ht.sent⟩) fun _ _ _ => ⟨ht.run, ht.sent⟩

theorem still_now : Effect.Keeps (Still s) (now v.handles) := fun _ ht => ⟨ht.run, ht.sent⟩

theorem still_refuse (o : Option String) : Effect.Keeps (Still s) (refuse o : M (Hardware σ) PUnit) := by
  cases o with
  | none => exact Effect.keeps_pure _
  | some text => exact Effect.keeps_throw _

theorem still_armState (a : Side) : Effect.Keeps (Still s) (armState v.handles a) :=
  (still_inside _).bind fun _ => still_now.bind fun _ => Effect.keeps_pure _

theorem still_states : Effect.Keeps (Still s) (states g v.handles) :=
  (still_armState _).bind fun _ => (still_armState _).bind fun _ => still_now.bind fun _ => (still_refuse _).bind fun _ =>
    (still_refuse _).bind fun _ => (Effect.keeps_modify fun _ ht => ⟨ht.run, ht.sent⟩).bind fun _ => Effect.keeps_pure _

theorem still_loadedMember (plan : BimanualPlan) (both : Side → ArmControlState) (a : Side) :
    Effect.Keeps (Still s) (loadedMember g plan both a : M (Hardware σ) PUnit) := by
  intro t ht
  exact (loadedMember_spec plan both a).mono (fun _ u hu => hu.1 ▸ ht) fun _ u hu => hu ▸ ht

theorem still_checkRelease (run : PairRun) : Effect.Keeps (Still s) (checkRelease g v.handles run) :=
  (still_states.bind fun _ => (still_refuse _).bind fun _ => still_refuse _).bind fun _ => still_states.bind fun both =>
    (Effect.Keeps.each fun a => still_loadedMember run.plan both a).bind fun _ => still_inside _

/-- what the events of the loop did: the pair goes on, is complete, or has ended with both cancels -/
theorem Collects.course (hrun : s.run = some run) (hc : Collects g v n run s raised u) :
    ∃ before, u.world.sent = s.world.sent ++ before ∧ (∀ x ∈ before, x.isRelease = false) ∧
      ((u.lifecycle = .executing ∨ u.lifecycle = .complete) ∧ before = [] ∨
        u.lifecycle.aborted = true ∧ ∀ a, .cancel a ∈ before) := by
  obtain ⟨t, hcheck, hcollect⟩ := hc
  have hstill : Still s t := (Effect.ends_ok hcheck).mp (still_checkRelease run s ⟨rfl, rfl⟩)
  have hlife : (started t).lifecycle = .executing := lifecycle_enter (hstill.run.trans hrun) _ _
  have hsent : (started t).world.sent = s.world.sent := hstill.sent
  cases (Effect.Ends.of_ok (collect_defers n run.plan) hcollect).1 with
  | quiet hquiet honward =>
    refine ⟨[], (hquiet.trans hsent).trans (List.append_nil _).symm, List.forall_mem_nil _, .inl ⟨?_, rfl⟩⟩
    rw [hlife] at honward
    generalize u.lifecycle = l at honward
    cases honward with
    | same => exact .inl rfl
    | complete => exact .inr rfl
  | ended _ haborted new hnew hcancels hboth => exact ⟨new, hsent ▸ hnew, hcancels, .inr ⟨haborted, hboth⟩⟩

theorem Collects.list (hc : Collects g v n run s none u) : Deferred [] (g.order run.plan) u := by
  obtain ⟨t, -, hcollect⟩ := hc
  exact (Effect.Ends.of_ok (collect_defers n run.plan) hcollect).2 rfl

/-- two releases are those of the two members -/
theorem Releases.mem (h : Releases g v n run s u releases stamp futures) (a : Side) : ∃ executionId, (a, executionId) ∈ releases := by
  obtain ⟨new, hnew, hprefix, -⟩ := h.collects.list.list
  obtain rfl := Option.some.inj (h.deferred.symm.trans hnew)
  have hall : releases.map Prod.fst = g.order run.plan := by
    refine hprefix.eq_of_length ?_
    rw [List.length_map, h.both]
    unfold Group.order
    split_ifs <;> rfl
  obtain ⟨x, hx, rfl⟩ := List.mem_map.mp (hall ▸ mem_order g run.plan a)
  exact ⟨x.2, hx⟩

/-! ## after the `with` -/

/-- an early end: a pair in flight is cancelled, another one is left alone -/
structure Stops (s t : Coordinator (Hardware σ)) : Prop where
  sent : ∃ after, t.world.sent = s.world.sent ++ after ∧ (∀ x ∈ after, x.isRelease = false) ∧
    (s.lifecycle.active = true → t.lifecycle.aborted = true ∧ ∀ a, .cancel a ∈ after) ∧
    (s.lifecycle.active = false → t.lifecycle = s.lifecycle ∧ after = [])

theorem abort_stops {next : PairLifecycle} (hnext : next.aborted = true) (reason : String) (arm : Option Side) :
    Effect.Holds (Stops s) (abort g v.handles (onMemberEvent g v.handles n) next reason arm) s := by
  have hstops : ∀ t, Passes s t ∧ (s.lifecycle.active = true → t.lifecycle.aborted = true) → Stops s t := by
    rintro t ⟨hp, haborts⟩
    cases hp.course with
    | quiet hsent honward =>
      refine ⟨[], hsent.trans (List.append_nil _).symm, List.forall_mem_nil _, fun hactive => ?_, fun hin => ⟨?_, rfl⟩⟩
      · exact absurd ((honward.not_aborted hactive).symm.trans (haborts hactive)) Bool.false_ne_true
      · exact honward.of_inactive hin
    | ended hactive haborted new hsent hcancels hboth =>
      exact ⟨new, hsent, hcancels, fun _ => ⟨haborted, hboth⟩, fun hin => absurd hin (by rw [hactive]; exact nofun)⟩
  exact (abort_passes (passing_onMemberEvent n) hnext reason arm).mono (fun _ _ h => hstops _ h) fun _ _ h => hstops _ h

theorem withdraw_sends (x : Side × String) (w : Hardware σ) :
    Effect.Holds (fun w' => w'.sent = w.sent ++ [.cancel x.1]) (v.withdrawOne x) w := by
  unfold Supervisors.withdrawOne Supervisors.inside Effect.Holds
  rw [Effect.ends_bind, Effect.ends_modify, Effect.ends_zoom]
  exact Effect.ends_of (fun _ _ _ => rfl) fun _ _ _ => rfl

/-- only cancels were sent in between -/
def OnlyCancels (before after : List Sent) : Prop := ∃ new, after = before ++ new ∧ ∀ x ∈ new, x.isRelease = false

theorem OnlyCancels.snoc {before after : List Sent} (h : OnlyCancels before after) (a : Side) :
    OnlyCancels before (after ++ [.cancel a]) := by
  obtain ⟨new, rfl, hcancels⟩ := h
  refine ⟨new ++ [.cancel a], List.append_assoc _ _ _, fun x hx => ?_⟩
  rcases List.mem_append.mp hx with hx | hx
  · exact hcancels x hx
  · rw [List.mem_singleton.mp hx]
    rfl

/-- only cancels follow the releases, and only if one of them failed -/
theorem settle_sends (releases : List (Side × String)) (futures : Side → Future) (w : Hardware σ) :
    Effect.Ends (fun _ w' => (∀ x ∈ releases, (futures x.1).failed = false) ∧ w' = w)
      (fun _ w' => (∃ x ∈ releases, (futures x.1).failed = true) ∧ OnlyCancels w.sent w'.sent)
      (v.settleReleases releases futures) w := by
  unfold Supervisors.settleReleases
  refine Effect.ends_ite (fun hfailed => ?_) fun hnone => ⟨fun x hx => ?_, rfl⟩
  · have hsome := List.any_eq_true.mp hfailed
    have hnil : OnlyCancels w.sent w.sent := ⟨[], (List.append_nil _).symm, List.forall_mem_nil _⟩
    rw [Effect.ends_bind]
    refine Effect.Ends.mono (Effect.Ends.each (I := fun t : Hardware σ => OnlyCancels w.sent t.sent)
      (E := fun _ t => OnlyCancels w.sent t.sent) hnil fun x _ t ht => ?_) (fun _ _ ht => ⟨hsome, ht⟩) fun _ _ ht => ⟨hsome, ht⟩
    exact (withdraw_sends x t).mono (fun _ _ ht' => ht' ▸ ht.snoc x.1) fun _ _ ht' => ht' ▸ ht.snoc x.1
  · exact Bool.eq_false_iff.mpr fun hx' => hnone (List.any_eq_true.mpr ⟨x, hx, hx'⟩)

/-- both releases go out; what is raised then is that one of them failed -/
theorem close_sends (h : Releases g v n run s u releases stamp futures) :
    Effect.Ends
      (fun _ t => t.run = u.run ∧ (∀ x ∈ releases, (futures x.1).failed = false) ∧
        t.world.sent = u.world.sent ++ Supervisors.scheduled releases stamp futures)
      (fun _ t => t.run = u.run ∧ (∃ x ∈ releases, (futures x.1).failed = true) ∧
        OnlyCancels (u.world.sent ++ Supervisors.scheduled releases stamp futures) t.world.sent)
      (close v.handles none) u := by
  obtain ⟨now, r, hnow, rfl, rfl⟩ := h.stamped
  unfold close
  rw [Effect.ends_bind, ends_onWorld]
  show Effect.Ends _ _ (v.leaveRelease none) _
  unfold Supervisors.leaveRelease Supervisors.sendDeferred
  rw [Effect.ends_bind, Effect.ends_get, Effect.ends_bind, Effect.ends_set, Effect.ends_bind, h.deferred, Option.getD_some,
    if_pos ⟨rfl, h.both⟩, Effect.ends_bind]
  unfold Supervisors.inside
  rw [Effect.ends_zoom, Effect.ends_ok hnow]
  unfold Supervisors.releaseTogether
  rw [Effect.ends_bind, Effect.ends_get, Effect.ends_bind, Effect.ends_set]
  exact (settle_sends releases _ _).mono (fun _ w hw => ⟨rfl, hw.1, hw.2 ▸ rfl⟩) fun _ w hw => ⟨rfl, hw⟩

/-- nothing goes out; nothing is raised only where the loop has stopped early -/
theorem close_holds (hc : Collects g v n run s raised u)
    (hno : ∀ releases stamp futures, ¬ Releases g v n run s u releases stamp futures) :
    Effect.Ends (fun _ t => t.run = u.run ∧ t.world.sent = u.world.sent ∧ u.lifecycle ≠ .executing)
      (fun _ t => t.run = u.run ∧ t.world.sent = u.world.sent) (close v.handles raised) u := by
  unfold close
  rw [Effect.ends_bind, ends_onWorld]
  show Effect.Ends _ _ (v.leaveRelease raised) _
  unfold Supervisors.leaveRelease Supervisors.sendDeferred
  rw [Effect.ends_bind, Effect.ends_get, Effect.ends_bind, Effect.ends_set, Effect.ends_bind]
  refine Effect.ends_ite (fun hboth => ?_) fun hfew => ?_
  · obtain ⟨hnone, hlength⟩ := hboth
    obtain rfl := Option.isNone_iff_eq_none.mp hnone
    rw [Effect.ends_bind]
    unfold Supervisors.inside
    rw [Effect.ends_zoom]
    refine Effect.ends_of (fun now r hnow => ?_) fun _ _ _ => ⟨rfl, rfl⟩
    obtain ⟨ds, hds, -⟩ := hc.list.list
    rw [hds] at hlength
    exact (hno _ _ _ ⟨hc, hds, hlength, now, r, hnow, rfl, rfl⟩).elim
  · cases raised with
    | some e => exact ⟨rfl, rfl⟩
    | none =>
      refine ⟨rfl, rfl, fun hexecuting => hfew ⟨rfl, ?_⟩⟩
      obtain ⟨ds, hds, -, hall⟩ := hc.list.list
      rw [hds]
      show ds.length = 2
      rw [← List.length_map Prod.fst, hall hexecuting]
      unfold Group.order
      split_ifs <;> rfl

theorem Stops.of_same (hlife : t.lifecycle = s.lifecycle) (hsent : t.world.sent = s.world.sent) (hin : s.lifecycle.active = false) :
    Stops s t :=
  ⟨[], hsent.trans (List.append_nil _).symm, List.forall_mem_nil _, fun hactive => absurd (hin.symm.trans hactive) Bool.false_ne_true,
    fun _ => ⟨hlife, rfl⟩⟩

theorem Stops.congr (hlife : t.lifecycle = s.lifecycle) (hsent : t.world.sent = s.world.sent) (h : Stops t u) : Stops s u := by
  obtain ⟨after, hafter, hrest⟩ := h.sent
  rw [hsent] at hafter
  rw [hlife] at hrest
  exact ⟨after, hafter, hrest⟩

theorem lifecycle_congr (hrun : t.run = s.run) : t.lifecycle = s.lifecycle := by
  unfold Coordinator.lifecycle
  rw [hrun]

theorem settled_holds (hrun : s.run = some run) (hc : Collects g v n run s raised u)
    (hno : ∀ releases stamp futures, ¬ Releases g v n run s u releases stamp futures) :
    Effect.Holds (Stops u) (settle g v.handles n raised) u := by
  unfold settle Effect.Holds
  rw [Effect.ends_tryCatch]
  refine (close_holds hc hno).mono (fun _ t ht => ?_) fun e t ht => ?_
  · obtain ⟨hsame, hsent, hidle⟩ := ht
    refine .of_same (lifecycle_congr hsame) hsent ?_
    obtain ⟨before, -, -, hends⟩ := hc.course hrun
    rcases hends with ⟨hexecuting | hcomplete, -⟩ | ⟨haborted, -⟩
    · exact absurd hexecuting hidle
    · rw [hcomplete]
      rfl
    · exact inactive_of_aborted haborted
  · rw [Effect.ends_bind, Effect.ends_get]
    exact (abort_stops rfl _ _).mono (fun _ _ hu => hu.congr (lifecycle_congr ht.1) ht.2) fun _ _ hu =>
      hu.congr (lifecycle_congr ht.1) ht.2

/-- both releases are accepted, or the pair ends after them -/
theorem settled_sends (h : Releases g v n run s u releases stamp futures) :
    Effect.Holds
      (fun t => (∀ x ∈ releases, (futures x.1).failed = false) ∧ t.lifecycle = u.lifecycle ∧
          t.world.sent = u.world.sent ++ Supervisors.scheduled releases stamp futures ∨
        (∃ x ∈ releases, (futures x.1).failed = true) ∧ ∃ t', t'.lifecycle = u.lifecycle ∧
          OnlyCancels (u.world.sent ++ Supervisors.scheduled releases stamp futures) t'.world.sent ∧ Stops t' t)
      (settle g v.handles n none) u := by
  unfold settle Effect.Holds
  rw [Effect.ends_tryCatch]
  refine (close_sends h).mono (fun _ t ht => ?_) fun e t ht => ?_
  · exact .inl ⟨ht.2.1, lifecycle_congr ht.1, ht.2.2⟩
  · rw [Effect.ends_bind, Effect.ends_get]
    exact (abort_stops rfl _ _).mono (fun _ _ hu => .inr ⟨ht.2.1, t, lifecycle_congr ht.1, ht.2.2, hu⟩) fun _ _ hu =>
      .inr ⟨ht.2.1, t, lifecycle_congr ht.1, ht.2.2, hu⟩

/-! ## both play, or none -/

/-- where `execute_pair` leaves the coordinator -/
def executed (g : Group) (v : Supervisors σ) (n : ℕ) (run : PairRun) (s : Coordinator (Hardware σ)) : Coordinator (Hardware σ) :=
  Effect.leaves (executePair g v.handles n run.plan.pairId) s

/-- what it sent -/
def sentBy (g : Group) (v : Supervisors σ) (n : ℕ) (run : PairRun) (s : Coordinator (Hardware σ)) : List Sent :=
  (executed g v n run s).world.sent.drop s.world.sent.length

/-- no arm plays a leg of the pair alone -/
structure Together (g : Group) (v : Supervisors σ) (n : ℕ) (run : PairRun) (s : Coordinator (Hardware σ)) : Prop where
  /-- a release goes out from the end of the `with`, with the pair EXECUTING and both members deferred -/
  released : ∀ x ∈ sentBy g v n run s, x.isRelease = true →
    ∃ u ds, Collects g v n run s none u ∧ u.lifecycle = .executing ∧ u.world.deferred = some ds ∧
      ∀ a, ∃ executionId, (a, executionId) ∈ ds
  confirmed : (executed g v n run s).lifecycle = .executing →
    ∃ stamp, ∀ a, ∃ executionId f, .release a executionId (some (stamp, f)) ∈ sentBy g v n run s ∧ f.Confirmed stamp
  cancelled : (executed g v n run s).lifecycle ≠ .executing →
    ((executed g v n run s).lifecycle.aborted = true ∨ (executed g v n run s).lifecycle = .complete) ∧
    ∃ before after, sentBy g v n run s = before ++ after ∧ (∀ x ∈ after, x.isRelease = false) ∧ ∀ a, .cancel a ∈ after

/-- what the calls answer -/
structure Orderly (g : Group) (v : Supervisors σ) (n : ℕ) (run : PairRun) (s : Coordinator (Hardware σ)) : Prop where
  /-- no event of the poll after the second release has ended the pair, where the releases go out -/
  executing : ∀ u releases stamp futures, Releases g v n run s u releases stamp futures → u.lifecycle = .executing
  /-- two answers that count as accepted are in time, and of a phase that plays -/
  confirmed : ∀ u releases stamp futures, Releases g v n run s u releases stamp futures →
    (∀ a, (futures a).failed = false) → ∀ a, (futures a).Confirmed stamp
  /-- no pair is complete before it has started -/
  uncompleted : ∀ raised u, Collects g v n run s raised u → u.lifecycle ≠ .complete

theorem sentBy_eq {new : List Sent} (h : (executed g v n run s).world.sent = s.world.sent ++ new) : sentBy g v n run s = new := by
  unfold sentBy
  rw [h, List.drop_left]

theorem release_mem_scheduled {a : Side} {executionId : String} {stamp' : ℚ} {f : Future}
    (h : Sent.release a executionId (some (stamp', f)) ∈ Supervisors.scheduled releases stamp futures) :
    stamp' = stamp ∧ f = futures a := by
  obtain ⟨x, -, hx⟩ := List.mem_map.mp h
  cases hx
  exact ⟨rfl, rfl⟩

/-- where the releases go out, with what was sent before and after them -/
theorem executed_sends (hrun : s.run = some run) (hready : run.lifecycle = .ready)
    (h : Releases g v n run s u releases stamp futures) :
    ∃ before after, sentBy g v n run s = before ++ Supervisors.scheduled releases stamp futures ++ after ∧
      (∀ x ∈ before, x.isRelease = false) ∧ (∀ x ∈ after, x.isRelease = false) ∧
      ((∀ x ∈ releases, (futures x.1).failed = false) ∧ (executed g v n run s).lifecycle = u.lifecycle ∨
        (∃ x ∈ releases, (futures x.1).failed = true) ∧
          (u.lifecycle.active = true → (executed g v n run s).lifecycle.aborted = true ∧ ∀ a, .cancel a ∈ after)) := by
  obtain ⟨before, hbefore, hcancels, -⟩ := h.collects.course hrun
  have hends := Effect.holds_iff.mp ((ends_collected hrun hready h.collects).mpr (settled_sends h))
  change (_ ∧ (executed g v n run s).lifecycle = _ ∧ (executed g v n run s).world.sent = _) ∨
    (_ ∧ ∃ t', _ ∧ _ ∧ Stops t' (executed g v n run s)) at hends
  rcases hends with ⟨hall, hlife, hsent⟩ | ⟨hsome, t', hlife, ⟨new, hnew, honly⟩, hstops⟩
  · refine ⟨before, [], ?_, hcancels, List.forall_mem_nil _, .inl ⟨hall, hlife⟩⟩
    exact sentBy_eq (hsent.trans (by rw [hbefore, List.append_nil, List.append_assoc]))
  · obtain ⟨after, hafter, honly', hactive, -⟩ := hstops.sent
    refine ⟨before, new ++ after, ?_, hcancels, fun x hx => ?_, .inr ⟨hsome, fun ha => ?_⟩⟩
    · exact sentBy_eq (hafter.trans (by rw [hnew, hbefore]; simp only [List.append_assoc]))
    · rcases List.mem_append.mp hx with hx | hx
      · exact honly x hx
      · exact honly' x hx
    · obtain ⟨haborted, hboth⟩ := hactive (hlife ▸ ha)
      exact ⟨haborted, fun a => List.mem_append_right _ (hboth a)⟩

/-- where none goes out -/
theorem executed_holds (hrun : s.run = some run) (hready : run.lifecycle = .ready) (hc : Collects g v n run s raised u)
    (hno : ∀ releases stamp futures, ¬ Releases g v n run s u releases stamp futures) :
    ∃ before after, sentBy g v n run s = before ++ after ∧ (∀ x ∈ before ++ after, x.isRelease = false) ∧
      ((u.lifecycle = .executing ∧ (executed g v n run s).lifecycle.aborted = true ∧ ∀ a, .cancel a ∈ after) ∨
        (executed g v n run s).lifecycle = u.lifecycle ∧ after = [] ∧
          (u.lifecycle = .complete ∧ before = [] ∨ u.lifecycle.aborted = true ∧ ∀ a, .cancel a ∈ before)) := by
  obtain ⟨before, hbefore, hcancels, hends⟩ := hc.course hrun
  have hstops : Stops u (executed g v n run s) :=
    Effect.holds_iff.mp ((ends_collected hrun hready hc).mpr (settled_holds hrun hc hno))
  obtain ⟨after, hafter, honly, hactive, hin⟩ := hstops.sent
  refine ⟨before, after, sentBy_eq (hafter.trans (by rw [hbefore, List.append_assoc])), fun x hx => ?_, ?_⟩
  · rcases List.mem_append.mp hx with hx | hx
    · exact hcancels x hx
    · exact honly x hx
  · rcases hends with ⟨hexecuting | hcomplete, hnil⟩ | ⟨haborted, hboth⟩
    · exact .inl ⟨hexecuting, hactive (by rw [hexecuting]; rfl)⟩
    · obtain ⟨hlife, hnone⟩ := hin (by rw [hcomplete]; rfl)
      exact .inr ⟨hlife, hnone, .inl ⟨hcomplete, hnil⟩⟩
    · obtain ⟨hlife, hnone⟩ := hin (inactive_of_aborted haborted)
      exact .inr ⟨hlife, hnone, .inr ⟨haborted, hboth⟩⟩

theorem Together.orderly (hrun : s.run = some run) (hready : run.lifecycle = .ready) (h : Together g v n run s) :
    Orderly g v n run s := by
  have hexecuting : ∀ u releases stamp futures, Releases g v n run s u releases stamp futures → u.lifecycle = .executing := by
    intro u releases stamp futures hr
    obtain ⟨before, after, hsent, -⟩ := executed_sends hrun hready hr
    obtain ⟨executionId, hmem⟩ := hr.mem .first
    have hreleased : Sent.release .first executionId (some (stamp, futures .first)) ∈ sentBy g v n run s := by
      rw [hsent]
      exact List.mem_append_left _ (List.mem_append_right _ (List.mem_map.mpr ⟨_, hmem, rfl⟩))
    obtain ⟨u', ds, hc', hlife, -⟩ := h.released _ hreleased rfl
    obtain ⟨-, rfl⟩ := hc'.unique hr.collects
    exact hlife
  refine ⟨hexecuting, fun u releases stamp futures hr hall a => ?_, fun raised u hc hcomplete => ?_⟩
  · obtain ⟨before, after, hsent, hbefore, hafter, hends⟩ := executed_sends hrun hready hr
    have hlife : (executed g v n run s).lifecycle = .executing := by
      rcases hends with ⟨-, hlife⟩ | ⟨⟨x, -, hfailed⟩, -⟩
      · rw [hlife, hexecuting u releases stamp futures hr]
      · exact absurd ((hall x.1).symm.trans hfailed) Bool.false_ne_true
    obtain ⟨stamp', hconfirmed⟩ := h.confirmed hlife
    obtain ⟨executionId, f, hmem, hf⟩ := hconfirmed a
    rw [hsent] at hmem
    rcases List.mem_append.mp hmem with hmem | hmem
    · rcases List.mem_append.mp hmem with hmem | hmem
      · cases hbefore _ hmem
      · obtain ⟨rfl, rfl⟩ := release_mem_scheduled hmem
        exact hf
    · cases hafter _ hmem
  · have hno : ∀ releases stamp futures, ¬ Releases g v n run s u releases stamp futures := by
      intro releases stamp futures hr
      have hlife := hexecuting u releases stamp futures hr
      rw [hcomplete] at hlife
      cases hlife
    obtain ⟨before, after, hsent, -, hends⟩ := executed_holds hrun hready hc hno
    rcases hends with ⟨hlife, -⟩ | ⟨hlife, rfl, ⟨-, rfl⟩ | ⟨haborted, -⟩⟩
    · rw [hcomplete] at hlife
      cases hlife
    · obtain ⟨-, b, c, hsplit, -, hboth⟩ := h.cancelled (by rw [hlife, hcomplete]; exact nofun)
      rw [hsent] at hsplit
      have hc : c = [] := (List.append_eq_nil_iff.mp hsplit.symm).2
      exact absurd (hboth .first) (by rw [hc]; exact List.not_mem_nil)
    · rw [hcomplete] at haborted
      cases haborted

end ArmControl.MultiArm.PairHardware
