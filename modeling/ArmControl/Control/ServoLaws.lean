import ArmControl.Control.ServoMoves

/-!
# Which law a command asks for

* `Loaded`, `loaded`   the plan that is loaded and whether it runs, read off the log;
* `selected`           the pose hold that is selected, read off the log;
* `LawRule`            a Cartesian block belongs to a sample of the running leg, a pose hold to Soft;
* `LawInv.move`        every move keeps it;
* `law_lives_with_leg` **so it holds in every run.**
-/

set_option linter.unusedSectionVars false

namespace ArmControl.Control.Servo
open ArmControl.Motion History

section
variable {K : Type} [Field K] [LinearOrder K] {n : ℕ}

/-- the plan that was accepted last, and whether it runs -/
structure Loaded (K : Type) (n : ℕ) where
  plan : Option (Plan K n) := none
  running : Bool := false

/-- what an entry does to it -/
def Loaded.after (l : Loaded K n) : Obs K n → Loaded K n
  | .staged p => ⟨some p, false⟩
  | .released .. => ⟨l.plan, true⟩
  | .held => ⟨l.plan, false⟩
  | .legResult .. => ⟨none, false⟩
  | .cancelled _ => ⟨none, false⟩
  | .disarmed => ⟨none, false⟩
  | _ => l

def loaded (log : List (Obs K n)) : Loaded K n := log.foldl Loaded.after {}

/-- what an entry does to the selection -/
def selects (s : Option (PoseHold K)) : Obs K n → Option (PoseHold K)
  | .soft spec => some spec
  | .cancelled _ => none
  | .disarmed => none
  | _ => s

/-- the pose hold while Soft is selected -/
def selected (log : List (Obs K n)) : Option (PoseHold K) := log.foldl selects none

/-- the tails of a command -/
def LawRule (log : List (Obs K n)) : Obs K n → Prop
  | .motorCommand origin _ cartesian poseHold _ _ =>
    (∀ spec ∈ cartesian, poseHold = none ∧
      ∃ p, loaded log = ⟨some p, true⟩ ∧ origin = .sample p.planId ∧ p.cartesian = some spec) ∧
    ((∀ id, origin ≠ .sample id) → cartesian = none) ∧
    poseHold = selected log ∧ ((selected log).isSome → ∀ id, origin ≠ .sample id)
  | _ => True

/-! ## the invariant -/

theorem loaded_snoc (log : List (Obs K n)) (o : Obs K n) : loaded (log ++ [o]) = (loaded log).after o := by
  unfold loaded
  rw [List.foldl_append]
  rfl

theorem selected_snoc (log : List (Obs K n)) (o : Obs K n) : selected (log ++ [o]) = selects (selected log) o := by
  unfold selected
  rw [List.foldl_append]
  rfl

structure LawInv (c : ArmController K n) : Prop where
  loaded : loaded c.log = ⟨c.plan, c.running⟩
  selected : selected c.log = c.poseHold
  runs : c.running → c.plan.isSome
  /-- the spec that is stored is the loaded plan's -/
  spec : ∀ p ∈ c.plan, c.cartesianNow = p.cartesian
  soft : c.poseHold.isSome → c.running = false ∧ c.plan = none
  log : Justified LawRule c.log

variable {g : Config K n} {P : Promise K} {c c' : ArmController K n}

theorem LawInv.agree (h : LawInv c) (ha : Agree c c') : LawInv c' where
  loaded := by rw [ha.log, ha.plan, ha.running]; exact h.loaded
  selected := by rw [ha.log, ha.poseHold]; exact h.selected
  runs := by rw [ha.running, ha.plan]; exact h.runs
  spec := by rw [ha.plan, ha.cartesianNow]; exact h.spec
  soft := by rw [ha.poseHold, ha.running, ha.plan]; exact h.soft
  log := by rw [ha.log]; exact h.log

/-- an entry about neither the leg nor Soft -/
theorem LawInv.note (h : LawInv c) {o : Obs K n} (hl : (Servo.loaded c.log).after o = Servo.loaded c.log)
    (hs : selects (Servo.selected c.log) o = Servo.selected c.log) (ho : LawRule c.log o) : LawInv (c.note o) where
  loaded := (loaded_snoc c.log o).trans (hl.trans h.loaded)
  selected := (selected_snoc c.log o).trans (hs.trans h.selected)
  runs := h.runs
  spec := h.spec
  soft := h.soft
  log := h.log.snoc ho

/-- a command that is no sample -/
theorem LawInv.other (h : LawInv c) {origin : Origin} (command : JointServoCommand K n) (measured : Reading K n) (clock : K)
    (ho : ∀ id, origin ≠ .sample id) : LawInv (c.note (.motorCommand origin command none c.poseHold measured clock)) :=
  h.note rfl rfl ⟨nofun, fun _ => rfl, h.selected.symm, fun _ => ho⟩

/-- a sample of the running leg -/
theorem LawInv.sampled (h : LawInv c) (command : JointServoCommand K n) (measured : Reading K n) (clock : K) (hrun : c.running) :
    LawInv (c.note (.motorCommand (.sample c.currentPlanId) command c.cartesianNow c.poseHold measured clock)) := by
  have htrack : c.poseHold = none := by
    by_contra hne
    have hidle := (h.soft (Option.isSome_iff_ne_none.mpr hne)).1
    rw [hrun] at hidle
    cases hidle
  refine h.note rfl rfl ⟨fun spec hspec => ⟨htrack, ?_⟩, fun hno => absurd rfl (hno _), h.selected.symm, fun hs => ?_⟩
  · obtain ⟨p, hp⟩ := Option.isSome_iff_exists.mp (h.runs hrun)
    refine ⟨p, ?_, ?_, (h.spec p hp).symm.trans hspec⟩
    · rw [h.loaded, hp, hrun]
    · unfold ArmController.currentPlanId
      rw [hp]
      rfl
  · rw [h.selected, htrack] at hs
    cases hs

/-- the plan and the leg are gone -/
theorem LawInv.gone (h : LawInv c) {o : Obs K n} (hlog : c'.log = c.log ++ [o]) (hp : c'.plan = none) (hr : c'.running = false)
    (ho : ∀ l : Loaded K n, l.after o = ⟨none, false⟩) (hs : selects c.poseHold o = c'.poseHold) (hrule : LawRule c.log o) :
    LawInv c' where
  loaded := by rw [hlog, loaded_snoc, ho, hp, hr]
  selected := by rw [hlog, selected_snoc, h.selected, hs]
  runs := by rw [hr]; exact fun h => absurd h Bool.false_ne_true
  spec := by rw [hp]; exact fun p h => absurd h (Option.not_mem_none p)
  soft := fun _ => ⟨hr, hp⟩
  log := by rw [hlog]; exact h.log.snoc hrule

theorem LawInv.install (h : LawInv c) (kp kd : Option (Gains K)) : LawInv (c.installGains kp kd).1 := by
  have hexecutor : ∀ x, LawInv { c with executor := x } := fun x => ⟨h.loaded, h.selected, h.runs, h.spec, h.soft, h.log⟩
  unfold ArmController.installGains
  split
  · exact (hexecutor _).note rfl rfl trivial
  · exact (hexecutor _).note rfl rfl trivial

/-- **A step of the invariant.** -/
theorem LawInv.move (hmove : Move g P c c') (h : LawInv c) : LawInv c' := by
  cases hmove with
  | quiet ha => exact h.agree ha
  | said o ho =>
    cases o with
    | ready | refused | planCleared | legProgress => exact h.note rfl rfl trivial
    | _ => cases ho
  | reported | anchored | asked | rampReset | restamped | taken =>
    exact ⟨h.loaded, h.selected, h.runs, h.spec, h.soft, h.log⟩
  | finished => exact h.gone rfl rfl rfl (fun _ => rfl) rfl trivial
  | succeeded => exact h.gone rfl rfl rfl (fun _ => rfl) rfl trivial
  | turnedAway reason hrun => exact h.gone rfl rfl hrun (fun _ => rfl) rfl trivial
  | cancelled reason x a hrun _ => exact h.gone rfl rfl hrun (fun _ => rfl) rfl trivial
  | disarmed hrun => exact h.gone rfl rfl hrun (fun _ => rfl) rfl trivial
  | sampled m command hrun _ => exact h.sampled command _ _ hrun
  | jogSent m command _ _ => exact h.other command _ _ nofun
  | holdSent m origin command ho _ =>
    refine h.other command _ _ ?_
    rintro id rfl
    rcases ho with ho | ho | ho <;> cases ho
  | staged p hrun hsoft =>
    refine ⟨?_, (selected_snoc c.log _).trans h.selected, fun _ => rfl, ?_, ?_, h.log.snoc trivial⟩
    · show Servo.loaded (c.log ++ [Obs.staged p]) = ⟨some p, c.running⟩
      rw [loaded_snoc, hrun]
      rfl
    · rintro q hq
      obtain rfl : p = q := Option.some.inj hq
      rfl
    · show c.poseHold.isSome → _
      rw [hsoft]
      exact fun h => absurd h Bool.false_ne_true
  | released p trajectory start hp hrun =>
    refine ⟨?_, (selected_snoc c.log _).trans h.selected, fun _ => Option.isSome_of_eq_some hp, h.spec, ?_, h.log.snoc trivial⟩
    · show Servo.loaded (c.log ++ [Obs.released p.planId trajectory start]) = ⟨c.plan, true⟩
      rw [loaded_snoc, h.loaded]
      rfl
    · intro hsoft
      have hnone := (h.soft hsoft).2
      rw [hp] at hnone
      cases hnone
  | held =>
    refine ⟨?_, (selected_snoc c.log _).trans h.selected, fun h => absurd h Bool.false_ne_true, h.spec,
      fun hs => ⟨rfl, (h.soft hs).2⟩, h.log.snoc trivial⟩
    show Servo.loaded (c.log ++ [Obs.held]) = ⟨c.plan, false⟩
    rw [loaded_snoc, h.loaded]
    rfl
  | soft spec x hrun hp =>
    refine ⟨?_, selected_snoc c.log (.soft spec), h.runs, ?_, fun _ => ⟨hrun, hp⟩, h.log.snoc trivial⟩
    · exact (loaded_snoc c.log (.soft spec)).trans h.loaded
    · show ∀ p ∈ c.plan, _
      rw [hp]
      exact fun p h => absurd h (Option.not_mem_none p)
  | gains kp kd _ => exact h.install kp kd
  | trackGains => exact h.install _ _
  | armed | faulted | paused | rtHeld | window | ended | consulted | jogged | cleared | expired | ramped | measured =>
    exact ⟨(loaded_snoc c.log _).trans h.loaded, (selected_snoc c.log _).trans h.selected, h.runs, h.spec, h.soft,
      h.log.snoc trivial⟩

/-- **The Cartesian law lives with its leg**: a Cartesian block belongs to a sample of the running leg and is its plan's own, no hold and no
jog carries one, and a pose hold is carried while Soft is selected, when no sample is sent. -/
theorem law_lives_with_leg (cfg : Config K n) (x : JointTrajectoryExecutor K) (settling : LegSettling K)
    (jog : JogHold K (Option K) n) (ramp : Option (JogRamp K n)) (source : Bool) (es : List (Moment K n × Input K n)) :
    Justified LawRule (Run.run (step cfg) (initial cfg x settling jog ramp source) es).log := by
  have h0 : LawInv (initial cfg x settling jog ramp source) :=
    ⟨rfl, rfl, fun h => absurd h Bool.false_ne_true, fun p h => absurd h (Option.not_mem_none p),
      fun h => absurd h Bool.false_ne_true, justified_nil⟩
  refine (invariant (P := Promise.free) rfl h0 (fun _ _ => LawInv.move) (Run.along_of_forall ?_ es)).log
  rintro c ⟨m, input⟩
  exact Promise.free_kept input

end

end ArmControl.Control.Servo
