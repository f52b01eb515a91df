import Mathlib.Logic.Relation
import ArmControl.Lib.Run
import ArmControl.Lib.Since
import ArmControl.Control.Servo

/-!
# What a call can do

Every call of the controller is a chain of small moves; what the moves keep, every run keeps.

* `Agree`         the fields that some rule is about, unchanged;
* `Promise`       what a caller may keep to: which gains it gives, when it selects a window;
* `Move`          one small change, with what is known when it happens;
* `Moves`         a chain of them, and one lemma for each function of the controller;
* `moves_step`    every call is a chain;
* `invariant`     **what every move keeps holds in every run.**
-/

set_option linter.unusedSectionVars false

namespace ArmControl.Control.Servo
open ArmControl.Motion History

section
variable {K : Type} [Field K] [LinearOrder K] {n : ℕ}

/-- the fields that some rule is about are the same -/
structure Agree (c c' : ArmController K n) : Prop where
  executor : c'.executor = c.executor
  settling : c'.settling = c.settling
  completionSampleAt : c'.completionSampleAt = c.completionSampleAt
  trackKp : c'.trackKp = c.trackKp
  trackKd : c'.trackKd = c.trackKd
  jog : c'.jog = c.jog
  jogRamp : c'.jogRamp = c.jogRamp
  lastState : c'.lastState = c.lastState
  lastStateAt : c'.lastStateAt = c.lastStateAt
  holdAnchor : c'.holdAnchor = c.holdAnchor
  cartesianNow : c'.cartesianNow = c.cartesianNow
  poseHold : c'.poseHold = c.poseHold
  armed : c'.armed = c.armed
  plan : c'.plan = c.plan
  reference : c'.reference = c.reference
  running : c'.running = c.running
  log : c'.log = c.log

namespace Obs

/-- entries that no rule is about -/
def idle : Obs K n → Bool
  | .ready => true
  | .refused .. => true
  | .planCleared .. => true
  | .legProgress .. => true
  | _ => false

/-- how a leg or a plan goes away -/
def ending : Obs K n → Bool
  | .legResult .. => true
  | .cancelled _ => true
  | .paused _ => true
  | .released .. => false
  | _ => false

end Obs

/-- what a caller keeps to -/
structure Promise (K : Type) [Field K] [LinearOrder K] where
  gains : JointTrajectoryExecutor K → Option (Gains K) → Option (Gains K) → Prop
  window : LegSettling K → Prop

/-- no promise at all -/
def Promise.free : Promise K := ⟨fun _ _ _ => True, fun _ => True⟩

/-- the last motor state in the log is at this pose -/
def TookPose (log : List (Obs K n)) (pose : Reading K n) : Prop :=
  Since (fun _ o => o = .measured pose) (fun o => o.ending) log

/-- a new measurement since the released leg was last asked about one -/
def unasked (log : List (Obs K n)) : Bool :=
  log.foldl (fun b o =>
    match o with
    | .measured _ => true
    | .released .. => true
    | .consulted .. => false
    | _ => b) false

/-- the jog has run out, and no command was sent, no state or jog taken and no plan released since -/
def expiring (log : List (Obs K n)) : Bool :=
  log.foldl (fun b o =>
    match o with
    | .expired => true
    | .motorCommand .. => false
    | .measured _ => false
    | .rtHeld _ => false
    | .jogged _ => false
    | .released .. => false
    | _ => b) false

/-- **One small change**, with what is known when it happens. -/
inductive Move (g : Config K n) (P : Promise K) : ArmController K n → ArmController K n → Prop
  | quiet {c c' : ArmController K n} (h : Agree c c') : Move g P c c'
  | said {c : ArmController K n} (o : Obs K n) (h : o.idle) : Move g P c (c.note o)
  | reported {c : ArmController K n} (at_ : Option K) :
      Move g P c { c with settling := { c.settling with reportAt := at_ } }
  -- how things end
  | finished {c : ArmController K n} (reason : String) (a : Option (JointServoCommand K n)) (x : Option (CartesianSpec K))
      (h : c.running) :
      Move g P c
        ({ c with reference := none, running := false, plan := none, holdAnchor := a, cartesianNow := x }.note
          (.legResult c.currentPlanId false reason))
  | turnedAway {c : ArmController K n} (reason : String) (h : c.running = false) :
      Move g P c ({ c with reference := none, plan := none }.note (.legResult c.currentPlanId false reason))
  | succeeded {c : ArmController K n} (p : List (Obs K n)) (now e s : K) (q v : Fin n → K)
      (a : Option (JointServoCommand K n)) (x : Option (CartesianSpec K)) (h : c.running)
      (hlog : c.log = p ++ [.consulted now q v true]) (he : c.settling.legEnd = some e)
      (hs : c.settling.settledSince = some s) (hdwell : c.settling.dwellS ≤ now - s)
      (hlate : now - e ≤ c.settling.timeoutS) :
      Move g P c
        ({ c with reference := none, running := false, plan := none, holdAnchor := a, cartesianNow := x }.note
          (.legResult c.currentPlanId true ""))
  | cancelled {c : ArmController K n} (reason : String) (x : Option (CartesianSpec K))
      (a : Option (JointServoCommand K n)) (h : c.running = false) (ha : a = none ∨ a = c.holdAnchor) :
      Move g P c
        ({ c with
          cartesianNow := x, poseHold := none, plan := none, reference := none, jog := c.jog.clear
          holdAnchor := a }.note (.cancelled reason))
  | disarmed {c : ArmController K n} (h : c.running = false) :
      Move g P c
        ({ c with
          plan := none, cartesianNow := none, reference := none, holdAnchor := none, jog := c.jog.clear
          poseHold := none }.note .disarmed)
  | armed {c : ArmController K n} (b : Bool) (h : b = false → c.armed → c.jog.q = none) :
      Move g P c ({ c with armed := b }.note (.arm b))
  | faulted {c : ArmController K n} (reason : String) (h : c.armed = false) : Move g P c (c.note (.fault reason))
  | paused {c : ArmController K n} (reason : String) (a : Option (JointServoCommand K n)) (hj : c.jog.q = none)
      (ha : a = none ∨ a = c.holdAnchor) : Move g P c ({ c with holdAnchor := a }.note (.paused reason))
  -- commands
  | sampled {c : ArmController K n} (m : Moment K n) (command : JointServoCommand K n) (h : c.running)
      (htails : c.cartesianNow = none ∨ c.poseHold = none) :
      Move g P c
        (c.note (.motorCommand (.sample c.currentPlanId) command c.cartesianNow c.poseHold c.lastState.position m.clock))
  | jogSent {c : ArmController K n} (m : Moment K n) (command : JointServoCommand K n)
      (hj : c.jog.q ≠ none) (hat : m.clock - c.jog.setAt ≤ c.jog.timeoutS) :
      Move g P c (c.note (.motorCommand .jog command none c.poseHold c.lastState.position m.clock))
  | holdSent {c : ArmController K n} (m : Moment K n) (origin : Origin) (command : JointServoCommand K n)
      (ho : origin = .hold ∨ origin = .gap ∨ origin = .abort) (hq : c.jog.q = none)
      (hrest : g.policy.isSome → command.qdDes = some (fun _ => 0) ∧
        (command.qDes = c.lastState.position ∨ ∃ a ∈ c.holdAnchor, command.qDes = a.qDes))
      (hfresh : g.policy = none → expiring c.log →
        command.qdDes = some (fun _ => 0) ∧ command.qDes = c.lastState.position) :
      Move g P c (c.note (.motorCommand origin command none c.poseHold c.lastState.position m.clock))
  | anchored {c : ArmController K n} (a : Option (JointServoCommand K n))
      (ha : g.policy.isSome → ∀ t ∈ a, t.qDes = c.lastState.position) : Move g P c { c with holdAnchor := a }
  | rtHeld {c : ArmController K n} (q : Fin n → K) (a : JointServoCommand K n) (ha : a.qDes = some q) :
      Move g P c ({ c with holdAnchor := some a }.note (.rtHeld (some q)))
  -- legs
  | staged {c : ArmController K n} (p : Plan K n) (h : c.running = false) (hsoft : c.poseHold = none) :
      Move g P c ({ c with plan := some p, cartesianNow := p.cartesian }.note (.staged p))
  | released {c : ArmController K n} (p : Plan K n) (trajectory : JointTrajectory K n) (start : Option K)
      (hp : c.plan = some p) (h : c.running = false) :
      Move g P c
        ({ c with
          jog := c.jog.clear, reference := some ⟨trajectory, start, true⟩
          settling := c.settling.begins (start.map (· + trajectory.duration)), completionSampleAt := none
          running := true }.note (.released p.planId trajectory start))
  | held {c : ArmController K n} : Move g P c ({ c with running := false, reference := none }.note .held)
  | window {c : ArmController K n} (ref : TrajectoryReference K n) (trajectory : JointTrajectory K n) (terminal : Bool)
      (href : c.reference = some ref) (hok : P.window c.settling) :
      Move g P c
        ({ c with reference := some { ref with trajectory := trajectory, terminal := terminal } }.note (.window trajectory))
  | asked {c : ArmController K n} : Move g P c { c with completionSampleAt := c.lastStateAt }
  | ended {c : ArmController K n} (ref : TrajectoryReference K n) (now phase : K) (href : c.reference = some ref)
      (h : c.running) (hnone : c.settling.legEnd = none) (hphase : ref.endPhase ≤ phase) :
      Move g P c ({ c with settling := { c.settling with legEnd := some now } }.note (.ended now phase))
  | consulted {c : ArmController K n} (ref : TrajectoryReference K n) (now e : K) (q v : Fin n → K)
      (href : c.reference = some ref) (h : c.running) (he : c.settling.legEnd = some e) (hlate : e ≤ now)
      (hfresh : c.completionSampleAt ≠ c.lastStateAt) (hunasked : g.policy = none → unasked c.log) :
      Move g P c
        ({ c with
          completionSampleAt := c.lastStateAt
          settling := c.settling.judged now (c.legDone g ref.end_ q v) }.note
          (.consulted now q v (c.legDone g ref.end_ q v)))
  -- gains
  | gains {c : ArmController K n} (kp kd : Option (Gains K)) (hok : P.gains c.executor kp kd) :
      Move g P c (c.installGains kp kd).1
  | trackGains {c : ArmController K n} : Move g P c (c.installGains (some c.trackKp) (some c.trackKd)).1
  | soft {c : ArmController K n} (spec : PoseHold K) (x : Option (CartesianSpec K)) (h : c.running = false)
      (hp : c.plan = none) (hq : c.jog.q = none) : Move g P c ({ c with poseHold := some spec, cartesianNow := x }.note (.soft spec))
  -- jogs
  | jogged {c : ArmController K n} (jog : JogHold K (Option K) n) (now : K) (ramp : Option (JogRamp K n))
      (h : c.running = false) (harmed : c.armed) (hset : jog.setAt = now) (hq : jog.q ≠ none)
      (htimeout : jog.timeoutS = c.jog.timeoutS) (hexpired : jog.expired = c.jog.expired)
      (hramp : ramp = c.jogRamp ∧ c.jog.q ≠ none ∨ ramp = c.jogRamp.map JogRamp.reset) :
      Move g P c ({ c with jog := jog, jogRamp := ramp }.note (.jogged now))
  | cleared {c : ArmController K n} (h : c.jog.q ≠ none) :
      Move g P c ({ c with jog := c.jog.clear, holdAnchor := some c.staticHold }.note (.cleared c.lastState.position))
  | expired {c : ArmController K n} (h : c.jog.q ≠ none) :
      Move g P c ({ c with jog := c.jog.clear, holdAnchor := some c.staticHold }.note .expired)
  | rampReset {c : ArmController K n} : Move g P c { c with jogRamp := c.jogRamp.map JogRamp.reset }
  | ramped {c : ArmController K n} (ramp next : JogRamp K n) (q : Fin n → K) (h : c.jog.q ≠ none)
      (hramp : c.jogRamp = some ramp) (hnext : next.q ≠ none) :
      Move g P c ({ c with jogRamp := some next }.note (.ramped (ramp.position q) ramp.velocity q))
  -- the plant
  | measured {c : ArmController K n} (at_ : K) (pose : Reading K n) :
      Move g P c ({ c with lastStateAt := some at_ }.note (.measured pose))
  | restamped {c : ArmController K n} (at_ : Option K) (h : g.policy.isSome → unasked c.log) :
      Move g P c { c with lastStateAt := at_ }
  | taken {c : ArmController K n} (s : JointState K n) (h : TookPose c.log s.position) :
      Move g P c { c with lastState := s }

/-- a chain of moves -/
abbrev Moves (g : Config K n) (P : Promise K) : ArmController K n → ArmController K n → Prop :=
  Relation.ReflTransGen (Move g P)

variable {g : Config K n} {P : Promise K} {m : Moment K n} {c c' : ArmController K n}

theorem Agree.refl (c : ArmController K n) : Agree c c := by constructor <;> rfl

theorem Moves.refl (c : ArmController K n) : Moves g P c c := Relation.ReflTransGen.refl

theorem Move.moves (h : Move g P c c') : Moves g P c c' := Relation.ReflTransGen.single h

theorem Agree.moves (h : Agree c c') : Moves g P c c' := (Move.quiet h).moves

/-- the expiry latch never stays raised -/
theorem Move.latched (h : Move g P c c') (hlatch : c.jog.expired = false) : c'.jog.expired = false := by
  cases h with
  | quiet h => rw [h.jog]; exact hlatch
  | jogged _ _ _ _ _ _ _ _ hexpired _ => exact hexpired.trans hlatch
  | gains kp kd _ =>
    unfold ArmController.installGains
    split <;> exact hlatch
  | trackGains =>
    unfold ArmController.installGains
    split <;> exact hlatch
  | cancelled => rfl
  | disarmed => rfl
  | released => rfl
  | cleared => rfl
  | expired => rfl
  | _ => exact hlatch

theorem Moves.latched (h : Moves g P c c') (hlatch : c.jog.expired = false) : c'.jog.expired = false := by
  induction h with
  | refl => exact hlatch
  | tail _ hmove ih => exact hmove.latched ih

/-! ## how things end -/

theorem moves_said {o : Obs K n} (h : o.idle) : Moves g P c (c.note o) := (Move.said o h).moves

theorem agree_streamSent (c : ArmController K n) : Agree c { c with streamSentAt := none, streamSentTarget := none } := by
  constructor <;> rfl

/-- the running leg ends, and the anchor with it -/
theorem moves_finishLeg (reason : String) (a : Option (JointServoCommand K n)) (x : Option (CartesianSpec K))
    (h : c.running) : Moves g P c { c.finishLeg false reason with holdAnchor := a, cartesianNow := x } :=
  (agree_streamSent c).moves.tail
    (Move.finished (c := { c with streamSentAt := none, streamSentTarget := none }) reason a x h)

theorem moves_turnAway (reason : String) (h : c.running = false) : Moves g P c (c.finishLeg false reason) := by
  refine ((agree_streamSent c).moves.tail
    (Move.turnedAway (c := { c with streamSentAt := none, streamSentTarget := none }) reason h)).trans (Agree.moves ?_)
  exact ⟨rfl, rfl, rfl, rfl, rfl, rfl, rfl, rfl, rfl, rfl, rfl, rfl, rfl, rfl, rfl, h.symm, rfl⟩

theorem running_failLeg (reason : String) : (c.failLeg reason).running = false := by
  unfold ArmController.failLeg
  split
  · rfl
  · rename_i h
    exact Bool.eq_false_iff.mpr h

theorem moves_failLeg (reason : String) : Moves g P c (c.failLeg reason) := by
  unfold ArmController.failLeg
  split
  · rename_i h
    exact moves_finishLeg reason c.holdAnchor c.cartesianNow h
  · exact Moves.refl c

theorem failLeg_frame (reason : String) :
    (c.failLeg reason).jog = c.jog ∧ (c.failLeg reason).holdAnchor = c.holdAnchor ∧ (c.failLeg reason).armed = c.armed := by
  unfold ArmController.failLeg
  split <;> exact ⟨rfl, rfl, rfl⟩

/-- a cancel that keeps the anchor or drops it -/
theorem moves_cancel (reason : String) (a : Option (JointServoCommand K n)) (ha : a = none ∨ a = c.holdAnchor) :
    Moves g P c { c.cancel g reason with holdAnchor := a } := by
  obtain ⟨hjog, hanchor, -⟩ := failLeg_frame (c := c) reason
  have hmove := Move.cancelled (g := g) (P := P) (c := c.failLeg reason) reason
    (if g.policy.isSome then none else c.cartesianNow) a (running_failLeg reason) (by rwa [hanchor])
  refine ((moves_failLeg reason).tail hmove).trans (Agree.moves ?_)
  rw [hjog]
  exact ⟨rfl, rfl, rfl, rfl, rfl, rfl, rfl, rfl, rfl, rfl, rfl, rfl, rfl, rfl, rfl, (running_failLeg reason).symm, rfl⟩

theorem moves_cancel_self (reason : String) : Moves g P c (c.cancel g reason) := by
  refine moves_cancel (g := g) reason (if c.keepsAnchor then c.holdAnchor else none) ?_
  split
  · exact Or.inr rfl
  · exact Or.inl rfl

theorem moves_disarmReset : Moves g P c (c.disarmReset g) := by
  obtain ⟨hjog, -, -⟩ := failLeg_frame (c := c) "disarmed mid-leg"
  have hmove := Move.disarmed (g := g) (P := P) (c := c.failLeg "disarmed mid-leg") (running_failLeg _)
  refine ((moves_failLeg _).tail hmove).trans (Agree.moves ?_)
  rw [hjog]
  exact ⟨rfl, rfl, rfl, rfl, rfl, rfl, rfl, rfl, rfl, rfl, rfl, rfl, rfl, rfl, rfl, (running_failLeg _).symm, rfl⟩

theorem moves_setArm (armed : Bool) : Moves g P c (c.setArm g m armed) := by
  unfold ArmController.setArm
  have hreset : Moves g P c (if c.armed && !armed then c.disarmReset g else c) := by
    split
    · exact moves_disarmReset
    · exact Moves.refl c
  have hjog : armed = false → (if c.armed && !armed then c.disarmReset g else c).armed →
      (if c.armed && !armed then c.disarmReset g else c).jog.q = none := by
    rintro rfl h
    by_cases hc : c.armed
    · rw [if_pos (by simp [hc])]
      rfl
    · rw [if_neg (by simp [hc])] at h
      exact absurd h hc
  refine hreset.trans ?_
  generalize (if c.armed && !armed then c.disarmReset g else c) = c₁ at hjog ⊢
  dsimp only
  split
  · have hrest : Agree c₁ { c₁ with
        armPose := c₁.restPose g m, armPoseFixed := false
        been := (c₁.restPose g m).map fun q => (q, q) } := by constructor <;> rfl
    exact hrest.moves.tail (Move.armed armed hjog)
  · exact (Move.armed armed hjog).moves

theorem moves_stop (reason : String) : Moves g P c (c.stop g m reason) := by
  unfold ArmController.stop
  split
  · exact Moves.refl c
  · have hquiet : Agree c { c with stopped := true } := by constructor <;> rfl
    refine hquiet.moves.trans ?_
    dsimp only
    split
    · exact (moves_setArm (m := m) false).tail (Move.faulted reason rfl)
    · rename_i h
      exact (Move.faulted (c := { c with stopped := true }) reason (Bool.eq_false_iff.mpr h)).moves

theorem moves_fault (reason : String) : Moves g P c (c.fault g m reason) :=
  (moves_failLeg reason).trans (moves_stop reason)

theorem moves_pauseObservation (reason : String) (preserve : Bool) :
    Moves g P c (c.pauseObservation g reason preserve) := by
  unfold ArmController.pauseObservation
  dsimp only
  split
  · have hcancel := moves_cancel (g := g) (P := P) (c := c) reason c.holdAnchor (Or.inr rfl)
    refine (hcancel.tail (Move.paused reason (if preserve && c.rtHolding && c.healthOk then c.holdAnchor else none)
      rfl ?_)).trans (Agree.moves (by constructor <;> rfl))
    split
    · exact Or.inr rfl
    · exact Or.inl rfl
  · rename_i h
    simp only [Bool.or_eq_true, not_or, Bool.not_eq_true] at h
    have hjog : c.jog.q = none := by
      have := h.1.2
      unfold JogHold.active at this
      exact Option.not_isSome_iff_eq_none.mp (by rw [this]; exact Bool.false_ne_true)
    refine ((Move.paused reason (if preserve && c.rtHolding && c.healthOk then c.holdAnchor else none)
      hjog ?_).moves).trans (Agree.moves (by constructor <;> rfl))
    split
    · exact Or.inr rfl
    · exact Or.inl rfl

/-! ## commands -/

/-- why a command may be sent, as the moves ask it -/
structure Sendable (g : Config K n) (c : ArmController K n) (m : Moment K n) (origin : Origin)
    (command : JointServoCommand K n) (cartesian : Bool) : Prop where
  sample : cartesian = true → c.running ∧ origin = .sample c.currentPlanId
  jog : cartesian = false → origin = .jog → c.jog.q ≠ none ∧ m.clock - c.jog.setAt ≤ c.jog.timeoutS
  hold : cartesian = false → origin ≠ .jog → (origin = .hold ∨ origin = .gap ∨ origin = .abort) ∧ c.jog.q = none
  rest : cartesian = false → origin ≠ .jog → g.policy.isSome → command.qdDes = some (fun _ => 0) ∧
    (command.qDes = c.lastState.position ∨ ∃ a ∈ c.holdAnchor, command.qDes = a.qDes)
  fresh : cartesian = false → origin ≠ .jog → g.policy = none → expiring c.log →
    command.qdDes = some (fun _ => 0) ∧ command.qDes = c.lastState.position

theorem moves_transmit {origin : Origin} {command : JointServoCommand K n} {cartesian : Bool}
    (h : Sendable g c m origin command cartesian) : Moves g P c (c.transmit m origin command cartesian) := by
  have hquiet : Agree c { c with lastCommand := some command } := by constructor <;> rfl
  refine hquiet.moves.trans ?_
  unfold ArmController.transmit
  cases cartesian with
  | true =>
    obtain ⟨hrun, rfl⟩ := h.sample rfl
    dsimp only
    rw [if_pos rfl]
    split
    · exact Moves.refl _
    · rename_i htails
      refine (Move.sampled (c := { c with lastCommand := some command }) m command hrun ?_).moves
      simpa [Option.isSome_iff_ne_none, or_iff_not_imp_left] using htails
  | false =>
    dsimp only
    rw [if_neg (by simp), if_neg (by simp)]
    by_cases ho : origin = .jog
    · subst ho
      obtain ⟨hq, hat⟩ := h.jog rfl rfl
      exact (Move.jogSent (c := { c with lastCommand := some command }) m command hq hat).moves
    · obtain ⟨horigin, hq⟩ := h.hold rfl ho
      exact (Move.holdSent (c := { c with lastCommand := some command }) m origin command horigin hq (h.rest rfl ho)
        (h.fresh rfl ho)).moves

/-- the arm is held where it is measured -/
theorem moves_sendMeasured (p : Policy K n) (hq : c.jog.q = none) : Moves g P c (c.sendMeasured g m p) := by
  unfold ArmController.sendMeasured
  have hanchor := Move.anchored (g := g) (P := P) (c := c) (some c.staticHold)
    (fun _ t ht => by rw [← Option.some.inj ht]; rfl)
  have hquiet : Agree { c with holdAnchor := some c.staticHold }
      { c with lastCommand := none, holdAnchor := some c.staticHold } := by constructor <;> rfl
  refine (hanchor.moves.trans hquiet.moves).trans ?_
  dsimp only
  split
  · exact moves_fault _
  · exact moves_transmit ⟨nofun, nofun, fun _ _ => ⟨Or.inr (Or.inr rfl), hq⟩, fun _ _ _ => ⟨rfl, Or.inl rfl⟩,
      fun _ _ _ _ => ⟨rfl, rfl⟩⟩

theorem moves_send {origin : Origin} {command : JointServoCommand K n} {cartesian : Bool}
    (h : Sendable g c m origin command cartesian) : Moves g P c (c.send g m origin command cartesian).1 := by
  unfold ArmController.send
  split
  · exact moves_transmit h
  · rename_i p hp
    have hfixed : Agree c (if c.armed && c.armPose.isSome then { c with armPoseFixed := true } else c) := by
      split <;> constructor <;> rfl
    have hsend : Sendable g (if c.armed && c.armPose.isSome then { c with armPoseFixed := true } else c) m origin command
        cartesian := by
      split
      · exact ⟨h.sample, h.jog, h.hold, h.rest, h.fresh⟩
      · exact h
    refine hfixed.moves.trans ?_
    generalize (if c.armed && c.armPose.isSome then { c with armPoseFixed := true } else c) = c₁ at hsend ⊢
    dsimp only
    split
    · exact moves_fault _
    · split
      · exact (moves_cancel_self _).trans (moves_sendMeasured p rfl)
      · exact moves_transmit hsend

/-! ## the settle clocks -/

/-- a call that may end the leg: the anchor is free then -/
def MovesEnding (g : Config K n) (P : Promise K) (c : ArmController K n) (r : ArmController K n × Bool) : Prop :=
  (r.2 = false → Moves g P c r.1) ∧
    (r.2 = true → ∀ a x, Moves g P c { r.1 with holdAnchor := a, cartesianNow := x })

theorem MovesEnding.after {r : ArmController K n × Bool} (h : Moves g P c c') (hr : MovesEnding g P c' r) :
    MovesEnding g P c r :=
  ⟨fun hf => h.trans (hr.1 hf), fun ht a x => h.trans (hr.2 ht a x)⟩

/-- acting on a verdict; an acceptance has the sample behind it -/
theorem moves_settled (now e : K) (q v : Fin n → K) (verdict : Option (SettleVerdict K)) (hrun : c.running)
    (hend : ∀ w ∈ verdict, w.state = .settled → c.settling.legEnd = some e ∧ now - e ≤ c.settling.timeoutS)
    (hdwell : ∀ w ∈ verdict, w.state = .settled → ∃ s, c.settling.settledSince = some s ∧ c.settling.dwellS ≤ now - s)
    (hlog : ∀ w ∈ verdict, w.state = .settled → ∃ p, c.log = p ++ [.consulted now q v true]) :
    MovesEnding g P c (c.settled now verdict) := by
  cases verdict with
  | none => exact ⟨fun _ => Moves.refl c, nofun⟩
  | some w =>
    unfold ArmController.settled
    dsimp only
    cases hw : w.state with
    | settled =>
      dsimp only
      refine ⟨nofun, fun _ a x => ?_⟩
      obtain ⟨he, hlate⟩ := hend w rfl hw
      obtain ⟨s, hs, hsince⟩ := hdwell w rfl hw
      obtain ⟨p, hp⟩ := hlog w rfl hw
      exact (agree_streamSent c).moves.tail
        (Move.succeeded (c := { c with streamSentAt := none, streamSentTarget := none }) p now e s q v a x hrun hp he hs
          hsince hlate)
    | timedOut =>
      dsimp only
      refine ⟨nofun, fun _ a x => ?_⟩
      have hfrozen : Agree c { c with
          lastCommand := some c.staticHold, pendingTraj := none, frozen := true } := by constructor <;> rfl
      exact hfrozen.moves.trans (moves_finishLeg (c := { c with
          lastCommand := some c.staticHold, pendingTraj := none, frozen := true }) "Completion timeout" a x hrun)
    | settling =>
      dsimp only
      refine ⟨fun _ => ?_, nofun⟩
      have hreport : { c.settling with reportAt := (c.settling.dueToReport now).2.reportAt } =
          (c.settling.dueToReport now).2 := by
        unfold LegSettling.dueToReport
        split <;> rfl
      have hmove := Move.reported (g := g) (P := P) (c := c) (c.settling.dueToReport now).2.reportAt
      rw [hreport] at hmove
      refine hmove.moves.trans ?_
      split
      · exact moves_said rfl
      · exact Moves.refl _

/-- a native end is observed, or nothing happens -/
theorem observedEnd_cases (now : K) (ref : TrajectoryReference K n) (phase : Option K) :
    (c.observedEnd now ref phase = c ∧ c.settling.observed now (phase.any fun x => decide (ref.endPhase ≤ x)) = c.settling) ∨
      ∃ x, c.settling.legEnd = none ∧ ref.endPhase ≤ x ∧ c.observedEnd now ref phase = c.note (.ended now x) ∧
        c.settling.observed now (phase.any fun x => decide (ref.endPhase ≤ x)) = { c.settling with legEnd := some now } := by
  unfold ArmController.observedEnd LegSettling.observed
  cases hend : c.settling.legEnd with
  | some e => exact Or.inl ⟨by cases phase <;> rfl, rfl⟩
  | none =>
    cases phase with
    | none => exact Or.inl ⟨rfl, rfl⟩
    | some x =>
      by_cases hx : ref.endPhase ≤ x
      · exact Or.inr ⟨x, rfl, hx, by simp [hx], by simp [hx]⟩
      · exact Or.inl ⟨by simp [hx], by simp [hx]⟩

/-- a poll after its end is known: a sample may be asked about, and the verdict is acted on -/
def judgedPoll (g : Config K n) (c : ArmController K n) (ref : TrajectoryReference K n) (now : K) (q v : Fin n → K)
    (fresh : Bool) : ArmController K n × Bool :=
  (if fresh && c.settling.isOver now then
    { c with
      completionSampleAt := c.lastStateAt
      settling := c.settling.judged now (c.legDone g ref.end_ q v) }.note
      (.consulted now q v (c.legDone g ref.end_ q v))
  else if fresh then { c with completionSampleAt := c.lastStateAt } else c).settled now
    (c.settling.legEnd.bind fun e =>
      if e ≤ now then
        some ((if fresh then c.settling.judged now (c.legDone g ref.end_ q v) else c.settling).verdict now e fresh)
      else none)

/-- a sample is asked about, and the verdict acted on -/
theorem moves_judged (ref : TrajectoryReference K n) (now : K) (q v : Fin n → K) (href : c.reference = some ref)
    (hrun : c.running) (hunasked : g.policy = none → unasked c.log) (fresh : Bool)
    (hfresh : fresh = decide (c.completionSampleAt ≠ c.lastStateAt)) :
    MovesEnding g P c (judgedPoll g c ref now q v fresh) := by
  unfold judgedPoll
  have hover : ∀ e, c.settling.legEnd = some e → c.settling.isOver now = decide (e ≤ now) := by
    intro e he
    unfold LegSettling.isOver
    rw [he]
    rfl
  cases hf : fresh with
  | false =>
    rw [Bool.false_and, if_neg Bool.false_ne_true, if_neg Bool.false_ne_true]
    have hnot : ∀ w ∈ (c.settling.legEnd.bind fun e =>
        if e ≤ now then some (c.settling.verdict now e false) else none), w.state ≠ .settled := by
      intro w hw hs
      rw [Option.mem_def, Option.bind_eq_some_iff] at hw
      obtain ⟨e, -, hw⟩ := hw
      split_ifs at hw
      rw [← Option.some.inj hw] at hs
      exact Bool.false_ne_true (LegSettling.verdict_settled hs).1
    rw [if_neg Bool.false_ne_true]
    exact moves_settled now 0 q v _ hrun (fun w hw h => absurd h (hnot w hw)) (fun w hw h => absurd h (hnot w hw))
      fun w hw h => absurd h (hnot w hw)
  | true =>
    rw [hf, eq_comm, decide_eq_true_eq] at hfresh
    rw [Bool.true_and, if_pos rfl, if_pos rfl]
    cases hend : c.settling.legEnd with
    | none =>
      have hno : c.settling.isOver now = false := by
        unfold LegSettling.isOver
        rw [hend]
        rfl
      rw [hno, if_neg Bool.false_ne_true]
      exact MovesEnding.after (Move.asked (g := g) (P := P) (c := c)).moves ⟨fun _ => Moves.refl _, nofun⟩
    | some e =>
      rw [hover e hend, Option.bind_some]
      by_cases hlate : e ≤ now
      · rw [if_pos hlate, if_pos (decide_eq_true hlate)]
        refine MovesEnding.after (Move.consulted ref now e q v href hrun hend hlate hfresh hunasked).moves ?_
        refine moves_settled now e q v _ hrun ?_ ?_ ?_
        · intro w hw hs
          rw [← Option.some.inj hw] at hs
          exact ⟨hend, (LegSettling.verdict_settled hs).2.2⟩
        · intro w hw hs
          rw [← Option.some.inj hw] at hs
          obtain ⟨-, ⟨s, hs, hdwell⟩, -⟩ := LegSettling.verdict_settled hs
          exact ⟨s, hs, hdwell⟩
        · intro w hw hs
          rw [← Option.some.inj hw] at hs
          obtain ⟨-, ⟨s, hs, -⟩, -⟩ := LegSettling.verdict_settled hs
          refine ⟨c.log, ?_⟩
          unfold LegSettling.judged at hs
          cases hdone : c.legDone g ref.end_ q v with
          | true => rfl
          | false =>
            rw [hdone] at hs
            cases hs
      · rw [if_neg hlate, if_neg (by simpa using hlate)]
        exact MovesEnding.after (Move.asked (g := g) (P := P) (c := c)).moves ⟨fun _ => Moves.refl _, nofun⟩

/-- the sample is marked as seen when it is fresh -/
def marked (c : ArmController K n) (fresh : Bool) : ArmController K n :=
  if fresh then { c with completionSampleAt := c.lastStateAt } else c

theorem moves_marked (fresh : Bool) : Moves g P c (marked c fresh) := by
  cases fresh with
  | false => exact Moves.refl c
  | true => exact Move.asked.moves

theorem execTime_marked (fresh : Bool) : (marked c fresh).execTime g m = c.execTime g m := by cases fresh <;> rfl

theorem observedEnd_marked (ref : TrajectoryReference K n) (now : K) (fresh : Bool) (phase : Option K) :
    (marked c fresh).observedEnd now ref phase =
      if fresh then { c.observedEnd now ref phase with completionSampleAt := c.lastStateAt }
      else c.observedEnd now ref phase := by
  cases fresh with
  | false => rfl
  | true =>
    show ArmController.observedEnd { c with completionSampleAt := c.lastStateAt } now ref phase = _
    unfold ArmController.observedEnd
    cases phase with
    | none => rfl
    | some x =>
      cases c.settling.legEnd with
      | some e => rfl
      | none =>
        dsimp only
        split <;> rfl

/-- a poll is the observed end, and then the rest -/
theorem polled_eq (ref : TrajectoryReference K n) (now : K) (q v : Fin n → K) (fresh : Bool) (phase : Option K) :
    (marked c fresh).polled g now ref q v fresh phase =
      judgedPoll g
        { c.observedEnd now ref phase with
          settling := c.settling.observed now (phase.any fun x => decide (ref.endPhase ≤ x)) } ref now q v fresh := by
  unfold ArmController.polled judgedPoll
  dsimp only
  rw [LegSettling.poll_eq, observedEnd_marked]
  have hsettling : (marked c fresh).settling = c.settling := by
    unfold marked
    split <;> rfl
  unfold LegSettling.asks
  rw [hsettling]
  generalize hobserved : c.settling.observed now (phase.any fun x => decide (ref.endPhase ≤ x)) = s
  rcases observedEnd_cases (c := c) now ref phase with ⟨h, -⟩ | ⟨x, -, -, h, -⟩
  · rw [h]
    cases fresh with
    | false => rfl
    | true => cases s.isOver now <;> rfl
  · rw [h]
    cases fresh with
    | false => rfl
    | true => cases s.isOver now <;> rfl

/-- the whole check: it raises, or it is a call that may end the leg -/
theorem moves_checkCompletion (ref : TrajectoryReference K n) (q v : Fin n → K) (href : c.reference = some ref)
    (hrun : c.running) (hunasked : g.policy = none → unasked c.log) :
    ((c.checkCompletion g m ref q v).2 = none → Moves g P c (c.checkCompletion g m ref q v).1) ∧
      ∀ b, (c.checkCompletion g m ref q v).2 = some b → MovesEnding g P c ((c.checkCompletion g m ref q v).1, b) := by
  unfold ArmController.checkCompletion
  split
  · refine ⟨nofun, ?_⟩
    rintro b hb
    obtain rfl := Option.some.inj hb
    exact ⟨fun _ => Moves.refl c, nofun⟩
  · dsimp only
    cases hphase : ref.nativePhase m with
    | none =>
      exact ⟨fun _ => moves_marked _, nofun⟩
    | some phase =>
      refine ⟨nofun, ?_⟩
      rintro b hb
      obtain rfl := Option.some.inj hb
      have hpoll := polled_eq (g := g) (c := c) ref (c.execTime g m) q v
        (decide (c.completionSampleAt ≠ c.lastStateAt)) phase
      show MovesEnding g P c ((marked c (decide (c.completionSampleAt ≠ c.lastStateAt))).polled g
        ((marked c (decide (c.completionSampleAt ≠ c.lastStateAt))).execTime g m) ref q v _ phase)
      rw [execTime_marked, hpoll]
      generalize c.execTime g m = now
      rcases observedEnd_cases (c := c) now ref phase with ⟨h, hobserved⟩ | ⟨x, hnone, hx, h, hobserved⟩
      · rw [h, hobserved]
        exact moves_judged ref now q v href hrun hunasked _ rfl
      · rw [h, hobserved]
        refine MovesEnding.after (Move.ended ref now x href hrun hnone hx).moves ?_
        refine moves_judged (c := { c with settling := { c.settling with legEnd := some now } }.note (.ended now x))
          ref now q v href hrun (fun hp => ?_) _ rfl
        show unasked (c.log ++ [Obs.ended now x]) = true
        unfold unasked
        rw [List.foldl_append]
        exact hunasked hp

/-! ## the stream -/

/-- looking at the jog: it is live, or there is none, or it has run out -/
theorem jogTarget_cases (hlatch : c.jog.expired = false) :
    (∃ q, c.jog.q = some q ∧ m.clock - c.jog.setAt ≤ c.jog.timeoutS ∧ c.jogTarget m = (c, some q, false)) ∨
      (c.jog.q = none ∧ c.jogTarget m = (c, none, false)) ∨
      (c.jog.q ≠ none ∧ c.jog.timeoutS < m.clock - c.jog.setAt ∧ c.jogTarget m =
        ({ c with jog := c.jog.clear, holdAnchor := some c.staticHold }.note .expired, none, true)) := by
  have hlatched : c.jog.takeExpired = (false, c.jog) := by
    unfold JogHold.takeExpired
    rw [hlatch, ← hlatch]
  unfold ArmController.jogTarget
  cases hq : c.jog.q with
  | none =>
    have htarget : c.jog.target m.clock = (none, c.jog) := by
      unfold JogHold.target
      rw [hq]
    refine Or.inr (Or.inl ⟨rfl, ?_⟩)
    rw [htarget]
    dsimp only
    rw [hlatched]
    rfl
  | some q =>
    by_cases hlate : c.jog.timeoutS < m.clock - c.jog.setAt
    · have htarget : c.jog.target m.clock = (none, { c.jog with q := none, expired := true }) := by
        unfold JogHold.target
        rw [hq]
        exact if_pos hlate
      refine Or.inr (Or.inr ⟨nofun, hlate, ?_⟩)
      rw [htarget]
      rfl
    · have htarget : c.jog.target m.clock = (some q, c.jog) := by
        unfold JogHold.target
        rw [hq]
        exact if_neg hlate
      refine Or.inl ⟨q, rfl, not_lt.mp hlate, ?_⟩
      rw [htarget]
      dsimp only
      rw [hlatched]
      rfl

theorem moves_anchored_none : Moves g P c { c with holdAnchor := none } :=
  (Move.anchored none fun _ t ht => absurd ht (Option.not_mem_none t)).moves

theorem moves_ramped (target q : Fin n → K) (h : c.jog.q ≠ none) :
    Moves g P c (c.ramped g target q).1 ∧ (c.ramped g target q).1.jog = c.jog := by
  unfold ArmController.ramped
  split
  · rename_i ramp p hramp hp
    exact ⟨(Move.ramped ramp _ q h hramp (Option.some_ne_none _)).moves, rfl⟩
  · exact ⟨Moves.refl c, rfl⟩

theorem moves_jogTick (jog : Fin n → Option K) (q : Fin n → K) (h : c.jog.q ≠ none)
    (hat : m.clock - c.jog.setAt ≤ c.jog.timeoutS) : Moves g P c (c.jogTick g m jog q) := by
  unfold ArmController.jogTick
  split
  · rename_i target htarget
    obtain ⟨hmoves, hjog⟩ := moves_ramped (g := g) (P := P) target q h
    refine (hmoves.trans moves_anchored_none).trans (moves_send ⟨nofun, fun _ _ => ?_, fun _ ho => absurd rfl ho,
      fun _ ho => absurd rfl ho, fun _ ho => absurd rfl ho⟩)
    show (c.ramped g target q).1.jog.q ≠ none ∧ m.clock - (c.ramped g target q).1.jog.setAt ≤
      (c.ramped g target q).1.jog.timeoutS
    rw [hjog]
    exact ⟨h, hat⟩
  · split
    · exact moves_fault _
    · exact moves_anchored_none.trans (moves_send ⟨nofun, fun _ _ => ⟨h, hat⟩, fun _ ho => absurd rfl ho,
        fun _ ho => absurd rfl ho, fun _ ho => absurd rfl ho⟩)

/-- the keepalive is at the anchor or at the measured pose -/
theorem moves_anchoredHold (q : Fin n → K) (refresh : Bool) (hq : c.jog.q = none)
    (hrefresh : g.policy = none → expiring c.log → refresh) :
    Moves g P c (c.anchoredHold g q refresh).1 ∧
      Sendable g (c.anchoredHold g q refresh).1 m .hold (c.anchoredHold g q refresh).2 false := by
  unfold ArmController.anchoredHold
  split
  · rename_i p hp
    have hpolicy : g.policy ≠ none := by rw [hp]; exact nofun
    constructor
    · dsimp only
      split
      · exact (Move.anchored (some c.staticHold) fun _ t ht => by rw [← Option.some.inj ht]; rfl).moves
      · exact Moves.refl c
    · have hjog : (if c.slipped p q then { c with holdAnchor := some c.staticHold } else c).jog.q = none := by
        split <;> exact hq
      dsimp only
      generalize (if c.slipped p q then { c with holdAnchor := some c.staticHold } else c) = c₁ at hjog ⊢
      refine ⟨nofun, nofun, fun _ _ => ⟨Or.inl rfl, hjog⟩, fun _ _ _ => ⟨rfl, ?_⟩, fun _ _ h => absurd h hpolicy⟩
      cases hanchor : c₁.holdAnchor with
      | none => exact Or.inl rfl
      | some a => exact Or.inr ⟨a, rfl, rfl⟩
  · rename_i hp
    have hnone : ¬ g.policy.isSome := by rw [hp]; exact Bool.false_ne_true
    cases refresh with
    | true =>
      have htarget : c.restTarget true = c.lastState.position := by
        unfold ArmController.restTarget
        cases c.lastCommand <;> rfl
      have hanchored := Move.anchored (g := g) (P := P) (c := c)
        (some (holdCommand c.executor c.lastState (some (c.restTarget true)))) fun h => absurd h hnone
      cases c.holdAnchor <;>
      exact ⟨hanchored.moves, nofun, nofun, fun _ _ => ⟨Or.inl rfl, hq⟩, fun _ _ h => absurd h hnone,
        fun _ _ _ _ => ⟨rfl, htarget⟩⟩
    | false =>
      have hquiet : ∀ {Q : Prop}, expiring c.log = true → Q := fun h => absurd (hrefresh hp h) Bool.false_ne_true
      cases c.holdAnchor with
      | some anchor =>
        exact ⟨Moves.refl c, nofun, nofun, fun _ _ => ⟨Or.inl rfl, hq⟩, fun _ _ h => absurd h hnone, fun _ _ _ h => hquiet h⟩
      | none =>
        exact ⟨(Move.anchored _ fun h => absurd h hnone).moves, nofun, nofun, fun _ _ => ⟨Or.inl rfl, hq⟩,
          fun _ _ h => absurd h hnone, fun _ _ _ h => hquiet h⟩

theorem moves_idle (q : Fin n → K) (hlatch : c.jog.expired = false) (hquiet : g.policy = none → expiring c.log = false) :
    Moves g P c (c.idle g m q) := by
  have hkeepalive : ∀ (c : ArmController K n) (refresh : Bool), c.jog.q = none →
      (g.policy = none → expiring c.log → refresh) → Moves g P c
        (let c := { c with jogRamp := c.jogRamp.map JogRamp.reset }
          let hold := c.anchoredHold g q refresh
          (hold.1.send g m .hold hold.2 false).1) := by
    intro c refresh hq hrefresh
    obtain ⟨hmoves, hsend⟩ := moves_anchoredHold (g := g) (P := P) (m := m)
      (c := { c with jogRamp := c.jogRamp.map JogRamp.reset }) q refresh hq hrefresh
    exact (Move.rampReset.moves.trans hmoves).trans (moves_send hsend)
  unfold ArmController.idle
  rcases jogTarget_cases (c := c) (m := m) hlatch with ⟨jog, hq, hat, h⟩ | ⟨hq, h⟩ | ⟨hq, -, h⟩
  · rw [h]
    exact moves_jogTick jog q (by rw [hq]; exact nofun) hat
  · rw [h]
    refine hkeepalive c false hq fun hp hexpiring => ?_
    rw [hquiet hp] at hexpiring
    cases hexpiring
  · rw [h]
    exact (Move.expired hq).moves.trans (hkeepalive _ true rfl fun _ _ => rfl)

theorem transmit_frame (origin : Origin) (command : JointServoCommand K n) (cartesian : Bool) :
    (c.transmit m origin command cartesian).running = c.running ∧
      (c.transmit m origin command cartesian).reference = c.reference ∧
      (unasked c.log → unasked (c.transmit m origin command cartesian).log) := by
  have hnoted : ∀ o : Obs K n, (∀ now q v b, o ≠ .consulted now q v b) → unasked c.log → unasked (c.log ++ [o]) := by
    intro o ho h
    unfold unasked at h ⊢
    rw [List.foldl_append, h]
    cases o with
    | consulted now q v b => exact absurd rfl (ho now q v b)
    | _ => rfl
  unfold ArmController.transmit
  dsimp only
  by_cases htails : ((if cartesian = true then c.cartesianNow else none).isSome && c.poseHold.isSome) = true
  · rw [if_pos htails]
    exact ⟨rfl, rfl, id⟩
  · rw [if_neg htails]
    exact ⟨rfl, rfl, hnoted _ nofun⟩

theorem moves_sampleTick (ref : TrajectoryReference K n) (q v : Fin n → K) (href : c.reference = some ref)
    (hrun : c.running) (hunasked : g.policy = none → unasked c.log) : Moves g P c (c.sampleTick g m ref q v) := by
  unfold ArmController.sampleTick
  split
  · exact Moves.refl c
  · rename_i point hpoint
    dsimp only
    have hsend : Moves g P c ({ c with holdAnchor := none }.send g m (.sample c.currentPlanId)
        ⟨some point.position, some point.velocity, c.executor.kp, c.executor.kd⟩ true).1 :=
      moves_anchored_none.trans (moves_send ⟨fun _ => ⟨hrun, rfl⟩, nofun, nofun, nofun, nofun⟩)
    split
    · exact hsend
    · split
      · rename_i hpolicy
        refine hsend.trans ?_
        have hnone : g.policy = none := Option.isNone_iff_eq_none.mp hpolicy
        unfold ArmController.send
        rw [hnone]
        dsimp only
        obtain ⟨hr, hf, hu⟩ := transmit_frame (m := m) (c := { c with holdAnchor := none }) (.sample c.currentPlanId)
          ⟨some point.position, some point.velocity, c.executor.kp, c.executor.kd⟩ true
        generalize ArmController.transmit m { c with holdAnchor := none } (.sample c.currentPlanId) _ true = c₁ at hr hf hu ⊢
        obtain ⟨hraise, hend⟩ := moves_checkCompletion (g := g) (P := P) (m := m) (c := c₁) ref q v (hf.trans href)
          (hr.trans hrun) fun _ => hu (hunasked hnone)
        cases hresult : (c₁.checkCompletion g m ref q v).2 with
        | none => exact hraise hresult
        | some b =>
          cases b with
          | false => exact (hend _ hresult).1 rfl
          | true => exact (hend _ hresult).2 rfl _ _
      · exact hsend

/-- the completion is checked first under a policy; without one nothing happens -/
theorem moves_settleFirst (q v : Fin n → K) :
    ((c.settleFirst g m q v).2 = none → Moves g P c (c.settleFirst g m q v).1) ∧
      (∀ b, (c.settleFirst g m q v).2 = some b → MovesEnding g P c ((c.settleFirst g m q v).1, b)) ∧
      (g.policy = none → c.settleFirst g m q v = (c, some false)) := by
  unfold ArmController.settleFirst
  split
  · rename_i ref hrun href
    rw [Bool.and_eq_true] at hrun
    have hnone : g.policy ≠ none := Option.isSome_iff_ne_none.mp hrun.1
    obtain ⟨hraise, hend⟩ := moves_checkCompletion (g := g) (P := P) (m := m) ref q v href hrun.2 fun h => absurd h hnone
    exact ⟨hraise, hend, fun h => absurd h hnone⟩
  · refine ⟨nofun, ?_, fun _ => rfl⟩
    rintro b hb
    obtain rfl := Option.some.inj hb
    exact ⟨fun _ => Moves.refl c, nofun⟩

theorem moves_retained (goal : Option (Fin n → K)) {c₀ : ArmController K n}
    (h : ∀ a x, Moves g P c₀ { c with holdAnchor := a, cartesianNow := x }) : Moves g P c₀ (c.retained goal) := by
  unfold ArmController.retained
  refine (h (if c.frozen then c.holdAnchor else goal.map fun goal => holdCommand c.executor c.lastState (some (some goal)))
    none).trans (Agree.moves ?_)
  constructor <;> rfl

/-- what is left of a tick when its leg is polled: a leg that goes on is sampled, without one the arm is held, or jogged -/
def ArmController.served (g : Config K n) (m : Moment K n) (q v : Fin n → K) (c : ArmController K n) : ArmController K n :=
  match c.running, c.reference with
  | true, some ref => c.sampleTick g m ref q v
  | _, _ => c.idle g m q

/-- a leg that goes on is sampled; without one the arm is held, or jogged -/
theorem moves_follow (q v : Fin n → K) (hlatch : c.jog.expired = false)
    (hstate : g.policy = none → unasked c.log ∧ expiring c.log = false) : Moves g P c (c.follow g m q v) := by
  have hgo : ∀ c₁ : ArmController K n, Moves g P c c₁ → (g.policy = none → unasked c₁.log ∧ expiring c₁.log = false) →
      Moves g P c (c₁.served g m q v) := by
    intro c₁ h hu
    unfold ArmController.served
    split
    · rename_i ref hrun href
      exact h.trans (moves_sampleTick ref q v href hrun fun hp => (hu hp).1)
    · exact h.trans (moves_idle q (h.latched hlatch) fun hp => (hu hp).2)
  obtain ⟨hraise, hend, hnone⟩ := moves_settleFirst (g := g) (P := P) (m := m) (c := c) q v
  unfold ArmController.follow
  dsimp only
  cases hresult : (c.settleFirst g m q v).2 with
  | none => exact hraise hresult
  | some b =>
    cases b with
    | true =>
      refine hgo _ (moves_retained _ ((hend _ hresult).2 rfl)) fun h => ?_
      rw [hnone h] at hresult
      cases hresult
    | false =>
      refine hgo _ ((hend _ hresult).1 rfl) fun h => ?_
      rw [hnone h]
      exact hstate h

/-- a cancel of a running leg leaves the anchor free -/
theorem moves_cancel_running (reason : String) (a : Option (JointServoCommand K n)) (h : c.running) :
    Moves g P c { c.cancel g reason with holdAnchor := a } := by
  have hfail : c.failLeg reason = c.finishLeg false reason := if_pos h
  have hmove := Move.cancelled (g := g) (P := P)
    (c := { c.finishLeg false reason with holdAnchor := a, cartesianNow := c.cartesianNow }) reason
    (if g.policy.isSome then none else c.cartesianNow) a rfl (Or.inr rfl)
  refine ((moves_finishLeg reason a c.cartesianNow h).tail hmove).trans (Agree.moves ?_)
  unfold ArmController.cancel
  rw [hfail]
  constructor <;> rfl

theorem expiring_cancel (reason : String) : expiring (c.cancel g reason).log = expiring c.log := by
  have hfail : expiring (c.failLeg reason).log = expiring c.log := by
    unfold ArmController.failLeg
    split
    · show expiring (c.log ++ [Obs.legResult c.currentPlanId false reason]) = expiring c.log
      unfold expiring
      rw [List.foldl_append]
      rfl
    · rfl
  show expiring ((c.failLeg reason).log ++ [Obs.cancelled reason]) = expiring c.log
  rw [← hfail]
  unfold expiring
  rw [List.foldl_append]
  rfl

/-- the RT holds the last target that was sent -/
theorem moves_gapHold (h : c.gapExceeded m) (hquiet : g.policy = none → expiring c.log = false) :
    Moves g P c (c.gapHold g m) := by
  have hrun : c.running := by
    unfold ArmController.gapExceeded at h
    simp only [Bool.and_eq_true] at h
    exact h.1.1
  unfold ArmController.gapHold
  dsimp only
  generalize hreason : "PC streamed command gap exceeded RT hold margin — re-plan from measured pose" = reason
  have hcancel := moves_cancel_running (g := g) (P := P) reason
    (some (holdCommand (c.cancel g reason).executor (c.cancel g reason).lastState (some c.streamSentTarget))) hrun
  refine (hcancel.trans (agree_streamSent _).moves).trans (moves_send ⟨nofun, nofun, fun _ _ => ⟨Or.inr (Or.inl rfl), rfl⟩,
    fun _ _ _ => ⟨rfl, Or.inr ⟨_, rfl, rfl⟩⟩, fun _ _ hp hexpiring => ?_⟩)
  have hno := (expiring_cancel (g := g) (c := c) reason).symm.trans hexpiring
  rw [hquiet hp] at hno
  cases hno

theorem moves_stream (hlatch : c.jog.expired = false) (hstate : g.policy = none → unasked c.log ∧ expiring c.log = false) :
    Moves g P c (c.stream g m) := by
  unfold ArmController.stream
  split
  · exact Moves.refl c
  · split
    · exact Moves.refl c
    · have hready : Moves g P c (if c.readySent then c else { c with readySent := true }.note .ready) ∧
          (g.policy = none → unasked (if c.readySent then c else { c with readySent := true }.note .ready).log ∧
            expiring (if c.readySent then c else { c with readySent := true }.note .ready).log = false) := by
        split
        · exact ⟨Moves.refl c, hstate⟩
        · have hquiet : Agree c { c with readySent := true } := by constructor <;> rfl
          refine ⟨hquiet.moves.trans (moves_said rfl), fun hp => ?_⟩
          show unasked (c.log ++ [Obs.ready]) = true ∧ expiring (c.log ++ [Obs.ready]) = false
          unfold unasked expiring
          rw [List.foldl_append, List.foldl_append]
          exact hstate hp
      obtain ⟨hmoves, hu⟩ := hready
      generalize (if c.readySent then c else { c with readySent := true }.note .ready) = c₁ at hmoves hu ⊢
      dsimp only
      split
      · split
        · rename_i hgap
          exact hmoves.trans (moves_gapHold hgap fun hp => (hu hp).2)
        · exact hmoves.trans (moves_follow _ _ (hmoves.latched hlatch) hu)
      · exact hmoves

theorem moves_tick (hlatch : c.jog.expired = false) : Moves g P c (c.tick g m) := by
  unfold ArmController.tick
  split
  · exact Moves.refl c
  · rename_i p hp
    split
    · exact Moves.refl c
    · split
      · exact moves_pauseObservation _ _
      · have hquiet : Agree c { c with observationPaused := false } := by constructor <;> rfl
        refine hquiet.moves.trans (moves_stream hlatch fun h => ?_)
        rw [hp] at h
        cases h

/-! ## legs and plans -/

theorem moves_released (p : Plan K n) (trajectory : JointTrajectory K n) (start : K) (hp : c.plan = some p)
    (h : c.running = false) : Moves g P c (c.released p.planId trajectory start) := by
  exact (Move.released (g := g) (P := P) p trajectory (if c.referenceSource then none else some start) hp h).moves.trans
    (agree_streamSent _).moves

theorem moves_release (planId : String) (start : Option K) : Moves g P c (c.release g m planId start) := by
  unfold ArmController.release
  split
  · exact Moves.refl c
  · rename_i plan hplan
    split
    · exact Moves.refl c
    · rename_i hid
      obtain rfl : plan.planId = planId := not_not.mp hid
      split
      · cases hrun : c.running with
        | true => exact moves_finishLeg "not armed" c.holdAnchor c.cartesianNow hrun
        | false => exact moves_turnAway "not armed" hrun
      · split
        · exact Moves.refl c
        · rename_i hidle
          have hrun : c.running = false := Bool.eq_false_iff.mpr hidle
          split
          · rename_i reason _
            have hquiet : Agree (c.finishLeg false reason) { c.finishLeg false reason with pendingTraj := none } := by
              constructor <;> rfl
            exact (moves_turnAway reason hrun).trans hquiet.moves
          · split
            · exact Moves.refl c
            · exact moves_released plan _ _ hplan hrun

/-- the executor is not touched -/
theorem executor_failLeg (reason : String) : (c.failLeg reason).executor = c.executor := by
  unfold ArmController.failLeg
  split <;> rfl

theorem executor_cancel (reason : String) : (c.cancel g reason).executor = c.executor := executor_failLeg reason

theorem executor_setArm (armed : Bool) : (c.setArm g m armed).executor = c.executor := by
  unfold ArmController.setArm
  have hreset : (if c.armed && !armed then c.disarmReset g else c).executor = c.executor := by
    split
    · exact executor_failLeg _
    · rfl
  dsimp only
  split <;> exact hreset

theorem executor_release (planId : String) (start : Option K) : (c.release g m planId start).executor = c.executor := by
  unfold ArmController.release
  split
  · rfl
  · split
    · rfl
    · split
      · rfl
      · split
        · rfl
        · split
          · rfl
          · split <;> rfl

/-! ## gains -/

theorem installGains_frame (kp kd : Option (Gains K)) :
    (c.installGains kp kd).1.running = c.running ∧ (c.installGains kp kd).1.plan = c.plan ∧
      (c.installGains kp kd).1.poseHold = c.poseHold ∧ (c.installGains kp kd).1.jog = c.jog := by
  unfold ArmController.installGains
  split <;> exact ⟨rfl, rfl, rfl, rfl⟩

theorem moves_controlGains (kp kd : Option (Gains K)) (hok : P.gains c.executor kp kd) :
    Moves g P c (c.controlGains g kp kd).1 := by
  unfold ArmController.controlGains
  split
  · exact Moves.refl c
  · split
    · exact Moves.refl c
    · have hsoft : Moves g P c (if c.poseHold.isSome then { c.cancel g "leaving Soft" with lastCommand := none } else c) ∧
          (if c.poseHold.isSome then { c.cancel g "leaving Soft" with lastCommand := none } else c).executor =
            c.executor := by
        split
        · have hquiet : Agree (c.cancel g "leaving Soft") { c.cancel g "leaving Soft" with lastCommand := none } := by
            constructor <;> rfl
          exact ⟨(moves_cancel_self _).trans hquiet.moves, executor_cancel (g := g) _⟩
        · exact ⟨Moves.refl c, rfl⟩
      obtain ⟨hmoves, hexecutor⟩ := hsoft
      generalize (if c.poseHold.isSome then { c.cancel g "leaving Soft" with lastCommand := none } else c) = c₁
        at hmoves hexecutor ⊢
      have hleg : Moves g P c₁ (if c₁.running then c₁.cancel g "gains changed mid-leg" else c₁) ∧
          (if c₁.running then c₁.cancel g "gains changed mid-leg" else c₁).executor = c₁.executor := by
        split
        · exact ⟨moves_cancel_self _, executor_cancel (g := g) _⟩
        · exact ⟨Moves.refl c₁, rfl⟩
      obtain ⟨hmoves', hexecutor'⟩ := hleg
      dsimp only
      generalize (if c₁.running then c₁.cancel g "gains changed mid-leg" else c₁) = c₂ at hmoves' hexecutor' ⊢
      have hgains := Move.gains (g := g) (P := P) (c := c₂) kp kd (by rwa [hexecutor', hexecutor])
      have hall := (hmoves.trans hmoves').tail hgains
      split
      · exact hall.trans moves_anchored_none
      · exact hall

theorem moves_setPoseHold (spec : Option (PoseHold K)) : Moves g P c (c.setPoseHold g m spec).1 := by
  unfold ArmController.setPoseHold
  split
  · exact Moves.refl c
  · rename_i spec _
    have hgains := (moves_cancel_self (g := g) (P := P) (c := c) "entering Soft").tail Move.trackGains
    obtain ⟨hrun, hplan, -, hcleared⟩ := installGains_frame (c := c.cancel g "entering Soft")
      (some (c.cancel g "entering Soft").trackKp) (some (c.cancel g "entering Soft").trackKd)
    have hjog := congrArg JogHold.q hcleared
    dsimp only
    generalize (c.cancel g "entering Soft").installGains _ _ = r at hgains hrun hplan hjog ⊢
    split
    · have hquiet : Agree r.1 { r.1 with lastCommand := none } := by constructor <;> rfl
      exact (hgains.trans hquiet.moves).tail (Move.soft (c := { r.1 with lastCommand := none }) spec none hrun hplan hjog)
    · exact hgains

/-! ## plans and control updates -/

theorem moves_loadPlan (p : Plan K n) (hrun : c.running = false) (hsoft : c.poseHold = none)
    (hok : p.trajectory.isSome → P.gains c.executor (some p.kp) (some p.kd)) : Moves g P c (c.loadPlan g m p) := by
  unfold ArmController.loadPlan
  split
  · exact Moves.refl c
  · rename_i trajectory hcurve
    have hgains := (Move.gains (g := g) (P := P) (c := c) (some p.kp) (some p.kd)
      (hok (Option.isSome_of_eq_some hcurve))).moves
    obtain ⟨hr, -, hs, -⟩ := installGains_frame (c := c) (some p.kp) (some p.kd)
    dsimp only
    generalize c.installGains (some p.kp) (some p.kd) = r at hgains hr hs ⊢
    split
    · exact hgains
    · have hstaged := hgains.tail (Move.staged p (hr.trans hrun) (hs.trans hsoft))
      have hquiet : Agree ({ r.1 with plan := some p, cartesianNow := p.cartesian }.note (.staged p))
          ({ r.1 with
            plan := some p, cartesianNow := p.cartesian, pendingTraj := some trajectory
            running := false }.note (.staged p)) :=
        ⟨rfl, rfl, rfl, rfl, rfl, rfl, rfl, rfl, rfl, rfl, rfl, rfl, rfl, rfl, rfl, (hr.trans hrun).symm, rfl⟩
      have hall := hstaged.trans hquiet.moves
      split
      · exact hall
      · exact hall.trans (moves_release _ _)

/-- a plan that is not refused comes to a controller that is idle and not in Soft -/
theorem planRefusal_none {p : Plan K n} (h : c.planRefusal g m p = none) : c.running = false ∧ c.poseHold = none := by
  unfold ArmController.planRefusal at h
  split_ifs at h with hsoft hstopped hfrozen hrunning
  all_goals exact ⟨Bool.eq_false_iff.mpr hrunning, Option.not_isSome_iff_eq_none.mp hsoft⟩

theorem moves_onPlan (p : PlanMessage K n)
    (hok : ∀ plan, p = .plan plan → c.planRefusal g m plan = none → plan.trajectory.isSome →
      P.gains c.executor (some plan.kp) (some plan.kd)) : Moves g P c (c.onPlan g m p) := by
  unfold ArmController.onPlan
  cases p with
  | nameless => exact Moves.refl c
  | malformed planId reason => exact moves_said rfl
  | plan p =>
    dsimp only
    split
    · exact moves_said rfl
    · rename_i hrefusal
      obtain ⟨hrun, hsoft⟩ := planRefusal_none hrefusal
      exact moves_loadPlan p hrun hsoft (hok p rfl hrefusal)

theorem moves_controlCancel (u : ControlUpdate K) : Moves g P c (c.controlCancel g u) := by
  unfold ArmController.controlCancel
  split
  · exact Moves.refl c
  · split
    · dsimp only
      split
      · exact (moves_cancel_self _).trans (moves_said rfl)
      · exact moves_cancel_self _
    · exact moves_said rfl

theorem moves_controlHold : Moves g P c c.controlHold := by
  have hquiet : Agree c { c with frozen := true } := by constructor <;> rfl
  exact hquiet.moves.tail Move.held

theorem moves_controlEnds (u : ControlUpdate K) : Moves g P c (c.controlEnds g m u) := by
  unfold ArmController.controlEnds
  refine (moves_controlCancel (g := g) u).trans ?_
  generalize c.controlCancel g u = c₁
  have hhold : Moves g P c₁ (if u.hold then c₁.controlHold else c₁) := by
    split
    · exact moves_controlHold
    · exact Moves.refl c₁
  refine hhold.trans ?_
  dsimp only
  generalize (if u.hold then c₁.controlHold else c₁) = c₂
  split
  · exact moves_stop _
  · exact Moves.refl c₂

theorem moves_controlSoft (u : ControlUpdate K) : Moves g P c (c.controlSoft g m u) := by
  unfold ArmController.controlSoft
  split
  · exact moves_controlEnds u
  · rename_i spec _
    have hsoft := moves_setPoseHold (g := g) (P := P) (m := m) (c := c) spec
    dsimp only
    split
    · exact hsoft.trans (moves_controlEnds u)
    · exact hsoft

theorem moves_controlLaw (u : ControlUpdate K) (hok : ∀ pair ∈ u.gains, P.gains c.executor pair.1 pair.2) :
    Moves g P c (c.controlLaw g m u) := by
  unfold ArmController.controlLaw
  split
  · exact moves_controlSoft u
  · rename_i gains hgains
    have hlaw := moves_controlGains (g := g) gains.1 gains.2 (hok gains hgains)
    dsimp only
    split
    · exact hlaw.trans (moves_controlSoft u)
    · exact hlaw

theorem moves_controlArm (u : ControlUpdate K) :
    Moves g P c (c.controlArm g m u) ∧ (c.controlArm g m u).executor = c.executor := by
  unfold ArmController.controlArm
  split
  · exact ⟨Moves.refl c, rfl⟩
  · exact ⟨moves_setArm _, executor_setArm _⟩

theorem moves_controlExecute (u : ControlUpdate K) :
    Moves g P c (c.controlExecute g m u) ∧ (c.controlExecute g m u).executor = c.executor := by
  unfold ArmController.controlExecute
  split
  · exact ⟨Moves.refl c, rfl⟩
  · exact ⟨moves_release _ _, executor_release _ _⟩

theorem moves_onControl (u : ControlUpdate K)
    (hok : u.payloadRaises = false → ∀ pair ∈ u.gains, P.gains c.executor pair.1 pair.2) :
    Moves g P c (c.onControl g m u) := by
  unfold ArmController.onControl
  obtain ⟨harm, hexecutor⟩ := moves_controlArm (g := g) (P := P) (m := m) (c := c) u
  dsimp only
  generalize c.controlArm g m u = c₁ at harm hexecutor ⊢
  split
  · exact harm
  · rename_i hpayload
    obtain ⟨hexecute, hexecutor'⟩ := moves_controlExecute (g := g) (P := P) (m := m) (c := c₁) u
    refine (harm.trans hexecute).trans (moves_controlLaw u ?_)
    rw [hexecutor', hexecutor]
    exact hok (Bool.eq_false_iff.mpr hpayload)

/-! ## jogs -/

/-- a jog that is not refused comes to a controller that is armed and idle -/
theorem jogRefusal_none (h : c.jogRefusal = none) : c.armed ∧ c.running = false := by
  unfold ArmController.jogRefusal at h
  split_ifs at h with hstopped hfrozen harmed hready hsoft hrunning
  exact ⟨by simpa using harmed, Bool.eq_false_iff.mpr hrunning⟩

theorem moves_onJog (q : List (Option K)) : Moves g P c (c.onJog m q) := by
  unfold ArmController.onJog
  split
  · exact Moves.refl c
  · rename_i hrefusal
    obtain ⟨harmed, hrun⟩ := jogRefusal_none hrefusal
    have hreset : Moves g P c (if c.jog.active then c else { c with jogRamp := c.jogRamp.map JogRamp.reset }) := by
      split
      · exact Moves.refl c
      · exact Move.rampReset.moves
    dsimp only
    split
    · exact hreset
    · rename_i jog hjog
      have hset : c.jog.set q m.clock = .ok jog := by
        rw [← hjog]
        split <;> rfl
      have hfields : jog.setAt = m.clock ∧ jog.q ≠ none ∧ jog.timeoutS = c.jog.timeoutS ∧ jog.expired = c.jog.expired := by
        unfold JogHold.set at hset
        split_ifs at hset
        obtain rfl := Except.ok.inj hset
        exact ⟨rfl, nofun, rfl, rfl⟩
      obtain ⟨hat, hq, htimeout, hexpired⟩ := hfields
      cases hactive : c.jog.active with
      | true =>
        rw [if_pos rfl]
        have hlive : c.jog.q ≠ none := Option.isSome_iff_ne_none.mp hactive
        exact (Move.jogged jog m.clock c.jogRamp hrun harmed hat hq htimeout hexpired (Or.inl ⟨rfl, hlive⟩)).moves
      | false =>
        rw [if_neg Bool.false_ne_true]
        exact (Move.jogged jog m.clock (c.jogRamp.map JogRamp.reset) hrun harmed hat hq htimeout hexpired
          (Or.inr rfl)).moves

theorem moves_clearJog : Moves g P c c.clearJog := by
  unfold ArmController.clearJog
  split
  · rename_i h
    exact (Move.cleared (Option.isSome_iff_ne_none.mp h)).moves
  · exact Moves.refl c

/-! ## the plant -/

theorem moves_rtHold (h : MotorHealth K n) : Moves g P c (c.rtHold g h) := by
  unfold ArmController.rtHold
  have hcancel : Moves g P c (if c.running then c.cancel g "RT command-staleness hold — re-plan from measured pose" else c) := by
    split
    · exact moves_cancel_self _
    · exact Moves.refl c
  dsimp only
  generalize (if c.running then c.cancel g "RT command-staleness hold — re-plan from measured pose" else c) = c₁ at hcancel ⊢
  split
  · exact hcancel
  · rename_i q _
    exact hcancel.tail (Move.rtHeld q _ rfl)

theorem moves_observeHealth (h : MotorHealth K n) : Moves g P c (c.observeHealth g m h) := by
  unfold ArmController.observeHealth
  have hpaused : ∀ c₁ : ArmController K n, Moves g P c c₁ → Moves g P c
      (let c := { c₁ with rtHolding := h.holding }
        if c.healthOk then c else c.pauseObservation g "plant health is faulted or stale" false) := by
    intro c₁ h₁
    have hholding : Agree c₁ { c₁ with rtHolding := h.holding } := by constructor <;> rfl
    dsimp only
    split
    · exact h₁.trans hholding.moves
    · exact (h₁.trans hholding.moves).trans (moves_pauseObservation _ _)
  refine hpaused _ ?_
  have hquiet : Agree c { c with
      healthAt := some m.clock, healthOk := h.stateFresh && !h.anyFault && !h.latchedFault } := by constructor <;> rfl
  dsimp only
  split
  · exact hquiet.moves.trans (moves_rtHold h)
  · exact hquiet.moves

theorem moves_onMotorHealth (h : MotorHealth K n) : Moves g P c (c.onMotorHealth g m h) := by
  unfold ArmController.onMotorHealth
  have hbridge : ∀ c₁ : ArmController K n, Moves g P c c₁ → Moves g P c
      (let c := { c₁ with supportsPoseHold := h.supportsPoseHold }
        if h.armed && !c.bridgeArmed && c.armed then { c with bridgeArmed := true }
        else if !h.armed && c.bridgeArmed && c.armed && !c.stopped then c.fault g m "plant reported disarmed"
        else c) := by
    intro c₁ h₁
    have hsupports : Agree c₁ { c₁ with supportsPoseHold := h.supportsPoseHold } := by constructor <;> rfl
    have h₂ := h₁.trans hsupports.moves
    dsimp only
    split
    · exact h₂.trans (Agree.moves (by constructor <;> rfl))
    · split
      · exact h₂.trans (moves_fault _)
      · exact h₂
  refine hbridge _ ?_
  split
  · exact moves_observeHealth h
  · exact Moves.refl c

theorem agree_ranged (c : ArmController K n) : Agree c c.ranged := by
  unfold ArmController.ranged
  split
  · exact Agree.refl c
  · split
    · exact Agree.refl c
    · constructor <;> rfl

/-- a pause says how things end, and nothing else -/
theorem log_pauseObservation (reason : String) (preserve : Bool) :
    ∃ new, (c.pauseObservation g reason preserve).log = c.log ++ new ∧ ∀ o ∈ new, o.ending := by
  have hfail : ∃ new, (c.failLeg reason).log = c.log ++ new ∧ ∀ o ∈ new, o.ending := by
    unfold ArmController.failLeg
    split
    · exact ⟨[Obs.legResult _ false reason], rfl, by simp [Obs.ending]⟩
    · exact ⟨[], (List.append_nil _).symm, by simp⟩
  obtain ⟨new, hlog, hnew⟩ := hfail
  unfold ArmController.pauseObservation
  dsimp only
  split
  · refine ⟨new ++ [Obs.cancelled reason, Obs.paused reason], ?_, ?_⟩
    · show (c.failLeg reason).log ++ [Obs.cancelled reason] ++ [Obs.paused reason] = _
      rw [hlog, List.append_assoc, List.append_assoc]
      rfl
    · intro o ho
      rcases List.mem_append.mp ho with ho | ho
      · exact hnew o ho
      · simp only [List.mem_cons, List.not_mem_nil, or_false] at ho
        rcases ho with rfl | rfl <;> rfl
  · exact ⟨[Obs.paused reason], rfl, by simp [Obs.ending]⟩

theorem agree_plantTick (c : ArmController K n) : Agree c (c.plantTick g) := by
  unfold ArmController.plantTick
  split <;> constructor <;> rfl

/-- a state under a policy may end what runs, and says nothing else -/
theorem log_observeState (p : Policy K n) (previous : Option K) (s : JointState K n) :
    ∃ new, (c.observeState g m p previous s).log = c.log ++ new ∧ ∀ o ∈ new, o.ending := by
  unfold ArmController.observeState
  split
  · exact log_pauseObservation (c := { c with lastStateAt := none }) _ _
  · have htaken : ∀ c₁ : ArmController K n, (c₁.takeState s).log = c₁.log :=
      fun c₁ => (agree_ranged { c₁ with lastState := s }).log
    rw [htaken]
    split
    · exact log_pauseObservation _ _
    · exact ⟨[], (List.append_nil _).symm, by simp⟩

/-- how things end does not answer for the measurement -/
theorem unasked_ending {log new : List (Obs K n)} (h : unasked log) (hnew : ∀ o ∈ new, o.ending) : unasked (log ++ new) := by
  induction new using List.reverseRecOn with
  | nil => rwa [List.append_nil]
  | append_singleton new o ih =>
    have hlog := ih fun o' ho' => hnew o' (List.mem_append_left _ ho')
    have ho := hnew o (List.mem_append_right _ (List.mem_singleton_self o))
    rw [← List.append_assoc]
    unfold unasked at hlog ⊢
    rw [List.foldl_append, hlog]
    cases o with
    | consulted => cases ho
    | _ => rfl

theorem unasked_measured (log : List (Obs K n)) (pose : Reading K n) :
    unasked (log ++ [Obs.measured pose]) ∧ expiring (log ++ [Obs.measured pose]) = false := by
  unfold unasked expiring
  rw [List.foldl_append, List.foldl_append]
  exact ⟨rfl, rfl⟩

/-- a state under a policy is a measurement that nothing has asked about yet -/
theorem unasked_onMotorState (hp : g.policy.isSome) (s : JointState K n) : unasked (c.onMotorState g m s).log := by
  obtain ⟨p, hp⟩ := Option.isSome_iff_exists.mp hp
  unfold ArmController.onMotorState
  rw [hp]
  have hmeasured := (unasked_measured c.log s.position).1
  dsimp only
  split
  · exact hmeasured
  · generalize hc : ({ c with lastStateAt := some m.clock } : ArmController K n).note (.measured s.position) = c₁
    have hlog : c₁.log = c.log ++ [Obs.measured s.position] := by rw [← hc]; rfl
    obtain ⟨new, h, hnew⟩ := log_observeState (g := g) (m := m) (c := c₁.plantTick g) p c.lastStateAt s
    rw [h, (agree_plantTick c₁).log, hlog]
    exact unasked_ending hmeasured hnew

/-- the state is the one that was measured -/
theorem moves_takeState (s : JointState K n) (h : TookPose c.log s.position) : Moves g P c (c.takeState s) :=
  (Move.taken s h).moves.trans (agree_ranged { c with lastState := s }).moves

theorem moves_observeState (p : Policy K n) (previous : Option K) (s : JointState K n) (h : TookPose c.log s.position)
    (hunasked : unasked c.log) : Moves g P c (c.observeState g m p previous s) := by
  unfold ArmController.observeState
  split
  · exact (Move.restamped none fun _ => hunasked).moves.trans (moves_pauseObservation _ _)
  · dsimp only
    split
    · obtain ⟨new, hlog, hnew⟩ := log_pauseObservation (g := g) (c := c) "motor state gap — re-plan" (!c.referenceSource)
      refine (moves_pauseObservation _ _).trans (moves_takeState s ?_)
      rw [hlog]
      exact Since.append h hnew
    · exact moves_takeState s h

theorem moves_onMotorState (s : JointState K n) (hlatch : c.jog.expired = false) : Moves g P c (c.onMotorState g m s) := by
  unfold ArmController.onMotorState
  have hmeasured := (Move.measured (g := g) (P := P) (c := c) m.clock s.position).moves
  dsimp only
  generalize hc : ({ c with lastStateAt := some m.clock } : ArmController K n).note (.measured s.position) = c₁
    at hmeasured ⊢
  have hlog : c₁.log = c.log ++ [Obs.measured s.position] := by rw [← hc]; rfl
  split
  · exact hmeasured
  · have htick := agree_plantTick (g := g) c₁
    have hpose : TookPose (c₁.plantTick g).log s.position := by
      rw [htick.log, hlog]
      exact Since.now rfl
    have hstate : unasked (c₁.plantTick g).log ∧ expiring (c₁.plantTick g).log = false := by
      rw [htick.log, hlog]
      exact unasked_measured _ _
    have hmoves := hmeasured.trans htick.moves
    split
    · have htaken : Moves g P c ((c₁.plantTick g).takeState s) := hmoves.trans (moves_takeState s hpose)
      refine htaken.trans (moves_stream (htaken.latched hlatch) fun _ => ?_)
      rw [show ((c₁.plantTick g).takeState s).log = (c₁.plantTick g).log from
        (agree_ranged { c₁.plantTick g with lastState := s }).log]
      exact hstate
    · exact hmoves.trans (moves_observeState _ _ s hpose hstate.1)

theorem moves_stamped (stamp : Option K) (h : g.policy.isSome → unasked c.log) : Moves g P c (c.stamped stamp) := by
  unfold ArmController.stamped
  split
  · exact (Move.restamped _ h).moves
  · exact Moves.refl c

/-! ## the supervisor -/

theorem agree_commandSent (planId : String) (q : Reading K n) (sentAt : K) : Agree c (c.commandSent planId q sentAt) := by
  unfold ArmController.commandSent
  split <;> constructor <;> rfl

theorem moves_selectReferenceWindow (planId : String) (trajectory : JointTrajectory K n) (terminal : Bool)
    (hok : P.window c.settling) : Moves g P c (c.selectReferenceWindow planId trajectory terminal) := by
  unfold ArmController.selectReferenceWindow
  split
  · exact Moves.refl c
  · rename_i ref href
    split
    · exact Moves.refl c
    · exact (Move.window ref trajectory terminal href hok).moves

theorem agree_bindReferenceSource : Agree c c.bindReferenceSource := by
  unfold ArmController.bindReferenceSource
  split <;> constructor <;> rfl

/-! ## runs -/

/-- the call keeps the promise -/
def Promise.Kept (P : Promise K) (g : Config K n) (c : ArmController K n) (m : Moment K n) : Input K n → Prop
  | .setGains kp kd => P.gains c.executor kp kd
  | .plan (.plan p) => c.planRefusal g m p = none → p.trajectory.isSome → P.gains c.executor (some p.kp) (some p.kd)
  | .control u => u.payloadRaises = false → ∀ pair ∈ u.gains, P.gains c.executor pair.1 pair.2
  | .selectReferenceWindow .. => P.window c.settling
  | _ => True

/-- no promise is kept by every call -/
theorem Promise.free_kept (input : Input K n) : (Promise.free : Promise K).Kept g c m input := by
  cases input with
  | plan p =>
    cases p with
    | plan p => exact fun _ _ => trivial
    | malformed => trivial
    | nameless => trivial
  | control u => exact fun _ _ _ => trivial
  | _ => trivial

/-- every call is a chain of moves -/
theorem moves_step (input : Input K n) (hlatch : c.jog.expired = false) (hok : P.Kept g c m input) :
    Moves g P c (step g c (m, input)) := by
  unfold step
  cases input with
  | setGains kp kd => exact (Move.gains kp kd hok).moves
  | plan p =>
    refine moves_onPlan p ?_
    rintro plan rfl
    exact hok
  | control u => exact moves_onControl u hok
  | release planId start => exact moves_release planId start
  | jog q => exact moves_onJog q
  | clearJog => exact moves_clearJog
  | motorHealth h => exact moves_onMotorHealth h
  | motorState s stamp => exact (moves_onMotorState s hlatch).trans (moves_stamped stamp fun h => unasked_onMotorState h s)
  | tick => exact moves_tick hlatch
  | commandSent planId q sentAt => exact (agree_commandSent planId q sentAt).moves
  | selectReferenceWindow planId trajectory terminal => exact moves_selectReferenceWindow planId trajectory terminal hok
  | bindReferenceSource => exact agree_bindReferenceSource.moves
  | streamHoldDeadline limit => exact Agree.moves (by constructor <;> rfl)

/-- the log only grows -/
theorem Move.grows (hmove : Move g P c c') : c.log <+: c'.log := by
  cases hmove with
  | quiet ha => rw [ha.log]
  | reported | anchored | asked | rampReset | restamped | taken => exact List.prefix_refl c.log
  | gains kp kd =>
    unfold ArmController.installGains
    split <;> exact List.prefix_append c.log _
  | trackGains =>
    unfold ArmController.installGains
    split <;> exact List.prefix_append c.log _
  | _ => exact List.prefix_append c.log _

theorem Moves.grows (h : Moves g P c c') : c.log <+: c'.log := by
  induction h with
  | refl => exact List.prefix_refl c.log
  | tail _ hmove ih => exact ih.trans hmove.grows

/-- what every move keeps, every chain keeps -/
theorem Moves.keeps {I : ArmController K n → Prop} (h : Moves g P c c') (hI : ∀ c c', Move g P c c' → I c → I c')
    (h0 : I c) : I c' := by
  induction h with
  | refl => exact h0
  | tail _ hmove ih => exact hI _ _ hmove ih

/-- **What every move keeps holds in every run** whose calls keep the promise. -/
theorem invariant {I : ArmController K n → Prop} (hlatch : c.jog.expired = false) (h0 : I c)
    (hI : ∀ c c', Move g P c c' → I c → I c') {es : List (Moment K n × Input K n)}
    (hok : Run.Along (step g) (fun c e => P.Kept g c e.1 e.2) c es) : I (Run.run (step g) c es) := by
  have hboth : (Run.run (step g) c es).jog.expired = false ∧ I (Run.run (step g) c es) := by
    refine Run.invariant (I := fun c => c.jog.expired = false ∧ I c) ⟨hlatch, h0⟩ ?_ hok
    rintro c ⟨m, input⟩ hkept ⟨hl, h⟩
    have hmoves := moves_step (g := g) (m := m) input hl hkept
    exact ⟨hmoves.latched hl, hmoves.keeps hI h⟩
  exact hboth.2

end

end ArmControl.Control.Servo
