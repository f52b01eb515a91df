import ArmControl.Control.ServoTypes

/-!
# The controller (`control/arm_controller.py`)

* `ArmController`   its fields, and `log`, what it sent and what happened to it;
* `finishLeg`, `cancel`, `disarmReset`, `setArm`, `stop`, `fault`, `pauseObservation`   how things end;
* `send`            the one place a command leaves from;
* `onPlan`, `onControl`, `release`, `onJog`, `clearJog`, `onMotorHealth`, `onMotorState`, `tick`;
* `step`            one call.

A call takes no time on the controller's clocks.  A call that raises leaves the state it has reached.
Feedforward torque, the integral, the mode reports and the printed texts are left out.
-/

namespace ArmControl.Control.Servo
open ArmControl.Motion

section
variable {K : Type} [Field K] [LinearOrder K] {n : ℕ}

structure ArmController (K : Type) [Field K] [LinearOrder K] (n : ℕ) where
  executor : JointTrajectoryExecutor K
  settling : LegSettling K
  completionSampleAt : Option K := none
  trackKp : Gains K
  trackKd : Gains K
  referenceSource : Bool := false
  healthAt : Option K := none
  healthOk : Bool
  rtHolding : Bool := false
  observationPaused : Bool := false
  plantT : K := 0
  jog : JogHold K (Option K) n
  jogRamp : Option (JogRamp K n)
  lastState : JointState K n := ⟨some fun _ => 0, some fun _ => 0⟩
  lastStateAt : Option K := none
  lastCommand : Option (JointServoCommand K n) := none
  holdAnchor : Option (JointServoCommand K n) := none
  armPose : Option (Fin n → K) := none
  armPoseFixed : Bool := false
  /-- the least and the greatest position since ARM -/
  been : Option ((Fin n → K) × (Fin n → K)) := none
  cartesianNow : Option (CartesianSpec K) := none
  poseHold : Option (PoseHold K) := none
  supportsPoseHold : Bool := false
  armed : Bool := false
  bridgeArmed : Bool
  readySent : Bool := false
  frozen : Bool := false
  stopped : Bool := false
  plan : Option (Plan K n) := none
  pendingTraj : Option (JointTrajectory K n) := none
  reference : Option (TrajectoryReference K n) := none
  running : Bool := false
  streamGapLimitS : Option K := none
  streamSentAt : Option K := none
  streamSentTarget : Reading K n := none
  log : List (Obs K n) := []

/-- the controller as it is constructed -/
def initial (cfg : Config K n) (executor : JointTrajectoryExecutor K) (settling : LegSettling K)
    (jog : JogHold K (Option K) n) (jogRamp : Option (JogRamp K n)) (referenceSource : Bool) : ArmController K n where
  executor := executor
  settling := settling
  trackKp := executor.kp
  trackKd := executor.kd
  referenceSource := referenceSource
  healthOk := !cfg.needsHealth
  jog := jog.clear
  jogRamp := jogRamp.map JogRamp.reset
  bridgeArmed := !cfg.needsHealth

/-- zero desired velocity, current gains; the default target is the measured pose -/
def holdCommand (x : JointTrajectoryExecutor K) (measured : JointState K n) (qDes : Option (Reading K n)) :
    JointServoCommand K n :=
  ⟨qDes.getD measured.position, some fun _ => 0, x.kp, x.kd⟩

/-! ## checks on commands -/

namespace Policy
variable (p : Policy K n)

/-- one of the gain vectors of a command -/
def gainsValid (g : Gains K) : Bool := decide (g.shape = [n]) && g.isFinite && !g.negative

def commandValid (command : JointServoCommand K n) (torqueOk : Bool) (been : Option (List (Fin n → K))) : Bool :=
  match command.qDes, command.qdDes with
  | some q, some qd =>
    gainsValid (n := n) command.kp && gainsValid (n := n) command.kd &&
      !decide (ExecutionPolicy.outside (p.envelope (been.getD [])) q q) &&
      !decide (ExecutionPolicy.beyond p.velocityLimits fun j => |qd j|) && torqueOk
  | _, _ => false

def trackingErrorExceeded (command : JointServoCommand K n) (measured : Reading K n) : Bool :=
  match command.qDes, measured with
  | some q, some m => !decide (∀ j, |q j - m j| ≤ p.abortPosErrRad)
  | _, _ => true

def relatchTolerance (kp : Gains K) (j : Fin n) : K :=
  min p.holdRelatchRad (1 / 4 * p.torqueLimits j / max ((kp.joint j).getD 0) (1 / 10 ^ 9))

end Policy

namespace ArmController
variable (cfg : Config K n) (m : Moment K n) (c : ArmController K n)

def note (o : Obs K n) : ArmController K n := { c with log := c.log ++ [o] }

def currentPlanId : String := (c.plan.map Plan.planId).getD ""

/-- trajectory time under whichever clock is configured -/
def execTime : K := if cfg.statePeriod.isSome then c.plantT else m.reference

def staticHold : JointServoCommand K n := holdCommand c.executor c.lastState none

def observationError (p : Policy K n) : Option String :=
  if !c.lastStateAt.any fun at_ => m.clock - at_ ≤ p.stateTimeout then some "motor state stale — re-plan"
  else if cfg.needsHealth && !(c.healthOk && c.healthAt.any fun at_ => m.clock - at_ ≤ p.healthTimeout) then
    some "motor health stale or faulted — re-plan"
  else none

/-- the poses that the envelope widens to -/
def whereBeen (p : Policy K n) : Option (List (Fin n → K)) :=
  if !c.armed then none
  else match c.armPose, p.position with
    | some rest, some b =>
      let been := c.been.getD (rest, rest)
      some [fun j => if rest j < b.1 j then been.1 j else rest j, fun j => if b.2 j < rest j then been.2 j else rest j]
    | _, _ => none

/-! ## how things end -/

def finishLeg (ok : Bool) (reason : String) : ArmController K n :=
  { c with streamSentAt := none, streamSentTarget := none, reference := none, running := false, plan := none }.note
    (.legResult c.currentPlanId ok reason)

/-- a staged plan has not moved the arm -/
def keepsAnchor : Bool :=
  c.plan.isSome && c.pendingTraj.isSome && !c.running && !c.jog.active && c.poseHold.isNone && c.cartesianNow.isNone &&
    !c.frozen && !c.stopped &&
    (match c.lastCommand, c.lastState.velocity with
      | some last, some v => (last.qdDes.any fun qd => decide (∀ j, qd j = 0)) && decide (∀ j, |v j| < 1 / 100)
      | _, _ => false)

/-- the running leg, if there is one, has failed -/
def failLeg (reason : String) : ArmController K n := if c.running then c.finishLeg false reason else c

/-- abort the current leg and hold, still armed and still runnable -/
def cancel (reason : String) : ArmController K n :=
  { c.failLeg reason with
    cartesianNow := if cfg.policy.isSome then none else c.cartesianNow
    lastCommand := if c.poseHold.isSome then none else c.lastCommand
    poseHold := none, frozen := false, plan := none, pendingTraj := none, running := false, reference := none
    jog := c.jog.clear
    holdAnchor := if c.keepsAnchor then c.holdAnchor else none }.note (.cancelled reason)

/-- disarming is a lifecycle event, not just a flag -/
def disarmReset : ArmController K n :=
  { c.failLeg "disarmed mid-leg" with
    plan := none, cartesianNow := none, pendingTraj := none, running := false, reference := none, readySent := false
    bridgeArmed := !cfg.needsHealth, holdAnchor := none, jog := c.jog.clear, lastCommand := none
    poseHold := none }.note .disarmed

/-- the pose it rests at as it arms, when there is a fresh one -/
def restPose : Option (Fin n → K) :=
  match cfg.policy with
  | some p => if c.lastStateAt.any fun at_ => m.clock - at_ ≤ p.stateTimeout then c.lastState.position else none
  | none => none

def setArm (armed : Bool) : ArmController K n :=
  let c' := if c.armed && !armed then c.disarmReset cfg else c
  let c' :=
    if armed && !c.armed then
      let rest := c'.restPose cfg m
      { c' with armPose := rest, armPoseFixed := false, been := rest.map fun q => (q, q) }
    else c'
  { c' with armed := armed }.note (.arm armed)

def stop (reason : String) : ArmController K n :=
  if c.stopped then c
  else
    let c := { c with stopped := true }
    let c := if c.armed then c.setArm cfg m false else c
    c.note (.fault reason)

def fault (reason : String) : ArmController K n := (c.failLeg reason).stop cfg m reason

def pauseObservation (reason : String) (preserveRtHold : Bool) : ArmController K n :=
  let anchor := if preserveRtHold && c.rtHolding && c.healthOk then c.holdAnchor else none
  let c :=
    if !c.observationPaused || c.plan.isSome || c.running || c.jog.active || c.poseHold.isSome then c.cancel cfg reason
    else c
  { c with observationPaused := true, readySent := false, lastCommand := none, holdAnchor := anchor }.note (.paused reason)

/-! ## commands -/

/-- two tails in one command raise -/
def transmit (origin : Origin) (command : JointServoCommand K n) (cartesian : Bool) : ArmController K n :=
  let spec := if cartesian then c.cartesianNow else none
  let c := { c with lastCommand := some command }
  if spec.isSome && c.poseHold.isSome then c
  else c.note (.motorCommand origin command spec c.poseHold c.lastState.position m.clock)

/-- the hold at the measured pose that replaces a command -/
def sendMeasured (p : Policy K n) : ArmController K n :=
  let c := { c with lastCommand := none, holdAnchor := some c.staticHold }
  if !p.commandValid c.staticHold m.holdTorqueOk (c.whereBeen p) then c.fault cfg m "invalid measured hold command"
  else c.transmit m .abort c.staticHold false

/-- `cartesian`: this word belongs to the running leg and carries its Cartesian spec -/
def send (origin : Origin) (command : JointServoCommand K n) (cartesian : Bool) : ArmController K n × Bool :=
  match cfg.policy with
  | none => (c.transmit m origin command cartesian, true)
  | some p =>
    let c := if c.armed && c.armPose.isSome then { c with armPoseFixed := true } else c
    if !p.commandValid command m.torqueOk (c.whereBeen p) then
      (c.fault cfg m "non-finite or invalid servo command", false)
    else if c.poseHold.isNone && p.trackingErrorExceeded command c.lastState.position then
      ((c.cancel cfg "tracking error exceeded — holding measured pose").sendMeasured cfg m p, false)
    else (c.transmit m origin command cartesian, true)

/-- the anchor is left behind -/
def slipped (p : Policy K n) (q : Fin n → K) : Bool :=
  match c.holdAnchor with
  | none => true
  | some anchor =>
    match anchor.qDes with
    | none => false
    | some target => decide (∃ j, p.relatchTolerance c.executor.kp j < |q j - target j|)

/-- the last command was at rest -/
def quiescent (last : JointServoCommand K n) : Bool := last.qdDes.any fun qd => decide (∀ j, |qd j| < 1 / 20)

/-- the last commanded target, unless it was a moving one -/
def restTarget (refresh : Bool) : Reading K n :=
  match c.lastCommand with
  | some last => if !refresh && quiescent last then last.qDes else c.lastState.position
  | none => c.lastState.position

/-- the keepalive hold, anchored once a hold episode -/
def anchoredHold (q : Fin n → K) (refresh : Bool) : ArmController K n × JointServoCommand K n :=
  match cfg.policy with
  | some p =>
    let c := if c.slipped p q then { c with holdAnchor := some c.staticHold } else c
    (c, holdCommand c.executor c.lastState (c.holdAnchor.map JointServoCommand.qDes))
  | none =>
    match c.holdAnchor, refresh with
    | some anchor, false => (c, anchor)
    | _, _ =>
      let anchor := holdCommand c.executor c.lastState (some (c.restTarget refresh))
      ({ c with holdAnchor := some anchor }, anchor)

/-! ## the legs -/

def releaseError (planId : String) : Option String :=
  match c.plan with
  | none => some "the named plan is no longer staged"
  | some plan =>
    if plan.planId ≠ planId then some "the named plan is no longer staged"
    else if !c.armed || !c.readySent then some "not armed"
    else
      match cfg.policy with
      | none => none
      | some p =>
        (c.observationError cfg m p).or
          ((p.startError (fun j => plan.positions.entry 0 j) (c.lastState.position.getD fun _ => 0)).map
            (PlanError.text cfg.fixed cfg.general))

/-- the released leg -/
def released (planId : String) (trajectory : JointTrajectory K n) (start : K) : ArmController K n :=
  let start := if c.referenceSource then none else some start
  { c with
    jog := c.jog.clear, reference := some ⟨trajectory, start, true⟩
    settling := c.settling.begins (start.map (· + trajectory.duration)), completionSampleAt := none
    streamSentAt := none, streamSentTarget := none, running := true }.note (.released planId trajectory start)

/-- start a named plan -/
def release (planId : String) (start : Option K) : ArmController K n :=
  match c.plan with
  | none => c
  | some plan =>
    if plan.planId ≠ planId then c
    else if !c.armed || !c.readySent then c.finishLeg false "not armed"
    else if c.running then c
    else
      match (if cfg.policy.isSome then c.releaseError cfg m planId else none) with
      | some reason => { c.finishLeg false reason with pendingTraj := none }
      | none =>
        match c.pendingTraj with
        | none => c
        | some trajectory => c.released planId trajectory (start.getD (c.execTime cfg m))

/-- the rule arrives with the plan -/
def legDone (goal q v : Fin n → K) : Bool :=
  match c.plan.bind Plan.completion, c.cartesianNow with
  | none, some _ =>
    match c.executor.donePoseTol with
    -- refused at admission
    | none => false
    | some tol =>
      decide (∀ j, |v j| ≤ c.executor.doneVelTol) && decide ((cfg.handError goal q).1 ≤ tol.1) &&
        decide ((cfg.handError goal q).2 ≤ tol.2)
  | none, none =>
    decide (∀ j, |q j - goal j| ≤ c.executor.donePosTol) && decide (∀ j, |v j| ≤ c.executor.doneVelTol)
  | some spec, _ =>
    decide (∀ j, |v j| ≤ spec.velTol) &&
      (match spec.goal with
        | none => true
        | some (goal, residualMax) => decide (∀ j, |q j - goal j| ≤ residualMax))

/-- a failed settle freezes at the measured pose -/
def freeze : ArmController K n :=
  { c with
    lastCommand := some c.staticHold, holdAnchor := some c.staticHold, cartesianNow := none, pendingTraj := none
    frozen := true }

/-- act on the settle verdict -/
def settled (now : K) : Option (SettleVerdict K) → ArmController K n × Bool
  | none => (c, false)
  | some v =>
    match v.state with
    | .settled => (c.finishLeg true "", true)
    | .timedOut => (c.freeze.finishLeg false "Completion timeout", true)
    | .settling =>
      let due := c.settling.dueToReport now
      let c := { c with settling := due.2 }
      (if due.1 then c.note (.legProgress c.currentPlanId v) else c, false)

/-- the observed end of a native reference -/
def observedEnd (now : K) (ref : TrajectoryReference K n) (phase : Option K) : ArmController K n :=
  match phase, c.settling.legEnd with
  | some phase, none => if ref.endPhase ≤ phase then c.note (.ended now phase) else c
  | _, _ => c

/-- one poll of the settle clocks -/
def polled (now : K) (ref : TrajectoryReference K n) (q v : Fin n → K) (fresh : Bool) (phase : Option K) :
    ArmController K n × Bool :=
  let ended := phase.any fun phase => ref.endPhase ≤ phase
  let done := c.legDone cfg ref.end_ q v
  let verdict := c.settling.poll now fresh done ended
  let c' := c.observedEnd now ref phase
  let c' := if c.settling.asks now fresh ended then c'.note (.consulted now q v done) else c'
  { c' with settling := verdict.2 }.settled now verdict.1

/-- report, accept, or freeze; `none` raises -/
def checkCompletion (ref : TrajectoryReference K n) (q v : Fin n → K) : ArmController K n × Option Bool :=
  if !ref.terminal then (c, some false)
  else
    let fresh := decide (c.completionSampleAt ≠ c.lastStateAt)
    let c := if fresh then { c with completionSampleAt := c.lastStateAt } else c
    match ref.nativePhase m with
    | none => (c, none)
    | some phase =>
      let r := c.polled cfg (c.execTime cfg m) ref q v fresh phase
      (r.1, some r.2)

/-! ## the stream -/

/-- the held jog, and whether it has just expired -/
def jogTarget : ArmController K n × Option (Fin n → Option K) × Bool :=
  let target := c.jog.target m.clock
  let expired := target.2.takeExpired
  let c := { c with jog := expired.2 }
  (if expired.1 then { c with holdAnchor := some c.staticHold }.note .expired else c, target.1, expired.1)

/-- the target of this tick: saturated when there are limits -/
def ramped (target : Fin n → K) (q : Fin n → K) : ArmController K n × (Fin n → K) :=
  match c.jogRamp, cfg.policy with
  | some ramp, some p =>
    let next := ramp.step cfg.sqrt target q p.period
    ({ c with jogRamp := some next }.note (.ramped (ramp.position q) ramp.velocity q), next.q.getD target)
  | _, _ => (c, target)

def jogTick (jog : Fin n → Option K) (q : Fin n → K) : ArmController K n :=
  match finite jog with
  | some target =>
    let r := c.ramped cfg target q
    let c := { r.1 with holdAnchor := none }
    (c.send cfg m .jog (holdCommand c.executor c.lastState (some (some r.2))) false).1
  | none =>
    if cfg.policy.isSome then c.fault cfg m "non-finite or invalid servo command"
    else
      let c := { c with holdAnchor := none }
      (c.send cfg m .jog (holdCommand c.executor c.lastState (some none)) false).1

/-- no trajectory released: the jog, or the anchor -/
def idle (q : Fin n → K) : ArmController K n :=
  let r := c.jogTarget m
  match r.2.1 with
  | some jog => r.1.jogTick cfg m jog q
  | none =>
    let c := { r.1 with jogRamp := r.1.jogRamp.map JogRamp.reset }
    let hold := c.anchoredHold cfg q r.2.2
    (hold.1.send cfg m .hold hold.2 false).1

/-- a sample of the running leg -/
def sampleTick (ref : TrajectoryReference K n) (q v : Fin n → K) : ArmController K n :=
  match ref.sample m (c.execTime cfg m) with
  | none => c
  | some point =>
    let command : JointServoCommand K n := ⟨some point.position, some point.velocity, c.executor.kp, c.executor.kd⟩
    let r := { c with holdAnchor := none }.send cfg m (.sample c.currentPlanId) command true
    if !r.2 then r.1
    else if cfg.policy.isNone then (r.1.checkCompletion cfg m ref q v).1
    else r.1

/-- an ordinary completion keeps the planned endpoint -/
def retained (goal : Option (Fin n → K)) : ArmController K n :=
  let anchor := goal.map fun goal => holdCommand c.executor c.lastState (some (some goal))
  { c with
    lastCommand := if c.frozen then c.lastCommand else anchor
    holdAnchor := if c.frozen then c.holdAnchor else anchor, cartesianNow := none }

/-- under a policy the completion is checked first; `none` raises -/
def settleFirst (q v : Fin n → K) : ArmController K n × Option Bool :=
  match cfg.policy.isSome && c.running, c.reference with
  | true, some ref => c.checkCompletion cfg m ref q v
  | _, _ => (c, some false)

def follow (q v : Fin n → K) : ArmController K n :=
  let goal := if (c.plan.bind Plan.completion).isNone then c.reference.map TrajectoryReference.end_ else none
  let r := c.settleFirst cfg m q v
  match r.2 with
  | none => r.1
  | some ended =>
    let c := if ended then r.1.retained goal else r.1
    match c.running, c.reference with
    | true, some ref => c.sampleTick cfg m ref q v
    | _, _ => c.idle cfg m q

/-- the PC streamed command gap exceeded the RT hold margin -/
def gapExceeded : Bool :=
  c.running && !c.referenceSource &&
    (match c.streamGapLimitS, c.streamSentAt with
      | some limit, some sent => decide (limit < m.clock - sent)
      | _, _ => false)

def gapHold : ArmController K n :=
  let target := c.streamSentTarget
  let c := c.cancel cfg "PC streamed command gap exceeded RT hold margin — re-plan from measured pose"
  let anchor := holdCommand c.executor c.lastState (some target)
  let c := { c with holdAnchor := some anchor, streamSentAt := none, streamSentTarget := none }
  (c.send cfg m .gap anchor false).1

def stream : ArmController K n :=
  if !c.armed then c
  else if !c.readySent && !c.bridgeArmed then c
  else
    let c := if c.readySent then c else { c with readySent := true }.note .ready
    match c.lastState.position, c.lastState.velocity with
    | some q, some v => if c.gapExceeded m then c.gapHold cfg m else c.follow cfg m q v
    | _, _ => c

/-- one deadline-driven command -/
def tick : ArmController K n :=
  match cfg.policy with
  | none => c
  | some p =>
    if c.stopped then c
    else
      match c.observationError cfg m p with
      | some reason => c.pauseObservation cfg reason false
      | none => { c with observationPaused := false }.stream cfg m

/-! ## gains -/

/-- `executor.set_gains`; `false` when it raises -/
def installGains (kp kd : Option (Gains K)) : ArmController K n × Bool :=
  match c.executor.setGains kp kd with
  | .ok _ x => ({ c with executor := x }.note (.gains c.executor x false), true)
  | .error _ x => ({ c with executor := x }.note (.gains c.executor x true), false)

/-- change the control law under an operator's hand; `false` when it raises -/
def controlGains (kp kd : Option (Gains K)) : ArmController K n × Bool :=
  if kp.isNone && kd.isNone then (c, true)
  else
    match gainError (kp.getD c.executor.kp) (kd.getD c.executor.kd) with
    | some _ => (c, true)
    | none =>
      let c := if c.poseHold.isSome then { c.cancel cfg "leaving Soft" with lastCommand := none } else c
      let c := if c.running then c.cancel cfg "gains changed mid-leg" else c
      let r := c.installGains kp kd
      (if r.2 then { r.1 with holdAnchor := none } else r.1, r.2)

def validatePoseHold (spec : Option (PoseHold K)) : Option (PoseHold K) :=
  if (match cfg.policy with
      | some p => (c.observationError cfg m p).isSome
      | none => false) then none
  else
    match spec with
    | none => none
    | some spec =>
      if ¬ spec.Valid ∨ cfg.calibrated = true then none
      else if !c.supportsPoseHold || !c.armed || !c.readySent || c.stopped || c.frozen then none
      else if !(c.lastStateAt.any fun at_ => m.clock - at_ ≤ 1) || c.lastState.position.isNone then none
      else
        match c.lastState.velocity with
        | none => none
        | some v => if c.running || c.jog.active || !decide (∀ j, |v j| ≤ 1 / 20) then none else some spec

/-- select Soft; `false` when the gains raise -/
def setPoseHold (spec : Option (PoseHold K)) : ArmController K n × Bool :=
  match c.validatePoseHold cfg m spec with
  | none => (c, true)
  | some spec =>
    let c := c.cancel cfg "entering Soft"
    let r := c.installGains (some c.trackKp) (some c.trackKd)
    if r.2 then
      ({ r.1 with lastCommand := none, cartesianNow := none, poseHold := some spec }.note (.soft spec), true)
    else (r.1, false)

/-! ## plans -/

def refusePlan (planId reason : String) (report : Bool) : ArmController K n := c.note (.refused planId reason report)

/-- why a decoded plan is not loaded, and whether that is reported -/
def planRefusal (p : Plan K n) : Option (String × Bool) :=
  if c.poseHold.isSome then some ("Soft pose hold active; select Track before planning", true)
  else if c.stopped then some ("controller is stopped", false)
  else if c.frozen then some ("controller is frozen (hold or failed settle) - press Stop to clear", false)
  else if c.running then some (s!"{c.currentPlanId} is still executing", false)
  else if cfg.modelToken.isSome ∧ p.modelToken ≠ cfg.modelToken then
    some ("plan model " ++ p.modelToken.getD "None" ++ " != controller model " ++ cfg.modelToken.getD "None" ++ "; re-plan",
      true)
  else
    (match cfg.policy with
      | none => none
      | some policy =>
        (c.observationError cfg m policy).or
          (if !(p.kp.isFinite && p.kd.isFinite) then some "trajectory contains non-finite values"
            else (policy.planError cfg.sqrt p.arrays (c.lastState.position.getD fun _ => 0) (c.whereBeen policy)).map
              (PlanError.text cfg.fixed cfg.general)))
    |>.or ((gainError p.kp p.kd).map (GainError.text cfg.render))
    |>.or (if p.cartesian.isSome && p.completion.isNone && c.executor.donePoseTol.isNone then
        some ("a Cartesian leg without a completion rule completes on the hand pose: this arm configures no " ++
          "arm.done_pose_tol_m/done_pose_tol_rad")
      else none)
    |>.map fun reason => (reason, true)

/-- load one leg; a curve or gains of the wrong shape raise -/
def loadPlan (p : Plan K n) : ArmController K n :=
  match p.trajectory with
  | none => c
  | some trajectory =>
    let r := c.installGains (some p.kp) (some p.kd)
    if !r.2 then r.1
    else
      let c :=
        { r.1 with
          plan := some p, cartesianNow := p.cartesian, pendingTraj := some trajectory, running := false }.note (.staged p)
      if p.gated then c else c.release cfg m p.planId none

def onPlan : PlanMessage K n → ArmController K n
  | .nameless => c
  | .malformed planId reason => c.refusePlan planId s!"malformed plan: {reason}" true
  | .plan p =>
    match c.planRefusal cfg m p with
    | some (reason, report) => c.refusePlan p.planId reason report
    | none => c.loadPlan cfg m p

/-! ## control updates -/

def controlCancel (u : ControlUpdate K) : ArmController K n :=
  if !u.cancel then c
  else if u.cancelPlanId.isNone || c.currentPlanId = "" || u.cancelPlanId = some c.currentPlanId then
    let cleared := if c.currentPlanId = "" then u.cancelPlanId.getD "" else c.currentPlanId
    let c := c.cancel cfg (u.reason.getD "cancelled")
    if u.cancelPlanId.isSome then c.note (.planCleared cleared true) else c
  -- a delayed cancel must never clear a different plan
  else c.note (.planCleared (u.cancelPlanId.getD "") false)

/-- hold this pose forever rather than disarming -/
def controlHold : ArmController K n := { c with frozen := true, running := false, reference := none }.note .held

/-- the fields after the gains -/
def controlEnds (u : ControlUpdate K) : ArmController K n :=
  let c := c.controlCancel cfg u
  let c := if u.hold then c.controlHold else c
  if u.stop then c.stop cfg m (u.reason.getD "True") else c

def controlSoft (u : ControlUpdate K) : ArmController K n :=
  match u.poseHold with
  | none => c.controlEnds cfg m u
  | some spec =>
    let r := c.setPoseHold cfg m spec
    if r.2 then r.1.controlEnds cfg m u else r.1

def controlLaw (u : ControlUpdate K) : ArmController K n :=
  match u.gains with
  | none => c.controlSoft cfg m u
  | some gains =>
    let r := c.controlGains cfg gains.1 gains.2
    if r.2 then r.1.controlSoft cfg m u else r.1

def controlArm (u : ControlUpdate K) : ArmController K n :=
  match u.arm with
  | none => c
  | some armed => c.setArm cfg m armed

def controlExecute (u : ControlUpdate K) : ArmController K n :=
  match u.execute with
  | none => c
  | some planId => c.release cfg m planId none

def onControl (u : ControlUpdate K) : ArmController K n :=
  let c := c.controlArm cfg m u
  if u.payloadRaises then c else (c.controlExecute cfg m u).controlLaw cfg m u

/-! ## jogs -/

/-- why a jog would be dropped now -/
def jogRefusal : Option String :=
  if c.stopped then some "stopped"
  else if c.frozen then some "frozen after a failed settle (cancel/hold, or DISARM, clears it)"
  else if !c.armed then some "not armed"
  else if !c.readySent then some "no fresh measured pose since ARM"
  else if c.poseHold.isSome then some "Soft (pose hold) is selected"
  else if c.running then some "a plan is running"
  else none

/-- take a live setpoint; one of the wrong width raises -/
def onJog (q : List (Option K)) : ArmController K n :=
  match c.jogRefusal with
  | some _ => c
  | none =>
    -- a new jog starts at the measured pose, at rest
    let c := if c.jog.active then c else { c with jogRamp := c.jogRamp.map JogRamp.reset }
    match c.jog.set q m.clock with
    | .error _ => c
    | .ok jog => { c with jog := jog }.note (.jogged m.clock)

/-- drop a live jog and hold the measured pose -/
def clearJog : ArmController K n :=
  if c.jog.active then
    { c with jog := c.jog.clear, holdAnchor := some c.staticHold }.note (.cleared c.lastState.position)
  else c

/-! ## the plant -/

/-- the RT has replaced the moving command with a measured hold -/
def rtHold (h : MotorHealth K n) : ArmController K n :=
  let c := if c.running then c.cancel cfg "RT command-staleness hold — re-plan from measured pose" else c
  match h.holdingQ with
  | none => c
  | some q => { c with holdAnchor := some (holdCommand c.executor c.lastState (some (some q))) }.note (.rtHeld (some q))

def observeHealth (h : MotorHealth K n) : ArmController K n :=
  let c := { c with healthAt := some m.clock, healthOk := h.stateFresh && !h.anyFault && !h.latchedFault }
  let c := if !c.referenceSource && h.holding && !c.rtHolding && c.healthOk then c.rtHold cfg h else c
  let c := { c with rtHolding := h.holding }
  if c.healthOk then c else c.pauseObservation cfg "plant health is faulted or stale" false

def onMotorHealth (h : MotorHealth K n) : ArmController K n :=
  let c := if cfg.policy.isSome then c.observeHealth cfg m h else c
  let c := { c with supportsPoseHold := h.supportsPoseHold }
  if h.armed && !c.bridgeArmed && c.armed then { c with bridgeArmed := true }
  else if !h.armed && c.bridgeArmed && c.armed && !c.stopped then c.fault cfg m "plant reported disarmed"
  else c

/-- where it rests until the first command, and where it has been -/
def ranged : ArmController K n :=
  match c.lastState.position with
  | none => c
  | some q =>
    if !c.armed then c
    else
      { c with
        armPose := if c.armPoseFixed then c.armPose else some q
        been := some (match c.been with
          | none => (q, q)
          | some b => (fun j => min (b.1 j) (q j), fun j => max (b.2 j) (q j))) }

/-- the gap between two states was too long -/
def stateGap (p : Policy K n) (previous : Option K) : Bool := previous.any fun at_ => decide (p.stateTimeout < m.clock - at_)

def takeState (s : JointState K n) : ArmController K n := { c with lastState := s }.ranged

/-- one more state on the plant's clock -/
def plantTick : ArmController K n :=
  match cfg.statePeriod with
  | none => c
  | some period => { c with plantT := c.plantT + period }

/-- a state under a policy -/
def observeState (p : Policy K n) (previous : Option K) (s : JointState K n) : ArmController K n :=
  if s.position.isNone || s.velocity.isNone then
    { c with lastStateAt := none }.pauseObservation cfg "non-finite motor state" false
  else
    let c :=
      if stateGap m p previous then
        c.pauseObservation cfg "motor state gap — re-plan" (!c.referenceSource)
      else c
    c.takeState s

def onMotorState (s : JointState K n) : ArmController K n :=
  let previous := c.lastStateAt
  let c := { c with lastStateAt := some m.clock }.note (.measured s.position)
  if c.stopped then c
  else
    let c := c.plantTick cfg
    match cfg.policy with
    | none => (c.takeState s).stream cfg m
    | some p => c.observeState cfg m p previous s

/-- the supervisor's stamp: when the sample arrived -/
def stamped (stamp : Option K) : ArmController K n :=
  match stamp, c.lastStateAt with
  | some at_, some _ => { c with lastStateAt := some at_ }
  | _, _ => c

/-! ## the supervisor -/

/-- a transport-accepted command for the still-running leg -/
def commandSent (planId : String) (q : Reading K n) (sentAt : K) : ArmController K n :=
  if c.running && decide (c.currentPlanId = planId) && !c.referenceSource then
    { c with streamSentTarget := q, streamSentAt := some sentAt }
  else c

/-- a selected native stream revision -/
def selectReferenceWindow (planId : String) (trajectory : JointTrajectory K n) (terminal : Bool) : ArmController K n :=
  match c.reference with
  | none => c
  | some ref =>
    if c.currentPlanId ≠ planId ∨ ref.tStart.isSome then c
    else { c with reference := some { ref with trajectory := trajectory, terminal := terminal } }.note (.window trajectory)

def bindReferenceSource : ArmController K n :=
  if c.armed || c.plan.isSome then c else { c with referenceSource := true }

end ArmController

/-! ## runs -/

inductive Input (K : Type) [Field K] [LinearOrder K] (n : ℕ) where
  | setGains (kp kd : Option (Gains K))
  | plan (p : PlanMessage K n)
  | control (u : ControlUpdate K)
  | release (planId : String) (start : Option K)
  | jog (q : List (Option K))
  | clearJog
  | motorHealth (h : MotorHealth K n)
  | motorState (s : JointState K n) (stamp : Option K)
  | tick
  | commandSent (planId : String) (q : Reading K n) (sentAt : K)
  | selectReferenceWindow (planId : String) (trajectory : JointTrajectory K n) (terminal : Bool)
  | bindReferenceSource
  | streamHoldDeadline (limit : K)

/-- one call -/
def step (cfg : Config K n) (c : ArmController K n) (e : Moment K n × Input K n) : ArmController K n :=
  match e.2 with
  | .setGains kp kd => (c.installGains kp kd).1
  | .plan p => c.onPlan cfg e.1 p
  | .control u => c.onControl cfg e.1 u
  | .release planId start => c.release cfg e.1 planId start
  | .jog q => c.onJog e.1 q
  | .clearJog => c.clearJog
  | .motorHealth h => c.onMotorHealth cfg e.1 h
  | .motorState s stamp => (c.onMotorState cfg e.1 s).stamped stamp
  | .tick => c.tick cfg e.1
  | .commandSent planId q sentAt => c.commandSent planId q sentAt
  | .selectReferenceWindow planId trajectory terminal => c.selectReferenceWindow planId trajectory terminal
  | .bindReferenceSource => c.bindReferenceSource
  | .streamHoldDeadline limit => { c with streamGapLimitS := some limit }

end

end ArmControl.Control.Servo
