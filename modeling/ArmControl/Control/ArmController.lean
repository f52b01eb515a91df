import ArmControl.Execution.Contract

/-!
# The lifecycle of a leg (`control/arm_controller.py`)

What the supervisor sees of its controller: which plan it holds, whether it runs, and what it sends to
its node.  The servo itself (references, gains, holds, integral, envelope) is left out: whether a check on
measured numbers passes comes from outside, in a `Reading`.

* `ArmController`      the lifecycle fields, and `sent`, what the node was given;
* `onPlan`, `release`, `cancel`, `finishLeg`, `setArm`, `stop`, `fault`;
* `onControl*`, `onMotorHealth`, `onMotorState`, `tick`.

The supervisor stages every plan gated, under an execution policy and on a plant that reports its health.
-/

namespace ArmControl.Control
open ArmControl.Execution

inductive ControllerEvent where
  | planStaged (planId : ExecutionId) (ok : Bool) (reason : String)
  | legResult (planId : ExecutionId) (ok : Bool) (reason : String)
  | planCleared (planId : ExecutionId) (ok : Bool)
  | fault (reason : String)
  deriving DecidableEq, Inhabited

inductive Output where
  | motorCommand
  | controllerEvent (e : ControllerEvent)
  | arm (armed : Bool)
  deriving DecidableEq, Inhabited

/-- a released reference; a sourced one samples the native horizon -/
structure TrajectoryReference where
  terminal : Bool
  sourced : Bool
  deriving DecidableEq, Inhabited

/-- what the checks on measured numbers and on the plan's content say; `""` passes -/
structure Reading where
  malformed : String := ""
  observation : String := ""
  planError : String := ""
  gainError : String := ""
  startError : String := ""
  /-- `unpack_pose_hold_values`, the pose provenance and the measured motion -/
  softError : String := ""
  nonFiniteState : Bool := false
  stateGap : Bool := false
  stateFresh : Bool := true
  faulted : Bool := false
  holding : Bool := false
  plantArmed : Bool := true
  supportsPoseHold : Bool := true
  nonFinite : Bool := false
  /-- the streamed command gap exceeded the RT hold margin -/
  commandGap : Bool := false
  /-- the settle verdict: settled or timed out -/
  verdict : Option Bool := none
  verdictReason : String := "Completion timeout"
  jogExpired : Bool := false
  invalidCommand : Bool := false
  trackingError : Bool := false
  invalidHold : Bool := false
  deriving DecidableEq, Inhabited

structure ArmController where
  modelToken : Option String := none
  /-- a native reference source is bound -/
  sourced : Bool := false
  plan : Option ExecutionId := none
  pendingTraj : Option JointTrajectory := none
  reference : Option TrajectoryReference := none
  running : Bool := false
  armed : Bool := false
  bridgeArmed : Bool := false
  readySent : Bool := false
  frozen : Bool := false
  stopped : Bool := false
  /-- a pose hold is active -/
  soft : Bool := false
  jog : Bool := false
  observationPaused : Bool := false
  rtHolding : Bool := false
  supportsPoseHold : Bool := false
  sent : List Output := []
  deriving DecidableEq, Inhabited

/-- what `on_plan` reads of a plan -/
structure Plan where
  planId : ExecutionId
  trajectory : JointTrajectory
  modelToken : Option String
  deriving DecidableEq, Inhabited

namespace ArmController

def send (c : ArmController) (o : Output) : ArmController := { c with sent := c.sent ++ [o] }

def emit (c : ArmController) (e : ControllerEvent) : ArmController := c.send (.controllerEvent e)

/-! ## the end of a leg -/

def finishLeg (c : ArmController) (ok : Bool) (reason : String) : ArmController :=
  let plan := c.plan
  let c := { c with reference := none, running := false, plan := none }
  match plan with
  | some planId => c.emit (.legResult planId ok reason)
  | none => c

/-- abort the leg and hold, still armed and still runnable -/
def cancel (c : ArmController) (reason : String) : ArmController :=
  let c := { c with soft := false }
  let c := if c.running then c.finishLeg false reason else c
  { c with
    frozen := false, plan := none, pendingTraj := none, running := false, reference := none
    jog := false }

def disarmReset (c : ArmController) : ArmController :=
  let c := if c.running then c.finishLeg false "disarmed mid-leg" else c
  { c with
    plan := none, pendingTraj := none, running := false, reference := none, readySent := false
    bridgeArmed := false, jog := false, soft := false }

def setArm (c : ArmController) (armed : Bool) : ArmController :=
  let c := if c.armed && !armed then c.disarmReset else c
  { c with armed := armed }.send (.arm armed)

def stop (c : ArmController) (reason : String) : ArmController :=
  if c.stopped then c
  else
    let c := { c with stopped := true }
    let c := if c.armed then c.setArm false else c
    c.emit (.fault reason)

def fault (c : ArmController) (reason : String) : ArmController :=
  (if c.running then c.finishLeg false reason else c).stop reason

def pauseObservation (c : ArmController) (reason : String) : ArmController :=
  let c :=
    if !c.observationPaused || c.plan.isSome || c.running || c.jog || c.soft then c.cancel reason else c
  { c with observationPaused := true, readySent := false }

/-! ## plans -/

def refusePlan (c : ArmController) (planId : ExecutionId) (reason : String) (report : Bool) :
    ArmController :=
  let c := c.emit (.planStaged planId false reason)
  if report then c.emit (.legResult planId false reason) else c

/-- load one leg; refused if another is mid-flight, never swapped -/
def onPlan (c : ArmController) (p : Plan) (r : Reading) : ArmController :=
  if r.malformed ≠ "" then c.refusePlan p.planId ("malformed plan: " ++ r.malformed) true
  else if c.soft then
    c.refusePlan p.planId "Soft pose hold active; select Track before planning" true
  else if c.stopped || c.frozen then
    c.refusePlan p.planId
      (if c.stopped then "controller is stopped"
        else "controller is frozen (hold or failed settle) - press Stop to clear") false
  else if c.running then
    c.refusePlan p.planId (toString (c.plan.getD 0) ++ " is still executing") false
  else if c.modelToken.isSome ∧ p.modelToken ≠ c.modelToken then
    c.refusePlan p.planId
      ("plan model " ++ quoted (p.modelToken.getD "None") ++ " != controller model " ++
        quoted (c.modelToken.getD "None") ++ "; re-plan") true
  else if r.observation ≠ "" then c.refusePlan p.planId r.observation true
  else if r.planError ≠ "" then c.refusePlan p.planId r.planError true
  else if r.gainError ≠ "" then c.refusePlan p.planId r.gainError true
  else
    { c with
      plan := some p.planId, pendingTraj := some p.trajectory
      running := false }.emit (.planStaged p.planId true "")

/-- the selection checks, shared with asynchronous admission -/
def releaseError (c : ArmController) (planId : ExecutionId) (r : Reading) : String :=
  if c.plan ≠ some planId then "the named plan is no longer staged"
  else if !c.armed || !c.readySent then "not armed"
  else if r.observation ≠ "" then r.observation
  else r.startError

/-- start a named plan -/
def release (c : ArmController) (planId : ExecutionId) (r : Reading) : ArmController :=
  if c.plan ≠ some planId then c
  else if !c.armed || !c.readySent then c.finishLeg false "not armed"
  else if c.running then c
  else if c.releaseError planId r ≠ "" then
    { c.finishLeg false (c.releaseError planId r) with pendingTraj := none }
  else
    { c with
      jog := false, running := true
      reference := some { terminal := true, sourced := c.sourced } }

/-- the trajectory of the named plan, staged and unselected -/
def stagedTrajectory (c : ArmController) (planId : ExecutionId) : Except String JointTrajectory :=
  match c.pendingTraj with
  | some t =>
    if c.plan ≠ some planId ∨ c.running then
      .error "the named trajectory is not staged and unselected"
    else .ok t
  | none => .error "the named trajectory is not staged and unselected"

/-- a selected native stream revision -/
def selectReferenceWindow (c : ArmController) (planId : ExecutionId) (terminal : Bool) :
    Except String ArmController :=
  match c.reference with
  | some ref =>
    if c.plan ≠ some planId ∨ ref.sourced = false then .error "selected native reference required"
    else .ok { c with reference := some { ref with terminal := terminal } }
  | none => .error "selected native reference required"

/-! ## control updates -/

/-- `cancel`, naming a plan or not -/
def onControlCancel (c : ArmController) (planId : Option ExecutionId) (reason : String) : ArmController :=
  match planId with
  | none => c.cancel reason
  | some requested =>
    if c.plan = none ∨ c.plan = some requested then
      (c.cancel reason).emit (.planCleared (c.plan.getD requested) true)
    -- a delayed cancel must never clear a different plan
    else c.emit (.planCleared requested false)

def validatePoseHold (c : ArmController) (r : Reading) : String :=
  if r.observation ≠ "" then "Soft needs fresh, healthy measured state"
  else if r.softError ≠ "" then r.softError
  else if !c.supportsPoseHold || !c.armed || !c.readySent || c.stopped || c.frozen then
    "Soft needs an armed, ready, capable plant"
  else if c.running || c.jog then "Stop and settle before selecting Soft"
  else ""

def onControlPoseHold (c : ArmController) (r : Reading) : ArmController :=
  if c.validatePoseHold r ≠ "" then c else { c.cancel "entering Soft" with soft := true }

def onControlGains (c : ArmController) (r : Reading) : ArmController :=
  if r.gainError ≠ "" then c
  else
    let c := if c.soft then c.cancel "leaving Soft" else c
    if c.running then c.cancel "gains changed mid-leg" else c

/-! ## jogs -/

/-- why a jog would be dropped now -/
def jogRefusal (c : ArmController) : String :=
  if c.stopped then "stopped"
  else if c.frozen then "frozen after a failed settle (cancel/hold, or DISARM, clears it)"
  else if !c.armed then "not armed"
  else if !c.readySent then "no fresh measured pose since ARM"
  else if c.soft then "Soft (pose hold) is selected"
  else if c.running then "a plan is running"
  else ""

def onJog (c : ArmController) : ArmController := if c.jogRefusal = "" then { c with jog := true } else c

def clearJog (c : ArmController) : ArmController := { c with jog := false }

/-! ## the plant -/

def onMotorHealth (c : ArmController) (r : Reading) : ArmController :=
  let healthOk := r.stateFresh && !r.faulted
  let c :=
    if !c.sourced && r.holding && !c.rtHolding && healthOk && c.running then
      c.cancel "RT command-staleness hold — re-plan from measured pose"
    else c
  let c := { c with rtHolding := r.holding }
  let c := if healthOk then c else c.pauseObservation "plant health is faulted or stale"
  let c := { c with supportsPoseHold := r.supportsPoseHold }
  if r.plantArmed && !c.bridgeArmed && c.armed then { c with bridgeArmed := true }
  else if !r.plantArmed && c.bridgeArmed && c.armed && !c.stopped then
    c.fault "plant reported disarmed"
  else c

def onMotorState (c : ArmController) (r : Reading) : ArmController :=
  if c.stopped then c
  else if r.nonFiniteState then c.pauseObservation "non-finite motor state"
  else if r.stateGap then c.pauseObservation "motor state gap — re-plan"
  else c

def sendCommand (c : ArmController) (r : Reading) : ArmController :=
  if r.invalidCommand then c.fault "non-finite or invalid servo command"
  else if !c.soft && r.trackingError then
    let c := c.cancel "tracking error exceeded — holding measured pose"
    if r.invalidHold then c.fault "invalid measured hold command" else c.send .motorCommand
  else c.send .motorCommand

/-- settle, accept or freeze -/
def checkCompletion (c : ArmController) (r : Reading) : ArmController :=
  if c.reference.any fun ref => !ref.terminal then c
  else
    match r.verdict with
    | none => c
    | some true => c.finishLeg true ""
    | some false => { c with pendingTraj := none, frozen := true }.finishLeg false r.verdictReason

def stream (c : ArmController) (r : Reading) : ArmController :=
  if !c.armed then c
  else if !c.readySent && !c.bridgeArmed then c
  else
    let c := { c with readySent := true }
    if r.nonFinite then c
    else if c.running && !c.sourced && r.commandGap then
      (c.cancel "PC streamed command gap exceeded RT hold margin — re-plan from measured pose").sendCommand r
    else
      let c := if c.running && c.reference.isSome then c.checkCompletion r else c
      if c.running && c.reference.isSome then c.sendCommand r
      else { c with jog := c.jog && !r.jogExpired }.sendCommand r

/-- one deadline-driven command -/
def tick (c : ArmController) (r : Reading) : ArmController :=
  if c.stopped then c
  else if r.observation ≠ "" then c.pauseObservation r.observation
  else { c with observationPaused := false }.stream r

end ArmController

end ArmControl.Control
