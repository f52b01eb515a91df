import ArmControl.Lib.Dict
import ArmControl.MultiArm.Types
import ArmControl.Supervisor.Ledger

/-!
# An arm handle over one arm's supervisor (`multi_arm/supervised.py`, `SdkArmHandle`)

* `StageBody`, `planRequest`   a plan as it arrives, and the request that it becomes;
* `HandleArm`                  the supervisor's answers, and what the handle is built with;
* `SdkArmHandle`               its state, with the log of what it answered;
* `pollEvents`, `state`, `stage`, `execute`, `cancel`;
* `Call`, `step`               one call of the handle.

An execution is known by its place in the supervisor's list.
-/

namespace ArmControl.MultiArm

open Execution Executions
open Clients (CallError)

/-! ## plans -/

/-- what `plan_body` gives on a payload that it can read -/
structure StageBody where
  planId : Option String
  /-- keys that are not in `_PLAN_KEYS` -/
  unknown : List String := []
  /-- `gated is True` -/
  gated : Bool := true
  /-- the cartesian spec, or what is wrong with it -/
  law : Option (Except String CartesianImpedance) := none
  completion : Option Completion := none
  kp : List ℚ
  kd : List ℚ
  trajectory : JointTrajectory
  modelToken : Option String := none

/-- a request of the contract, as the supervisor takes it -/
def carried (v : Values.TrajectoryRequest) : TrajectoryRequest where
  requestId := v.requestId
  instanceId := v.instanceId
  jointNames := v.jointNames
  trajectory := v.trajectory.val
  profile := v.profile
  gains := v.gains.map Values.Checked.val
  modelToken := v.modelToken
  start := v.start
  completion := v.completion.map Values.Checked.val
  cartesian := v.cartesian.map Values.Checked.val

/-- a constructor on a value that may be missing -/
def constructed {α : Type} [Values.Checks α] : Option α → Except String (Option (Values.Checked α))
  | none => .ok none
  | some a => (Values.construct a).map some

/-- the cartesian settings of a plan -/
def StageBody.cartesian (b : StageBody) : Except String (Option (Values.Checked CartesianImpedance)) :=
  match b.law with
  | none => .ok none
  | some (.error text) => .error text
  | some (.ok law) => constructed (some law)

/-- `TrajectoryRequest(...)` -/
def StageBody.request (b : StageBody) (planId instanceId : String) (jointNames : List String)
    (law : Option (Values.Checked CartesianImpedance)) (completion : Option (Values.Checked Completion)) :
    Except String TrajectoryRequest := do
  let trajectory ← Values.construct b.trajectory
  let gains ← Values.construct (⟨b.kp, b.kd⟩ : JointGains)
  let v ← Values.construct
    { requestId := planId
      instanceId := instanceId
      jointNames := jointNames
      trajectory := trajectory
      profile := if law.isNone then "joint_impedance" else "cartesian_impedance"
      gains := some gains
      modelToken := b.modelToken
      start := .onRelease
      admitBy := none
      completion := completion
      supersedes := none
      cartesian := law : Values.TrajectoryRequest }
  pure (carried v.val)

def planRequest (b : StageBody) (planId instanceId : String) (jointNames : List String) : Except String TrajectoryRequest :=
  if b.unknown ≠ [] then .error ("plan carries fields this handle does not understand: " ++ String.intercalate ", " b.unknown)
  else do
    let law ← b.cartesian
    if b.gated = false then .error "a pair member plan must be gated"
    else do
      let completion ← constructed b.completion
      if b.kp.length ≠ b.kd.length ∨ b.kp = [] then
        .error "a plan carries kp and kd, matching and non-empty (the profile gains are not a default here)"
      else b.request planId instanceId jointNames law completion

structure StagePlan where
  planId : String
  /-- what `plan_body` gives on the payload -/
  payload : Except String StageBody

/-! ## the handle -/

structure HandleArm where
  env : Env
  /-- what a read that is the `n`-th call answers -/
  robot : ℕ → Values.RobotState
  authority : ℕ → Values.Authority
  now : ℕ → Values.Stamp
  law : ℕ → String
  /-- the coordinator's clock before the `n`-th call -/
  clock : ℕ → ℚ
  armId : String
  session : String
  modelToken : Option String := none
  /-- the supervisor advertises `controller/1` -/
  controller : Bool := false
  instanceId : String
  jointNames : List String

structure Record where
  execution : ℕ
  released : Bool := false
  reported : Bool := false
  deriving DecidableEq

/-- what the handle answered, and what the supervisor held then -/
inductive Note where
  | event (e : Event) (ledger : Ledger)
  /-- a status call of `poll_events` that got no answer -/
  | unanswered (planId : String)
  /-- `poll_events` began at `start` of the log, and returned `events` -/
  | polled (ledger : Ledger) (start : ℕ) (events : List Event)
  | stated (s : ArmControlState) (before after : Ledger)

structure SdkArmHandle where
  world : World
  plans : Dict String Record := {}
  unknownStage : Dict String TrajectoryRequest := {}
  events : List Event := []
  faultReported : Bool := false
  faultReason : Option String := none
  /-- a release that is deferred to the pair runtime -/
  deferred : Option (List ℕ) := none
  offset : ℚ
  log : List Note := []

namespace SdkArmHandle

variable {α : Type}

abbrev M := EStateM Failure SdkArmHandle

def init (arm : HandleArm) : SdkArmHandle where
  world := { calls := 1 }
  offset := arm.clock 0 - (arm.now 0).ns / 10 ^ 9

def setWorld (w : World) (h : SdkArmHandle) : SdkArmHandle := { h with world := w }

def note (n : Note) (h : SdkArmHandle) : SdkArmHandle := { h with log := h.log ++ [n] }

def push (e : Event) (h : SdkArmHandle) : SdkArmHandle :=
  { h with events := h.events ++ [e], log := h.log ++ [.event e h.world.ledger] }

def setPlan (planId : String) (r : Record) (h : SdkArmHandle) : SdkArmHandle := { h with plans := h.plans.set planId r }

def popPlan (planId : String) (h : SdkArmHandle) : SdkArmHandle := { h with plans := h.plans.pop planId }

/-- the last 64 staging replies that were lost -/
def remember (planId : String) (r : TrajectoryRequest) (h : SdkArmHandle) : SdkArmHandle :=
  { h with unknownStage := (h.unknownStage.set planId r).newest 64 }

/-- what a call of the supervisor answers or raises -/
def attempt (m : EStateM CallError World α) : M (Except CallError α) := fun h =>
  match m h.world with
  | .ok a w => .ok (.ok a) (h.setWorld w)
  | .error e w => .ok (.error e) (h.setWorld w)

/-- a call that only reads -/
def observe (env : Env) (value : ℕ → α) : EStateM CallError World α := fun w =>
  match (env.turn w.calls).fate with
  | .answered => .ok (value w.calls) (w.next (w.found env))
  | .refused text => .error (.refused text) (w.next (w.found env))
  | .lost _ loss => .error loss.error (w.next (w.found env))

section
variable (arm : HandleArm)

/-- an event of the handle -/
def answer (kind : EventKind) (planId : String) (ok : Bool) (reason : String) : Event where
  kind := kind
  session := some (some arm.session)
  planId := some planId
  ok := ok
  reason := some reason

/-- `_event` -/
def emit (kind : EventKind) (planId : String) (ok : Bool) (reason : String) : M PUnit :=
  modify (push (answer arm kind planId ok reason))

/-! ## events -/

/-- the supervisor no longer knows the execution: a result that was never seen is reported as failed -/
def forget (planId : String) (r : Record) : M PUnit := do
  modify (popPlan planId)
  if r.released && !r.reported then
    emit arm .legResult planId false "outcome unknown: the supervisor no longer holds this execution"
  else pure ⟨⟩

def resultText (r : Executions.Reply) : String := if r.phase = .completed then "" else r.phase.value ++ ": " ++ r.reason

/-- the result of a plan whose execution has ended -/
def report (planId : String) (r : Record) : M PUnit :=
  if r.released && !r.reported then do
    let answered ← attempt (ask arm.env (.status r.execution))
    match answered with
    | .error (.refused text) => if unknownExecution text then forget arm planId r else modify (note (.unanswered planId))
    | .error _ => modify (note (.unanswered planId))
    | .ok status =>
      if status.terminal then do
        modify (setPlan planId { r with reported := true })
        emit arm .legResult planId (decide (status.phase = .completed)) (resultText status)
      else pure ⟨⟩
  else pure ⟨⟩

/-- `str(fault)` -/
def faultText (f : Values.Fault) : String :=
  "Fault(code=" ++ f.code ++ ", text=" ++ f.text ++ ", source=" ++ f.source ++ ", arm_epoch=" ++
    (f.armEpoch.map toString).getD "None" ++ ")"

/-- one event for each fault -/
def watchFault : M PUnit := do
  let authority ← attempt (observe arm.env arm.authority)
  let h ← get
  match authority with
  | .error _ => pure ⟨⟩
  | .ok a =>
    match a.fault with
    | none => set { h with faultReported := false, faultReason := none }
    | some f =>
      if !h.faultReported || decide (h.faultReason ≠ some (faultText f)) then do
        set { h with faultReported := true, faultReason := some (faultText f) }
        emit arm .fault "" false (faultText f)
      else pure ⟨⟩

/-- the events so far are returned -/
def drain (ledger : Ledger) (start : ℕ) (h : SdkArmHandle) : SdkArmHandle :=
  { h with events := [], log := h.log ++ [.polled ledger start h.events] }

def pollEvents : M (List Event) := do
  let before ← get
  Effect.each before.plans.entries fun x => report arm x.1 x.2
  watchFault arm
  let h ← get
  set (h.drain before.world.ledger before.log.length)
  pure h.events

/-! ## state -/

/-- `_loaded`, from some plan on -/
def loadedFrom : List (String × Record) → M (Option String × Bool)
  | [] => pure (none, false)
  | (planId, r) :: rest => do
    let answered ← attempt (ask arm.env (.status r.execution))
    match answered with
    | .error (.refused text) =>
      if unknownExecution text then do
        forget arm planId r
        loadedFrom rest
      else pure (some planId, r.released)
    | .error _ => pure (some planId, r.released)
    | .ok status =>
      if status.terminal then
        if r.reported || !r.released then do
          modify (popPlan planId)
          loadedFrom rest
        else loadedFrom rest
      else pure (some planId, r.released && decide (status.phase ≠ .admitted))

/-- the plan that the supervisor holds for this handle, and whether it is running -/
def loaded : M (Option String × Bool) := do
  let h ← get
  loadedFrom arm h.plans.entries

/-- a call of `state`, which gives up when it raises -/
def reading (m : EStateM CallError World α) : M α := do
  let answered ← attempt m
  match answered with
  | .ok a => pure a
  | .error e => throw (.other e.text)

/-- the clock offset only moves toward the truth -/
def settleOffset (before : ℚ) (stamp : Values.Stamp) (h : SdkArmHandle) : SdkArmHandle :=
  { h with offset := max h.offset (before - stamp.ns / 10 ^ 9) }

/-- what `state` says of its readings -/
def stateOf (robot : Values.RobotState) (authority : Values.Authority) (stamp : Values.Stamp) (plan : Option String × Bool)
    (law : String) (offset : ℚ) : ArmControlState :=
  let measured := decide (robot.validity = .valid) && robot.q.isSome && robot.dq.isSome
  let received := if measured then robot.received.filter fun s => s.val.clock = stamp.clock ∧ s.val.domain = stamp.domain else none
  { armId := arm.armId
    position := if measured then robot.q.map fun q => q.map Value.fin else none
    velocity := if measured then robot.dq.map fun q => q.map Value.fin else none
    armed := some (decide (authority.lifecycle = .armed))
    ready := some (measured && decide (authority.lifecycle = .armed))
    executing := some plan.2
    runningPlanId := plan.1
    modeLaw := some law
    stopped := some false
    frozen := some (decide (authority.lifecycle = .faulted))
    faultReason := authority.fault.map faultText
    sessionId := some arm.session
    modelToken := arm.modelToken
    observedAt := received.map fun s => .fin (s.val.ns / 10 ^ 9 + offset)
    stateAgeSec := received.map fun s => .fin (max 0 ((stamp.ns - s.val.ns) / 10 ^ 9)) }

/-- what `state` says when a call raised -/
def unreachable (text : String) : ArmControlState where
  armId := arm.armId
  faultReason := some ("supervisor unreachable: " ++ text)
  sessionId := some arm.session
  modelToken := arm.modelToken

/-- without `controller/1` the supervisor runs its joint law only -/
def controlLaw : M String := if arm.controller then reading (observe arm.env arm.law) else pure "joint"

def readState : M ArmControlState := do
  let h ← get
  let robot ← reading (observe arm.env arm.robot)
  let authority ← reading (observe arm.env arm.authority)
  let stamp ← reading (observe arm.env arm.now)
  modify (settleOffset (arm.clock h.world.calls) stamp)
  let plan ← loaded arm
  let law ← controlLaw arm
  let h ← get
  pure (stateOf arm robot authority stamp plan law h.offset)

def state : M ArmControlState := do
  let before ← get
  let s ← tryCatch (readState arm) fun e => pure (unreachable arm e.text)
  modify fun h => h.note (.stated s before.world.ledger h.world.ledger)
  pure s

/-! ## plans -/

/-- the request of a plan, or why it is refused -/
def stageRequest (plan : StagePlan) : Except String TrajectoryRequest := do
  let body ← plan.payload
  if body.planId ≠ some plan.planId then .error "plan_id does not match the member plan id"
  else planRequest body plan.planId arm.instanceId arm.jointNames

/-- what the reply to a submission means -/
def staged (planId : String) (r : TrajectoryRequest) : Except CallError Executions.Reply → M PUnit
  | .error (.refused text) => emit arm .planStaged planId false ("refused: " ++ text)
  | .error e => do
    modify (remember planId r)
    emit arm .planStaged planId false ("staging outcome unknown: " ++ e.text)
  | .ok status =>
    if status.terminal then emit arm .planStaged planId false (status.phase.value ++ ": " ++ status.reason)
    else do
      modify (setPlan planId { execution := status.execution })
      emit arm .planStaged planId true ""

def stage (plan : StagePlan) : M PUnit :=
  match stageRequest arm plan with
  | .error text => emit arm .planStaged plan.planId false ("refused: " ++ text)
  | .ok r => do
    let answered ← attempt (ask arm.env (.submit r))
    staged arm plan.planId r answered

/-- the plan counts as released -/
def release (planId : String) (r : Record) : M PUnit := modify (setPlan planId { r with released := true })

def execute (planId : String) : M PUnit := do
  let h ← get
  match h.plans.get planId with
  | none => throw (.valueError (planId ++ ": no such staged plan"))
  | some r =>
    match h.deferred with
    | some deferred => do
      set { h with deferred := some (deferred ++ [r.execution]) }
      release planId r
    | none => do
      let _ ← reading (ask arm.env (.release r.execution))
      release planId r

/-- submission is idempotent by request id, so the execution of a lost reply can be cancelled -/
def cancelResubmitted (r : TrajectoryRequest) : EStateM CallError World Executions.Reply := do
  let status ← ask arm.env (.submit r)
  if status.terminal then pure status else Executions.cancel arm.env status.execution

def notTerminal (status : Executions.Reply) : String := if status.terminal then "" else "not terminal"

def cancelUnknownStage (planId : String) (r : TrajectoryRequest) : M PUnit := do
  let answered ← attempt (cancelResubmitted arm r)
  match answered with
  | .error e => emit arm .planCleared planId false ("staging outcome unknown and the cancel is not confirmed: " ++ e.text)
  | .ok status => do
    modify fun h => { h with unknownStage := h.unknownStage.pop planId }
    emit arm .planCleared planId status.terminal (notTerminal status)

/-- nothing by that id is loaded: cleared unless another plan is -/
def cancelUnloaded (planId : String) : M PUnit := do
  let other ← loaded arm
  let h ← get
  match h.unknownStage.get planId with
  | some r => cancelUnknownStage arm planId r
  | none => emit arm .planCleared planId other.1.isNone (if other.1.isNone then "" else "another plan is loaded")

def cancelLoaded (planId : String) (r : Record) : M PUnit := do
  let answered ← attempt (Executions.cancel arm.env r.execution)
  match answered with
  | .error e => emit arm .planCleared planId false ("cancel not confirmed: " ++ e.text)
  | .ok status => do
    modify (setPlan planId { r with reported := true })
    emit arm .planCleared planId status.terminal (notTerminal status)

def cancelOne (planId : String) : M PUnit := do
  let h ← get
  match h.plans.get planId with
  | none => cancelUnloaded arm planId
  | some r => cancelLoaded arm planId r

def cancel (planId : Option String) : M PUnit := do
  let h ← get
  match planId with
  | some p => cancelOne arm p
  | none => Effect.each h.plans.keys (cancelOne arm)

end

/-! ## calls -/

inductive Call where
  | stage (plan : StagePlan)
  | execute (planId : String)
  | cancel (planId : Option String)
  | pollEvents
  | state

def perform (arm : HandleArm) : Call → M PUnit
  | .stage plan => stage arm plan
  | .execute planId => execute arm planId
  | .cancel planId => cancel arm planId
  | .pollEvents => do
    let _ ← pollEvents arm
    pure ⟨⟩
  | .state => do
    let _ ← state arm
    pure ⟨⟩

def step (arm : HandleArm) (h : SdkArmHandle) (c : Call) : SdkArmHandle := Effect.leaves (perform arm c) h

end SdkArmHandle

end ArmControl.MultiArm
