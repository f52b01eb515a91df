import ArmControl.Supervisor.RuntimeStreams

/-!
# Operations and the tick (`RobotRuntime` in `supervisor/runtime.py`)

* `claim` … `groupTake`     what runs on the loop thread for a client;
* `nativeStep`              the native reference of a tick;
* `step`, `tick`            one tick, and what the loop does when it raises;
* `Op`, `perform`, `run`    the calls, in any order.

An RPC of a client thread around an operation (the exchanges of `group_join` and `group_cancel`) lies between two calls.
Left out: the trace, the fault recorder, the scene lease, the published decisions of the envelope sender.
-/

namespace ArmControl.Supervisor.RobotRuntime
open ArmControl.Execution ArmControl.Control ArmControl.RemoteRt

/-! ## the snapshot -/

/-- the authority that readers see -/
def shownAuthority (s : RobotRuntime) : Option Authority → Authority
  | none => {}
  | some rt =>
    if rt.lifecycle = .claimed ∧ s.owner = none then { rt with lifecycle := .connected }
    else if rt.lifecycle = .connected then {}  -- another RT session's packet
    else rt

def publish : Call Unit := do
  let a ← ask
  beside fun s => { s with validity := a.validity, authority := s.shownAuthority a.authority }

/-! ## ownership -/

/-- live, and not waiting for the evidence of its completion -/
def uncompleted (ex : Execution) : Bool := ex.live && ex.completedAt.isNone

/-- live, and not a plan that waits for the evidence of its completion -/
def stoppable (ex : Execution) : Bool := ex.live && (ex.stream.isSome || ex.completedAt.isNone)

def cancelWhich (which : Execution → Bool) (reason : String) (e : ExecutionId) : Call Unit := do
  let s ← read
  if (s.executions e).any which then cancelExecution e reason else pure ()

def cancelAll (which : Execution → Bool) (reason : String) : Call Unit := do
  let s ← read
  .each (cancelWhich which reason) s.known

/-- cancel the owner's executions and its setpoint, and hold; stay armed -/
def abandon (reason : String) : Call Unit := do
  cancelAll uncompleted reason
  drive fun c => c.clearJog
  beside fun s => { s with owner := none }
  publish

def claim (session : String) : Call Authority := do
  let s ← read
  refuseIf (session ∈ s.closedSessions) "this client session is closed"
  refuseIf (s.owner ≠ none ∧ s.owner ≠ some session) (s.cfg.instanceId ++ " is already owned by another client")
  beside fun s => { s with owner := some session }
  publish
  let s ← read
  return s.authority

def unclaim (session : String) : Call Authority := do
  owns session
  abandon "owner released the robot"
  let s ← read
  return s.authority

/-- a connection ended; nothing can name its session again -/
def ownerLost (session : String) : Call Unit := do
  let s ← read
  if s.owner = some session then abandon "owner disconnected" else pure ()
  beside fun s =>
    { s with
      closedSessions := s.closedSessions.filter fun c => c != session
      streamMarks := Function.update s.streamMarks session (0, 0) }

/-- later requests of the session are refused at once; its ownership ends on the loop -/
def closeSession (session : String) : Call Unit := beside fun s =>
  { s with closedSessions := session :: s.closedSessions.filter fun c => c != session }

/-! ## ARM and DISARM -/

def arm (session : String) : Call ℕ := do
  owns session
  let s ← read
  refuseIf ((s.pending.any fun c => !c.want) = true) "a DISARM is still being confirmed; ARM after it completes"
  if s.controller.armed = false then do
    drive fun c => c.setArm true
    pumpController none true
  else pure ()
  let s ← read
  return s.authorityGen

def disarm (session : String) : Call ℕ := do
  owns session
  -- a native one waits for the RT to show the DISARM
  cancelAll stoppable "disarmed"
  drive fun c => (c.setArm false).onControlCancel none "disarm"
  pumpController none true
  let s ← read
  return s.authorityGen

/-! ## planned executions -/

/-- why a request is not admitted; `""` goes to the controller -/
def submitRefusal (s : RobotRuntime) (request : TrajectoryRequest) (current : Option ExecutionStatus) (now : ℕ) : String :=
  firstReason
    [ if request.cartesian.isSome ∧ s.cfg.native then
        "Cartesian legs are streamed only; this supervisor plays the native reference" else "",
      admissionRefusal request s.cfg.identity s.cfg.capabilities s.authority (s.stamp now) s.controller.modelToken,
      supersessionRefusal request current,
      if request.supersedes.any s.committing then
        "reference selection is in flight; cancel before a new admission" else "",
      if request.trajectory.velocities.isNone then "the " ++ request.profile ++ " profile needs waypoint velocities" else "" ]

/-- `ex.status` -/
def statusOf (e : ExecutionId) : Call ExecutionStatus := do
  let ex ← getExecution e
  return ex.status

/-- to the controller, and what it answers -/
def stagePlan (e : ExecutionId) (request : TrajectoryRequest) : Call Unit := do
  let a ← ask
  if a.check ≠ "" then receipt e .rejected ("controller refused the plan: " ++ a.check) []
  else do
    -- staged gated: selection is the supervisor's decision for both starts
    drive fun c => c.onPlan { planId := e, trajectory := request.trajectory, modelToken := request.modelToken } a.reading
    pumpController none true
    let s ← read
    match s.executions e with
    | none => throw (.value "KeyError")
    | some ex =>
      if ex.phase = .requested then receipt e .rejected "the controller did not acknowledge the plan" []
      else if ex.phase = .admitted ∧ request.start = .onAdmit then select e
      else pure ()

def submit (session : String) (request : TrajectoryRequest) : Call ExecutionStatus := do
  owns session
  let s ← read
  match s.byRequest request.requestId with
  | some known => do
    match s.executions known with
    | none => throw (.value "KeyError")
    | some ex =>
      if ex.request ≠ request then
        throw (.refused ("request_id " ++ quoted request.requestId ++ " was already used with different content"))
      else return ex.status
  | none => do
    let current := s.current
    let a ← ask
    let s ← read
    let e := s.ids
    .attempt (submitting request a.now)
    let b ← ask
    let s ← read
    if s.submitRefusal request current b.now ≠ "" then receipt e .rejected (s.submitRefusal request current b.now) []
    else stagePlan e request
    statusOf e

/-- `GROUP_MIN_LEAD_MS` and `GROUP_BUDGET_S`, in ns -/
def groupMinLeadNs : ℕ := 10000000

def groupBudgetNs : ℕ := 150000000

/-- a scheduled release is on this supervisor's clock, and neither late nor far -/
def scheduleRefusal (s : RobotRuntime) (ex : Execution) (startAt : Stamp) (now : ℕ) : String :=
  if s.cfg.native ∨ ex.stream.isSome then
    "a scheduled release needs the supervisor's own trajectory clock (a planned leg, not native)"
  else if startAt.clock ≠ .pc ∨ s.cfg.domain = "" ∨ startAt.domain ≠ s.cfg.domain then
    "start_at is not on this supervisor's clock (" ++ orElse s.cfg.domain "unattested" ++ ")"
  else if startAt.ns < now + groupMinLeadNs ∨ now + groupBudgetNs < startAt.ns then
    "start_at must be 10 to 150 ms ahead"
  else ""

def release (session : String) (e : ExecutionId) (startAt : Option Stamp) : Call ExecutionStatus := do
  owns session
  let ex ← getExecution e
  match startAt with
  | none => pure ()
  | some at_ => do
    let a ← ask
    let s ← read
    refuseIf (s.scheduleRefusal ex at_ a.now ≠ "") (s.scheduleRefusal ex at_ a.now)
  if ex.stream.isSome then do
    refuseIf (ex.phase ≠ .admitted) "stream release requires ADMITTED"
    refuseIf (ex.request.start ≠ .onRelease) "stream starts on admission"
    beside fun s => { s with nativePending := some e }
    return ex.status
  -- already selected or ended: release is idempotent
  else if ex.phase ≠ .admitted then return ex.status
  else do
    refuseIf (ex.request.start ≠ .onRelease) (toString e ++ " starts on admission, not on release")
    select e
    statusOf e

def cancel (session : String) (e : ExecutionId) (reason : String) : Call ExecutionStatus := do
  owns session
  let ex ← getExecution e
  if uncompleted ex then cancelExecution e (orElse reason "cancelled") else pure ()
  statusOf e

/-- stop whatever runs and hold the measured pose, still ARMED -/
def hold (session : String) (reason : String) : Call Unit := do
  owns session
  cancelAll stoppable reason
  drive fun c => c.onControlCancel none (orElse reason "cancelled")
  pumpController none true

/-! ## the controller's law and loads -/

/-- `flag`s: the preset is the reported one already, and the law that is reported in the end is the preset's -/
def selectControlPreset (session presetId : String) : Call Unit := do
  owns session
  let s ← read
  match s.cfg.presets.lookup presetId with
  | none => throw (.refused ("unknown controller preset " ++ quoted presetId))
  | some soft => do
    let a ← ask
    let used := a.latest.any fun st => st.reference.any fun r => r.referenceId != 0
    refuseIf (soft ∧ s.cfg.native ∧ used)
      ("Soft unavailable after native reference use in this ARM epoch: " ++
        "RT retains reference ownership after cancellation")
    refuseIf (soft ∧ s.controller.validatePoseHold a.reading ≠ "") (s.controller.validatePoseHold a.reading)
    if a.flag then pure ()
    else do
      cancelAll Execution.live ("controller preset changed to " ++ presetId)
      let b ← ask
      drive fun c => if soft then c.onControlPoseHold b.reading else c.onControlGains b.reading
      pumpController none true
      let b ← ask
      refuseIf (b.flag = false) "controller did not confirm the requested law"

def setPayload (session : String) (massKg : ℚ) : Call ℕ := do
  owns session
  let s ← read
  refuseIf (s.current.isSome) "cancel and retire the arm execution before replacing payload"
  let a ← ask
  refuseIf (a.check ≠ "") a.check
  beside fun s => { s with payloadRevision := s.payloadRevision + 1, payloadMass := massKg }
  let s ← read
  return s.payloadRevision

def setLoadModel (session : String) (revision : ℤ) : Call ℤ := do
  owns session
  let s ← read
  refuseIf (revision ≤ s.loadModelRevision) ("load model revision must be an integer above " ++ toString s.loadModelRevision)
  refuseIf (s.current.isSome) "cancel and retire the arm execution before replacing the load model"
  refuseIf (s.cfg.native = true) "a native-reference supervisor plays the reference on the RT box: no PC load model"
  let a ← ask
  refuseIf (a.check ≠ "") a.check
  beside fun s => { s with loadModelRevision := revision }
  return revision

/-- a live joint target; the checks of its numbers lie before and behind the controller's own -/
def setpoint (session : String) : Call Unit := do
  owns session
  let s ← read
  refuseIf (s.cfg.native = true)
    "setpoints are on the streamed path; this supervisor plays the native reference (use stream/1)"
  let a ← ask
  refuseIf (a.check ≠ "") a.check
  refuseIf (s.current.isSome) "an execution is live: cancel it before streaming setpoints"
  refuseIf (s.controller.jogRefusal ≠ "") ("setpoint refused: " ++ s.controller.jogRefusal)
  let b ← ask
  refuseIf (b.check ≠ "") b.check
  drive fun c => c.onJog

/-! ## groups -/

def groupCheck (session : String) : Call Unit := do
  owns session
  let s ← read
  refuseIf (s.cfg.native = false ∨ s.cfg.groupCapable = false) "the RT server has no group record (group/1 is unavailable)"

/-- recorded before the exchange: the RT may have joined -/
def groupSet (session : String) (groupId memberIndex memberCount : ℕ) : Call (Option JoinedGroup) := do
  owns session
  let s ← read
  refuseIf ((s.group.any fun g => g.groupId != groupId && g.armEpoch == s.authority.armEpoch) = true)
    "group join refused: already joined to a group: cancel it before joining another"
  let joined : JoinedGroup :=
    { groupId := groupId, memberIndex := memberIndex, memberCount := memberCount, armEpoch := s.authority.armEpoch }
  beside fun s => { s with group := some joined }
  return s.group

def groupUnset (session : String) (previous : Option JoinedGroup) : Call Unit := do
  owns session
  beside fun s => { s with group := previous }

def groupRestore (session : String) (joined : JoinedGroup) : Call Unit := do
  owns session
  beside fun s => if s.group.isNone then { s with group := some joined } else s

/-- `d[key] = value`, at most `bound` newest entries -/
def putBounded {β : Type} (d : List (ExecutionId × β)) (key : ExecutionId) (value : β) (bound : ℕ) : List (ExecutionId × β) :=
  let d := if d.any (·.1 == key) then d.map fun p => if p.1 = key then (key, value) else p else d ++ [(key, value)]
  d.drop (d.length - bound)

def groupReleaseOp (session : String) (e : ExecutionId) (groupId budgetNs : ℕ) : Call ExecutionStatus := do
  owns session
  let s ← read
  match s.group.filter fun g => g.groupId == groupId with
  | none => throw (.refused "join the group before releasing a member")
  | some g => do
    refuseIf (budgetNs = 0 ∨ min s.cfg.groupMaxBudgetNs (s.cfg.ackTimeoutNs / 2) < budgetNs)
      "budget must be positive and at most half the RT acknowledgement timeout (the COMMIT_GROUP wait)"
    if g.armEpoch ≠ s.authority.armEpoch then do
      beside fun s => { s with group := none }
      throw (.refused "the ARM epoch changed since the group was joined: join again")
    else do
      let ex ← getExecution e
      refuseIf (ex.stream.isSome ∨ ex.request.start ≠ .onRelease) "a group member is a planned ON_RELEASE execution"
      beside fun s =>
        { s with
          groupRelease := putBounded s.groupRelease e ⟨groupId, g.memberIndex, budgetNs⟩ 16
          groupReports := s.groupReports.filter (·.1 != e) }
      tryCatch (release session e none) fun err => do
        beside fun s => { s with groupRelease := s.groupRelease.filter (·.1 != e) }
        throw err

/-- the executions released for this group, and the one that commits through it -/
def groupMembers (s : RobotRuntime) (groupId : ℕ) : List ExecutionId :=
  let released := s.groupRelease.map Prod.fst
  let used := s.cfg.native && s.native.groupUsed.any fun g => g.groupId == groupId
  released ++ if used then s.native.key.toList.filter (· ∉ released) else []

def groupTake (session : String) (groupId : ℕ) (cancelMembers : Bool) : Call (Option JoinedGroup) := do
  owns session
  let s ← read
  match s.group.filter fun g => g.groupId == groupId with
  | none => return none
  | some joined => do
    beside fun s => { s with group := none }
    if cancelMembers then do
      .each (cancelWhich uncompleted "group cancelled") (s.groupMembers groupId)
      let a ← ask
      beside fun s =>
        { s with
          groupCancelling := a.now + 2000000000 + 2 * s.cfg.ackTimeoutNs
          groupHoldGrace := a.now + 3000000000 + 2 * s.cfg.ackTimeoutNs }
    else pure ()
    beside fun s => { s with groupRelease := [] }
    return some joined

/-- a retire of a standing hold is the answer to the cancel that was sent -/
def groupCancelDone : Call Unit := do
  let a ← ask
  beside fun s => { s with groupCancelling := 0, groupHoldGrace := a.now + 1000000000 }

/-! ## the native reference of a tick -/

/-- the attempts of an unresolved selection; its selection state is not claimed -/
def unresolveAttempts (s : RobotRuntime) (st : Stream) (failure : Phase) (reason : String) : RobotRuntime :=
  (st.selected.toList ++ st.pending.toList).foldl (fun s rid => s.updateAttempt st.owner rid fun a =>
    if a.phase.terminal then a
    else { a with phase := if some rid = st.selected then failure else .cancelled, reason := reason }) s

/-- a candidate stayed pending too long: fail it, retire it, then hold -/
def selectionUnresolved (reason : String) : Call Unit := do
  let s ← read
  let h := s.native
  match h.key.bind fun e => (s.liveExecution e).bind fun ex => ex.stream.map fun st => (e, ex, st) with
  | none => beside fun s => { s with native := s.native.cancel }
  | some (e, ex, st) =>
    if ex.drop.isSome then do
      -- the operator's cancel waits for the RT's confirmation
      markStream e fun st => { st with pending := none, anchor := none }
      beside fun s => { s with nativePending := none }
    else do
      let failure : Phase := if ex.phase = .admitted then .cancelled else .faulted
      beside fun s => s.unresolveAttempts st failure reason
      receipt e failure reason [.referenceId h.id, .referenceRevision h.revision]
      markStream e fun st => { st with pending := none, anchor := none }
      beside fun s => { s with nativePending := none }
      dropStaged e reason

def unresolvedText : String := "selection unresolved: COMMIT pending for over 250 ms"

/-- `h.poll`, and what an unresolved selection leads to -/
def pollNative (state : Option RtState) : Call Unit := do
  let a ← ask
  let s ← read
  let h := s.native.pollJob (if a.flag then some a.job else none)
  let b ← ask
  let h := (h.pollCancel (if b.flag then some b.retire else none)).observe state
  match state with
  | none => pure ()
  | some st => remark (.packet st) trivial
  if h.unresolved b.now then do
    beside fun s => { s with native := h.giveUp }
    selectionUnresolved unresolvedText
  else beside fun s => { s with native := h.refill b.now }

/-- the RT's answer to the group COMMIT of this execution -/
def keepGroupReply (s : RobotRuntime) : RobotRuntime :=
  match s.native.groupReply, s.native.key with
  | some reply, some key =>
    if reply.key = some key then { s with groupReports := putBounded s.groupReports key reply 32 } else s
  | _, _ => s

/-- a reference failure of a planned execution -/
def nativeError (e : ExecutionId) (ex : Execution) : Call Unit := do
  let s ← read
  let h := s.native
  beside fun s => { s with nativeFailed := true }
  if ex.phase = .admitted ∧ referenceEnded h then
    receipt e .selected "" [.referenceId h.id, .referenceRevision h.revision, .armEpoch h.epoch]
  else pure ()
  let a ← ask
  let s ← read
  let failure : Phase :=
    if (s.executions e).any fun ex => ex.phase == .admitted then
      if ex.request.expired (s.stamp a.now) then .expired else .rejected
    else .faulted
  receipt e failure h.error [.referenceId h.id, .referenceRevision h.revision]
  dropStaged e h.error

/-- a standing hold: its error, and its admission -/
def nativeHold : Call Unit := do
  let a ← ask
  beside fun s =>
    if s.native.key = none ∧ s.native.error ≠ "" then
      if a.now < s.groupHoldGrace then { s with native := { s.native with error := "" } } else { s with nativeFailed := true }
    else s
  let s ← read
  if s.native.key = none ∧ s.native.ready ∧ s.nativePending = none ∧ s.nativeFailed = false then do
    let h ← link (s.native.approve a.now)
    beside fun s => { s with native := h }
  else pure ()

/-- the slot is free for this execution, or is being freed -/
def nativeStage (e : ExecutionId) (ex : Execution) : Call Unit := do
  let a ← ask
  let s ← read
  let h := s.native
  if h.busy then
    if h.key = none then beside fun s => { s with native := s.native.cancel } else pure ()
  else if (h.observed.any fun r => r.status == .running) = true then
    beside fun s => { s with native := s.native.cancel }
  else
    let staged := do
      let curve ← s.controller.stagedTrajectory e
      h.stage (some e) curve (ex.request.admitBy.map Stamp.ns) false true a.session a.armEpoch
    match staged with
    | .error text => do
      receipt e .rejected text []
      dropStaged e text
    -- a new, explicit admission
    | .ok h => beside fun s => { s with native := h, nativeFailed := false }

def nativeSelected (e : ExecutionId) (ex : Execution) : Call Unit := do
  let s ← read
  let h := s.native
  if ex.phase = .admitted then
    receipt e .selected ""
      [.referenceId h.id, .referenceRevision h.revision, .referencePhase (h.point.getD 0), .armEpoch h.epoch]
  else pure ()
  let a ← ask
  drive fun c => c.release e a.reading
  beside fun s => { s with nativePending := none }
  beside fun s => if s.controller.running = false then { s with native := s.native.cancel } else s
  pumpController none true

/-- a group member commits through COMMIT_GROUP -/
def nativeApprove (e : ExecutionId) : Call Unit := do
  let a ← ask
  let s ← read
  let refusal := firstReason [selectionRefusal s.authority, s.controller.releaseError e a.reading]
  if refusal ≠ "" then do
    receipt e .rejected refusal []
    dropStaged e refusal
  else do
    let h ← link ({ s.native with group := s.groupRelease.lookup e }.approve a.now)
    beside fun s => { s with groupRelease := s.groupRelease.filter (·.1 != e), native := h }

/-- the pending planned execution -/
def nativeCandidate : Call Unit := do
  let s ← read
  match s.nativePending with
  | none => pure ()
  | some e =>
    match (s.liveExecution e).filter fun _ => s.controller.plan == some e with
    | none => retireNative e
    | some ex =>
      if s.native.key ≠ some e then nativeStage e ex
      else if s.native.selected then nativeSelected e ex
      else if s.native.ready then nativeApprove e
      else pure ()

/-- the planned path of a tick, on an armed RT -/
def nativePlanned (epoch : ℕ) : Call Unit := do
  beside fun s => if epoch ≠ s.nativeEpoch then { s with nativeEpoch := epoch, nativeFailed := false } else s
  let s ← read
  match s.native.key.bind fun e => (s.liveExecution e).map fun ex => (e, ex) with
  | none => pure ()
  | some (e, ex) =>
    if s.native.error ≠ "" ∧ (s.native.selected = false ∨ referenceEnded s.native) then nativeError e ex else pure ()
  nativeHold
  nativeCandidate

def nativeStep (state : Option RtState) : Call Unit := do
  pollNative state
  confirmDrops state
  beside keepGroupReply
  if ← streamStep then pure ()
  else
    match state with
    | none => pure ()
    | some st => if st.armed = false then pure () else nativePlanned st.armEpoch

/-! ## the tick -/

/-- the packets received since the last tick, at most `n` -/
def feedPackets : ℕ → Call Unit
  | 0 => pure ()
  | n + 1 => do
    let a ← ask
    match a.latest with
    | none => pure ()
    | some st => do
      beside fun s => { s with tracker := s.tracker.feed st }
      remark (.packet st) trivial
      feedPackets n

/-- `_state_history`'s bound -/
def stateHistory : ℕ := 32

/-- a stopped controller is terminal: a fresh one, disarmed, nothing staged -/
def freshController (c : ArmController) : ArmController := { modelToken := c.modelToken, sourced := c.sourced }

def expireOne (e : ExecutionId) : Call Unit := do
  let _ ← expire e
  pure ()

/-- the end of a tick: history within its bound, and the snapshot -/
def finishStep : Call Unit := do
  prunes
  publish

/-- the controller's tick, its commands and events, and the evidence that arrived -/
def servo : Call Unit := do
  let a ← ask
  drive fun c => c.tick a.reading
  let s ← read
  pumpController (if s.controller.running then s.controller.plan else none) true
  appliedRules
  reconcile
  let s ← read
  if s.controller.stopped then do
    beside fun s => { s with controller := freshController s.controller }
    reconcile
  else pure ()
  finishStep

/-- deadlines, the native reference, and the servo -/
def stepReferences (sample : Answer) : Call Unit := do
  publish
  let s ← read
  .each expireOne s.known
  if s.cfg.native then nativeStep sample.latest else pure ()
  servo

/-- `_step` -/
def step : Call Unit := do
  let s ← read
  drainAuthority (2 * s.pending.length + 1)
  let health ← ask
  let s ← read
  drive fun c => c.onMotorHealth { health.reading with faulted := health.reading.faulted || s.authorityFault != "" }
  feedPackets stateHistory
  let sample ← ask
  if sample.flag then drive fun c => c.onMotorState sample.reading else pure ()
  stepReferences sample

/-- a tick that raises must not kill the loop: the controller's own stop path takes authority down -/
def tick : Call Unit := tryCatch step fun _ => drive fun c => c.stop "step failed"

/-! ## calls -/

inductive Op where
  | claim (session : String)
  | unclaim (session : String)
  | closeSession (session : String)
  | ownerLost (session : String)
  | arm (session : String)
  | disarm (session : String)
  | submit (session : String) (request : TrajectoryRequest)
  | release (session : String) (e : ExecutionId) (startAt : Option Stamp)
  | cancel (session : String) (e : ExecutionId) (reason : String)
  | hold (session reason : String)
  | selectControlPreset (session presetId : String)
  | setPayload (session : String) (massKg : ℚ)
  | setLoadModel (session : String) (revision : ℤ)
  | setpoint (session : String)
  | openStream (session : String) (o : StreamOpen)
  | streamAnchor (session : String) (e : ExecutionId)
  | reviseStream (session : String) (r : StreamRevision)
  | abortStreamRevision (session : String) (e : ExecutionId) (rid : String)
  | groupCheck (session : String)
  | groupSet (session : String) (groupId memberIndex memberCount : ℕ)
  | groupUnset (session : String) (previous : Option JoinedGroup)
  | groupRestore (session : String) (joined : JoinedGroup)
  | groupReleaseOp (session : String) (e : ExecutionId) (groupId budgetNs : ℕ)
  | groupTake (session : String) (groupId : ℕ) (cancelMembers : Bool)
  | groupCancelDone
  | tick

def discard {α : Type} (m : Call α) : Call Unit := m >>= fun _ => pure ()

def perform : Op → Call Unit
  | .claim session => discard (claim session)
  | .unclaim session => discard (unclaim session)
  | .closeSession session => closeSession session
  | .ownerLost session => ownerLost session
  | .arm session => discard (arm session)
  | .disarm session => discard (disarm session)
  | .submit session request => discard (submit session request)
  | .release session e startAt => discard (release session e startAt)
  | .cancel session e reason => discard (cancel session e reason)
  | .hold session reason => hold session reason
  | .selectControlPreset session presetId => selectControlPreset session presetId
  | .setPayload session massKg => discard (setPayload session massKg)
  | .setLoadModel session revision => discard (setLoadModel session revision)
  | .setpoint session => setpoint session
  | .openStream session o => discard (openStream session o)
  | .streamAnchor session e => discard (streamAnchor session e)
  | .reviseStream session r => discard (reviseStream session r)
  | .abortStreamRevision session e rid => discard (abortStreamRevision session e rid)
  | .groupCheck session => groupCheck session
  | .groupSet session groupId memberIndex memberCount => discard (groupSet session groupId memberIndex memberCount)
  | .groupUnset session previous => groupUnset session previous
  | .groupRestore session joined => groupRestore session joined
  | .groupReleaseOp session e groupId budgetNs => discard (groupReleaseOp session e groupId budgetNs)
  | .groupTake session groupId cancelMembers => discard (groupTake session groupId cancelMembers)
  | .groupCancelDone => groupCancelDone
  | .tick => tick

/-- what a call leaves behind, whether it returned or raised -/
def after (s : RobotRuntime) (op : Op) : RobotRuntime := Effect.leaves (perform op).run s

end ArmControl.Supervisor.RobotRuntime
