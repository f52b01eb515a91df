import ArmControl.Execution.Values
import ArmControl.Lib.Json

/-!
# Contract values to JSON and back (`execution/codec.py`)

* `encode` writes a dataclass by its field names, an enumeration by its value (`Json.Encode`);
* one reader for each `*_from`, which calls the constructor, so a decoded value passed its checks;
* `round_trip`.

A `null` where a field has a stamp is an error here; the source keeps the `None`.
-/

namespace ArmControl.Execution.Values.Codec

open Json (Encode Dataclass Reader Reads encode fields get getOr only)

/-! ## `encode` -/

instance encodeClock : Encode Clock := ⟨fun c => .str c.value⟩
instance encodeLifecycle : Encode Lifecycle := ⟨fun l => .str l.value⟩
instance encodePhase : Encode Phase := ⟨fun p => .str p.value⟩
instance encodeValidity : Encode Validity := ⟨fun v => .str v.value⟩
instance encodeSelectionState : Encode SelectionState := ⟨fun s => .str s.value⟩

def startValue : Start → String
  | .onAdmit => "on_admit"
  | .onRelease => "on_release"

instance encodeStart : Encode Start := ⟨fun s => .str (startValue s)⟩

instance encodeChecked {α : Type} [Checks α] [Encode α] : Encode (Checked α) := ⟨fun v => encode v.val⟩

instance fieldsStamp : Dataclass Stamp :=
  ⟨fun s => [("ns", encode s.ns), ("clock", encode s.clock), ("domain", encode s.domain)]⟩

instance fieldsRobotIdentity : Dataclass RobotIdentity :=
  ⟨fun v =>
    [("instance_id", encode v.instanceId), ("joint_names", encode v.jointNames), ("backend", encode v.backend),
      ("model_id", encode v.modelId)]⟩

instance fieldsCapabilities : Dataclass Capabilities :=
  ⟨fun v =>
    [("contract_version", encode v.contractVersion), ("profiles", encode v.profiles),
      ("protocol_version", encode v.protocolVersion), ("pose_hold", encode v.poseHold),
      ("observer", encode v.observer), ("rt_setup", encode v.rtSetup)]⟩

instance fieldsRobotState : Dataclass RobotState :=
  ⟨fun v =>
    [("instance_id", encode v.instanceId), ("validity", encode v.validity), ("reason", encode v.reason),
      ("q", encode v.q), ("dq", encode v.dq), ("tau", encode v.tau), ("selected_q", encode v.selectedQ),
      ("selected_qd", encode v.selectedQd), ("output_tau", encode v.outputTau), ("wrench", encode v.wrench),
      ("source", encode v.source), ("received", encode v.received), ("state_seq", encode v.stateSeq),
      ("last_command_seq", encode v.lastCommandSeq)]⟩

instance fieldsFault : Dataclass Fault :=
  ⟨fun v =>
    [("code", encode v.code), ("text", encode v.text), ("source", encode v.source),
      ("arm_epoch", encode v.armEpoch)]⟩

instance fieldsAuthority : Dataclass Authority :=
  ⟨fun v =>
    [("lifecycle", encode v.lifecycle), ("session", encode v.session), ("arm_epoch", encode v.armEpoch),
      ("stop_epoch", encode v.stopEpoch), ("fault", encode v.fault), ("holding", encode v.holding)]⟩

instance fieldsJointTrajectory : Dataclass JointTrajectory :=
  ⟨fun t =>
    [("times", encode t.times), ("positions", encode t.positions), ("velocities", encode t.velocities)]⟩

instance fieldsJointGains : Dataclass JointGains := ⟨fun v => [("kp", encode v.kp), ("kd", encode v.kd)]⟩

instance fieldsCompletion : Dataclass Completion :=
  ⟨fun v =>
    [("vel_tol", encode v.velTol), ("goal_q", encode v.goalQ), ("residual_max", encode v.residualMax)]⟩

instance fieldsCartesianImpedance : Dataclass CartesianImpedance :=
  ⟨fun v => [("task_R", encode v.taskR), ("kc", encode v.kc), ("dc", encode v.dc)]⟩

instance fieldsTrajectoryRequest : Dataclass TrajectoryRequest :=
  ⟨fun v =>
    [("request_id", encode v.requestId), ("instance_id", encode v.instanceId),
      ("joint_names", encode v.jointNames), ("trajectory", encode v.trajectory), ("profile", encode v.profile),
      ("gains", encode v.gains), ("model_token", encode v.modelToken), ("start", encode v.start),
      ("admit_by", encode v.admitBy), ("completion", encode v.completion), ("supersedes", encode v.supersedes),
      ("cartesian", encode v.cartesian)]⟩

instance fieldsExecutionStatus : Dataclass ExecutionStatus :=
  ⟨fun v =>
    [("execution_id", encode v.executionId), ("request_id", encode v.requestId),
      ("instance_id", encode v.instanceId), ("phase", encode v.phase),
      ("reached", Json.mapping Phase.value v.reached), ("reason", encode v.reason)]⟩

instance encodeEvidenceValue : Encode EvidenceValue :=
  ⟨fun
    | .int n => .int n
    | .float q => .float q
    | .str s => .str s⟩

instance fieldsReceipt : Dataclass Receipt :=
  ⟨fun v =>
    [("execution_id", encode v.executionId), ("request_id", encode v.requestId),
      ("instance_id", encode v.instanceId), ("phase", encode v.phase), ("at", encode v.at_),
      ("reason", encode v.reason), ("evidence", Json.mapping id v.evidence)]⟩

instance fieldsStreamOpen : Dataclass StreamOpen :=
  ⟨fun v =>
    [("request_id", encode v.requestId), ("open_seq", encode v.openSeq), ("instance_id", encode v.instanceId),
      ("joint_names", encode v.jointNames), ("model_token", encode v.modelToken),
      ("scene_token", encode v.sceneToken), ("stream_policy_id", encode v.streamPolicyId),
      ("initial", encode v.initial), ("start", encode v.start), ("admit_by", encode v.admitBy)]⟩

instance fieldsStreamRevision : Dataclass StreamRevision :=
  ⟨fun v =>
    [("request_id", encode v.requestId), ("execution_id", encode v.executionId),
      ("proposal_seq", encode v.proposalSeq), ("expected_revision", encode v.expectedRevision),
      ("anchor_id", encode v.anchorId), ("scene_token", encode v.sceneToken), ("suffix", encode v.suffix),
      ("terminal", encode v.terminal), ("admit_by", encode v.admitBy)]⟩

instance fieldsSpliceAnchor : Dataclass SpliceAnchor :=
  ⟨fun v =>
    [("anchor_id", encode v.anchorId), ("expected_revision", encode v.expectedRevision),
      ("cut_phase", encode v.cutPhase), ("q", encode v.q), ("qd", encode v.qd),
      ("issued_at", encode v.issuedAt), ("expires_at", encode v.expiresAt)]⟩

instance fieldsRevisionStatus : Dataclass RevisionStatus :=
  ⟨fun v =>
    [("execution_id", encode v.executionId), ("request_id", encode v.requestId),
      ("expected_revision", encode v.expectedRevision), ("revision", encode v.revision),
      ("phase", encode v.phase), ("selection_state", encode v.selectionState), ("at", encode v.at_),
      ("reason", encode v.reason)]⟩

instance fieldsStreamView : Dataclass StreamView :=
  ⟨fun v =>
    [("execution", encode v.execution), ("model_token", encode v.modelToken),
      ("scene_token", encode v.sceneToken), ("stream_policy_id", encode v.streamPolicyId),
      ("selected_reference_id", encode v.selectedReferenceId), ("selected_revision", encode v.selectedRevision),
      ("selected_phase", encode v.selectedPhase), ("protected_until", encode v.protectedUntil),
      ("selected_end_phase", encode v.selectedEndPhase), ("selected_terminal", encode v.selectedTerminal),
      ("pending_request_id", encode v.pendingRequestId), ("pending_revision", encode v.pendingRevision),
      ("splice", encode v.splice)]⟩

instance fieldsControllerPreset : Dataclass ControllerPreset :=
  ⟨fun v => [("id", encode v.id), ("law", encode v.law)]⟩

instance fieldsPayloadValue : Dataclass PayloadValue :=
  ⟨fun v => [("mass_kg", encode v.massKg), ("com_ee", encode v.comEe)]⟩

instance fieldsPayloadState : Dataclass PayloadState :=
  ⟨fun v => [("revision", encode v.revision), ("value", encode v.value)]⟩

instance fieldsControllerState : Dataclass ControllerState :=
  ⟨fun v =>
    [("law", encode v.law), ("preset_id", encode v.presetId), ("kp", encode v.kp), ("kd", encode v.kd),
      ("payload", encode v.payload)]⟩

/-! ## the readers -/

def clock : Reader Clock := Json.oneOf [.rtHost, .pc, .robot, .execution] Clock.value

def lifecycle : Reader Lifecycle :=
  Json.oneOf [.disconnected, .observing, .connected, .claimed, .armed, .faulted] Lifecycle.value

def phases : List Phase :=
  [.requested, .admitted, .selected, .sent, .applied, .completed, .rejected, .superseded, .expired, .cancelled,
    .faulted]

def phase : Reader Phase := Json.oneOf phases Phase.value
def validity : Reader Validity := Json.oneOf [.valid, .stale, .missing, .invalid] Validity.value
def start : Reader Start := Json.oneOf [.onAdmit, .onRelease] startValue

def selectionState : Reader SelectionState :=
  Json.oneOf [.notRequested, .pending, .selected, .refused] SelectionState.value

/-- `stamp_from` of what is not `None` -/
def stamp : Reader (Checked Stamp) := fun d => do
  construct
    { ns := ← Json.integer (← get d "ns")
      clock := ← clock (← get d "clock")
      domain := ← Json.string (← get d "domain") }

def stampFrom : Reader (Option (Checked Stamp)) := Json.option stamp

def identityFrom : Reader (Checked RobotIdentity) := fun d => do
  construct
    { instanceId := ← Json.string (← get d "instance_id")
      jointNames := ← Json.list Json.string (← get d "joint_names")
      backend := ← Json.string (← get d "backend")
      modelId := ← Json.string (← get d "model_id") }

def capabilitiesFrom : Reader Capabilities := fun d => do
  return {
    contractVersion := ← Json.integer (← get d "contract_version")
    profiles := ← Json.list Json.string (← get d "profiles")
    protocolVersion := ← Json.option Json.integer (← get d "protocol_version")
    poseHold := ← Json.boolean (← get d "pose_hold")
    observer := ← Json.boolean (← get d "observer")
    rtSetup := ← Json.string (← get d "rt_setup") }

/-- a keyword argument of a joint vector, `None` by default -/
def vectorArg (d : Json) (k : String) : Except String (Option (List ℚ)) := do
  Json.option (Json.list Json.number) (← getOr d k .null)

def stateFrom : Reader (Checked RobotState) := fun d => do
  only d ["instance_id", "validity", "reason", "q", "dq", "tau", "selected_q", "selected_qd", "output_tau",
    "wrench", "source", "received", "state_seq", "last_command_seq"]
  construct
    { instanceId := ← Json.string (← get d "instance_id")
      validity := ← validity (← get d "validity")
      reason := ← Json.string (← getOr d "reason" (.str ""))
      q := ← vectorArg d "q"
      dq := ← vectorArg d "dq"
      tau := ← vectorArg d "tau"
      selectedQ := ← vectorArg d "selected_q"
      selectedQd := ← vectorArg d "selected_qd"
      outputTau := ← vectorArg d "output_tau"
      wrench := ← vectorArg d "wrench"
      source := ← stampFrom (← get d "source")
      received := ← stampFrom (← get d "received")
      stateSeq := ← Json.option Json.integer (← getOr d "state_seq" .null)
      lastCommandSeq := ← Json.option Json.integer (← getOr d "last_command_seq" .null) }

/-- `Fault(**d)` -/
def fault : Reader Fault := fun d => do
  only d ["code", "text", "source", "arm_epoch"]
  return {
    code := ← Json.string (← get d "code")
    text := ← Json.string (← get d "text")
    source := ← Json.string (← get d "source")
    armEpoch := ← Json.option Json.integer (← getOr d "arm_epoch" .null) }

def authorityFrom : Reader (Checked Authority) := fun d => do
  let fault ← Json.option fault (← get d "fault")
  construct
    { lifecycle := ← lifecycle (← get d "lifecycle")
      session := ← Json.option Json.string (← get d "session")
      armEpoch := ← Json.integer (← get d "arm_epoch")
      stopEpoch := ← Json.integer (← get d "stop_epoch")
      fault := fault
      holding := ← Json.option Json.boolean (← get d "holding") }

/-- rows of numbers -/
def rows : Reader (List (List ℚ)) := Json.list (Json.list Json.number)

/-- `JointTrajectory(t["times"], t["positions"], t["velocities"])` -/
def trajectory : Reader (Checked JointTrajectory) := fun t => do
  construct
    { times := ← Json.list Json.number (← get t "times")
      positions := ← rows (← get t "positions")
      velocities := ← Json.option rows (← get t "velocities") }

/-- `JointTrajectory(**t)` -/
def trajectoryKw : Reader (Checked JointTrajectory) := fun t => do
  only t ["times", "positions", "velocities"]
  construct
    { times := ← Json.list Json.number (← get t "times")
      positions := ← rows (← get t "positions")
      velocities := ← Json.option rows (← getOr t "velocities" .null) }

/-- `JointGains(**d)` -/
def gains : Reader (Checked JointGains) := fun d => do
  only d ["kp", "kd"]
  construct
    { kp := ← Json.list Json.number (← get d "kp")
      kd := ← Json.list Json.number (← get d "kd") }

/-- `Completion(**d)` -/
def completion : Reader (Checked Completion) := fun d => do
  only d ["vel_tol", "goal_q", "residual_max"]
  construct
    { velTol := ← Json.number (← get d "vel_tol")
      goalQ := ← vectorArg d "goal_q"
      residualMax := ← Json.option Json.number (← getOr d "residual_max" .null) }

/-- `CartesianImpedance(**d)` -/
def cartesian : Reader (Checked CartesianImpedance) := fun d => do
  only d ["task_R", "kc", "dc"]
  construct
    { taskR := ← rows (← get d "task_R")
      kc := ← Json.list Json.number (← get d "kc")
      dc := ← Json.list Json.number (← get d "dc") }

def requestFrom : Reader (Checked TrajectoryRequest) := fun d => do
  let t ← get d "trajectory"
  let gains ← Json.option gains (← get d "gains")
  let completion ← Json.option completion (← get d "completion")
  construct
    { requestId := ← Json.string (← get d "request_id")
      instanceId := ← Json.string (← get d "instance_id")
      jointNames := ← Json.list Json.string (← get d "joint_names")
      trajectory := ← trajectory t
      profile := ← Json.string (← get d "profile")
      gains := gains
      modelToken := ← Json.option Json.string (← get d "model_token")
      start := ← start (← get d "start")
      admitBy := ← stampFrom (← get d "admit_by")
      completion := completion
      supersedes := ← Json.option Json.string (← get d "supersedes")
      -- absent from a client before the field
      cartesian := ← Json.option cartesian (← getOr d "cartesian" .null) }

def statusFrom : Reader ExecutionStatus := fun d => do
  return {
    executionId := ← Json.string (← get d "execution_id")
    requestId := ← Json.string (← get d "request_id")
    instanceId := ← Json.string (← get d "instance_id")
    phase := ← phase (← get d "phase")
    reached := ← Json.items (fun k => phase (.str k)) stamp (← get d "reached")
    reason := ← Json.string (← get d "reason") }

/-- a value of `dict(d["evidence"])` -/
def evidenceValue : Reader EvidenceValue
  | .int n => .ok (.int n)
  | .float q => .ok (.float q)
  | .str s => .ok (.str s)
  | _ => .error "not an evidence value"

def receiptFrom : Reader (Checked Receipt) := fun d => do
  construct
    { executionId := ← Json.string (← get d "execution_id")
      requestId := ← Json.string (← get d "request_id")
      instanceId := ← Json.string (← get d "instance_id")
      phase := ← phase (← get d "phase")
      at_ := ← stamp (← get d "at")
      reason := ← Json.string (← get d "reason")
      evidence := ← Json.items .ok evidenceValue (← get d "evidence") }

def streamOpenFrom : Reader (Checked StreamOpen) := fun d => do
  let t ← get d "initial"
  construct
    { requestId := ← Json.string (← get d "request_id")
      openSeq := ← Json.integer (← get d "open_seq")
      instanceId := ← Json.string (← get d "instance_id")
      jointNames := ← Json.list Json.string (← get d "joint_names")
      modelToken := ← Json.string (← get d "model_token")
      sceneToken := ← Json.string (← get d "scene_token")
      streamPolicyId := ← Json.string (← get d "stream_policy_id")
      initial := ← trajectoryKw t
      start := ← start (← get d "start")
      admitBy := ← stampFrom (← get d "admit_by") }

def streamRevisionFrom : Reader (Checked StreamRevision) := fun d => do
  only d ["request_id", "execution_id", "proposal_seq", "expected_revision", "anchor_id", "scene_token",
    "suffix", "terminal", "admit_by"]
  construct
    { requestId := ← Json.string (← get d "request_id")
      executionId := ← Json.string (← get d "execution_id")
      proposalSeq := ← Json.integer (← get d "proposal_seq")
      expectedRevision := ← Json.integer (← get d "expected_revision")
      anchorId := ← Json.string (← get d "anchor_id")
      sceneToken := ← Json.string (← get d "scene_token")
      suffix := ← trajectoryKw (← get d "suffix")
      terminal := ← Json.boolean (← getOr d "terminal" (.bool false))
      admitBy := ← stampFrom (← get d "admit_by") }

/-- `anchor_from` of what is not `None` -/
def anchor : Reader (Checked SpliceAnchor) := fun d => do
  only d ["anchor_id", "expected_revision", "cut_phase", "q", "qd", "issued_at", "expires_at"]
  construct
    { anchorId := ← Json.string (← get d "anchor_id")
      expectedRevision := ← Json.integer (← get d "expected_revision")
      cutPhase := ← Json.number (← get d "cut_phase")
      q := ← Json.list Json.number (← get d "q")
      qd := ← Json.list Json.number (← get d "qd")
      issuedAt := ← stamp (← get d "issued_at")
      expiresAt := ← stamp (← get d "expires_at") }

def anchorFrom : Reader (Option (Checked SpliceAnchor)) := Json.option anchor

def revisionStatusFrom : Reader RevisionStatus := fun d => do
  only d ["execution_id", "request_id", "expected_revision", "revision", "phase", "selection_state", "at",
    "reason"]
  return {
    executionId := ← Json.string (← get d "execution_id")
    requestId := ← Json.string (← get d "request_id")
    expectedRevision := ← Json.option Json.integer (← get d "expected_revision")
    revision := ← Json.option Json.integer (← get d "revision")
    phase := ← phase (← get d "phase")
    selectionState := ← selectionState (← get d "selection_state")
    at_ := ← stamp (← get d "at")
    reason := ← Json.string (← getOr d "reason" (.str "")) }

def streamViewFrom : Reader StreamView := fun d => do
  only d ["execution", "model_token", "scene_token", "stream_policy_id", "selected_reference_id",
    "selected_revision", "selected_phase", "protected_until", "selected_end_phase", "selected_terminal",
    "pending_request_id", "pending_revision", "splice"]
  return {
    execution := ← statusFrom (← get d "execution")
    modelToken := ← Json.string (← get d "model_token")
    sceneToken := ← Json.string (← get d "scene_token")
    streamPolicyId := ← Json.string (← get d "stream_policy_id")
    selectedReferenceId := ← Json.option Json.integer (← getOr d "selected_reference_id" .null)
    selectedRevision := ← Json.option Json.integer (← getOr d "selected_revision" .null)
    selectedPhase := ← Json.option Json.number (← getOr d "selected_phase" .null)
    protectedUntil := ← Json.option Json.number (← getOr d "protected_until" .null)
    selectedEndPhase := ← Json.option Json.number (← getOr d "selected_end_phase" .null)
    selectedTerminal := ← Json.option Json.boolean (← getOr d "selected_terminal" .null)
    pendingRequestId := ← Json.option Json.string (← getOr d "pending_request_id" .null)
    pendingRevision := ← Json.option Json.integer (← getOr d "pending_revision" .null)
    splice := ← anchorFrom (← get d "splice") }

/-- `PayloadValue(**d)`, which drops the centre of mass of nothing -/
def payloadFrom : Reader (Checked PayloadValue) := fun d => do
  only d ["mass_kg", "com_ee"]
  payloadValue (← Json.number (← get d "mass_kg")) (← vectorArg d "com_ee")

def payloadStateFrom : Reader PayloadState := fun d => do
  return {
    revision := ← Json.integer (← get d "revision")
    value := ← payloadFrom (← get d "value") }

def presetFrom : Reader (Checked ControllerPreset) := fun d => do
  only d ["id", "law"]
  construct
    { id := ← Json.string (← get d "id")
      law := ← Json.string (← get d "law") }

def controllerStateFrom : Reader ControllerState := fun d => do
  only d ["law", "preset_id", "kp", "kd", "payload"]
  return {
    law := ← Json.string (← get d "law")
    presetId := ← Json.option Json.string (← get d "preset_id")
    kp := ← Json.list Json.number (← get d "kp")
    kd := ← Json.list Json.number (← get d "kd")
    payload := ← payloadStateFrom (← get d "payload") }

/-! ## plain types and enumerations -/

theorem reads_clock : Reads clock := Json.reads_oneOf (fun _ => rfl) (by intro a; cases a <;> rfl)
theorem reads_lifecycle : Reads lifecycle := Json.reads_oneOf (fun _ => rfl) (by intro a; cases a <;> rfl)
theorem reads_phase : Reads phase := Json.reads_oneOf (fun _ => rfl) (by intro a; cases a <;> rfl)
theorem reads_validity : Reads validity := Json.reads_oneOf (fun _ => rfl) (by intro a; cases a <;> rfl)
theorem reads_start : Reads start := Json.reads_oneOf (fun _ => rfl) (by intro a; cases a <;> rfl)

theorem reads_selectionState : Reads selectionState :=
  Json.reads_oneOf (fun _ => rfl) (by intro a; cases a <;> rfl)

theorem reads_evidenceValue : Reads evidenceValue :=
  ⟨fun v => by cases v <;> rfl, fun v h => by cases v <;> exact Json.noConfusion h⟩

/-- a reader of a record's fields -/
theorem reads_fields {α : Type} [Dataclass α] {f : Reader α} (h : ∀ v, f (.obj (fields v)) = .ok v) : Reads f :=
  ⟨h, fun _ he => Json.noConfusion he⟩

/-- a reader that calls the constructor -/
theorem reads_checked {α : Type} [Checks α] [Dataclass α] {f : Reader (Checked α)}
    (h : ∀ v : Checked α, f (.obj (fields v.val)) = .ok v) : Reads f :=
  ⟨h, fun _ he => Json.noConfusion he⟩

/-! ## each reader reads back what `encode` wrote -/

theorem reads_stamp : Reads stamp := by
  refine reads_checked fun v => Eq.trans ?_ (construct_val v)
  simp [stamp, fields, Json.get_tail, Json.reads_integer.back, reads_clock.back, Json.reads_string.back]

theorem stampFrom_back (v : Option (Checked Stamp)) : stampFrom (encode v) = .ok v := reads_stamp.option v

theorem reads_identityFrom : Reads identityFrom := by
  refine reads_checked fun v => Eq.trans ?_ (construct_val v)
  simp [identityFrom, fields, Json.get_tail, Json.reads_string.back, Json.reads_string.list.back]

theorem reads_capabilitiesFrom : Reads capabilitiesFrom := by
  refine reads_fields fun v => ?_
  simp [capabilitiesFrom, fields, Json.get_tail, Json.reads_integer.back, Json.reads_integer.option,
    Json.reads_boolean.back, Json.reads_string.back, Json.reads_string.list.back]

theorem reads_stateFrom : Reads stateFrom := by
  refine reads_checked fun v => Eq.trans ?_ (construct_val v)
  simp [stateFrom, fields, Json.only_cons, Json.get_tail, Json.getOr_tail, vectorArg, Json.reads_number.list.option, stampFrom_back,
    reads_validity.back, Json.reads_integer.option, Json.reads_string.back]

theorem reads_fault : Reads fault := by
  refine reads_fields fun v => ?_
  simp [fault, fields, Json.only_cons, Json.get_tail, Json.getOr_tail, Json.reads_integer.option,
    Json.reads_string.back]

theorem reads_authorityFrom : Reads authorityFrom := by
  refine reads_checked fun v => Eq.trans ?_ (construct_val v)
  simp [authorityFrom, fields, Json.get_tail, reads_fault.option, reads_lifecycle.back, Json.reads_string.option,
    Json.reads_integer.back, Json.reads_boolean.option]

theorem reads_rows : Reads rows := Json.reads_number.list.list

theorem reads_trajectory : Reads trajectory := by
  refine reads_checked fun v => Eq.trans ?_ (construct_val v)
  simp [trajectory, fields, Json.get_tail, Json.reads_number.list.back, reads_rows.back, reads_rows.option]

theorem reads_trajectoryKw : Reads trajectoryKw := by
  refine reads_checked fun v => Eq.trans ?_ (construct_val v)
  simp [trajectoryKw, fields, Json.only_cons, Json.get_tail, Json.getOr_tail, Json.reads_number.list.back,
    reads_rows.back, reads_rows.option]

theorem reads_gains : Reads gains := by
  refine reads_checked fun v => Eq.trans ?_ (construct_val v)
  simp [gains, fields, Json.only_cons, Json.get_tail, Json.reads_number.list.back]

theorem reads_completion : Reads completion := by
  refine reads_checked fun v => Eq.trans ?_ (construct_val v)
  simp [completion, fields, Json.only_cons, Json.getOr_tail, vectorArg, Json.reads_number.list.option,
    Json.reads_number.back, Json.reads_number.option]

theorem reads_cartesian : Reads cartesian := by
  refine reads_checked fun v => Eq.trans ?_ (construct_val v)
  simp [cartesian, fields, Json.only_cons, Json.get_tail, Json.reads_number.list.back, reads_rows.back]

theorem reads_requestFrom : Reads requestFrom := by
  refine reads_checked fun v => Eq.trans ?_ (construct_val v)
  simp [requestFrom, fields, Json.get_tail, Json.getOr_tail, reads_trajectory.back, reads_gains.option,
    reads_completion.option, reads_cartesian.option, reads_start.back, stampFrom_back, Json.reads_string.back,
    Json.reads_string.option, Json.reads_string.list.back]

theorem reads_statusFrom : Reads statusFrom := by
  refine reads_fields fun v => ?_
  have hreached := @Json.items_back _ _ _ _ _ (fun k => phase (.str k)) reads_phase.back reads_stamp v.reached
  simp [statusFrom, fields, Json.get_tail, reads_phase.back, Json.reads_string.back, hreached]

theorem reads_receiptFrom : Reads receiptFrom := by
  refine reads_checked fun v => Eq.trans ?_ (construct_val v)
  have hevidence := @Json.items_back _ _ _ _ id .ok (fun _ => rfl) reads_evidenceValue v.val.evidence
  simp [receiptFrom, fields, Json.get_tail, reads_phase.back, reads_stamp.back, Json.reads_string.back,
    hevidence]

theorem reads_streamOpenFrom : Reads streamOpenFrom := by
  refine reads_checked fun v => Eq.trans ?_ (construct_val v)
  simp [streamOpenFrom, fields, Json.get_tail, reads_trajectoryKw.back, reads_start.back, stampFrom_back,
    Json.reads_integer.back, Json.reads_string.back, Json.reads_string.list.back]

theorem reads_streamRevisionFrom : Reads streamRevisionFrom := by
  refine reads_checked fun v => Eq.trans ?_ (construct_val v)
  simp [streamRevisionFrom, fields, Json.only_cons, Json.get_tail, Json.getOr_tail, reads_trajectoryKw.back,
    stampFrom_back, Json.reads_integer.back, Json.reads_boolean.back, Json.reads_string.back]

theorem reads_anchor : Reads anchor := by
  refine reads_checked fun v => Eq.trans ?_ (construct_val v)
  simp [anchor, fields, Json.only_cons, Json.get_tail, reads_stamp.back, Json.reads_integer.back,
    Json.reads_number.back, Json.reads_number.list.back, Json.reads_string.back]

theorem reads_revisionStatusFrom : Reads revisionStatusFrom := by
  refine reads_fields fun v => ?_
  simp [revisionStatusFrom, fields, Json.only_cons, Json.get_tail, Json.getOr_tail, reads_phase.back,
    reads_selectionState.back, reads_stamp.back, Json.reads_integer.option, Json.reads_string.back]

theorem reads_streamViewFrom : Reads streamViewFrom := by
  refine reads_fields fun v => ?_
  have hanchor : ∀ a, anchorFrom (encode a) = .ok a := reads_anchor.option
  simp [streamViewFrom, fields, Json.only_cons, Json.get_tail, Json.getOr_tail, reads_statusFrom.back, hanchor,
    Json.reads_integer.option, Json.reads_number.option, Json.reads_boolean.option, Json.reads_string.back,
    Json.reads_string.option]

/-- a constructed payload has no centre of mass to drop -/
theorem payloadValue_back (v : Checked PayloadValue) : payloadValue v.val.massKg v.val.comEe = .ok v := by
  have haccepted := firstOf_eq_empty.mp v.accepted
  have hmass : ¬ v.val.massKg < 0 := by
    simpa [refuseIf_eq_empty] using haccepted _ List.mem_cons_self
  have hcom : v.val.massKg = 0 → v.val.comEe = none := by
    simpa [refuseIf_eq_empty] using haccepted _ (List.mem_cons_of_mem _ (List.mem_cons_of_mem _ List.mem_cons_self))
  refine Eq.trans ?_ (construct_val v)
  rw [payloadValue]
  split
  case isTrue => rfl
  case isFalse hpos => rw [← hcom (le_antisymm (not_lt.mp hpos) (not_lt.mp hmass))]

theorem reads_payloadFrom : Reads payloadFrom := by
  refine reads_checked fun v => Eq.trans ?_ (payloadValue_back v)
  simp [payloadFrom, fields, Json.only_cons, Json.getOr_tail, vectorArg, Json.reads_number.list.option,
    Json.reads_number.back]

theorem reads_payloadStateFrom : Reads payloadStateFrom := by
  refine reads_fields fun v => ?_
  simp [payloadStateFrom, fields, Json.get_tail, reads_payloadFrom.back, Json.reads_integer.back]

theorem reads_presetFrom : Reads presetFrom := by
  refine reads_checked fun v => Eq.trans ?_ (construct_val v)
  simp [presetFrom, fields, Json.only_cons, Json.get_tail, Json.reads_string.back]

theorem reads_controllerStateFrom : Reads controllerStateFrom := by
  refine reads_fields fun v => ?_
  simp [controllerStateFrom, fields, Json.only_cons, Json.get_tail, reads_payloadStateFrom.back,
    Json.reads_number.list.back, Json.reads_string.back, Json.reads_string.option]

/-! ## the round trip -/

/-- decoding gives the value back, and two values with one encoding are the same value -/
structure RoundTrips {α : Type} [Encode α] (from_ : Reader α) : Prop where
  back : ∀ v : α, from_ (encode v) = .ok v
  again : ∀ v w : α, from_ (encode v) = .ok w → (encode w : Json) = encode v
  content : ∀ v w : α, (encode v : Json) = encode w ↔ v = w

theorem RoundTrips.of_back {α : Type} [Encode α] {from_ : Reader α} (h : ∀ v : α, from_ (encode v) = .ok v) :
    RoundTrips from_ where
  back := h
  again v w hw := by
    rw [h] at hw
    obtain rfl := Except.ok.inj hw
    rfl
  content v w := by
    refine ⟨fun he => ?_, fun he => congrArg encode he⟩
    have hv := h v
    rw [he, h] at hv
    exact (Except.ok.inj hv).symm

/-- **Every contract value survives the socket.** -/
theorem round_trip :
    RoundTrips identityFrom ∧ RoundTrips capabilitiesFrom ∧ RoundTrips stateFrom ∧ RoundTrips authorityFrom ∧
      RoundTrips requestFrom ∧ RoundTrips statusFrom ∧ RoundTrips receiptFrom ∧ RoundTrips streamOpenFrom ∧
      RoundTrips streamRevisionFrom ∧ RoundTrips anchorFrom ∧ RoundTrips revisionStatusFrom ∧
      RoundTrips streamViewFrom ∧ RoundTrips payloadStateFrom ∧ RoundTrips presetFrom ∧
      RoundTrips controllerStateFrom :=
  ⟨.of_back reads_identityFrom.back, .of_back reads_capabilitiesFrom.back, .of_back reads_stateFrom.back,
    .of_back reads_authorityFrom.back, .of_back reads_requestFrom.back, .of_back reads_statusFrom.back,
    .of_back reads_receiptFrom.back, .of_back reads_streamOpenFrom.back, .of_back reads_streamRevisionFrom.back,
    .of_back reads_anchor.option, .of_back reads_revisionStatusFrom.back, .of_back reads_streamViewFrom.back,
    .of_back reads_payloadStateFrom.back, .of_back reads_presetFrom.back, .of_back reads_controllerStateFrom.back⟩

end ArmControl.Execution.Values.Codec
