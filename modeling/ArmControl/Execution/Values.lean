import Mathlib.Algebra.Order.BigOperators.Group.List
import Mathlib.Algebra.Order.Ring.Rat
import Mathlib.Data.List.Sort
import ArmControl.Execution.Contract

/-!
# The contract's values as their constructors make them

(`execution/contract.py`, `stream.py`, `controller.py`, `motion/types.py`).  These are the values that cross
the socket, with all their fields; ids are the strings on the wire.

* `Checks`, `Checked`, `construct`   a value that its `__post_init__` accepts, and the call that makes one;
* one structure and one `refusal` (the first error text, `""` accepts) for each class.

Numbers are rationals, so a vector is finite; it is one-dimensional by type, and a matrix is its rows.
-/

namespace ArmControl.Execution.Values

/-- `__post_init__`: the text of the first `ValueError`, or `""` -/
class Checks (α : Type) where
  refusal : α → String

/-- a value that its constructor accepts -/
structure Checked (α : Type) [Checks α] where
  val : α
  accepted : Checks.refusal val = ""

/-- the constructor -/
def construct {α : Type} [Checks α] (a : α) : Except String (Checked α) :=
  if h : Checks.refusal a = "" then .ok ⟨a, h⟩ else .error (Checks.refusal a)

theorem construct_val {α : Type} [Checks α] (v : Checked α) : construct v.val = .ok v :=
  dif_pos v.accepted

/-- the first text that is not `""` -/
def firstOf : List String → String
  | [] => ""
  | t :: ts => if t = "" then firstOf ts else t

/-- `if bad: raise ValueError(text)` -/
def refuseIf (bad : Bool) (text : String) : String := if bad then text else ""

theorem firstOf_eq_empty {ts : List String} : firstOf ts = "" ↔ ∀ t ∈ ts, t = "" := by
  induction ts with
  | nil => simp [firstOf]
  | cons t ts ih =>
    rw [firstOf, List.forall_mem_cons]
    split
    case isTrue ht => simp [ht, ih]
    case isFalse ht => simp [ht]

theorem refuseIf_eq_empty {bad : Bool} {text : String} (ht : text ≠ "") :
    refuseIf bad text = "" ↔ bad = false := by
  cases bad with
  | false => simp [refuseIf]
  | true => simp [refuseIf, ht]

/-! ## identifiers -/

def idChar (c : Char) : Bool := c.isAlphanum || c == '_' || c == '.' || c == ':' || c == '-'

/-- `[A-Za-z0-9_.:-]{1,64}` -/
def isId (s : String) : Bool := s.toList.all idChar && decide (0 < s.length ∧ s.length ≤ 64)

/-- `[A-Za-z0-9_.-]{1,64}` -/
def isInstance (s : String) : Bool := isId s && s.toList.all (· != ':')

def identifier (name value : String) : String :=
  refuseIf (!isId value) (name ++ " must be 1-64 chars of [A-Za-z0-9_.:-], got " ++ quoted value)

/-- `_text` -/
def text (name value : String) : String :=
  refuseIf (value == "" || decide (256 < value.length))
    (name ++ " must be a nonempty string of at most 256 characters")

/-- `_sequence` -/
def sequence (name : String) (value : ℤ) : String :=
  refuseIf (decide (¬ (0 < value ∧ value < 2 ^ 64))) (name ++ " must be a positive uint64")

/-! ## stamps, identity, capability -/

structure Stamp where
  ns : ℤ
  clock : Clock
  domain : String
  deriving DecidableEq

instance checksStamp : Checks Stamp :=
  ⟨fun s => refuseIf (decide (s.ns < 0)) "Stamp.ns must be a non-negative int"⟩

structure RobotIdentity where
  instanceId : String
  jointNames : List String
  backend : String
  modelId : String
  deriving DecidableEq

instance checksRobotIdentity : Checks RobotIdentity :=
  ⟨fun v => firstOf
    [refuseIf (!isInstance v.instanceId)
        ("instance_id must be 1-64 chars of [A-Za-z0-9_.-], got " ++ quoted v.instanceId),
      refuseIf (v.jointNames.isEmpty || !decide v.jointNames.Nodup || v.jointNames.any (· == ""))
        "joint_names must be distinct non-empty names"]⟩

structure Capabilities where
  contractVersion : ℤ
  profiles : List String
  protocolVersion : Option ℤ
  poseHold : Bool
  observer : Bool
  rtSetup : String
  deriving DecidableEq

/-! ## observation -/

inductive Validity where
  | valid
  | stale
  | missing
  | invalid
  deriving DecidableEq

def Validity.value : Validity → String
  | .valid => "valid"
  | .stale => "stale"
  | .missing => "missing"
  | .invalid => "invalid"

structure RobotState where
  instanceId : String
  validity : Validity
  reason : String
  q : Option (List ℚ)
  dq : Option (List ℚ)
  tau : Option (List ℚ)
  selectedQ : Option (List ℚ)
  selectedQd : Option (List ℚ)
  outputTau : Option (List ℚ)
  wrench : Option (List ℚ)
  source : Option (Checked Stamp)
  received : Option (Checked Stamp)
  stateSeq : Option ℤ
  lastCommandSeq : Option ℤ

/-- `_vector` with a size -/
def sized (name : String) (value : Option (List ℚ)) (n : ℕ) : String :=
  match value with
  | none => ""
  | some xs =>
    refuseIf (decide (xs.length ≠ n)) (name ++ " must have " ++ toString n ++ " values, got " ++ toString xs.length)

instance checksRobotState : Checks RobotState :=
  ⟨fun v =>
    if v.validity ≠ .valid then firstOf
      [refuseIf ([v.q, v.dq, v.tau, v.selectedQ, v.selectedQd, v.outputTau, v.wrench].any Option.isSome)
          ("a " ++ v.validity.value ++ " observation carries no values"),
        refuseIf (v.reason == "") ("a " ++ v.validity.value ++ " observation needs a reason")]
    else
      match v.q, v.source, v.received with
      | some q, some _, some _ => firstOf
        [sized "dq" v.dq q.length, sized "tau" v.tau q.length, sized "selected_q" v.selectedQ q.length,
          sized "selected_qd" v.selectedQd q.length, sized "output_tau" v.outputTau q.length,
          sized "wrench" v.wrench 6]
      | _, _, _ => "a valid observation needs q, source and received stamps"⟩

/-! ## ownership -/

structure Fault where
  code : String
  text : String
  source : String
  armEpoch : Option ℤ
  deriving DecidableEq

structure Authority where
  lifecycle : Lifecycle
  session : Option String
  armEpoch : ℤ
  stopEpoch : ℤ
  fault : Option Fault
  holding : Option Bool
  deriving DecidableEq

instance checksAuthority : Checks Authority :=
  ⟨fun v => firstOf
    [refuseIf (decide (v.lifecycle = .faulted) != v.fault.isSome) "FAULTED and only FAULTED carries a fault",
      refuseIf (decide ((v.lifecycle = .armed ∨ v.lifecycle = .faulted) ∧ v.armEpoch ≤ 0))
        "an armed or faulted robot has an ARM generation",
      refuseIf (decide (v.holding = some true ∧ v.lifecycle ≠ .armed ∧ v.lifecycle ≠ .faulted))
        "only an armed or faulted robot can be holding"]⟩

/-! ## trajectories and requests -/

/-- every row has `n` columns -/
def shaped (rows : List (List ℚ)) (n : ℕ) : Bool := rows.all fun r => decide (r.length = n)

/-- `positions.shape[1]` -/
def columns (rows : List (List ℚ)) : ℕ := (rows.head?.map List.length).getD 0

def numJoints (t : JointTrajectory) : ℕ := columns t.positions

instance checksJointTrajectory : Checks JointTrajectory :=
  ⟨fun t => firstOf
    [refuseIf (!shaped t.positions (columns t.positions)) "positions must be a 2-D array",
      refuseIf (decide (t.times.length ≠ t.positions.length)) "times length must match positions rows",
      refuseIf (decide (t.times.length < 2)) "trajectory must contain at least two points",
      refuseIf (!decide (t.times.IsChain (· < ·))) "times must be strictly increasing",
      refuseIf
        (t.velocities.any fun rows =>
          decide (rows.length ≠ t.positions.length) || !shaped rows (columns t.positions))
        "velocities shape must match positions shape"]⟩

instance checksJointGains : Checks JointGains :=
  ⟨fun v => refuseIf
    (decide (v.kd.length ≠ v.kp.length) || v.kp.any (fun x => decide (x < 0)) || v.kd.any fun x => decide (x < 0))
    "kp/kd must be matching non-negative vectors"⟩

instance checksCompletion : Checks Completion :=
  ⟨fun v => firstOf
    [refuseIf (decide (¬ 0 < v.velTol)) "vel_tol must be finite and positive",
      refuseIf (v.goalQ.isNone != v.residualMax.isNone) "goal_q and residual_max come together",
      refuseIf (v.residualMax.any fun r => decide (¬ 0 < r)) "residual_max must be finite and positive"]⟩

/-- entry of a 3x3 matrix -/
def entry (m : List (List ℚ)) (i j : ℕ) : ℚ := (m.getD i []).getD j 0

/-- rows `i` and `j` are orthonormal up to 1e-6 -/
def orthonormal (m : List (List ℚ)) (i j : ℕ) : Bool :=
  let dot := ((List.range 3).map fun k => entry m i k * entry m j k).sum
  decide (|dot - if i = j then 1 else 0| ≤ 1 / 1000000)

def determinant (m : List (List ℚ)) : ℚ :=
  entry m 0 0 * (entry m 1 1 * entry m 2 2 - entry m 1 2 * entry m 2 1) -
    entry m 0 1 * (entry m 1 0 * entry m 2 2 - entry m 1 2 * entry m 2 0) +
    entry m 0 2 * (entry m 1 0 * entry m 2 1 - entry m 1 1 * entry m 2 0)

def gainCaps : List ℚ :=
  List.replicate 3 1000 ++ List.replicate 3 100 ++ List.replicate 3 200 ++ List.replicate 3 50

/-- `cartesian_values`, in the base frame -/
instance checksCartesianImpedance : Checks CartesianImpedance :=
  ⟨fun v => firstOf
    [refuseIf (decide (v.taskR.length ≠ 3 ∨ v.kc.length ≠ 6 ∨ v.dc.length ≠ 6) || !shaped v.taskR 3)
        "cartesian requires a 3x3 task_R and six-axis kc/dc",
      refuseIf ((List.range 3).any fun i => (List.range 3).any fun j => !orthonormal v.taskR i j)
        "task_R must be orthonormal",
      refuseIf (decide (1 / 1000000 < |determinant v.taskR - 1|)) "task_R must be a rotation (det +1)",
      refuseIf (((v.kc ++ v.dc).zip gainCaps).any fun x => !decide (0 ≤ x.1 ∧ x.1 ≤ x.2))
        "cartesian gains must be nonnegative and within the pose-hold envelope"]⟩

structure TrajectoryRequest where
  requestId : String
  instanceId : String
  jointNames : List String
  trajectory : Checked JointTrajectory
  profile : String
  gains : Option (Checked JointGains)
  modelToken : Option String
  start : Start
  admitBy : Option (Checked Stamp)
  completion : Option (Checked Completion)
  supersedes : Option String
  cartesian : Option (Checked CartesianImpedance)

/-- a deadline off the attested PC clock -/
def strayDeadline (admitBy : Option (Checked Stamp)) : Bool :=
  admitBy.any fun s => decide (s.val.clock ≠ .pc) || s.val.domain == ""

instance checksTrajectoryRequest : Checks TrajectoryRequest :=
  ⟨fun v => firstOf
    [identifier "request_id" v.requestId,
      refuseIf ((v.profile == "cartesian_impedance") != v.cartesian.isSome)
        "the cartesian_impedance profile and its CartesianImpedance settings come together",
      (v.supersedes.map (identifier "supersedes")).getD "",
      refuseIf (decide (v.jointNames.length ≠ numJoints v.trajectory.val))
        "joint_names must name every trajectory column",
      refuseIf (v.gains.any fun g => decide (g.val.kp.length ≠ numJoints v.trajectory.val))
        "gains must cover every joint",
      refuseIf
        (v.completion.any fun c => c.val.goalQ.any fun q => decide (q.length ≠ numJoints v.trajectory.val))
        "completion goal_q must cover every joint",
      refuseIf (strayDeadline v.admitBy) "admit_by must be on the attested PC monotonic clock"]⟩

/-! ## status and receipts -/

structure ExecutionStatus where
  executionId : String
  requestId : String
  instanceId : String
  phase : Phase
  reached : List (Phase × Checked Stamp)
  reason : String

/-- a value of a receipt's evidence -/
inductive EvidenceValue where
  | int (n : ℤ)
  | float (q : ℚ)
  | str (s : String)
  deriving DecidableEq

structure Receipt where
  executionId : String
  requestId : String
  instanceId : String
  phase : Phase
  at_ : Checked Stamp
  reason : String
  evidence : List (String × EvidenceValue)

instance checksReceipt : Checks Receipt :=
  ⟨fun v => firstOf
    [identifier "execution_id" v.executionId, identifier "request_id" v.requestId,
      refuseIf (decide (evidenceKeys < v.evidence.length))
        ("evidence is bounded to " ++ toString evidenceKeys ++ " entries"),
      refuseIf (decide (v.phase.terminal ∧ v.phase ≠ .completed ∧ v.reason = ""))
        ("a " ++ v.phase.value ++ " receipt needs a reason")]⟩

/-! ## streams -/

/-- `_curve` -/
def curve (t : Checked JointTrajectory) : String := firstOf
  [refuseIf t.val.velocities.isNone "stream requires explicit Hermite velocities",
    refuseIf
      (!decide (2 ≤ t.val.times.length ∧ t.val.times.length ≤ 128 ∧ 1 ≤ numJoints t.val ∧ numJoints t.val ≤ 16))
      "stream capacity is 2..128 knots x 1..16 joints"]

structure StreamOpen where
  requestId : String
  openSeq : ℤ
  instanceId : String
  jointNames : List String
  modelToken : String
  sceneToken : String
  streamPolicyId : String
  initial : Checked JointTrajectory
  start : Start
  admitBy : Option (Checked Stamp)

def StreamOpen.asRequest (v : StreamOpen) : TrajectoryRequest :=
  { requestId := v.requestId, instanceId := v.instanceId, jointNames := v.jointNames, trajectory := v.initial
    profile := "joint_impedance", gains := none, modelToken := some v.modelToken, start := v.start
    admitBy := v.admitBy, completion := none, supersedes := none, cartesian := none }

instance checksStreamOpen : Checks StreamOpen :=
  ⟨fun v => firstOf
    [sequence "open_seq" v.openSeq, text "model_token" v.modelToken, text "scene_token" v.sceneToken,
      text "stream_policy_id" v.streamPolicyId, curve v.initial, Checks.refusal v.asRequest,
      refuseIf (decide (v.initial.val.times.head? ≠ some 0)) "initial stream phase must start at zero"]⟩

structure StreamRevision where
  requestId : String
  executionId : String
  proposalSeq : ℤ
  expectedRevision : ℤ
  anchorId : String
  sceneToken : String
  suffix : Checked JointTrajectory
  terminal : Bool
  admitBy : Option (Checked Stamp)

/-- the planned request whose deadline convention a revision shares -/
def StreamRevision.asRequest (v : StreamRevision) : TrajectoryRequest :=
  { requestId := v.requestId, instanceId := "stream"
    jointNames := (List.range (numJoints v.suffix.val)).map fun i => "j" ++ toString i
    trajectory := v.suffix, profile := "joint_impedance", gains := none, modelToken := none, start := .onAdmit
    admitBy := v.admitBy, completion := none, supersedes := none, cartesian := none }

instance checksStreamRevision : Checks StreamRevision :=
  ⟨fun v => firstOf
    [text "request_id" v.requestId, text "execution_id" v.executionId, text "anchor_id" v.anchorId,
      text "scene_token" v.sceneToken, sequence "proposal_seq" v.proposalSeq,
      sequence "expected_revision" v.expectedRevision, curve v.suffix,
      refuseIf
        (v.terminal && v.suffix.val.velocities.any fun rows => (rows.getLastD []).any fun x => decide (x ≠ 0))
        "terminal revision must have zero endpoint velocity",
      Checks.refusal v.asRequest]⟩

structure SpliceAnchor where
  anchorId : String
  expectedRevision : ℤ
  cutPhase : ℚ
  q : List ℚ
  qd : List ℚ
  issuedAt : Checked Stamp
  expiresAt : Checked Stamp

/-- a joint vector of a splice knot -/
def knot (name : String) (value : List ℚ) : String :=
  refuseIf (!decide (1 ≤ value.length ∧ value.length ≤ 16)) (name ++ " must be a finite joint vector")

instance checksSpliceAnchor : Checks SpliceAnchor :=
  ⟨fun v => firstOf
    [text "anchor_id" v.anchorId, sequence "expected_revision" v.expectedRevision, knot "q" v.q, knot "qd" v.qd,
      refuseIf (decide (v.q.length ≠ v.qd.length ∨ v.cutPhase < 0)) "invalid splice knot",
      refuseIf
        (decide (v.issuedAt.val.clock ≠ v.expiresAt.val.clock ∨ v.issuedAt.val.domain ≠ v.expiresAt.val.domain))
        "anchor expiry must use its issuance clock",
      refuseIf (decide (v.expiresAt.val.ns ≤ v.issuedAt.val.ns)) "anchor must have a positive lifetime"]⟩

inductive SelectionState where
  | notRequested
  | pending
  | selected
  | refused
  deriving DecidableEq

def SelectionState.value : SelectionState → String
  | .notRequested => "not_requested"
  | .pending => "pending"
  | .selected => "selected"
  | .refused => "refused"

structure RevisionStatus where
  executionId : String
  requestId : String
  expectedRevision : Option ℤ
  revision : Option ℤ
  phase : Phase
  selectionState : SelectionState
  at_ : Checked Stamp
  reason : String

structure StreamView where
  execution : ExecutionStatus
  modelToken : String
  sceneToken : String
  streamPolicyId : String
  selectedReferenceId : Option ℤ
  selectedRevision : Option ℤ
  selectedPhase : Option ℚ
  protectedUntil : Option ℚ
  selectedEndPhase : Option ℚ
  selectedTerminal : Option Bool
  pendingRequestId : Option String
  pendingRevision : Option ℤ
  splice : Option (Checked SpliceAnchor)

/-! ## controller values -/

structure ControllerPreset where
  id : String
  law : String
  deriving DecidableEq

instance checksControllerPreset : Checks ControllerPreset :=
  ⟨fun v => refuseIf (v.id == "" || (v.law != "joint" && v.law != "soft"))
    "preset requires an id and joint/soft law"⟩

/-- a massless payload has no centre of mass -/
structure PayloadValue where
  massKg : ℚ
  comEe : Option (List ℚ)
  deriving DecidableEq

instance checksPayloadValue : Checks PayloadValue :=
  ⟨fun v => firstOf
    [refuseIf (decide (v.massKg < 0)) "payload mass must be finite and nonnegative",
      refuseIf (v.comEe.any fun com => decide (com.length ≠ 3)) "payload CoM must contain three finite values",
      refuseIf (decide (v.massKg = 0) && v.comEe.isSome) "a massless payload has no CoM"]⟩

/-- `PayloadValue(mass_kg, com_ee)`: the centre of mass of nothing is dropped -/
def payloadValue (massKg : ℚ) (comEe : Option (List ℚ)) : Except String (Checked PayloadValue) :=
  construct { massKg := massKg, comEe := if 0 < massKg then comEe else none }

structure PayloadState where
  revision : ℤ
  value : Checked PayloadValue

structure ControllerState where
  law : String
  presetId : Option String
  kp : List ℚ
  kd : List ℚ
  payload : PayloadState

end ArmControl.Execution.Values
