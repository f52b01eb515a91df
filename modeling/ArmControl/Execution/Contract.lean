import Mathlib.Data.List.Basic
import Mathlib.Data.Rat.Defs

/-!
# Execution contract (`execution/contract.py`)

* `TrajectoryRequest`, `admissionRefusal`, `selectionRefusal`, `supersessionRefusal`;
* `Phase`, `Receipt`, `ExecutionStatus` and the fold `apply`.

An execution id is the number of its execution: the instance id before it and the random suffix behind
it are the same for one process, or decide nothing.  `codec.encode` of two values is compared by
comparing the values.
-/

namespace ArmControl.Execution

inductive Clock where
  | rtHost
  | pc
  | robot
  | execution
  deriving DecidableEq, Inhabited

def Clock.value : Clock → String
  | .rtHost => "rt_host_monotonic"
  | .pc => "pc_monotonic"
  | .robot => "robot"
  | .execution => "execution"

structure Stamp where
  ns : ℕ
  clock : Clock := .pc
  domain : String
  deriving DecidableEq, Inhabited

abbrev ExecutionId := ℕ

structure JointTrajectory where
  times : List ℚ
  positions : List (List ℚ)
  velocities : Option (List (List ℚ))
  deriving DecidableEq, Inhabited

structure JointGains where
  kp : List ℚ
  kd : List ℚ
  deriving DecidableEq, Inhabited

structure Completion where
  velTol : ℚ
  goalQ : Option (List ℚ)
  residualMax : Option ℚ
  deriving DecidableEq, Inhabited

structure CartesianImpedance where
  taskR : List (List ℚ)
  kc : List ℚ
  dc : List ℚ
  deriving DecidableEq, Inhabited

inductive Start where
  /-- selected as soon as it is admitted -/
  | onAdmit
  /-- admitted for review; selected only by `release` -/
  | onRelease
  deriving DecidableEq, Inhabited

structure TrajectoryRequest where
  requestId : String
  instanceId : String
  jointNames : List String
  trajectory : JointTrajectory
  profile : String := "joint_impedance"
  gains : Option JointGains := none
  modelToken : Option String := none
  start : Start := .onAdmit
  admitBy : Option Stamp := none
  completion : Option Completion := none
  supersedes : Option ExecutionId := none
  cartesian : Option CartesianImpedance := none
  deriving DecidableEq, Inhabited

/-- past `admit_by`; the stamps are on one clock (admission checked it) -/
def TrajectoryRequest.expired (r : TrajectoryRequest) (now : Stamp) : Bool :=
  match r.admitBy with
  | none => false
  | some by_ => decide (by_.ns < now.ns)

/-- a deadline on a clock that `now` is not on -/
def TrajectoryRequest.foreignDeadline (r : TrajectoryRequest) (now : Stamp) : String :=
  match r.admitBy with
  | none => ""
  | some by_ =>
    if by_.domain ≠ now.domain ∨ now.clock ≠ .pc then
      "admit_by is on " ++ by_.clock.value ++ ":" ++ by_.domain ++ ", this supervisor runs " ++
        now.clock.value ++ ":" ++ now.domain
    else ""

structure RobotIdentity where
  instanceId : String
  jointNames : List String
  deriving DecidableEq, Inhabited

def contractVersion : ℕ := 1

structure Capabilities where
  contractVersion : ℕ := 1
  profiles : List String
  deriving DecidableEq, Inhabited

/-- `{s!r}` -/
def quoted (s : String) : String := "'" ++ s ++ "'"

def Capabilities.refusal (c : Capabilities) (profile : String) : String :=
  if c.contractVersion ≠ Execution.contractVersion then
    "backend implements contract v" ++ toString c.contractVersion ++ ", application v" ++
      toString Execution.contractVersion
  else if profile ∉ c.profiles then
    "controller profile " ++ quoted profile ++ " not offered (" ++ ", ".intercalate c.profiles ++ ")"
  else ""

inductive Lifecycle where
  | disconnected
  | observing
  | connected
  | claimed
  | armed
  | faulted
  deriving DecidableEq, Inhabited

def Lifecycle.value : Lifecycle → String
  | .disconnected => "disconnected"
  | .observing => "observing"
  | .connected => "connected"
  | .claimed => "claimed"
  | .armed => "armed"
  | .faulted => "faulted"

structure Authority where
  lifecycle : Lifecycle := .disconnected
  armEpoch : ℕ := 0
  deriving DecidableEq, Inhabited

/-- the checks for staging, in order; `""` admits -/
def admissionRefusal (r : TrajectoryRequest) (identity : RobotIdentity) (capabilities : Capabilities)
    (authority : Authority) (now : Stamp) (modelToken : Option String) : String :=
  if r.instanceId ≠ identity.instanceId then
    "request is for " ++ quoted r.instanceId ++ ", robot is " ++ quoted identity.instanceId
  else if r.jointNames ≠ identity.jointNames then
    "joint order differs from the robot's canonical order"
  else if capabilities.refusal r.profile ≠ "" then capabilities.refusal r.profile
  else if modelToken.isSome ∧ r.modelToken ≠ modelToken then
    "planned against model " ++ quoted (r.modelToken.getD "None") ++ ", robot runs " ++
      quoted (modelToken.getD "None")
  else if r.foreignDeadline now ≠ "" then r.foreignDeadline now
  else if r.expired now then "admit_by already passed"
  else if authority.lifecycle ≠ .claimed ∧ authority.lifecycle ≠ .armed then
    "robot is " ++ authority.lifecycle.value ++ "; admission needs a claimed owner"
  else ""

/-- the check for selection; `""` selects -/
def selectionRefusal (authority : Authority) : String :=
  if authority.lifecycle ≠ .armed then "robot is " ++ authority.lifecycle.value ++ ", not armed" else ""

/-! ## execution status -/

inductive Phase where
  | requested
  | admitted
  | selected
  | sent
  | applied
  | completed
  | rejected
  | superseded
  | expired
  | cancelled
  | faulted
  deriving DecidableEq, Inhabited

namespace Phase

def value : Phase → String
  | requested => "requested"
  | admitted => "admitted"
  | selected => "selected"
  | sent => "sent"
  | applied => "applied"
  | completed => "completed"
  | rejected => "rejected"
  | superseded => "superseded"
  | expired => "expired"
  | cancelled => "cancelled"
  | faulted => "faulted"

/-- `_CHAIN.index`; the terminal phases are not in the chain -/
def chain : Phase → ℕ
  | requested => 0
  | admitted => 1
  | selected => 2
  | sent => 3
  | applied => 4
  | _ => 5

/-- which phases a terminal outcome may follow -/
def ends : Phase → Option (List Phase)
  | rejected => some [requested, admitted]
  | superseded => some [admitted]
  | expired => some [admitted]
  | cancelled => some [admitted, selected, sent, applied]
  | faulted => some [selected, sent, applied]
  | completed => some [applied]
  | _ => none

@[simp] def terminal (p : Phase) : Bool := p.ends.isSome

/-- the executor samples it, or a command derived from it has left -/
@[simp] def begun : Phase → Bool
  | selected | sent | applied => true
  | _ => false

end Phase

/-- how the RT's drop was confirmed -/
inductive DropProof where
  | ack
  | refused
  | undispatched
  | unconfirmed
  | rtEpoch
  | rtDisarmed
  | rtObserved
  deriving DecidableEq, Inhabited

inductive Evidence where
  | payloadRevision (n : ℕ)
  | supersededBy (e : ExecutionId)
  | referenceId (n : ℕ)
  | referenceRevision (n : ℕ)
  | referencePhase (t : ℚ)
  | armEpoch (n : ℕ)
  | commandSeq (n : ℕ)
  | dropConfirmed (how : DropProof)
  deriving DecidableEq, Inhabited

def evidenceKeys : ℕ := 16

structure Receipt where
  executionId : ExecutionId
  requestId : String
  instanceId : String
  phase : Phase
  at_ : Stamp
  reason : String
  evidence : List Evidence
  deriving DecidableEq, Inhabited

/-- what `Receipt` and `ExecutionStatus.apply` raise -/
inductive LedgerError where
  | tooMuchEvidence
  | badBeginning (phase : Phase)
  | anotherExecution
  /-- a failed receipt without a reason -/
  | noReason (phase : Phase)
  | already (phase : Phase)
  | cannotFollow (next phase : Phase)
  deriving DecidableEq, Inhabited

/-- `Receipt.__post_init__`; the identifiers were checked when the request and the id were made -/
def Receipt.check (r : Receipt) : Except LedgerError Unit :=
  if evidenceKeys < r.evidence.length then .error .tooMuchEvidence
  else if r.phase.terminal ∧ r.phase ≠ .completed ∧ r.reason = "" then .error (.noReason r.phase)
  else .ok ()

structure ExecutionStatus where
  executionId : ExecutionId
  requestId : String
  instanceId : String
  phase : Phase
  reached : List (Phase × Stamp)
  reason : String := ""
  deriving DecidableEq, Inhabited

namespace ExecutionStatus

@[simp] def terminal (s : ExecutionStatus) : Bool := s.phase.terminal

/-- the phase was reported before -/
def has (s : ExecutionStatus) (p : Phase) : Bool := s.reached.any (·.1 == p)

def start (r : Receipt) : Except LedgerError ExecutionStatus :=
  if r.phase ≠ .requested ∧ r.phase ≠ .admitted ∧ r.phase ≠ .rejected then .error (.badBeginning r.phase)
  else .ok
    { executionId := r.executionId, requestId := r.requestId, instanceId := r.instanceId
      phase := r.phase, reached := [(r.phase, r.at_)], reason := r.reason }

/-- the receipt is about this execution -/
def owns (s : ExecutionStatus) (r : Receipt) : Bool :=
  r.executionId == s.executionId && r.requestId == s.requestId && r.instanceId == s.instanceId

/-- the fold of one receipt; a phase already reached is a redelivery -/
def apply (s : ExecutionStatus) (r : Receipt) : Except LedgerError ExecutionStatus :=
  if s.owns r = false then .error .anotherExecution
  else if s.has r.phase then .ok s
  else if s.terminal then .error (.already s.phase)
  else
    let next : ExecutionStatus :=
      { s with phase := r.phase, reason := r.reason, reached := s.reached ++ [(r.phase, r.at_)] }
    match r.phase.ends with
    | some allowed => if s.phase ∉ allowed then .error (.cannotFollow r.phase s.phase) else .ok next
    | none =>
      if r.phase.chain ≤ s.phase.chain then .error (.cannotFollow r.phase s.phase) else .ok next

/-- the status of an execution, from its receipts -/
def fold : List Receipt → Except LedgerError (Option ExecutionStatus)
  | [] => .ok none
  | r :: rs => do
    let s ← start r
    return some (← rs.foldlM apply s)

end ExecutionStatus

/-- whether a request may be admitted next to the live execution -/
def supersessionRefusal (r : TrajectoryRequest) (current : Option ExecutionStatus) : String :=
  match r.supersedes, current with
  | some old, none => toString old ++ " is not this robot's pending execution"
  | some old, some c =>
    if c.terminal ∨ c.executionId ≠ old then toString old ++ " is not this robot's pending execution"
    else if c.phase ≠ .admitted then
      toString c.executionId ++ " is " ++ c.phase.value ++ "; only admitted is replaceable"
    else ""
  | none, none => ""
  | none, some c =>
    if c.terminal then ""
    else toString c.executionId ++ " is " ++ c.phase.value ++ "; " ++
      if c.phase = .admitted then "name it in supersedes to replace it" else "cancel it first"

end ArmControl.Execution
