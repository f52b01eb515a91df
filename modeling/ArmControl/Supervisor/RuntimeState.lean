import ArmControl.Control.ArmController
import ArmControl.Lib.Effect
import ArmControl.RemoteRt.Horizon

/-!
# The state of one robot behind the supervisor (`supervisor/runtime.py`)

* `Execution`, `Stream`, `Attempt`   the ledger's records;
* `Answer`, `ask`    what the code reads from outside (clocks, the link, checks on numbers): each call
                     takes the next answer;
* `Obs`              what happened, for the log;
* `RobotRuntime`     the fields, `Act` a call on the loop thread;
* `receipt`          the one place that moves an execution.

Left out: the trace, the fault recorder, the scene lease and the controller's mode report.
-/

namespace ArmControl.Supervisor
open ArmControl.Execution ArmControl.Control ArmControl.RemoteRt

/-! ## streams (`execution/stream.py`) -/

structure StreamPolicy where
  streamPolicyId : String := ""
  minCommitLeadS : ℚ := 0
  maxCandidateAgeNs : ℕ := 0
  deriving DecidableEq, Inhabited

structure StreamFacts where
  modelToken : String := ""
  sceneToken : String := ""
  policy : StreamPolicy := {}
  deriving DecidableEq, Inhabited

inductive SelectionState where
  | notRequested
  | pending
  | selected
  | refused
  deriving DecidableEq, Inhabited

structure StreamOpen where
  requestId : String
  openSeq : ℕ
  instanceId : String
  jointNames : List String
  modelToken : String
  sceneToken : String
  streamPolicyId : String
  initial : JointTrajectory
  start : Start := .onAdmit
  admitBy : Option Stamp := none
  deriving DecidableEq, Inhabited

def StreamOpen.asRequest (o : StreamOpen) : TrajectoryRequest where
  requestId := o.requestId
  instanceId := o.instanceId
  jointNames := o.jointNames
  trajectory := o.initial
  modelToken := some o.modelToken
  start := o.start
  admitBy := o.admitBy

structure StreamRevision where
  requestId : String
  executionId : ExecutionId
  proposalSeq : ℕ
  expectedRevision : ℕ
  anchorId : ℕ
  sceneToken : String
  suffix : JointTrajectory
  terminal : Bool := false
  admitBy : Option Stamp := none
  deriving DecidableEq, Inhabited

inductive StreamRequest where
  | opening (o : StreamOpen)
  | revision (r : StreamRevision)
  deriving DecidableEq, Inhabited

namespace StreamRequest

def requestId : StreamRequest → String
  | opening o => o.requestId
  | revision r => r.requestId

def admitBy : StreamRequest → Option Stamp
  | opening o => o.admitBy
  | revision r => r.admitBy

def isOpen : StreamRequest → Bool
  | opening _ => true
  | revision _ => false

/-- a revision names another scene -/
def strayScene (q : StreamRequest) (scene : String) : Bool :=
  match q with
  | opening _ => false
  | revision r => r.sceneToken != scene

end StreamRequest

structure SpliceAnchor where
  anchorId : ℕ
  expectedRevision : ℕ
  cutPhase : ℚ
  expiresNs : ℕ
  deriving DecidableEq, Inhabited

/-- a revision attempt and its status; its key is the owner and the request id -/
structure Attempt where
  owner : String
  request : StreamRequest
  executionId : ExecutionId
  expectedRevision : Option ℕ
  revision : ℕ
  phase : Phase := .requested
  selectionState : SelectionState := .notRequested
  reason : String := ""
  curve : JointTrajectory
  facts : StreamFacts
  deadlineNs : ℕ
  cut : ℚ := 0
  terminal : Bool := false
  sentSeq : Option ℕ := none
  uploadStarted : Bool := false
  deriving DecidableEq, Inhabited

structure Stream where
  owner : String
  opened : StreamOpen
  facts : StreamFacts
  epoch : String × ℕ × ℕ
  payloadRevision : ℕ
  anchor : Option SpliceAnchor := none
  pending : Option String := none
  selected : Option String := none
  deriving DecidableEq, Inhabited

/-- a cancel that waits for the RT's confirmation -/
structure Drop where
  reason : String
  refId : ℕ
  session : ℕ
  epoch : ℕ
  deriving DecidableEq, Inhabited

structure Execution where
  request : TrajectoryRequest
  stream : Option Stream := none
  payloadRevision : ℕ
  status : ExecutionStatus
  receipts : List Receipt := []
  firstSeq : Option ℕ := none
  epoch : ℕ := 0
  cancelReason : Option String := none
  drop : Option Drop := none
  completedAt : Option ℕ := none
  deriving DecidableEq, Inhabited

def Execution.live (ex : Execution) : Bool := !ex.status.terminal

def Execution.phase (ex : Execution) : Phase := ex.status.phase

/-! ## acceptance evidence (`plants/remote_rt/observation.py`) -/

/-- 32-bit serial comparison: `a` comes after `b` -/
def newer (a b : ℕ) : Bool :=
  let d := (a + 2 ^ 32 - b % 2 ^ 32) % 2 ^ 32
  decide (0 < d) && decide (d < 2 ^ 31)

structure AppliedTracker where
  epoch : Option ℕ := none
  last : Option ℕ := none
  candidate : Option ℕ := none
  confirmed_ : Option ℕ := none
  closed : Bool := false
  faulted : Bool := false
  deriving DecidableEq, Inhabited

namespace AppliedTracker

def feed (t : AppliedTracker) (st : RtState) : AppliedTracker :=
  let fresh := t.epoch.all fun e => newer st.armEpoch e
  if !fresh && t.epoch != some st.armEpoch then t  -- a delayed packet of an older generation
  else
    let t : AppliedTracker := if fresh then { epoch := some st.armEpoch } else t
    if t.last.any fun l => !newer st.stateSeq l then t
    else
      let t := { t with last := some st.stateSeq, faulted := t.faulted || st.faulted }
      if t.closed then t
      else if !st.armed || st.faulted then { t with closed := true, candidate := none }
      else
        { t with
          confirmed_ := if t.candidate.isSome then t.candidate else t.confirmed_
          candidate := some st.lastCmdSeq }

def disarmSent (t : AppliedTracker) : AppliedTracker := { t with closed := true, candidate := none }

def confirmed (t : AppliedTracker) (epoch : ℕ) : Option ℕ :=
  if t.epoch = some epoch then t.confirmed_ else none

def faultSeen (t : AppliedTracker) (epoch : ℕ) : Bool := t.faulted && t.epoch == some epoch

end AppliedTracker

/-! ## the world -/

inductive Validity where
  | valid
  | stale
  | missing
  | invalid
  deriving DecidableEq, Inhabited

/-- what one question to the outside is answered; `""` is a check that passes -/
structure Answer where
  now : ℕ := 0
  session : ℕ := 0
  armEpoch : ℕ := 0
  facts : StreamFacts := {}
  /-- the stream's gains are the executor's -/
  gainsKept : Bool := true
  /-- a check on numbers -/
  check : String := ""
  flag : Bool := false
  reading : Reading := {}
  /-- the sequence of the packet that left -/
  seq : Option ℕ := some 0
  latest : Option RtState := none
  validity : Validity := .valid
  /-- the robot's authority as its newest fresh state shows it -/
  authority : Option Authority := some {}
  curve : JointTrajectory := default
  cut : ℚ := 0
  /-- how the worker's job ended -/
  job : JobResult := .done false
  retire : RetireReply := {}
  deriving DecidableEq, Inhabited

inductive Failure where
  | refused (text : String)
  | ledger (e : LedgerError)
  | value (text : String)
  | link (text : String)
  deriving DecidableEq, Inhabited

/-- what happened, in the order in which it happened -/
inductive Obs where
  | created (e : ExecutionId)
  | receipt (r : Receipt)
  /-- a `_receipt` that raised -/
  | illegal (e : ExecutionId) (phase : Phase) (err : LedgerError)
  | dropping (e : ExecutionId) (d : Drop)
  /-- the worker's commit of this reference was refused, or not dispatched -/
  | commitRefused (key : Option ExecutionId) (id : ℕ)
  | undispatched (key : Option ExecutionId) (id : ℕ)
  | retired (key : Option ExecutionId) (id : ℕ) (how : Retired)
  /-- a packet that the horizon looked at, or the tracker was fed -/
  | packet (st : RtState)
  deriving DecidableEq, Inhabited

/-! ## the runtime -/

structure Config where
  instanceId : String := "arm"
  domain : String := "pc"
  identity : RobotIdentity := { instanceId := "arm", jointNames := [] }
  capabilities : Capabilities := { profiles := ["joint_impedance"] }
  modelToken : Option String := none
  /-- the native reference was negotiated -/
  native : Bool := false
  streamAdmission : Bool := false
  groupCapable : Bool := false
  appliedGraceNs : ℕ := 500000000
  ackTimeoutNs : ℕ := 500000000
  groupMaxBudgetNs : ℕ := 10000000000
  /-- preset ids, and whether the preset is a pose hold -/
  presets : List (String × Bool) := []
  deriving DecidableEq, Inhabited

structure JoinedGroup where
  groupId : ℕ
  memberIndex : ℕ
  memberCount : ℕ
  armEpoch : ℕ
  deriving DecidableEq, Inhabited

/-- an authority RPC on its worker -/
structure AuthorityCall where
  want : Bool
  gen : ℕ
  cancelled : Bool := false
  deriving DecidableEq, Inhabited

structure RobotRuntime where
  cfg : Config := {}
  controller : ArmController := {}
  native : Horizon := {}
  nativePending : Option ExecutionId := none
  nativeEpoch : ℕ := 0
  nativeFailed : Bool := false
  group : Option JoinedGroup := none
  groupRelease : List (ExecutionId × GroupShare) := []
  groupReports : List (ExecutionId × GroupReply) := []
  groupCancelling : ℕ := 0
  groupHoldGrace : ℕ := 0
  payloadRevision : ℕ := 0
  payloadMass : ℚ := 0
  loadModelRevision : ℤ := -1
  executions : ExecutionId → Option Execution := fun _ => none
  byRequest : String → Option ExecutionId := fun _ => none
  /-- the next number of `_ids` -/
  ids : ExecutionId := 1
  /-- the admission worker's job, with the refusal that was found before it was queued -/
  streamJob : Option (ExecutionId × String × String) := none
  streamMarks : String → ℕ × ℕ := fun _ => (0, 0)
  streamAttempts : List Attempt := []
  owner : Option String := none
  closedSessions : List String := []
  tracker : AppliedTracker := {}
  pending : List AuthorityCall := []
  authorityGen : ℕ := 0
  authorityDone : ℕ := 0
  /-- the last call that failed, and why -/
  authorityFailed : ℕ × String := (0, "")
  authorityFault : String := ""
  validity : Validity := .missing
  authority : Authority := {}
  world : ℕ → Answer := fun _ => {}
  reads : ℕ := 0
  log : List Obs := []

/-- a call on the loop thread -/
abbrev Act (α : Type) : Type := EStateM Failure RobotRuntime α

/-- `RETAINED` -/
def retained : ℕ := 512

namespace RobotRuntime

def note (s : RobotRuntime) (o : Obs) : RobotRuntime := { s with log := s.log ++ [o] }

def updateExecution (s : RobotRuntime) (e : ExecutionId) (f : Execution → Execution) : RobotRuntime :=
  { s with executions := Function.update s.executions e ((s.executions e).map f) }

def updateStream (s : RobotRuntime) (e : ExecutionId) (f : Stream → Stream) : RobotRuntime :=
  s.updateExecution e fun ex => { ex with stream := ex.stream.map f }

/-- the keys of `_executions`, oldest first -/
def known (s : RobotRuntime) : List ExecutionId :=
  (List.range s.ids).filter fun e => (s.executions e).isSome

def isLive (s : RobotRuntime) (e : ExecutionId) : Bool := (s.executions e).any Execution.live

/-- the robot's live execution, if any -/
def current (s : RobotRuntime) : Option ExecutionStatus :=
  ((s.known.filter s.isLive).getLast?.bind s.executions).map Execution.status

/-! ### attempts -/

def attempt (s : RobotRuntime) (owner requestId : String) : Option Attempt :=
  s.streamAttempts.find? fun a => a.owner == owner && a.request.requestId == requestId

/-- `_stream_attempts.get((owner, rid))`, `rid` possibly `None` -/
def attemptAt (s : RobotRuntime) (owner : String) (requestId : Option String) : Option Attempt :=
  requestId.bind (s.attempt owner)

def updateAttempt (s : RobotRuntime) (owner requestId : String) (f : Attempt → Attempt) : RobotRuntime :=
  { s with
    streamAttempts := s.streamAttempts.map fun a =>
      if a.owner = owner ∧ a.request.requestId = requestId then f a else a }

/-- `_settle_stream_attempts` -/
def settleStreamAttempts (s : RobotRuntime) (e : ExecutionId) (owner reason : String) : RobotRuntime :=
  { s with
    streamAttempts := s.streamAttempts.map fun a =>
      if a.owner = owner ∧ a.executionId = e then
        { a with phase := if a.phase = .requested then .rejected else .cancelled, reason := reason }
      else a }

/-! ### the ledger -/

/-- `_receipt`, at the stamp `at_` -/
def write (s : RobotRuntime) (e : ExecutionId) (phase : Phase) (reason : String) (evidence : List Evidence)
    (at_ : ℕ) : Except LedgerError RobotRuntime :=
  match s.executions e with
  | none => .ok s
  | some ex =>
    let evidence := if phase = .admitted then evidence ++ [.payloadRevision ex.payloadRevision] else evidence
    let r : Receipt :=
      { executionId := ex.status.executionId, requestId := ex.status.requestId
        instanceId := s.cfg.instanceId, phase := phase, at_ := { ns := at_, domain := s.cfg.domain }
        reason := reason, evidence := evidence }
    match r.check with
    | .error err => .error err
    | .ok () =>
      match ex.status.apply r with
      | .error err => .error err
      | .ok status =>
        .ok ((s.updateExecution e fun ex =>
          { ex with
            status := status, receipts := ex.receipts ++ [r]
            drop := if phase.terminal then none else ex.drop }).note (.receipt r))

/-! ### pruning -/

def records (s : RobotRuntime) : ℕ := s.known.length + s.streamAttempts.length

def excess (s : RobotRuntime) : Bool := decide (retained < s.records)

/-- the attempt is the pending, the selected or the opening one of a live stream -/
def protects (s : RobotRuntime) (a : Attempt) : Bool :=
  s.known.any fun e =>
    (s.executions e).any fun ex =>
      ex.live && ex.stream.any fun st =>
        st.owner == a.owner &&
          (st.pending == some a.request.requestId || st.selected == some a.request.requestId ||
            ex.request.requestId == a.request.requestId)

def popAttempt (s : RobotRuntime) (a : Attempt) : RobotRuntime :=
  { s with
    streamAttempts := s.streamAttempts.filter fun b =>
      !(b.owner == a.owner && b.request.requestId == a.request.requestId) }

/-- the first pass: settled attempts that no live stream needs -/
def pruneAttempts (s : RobotRuntime) : RobotRuntime :=
  s.streamAttempts.foldl (fun t a =>
    if t.excess && !s.protects a && a.phase != .requested then t.popAttempt a else t) s

def popExecution (s : RobotRuntime) (e : ExecutionId) (requestId : String) : RobotRuntime :=
  { s with
    executions := Function.update s.executions e none
    byRequest := Function.update s.byRequest requestId none
    streamAttempts := s.streamAttempts.filter fun a => a.executionId != e }

def pruneExecution (s : RobotRuntime) (e : ExecutionId) : RobotRuntime :=
  match s.executions e with
  | some ex => if s.excess && !ex.live then s.popExecution e ex.request.requestId else s
  | none => s

/-- one bounded history budget across executions and stream attempts -/
def prune (s : RobotRuntime) : RobotRuntime :=
  let s := s.pruneAttempts
  s.known.foldl pruneExecution s

end RobotRuntime

/-! ## asking and writing -/

def ask : Act Answer := do
  let s ← get
  set { s with reads := s.reads + 1 }
  return s.world s.reads

theorem ends_ask {Q : Answer → RobotRuntime → Prop} {E : Failure → RobotRuntime → Prop} {s : RobotRuntime} :
    Effect.Ends Q E ask s ↔ Q (s.world s.reads) { s with reads := s.reads + 1 } := Iff.rfl

def note (o : Obs) : Act Unit := modify fun s => s.note o

def refuse (text : String) : Act Unit := throw (.refused text)

def receipt (e : ExecutionId) (phase : Phase) (reason : String) (evidence : List Evidence) : Act Unit := do
  let a ← ask
  let s ← get
  match s.write e phase reason evidence a.now with
  | .ok t => set t
  | .error err => do
    note (.illegal e phase err)
    throw (.ledger err)

end ArmControl.Supervisor
