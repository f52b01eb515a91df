import ArmControl.Lib.Stepwise
import ArmControl.Supervisor.AppliedEvidence

/-!
# The ledger's steps (`RobotRuntime` in `supervisor/runtime.py`)

* `Step`      all that ever happens to the ledger: a receipt, a new execution, a mark on one, pruning; and what lies beside it;
* `Call α`    a call on the loop thread: it only makes such steps, whether it returns or raises;
* `beside`, `mark`, `markStream`, `remark`, `receipt`, `enter`, `prunes`   the steps as calls.

`beside` and `mark` take a change of the whole record, and put back what such a step cannot touch.
-/

namespace ArmControl.Supervisor.RobotRuntime
open ArmControl.Execution ArmControl.Control ArmControl.RemoteRt
open Effect

/-- a new execution, REQUESTED -/
def create (s : RobotRuntime) (request : TrajectoryRequest) (stream : Option Stream) (now : ℕ) : Except LedgerError RobotRuntime :=
  let r : Receipt :=
    { executionId := s.ids, requestId := request.requestId, instanceId := s.cfg.instanceId
      phase := .requested, at_ := { ns := now, domain := s.cfg.domain }, reason := "", evidence := [] }
  match ExecutionStatus.start r with
  | .error err => .error err
  | .ok status =>
    .ok ((({ s with
      executions := Function.update s.executions s.ids
        (some { request := request, stream := stream, payloadRevision := s.payloadRevision, status := status, receipts := [r] })
      ids := s.ids + 1 } : RobotRuntime).note (.created s.ids)).note (.receipt r))

/-- a planned execution is found by its request id -/
def file (s : RobotRuntime) (requestId : String) (e : ExecutionId) : RobotRuntime :=
  { s with byRequest := Function.update s.byRequest requestId (some e) }

/-! ## steps -/

/-- the ledger is the same -/
structure Beside (s t : RobotRuntime) : Prop where
  executions : t.executions = s.executions
  byRequest : t.byRequest = s.byRequest
  ids : t.ids = s.ids
  log : t.log = s.log
  cfg : t.cfg = s.cfg

/-- the request, the kind, the status and the receipts of the execution are the same -/
structure Edit (f : Execution → Execution) : Prop where
  request : ∀ ex, (f ex).request = ex.request
  stream : ∀ ex, (f ex).stream.isSome = ex.stream.isSome
  status : ∀ ex, (f ex).status = ex.status
  receipts : ∀ ex, (f ex).receipts = ex.receipts

/-- neither a receipt nor a creation -/
def Remark : Obs → Prop
  | .receipt _ => False
  | .created _ => False
  | _ => True

inductive Step (s : RobotRuntime) : RobotRuntime → Prop where
  | beside {t : RobotRuntime} (h : Beside s t) : Step s t
  | edited (e : ExecutionId) {f : Execution → Execution} (h : Edit f) : Step s (s.updateExecution e f)
  | remarked {o : Obs} (h : Remark o) : Step s (s.note o)
  | written {t : RobotRuntime} {e : ExecutionId} {phase : Phase} {reason : String} {evidence : List Evidence} {at_ : ℕ}
      (h : s.write e phase reason evidence at_ = .ok t) : Step s t
  | submitted {t : RobotRuntime} {request : TrajectoryRequest} {now : ℕ} (h : s.create request none now = .ok t) :
      Step s (t.file request.requestId s.ids)
  | opened {t : RobotRuntime} {o : StreamOpen} {st : Stream} {now : ℕ} (h : s.create o.asRequest (some st) now = .ok t) : Step s t
  | pruned : Step s s.prune

/-- a call on the loop thread -/
abbrev Call (α : Type) : Type := Stepwise Step Failure α

/-! ## calls of one step -/

/-- a change beside the ledger -/
def beside (f : RobotRuntime → RobotRuntime) : Call Unit :=
  .change (fun s => { f s with executions := s.executions, byRequest := s.byRequest, ids := s.ids, log := s.log, cfg := s.cfg })
    fun _ => .beside ⟨rfl, rfl, rfl, rfl, rfl⟩

/-- `f`, on what is no part of the ledger -/
def marked (f : Execution → Execution) (ex : Execution) : Execution :=
  { f ex with request := ex.request, stream := ex.stream, status := ex.status, receipts := ex.receipts }

theorem edit_marked (f : Execution → Execution) : Edit (marked f) := ⟨fun _ => rfl, fun _ => rfl, fun _ => rfl, fun _ => rfl⟩

def mark (e : ExecutionId) (f : Execution → Execution) : Call Unit :=
  .change (fun s => s.updateExecution e (marked f)) fun _ => .edited e (edit_marked f)

theorem edit_stream (f : Stream → Stream) : Edit fun ex => { ex with stream := ex.stream.map f } :=
  ⟨fun _ => rfl, fun _ => Option.isSome_map, fun _ => rfl, fun _ => rfl⟩

def markStream (e : ExecutionId) (f : Stream → Stream) : Call Unit :=
  .change (fun s => s.updateStream e f) fun _ => .edited e (edit_stream f)

def remark (o : Obs) (h : Remark o) : Call Unit := .change (fun s => s.note o) fun _ => .remarked h

theorem beside_ask (s : RobotRuntime) : Beside s { s with reads := s.reads + 1 } := ⟨rfl, rfl, rfl, rfl, rfl⟩

theorem keeps_ask {I : RobotRuntime → Prop} (hI : ∀ s t, Step s t → I s → I t) : Keeps I Supervisor.ask :=
  fun s hs => hI _ _ (.beside (beside_ask s)) hs

def ask : Call Answer := ⟨Supervisor.ask, Stepwise.steps_of_keeps fun _ hI => keeps_ask hI⟩

theorem keeps_receipt {I : RobotRuntime → Prop} (hI : ∀ s t, Step s t → I s → I t) (e : ExecutionId) (phase : Phase)
    (reason : String) (evidence : List Evidence) : Keeps I (Supervisor.receipt e phase reason evidence) := by
  unfold Supervisor.receipt
  refine (keeps_ask hI).bind fun a => keeps_get fun s hs => ?_
  cases hw : s.write e phase reason evidence a.now with
  | ok t => exact hI _ _ (.written hw) hs
  | error err =>
    exact Keeps.bind (keeps_modify fun s hs => hI _ _ (.remarked (o := .illegal e phase err) trivial) hs) (fun _ => keeps_throw _) s hs

def receipt (e : ExecutionId) (phase : Phase) (reason : String) (evidence : List Evidence) : Call Unit :=
  ⟨Supervisor.receipt e phase reason evidence, Stepwise.steps_of_keeps fun _ hI => keeps_receipt hI e phase reason evidence⟩

theorem keeps_appliedRule {I : RobotRuntime → Prop} (hI : ∀ s t, Step s t → I s → I t) (e : ExecutionId) :
    Keeps I (Supervisor.appliedRule e) := by
  unfold Supervisor.appliedRule
  refine keeps_get fun s hs => ?_
  cases s.executions e with
  | none => exact hs
  | some ex =>
    refine Keeps.ite (keeps_receipt hI _ _ _ _) (Keeps.ite ?_ (keeps_pure _)) s hs
    cases s.tracker.confirmed ex.epoch with
    | none => exact keeps_pure _
    | some confirmed =>
      cases ex.firstSeq with
      | none => exact keeps_throw _
      | some first => exact Keeps.ite (keeps_receipt hI _ _ _ _) (keeps_pure _)

theorem keeps_appliedRules {I : RobotRuntime → Prop} (hI : ∀ s t, Step s t → I s → I t) : Keeps I Supervisor.appliedRules :=
  keeps_get fun s hs => Keeps.each (fun e => keeps_appliedRule hI e) s hs

def appliedRules : Call Unit := ⟨Supervisor.appliedRules, Stepwise.steps_of_keeps fun _ hI => keeps_appliedRules hI⟩

/-- a new planned execution, under its request id -/
def submitting (request : TrajectoryRequest) (now : ℕ) (s : RobotRuntime) : Except Failure { t // Step s t } :=
  match h : s.create request none now with
  | .error err => .error (.ledger err)
  | .ok t => .ok ⟨t.file request.requestId s.ids, .submitted h⟩

/-- a new execution of a stream -/
def opening (o : StreamOpen) (st : Stream) (now : ℕ) (s : RobotRuntime) : Except Failure { t // Step s t } :=
  match h : s.create o.asRequest (some st) now with
  | .error err => .error (.ledger err)
  | .ok t => .ok ⟨t, .opened h⟩

def prunes : Call Unit := .change prune fun _ => .pruned

def refuse (text : String) : Call Unit := throw (.refused text)

end ArmControl.Supervisor.RobotRuntime
