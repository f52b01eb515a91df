import ArmControl.Execution.Values
import ArmControl.Lib.Effect
import ArmControl.Lib.Vectors

/-!
# What the clients of a stream share (`clients/common.py`)

The supervisor is a world `σ` that nothing is known about: each call of the arm is a program over it that answers or
raises.

* `CallError`, `Arm`    what a call raises, and the calls;
* `Link`                the world, the process-wide counters and the log of a client;
* `StreamSession`       one stream, with `openSession`, `revise`, `close`;
* `Report`, `classify`, `noteOutcome`.
-/

namespace ArmControl.Clients

open Execution.Values

/-- what a call of the supervisor raises; a reply that does not fit the contract is a `SupervisorError` -/
inductive CallError where
  | refused (text : String)
  /-- any other `SupervisorError` -/
  | supervisor (text : String)
  | timeout (text : String)
  | os (text : String)
  deriving DecidableEq

def CallError.text : CallError → String
  | refused t | supervisor t | timeout t | os t => t

inductive Failure where
  | call (e : CallError)
  | value (text : String)
  | needsOperator (text : String)
  | other (text : String)
  deriving DecidableEq

structure Arm (σ : Type) where
  now : EStateM CallError σ (Checked Stamp)
  state : EStateM CallError σ (Checked RobotState)
  openStream : Checked StreamOpen → EStateM CallError σ StreamView
  streamState : String → EStateM CallError σ StreamView
  streamAnchor : String → EStateM CallError σ (Checked SpliceAnchor)
  reviseStream : Checked StreamRevision → EStateM CallError σ RevisionStatus
  streamRevision : String → String → EStateM CallError σ RevisionStatus
  cancel : String → String → EStateM CallError σ PUnit
  controllerState : EStateM CallError σ ControllerState
  /-- the supervisor advertises `controller/1` -/
  controller : Bool

structure StreamContext where
  instanceId : String
  joints : List String
  modelToken : String
  sceneToken : String
  streamPolicyId : String

/-- the world, the next numbers of this process, and what the client did -/
structure Link (σ ε : Type) where
  world : σ
  nextOpen : ℕ := 1
  nextProposal : ℕ := 1
  nextRequest : ℕ := 1
  log : List ε := []

abbrev Act (σ ε α : Type) := EStateM Failure (Link σ ε) α

namespace Link

variable {σ ε : Type} (l : Link σ ε)

def setWorld (w : σ) : Link σ ε := { l with world := w }
def add (e : ε) : Link σ ε := { l with log := l.log ++ [e] }
def drawOpen : Link σ ε := { l with nextOpen := l.nextOpen + 1 }
def drawProposal : Link σ ε := { l with nextProposal := l.nextProposal + 1 }
def drawRequest : Link σ ε := { l with nextRequest := l.nextRequest + 1 }

end Link

section
variable {σ ε α : Type}

/-- a call, which the world answers -/
def call (m : EStateM CallError σ α) : Act σ ε α := fun l =>
  match m l.world with
  | .ok a w => .ok a (l.setWorld w)
  | .error e w => .error (.call e) (l.setWorld w)

/-- what a call answers or raises -/
def attempt (m : EStateM CallError σ α) : Act σ ε (Except CallError α) := fun l =>
  match m l.world with
  | .ok a w => .ok (.ok a) (l.setWorld w)
  | .error e w => .ok (.error e) (l.setWorld w)

def note (e : ε) : Act σ ε PUnit := modify fun l => l.add e

/-- a constructor of the contract -/
def make [Checks α] (a : α) : Act σ ε (Checked α) :=
  match construct a with
  | .ok v => pure v
  | .error text => throw (.value text)

/-- `request_id` -/
def requestId (pre : String) : Act σ ε String := do
  let l ← get
  set l.drawRequest
  pure (pre ++ "." ++ toString l.nextRequest)

end

/-! ## a stream -/

/-- `serial` is the open number that its request was made with -/
structure StreamSession where
  executionId : String
  serial : ℕ
  closed : Bool := false
  lastError : Option String := none

section
variable {σ ε : Type} (arm : Arm σ) (ctx : StreamContext)

/-- at rest where the arm is -/
def holdCurve (q : List ℚ) (holdS : ℚ) : Execution.JointTrajectory where
  times := [0, holdS / 2, holdS]
  positions := [q, q, q]
  velocities := some [q.map fun _ => 0, q.map fun _ => 0, q.map fun _ => 0]

def openRequest (openSeq : ℕ) (curve : Checked Execution.JointTrajectory) : StreamOpen where
  requestId := "open-" ++ toString openSeq
  openSeq := openSeq
  instanceId := ctx.instanceId
  jointNames := ctx.joints
  modelToken := ctx.modelToken
  sceneToken := ctx.sceneToken
  streamPolicyId := ctx.streamPolicyId
  initial := curve
  start := .onAdmit
  admitBy := none

/-- `StreamSession(arm, ctx, hold_s)` -/
def openSession (holdS : ℚ) : Act σ ε StreamSession :=
  if holdS ≤ 0 then throw (.value "hold_s must be positive")
  else do
    let state ← call arm.state
    match state.val.q with
    | none => throw (.other "len() of unsized object")
    | some q => do
      let curve ← make (holdCurve q holdS)
      let l ← get
      set l.drawOpen
      let request ← make (openRequest ctx l.nextOpen curve)
      let view ← call (arm.openStream request)
      pure { executionId := view.execution.executionId, serial := l.nextOpen }

/-- `MAX_KNOTS` -/
def maxKnots : ℕ := 127

/-- the velocities of a suffix: central differences, at rest at its end -/
def knotVelocities (qd : List ℚ) (knots : List (List ℚ)) (dt : ℚ) : List (List ℚ) :=
  (List.range knots.length).map fun i =>
    if i = 0 then qd
    else if i + 1 = knots.length then (knots.getD i []).map fun _ => 0
    else (knots.getD (i + 1) []).zipWith (fun b a => (b - a) / (2 * dt)) (knots.getD (i - 1) [])

/-- the knots behind the anchor, `dt` apart -/
def suffix (anchor : SpliceAnchor) (q : List (List ℚ)) (dt : ℚ) : Execution.JointTrajectory where
  times := (List.range (q.length + 1)).map fun i => anchor.cutPhase + dt * i
  positions := anchor.q :: q
  velocities := some (knotVelocities anchor.qd (anchor.q :: q) dt)

/-- the finite rows of a matrix -/
def finiteRows : List (List Value) → Option (List (List ℚ))
  | [] => some []
  | r :: rest => do
    let q ← Vec.finites r
    let qs ← finiteRows rest
    some (q :: qs)

/-- send the suffix `q` from `anchor` -/
def sendSuffix (say : StreamRevision → ε) (s : StreamSession) (rid : String) (anchor : SpliceAnchor) (q : List (List ℚ))
    (dt : ℚ) (terminal : Bool) : Act σ ε RevisionStatus := do
  let l ← get
  set l.drawProposal
  let curve ← make (suffix anchor q dt)
  let revision ← make
    { requestId := rid, executionId := s.executionId, proposalSeq := l.nextProposal
      expectedRevision := anchor.expectedRevision, anchorId := anchor.anchorId, sceneToken := ctx.sceneToken
      suffix := curve, terminal := terminal, admitBy := none : StreamRevision }
  note (say revision.val)
  call (arm.reviseStream revision)

/-- splice `knots` from the supervisor's anchor, `dt` seconds apart -/
def revise (say : StreamRevision → ε) (s : StreamSession) (rid : String) (knots : List (List Value)) (dt : Value)
    (terminal : Bool) : Act σ ε RevisionStatus :=
  match finiteRows knots with
  | none => throw (.value "chunk needs 1..127 finite knots and dt > 0")
  | some q =>
    if ¬ (1 ≤ q.length ∧ q.length ≤ maxKnots) ∨ (Value.fin 0).lt dt = false then
      throw (.value "chunk needs 1..127 finite knots and dt > 0")
    else do
      let anchor ← call (arm.streamAnchor s.executionId)
      if q.any fun r => decide (r.length ≠ anchor.val.q.length) then
        throw (.value "all the input array dimensions except for the concatenation axis must match exactly")
      else
        match dt.rat? with
        | none => throw (.value "stream curve must be finite")
        | some h => sendSuffix arm ctx say s rid anchor.val q h terminal

/-- cancel the stream; the session stays open when that is not confirmed -/
def close (closing : ε) (s : StreamSession) (reason : String) : Act σ ε (Bool × StreamSession) :=
  if s.closed then pure (true, s)
  else do
    note closing
    let r ← attempt (arm.cancel s.executionId reason)
    match r with
    | .ok _ => pure (true, { s with closed := true })
    | .error e => pure (false, { s with lastError := some e.text })

end

/-! ## what they log -/

section
open Effect
variable {σ ε α : Type} {arm : Arm σ} {ctx : StreamContext} {l : Link σ ε} {Q : α → Link σ ε → Prop}
  {E : Failure → Link σ ε → Prop}

theorem ends_call {m : EStateM CallError σ α} :
    Ends Q E (call m) l ↔ Ends (fun a w => Q a (l.setWorld w)) (fun e w => E (.call e) (l.setWorld w)) m l.world := by
  unfold call Ends
  beta_reduce
  cases m l.world <;> exact Iff.rfl

theorem ends_attempt {m : EStateM CallError σ α} {Q : Except CallError α → Link σ ε → Prop} :
    Ends Q E (attempt m) l ↔ Ends (fun a w => Q (.ok a) (l.setWorld w)) (fun e w => Q (.error e) (l.setWorld w)) m l.world := by
  unfold attempt Ends
  beta_reduce
  cases m l.world <;> exact Iff.rfl

/-- whatever the world answers -/
theorem ends_call_of {m : EStateM CallError σ α} (hQ : ∀ a w, Q a (l.setWorld w)) (hE : ∀ e w, E (.call e) (l.setWorld w)) :
    Ends Q E (call m) l := ends_call.mpr (ends_of (fun a w _ => hQ a w) fun e w _ => hE e w)

theorem ends_attempt_of {m : EStateM CallError σ α} {Q : Except CallError α → Link σ ε → Prop}
    (hQ : ∀ r w, Q r (l.setWorld w)) : Ends Q E (attempt m) l :=
  ends_attempt.mpr (ends_of (fun a w _ => hQ (.ok a) w) fun e w _ => hQ (.error e) w)

theorem ends_make [Checks α] {a : α} {Q : Checked α → Link σ ε → Prop} (hQ : ∀ v : Checked α, v.val = a → Q v l)
    (hE : ∀ text, E (.value text) l) : Ends Q E (make a) l := by
  unfold make construct
  split_ifs with h
  · exact hQ ⟨a, h⟩ rfl
  · exact hE _

/-- the revision `rev` is the suffix `knots`, `dt` apart, behind some anchor -/
structure Spliced (rid : String) (knots : List (List Value)) (dt : Value) (rev : StreamRevision) : Prop where
  rid : rev.requestId = rid
  curve : ∃ anchor q h, finiteRows knots = some q ∧ dt = .fin h ∧ rev.suffix.val = suffix anchor q h

/-- at most one revision is sent -/
structure Revises (say : StreamRevision → ε) (rid : String) (knots : List (List Value)) (dt : Value) (l l' : Link σ ε) :
    Prop where
  nextOpen : l'.nextOpen = l.nextOpen
  log : l'.log = l.log ∨ ∃ rev, Spliced rid knots dt rev ∧ l'.log = l.log ++ [say rev]

/-- what `revise` raises -/
def Raised (e : Failure) : Prop := (∃ text, e = .value text) ∨ ∃ e', e = .call e'

theorem sendSuffix_log {say : StreamRevision → ε} {s : StreamSession} {rid : String} {anchor : SpliceAnchor}
    {knots : List (List Value)} {q : List (List ℚ)} {h : ℚ} {terminal : Bool} (hq : finiteRows knots = some q) :
    Ends (fun _ => Revises say rid knots (.fin h) l) (fun e l' => Revises say rid knots (.fin h) l l' ∧ Raised e)
      (sendSuffix arm ctx say s rid anchor q h terminal) l := by
  unfold sendSuffix
  rw [ends_bind, ends_get, ends_bind, ends_set, ends_bind]
  refine ends_make (fun curve hcurve => ?_) fun text => ⟨⟨rfl, .inl rfl⟩, .inl ⟨text, rfl⟩⟩
  rw [ends_bind]
  refine ends_make (fun revision hrev => ?_) fun text => ⟨⟨rfl, .inl rfl⟩, .inl ⟨text, rfl⟩⟩
  have hsplice : Spliced rid knots (.fin h) revision.val :=
    ⟨by rw [hrev], anchor, q, h, hq, rfl, by rw [hrev]; exact hcurve⟩
  show Ends _ _ (call (arm.reviseStream revision)) (l.drawProposal.add (say revision.val))
  exact ends_call_of (fun _ _ => ⟨rfl, .inr ⟨_, hsplice, rfl⟩⟩) fun e _ => ⟨⟨rfl, .inr ⟨_, hsplice, rfl⟩⟩, .inr ⟨e, rfl⟩⟩

theorem revise_log {say : StreamRevision → ε} {s : StreamSession} {rid : String} {knots : List (List Value)}
    {dt : Value} {terminal : Bool} :
    Ends (fun _ => Revises say rid knots dt l) (fun e l' => Revises say rid knots dt l l' ∧ Raised e)
      (revise arm ctx say s rid knots dt terminal) l := by
  unfold revise
  cases hq : finiteRows knots with
  | none => exact ⟨⟨rfl, .inl rfl⟩, .inl ⟨_, rfl⟩⟩
  | some q =>
    refine ends_ite (fun _ => ⟨⟨rfl, .inl rfl⟩, .inl ⟨_, rfl⟩⟩) fun _ => ?_
    rw [ends_bind]
    refine ends_call_of (fun anchor w => ?_) fun e w => ⟨⟨rfl, .inl rfl⟩, .inr ⟨e, rfl⟩⟩
    refine ends_ite (fun _ => ⟨⟨rfl, .inl rfl⟩, .inl ⟨_, rfl⟩⟩) fun _ => ?_
    cases hdt : dt.rat? with
    | none => exact ⟨⟨rfl, .inl rfl⟩, .inl ⟨_, rfl⟩⟩
    | some h =>
      rw [Value.rat?_eq_some.mp hdt]
      exact (sendSuffix_log hq).mono (fun _ _ h => ⟨h.nextOpen, h.log⟩) fun _ _ h => ⟨⟨h.1.nextOpen, h.1.log⟩, h.2⟩

/-- a cancel is requested unless the session is closed, and a confirmed one closes it -/
structure Closes (closing : ε) (s : StreamSession) (l : Link σ ε) (r : Bool × StreamSession) (l' : Link σ ε) : Prop where
  nextOpen : l'.nextOpen = l.nextOpen
  serial : r.2.serial = s.serial
  closed : r.2.closed = r.1
  unconfirmed : r.1 = false → s.closed = false
  log : l'.log = if s.closed then l.log else l.log ++ [closing]

theorem close_log {closing : ε} {s : StreamSession} {reason : String} :
    Ends (Closes closing s l) (fun _ _ => False) (close arm closing s reason) l := by
  unfold close
  refine ends_ite (fun hclosed => ⟨rfl, rfl, hclosed, nofun, (if_pos hclosed).symm⟩) fun hopen => ?_
  show Ends _ _ (attempt _ >>= _) (l.add closing)
  have hlog : (l.add closing).log = if s.closed then l.log else l.log ++ [closing] := (if_neg hopen).symm
  rw [ends_bind]
  refine ends_attempt_of fun r w => ?_
  cases r with
  | ok a => exact ⟨rfl, rfl, rfl, nofun, hlog⟩
  | error e => exact ⟨rfl, rfl, Bool.eq_false_of_not_eq_true hopen, fun _ => Bool.eq_false_of_not_eq_true hopen, hlog⟩

/-- a session takes the next open number; a failed one may have drawn it as well -/
theorem openSession_log {holdS : ℚ} :
    Ends (fun s l' => l'.log = l.log ∧ s.closed = false ∧ s.serial = l.nextOpen ∧ l'.nextOpen = l.nextOpen + 1)
      (fun _ l' => l'.log = l.log ∧ l.nextOpen ≤ l'.nextOpen) (openSession arm ctx holdS) l := by
  unfold openSession
  refine ends_ite (fun _ => ⟨rfl, le_rfl⟩) fun _ => ?_
  rw [ends_bind]
  refine ends_call_of (fun state w => ?_) fun e w => ⟨rfl, le_rfl⟩
  cases state.val.q with
  | none => exact ⟨rfl, le_rfl⟩
  | some q =>
    show Ends _ _ (make _ >>= _) _
    rw [ends_bind]
    refine ends_make (fun curve _ => ?_) fun _ => ⟨rfl, le_rfl⟩
    show Ends _ _ (make _ >>= _) _
    rw [ends_bind]
    refine ends_make (fun request _ => ?_) fun _ => ⟨rfl, Nat.le_succ _⟩
    rw [ends_bind]
    exact ends_call_of (fun view w => ⟨rfl, rfl, rfl, rfl⟩) fun e w => ⟨rfl, Nat.le_succ _⟩

end

/-! ## reports -/

structure Report where
  requested : List String := []
  admitted : List String := []
  selected : List String := []
  unknown : List String := []
  refused : List (String × String) := []
  replaced : List String := []
  late : List (String × String) := []
  selectedRevision : Option ℤ := none
  notes : List String := []
  profileAtStart : Option String := none
  deriving DecidableEq

inductive Fate where
  | refused
  | selected
  /-- admitted, then over without the RT having selected it -/
  | ended
  | admitted
  | pending
  deriving DecidableEq

def classify (status : RevisionStatus) : Fate :=
  if status.phase = .rejected ∨ status.selectionState = .refused then .refused
  else if status.selectionState = .selected then .selected
  else if status.phase.terminal then .ended
  else if status.phase ≠ .requested then .admitted
  else .pending

namespace Report

variable (r : Report)

def markUnknown (id : String) : Report := if id ∈ r.unknown then r else { r with unknown := r.unknown ++ [id] }

def refuse (id reason : String) : Report := { r with refused := r.refused ++ [(id, reason)] }

def request (id : String) : Report := { r with requested := r.requested ++ [id] }

def say (text : String) : Report := { r with notes := r.notes ++ [text] }

/-- a refusal is listed once -/
def refuseOnce (id reason : String) : Report := if r.refused.any (·.1 == id) then r else r.refuse id reason

def admitOnce (id : String) : Report := if id ∈ r.admitted then r else { r with admitted := r.admitted ++ [id] }

def select (id : String) : Report := if id ∈ r.selected then r else { r with selected := r.selected ++ [id] }

/-- `note_outcome`: one polled status, each fact once -/
def noteOutcome (id : String) (status : RevisionStatus) : Report :=
  match classify status with
  | .ended =>
    r.refuseOnce id ("ended without selection: " ++ status.phase.value ++
      (if status.reason = "" then "" else " " ++ status.reason))
  | .refused => r.refuseOnce id (if status.reason = "" then "revision refused" else status.reason)
  | .admitted => r.admitOnce id
  | .selected => (r.admitOnce id).select id
  | .pending => r

end Report

/-! ## a robot at rest, for closed runs -/

def hostStamp (ns : ℕ) : Checked Stamp := ⟨⟨ns, .pc, "host"⟩, by
  show refuseIf (decide ((ns : ℤ) < 0)) _ = ""
  rw [decide_eq_false (by omega)]
  rfl⟩

def restState : Checked RobotState where
  val :=
    { instanceId := "arm", validity := .valid, reason := "", q := some [0], dq := none, tau := none, selectedQ := none
      selectedQd := none, outputTau := none, wrench := none, source := some (hostStamp 0), received := some (hostStamp 0)
      stateSeq := none, lastCommandSeq := none }
  accepted := by decide +kernel

def restAnchor : Checked SpliceAnchor where
  val :=
    { anchorId := "anchor", expectedRevision := 1, cutPhase := 1, q := [0], qd := [0], issuedAt := hostStamp 0
      expiresAt := hostStamp 1 }
  accepted := by decide +kernel

def runningView : StreamView where
  execution :=
    { executionId := "stream", requestId := "open-1", instanceId := "arm", phase := .selected, reached := [], reason := "" }
  modelToken := "model"
  sceneToken := "scene"
  streamPolicyId := "policy"
  selectedReferenceId := none
  selectedRevision := none
  selectedPhase := none
  protectedUntil := none
  selectedEndPhase := none
  selectedTerminal := none
  pendingRequestId := none
  pendingRevision := none
  splice := none

def requestedStatus : RevisionStatus where
  executionId := "stream"
  requestId := "request"
  expectedRevision := some 1
  revision := none
  phase := .requested
  selectionState := .notRequested
  at_ := hostStamp 0
  reason := ""

/-- an arm that answers every call; its cancels may time out -/
def restArm (confirms : Bool) : Arm PUnit where
  now := pure (hostStamp 0)
  state := pure restState
  openStream _ := pure runningView
  streamState _ := pure runningView
  streamAnchor _ := pure restAnchor
  reviseStream _ := pure requestedStatus
  streamRevision _ _ := pure requestedStatus
  cancel _ _ := if confirms then pure ⟨⟩ else throw (.timeout "no reply")
  controllerState := throw (.refused "not advertised")
  controller := false

def restContext : StreamContext where
  instanceId := "arm"
  joints := ["j1"]
  modelToken := "model"
  sceneToken := "scene"
  streamPolicyId := "policy"

end ArmControl.Clients
