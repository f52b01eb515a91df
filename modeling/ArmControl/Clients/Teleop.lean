import ArmControl.Clients.Session

/-!
# Deadman teleoperation (`clients/teleop.py`)

* `Config`           the limits that the constructor accepts, and the clock;
* `Entry`            what the client read, sent and learned, in order;
* `DeadmanTeleop`    its state, with `start`, `heartbeat`, `command`, `tick`;
* `Input`, `step`    one call; what it raises goes to its caller.

A target of one value stands for every joint, as `numpy` broadcasts it.
-/

namespace ArmControl.Clients.Teleop

open Execution.Values

structure Config (σ : Type) where
  arm : Arm σ
  ctx : StreamContext
  timeout : ℚ
  speed : ℚ
  minStep : ℚ
  holdS : ℚ
  clock : σ → ℚ × σ
  positive : 0 < timeout ∧ 0 < speed ∧ 0 < minStep
  fits : minStep ≤ timeout

inductive Entry where
  /-- a start, a heartbeat or a held command refreshed the deadman -/
  | beat (t : ℚ)
  /-- a revision was sent; the deadman was checked at `checkedAt`, and the arm was measured at `measured` -/
  | revised (session : ℕ) (checkedAt : ℚ) (measured : List ℚ) (revision : StreamRevision)
  /-- what became of a revision is known, or never will be -/
  | settled (requestId : String)
  /-- the deadman requests the stop of a session -/
  | stopping (session : ℕ)
  /-- a cancel before another stream is opened -/
  | restarting (session : ℕ)
  /-- a session is over: its cancel was confirmed, or the supervisor ended it -/
  | gone (session : ℕ)
  deriving Inhabited

structure DeadmanTeleop (σ : Type) where
  link : Link σ Entry
  session : Option StreamSession := none
  lastBeat : ℚ := 0
  report : Report := {}
  /-- the revision that is not settled -/
  pending : Option String := none

inductive Answer where
  | requested
  | busy
  | released
  | expired
  | stopFailed
  | unknown
  | refused
  deriving DecidableEq

namespace DeadmanTeleop

variable {σ : Type} (c : Config σ)

abbrev Act (σ α : Type) := EStateM Failure (DeadmanTeleop σ) α

section
variable (s : DeadmanTeleop σ)

def setLink (l : Link σ Entry) : DeadmanTeleop σ := { s with link := l }
def setSession (session : Option StreamSession) : DeadmanTeleop σ := { s with session := session }
def setBeat (t : ℚ) : DeadmanTeleop σ := { s with lastBeat := t, link := s.link.add (.beat t) }
def setPending (rid : Option String) : DeadmanTeleop σ := { s with pending := rid }
def setReport (r : Report) : DeadmanTeleop σ := { s with report := r }
def add (e : Entry) : DeadmanTeleop σ := { s with link := s.link.add e }

/-- why the last cancel was not confirmed -/
def lastError : String := (s.session.bind StreamSession.lastError).getD "None"

end

def linked {α : Type} (m : Clients.Act σ Entry α) : Act σ α := Effect.zoom DeadmanTeleop.link (fun l s => s.setLink l) m

def now : Act σ ℚ := fun s => .ok (c.clock s.link.world).1 (s.setLink (s.link.setWorld (c.clock s.link.world).2))

/-- the deadman is refreshed -/
def beat : Act σ PUnit := do
  let t ← now c
  modify (setBeat · t)

/-- the entry of a cancel that was confirmed -/
def confirm (confirmed : Bool) (ss : StreamSession) (s : DeadmanTeleop σ) : DeadmanTeleop σ :=
  if confirmed then (s.setSession (some ss)).add (.gone ss.serial) else s.setSession (some ss)

/-- `session.close`, with the session that it leaves -/
def closeSession (closing : Entry) (ss : StreamSession) (reason : String) : Act σ Bool := do
  let r ← linked (close c.arm closing ss reason)
  modify (confirm r.1 r.2)
  pure r.1

/-- the stream before is confirmed to be cancelled -/
def closePrevious : Act σ Bool := do
  let s ← get
  match s.session with
  | none => pure true
  | some ss => closeSession c (.restarting ss.serial) ss "restart"

def start : Act σ PUnit := do
  let closed ← closePrevious c
  if closed then
    let ss ← linked (openSession c.arm c.ctx c.holdS)
    modify (setSession · (some ss))
    beat c
    modify (setPending · none)
  else do
    let s ← get
    throw (.needsOperator ("previous stream not confirmed cancelled: " ++ s.lastError))

/-- the deadman, and the reading it was checked with -/
def expired : Act σ (Bool × ℚ) := do
  let t ← now c
  let s ← get
  pure (decide (c.timeout < t - s.lastBeat), t)

def stop (ss : StreamSession) (reason : String) (confirmed : Answer) : Act σ Answer := do
  let closed ← closeSession c (.stopping ss.serial) ss reason
  if closed then
    modify fun s => s.setReport (s.report.say reason)
    pure confirmed
  else
    modify fun s => s.setReport (s.report.say ("STOP NOT CONFIRMED (" ++ reason ++ "): " ++ s.lastError ++ "; will retry"))
    pure .stopFailed

/-- whether the supervisor says that the stream has ended; nothing when it cannot be read -/
def readStream (ss : StreamSession) : Act σ Bool := do
  let r ← linked (attempt (c.arm.streamState ss.executionId))
  match r with
  | .ok view => pure view.execution.phase.terminal
  | .error _ => pure false

/-- the stream ended under the client -/
def endSession (ss : StreamSession) (s : DeadmanTeleop σ) : DeadmanTeleop σ :=
  ((s.setSession (some { ss with closed := true })).add (.gone ss.serial)).setReport
    (s.report.say "stream ended by the supervisor")

def setPendingSettled (rid : String) (s : DeadmanTeleop σ) : DeadmanTeleop σ := (s.setPending none).add (.settled rid)

/-- what the status of the revision before says -/
def foldStatus (rid : String) (status : RevisionStatus) : Act σ Bool := do
  modify fun s => s.setReport (s.report.noteOutcome rid status)
  match classify status with
  | .refused | .selected | .ended => do
    modify (setPendingSettled rid)
    pure false
  | _ => pure true

/-- the status cannot be read: the fate is unknown for good when the supervisor says so -/
def unreadable (rid : String) (e : CallError) : Act σ Bool :=
  match e with
  | .timeout _ | .os _ => pure true
  | .supervisor text | .refused text => do
    modify fun s =>
      s.setReport ((s.report.markUnknown rid).say (rid ++ ": revision status unavailable (" ++ text ++ "); fate unknown"))
    modify (setPendingSettled rid)
    pure false

/-- whether the revision before is unresolved -/
def settle (ss : StreamSession) : Act σ Bool := do
  let s ← get
  match s.pending with
  | none => pure false
  | some rid => do
    let r ← linked (attempt (c.arm.streamRevision ss.executionId rid))
    match r with
    | .ok status => foldStatus rid status
    | .error e => unreadable rid e

/-! ## one step toward the target -/

/-- `numpy` broadcasts a vector of one value -/
def broadcast (x y : List Value) : Option (List Value × List Value) :=
  if x.length = y.length then some (x, y)
  else if x.length = 1 then some (List.replicate y.length (x.headD .nan), y)
  else if y.length = 1 then some (x, List.replicate x.length (y.headD .nan))
  else none

/-- the observed pose; one without values is NaN -/
def observed (state : Checked RobotState) : List Value :=
  match state.val.q with
  | some q => Vec.ofRat q
  | none => [.nan]

/-- the duration of a step: `max(travel / speed, min_step)`, which keeps the first unless the second is larger -/
def pace (travel : Value) : Value :=
  if (travel / .fin c.speed).lt (.fin c.minStep) then .fin c.minStep else travel / .fin c.speed

/-- the target and the duration of one step from `q` toward `target`, and whether it was shortened -/
def stride (q target : List Value) : List Value × Value × Bool :=
  let delta := Vec.sub target q
  let travel := Vec.maxAbs delta
  if (Value.fin c.timeout).lt (pace c travel) then
    (Vec.add q (delta.map fun d => d * (.fin (c.speed * c.timeout) / travel)), .fin c.timeout, true)
  else (Vec.add q delta, pace c travel, false)

/-- no usable reply: the next command settles it -/
def lost (rid text : String) (s : DeadmanTeleop σ) : DeadmanTeleop σ :=
  (s.setReport (((s.report.request rid).markUnknown rid).say
    (rid ++ ": no reply to the revision (" ++ text ++ "); fate unknown"))).setPending (some rid)

def refuse (id reason : String) : Act σ Answer := do
  modify fun s => s.setReport (s.report.refuse id reason)
  pure .refused

/-- a revision that was answered -/
def answered (rid : String) (status : RevisionStatus) : Act σ Answer := do
  modify fun s => s.setReport ((s.report.request rid).noteOutcome rid status)
  if classify status = .refused then
    modify (add · (.settled rid))
    pure .refused
  else
    modify (setPending · (some rid))
    pure .requested

/-- a revision that was not: a refusal is one, and of anything else the fate is unknown -/
def unanswered (rid : String) (e : Failure) : Act σ Answer :=
  match e with
  | .value text | .call (.refused text) => do
    modify (add · (.settled rid))
    refuse rid text
  | .call e => do
    modify (lost rid e.text)
    pure .unknown
  | e => throw e

/-- what came back of a revision -/
def sendStep (ss : StreamSession) (rid : String) (checkedAt : ℚ) (measured : List ℚ) (target : List Value) (dt : Value) :
    Act σ (Except Failure RevisionStatus) :=
  tryCatch
    (do
      let status ← linked (revise c.arm c.ctx (.revised ss.serial checkedAt measured) ss rid [target] dt false)
      pure (.ok status))
    fun e => pure (.error e)

def noteShortened (shortened : Bool) : Act σ PUnit :=
  if shortened then modify fun s => s.setReport (s.report.say "target limited to one deadman timeout of travel")
  else pure ⟨⟩

/-- one revision from the measured pose `q` toward `target` -/
def reviseToward (ss : StreamSession) (checkedAt : ℚ) (q target : List Value) : Act σ Answer := do
  noteShortened (stride c q target).2.2
  let rid ← linked (requestId "teleop")
  let r ← sendStep c ss rid checkedAt ((Vec.finites q).getD []) (stride c q target).1 (stride c q target).2.1
  match r with
  | .ok status => answered rid status
  | .error e => unanswered rid e

/-- a step from the measured pose -/
def stepToward (ss : StreamSession) (checkedAt : ℚ) (target : List Value) : Act σ Answer := do
  let r ← linked (attempt c.arm.state)
  match r with
  | .error e => refuse "teleop" e.text
  | .ok state =>
    match broadcast (observed state) target with
    | none => refuse "teleop" "operands could not be broadcast together"
    | some (q, target) =>
      if q = [] then refuse "teleop" "zero-size array to reduction operation maximum which has no identity"
      else reviseToward c ss checkedAt q target

/-- a held command with a fresh deadman -/
def drive (ss : StreamSession) (checkedAt : ℚ) (target : List Value) : Act σ Answer := do
  beat c
  let ended ← readStream c ss
  if ended then
    modify (endSession ss)
    pure .expired
  else
    let busy ← settle c ss
    if busy then pure .busy else stepToward c ss checkedAt target

def command (target : List Value) (held : Bool) : Act σ Answer := do
  let s ← get
  match s.session with
  | none => pure .expired
  | some ss =>
    if ss.closed then pure .expired
    else if held = false then stop c ss "deadman released" .released
    else
      let r ← expired c
      if r.1 then stop c ss "deadman heartbeat expired" .expired else drive c ss r.2 target

/-- a missing heartbeat stops the arm -/
def tick : Act σ (Option Answer) := do
  let s ← get
  match s.session with
  | none => pure none
  | some ss =>
    if ss.closed then pure none
    else
      let r ← expired c
      if r.1 then some <$> stop c ss "deadman heartbeat expired" .expired else pure none

/-! ## runs -/

def initial (world : σ) : DeadmanTeleop σ := { link := { world := world } }

inductive Input where
  | start
  | heartbeat
  | command (target : List Value) (held : Bool)
  | tick

def input : Input → Act σ PUnit
  | .start => start c
  | .heartbeat => beat c
  | .command target held => do
    let _ ← command c target held
    pure ⟨⟩
  | .tick => do
    let _ ← tick c
    pure ⟨⟩

/-- what a call raises goes to its caller -/
def step (s : DeadmanTeleop σ) (i : Input) : DeadmanTeleop σ := Effect.leaves (input c i) s

end DeadmanTeleop

end ArmControl.Clients.Teleop
