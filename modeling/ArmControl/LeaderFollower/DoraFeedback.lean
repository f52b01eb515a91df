import ArmControl.LeaderFollower.Follower

/-!
# The arm's state out of the graph (`leader_follower/dora_feedback.py`)

One node sends `control`, `jog` and `gripper` and receives the arm's state.

* `Receive`, `Payload`   what a receive call gives, and what the readers see of a value;
* `DoraFollowerFeedback` what is kept of the inputs, and `handle`;
* `Graph`                a world `σ` with the receive calls to come and the log of what came and went;
* `drain`, `latestArmState`, `sample`, `prime`;
* `takeover`             `prime` and then the loop's `run`, as `cli` has them.

The receive calls to come end where the deadline of `prime` is over, or with the last event.
-/

namespace ArmControl.LeaderFollower

/-- what is read of a JSON message -/
structure Body where
  /-- empty where it is absent -/
  schema : String
  /-- `None`, or what `float(width)` gives -/
  width : Option (Except Exn Value) := none
  armed : Option Bool := none
  /-- the text of `latched_fault`, empty where it is absent or false -/
  latchedFault : String := ""
  kind : String := ""
  /-- the text of `reason`, empty where it is absent or false -/
  reason : String := ""
  /-- what the other fields of a controller event raise -/
  wellFormed : Except Exn PUnit := .ok ⟨⟩

/-- an Arrow array, as numbers and as a JSON message -/
structure Payload where
  length : ℕ
  flat : Except Exn (List Value)
  body : Except Exn Body

inductive DoraEvent where
  | stop
  | input (id : String) (value : Option Payload)
  | other

/-- a receive call: the clock before it, what it gave and the clock after it -/
structure Receive where
  asked : ℚ
  outcome : Except Exn (Option DoraEvent)
  now : ℚ

structure DoraFollowerFeedback where
  q : Option (List Value) := none
  dq : Option (List Value) := none
  widthM : Option Value := none
  t : ℚ := 0
  armed : Option Bool := none
  healthFault : String := ""
  eventFault : String := ""
  stopped : Bool := false

structure FeedbackTopics where
  numArmJoints : ℕ
  armStateId : String := "motor_state"
  gripperStateId : String := "gripper_state"
  healthIds : List String := ["motor_health", "controller_arm"]
  eventId : String := "controller_event"

/-- numbers of a motor in a `motor_state` -/
def motorStateStride : ℕ := 8

/-- position and velocity of `unpack_motor_state` -/
def unpackMotorState (v : Payload) (n : ℕ) : Except Exn (List Value × List Value) := do
  let flat ← v.flat
  if flat.length ≠ n * motorStateStride then throw (.error "unpack_motor_state: expected n * 8 float64 values")
  let column c := (List.range n).map fun i => flat.getD (i * motorStateStride + c) (.fin 0)
  pure (column 0, column 1)

/-- `unpack_json_message` -/
def unpackJsonMessage (v : Payload) (expectedSchema : Option String) : Except Exn Body := do
  if v.length ≠ 1 then throw (.error "unpack_json_message: expected 1 string value")
  let body ← v.body
  match expectedSchema with
  | some schema => if body.schema ≠ schema then throw (.error "unpack_json_message: expected schema") else pure body
  | none => pure body

def eventKinds : List String :=
  ["ready", "leg_result", "leg_progress", "fault", "mode", "plan_staged", "plan_cleared"]

def unpackControllerEvent (v : Payload) : Except Exn Body := do
  let body ← unpackJsonMessage v (some "controller_event")
  if body.kind ∉ eventKinds then throw (.error "unknown controller event kind")
  body.wellFormed
  pure body

/-- position and velocity of the arm's joints, also from a longer message -/
def decodeArm (n : ℕ) (v : Payload) : Except Exn (List Value × List Value) :=
  let state := tryCatch (unpackMotorState v n) fun e =>
    if e.isException then unpackMotorState v (max (v.length / motorStateStride) 1) else throw e
  state.map fun s => (s.1.take n, s.2.take n)

namespace DoraFollowerFeedback

def parseMotorState (n : ℕ) (v : Payload) (now : ℚ) (f : DoraFollowerFeedback) : Except Exn DoraFollowerFeedback :=
  (decodeArm n v).map fun s => { f with q := some s.1, dq := some s.2, t := now }

def parseGripperState (v : Payload) (f : DoraFollowerFeedback) : Except Exn DoraFollowerFeedback := do
  let body ← unpackJsonMessage v (some "gripper_state")
  match body.width with
  | none => pure { f with widthM := none }
  | some width =>
    let w ← width
    pure { f with widthM := some w }

def parseHealth (v : Payload) (f : DoraFollowerFeedback) : Except Exn DoraFollowerFeedback :=
  (unpackJsonMessage v none).map fun body =>
    { f with
      armed := body.armed <|> f.armed
      healthFault := body.latchedFault }

/-- a controller fault stays -/
def parseControllerEvent (v : Payload) (f : DoraFollowerFeedback) : Except Exn DoraFollowerFeedback :=
  (unpackControllerEvent v).map fun body =>
    if body.kind = "fault" then
      { f with eventFault := if body.reason = "" then "controller fault" else body.reason }
    else f

def handle (c : FeedbackTopics) (id : String) (value : Option Payload) (now : ℚ) (f : DoraFollowerFeedback) :
    Except Exn DoraFollowerFeedback :=
  match value with
  | none => .ok f
  | some v =>
    if id = c.armStateId then f.parseMotorState c.numArmJoints v now
    else if id = c.gripperStateId then f.parseGripperState v
    else if id ∈ c.healthIds then f.parseHealth v
    else if id = c.eventId then f.parseControllerEvent v
    else .ok f

def faultReason (f : DoraFollowerFeedback) : String :=
  String.intercalate "; " ([f.eventFault, f.healthFault].filter (· ≠ ""))

end DoraFollowerFeedback

/-- what came from the node, and what it took -/
inductive Traffic where
  | received (e : DoraEvent)
  | sent (o : Output)

structure Graph (σ : Type) where
  rest : σ
  feed : DoraFollowerFeedback := {}
  inbox : List Receive := []
  log : List Traffic := []

namespace Graph

variable {σ α : Type}

def onRest (m : EStateM Exn σ α) : EStateM Exn (Graph σ) α :=
  Effect.zoom Graph.rest (fun r s => { s with rest := r }) m

/-- an empty receive and one that fails give nothing -/
def receive : EStateM Exn (Graph σ) (Option (DoraEvent × ℚ)) := do
  let s ← get
  match s.inbox with
  | [] => pure none
  | r :: inbox =>
    match r.outcome with
    | .ok none =>
      set { s with inbox := inbox }
      pure none
    | .ok (some e) =>
      set { s with inbox := inbox, log := s.log ++ [Traffic.received e] }
      pure (some (e, r.now))
    | .error e =>
      set { s with inbox := inbox }
      if e.isException then pure none else throw e

def handle (c : FeedbackTopics) (id : String) (value : Option Payload) (now : ℚ) : EStateM Exn (Graph σ) PUnit := do
  let s ← get
  let feed ← raising (s.feed.handle c id value now)
  set { s with feed := feed }

def stop : EStateM Exn (Graph σ) PUnit := modify fun s => { s with feed := { s.feed with stopped := true } }

/-- at most `fuel` events; the number handled -/
def drainUpTo (c : FeedbackTopics) : ℕ → ℕ → EStateM Exn (Graph σ) ℕ
  | 0, handled => pure handled
  | fuel + 1, handled => do
    match ← receive with
    | none => pure handled
    | some (.stop, _) =>
      stop
      pure handled
    | some (.input id value, now) =>
      handle c id value now
      drainUpTo c fuel (handled + 1)
    | some (.other, _) => drainUpTo c fuel handled

/-- a receive takes one of the inbox, so the fuel is enough -/
def drain (c : FeedbackTopics) : EStateM Exn (Graph σ) ℕ := do
  let s ← get
  drainUpTo c (s.inbox.length + 1) 0

/-- the zero pose where nothing was measured -/
def latestArmState (c : FeedbackTopics) : EStateM Exn (Graph σ) (List Value × Value) := do
  let _ ← drain c
  let s ← get
  match s.feed.q with
  | none => pure (List.replicate c.numArmJoints (.fin 0), .fin 0)
  | some q => pure (q, (s.feed.widthM.map fun w => w * .fin (1 / 2)).getD (.fin 0))

/-- `now` is the clock of the sample of a stopped node -/
def sample (c : FeedbackTopics) (now : ℚ) : EStateM Exn (Graph σ) (Option FeedbackSample) := do
  let _ ← drain c
  let s ← get
  if s.feed.stopped then
    pure (some
      { armQ := List.replicate c.numArmJoints (.fin 0)
        timestamp := .fin now
        fault := true
        faultReason := "收到 dora STOP" })
  else
    match s.feed.q with
    | none => pure none
    | some q => pure (some
        { armQ := q
          armDq := s.feed.dq
          gripperWidthM := s.feed.widthM
          timestamp := .fin s.feed.t
          fault := decide (s.feed.faultReason ≠ "")
          faultReason := s.feed.faultReason
          armed := s.feed.armed })

/-- at most `fuel` receives until a pose, a STOP or the deadline; whether it was a STOP -/
def primeUpTo (c : FeedbackTopics) (deadline : ℚ) : ℕ → EStateM Exn (Graph σ) Bool
  | 0 => pure false
  | fuel + 1 => do
    let s ← get
    if s.feed.q.isSome ∨ ¬ ∃ r ∈ s.inbox.head?, r.asked < deadline then pure false
    else
      match ← receive with
      | some (.stop, _) =>
        stop
        pure true
      | some (.input id value, now) =>
        handle c id value now
        primeUpTo c deadline fuel
      | some (.other, _) | none => primeUpTo c deadline fuel

def prime (c : FeedbackTopics) (deadline : ℚ) : EStateM Exn (Graph σ) PUnit := do
  let s ← get
  let gotStop ← primeUpTo c deadline (s.inbox.length + 1)
  let s ← get
  if s.feed.q.isNone ∧ gotStop = false then throw (.error "启动超时：未收到大臂 motor_state")

/-- the node with its log -/
def node (d : DoraNode σ) : DoraNode (Graph σ) where
  ensureNode := onRest d.ensureNode
  sendOutput o := do
    onRest (d.sendOutput o)
    modify fun s => { s with log := s.log ++ [Traffic.sent o] }

/-- the other parties, with the follower's state and the feedback out of the graph -/
def parties (c : FeedbackTopics) (clock : σ → ℚ) (p : Parties σ) : Parties (Graph σ) where
  getJointState := onRest p.getJointState
  leaderClose := onRest p.leaderClose
  numArmJoints := c.numArmJoints
  followerOpen := onRest p.followerOpen
  readState := latestArmState c
  followerSend arm grip := onRest (p.followerSend arm grip)
  safeStop := onRest p.safeStop
  followerClose := onRest p.followerClose
  feedback := some do
    let s ← get
    sample c (clock s.rest)
  collision :=
    { setOtherState := fun x => onRest (p.collision.setOtherState x)
      minDistance := fun q => onRest (p.collision.minDistance q)
      close := onRest p.collision.close }
  pause := onRest p.pause

end Graph

/-- what the node entry deploys -/
structure Deployment (σ : Type) where
  node : DoraNode σ
  follower : DoraJogFollower
  others : Parties σ
  gates : SafetyGates
  clock : σ → ℚ

namespace Deployment

variable {σ : Type}

/-- `build_dora_node`: the feedback has as many joints as the follower -/
def topics (d : Deployment σ) : FeedbackTopics := { numArmJoints := d.follower.numArmJoints }

def parties (d : Deployment σ) : Parties (DoraWorld (Graph σ)) :=
  DoraWorld.parties (Graph.node d.node) d.follower (Graph.parties d.topics d.clock d.others)

/-- `cli` without `--skip-prime` -/
def takeover (d : Deployment σ) (deadline : ℚ) (autoAlign : Bool) (nows : List ℚ) :
    EStateM Exn (TeleopLoop (DoraWorld (Graph σ))) PUnit := do
  TeleopLoop.onGate (Guarded.outside (DoraWorld.onNode (Graph.prime d.topics deadline)))
  TeleopLoop.run d.parties d.gates autoAlign nows

end Deployment

end ArmControl.LeaderFollower
