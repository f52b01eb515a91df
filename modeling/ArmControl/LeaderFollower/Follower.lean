import ArmControl.LeaderFollower.Loop

/-!
# The follower behind the graph (`leader_follower/follower.py`)

* `DoraNode`          the node that takes the outputs, over a world `σ` that nothing is known about;
* `DoraWorld`         that world, with what the follower keeps and the outputs that the node has taken;
* `DoraJogFollower`   `jog` and `gripper` a target, `control` to arm, to stop and to leave.
-/

namespace ArmControl.LeaderFollower

/-- a `control` message; what is absent is unchanged -/
structure ControlUpdate where
  arm : Option Bool := none
  cancel : Bool := false
  reason : String := ""
  deriving DecidableEq

inductive Output where
  | control (u : ControlUpdate)
  | jog (q : List Value) (reason : String)
  /-- both finger slots of the motor command -/
  | gripper (position : List Value)
  deriving DecidableEq

structure DoraNode (σ : Type) where
  ensureNode : EStateM Exn σ PUnit
  sendOutput : Output → EStateM Exn σ PUnit

structure DoraWorld (σ : Type) where
  node : σ
  opened : Bool := false
  sent : ℕ := 0
  outputs : List Output := []

structure DoraJogFollower where
  numArmJoints : ℕ
  reason : String := "leader-follower"
  autoArm : Bool := true

namespace DoraWorld

variable {σ α : Type}

def onNode (m : EStateM Exn σ α) : EStateM Exn (DoraWorld σ) α :=
  Effect.zoom DoraWorld.node (fun n s => { s with node := n }) m

/-- an output that the node takes -/
def put (d : DoraNode σ) (o : Output) : EStateM Exn (DoraWorld σ) PUnit := do
  onNode (d.sendOutput o)
  modify fun s => { s with outputs := s.outputs ++ [o] }

def open' (d : DoraNode σ) (f : DoraJogFollower) : EStateM Exn (DoraWorld σ) PUnit := do
  onNode d.ensureNode
  if f.autoArm then put d (.control { arm := some true })
  modify fun s => { s with opened := true }

def send (d : DoraNode σ) (f : DoraJogFollower) (arm : List Value) (grip : Value) :
    EStateM Exn (DoraWorld σ) PUnit := do
  onNode d.ensureNode
  if arm.length ≠ f.numArmJoints then throw (.error "大臂目标长度不符")
  put d (.jog arm f.reason)
  put d (.gripper [grip, grip])
  modify fun s => { s with sent := s.sent + 1 }

/-- `try: m except Exception: pass` -/
def ignoring (m : EStateM Exn (DoraWorld σ) PUnit) : EStateM Exn (DoraWorld σ) PUnit :=
  tryCatch m fun e => if e.isException then pure ⟨⟩ else throw e

def stopping : ControlUpdate := { cancel := true, reason := "leader-stale" }

def leaving : ControlUpdate := { arm := some false, cancel := true, reason := "leader-follower-exit" }

def safeStop (d : DoraNode σ) : EStateM Exn (DoraWorld σ) PUnit := do
  let s ← get
  if s.opened then
    ignoring do
      onNode d.ensureNode
      put d (.control stopping)

def close (d : DoraNode σ) : EStateM Exn (DoraWorld σ) PUnit := do
  let s ← get
  if s.opened then
    ignoring do
      onNode d.ensureNode
      put d (.control leaving)
    modify fun s => { s with opened := false }

/-- the control messages that the node took -/
def controls (s : DoraWorld σ) : List ControlUpdate :=
  s.outputs.filterMap fun
    | .control u => some u
    | _ => none

/-- the follower behind the node, and the other parties of `p` beside it -/
def parties (d : DoraNode σ) (f : DoraJogFollower) (p : Parties σ) : Parties (DoraWorld σ) where
  getJointState := onNode p.getJointState
  leaderClose := onNode p.leaderClose
  numArmJoints := f.numArmJoints
  followerOpen := open' d f
  readState := onNode p.readState
  followerSend := send d f
  safeStop := safeStop d
  followerClose := close d
  feedback := p.feedback.map onNode
  collision :=
    { setOtherState := fun x => onNode (p.collision.setOtherState x)
      minDistance := fun q => onNode (p.collision.minDistance q)
      close := onNode p.collision.close }
  pause := onNode p.pause

end DoraWorld

end ArmControl.LeaderFollower
