import ArmControl.Rt.RtLoop

/-!
# The hold of the servo loop (`rt_loop.cpp`, `controller.hpp`)

What `Rt/RtLoop.lean` leaves out of the tick: the hold flag, the captured pose, the gain snapshot, the active mask and the command that
the limiter gets.  `State` is that loop together with its `Hold`, and each part of the tick moves both.

* `confirms`, `cancels`, `underflows`, `trips`   the events of a tick that drop the hold, as the loop decides them;
* `frontHold`, `peersHold`, `servoHold`          the parts of the tick;
* `Tick`                                         what a tick that reached the ladder did, the history of a run;
* `stepHold`                                     one part of a tick.
-/

namespace ArmControl.Rt
namespace RtLoop

/-- the five arrays of a `CommandPacket` -/
structure Word where
  qDes : ℕ → F64 := fun _ => .zero
  qdDes : ℕ → F64 := fun _ => .zero
  tauFf : ℕ → F64 := fun _ => .zero
  kp : ℕ → F64 := fun _ => .zero
  kd : ℕ → F64 := fun _ => .zero
  deriving Inhabited

/-- the ladder's verdict: a command is tracked, the pose is held, the plant is down, or the arm is disarmed -/
inductive Outcome where
  | tracked | held | down | disarmed
  deriving DecidableEq, Inhabited

/-- one tick that reached the ladder -/
structure Tick where
  gen : ℕ := 0
  /-- the measured positions -/
  q : ℕ → F64 := fun _ => .zero
  /-- the joints added to the active mask -/
  added : ℕ → Bool := fun _ => false
  -- events
  confirmed : Bool := false
  cancelled : Bool := false
  underflowed : Bool := false
  tripped : Bool := false
  /-- the trip found a running reference -/
  running : Bool := false
  expired : Bool := false
  edge : Bool := false
  /-- the fresh command that was taken up -/
  taken : Option Word := none
  outcome : Outcome := .disarmed
  /-- the command that the limiter got -/
  selected : Word := {}
  deriving Inhabited

/-- the hold's share of the loop's locals, and the history -/
structure Hold where
  holding : Bool := false
  haveCmdGains : Bool := false
  qHold : ℕ → F64 := fun _ => .zero
  cmdKp : ℕ → F64 := fun _ => .zero
  cmdKd : ℕ → F64 := fun _ => .zero
  /-- `controller.command()` -/
  selected : Word := {}
  lastActiveMask : ℕ := 0
  /-- the tick in progress -/
  tick : Tick := {}
  ticks : List Tick := []

structure HoldConfig where
  cfg : ServerConfig
  holdKp : F64
  holdKd : F64

structure State where
  loop : RtLoop := {}
  hold : Hold := {}

/-- what the world decides in one part of a tick -/
structure HoldEnv where
  env : RtEnv := {}
  /-- the measured positions of this tick -/
  q : ℕ → F64 := fun _ => .zero
  /-- the arrays of the command that the authority holds -/
  word : Word := {}
  /-- `reference_point`: position and velocity of the selected reference -/
  pointQ : ℕ → F64 := fun _ => .zero
  pointQd : ℕ → F64 := fun _ => .zero
  /-- the feedforward of the pose or the Cartesian law -/
  lawTau : ℕ → F64 := fun _ => .zero
  requestedMask : ℕ := 0
  activeMask : ℕ := 0
  /-- `set_active_mask` accepted the request -/
  maskSet : Bool := false

/-! ## the events of a tick -/

def confirms (r : RtLoop) (p : Published) (faulted : Bool) : Bool :=
  !(decide (p.modePublished = r.modeSeen) || decide (p.modeIn.ticket ≠ p.modePublished)) &&
    (modeVerdict r.mode p faulted p.modeIn.request).2

def cancels (r : RtLoop) (p : Published) : Bool :=
  !(decide (p.referenceCancelGeneration = r.cancelSeen) || decide (p.referenceCancel.generation ≠ p.referenceCancelGeneration)) &&
    (p.referenceCancel.sessionId == p.sessionId && p.referenceCancel.armEpoch == p.armGen)

/-- the reference before the tick evaluates it: reset, cancelled, and retired while not in authority -/
def unevaluated (r : RtLoop) (p : Published) (faulted : Bool) : ReferenceSelection :=
  let r := { r with reference := r.reference.reset p.sessionId (low32 p.armGen) }.applyCancel p
  if p.armed = false ∨ faulted = true then r.reference.retire 0 false else r.reference

def underflows (before after : ReferenceStatus) : Bool := after == .underflow && before != .underflow

def trips (cfg : ServerConfig) (r : RtLoop) (committed : Bool) (env : RtEnv) : Bool :=
  committed && !r.groupTripped && !r.groupDone &&
    (firstBadPeer env.peers cfg.groupMembers cfg.groupMember r.pub.groupId r.now cfg.groupMaxAgeNs).isSome

/-! ## the parts of the tick -/

/-- the hold is dropped: its pose is captured again when it resumes -/
def Hold.drop (h : Hold) (event : Bool) : Hold := if event then { h with holding := false } else h

/-- a joint that the active mask gains is captured on its own -/
def Hold.mask (h : Hold) (e : HoldEnv) : Hold :=
  if e.requestedMask ≠ e.activeMask ∧ e.maskSet = true then
    let added : ℕ → Bool := fun j => e.requestedMask.testBit j && !h.lastActiveMask.testBit j
    { h with
      qHold := fun j => if added j then e.q j else h.qHold j
      lastActiveMask := e.requestedMask
      tick := { h.tick with added := added } }
  else h

/-- from the read to the selection of the reference -/
def frontHold (cfg : ServerConfig) (r : RtLoop) (h : Hold) (sh : Shared) (p : Published) (e : HoldEnv) : Hold :=
  if e.env.readOk = false then h
  else
    let h := Hold.mask { h with tick := { q := e.q } } e
    let seeded := (r.load sh p e.env.now).seedMode cfg p
    let confirmed := seeded.confirms p sh.fault
    let answered := seeded.answerMode p e.env.now sh.fault
    let cancelled := answered.cancels p
    let before := (answered.unevaluated p sh.fault).info.status
    let prepared := answered.prepareReference p e.env.now sh.fault
    let after := ((prepared.commitStep sh.slot p e.env.now sh.fault sh.slotBusy).1.publishReference e.env.now).reference.info.status
    let underflowed := underflows before after
    let h := ((h.drop confirmed).drop cancelled).drop underflowed
    { h with tick := { h.tick with confirmed := confirmed, cancelled := cancelled, underflowed := underflowed } }

/-- a bad peer: a running reference is retired, and the hold dropped with it -/
def peersHold (cfg : ServerConfig) (r : RtLoop) (h : Hold) (p : Published) (e : HoldEnv) : Hold :=
  let tripped := r.trips cfg p.groupCommitted e.env
  let running := r.reference.info.status == .running
  let h := h.drop (tripped && running)
  { h with tick := { h.tick with tripped := tripped, running := running } }

/-- the first `n` entries of an array, the others zero -/
def upTo (n : ℕ) (f : ℕ → F64) : ℕ → F64 := fun j => if j < n then f j else .zero

/-- `Controller::joint` -/
def joint (n : ℕ) (w : Word) : Word := ⟨upTo n w.qDes, upTo n w.qdDes, upTo n w.tauFf, upTo n w.kp, upTo n w.kd⟩

/-- the tracked command's law: joint, native, pose or Cartesian -/
def law (n : ℕ) (version : Version) (q : ℕ → F64) (e : HoldEnv) : Word :=
  match version with
  | .poseHold => { qDes := upTo n q, tauFf := upTo n e.lawTau }
  | .cartesian => joint n { e.word with tauFf := e.lawTau }
  | .reference => joint n { e.word with qDes := e.pointQ, qdDes := e.pointQd }
  | .joint => joint n e.word

/-- a fresh command is taken up, and its gains are kept -/
def Hold.take (h : Hold) (n : ℕ) (version : Version) (e : HoldEnv) : Hold :=
  { h with
    holding := false
    haveCmdGains := true
    cmdKp := e.word.kp
    cmdKd := e.word.kd
    selected := law n version h.tick.q e
    tick := { h.tick with taken := some e.word, outcome := .tracked } }

/-- the pose is captured once, and held with the gains that were kept -/
def Hold.hold (h : Hold) (k : HoldConfig) : Hold :=
  let qHold := if h.holding then h.qHold else fun j => if j < k.cfg.n then h.tick.q j else h.qHold j
  { h with
    holding := true
    qHold := qHold
    selected := joint k.cfg.n
      { qDes := qHold
        kp := if h.haveCmdGains then h.cmdKp else fun _ => k.holdKp
        kd := if h.haveCmdGains then h.cmdKd else fun _ => k.holdKd }
    tick := { h.tick with outcome := .held } }

/-- a command is taken up and tracked, or the pose is held, also where the law of the command failed -/
def Hold.act (h : Hold) (k : HoldConfig) (track lawFailed : Bool) (version : Version) (e : HoldEnv) : Hold :=
  let h := if track then h.take k.cfg.n version e else h
  let h := if track && !lawFailed then h else h.hold k
  { h with tick := { h.tick with selected := h.selected } }

/-- the authority ladder: disarmed, no plant, track or hold, and the write -/
def ladder (k : HoldConfig) (r : RtLoop) (h : Hold) (fresh : Bool) (e : HoldEnv) : Hold :=
  if r.pub.armed = false then { h with holding := false, tick := { h.tick with outcome := .disarmed } }
  else if (r.plantOk && e.env.finite) = false then { h with holding := false, tick := { h.tick with outcome := .down } }
  else
    let track := !r.faulted && fresh
    let version := r.authority.current.packet.version
    let lawFailed := track && !e.env.lawOk && (version == .poseHold || version == .cartesian)
    (h.act k track lawFailed version e).drop (!e.env.wrote)

/-- the ARM edge: nothing of the generation before is kept -/
def Hold.armEdge (h : Hold) (edge : Bool) : Hold :=
  if edge then { h with holding := false, haveCmdGains := false } else h

/-- the tick is over -/
def Hold.finish (h : Hold) : Hold := { h with ticks := h.ticks ++ [h.tick], tick := {} }

/-- expiry, the ARM edge, and the ladder -/
def servoHold (k : HoldConfig) (r : RtLoop) (h : Hold) (session : ℕ) (e : HoldEnv) : Hold :=
  let gap := r.referenceGap k.cfg
  let observed := r.observeCommand k.cfg
  let expired := observed.expired k.cfg gap
  let retired := observed.retireExpired k.cfg gap
  let fresh := retired.fresh k.cfg session
  let edge := retired.pub.armGen != retired.seenGen
  let h := (h.drop expired).armEdge edge
  let h := { h with tick := { h.tick with expired := expired, edge := edge, gen := retired.armEdge.seenGen } }
  (ladder k retired.armEdge h fresh e).finish

/-! ## one part of a tick -/

def State.holdOf (k : HoldConfig) (s : State) (sh : Shared) (p : Published) (e : HoldEnv) : Hold :=
  match s.loop.pc with
  | .front => frontHold k.cfg s.loop s.hold sh p e
  | .peers => peersHold k.cfg s.loop s.hold p e
  | .servo => servoHold k s.loop s.hold p.sessionId e
  | .done | .mirror => s.hold

/-- what the tick loads, and what the world decides -/
structure HoldEvent where
  sh : Shared := {}
  pub : Published := {}
  env : HoldEnv := {}

def stepHold (k : HoldConfig) (s : State) (e : HoldEvent) : State :=
  { loop := (s.loop.step k.cfg e.sh e.pub e.env.env).1, hold := s.holdOf k e.sh e.pub e.env }

end RtLoop

end ArmControl.Rt
