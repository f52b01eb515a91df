import ArmControl.Lib.Vectors

/-!
# The simulated link (`sim_link.py`)

The supervisor's link to a plant in its own process.  Callers arm, disarm and command; the servo thread steps the plant.  A step below is what
a thread does under the lock, or one call of the plant; the plant's step itself runs unlocked, and it may raise.

* `Word`, `Request`     what the plant is given, what a caller asks for;
* `Snapshot`, `Sample`  the authority a tick runs under, the published state;
* `ServoPc`             where the servo thread is in its tick;
* `SimLink`, `step`     the link, and everything that happens to it;
* `Obs`                 the log.

The link is open.  `cartesian_values` has checked a Cartesian law before it gets here, the clock never goes back.
-/

namespace ArmControl.Plants.Sim

/-- a command word of the plant -/
structure Word where
  position : List Value
  velocity : List Value
  torque : List Value
  kp : List Value
  kd : List Value
  cartesian : Option (List Value) := none
  deriving DecidableEq

/-- a caller's command: `cartesian` is what `cartesian_values` makes of its Cartesian law, nothing where it raises -/
structure Request where
  poseHold : Bool := false
  cartesian : Option (Option (List Value)) := none
  position : Option (List Value) := none
  velocity : Option (List Value) := none
  torque : Option (List Value) := none
  kp : Option (List Value) := none
  kd : Option (List Value) := none

def faultCmdLost : ℕ := 1
def faultPlant : ℕ := 3

/-- the authority that a tick runs under -/
structure Snapshot where
  armed : Bool
  fault : ℕ
  holding : Bool
  armEpoch : ℕ
  stopEpoch : ℕ
  lastCmdSeq : ℕ
  deriving DecidableEq

/-- a published state -/
structure Sample where
  stateSeq : ℕ
  lastCmdSeq : ℕ
  tMono : ℚ
  armed : Bool
  faulted : Bool
  holding : Bool
  faultCode : ℕ
  armEpoch : ℕ
  stopEpoch : ℕ
  q : List Value
  dq : List Value
  tau : List Value
  qCmd : List Value
  qdCmd : List Value
  deriving DecidableEq

/-- what the plant measures after a step -/
structure Motor where
  position : List Value
  velocity : List Value
  deriving DecidableEq

/-- what happened, in the order in which it happened -/
inductive Obs where
  /-- the first sample -/
  | opened (q : List Value)
  | armed (epoch : ℕ)
  | armRefused
  | disarmed (stop : ℕ)
  | accepted (seq : ℕ) (word : Word) (at_ : ℚ)
  /-- a hold began at this pose -/
  | held (q : List Value)
  | latched (code : ℕ) (text : String)
  | stepBegan (now : ℚ) (word : Word) (snap : Snapshot)
  | stepReturned
  | stepRaised
  | published (sample : Sample)
  /-- `safe_stop` returned -/
  | stopConfirmed (stop : ℕ)
  | stopUnconfirmed (stop : ℕ)
  deriving DecidableEq

/-- where the servo thread is -/
inductive ServoPc where
  | idle
  /-- the time of the tick is read -/
  | woken (now : ℚ)
  /-- inside `plant.step` -/
  | stepping (now : ℚ) (word : Word) (snap : Snapshot)
  | stepped (now : ℚ) (word : Word) (snap : Snapshot) (motor : Motor)
  /-- an exception left the tick -/
  | failing (now : ℚ) (exc : String)
  | failed (now : ℚ) (snap : Snapshot) (motor : Motor)
  deriving DecidableEq

/-- the launch checks of the servo block -/
structure Config where
  n : ℕ
  period : ℚ
  holdMs : ℚ
  faultMs : ℚ
  holdKp : Value
  holdKd : Value
  supportsCartesian : Bool
  ordered : 0 < holdMs ∧ holdMs < faultMs

structure SimLink where
  config : Config
  state : Sample
  stateRxT : ℚ
  cmd : Option Word := none
  cmdT : ℚ := 0
  cmdSeq : ℕ := 0
  lastCmdSeq : ℕ := 0
  isArmed : Bool := false
  armEpoch : ℕ := 0
  /-- the ARM epochs handed out, ever -/
  epochs : ℕ := 0
  stopEpoch : ℕ := 0
  armT : ℚ := 0
  holdQ : List Value := []
  inHold : Bool := false
  /-- false after a failed step until the next ARM -/
  plantOk : Bool := true
  /-- the snapshot of the tick in flight, and the authority it was taken under -/
  tickSnap : Option (Snapshot × ℕ × ℕ) := none
  /-- the stop epoch that samples show -/
  pubStopEpoch : ℕ := 0
  cmdGains : Option (List Value × List Value) := none
  faultCode : ℕ := 0
  latchedFault : String := ""
  stateSeq : ℕ
  clock : ℚ
  servo : ServoPc := .idle
  /-- the calls that wait for a sample: a stop or ARM epoch, and the deadline -/
  stopWaits : List (ℕ × ℚ) := []
  armWaits : List (ℕ × ℚ) := []
  log : List Obs

namespace SimLink

def note (s : SimLink) (o : Obs) : SimLink := { s with log := s.log ++ [o] }

/-- `np.zeros(n)` -/
def zeros (s : SimLink) : List Value := Vec.zeros s.config.n

/-! ## authority -/

/-- the time `_await_state` waits -/
def waits (s : SimLink) : ℚ := 1 / 2 + 4 * s.config.period

/-- `enable_all`, up to the wait -/
def enableAll (s : SimLink) : SimLink :=
  if s.faultCode ≠ 0 then s.note .armRefused
  else if s.isArmed then s
  else
    { s with
      holdQ := s.state.q, cmd := none, cmdT := 0, inHold := false, cmdGains := none, plantOk := true
      epochs := s.epochs + 1, armEpoch := s.epochs + 1, isArmed := true, armT := s.clock
      armWaits := s.armWaits ++ [(s.epochs + 1, s.clock + s.waits)] }.note (.armed (s.epochs + 1))

/-- `safe_stop`, up to the wait -/
def safeStop (s : SimLink) : SimLink :=
  { s with
    isArmed := false, faultCode := 0, latchedFault := "", cmd := none, holdQ := [], inHold := false, cmdGains := none
    stopEpoch := s.stopEpoch + 1
    stopWaits := s.stopWaits ++ [(s.stopEpoch + 1, s.clock + s.waits)] }.note (.disarmed (s.stopEpoch + 1))

/-- one look of `enable_all` at the newest sample -/
def awaitArm (s : SimLink) (wait : ℕ × ℚ) : SimLink :=
  if s.armWaits.contains wait then
    if wait.2 ≤ s.clock || (s.state.armed && s.state.armEpoch == wait.1) then { s with armWaits := s.armWaits.erase wait } else s
  else s

/-- one look of `safe_stop` at the newest sample -/
def awaitStop (s : SimLink) (wait : ℕ × ℚ) : SimLink :=
  if s.stopWaits.contains wait then
    if wait.2 ≤ s.clock then { s with stopWaits := s.stopWaits.erase wait }.note (.stopUnconfirmed wait.1)
    else if !s.state.armed && decide (wait.1 ≤ s.state.stopEpoch) then
      { s with stopWaits := s.stopWaits.erase wait }.note (.stopConfirmed wait.1)
    else s
  else s

/-! ## commands -/

/-- the word that a command becomes; a pose hold, a refused law and a law that the plant does not run raise -/
def wordOf (s : SimLink) (r : Request) : Option Word :=
  let entry := fun x : Option (List Value) => (x.getD s.zeros).take s.config.n
  let word := fun c => ⟨entry r.position, entry r.velocity, entry r.torque, entry r.kp, entry r.kd, c⟩
  if r.poseHold then none
  else
    match r.cartesian with
    | none => some (word none)
    | some values => if s.config.supportsCartesian then values.map fun v => word (some v) else none

def applyCommand (s : SimLink) (r : Request) : SimLink :=
  match s.wordOf r with
  | none => s
  | some word =>
    let s := { s with cmdSeq := (s.cmdSeq + 1) % 2 ^ 32 }
    -- a disarmed or faulted servo ignores commands
    if s.isArmed && s.faultCode == 0 then
      { s with cmd := some word, cmdT := s.clock, cmdGains := some (word.kp, word.kd), lastCmdSeq := s.cmdSeq }.note
        (.accepted s.cmdSeq word s.clock)
    else s

/-! ## the servo thread -/

/-- the zero-gain word -/
def releasedWord (s : SimLink) : Word := ⟨s.state.q, s.zeros, s.zeros, s.zeros, s.zeros, none⟩

/-- a hold that begins here, or goes on -/
def holdHere (s : SimLink) : SimLink :=
  if s.inHold then s else { s with holdQ := s.state.q, cmd := none, inHold := true }.note (.held s.state.q)

/-- the hold's word, with the gains of the last accepted command -/
def holdWord (s : SimLink) : Word :=
  let gains := s.cmdGains.getD (List.replicate s.config.n s.config.holdKp, List.replicate s.config.n s.config.holdKd)
  ⟨s.holdQ, s.zeros, s.zeros, gains.1, gains.2, none⟩

/-- after `fault_ms` without a command -/
def loseCommands (s : SimLink) (silent : ℚ) : SimLink :=
  if s.config.faultMs / 1000 ≤ silent ∧ s.faultCode = 0 then
    { s with faultCode := faultCmdLost, latchedFault := "command stream lost" }.note (.latched faultCmdLost "command stream lost")
  else s

/-- the word of the tick, and whether it holds -/
def choose (s : SimLink) (now : ℚ) : Word × Bool × SimLink :=
  if !s.isArmed || !s.plantOk then (s.releasedWord, false, s)
  else
    let silent := now - max s.cmdT s.armT
    match s.cmd with
    | some word =>
      if s.faultCode = 0 ∧ silent * 1000 ≤ s.config.holdMs then (word, false, { s with inHold := false })
      else (s.holdHere.holdWord, true, s.holdHere.loseCommands silent)
    | none => (s.holdHere.holdWord, true, s.holdHere.loseCommands silent)

/-- the servo thread enters the plant -/
def enter (s : SimLink) (now : ℚ) (word : Word) (holding : Bool) : SimLink :=
  -- only a released step publishes a DISARM
  let s := if s.isArmed then s else { s with pubStopEpoch := s.stopEpoch }
  let snap : Snapshot := ⟨s.isArmed, s.faultCode, holding, s.armEpoch, s.pubStopEpoch, s.lastCmdSeq⟩
  { s with tickSnap := some (snap, s.armEpoch, s.stopEpoch), servo := .stepping now word snap }.note (.stepBegan now word snap)

/-- `_tick`, what it does under the lock -/
def tick (s : SimLink) (now : ℚ) : SimLink :=
  let (word, holding, s) := { s with tickSnap := none }.choose now
  s.enter now word holding

/-- the word as a torque on what was measured -/
def tauOf (n : ℕ) (motor : Motor) (word : Option Word) : List Value :=
  let torque := (word.map Word.torque).getD (Vec.zeros n)
  let kp := (word.map Word.kp).getD (Vec.zeros n)
  let kd := (word.map Word.kd).getD (Vec.zeros n)
  let qCmd := (word.map Word.position).getD motor.position
  let qdCmd := (word.map Word.velocity).getD (Vec.zeros n)
  Vec.add (Vec.add torque (List.zipWith (· * ·) kp (Vec.sub qCmd motor.position))) (List.zipWith (· * ·) kd (Vec.sub qdCmd motor.velocity))

/-- `_publish` -/
def publish (s : SimLink) (rxT : ℚ) (motor : Motor) (word : Option Word) (snap : Snapshot) : SimLink :=
  let sample : Sample :=
    { stateSeq := s.stateSeq + 1, lastCmdSeq := snap.lastCmdSeq, tMono := s.clock
      armed := snap.armed, faulted := snap.fault != 0, holding := snap.holding, faultCode := snap.fault
      armEpoch := snap.armEpoch, stopEpoch := snap.stopEpoch
      q := motor.position, dq := motor.velocity, tau := tauOf s.config.n motor word
      qCmd := (word.map Word.position).getD motor.position, qdCmd := (word.map Word.velocity).getD s.zeros }
  { s with state := sample, stateRxT := rxT, stateSeq := s.stateSeq + 1, servo := .idle }.note (.published sample)

/-- the servo releases the plant until the next ARM; the first cause is the one that stays -/
def latchPlant (s : SimLink) (exc : String) : SimLink :=
  let s := { s with plantOk := false, cmd := none }
  if s.faultCode = 0 then
    { s with faultCode := faultPlant, latchedFault := "sim plant failed: " ++ exc }.note (.latched faultPlant ("sim plant failed: " ++ exc))
  else s

/-- `_plant_failed`, what it does before it publishes: the failing cycle's own sample, and a fault unless the authority has changed -/
def plantFailed (s : SimLink) (now : ℚ) (exc : String) : SimLink :=
  -- no snapshot: nothing ran, so the live authority is the truth
  let (snap, gen) := s.tickSnap.getD
    (⟨s.isArmed, s.faultCode, false, s.armEpoch, s.pubStopEpoch, s.lastCmdSeq⟩, s.armEpoch, s.stopEpoch)
  let s := if (s.armEpoch, s.stopEpoch) = gen then s.latchPlant exc else s
  let snap := { snap with fault := if s.faultCode = 0 then faultPlant else s.faultCode, holding := false }
  { s with servo := .failed now snap ⟨s.state.q, s.state.dq⟩ }

/-- what the plant and the Hand do in a tick -/
structure ServoEnv where
  plant : Except String Motor
  hand : Option String := none

def servoStep (s : SimLink) (env : ServoEnv) : SimLink :=
  match s.servo with
  | .idle => { s with servo := .woken s.clock }
  | .woken now => s.tick now
  | .stepping now word snap =>
    match env.plant with
    | .ok motor => { s with servo := .stepped now word snap motor }.note .stepReturned
    | .error exc => { s with servo := .failing now exc }.note .stepRaised
  | .stepped now word snap motor =>
    match env.hand with
    | none => s.publish s.clock motor (some word) snap
    | some exc => { s with servo := .failing now exc }
  | .failing now exc => s.plantFailed now exc
  | .failed now snap motor => s.publish now motor none snap

inductive Event where
  | pass (d : ℚ)
  | enableAll
  | safeStop
  | applyCommand (r : Request)
  | awaitArm (wait : ℕ × ℚ)
  | awaitStop (wait : ℕ × ℚ)
  | servo (env : ServoEnv)

def step (s : SimLink) : Event → SimLink
  | .pass d => { s with clock := s.clock + max 0 d }
  | .enableAll => s.enableAll
  | .safeStop => s.safeStop
  | .applyCommand r => s.applyCommand r
  | .awaitArm wait => s.awaitArm wait
  | .awaitStop wait => s.awaitStop wait
  | .servo env => s.servoStep env

/-- `open`: the first sample is what the plant measures -/
def opened (config : Config) (motor : Motor) (clock : ℚ) : SimLink where
  config := config
  state :=
    { stateSeq := 1, lastCmdSeq := 0, tMono := clock, armed := false, faulted := false, holding := false, faultCode := 0
      armEpoch := 0, stopEpoch := 0, q := motor.position, dq := motor.velocity, tau := tauOf config.n motor none
      qCmd := motor.position, qdCmd := Vec.zeros config.n }
  stateRxT := clock
  stateSeq := 1
  clock := clock
  log := [.opened motor.position]

end SimLink

end ArmControl.Plants.Sim
