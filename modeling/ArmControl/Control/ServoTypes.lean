import ArmControl.Control.Executor
import ArmControl.Control.ExecutionPolicy
import ArmControl.Control.JogHold
import ArmControl.Control.LegSettling

/-!
# What the controller reads and sends (`control/arm_controller.py`)

* `Reading`, `JointState`    joint vectors, finite or not;
* `Plan`, `ControlUpdate`, `MotorHealth`   the messages, decoded;
* `Moment`                   the clocks at a call, and what the plant's models say then;
* `Obs`                      what is sent, and what happens, in order;
* `Config`                   what the constructor fixes.
-/

namespace ArmControl.Control.Servo
open ArmControl.Motion

/-- a joint vector; `none` has an entry that is not finite -/
abbrev Reading (K : Type) (n : ℕ) := Option (Fin n → K)

/-- entries that may not be finite, as a reading -/
def finite {K : Type} {n : ℕ} (q : Fin n → Option K) : Reading K n :=
  if h : ∀ j, (q j).isSome then some fun j => (q j).get (h j) else none

structure JointState (K : Type) (n : ℕ) where
  position : Reading K n
  velocity : Reading K n

structure JointServoCommand (K : Type) (n : ℕ) where
  qDes : Reading K n
  qdDes : Reading K n
  kp : Gains K
  kd : Gains K

/-- a Cartesian impedance, as `cartesian_values` accepted it -/
structure CartesianSpec (K : Type) where
  taskR : List (List K)
  kc : List K
  dc : List K
  deriving DecidableEq

structure PoseHold (K : Type) where
  id : ℕ
  kc : List K
  dc : List K
  nullspaceKp : K
  nullspaceKd : K
  deriving DecidableEq

/-- the completion rule of a leg, as `pack_plan` builds it; `goal` is `goal_q` with its `residual_max` -/
structure Completion (K : Type) (n : ℕ) where
  velTol : K
  goal : Option ((Fin n → K) × K) := none

structure Plan (K : Type) (n : ℕ) where
  planId : String
  gated : Bool
  times : NdArray K
  positions : NdArray K
  velocities : NdArray K
  kp : Gains K
  kd : Gains K
  cartesianPoses : Option (NdArray K) := none
  cartesian : Option (CartesianSpec K) := none
  completion : Option (Completion K n) := none
  modelToken : Option String := none

/-- a plan message: it decodes, or names itself at least, or raises -/
inductive PlanMessage (K : Type) (n : ℕ) where
  | plan (p : Plan K n)
  | malformed (planId reason : String)
  | nameless

structure ControlUpdate (K : Type) where
  arm : Option Bool := none
  /-- a payload that `set_payload` refuses -/
  payloadRaises : Bool := false
  execute : Option String := none
  gains : Option (Option (Gains K) × Option (Gains K)) := none
  /-- `none` inside is a spec that does not decode -/
  poseHold : Option (Option (PoseHold K)) := none
  cancel : Bool := false
  cancelPlanId : Option String := none
  hold : Bool := false
  stop : Bool := false
  reason : Option String := none

structure MotorHealth (K : Type) (n : ℕ) where
  stateFresh : Bool := true
  anyFault : Bool := false
  latchedFault : Bool := false
  holding : Bool := false
  /-- of another shape, or not finite: `none` -/
  holdingQ : Reading K n := none
  supportsPoseHold : Bool := false
  armed : Bool := false

/-- the clocks at a call, and what the models outside say then -/
structure Moment (K : Type) (n : ℕ) where
  clock : K
  reference : K
  /-- the selected RT sample -/
  native : Option (TrajectoryPoint K n) := none
  /-- the command's feedforward torque is finite and within the limits -/
  torqueOk : Bool := true
  /-- so is that of the hold which replaces it -/
  holdTorqueOk : Bool := true

/-- why a command is sent -/
inductive Origin where
  | sample (planId : String)
  | jog
  | hold
  | gap
  | abort
  deriving DecidableEq

inductive Obs (K : Type) [LT K] (n : ℕ) where
  /-- the tails, the measured position and the controller's clock -/
  | motorCommand (origin : Origin) (command : JointServoCommand K n) (cartesian : Option (CartesianSpec K))
      (poseHold : Option (PoseHold K)) (measured : Reading K n) (clock : K)
  | ready
  | arm (armed : Bool)
  | staged (p : Plan K n)
  | refused (planId reason : String) (report : Bool)
  | planCleared (planId : String) (ok : Bool)
  | legResult (planId : String) (ok : Bool) (reason : String)
  | legProgress (planId : String) (v : SettleVerdict K)
  | fault (reason : String)
  /-- `set_gains`, the executor before and after it -/
  | gains (before after : JointTrajectoryExecutor K) (raised : Bool)
  /-- `start` is `none` for a native reference -/
  | released (planId : String) (trajectory : JointTrajectory K n) (start : Option K)
  /-- a revision of the native reference -/
  | window (trajectory : JointTrajectory K n)
  | held
  | cancelled (reason : String)
  | disarmed
  | paused (reason : String)
  | soft (spec : PoseHold K)
  | jogged (clock : K)
  | expired
  | cleared (pose : Reading K n)
  /-- a step of the ramp, from where and at which speed -/
  | ramped (start speed measured : Fin n → K)
  | rtHeld (pose : Reading K n)
  | measured (pose : Reading K n)
  /-- the observed end of a native reference -/
  | ended (now phase : K)
  /-- the completion rule, asked of a sample -/
  | consulted (now : K) (position velocity : Fin n → K) (done : Bool)

/-- a released reference; `tStart` is `none` for one that samples the native horizon -/
structure TrajectoryReference (K : Type) [LT K] (n : ℕ) where
  trajectory : JointTrajectory K n
  tStart : Option K
  terminal : Bool := true

section
variable {K : Type} [Field K] [LinearOrder K] {n : ℕ}

/-- the policy's limits and its rates -/
structure Policy (K : Type) [Field K] [LinearOrder K] (n : ℕ) extends ExecutionPolicy K n where
  period : K
  stateTimeout : K
  healthTimeout : K

structure Config (K : Type) [Field K] [LinearOrder K] (n : ℕ) where
  policy : Option (Policy K n)
  /-- set: trajectory time counts motor states -/
  statePeriod : Option K := none
  needsHealth : Bool := true
  modelToken : Option String := none
  calibrated : Bool := false
  sqrt : K → K
  /-- metres and radians between the hands of two joint poses -/
  handError : (Fin n → K) → (Fin n → K) → K × K
  /-- `:.3f` and `:g` -/
  fixed : K → String
  general : K → String
  /-- a float in a list -/
  render : K → String
  wallClock : policy.isSome → statePeriod = none

/-! ## plans -/

/-- the entries of a finite array -/
def gainValues (a : Gains K) : NdArray K :=
  ⟨a.shape, a.data.map (·.getD 0), by rw [List.length_map, a.sized]⟩

namespace Plan

def arrays (p : Plan K n) : PlanArrays K where
  times := p.times
  positions := p.positions
  velocities := p.velocities
  kp := gainValues p.kp
  kd := gainValues p.kd
  cartesianPoses := p.cartesianPoses
  cartesian := p.cartesian.map fun _ => .ok ()

/-- `JointTrajectory(times, positions, velocities)` -/
def trajectory (p : Plan K n) : Option (JointTrajectory K n) :=
  if p.times.ndim = 1 ∧ p.positions.ndim = 2 ∧ p.positions.columns = n ∧ p.times.len = p.positions.len ∧
      2 ≤ p.times.len ∧ p.velocities.shape = p.positions.shape then
    if h : p.arrays.Increasing then some (p.arrays.curve n h) else none
  else none

end Plan

/-- `pose_hold_values`: the id and the gains within the protocol's bounds -/
def PoseHold.Valid (s : PoseHold K) : Prop :=
  (0 < s.id ∧ s.id < 2 ^ 32) ∧ (s.kc.length = 6 ∧ s.dc.length = 6) ∧
    ∀ x ∈ (s.kc ++ s.dc ++ [s.nullspaceKp, s.nullspaceKd]).zip
        (List.replicate 3 1000 ++ List.replicate 3 100 ++ List.replicate 3 200 ++ List.replicate 3 50 ++ [20, 10]),
      0 ≤ x.1 ∧ x.1 ≤ x.2

instance (s : PoseHold K) : Decidable s.Valid := inferInstanceAs (Decidable (_ ∧ _ ∧ _))

namespace TrajectoryReference

/-- the trajectory's end -/
def endPhase (r : TrajectoryReference K n) : K := r.trajectory.times (Fin.last _)

def end_ (r : TrajectoryReference K n) : Fin n → K := (r.trajectory.sampleAt r.endPhase).position

/-- the point at a time; without a native sample it raises -/
def sample (r : TrajectoryReference K n) (m : Moment K n) (now : K) : Option (TrajectoryPoint K n) :=
  match r.tStart with
  | none => m.native
  | some start => some (r.trajectory.sampleAt (now - start))

/-- the phase of a native reference; without a sample it raises -/
def nativePhase (r : TrajectoryReference K n) (m : Moment K n) : Option (Option K) :=
  match r.tStart with
  | some _ => some none
  | none => m.native.map fun point => some point.time

end TrajectoryReference

end

end ArmControl.Control.Servo
