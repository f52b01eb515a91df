import ArmControl.Lib.NdArray
import ArmControl.Motion.Types

/-!
# Execution limits (`control/execution_policy.py`)

* `ExecutionPolicy`   the configured limits of `n` joints;
* `envelope`          the position band, widened to the poses the arm is at;
* `PlanArrays`              what a plan carries, as arrays of any shape, and its `curve`;
* `planError`         why a plan may not run, in the order of the checks.

Arithmetic is that of an ordered field `K`, so every value is finite.
-/

namespace ArmControl.Control
open ArmControl.Motion

section
variable {K : Type} [Field K] [LinearOrder K]

structure ExecutionPolicy (K : Type) [Field K] [LinearOrder K] (n : ℕ) where
  startPosTolRad : K
  abortPosErrRad : K
  holdRelatchRad : K
  torqueLimits : Fin n → K
  /-- `position_lower` and `position_upper`: both or neither -/
  position : Option ((Fin n → K) × (Fin n → K)) := none
  velocityLimits : Option (Fin n → K) := none
  accelerationLimits : Option (Fin n → K) := none
  cartesianKpMin : Option K := none
  positive : 0 < startPosTolRad ∧ 0 < abortPosErrRad ∧ 0 < holdRelatchRad
  ordered : ∀ b ∈ position, ∀ j, b.1 j < b.2 j
  moving : ∀ l ∈ velocityLimits, ∀ j, 0 < l j
  speeding : ∀ l ∈ accelerationLimits, ∀ j, 0 < l j
  sprung : ∀ k ∈ cartesianKpMin, 0 < k

/-- position rounding -/
def envelopeTol : K := 1 / 10 ^ 8

/-- rounding of speeds and accelerations -/
def limitTol : K := 1 / 10 ^ 8

structure PlanArrays (K : Type) where
  times : NdArray K
  positions : NdArray K
  velocities : NdArray K
  kp : NdArray K
  kd : NdArray K
  cartesianPoses : Option (NdArray K) := none
  /-- a Cartesian spec, as `cartesian_values` judges it -/
  cartesian : Option (Except String Unit) := none

/-- why a plan may not run -/
inductive PlanError (K : Type) where
  | columns (n : ℕ)
  | shapes
  | times
  | envelope
  | velocity
  | acceleration
  | curveEnvelope
  | curveVelocity
  | curveAcceleration
  | gains (key : String)
  | poses
  | cartesian (text : String)
  | noCartesian
  | limp (least : K)
  | start (error tol : K)
  /-- `np.max` of no joints raises -/
  | empty

/-- `fixed` is `:.3f`, `general` is `:g` -/
def PlanError.text (fixed general : K → String) : PlanError K → String
  | .columns n => s!"trajectory must have {n} joint columns"
  | .shapes => "trajectory has invalid sample shapes"
  | .times => "trajectory times must be strictly increasing"
  | .envelope => "trajectory outside configured position/velocity safety envelope"
  | .velocity => "trajectory exceeds configured joint velocity limits"
  | .acceleration => "trajectory exceeds configured joint acceleration limits"
  | .curveEnvelope => "interpolated trajectory leaves the position envelope between waypoints"
  | .curveVelocity => "interpolated trajectory exceeds joint velocity limits between waypoints"
  | .curveAcceleration => "interpolated trajectory exceeds joint acceleration limits between waypoints"
  | .gains key => s!"trajectory {key} must be a nonnegative joint vector"
  | .poses => "Cartesian trajectory poses must be finite sample-by-7 values"
  | .cartesian text => s!"Cartesian impedance spec refused: {text}"
  | .noCartesian => "this robot's execution policy admits no Cartesian legs (no cartesian_kp_min)"
  | .limp least =>
    s!"a Cartesian leg needs joint kp >= {general least} on every joint: the fault hold keeps only the joint law"
  | .start error tol =>
    s!"start point {fixed error} rad from measured pose (tol {general tol}) — re-plan"
  | .empty => "zero-size array to reduction operation maximum which has no identity"

namespace PlanArrays

/-- the knots strictly between the first and the last -/
def inner (plan : PlanArrays K) : ℕ := plan.times.len - 2

def Increasing (plan : PlanArrays K) : Prop := ∀ i : Fin (plan.inner + 1), plan.times.item i < plan.times.item (i + 1)

instance (plan : PlanArrays K) : Decidable plan.Increasing := inferInstanceAs (Decidable (∀ _, _))

/-- `JointTrajectory(times, positions, velocities)` of checked arrays -/
def curve (plan : PlanArrays K) (n : ℕ) (h : plan.Increasing) : JointTrajectory K n where
  inner := plan.inner
  times := fun k => plan.times.item k
  positions := fun k j => plan.positions.entry k j
  velocities := some fun k j => plan.velocities.entry k j
  increasing := h

end PlanArrays

namespace ExecutionPolicy
variable {n : ℕ} (policy : ExecutionPolicy K n)

/-- the admissible band, widened per joint to the poses where they already lie outside -/
def envelope (poses : List (Fin n → K)) : Option ((Fin n → K) × (Fin n → K)) :=
  policy.position.map fun b =>
    (fun j => poses.foldl (fun m q => min m (q j)) (b.1 j), fun j => poses.foldl (fun m q => max m (q j)) (b.2 j))

/-- a position outside the band -/
def outside (band : Option ((Fin n → K) × (Fin n → K))) (low high : Fin n → K) : Prop :=
  ∃ b ∈ band, ∃ j, low j < b.1 j - envelopeTol ∨ b.2 j + envelopeTol < high j

/-- a value beyond its limit -/
def beyond (limits : Option (Fin n → K)) (x : Fin n → K) : Prop := ∃ l ∈ limits, ∃ j, l j + limitTol < x j

instance (band : Option ((Fin n → K) × (Fin n → K))) (low high : Fin n → K) : Decidable (outside band low high) :=
  match band with
  | none => isFalse fun ⟨_, hb, _⟩ => nomatch hb
  | some b => decidable_of_iff (∃ j, low j < b.1 j - envelopeTol ∨ b.2 j + envelopeTol < high j)
      ⟨fun h => ⟨b, rfl, h⟩, fun ⟨_, hb, h⟩ => Option.some.inj hb ▸ h⟩

instance (limits : Option (Fin n → K)) (x : Fin n → K) : Decidable (beyond limits x) :=
  match limits with
  | none => isFalse fun ⟨_, hl, _⟩ => nomatch hl
  | some l => decidable_of_iff (∃ j, l j + limitTol < x j) ⟨fun h => ⟨l, rfl, h⟩, fun ⟨_, hl, h⟩ => Option.some.inj hl ▸ h⟩

/-- the live start pose, checked again at a release -/
def startError (start measured : Fin n → K) : Option (PlanError K) :=
  if h : 0 < n then
    let error := Finset.univ.sup' (univ_nonempty h) fun j => |start j - measured j|
    if error ≤ policy.startPosTolRad then none else some (.start error policy.startPosTolRad)
  else some .empty

/-- the waypoints and their chords -/
def sampledError (curve : JointTrajectory K n) (band : Option ((Fin n → K) × (Fin n → K))) : Option (PlanError K) :=
  let v := curve.velocities.getD fun _ _ => 0
  if ∃ k, outside band (curve.positions k) (curve.positions k) then some .envelope
  else if (∃ k, beyond policy.velocityLimits fun j => |v k j|) ∨ ∃ i, beyond policy.velocityLimits fun j =>
      |(curve.positions i.succ j - curve.positions i.castSucc j) / curve.width i| then some .velocity
  else if ∃ i, beyond policy.accelerationLimits fun j => |(v i.succ j - v i.castSucc j) / curve.width i| then
    some .acceleration
  else none

/-- the curve between them -/
def curveError (bounds : CurveBounds K n) (band : Option ((Fin n → K) × (Fin n → K))) : Option (PlanError K) :=
  if outside band bounds.qMin bounds.qMax then some .curveEnvelope
  else if beyond policy.velocityLimits bounds.qdAbsMax then some .curveVelocity
  else if beyond policy.accelerationLimits bounds.qddAbsMax then some .curveAcceleration
  else none

/-- the gains and the Cartesian part -/
def lawError (plan : PlanArrays K) : Option (PlanError K) :=
  if plan.kp.shape ≠ [n] ∨ ∃ x ∈ plan.kp.data, x < 0 then some (.gains "kp")
  else if plan.kd.shape ≠ [n] ∨ ∃ x ∈ plan.kd.data, x < 0 then some (.gains "kd")
  else if ∃ p ∈ plan.cartesianPoses, p.shape ≠ [plan.times.len, 7] then some .poses
  else match plan.cartesian, policy.cartesianKpMin with
    | none, _ => none
    | some (.error text), _ => some (.cartesian text)
    | some (.ok ()), none => some .noCartesian
    | some (.ok ()), some least => if ∃ x ∈ plan.kp.data, x < least then some (.limp least) else none

/-- why `plan` may not run; `been` are the poses that the band widens to -/
def planError (sqrt : K → K) (plan : PlanArrays K) (measured : Fin n → K) (been : Option (List (Fin n → K))) :
    Option (PlanError K) :=
  if plan.positions.ndim ≠ 2 ∨ plan.positions.columns ≠ n then some (.columns n)
  else if plan.times.ndim ≠ 1 ∨ plan.times.len < 2 ∨ plan.times.len ≠ plan.positions.len ∨
      plan.velocities.shape ≠ plan.positions.shape then some .shapes
  else if h : plan.Increasing then
    let curve := plan.curve n h
    let band := policy.envelope (been.getD [measured])
    policy.sampledError curve band |>.or (policy.curveError (curve.bounds sqrt) band) |>.or (policy.lawError plan)
      |>.or (policy.startError (curve.positions 0) measured)
  else some .times

end ExecutionPolicy

end

end ArmControl.Control
