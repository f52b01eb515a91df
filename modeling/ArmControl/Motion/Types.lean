import ArmControl.Lib.CubicArc
import Mathlib.Algebra.Order.Floor.Ring
import Mathlib.Data.Finset.Lattice.Fold

/-!
# Sampled trajectories (`motion/types.py`)

* `JointTrajectory`   knots at strictly increasing times, with or without velocities;
* `sampleAt`          one point of the cubic Hermite through them;
* `bounds`            the extrema of the flown curve in closed form;
* `densify`           positions along it, no joint moving more than a step.

Arithmetic is that of an ordered field `K`, with its square root as a parameter.
-/

namespace ArmControl.Motion

/-- an arm with joints has a first one -/
theorem univ_nonempty {n : ℕ} (h : 0 < n) : (Finset.univ : Finset (Fin n)).Nonempty := ⟨⟨0, h⟩, Finset.mem_univ _⟩

structure TrajectoryPoint (K : Type) (n : ℕ) where
  time : K
  position : Fin n → K
  velocity : Fin n → K
  acceleration : Fin n → K

/-- at least two knots -/
structure JointTrajectory (K : Type) [LT K] (n : ℕ) where
  /-- the knots between the first and the last one -/
  inner : ℕ
  times : Fin (inner + 2) → K
  positions : Fin (inner + 2) → Fin n → K
  velocities : Option (Fin (inner + 2) → Fin n → K) := none
  increasing : ∀ i : Fin (inner + 1), times i.castSucc < times i.succ

/-- `bounds`, a value for each joint -/
structure CurveBounds (K : Type) (n : ℕ) where
  qMin : Fin n → K
  qMax : Fin n → K
  qdAbsMax : Fin n → K
  qddAbsMax : Fin n → K

section
variable {K : Type} [Field K] [LinearOrder K] {n : ℕ}

/-! ## one segment -/

/-- a coefficient below this counts as zero -/
def tiny : K := 1 / 10 ^ 300

/-- the stationary point that `sign` selects, when it lies inside the segment -/
def stationary (sqrt : K → K) (p : CubicArc K) (sign : K) : Option K :=
  let a := 3 * p.c3
  let b := 2 * p.c2
  let disc := b * b - 4 * a * p.c1
  let root := sqrt (if 0 < disc then disc else 0)
  let s := if tiny < |a| then some ((-b + sign * root) / (2 * a)) else if tiny < |b| then some (-p.c1 / b) else none
  (if 0 < disc ∨ |a| ≤ tiny then s else none).filter fun s => 0 < s ∧ s < 1

/-- the position there, or at the start -/
def candidate (sqrt : K → K) (p : CubicArc K) (sign : K) : K := p.value ((stationary sqrt p sign).getD 0)

def lowest (sqrt : K → K) (p : CubicArc K) : K :=
  min (min (p.value 0) (p.value 1)) (min (candidate sqrt p 1) (candidate sqrt p (-1)))

def highest (sqrt : K → K) (p : CubicArc K) : K :=
  max (max (p.value 0) (p.value 1)) (max (candidate sqrt p 1) (candidate sqrt p (-1)))

/-- where the speed turns, when that is inside the segment -/
def turning (p : CubicArc K) : Option K :=
  (if tiny < |p.c3| then some (-p.c2 / (3 * p.c3)) else none).filter fun s => 0 < s ∧ s < 1

def fastest (p : CubicArc K) (h : K) : K :=
  max (max |p.slope 0 / h| |p.slope 1 / h|)
    (match turning p with
      | none => 0
      | some s => |p.slope s / h|)

def sharpest (p : CubicArc K) (h : K) : K := max (|2 * p.c2| / (h * h)) (|6 * p.c3 + 2 * p.c2| / (h * h))

/-- `np.linspace` -/
def linspace (start stop : K) (num : ℕ) : List K :=
  (List.range num).map fun i : ℕ => start + (i : K) * ((stop - start) / ((num - 1 : ℕ) : K))

namespace JointTrajectory
variable (traj : JointTrajectory K n)

def duration : K := traj.times (Fin.last _) - traj.times 0

/-! ## the point at a time -/

/-- at a knot, at rest in acceleration: off the ends the trajectory is over -/
def point (k : Fin (traj.inner + 2)) : TrajectoryPoint K n where
  time := traj.times k
  position := traj.positions k
  velocity := match traj.velocities with
    | none => fun _ => 0
    | some v => v k
  acceleration := fun _ => 0

/-- `np.searchsorted(times, t, side="right")` -/
def upper (t : K) : ℕ := (Finset.univ.filter fun k => traj.times k ≤ t).card

def width (i : Fin (traj.inner + 1)) : K := traj.times i.succ - traj.times i.castSucc

/-- the point of a segment: the chord, or the cubic Hermite -/
def within (i : Fin (traj.inner + 1)) (t : K) : TrajectoryPoint K n :=
  let h := traj.width i
  let s := (t - traj.times i.castSucc) / h
  let q0 := traj.positions i.castSucc
  let q1 := traj.positions i.succ
  match traj.velocities with
  | none =>
    { time := t
      position := fun j => q0 j + s * (q1 j - q0 j)
      velocity := fun j => (q1 j - q0 j) / h
      acceleration := fun _ => 0 }
  | some v =>
    let v0 := v i.castSucc
    let v1 := v i.succ
    let s2 := s * s
    let s3 := s * s * s
    { time := t
      position := fun j =>
        q0 j + (3 * s2 - 2 * s3) * (q1 j - q0 j) + h * ((s3 - 2 * s2 + s) * v0 j + (s3 - s2) * v1 j)
      velocity := fun j =>
        (6 * s - 6 * s2) * (q1 j - q0 j) / h + (3 * s2 - 4 * s + 1) * v0 j + (3 * s2 - 2 * s) * v1 j
      acceleration := fun j =>
        (6 - 12 * s) * (q1 j - q0 j) / (h * h) + ((6 * s - 4) * v0 j + (6 * s - 2) * v1 j) / h }

/-- one reference state off one polynomial -/
def sampleAt (t : K) : TrajectoryPoint K n :=
  if t ≤ traj.times 0 then traj.point 0
  else if traj.times (Fin.last _) ≤ t then traj.point (Fin.last _)
  else traj.within (Fin.ofNat _ (traj.upper t - 1)) t

/-! ## the extrema of the curve -/

/-- a joint's segment over `[0, 1]` -/
def arc (i : Fin (traj.inner + 1)) (j : Fin n) : CubicArc K :=
  let h := traj.width i
  let q0 := traj.positions i.castSucc j
  let q1 := traj.positions i.succ j
  let v0 := match traj.velocities with
    | none => (q1 - q0) / h
    | some v => v i.castSucc j
  let v1 := match traj.velocities with
    | none => (q1 - q0) / h
    | some v => v i.succ j
  ⟨q0, h * v0, -3 * q0 - 2 * h * v0 + 3 * q1 - h * v1, 2 * q0 + h * v0 - 2 * q1 + h * v1⟩

/-- exact, from the coefficients of every segment -/
def bounds (sqrt : K → K) : CurveBounds K n where
  qMin := fun j => Finset.univ.inf' ⟨0, Finset.mem_univ _⟩ fun i => lowest sqrt (traj.arc i j)
  qMax := fun j => Finset.univ.sup' ⟨0, Finset.mem_univ _⟩ fun i => highest sqrt (traj.arc i j)
  qdAbsMax := fun j => max 0 (Finset.univ.sup' ⟨0, Finset.mem_univ _⟩ fun i => fastest (traj.arc i j) (traj.width i))
  qddAbsMax := fun j => max 0 (Finset.univ.sup' ⟨0, Finset.mem_univ _⟩ fun i => sharpest (traj.arc i j) (traj.width i))

/-- the greatest speed of all joints; there is none without joints -/
def peak (sqrt : K → K) : Option K :=
  if h : 0 < n then some (Finset.univ.sup' (univ_nonempty h) (traj.bounds sqrt).qdAbsMax) else none

/-! ## positions along the flown curve -/

def densify [FloorRing K] (sqrt : K → K) (maxStep : K) : Except String (List (Fin n → K)) :=
  if ¬ 0 < maxStep then .error "max_step_rad must be positive"
  else match traj.peak sqrt with
    | none => .error "zero-size array to reduction operation maximum which has no identity"
    | some peak =>
      if peak ≤ 0 ∨ traj.duration ≤ 0 then .ok [traj.positions 0, traj.positions (Fin.last _)]
      else
        let steps := ⌈traj.duration * peak / maxStep⌉₊
        .ok ((linspace (traj.times 0) (traj.times (Fin.last _)) (max steps 1 + 1)).map fun t => (traj.sampleAt t).position)

end JointTrajectory

end

end ArmControl.Motion
