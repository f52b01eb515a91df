import ArmControl.Motion.Types
import Mathlib.Algebra.BigOperators.Fin

/-!
# Retiming of a route (`planning/retiming.py`)

* `blendedPath`        segments of lines and parabolas, `tangent` for the derivative;
* `Toppra`             the timing of a path, as a parameter;
* `timePath`           one stretch from rest to rest, sampled so finely that cubics follow it;
* `boundTrajectory`    uniform slowing down to the limits;
* `timeParameterizeBlended`  the parts between cusps, one after the other.

Arithmetic is that of an ordered field `K`, with its square root as a parameter; every number is finite.
-/

namespace ArmControl.Planning

open ArmControl.Motion

namespace Retiming

section
variable {K : Type} [Field K] [LinearOrder K] {n : ℕ}

/-- `np.linalg.norm` -/
def euclid (sqrt : K → K) (v : Fin n → K) : K := sqrt (∑ j, v j * v j)

def interpolationTolerance : K := 1 / 10 ^ 6

/-! ## the blended path -/

/-- a row of `coefficients` and its span -/
structure Piece (K : Type) (n : ℕ) where
  start : Fin n → K
  linear : Fin n → K
  quad : Fin n → K
  span : K

namespace Piece

/-- the path, order 0 -/
def value (p : Piece K n) (u : K) : Fin n → K := p.start + u • (p.linear + u • p.quad)

/-- the path, order 1 -/
def tangent (p : Piece K n) (u : K) : Fin n → K := p.span⁻¹ • (p.linear + (2 * u) • p.quad)

end Piece

/-- a line from `previous`, unless it is too short -/
def line (sqrt : K → K) (previous stop : Fin n → K) : List (Piece K n) :=
  let distance := euclid sqrt (stop - previous)
  if 1 / 10 ^ 12 < distance then [⟨previous, stop - previous, 0, distance⟩] else []

/-- from `previous`, somewhere on the first leg, over the corners of the others -/
def blends (sqrt : K → K) (tolerance : K) (previous : Fin n → K) : List (Fin n → K) → List (Piece K n)
  | a :: b :: c :: rest =>
    let incoming := (euclid sqrt (b - a))⁻¹ • (b - a)
    let outgoing := (euclid sqrt (c - b))⁻¹ • (c - b)
    -- every control point of the parabola is within `trim` of the corner
    let trim := min tolerance (min (1 / 4 * euclid sqrt (b - a)) (1 / 4 * euclid sqrt (c - b)))
    let start := b - trim • incoming
    let stop := b + trim • outgoing
    line sqrt previous start ++
      ⟨start, (2 * trim) • incoming, trim • (outgoing - incoming), 2 * trim⟩ :: blends sqrt tolerance stop (b :: c :: rest)
  | [_, b] => line sqrt previous b
  | _ => []

/-- `_BlendedPath` -/
def blendedPath (sqrt : K → K) (waypoints : List (Fin n → K)) (tolerance : K) : List (Piece K n) :=
  blends sqrt tolerance (waypoints.headD 0) waypoints

/-- the piece at `s` and the fraction of it; a knot belongs to the piece behind it, the last one to the last piece -/
def locate : List (Piece K n) → K → Option (Piece K n × K)
  | [], _ => none
  | [p], s => some (p, s / p.span)
  | p :: q :: rest, s => if s < p.span then some (p, s / p.span) else locate (q :: rest) (s - p.span)

def pathValue (path : List (Piece K n)) (s : K) : Fin n → K := (locate path s).elim 0 fun p => p.1.value p.2

def pathTangent (path : List (Piece K n)) (s : K) : Fin n → K := (locate path s).elim 0 fun p => p.1.tangent p.2

/-! ## timing -/

/-- what the planner needs of TOPPRA -/
structure Toppra (K : Type) (n : ℕ) where
  /-- `compute_parameterization` of a path, at the points of a grid, for limits of velocity and acceleration -/
  speed : List (Piece K n) → List K → (Fin n → K) → (Fin n → K) → Option (List K)
  /-- `ParametrizeConstAccel`: position and velocity at a time -/
  reference : List (Piece K n) → List K → List K → K → (Fin n → K) × (Fin n → K)

/-- an interval of the grid, with the speeds at its ends -/
structure Stretch (K : Type) where
  start : K
  width : K
  s0 : K
  s1 : K
  x0 : K
  x1 : K

namespace Stretch

def arc (st : Stretch K) (τ : K) : K := st.s0 + st.x0 * τ + (st.x1 - st.x0) / (2 * st.width) * τ ^ 2

def speed (st : Stretch K) (τ : K) : K := st.x0 + (st.x1 - st.x0) / st.width * τ

end Stretch

/-- the times of the intervals -/
def stretches (t : K) : List K → List K → List (Stretch K)
  | s0 :: s1 :: grid, x0 :: x1 :: speed =>
    let width := 2 * (s1 - s0) / (x0 + x1)
    ⟨t, width, s0, s1, x0, x1⟩ :: stretches (t + width) (s1 :: grid) (x1 :: speed)
  | _, _ => []

variable [FloorRing K]

/-- every boundary of the path and some points between them, from `start` -/
def gridFrom (ds start : K) : List (Piece K n) → List K
  | [] => [start]
  | p :: rest =>
    (linspace start (start + p.span) (max 4 ⌈p.span / ds⌉₊ + 1)).dropLast ++ gridFrom ds (start + p.span) rest

section
variable (sqrt : K → K) (reference : K → (Fin n → K) × (Fin n → K))

/-- how far the cubic over an interval is from the curve, at its midpoint -/
def midpointError (st : Stretch K) : K :=
  let a := st.start
  let b := st.start + st.width
  let hermiteMidpoint := (1 / 2 : K) • ((reference a).1 + (reference b).1) + (st.width / 8) • ((reference a).2 - (reference b).2)
  euclid sqrt ((reference ((1 / 2) * (a + b))).1 - hermiteMidpoint)

/-- parts for which a cubic is good enough -/
def divisions (st : Stretch K) : ℕ := max 1 ⌈sqrt (sqrt (midpointError sqrt reference st / interpolationTolerance))⌉₊

/-- the times of the knots -/
def samples (stop : K) : List (Stretch K) → List K
  | [] => [stop]
  | st :: rest =>
    (linspace st.start (st.start + st.width) (divisions sqrt reference st + 1)).dropLast ++ samples (st.start + st.width) rest

end

end

/-! ## trajectories -/

structure Knot (K : Type) (n : ℕ) where
  time : K
  position : Fin n → K
  velocity : Fin n → K

section
variable {K : Type} [Field K] [LinearOrder K] {n : ℕ}

instance : DecidableRel (fun k k' : Knot K n => k.time < k'.time) := fun k k' => inferInstanceAs (Decidable (k.time < k'.time))

/-- `JointTrajectory(times, positions, velocities)` -/
def ofKnots : List (Knot K n) → Except String (JointTrajectory K n)
  | a :: b :: rest =>
    if h : (a :: b :: rest).IsChain fun k k' => k.time < k'.time then
      .ok {
        inner := rest.length
        times := fun k => ((a :: b :: rest).get k).time
        positions := fun k => ((a :: b :: rest).get k).position
        velocities := some fun k => ((a :: b :: rest).get k).velocity
        increasing := fun i => List.isChain_iff_getElem.mp h i.val (Nat.succ_lt_succ i.isLt) }
    else .error "times must be strictly increasing"
  | _ => .error "trajectory must contain at least two points"

/-- the knots of a trajectory with velocities -/
def knots (traj : JointTrajectory K n) : List (Knot K n) :=
  List.ofFn fun k => ⟨traj.times k, traj.positions k, traj.velocities.elim 0 fun v => v k⟩

/-- the first and the last knot are exact and at rest -/
def atRest (first last : Fin n → K) (ks : List (Knot K n)) : List (Knot K n) :=
  ks.mapIdx fun i k =>
    if i = 0 then { k with position := first, velocity := 0 }
    else if i + 1 = ks.length then { k with position := last, velocity := 0 }
    else k

/-- `np.max` over the joints; there is none without joints -/
def jointMax (f : Fin n → K) : Option K :=
  if h : 0 < n then some (Finset.univ.sup' (univ_nonempty h) f) else none

variable [IsStrictOrderedRing K]

/-- the same curve, `scale` times slower -/
def slowed (traj : JointTrajectory K n) (scale : K) (h : 0 < scale) : JointTrajectory K n where
  inner := traj.inner
  times := fun k => traj.times k * scale
  positions := traj.positions
  velocities := traj.velocities.map fun v k j => v k j / scale
  increasing := fun i => mul_lt_mul_of_pos_right (traj.increasing i) h

/-- how much slower a trajectory has to be -/
def slowdown (sqrt : K → K) (b : CurveBounds K n) (maxVel maxAcc : Fin n → K) : Option K := do
  let v ← jointMax fun j => b.qdAbsMax j / maxVel j
  let a ← jointMax fun j => b.qddAbsMax j / maxAcc j
  some (max (max 1 v) (sqrt a))

theorem slowdown_pos {scale : K} (h : 1 < scale) : 0 < scale * (1 + 1 / 10 ^ 10) := by
  have := zero_lt_one.trans h
  positivity

/-- slowed down just enough; the curve that comes out is checked once more -/
def boundTrajectory (sqrt : K → K) (traj : JointTrajectory K n) (maxVel maxAcc : Fin n → K) :
    Except String (JointTrajectory K n) :=
  match slowdown sqrt (traj.bounds sqrt) maxVel maxAcc with
  | none => .error "zero-size array to reduction operation maximum which has no identity"
  | some scale =>
    let bounded := if h : 1 < scale then slowed traj (scale * (1 + 1 / 10 ^ 10)) (slowdown_pos h) else traj
    let final := bounded.bounds sqrt
    if (∃ j, maxVel j + 1 / 10 ^ 8 < final.qdAbsMax j) ∨ ∃ j, maxAcc j + 1 / 10 ^ 8 < final.qddAbsMax j then
      .error "executed cubic exceeds operating limits after timing"
    else .ok bounded

/-! ## one part -/

variable [FloorRing K]

/-- `_time_path` -/
def timePath (sqrt : K → K) (toppra : Toppra K n) (vmax amax : Fin n → K) (ds tolerance : K) (waypoints : List (Fin n → K)) :
    Except String (JointTrajectory K n) :=
  let path := blendedPath sqrt waypoints tolerance
  let grid := gridFrom ds 0 path
  match toppra.speed path grid vmax amax with
  | none => .error "TOPPRA could not find a finite rest-to-rest timing"
  | some speed =>
    if ∃ x ∈ speed, x < 0 then .error "TOPPRA could not find a finite rest-to-rest timing"
    else if ∃ p ∈ speed.zip speed.tail, p.1 + p.2 ≤ 0 then .error "TOPPRA returned an interval with no forward progress"
    else
      let reference := toppra.reference path grid speed
      let ts := samples sqrt reference 0 (stretches 0 grid speed)
      let ks := ts.map fun t => Knot.mk t (reference t).1 (reference t).2
      (ofKnots (atRest (waypoints.headD 0) (waypoints.getLastD 0) ks)).bind fun traj => boundTrajectory sqrt traj vmax amax

/-! ## the route -/

/-- a waypoint is kept when it is away from the one before it -/
def keepAfter (sqrt : K → K) : (Fin n → K) → List (Fin n → K) → List (Fin n → K)
  | _, [] => []
  | a, b :: rest => if 1 / 10 ^ 12 < euclid sqrt (b - a) then b :: keepAfter sqrt b rest else keepAfter sqrt b rest

def distinct (sqrt : K → K) : List (Fin n → K) → List (Fin n → K)
  | [] => []
  | a :: rest => a :: keepAfter sqrt a rest

/-- the route turns back at `b` -/
def cusp (sqrt : K → K) (a b c : Fin n → K) : Prop :=
  euclid sqrt ((euclid sqrt (b - a))⁻¹ • (b - a) + (euclid sqrt (c - b))⁻¹ • (c - b)) < 1 / 10 ^ 8

instance (sqrt : K → K) (a b c : Fin n → K) : Decidable (cusp sqrt a b c) := inferInstanceAs (Decidable (_ < _))

/-- the parts between the cusps; a cusp ends one and begins the next -/
def splitCusps (sqrt : K → K) : List (Fin n → K) → List (List (Fin n → K))
  | a :: b :: c :: rest =>
    if cusp sqrt a b c then [a, b] :: splitCusps sqrt (b :: c :: rest)
    else
      match splitCusps sqrt (b :: c :: rest) with
      | [] => []
      | part :: parts => (a :: part) :: parts
  | [a, b] => [[a, b]]
  | _ => []

/-- one part after the other, the knot between two of them once -/
def joinParts (offset : K) (start : ℕ) : List (JointTrajectory K n) → List (Knot K n)
  | [] => []
  | part :: parts =>
    ((knots part).drop start).map (fun k => { k with time := k.time + offset }) ++ joinParts (offset + part.duration) 1 parts

def timeParameterizeBlended (sqrt : K → K) (toppra : Toppra K n) (waypoints : List (Fin n → K)) (maxVel maxAcc : Fin n → K)
    (ds blendTolerance : K) : Except String (JointTrajectory K n) :=
  if waypoints.length < 2 ∨ n = 0 then .error "waypoints must be finite (N>=2, n_dof)"
  else if (∃ j, maxVel j ≤ 0) ∨ ∃ j, maxAcc j ≤ 0 then .error "max_vel/max_acc must be finite positive joint vectors"
  else if ds ≤ 0 ∨ blendTolerance ≤ 0 then .error "ds and blend_tolerance_rad must be finite and positive"
  else
    let wps := distinct sqrt waypoints
    if wps.length < 2 then .error "waypoints describe zero motion"
    else
      ((splitCusps sqrt wps).mapM (timePath sqrt toppra maxVel maxAcc ds blendTolerance)).bind fun parts =>
        (ofKnots (joinParts 0 0 parts)).bind fun traj => boundTrajectory sqrt traj maxVel maxAcc

end

end Retiming

end ArmControl.Planning
