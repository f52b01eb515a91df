import Mathlib.Algebra.Order.Field.Basic
import Mathlib.Algebra.Order.Ring.Rat

/-!
# Jogs (`control/jog_hold.py`)

* `JogHold`    the setpoint and its freshness: `set`, `clear`, `target`, `takeExpired`;
* `JogRamp`    the saturation of a streamed target, a joint at a time: `advance`, `saturate`, `step`.

Arithmetic is that of an ordered field `K`, with its square root as a parameter.
-/

namespace ArmControl.Control

section
variable {K α : Type}

/-- the current jog setpoint, valid only while it keeps being renewed -/
structure JogHold (K α : Type) [Zero K] [LT K] (n : ℕ) where
  timeoutS : K
  positive : 0 < timeoutS
  q : Option (Fin n → α) := none
  setAt : K
  expired : Bool := false

namespace JogHold
variable [Zero K] [LT K] {n : ℕ}

/-- renew the setpoint; a wrong width is a bug, not a stale jog -/
def set (h : JogHold K α n) (q : List α) (now : K) : Except String (JogHold K α n) :=
  if hq : q.length = n then .ok { h with q := some fun j => q[j.val], setAt := now }
  else .error s!"jog q must have {n} values, got {q.length}"

/-- drop the jog without raising the expiry latch -/
def clear (h : JogHold K α n) : JogHold K α n := { h with q := none, expired := false }

/-- a jog is held, fresh or not -/
def active (h : JogHold K α n) : Bool := h.q.isSome

/-- the held setpoint; crossing the timeout raises the expiry latch -/
def target [Sub K] [DecidableLT K] (h : JogHold K α n) (now : K) : Option (Fin n → α) × JogHold K α n :=
  match h.q with
  | none => (none, h)
  | some q => if h.timeoutS < now - h.setAt then (none, { h with q := none, expired := true }) else (some q, h)

/-- true once an expiry -/
def takeExpired (h : JogHold K α n) : Bool × JogHold K α n := (h.expired, { h with expired := false })

end JogHold

end

section
variable {K : Type} [Field K] [LinearOrder K]

/-- `np.clip` -/
def clip (x lower upper : K) : K := min (max x lower) upper

/-- what the ramp knows of one joint -/
structure JointLimits (K : Type) where
  vMax : K
  aMax : K
  bounds : Option (K × K)

namespace JointLimits

/-- the fastest speed from which braking at `a_max`, one tick at a time, still stops on the target -/
def cap (sqrt : K → K) (l : JointLimits K) (dt error : K) : K :=
  min l.vMax (l.aMax * dt * (sqrt (1 / 4 + 2 * |error| / (l.aMax * dt * dt)) - 1 / 2))

/-- the next speed, before the exact landing -/
def demand (sqrt : K → K) (l : JointLimits K) (dt error v : K) : K :=
  clip (clip (error / dt) (-l.cap sqrt dt error) (l.cap sqrt dt error)) (v - l.aMax * dt) (v + l.aMax * dt)

/-- the next speed: it would carry past the target, and a stop there is itself within the limit -/
def speed (sqrt : K → K) (l : JointLimits K) (dt error v : K) : K :=
  if (error - l.demand sqrt dt error v * dt) * error < 0 ∧ |error / dt - v| ≤ l.aMax * dt then error / dt
  else l.demand sqrt dt error v

/-- the bounds, as far out as the target or the command already is -/
def band (l : JointLimits K) (target q : K) : Option (K × K) :=
  l.bounds.map fun b => (min b.1 (min target q), max b.2 (max target q))

/-- past a bound -/
def stopped (l : JointLimits K) (target q next : K) : Bool :=
  match l.band target q with
  | none => false
  | some b => decide (next < b.1 ∨ b.2 < next)

/-- position and speed after a tick -/
def step (sqrt : K → K) (l : JointLimits K) (dt target q v : K) : K × K :=
  let v := l.speed sqrt dt (target - q) v
  let next := q + v * dt
  ((match l.band target q with
    | none => next
    | some b => clip next b.1 b.2),
    if l.stopped target q next then 0 else v)

end JointLimits

/-- a streamed joint target, saturated each tick -/
structure JogRamp (K : Type) [Field K] [LinearOrder K] (n : ℕ) where
  vMax : Fin n → K
  aMax : Fin n → K
  envelope : Option ((Fin n → K) × (Fin n → K)) := none
  positive : ∀ j, 0 < vMax j ∧ 0 < aMax j
  ordered : ∀ b ∈ envelope, ∀ j, b.1 j ≤ b.2 j
  q : Option (Fin n → K) := none
  v : Fin n → K := fun _ => 0

namespace JogRamp
variable {n : ℕ}

def limits (r : JogRamp K n) (j : Fin n) : JointLimits K :=
  ⟨r.vMax j, r.aMax j, r.envelope.map fun b => (b.1 j, b.2 j)⟩

/-- no jog: the next one starts from the measured pose, at rest -/
def reset (r : JogRamp K n) : JogRamp K n := { r with q := none }

/-- where the ramp is, and how fast -/
def position (r : JogRamp K n) (measured : Fin n → K) : Fin n → K := r.q.getD measured

def velocity (r : JogRamp K n) (j : Fin n) : K := if r.q.isSome then r.v j else 0

/-- the ramp after a tick; its `q` is the commanded target -/
def step (sqrt : K → K) (r : JogRamp K n) (target measured : Fin n → K) (dt : K) : JogRamp K n :=
  { r with
    q := some fun j => ((r.limits j).step sqrt dt (target j) (r.position measured j) (r.velocity j)).1
    v := fun j => ((r.limits j).step sqrt dt (target j) (r.position measured j) (r.velocity j)).2 }

/-- the ramp after `k` ticks of a stream -/
def run (sqrt : K → K) (r : JogRamp K n) (targets measured : ℕ → Fin n → K) (dt : K) : ℕ → JogRamp K n
  | 0 => r
  | k + 1 => (r.run sqrt targets measured dt k).step sqrt (targets k) (measured k) dt

/-- the commanded position that tick `k` starts from -/
def commanded (sqrt : K → K) (r : JogRamp K n) (targets measured : ℕ → Fin n → K) (dt : K) (k : ℕ) : Fin n → K :=
  (r.run sqrt targets measured dt k).position (measured k)

/-- the change of a joint's commanded position in tick `k`, over its length -/
def traveled (sqrt : K → K) (r : JogRamp K n) (targets measured : ℕ → Fin n → K) (dt : K) (k : ℕ) (j : Fin n) : K :=
  (r.commanded sqrt targets measured dt (k + 1) j - r.commanded sqrt targets measured dt k j) / dt

/-- that of the tick before, at rest before the first one -/
def traveledBefore (sqrt : K → K) (r : JogRamp K n) (targets measured : ℕ → Fin n → K) (dt : K) :
    ℕ → Fin n → K
  | 0, _ => 0
  | k + 1, j => r.traveled sqrt targets measured dt k j

/-- tick `k` stops a joint on a bound -/
def stopsAt (sqrt : K → K) (r : JogRamp K n) (targets measured : ℕ → Fin n → K) (dt : K) (k : ℕ) (j : Fin n) : Bool :=
  let q := r.commanded sqrt targets measured dt k j
  (r.limits j).stopped (targets k j) q
    (q + (r.limits j).speed sqrt dt (targets k j - q) ((r.run sqrt targets measured dt k).velocity j) * dt)

/-- so did the tick before -/
def stoppedBefore (sqrt : K → K) (r : JogRamp K n) (targets measured : ℕ → Fin n → K) (dt : K) :
    ℕ → Fin n → Bool
  | 0, _ => false
  | k + 1, j => r.stopsAt sqrt targets measured dt k j

end JogRamp

end

end ArmControl.Control
