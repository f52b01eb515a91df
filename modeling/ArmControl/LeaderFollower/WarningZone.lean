import Mathlib.Tactic.LinearCombination
import ArmControl.LeaderFollower.TargetGates

/-!
# The slow-down in the warning zone

`once` shrinks the step from the retargeter's previous target, which `map` has by then replaced with the
very target that is to be slowed: the step it shrinks is nothing.

* `WarnTick`         two ticks in a row that sent, the second one in the warning zone;
* `Slowed`           its target is part of the way from the last one sent, for the next tick as well;
* `warning_zone`     that is so exactly where part of the way is all of it.
-/

namespace ArmControl.LeaderFollower
open Run

/-- `p + scale * (u - p)` in every joint -/
def slowTarget (scale : Value) (prev target : List Value) : List Value :=
  prev.zipWith (fun p u => p + scale * (u - p)) target

namespace TeleopLoop

variable {σ : Type} {p : Parties σ} {g : SafetyGates} {s t : TeleopLoop σ} {now now' : ℚ} {x y : Sent}
  {target : List Value} {grip : Value}

def mappedTarget (p : Parties σ) (s : TeleopLoop σ) (now : ℚ) : Option (List Value × Value) :=
  match p.getJointState s.gate.world with
  | .ok leader _ => mapped (Retargeter.map leader now s.retargeter)
  | .error _ _ => none

/-- the tick at `now` sends `x`; the one at `now'` maps the leader to `target`, finds the other arm in the
warning zone and sends `y` -/
structure WarnTick (p : Parties σ) (g : SafetyGates) (s : TeleopLoop σ) (now now' : ℚ) (x y : Sent)
    (target : List Value) (grip : Value) : Prop where
  before : (tick p g s now).sents = s.sents ++ [x]
  map : mappedTarget p (tick p g s now) now' = some (target, grip)
  sent : (tick p g (tick p g s now) now').sents = (tick p g s now).sents ++ [y]
  above : (tick p g (tick p g s now) now').gate.monitor.lastDistance.le g.limits.collisionStopM = false
  within : (tick p g (tick p g s now) now').gate.monitor.lastDistance.le g.limits.collisionWarnM = true

/-- `y` is part of the way from `x` to `target`, and what the next tick measures from -/
structure Slowed (g : SafetyGates) (t : TeleopLoop σ) (x y : Sent) (target : List Value) : Prop where
  sent : y.arm = slowTarget g.limits.collisionSlowScale x.arm target
  rate : t.retargeter.prev = some (y.arm, y.grip)
  step : t.gate.monitor.prevTarget = some y.arm

/-! ## part of the way -/

theorem slow_fin (q a b : ℚ) : Value.fin a + .fin q * (.fin b - .fin a) = .fin (a + q * (b - a)) := by
  rw [Value.fin_sub, Value.fin_mul, Value.fin_add]

/-- part of the way is all of it -/
theorem slow_eq_iff (q a b : ℚ) : b = a + q * (b - a) ↔ q = 1 ∨ b = a := by
  constructor
  · intro h
    have hzero : (1 - q) * (b - a) = 0 := by linear_combination h
    rcases mul_eq_zero.mp hzero with hq | hb
    · exact .inl (sub_eq_zero.mp hq).symm
    · exact .inr (sub_eq_zero.mp hb)
  · rintro (rfl | rfl)
    · ring
    · ring

theorem slowTarget_eq_iff (q : ℚ) {prev : List Value} (hp : ∀ v ∈ prev, v.isFinite = true)
    (ht : ∀ v ∈ target, v.isFinite = true) (hlen : prev.length = target.length) :
    target = slowTarget (.fin q) prev target ↔ q = 1 ∨ target = prev := by
  induction prev generalizing target with
  | nil =>
    cases target with
    | nil => exact ⟨fun _ => .inr rfl, fun _ => rfl⟩
    | cons b bs => exact absurd hlen nofun
  | cons a as ih =>
    cases target with
    | nil => exact absurd hlen nofun
    | cons b bs =>
      obtain ⟨r, rfl⟩ := Value.isFinite_iff.mp (hp a List.mem_cons_self)
      obtain ⟨u, rfl⟩ := Value.isFinite_iff.mp (ht b List.mem_cons_self)
      have hrest := ih (fun v hv => hp v (List.mem_cons_of_mem _ hv)) (fun v hv => ht v (List.mem_cons_of_mem _ hv))
        (Nat.succ.inj hlen)
      have hcons : slowTarget (.fin q) (.fin r :: as) (.fin u :: bs) =
          .fin (r + q * (u - r)) :: slowTarget (.fin q) as bs := by
        rw [← slow_fin]
        rfl
      rw [hcons, List.cons_eq_cons, List.cons_eq_cons, Value.fin.injEq, Value.fin.injEq, slow_eq_iff, hrest]
      tauto

/-- a scale that is no number leaves no number -/
theorem slow_not_finite {scale a b : Value} (hs : scale.isFinite = false) (hb : b.isFinite = true) :
    b ≠ a + scale * (b - a) := by
  intro h
  obtain ⟨u, rfl⟩ := Value.isFinite_iff.mp hb
  obtain ⟨a', m, rfl, hm, -⟩ := Value.eq_fin_of_add h.symm
  obtain ⟨q, -, rfl, -, -⟩ := Value.eq_fin_of_mul hm
  cases hs

/-! ## the two ticks -/

theorem tick_spec (p : Parties σ) (g : SafetyGates) (s : TeleopLoop σ) (now : ℚ) : Tick p g s now (tick p g s now) :=
  Effect.holds_iff.mp once_spec

/-- a tick that sends is one that a mapped target passed -/
theorem sends_of_sent (h : (tick p g s now).sents = s.sents ++ [x]) :
    ∃ target grip, mappedTarget p s now = some (target, grip) ∧ Sends p g s now (tick p g s now) target grip := by
  rcases tick_spec p g s now with hu | ⟨leader, target, grip, w, r, hleader, hmap, hs⟩
  · rw [hu.sents] at h
    exact absurd (List.self_eq_append_right.mp h) (List.cons_ne_nil _ _)
  · refine ⟨target, grip, ?_, hs⟩
    unfold mappedTarget
    rw [hleader]
    dsimp only
    rw [hmap]
    rfl

theorem passed_target {m : SafetyMonitor} (h : m.targetRefusal g target = none) :
    target.length = g.jointLower.length ∧ ∀ v ∈ target, v.isFinite = true := by
  unfold SafetyMonitor.targetRefusal at h
  split_ifs at h with hbad
  rw [not_or, not_not, Bool.not_eq_false, List.all_eq_true] at hbad
  exact hbad

/-- a number is what the slow-down leaves unless it took minus infinity of nothing -/
theorem arm_of_sends (h : Sends p g s now t target grip) (hx : t.sents = s.sents ++ [x]) :
    x = ⟨slowed (speed g t.gate.monitor.lastDistance) target, grip, now⟩ := by
  have hlist := hx.symm.trans h.sents
  exact List.singleton_inj.mp (List.append_cancel_left hlist)

/-- **The warning zone slows the arm where there is nothing to slow.**  In every run, and in every tick of it
that follows one which sent `x` and that sends in the warning zone: the target sent is part of the way from
`x` to the mapped target, for the next tick as well, exactly if the scale is one or the target is `x`. -/
theorem warning_zone (p : Parties σ) (g : SafetyGates) (s : TeleopLoop σ) (nows : List ℚ) (now now' : ℚ) (x y : Sent)
    (target : List Value) (grip : Value) (h : WarnTick p g (Run.run (tick p g) s nows) now now' x y target grip) :
    Slowed g (Run.run (tick p g) s (nows ++ [now, now'])) x y target ↔
      g.limits.collisionSlowScale = .fin 1 ∨
        g.limits.collisionSlowScale.isFinite = true ∧ target = x.arm := by
  have hrun : Run.run (tick p g) s (nows ++ [now, now']) =
      tick p g (tick p g (Run.run (tick p g) s nows) now) now' := by
    rw [run_append, run_cons, run_cons, run_nil]
  rw [hrun]
  obtain ⟨target₁, grip₁, -, hs₁⟩ := sends_of_sent h.before
  obtain ⟨target₂, grip₂, hmap, hs₂⟩ := sends_of_sent h.sent
  obtain ⟨rfl, rfl⟩ := Prod.mk.inj (Option.some.inj (h.map.symm.trans hmap))
  obtain ⟨hlen₁, hfin₁⟩ := passed_target hs₁.passed
  obtain ⟨hlen₂, hfin₂⟩ := passed_target hs₂.passed
  have hx := arm_of_sends hs₁ h.before
  have hy := arm_of_sends hs₂ h.sent
  have hspeed : speed g (tick p g (tick p g (Run.run (tick p g) s nows) now) now').gate.monitor.lastDistance =
      g.limits.collisionSlowScale := if_pos h.within
  have hheld := hs₂.held
  rw [hspeed] at hy hheld
  cases hfin : g.limits.collisionSlowScale.isFinite with
  | true =>
    obtain ⟨q, hscale⟩ := Value.isFinite_iff.mp hfin
    have hyarm : y.arm = target := by
      rw [hy, hscale]
      exact slowed_eq hfin₂ nofun
    have hxarm : x.arm = target₁ := by
      rw [hx]
      refine slowed_eq hfin₁ ?_
      unfold speed
      split_ifs
      · rw [hscale]
        exact nofun
      · exact nofun
    have hiff := slowTarget_eq_iff q hfin₁ hfin₂ (hlen₁.trans hlen₂.symm)
    rw [hscale, Value.fin.injEq, hxarm]
    constructor
    · intro hslow
      have hsent := hslow.sent
      rw [hyarm, hscale, hxarm] at hsent
      exact (hiff.mp hsent).imp id fun heq => ⟨rfl, heq⟩
    · intro hcond
      refine ⟨?_, ?_, ?_⟩
      · rw [hyarm, hscale, hxarm]
        exact hiff.mpr (hcond.imp id And.right)
      · rw [hheld, hy]
      · rw [hs₂.prev, hyarm]
  | false =>
    constructor
    · intro hslow
      -- the monitor holds the mapped target, a list of numbers
      have hyarm : y.arm = target := (Option.some.inj (hs₂.prev.symm.trans hslow.step)).symm
      have hsent := hslow.sent
      rw [hyarm] at hsent
      have hne : target ≠ [] := by
        rintro rfl
        exact g.nonempty (List.length_eq_zero_iff.mp hlen₂.symm)
      obtain ⟨b, bs, rfl⟩ := List.exists_cons_of_ne_nil hne
      cases hxs : x.arm with
      | nil =>
        rw [hxs] at hsent
        cases hsent
      | cons a as =>
        rw [hxs] at hsent
        exact absurd (List.cons.inj hsent).1 (slow_not_finite hfin (hfin₂ b List.mem_cons_self))
    · rintro (hone | ⟨htrue, -⟩)
      · rw [hone] at hfin
        cases hfin
      · cases htrue

/-! ## an arm that creeps up -/

/-- one joint; the leader moves a tenth a tick, and the arms are 30 mm apart -/
def creeping : Parties ℕ where
  getJointState := do
    let n ← get
    set (n + 1)
    pure [.fin (n / 10)]
  leaderClose := pure ⟨⟩
  numArmJoints := 1
  followerOpen := pure ⟨⟩
  readState := pure ([.fin 0], .fin 0)
  followerSend _ _ := pure ⟨⟩
  safeStop := pure ⟨⟩
  followerClose := pure ⟨⟩
  feedback := none
  collision :=
    { setOtherState := fun _ => pure ⟨⟩
      minDistance := fun _ => pure (.fin (3 / 100))
      close := pure ⟨⟩ }
  pause := pure ⟨⟩

def creeper : TeleopLoop ℕ where
  gate := { world := 0 }
  retargeter := { joints := [{ srcIndex := 0 }], nonempty := oneMapping, alpha := .fin 1 }

theorem creeping_ticks : WarnTick creeping wide creeper 1 (11 / 10) ⟨[.fin 0], .fin 0, 1⟩
    ⟨[.fin (1 / 10)], .fin 0, 11 / 10⟩
    [.fin (1 / 10)] (.fin 0) where
  before := by decide +kernel
  map := by decide +kernel
  sent := by decide +kernel
  above := by decide +kernel
  within := by decide +kernel

/-- the arms are 30 mm apart, and the step of a tenth is sent whole -/
theorem creeping_unslowed : ¬ ∀ (p : Parties ℕ) (g : SafetyGates) (s : TeleopLoop ℕ) (nows : List ℚ) (now now' : ℚ)
    (x y : Sent) (target : List Value) (grip : Value),
    WarnTick p g (Run.run (tick p g) s nows) now now' x y target grip →
    Slowed g (Run.run (tick p g) s (nows ++ [now, now'])) x y target := by
  intro h
  have hsent := (h creeping wide creeper [] 1 (11 / 10) _ _ _ _ creeping_ticks).sent
  revert hsent
  decide +kernel

theorem warning_zone_creeping :
    Slowed wide (Run.run (tick creeping wide) creeper ([] ++ [1, 11 / 10])) ⟨[.fin 0], .fin 0, 1⟩
        ⟨[.fin (1 / 10)], .fin 0, 11 / 10⟩ [.fin (1 / 10)] ↔
      wide.limits.collisionSlowScale = .fin 1 ∨
        wide.limits.collisionSlowScale.isFinite = true ∧ [Value.fin (1 / 10)] = [.fin 0] :=
  warning_zone creeping wide creeper [] 1 (11 / 10) _ _ _ (.fin 0) creeping_ticks

end TeleopLoop

end ArmControl.LeaderFollower
