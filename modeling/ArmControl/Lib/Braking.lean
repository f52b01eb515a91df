import Mathlib.Analysis.Real.Sqrt
import Mathlib.Tactic.FieldSimp
import Mathlib.Tactic.Linarith
import Mathlib.Tactic.Positivity
import Mathlib.Tactic.Ring
import ArmControl.Lib.Numerals

/-!
# Braking in ticks

A body that loses at most `s` of its speed each tick of length `dt`.  From the speed `n * s` it needs the
distance `dt * s * n * (n + 1) / 2`, the tick itself included; `brake` is the inverse of that.

* `brake`              the greatest speed of a tick from which the body can stop within `d`;
* `le_brake_iff`       the law without its square root;
* `le_brake_near`, `le_brake_far`, `brake_near_le`   close to the end, and away from it;
* `brake_after`        a tick at no more than `brake d` leaves room to brake by `s`;
* `overshoot_slow`     only a tick slower than `s` passes the end of the distance.
-/

namespace Braking

variable {s dt d d' v : ℝ}

/-- the greatest speed of the next tick from which a stop within `d` is possible -/
noncomputable def brake (s dt d : ℝ) : ℝ := s * (√(1 / 4 + 2 * d / (s * dt)) - 1 / 2)

/-- a speed is within the law if the braking distance is within `d` -/
theorem le_brake_iff (hs : 0 < s) (hdt : 0 < dt) (hd : 0 ≤ d) (hv : 0 ≤ v) :
    v ≤ brake s dt d ↔ v * (v + s) * dt ≤ 2 * s * d := by
  have hx : 0 ≤ 1 / 4 + 2 * d / (s * dt) := by positivity
  have hy : 0 ≤ v / s + 1 / 2 := by positivity
  have hroot : v ≤ brake s dt d ↔ v / s + 1 / 2 ≤ √(1 / 4 + 2 * d / (s * dt)) := by
    unfold brake
    rw [← le_sub_iff_add_le, div_le_iff₀' hs]
  rw [hroot, Real.le_sqrt hy hx]
  have hsq : (v / s + 1 / 2) ^ 2 = 1 / 4 + v * (v + s) / s ^ 2 := by
    field_simp
    ring
  rw [hsq, add_le_add_iff_left, div_le_div_iff₀ (by positivity) (by positivity)]
  constructor
  · intro h
    have h' : s * (v * (v + s) * dt) ≤ s * (2 * s * d) := by linarith
    exact le_of_mul_le_mul_left h' hs
  · intro h
    have h' := mul_le_mul_of_nonneg_left h hs.le
    linarith

theorem brake_nonneg (hs : 0 < s) (hdt : 0 < dt) (hd : 0 ≤ d) : 0 ≤ brake s dt d := by
  rw [le_brake_iff hs hdt hd le_rfl, zero_mul, zero_mul]
  positivity

theorem brake_zero : brake s dt 0 = 0 := by
  have hroot : √(1 / 4 : ℝ) = 1 / 2 := by
    rw [show (1 / 4 : ℝ) = (1 / 2) ^ 2 by norm_num, Real.sqrt_sq (by norm_num)]
  unfold brake
  rw [mul_zero, zero_div, add_zero, hroot, sub_self, mul_zero]

theorem brake_mono (hs : 0 < s) (hdt : 0 < dt) (hd : 0 ≤ d) (hle : d ≤ d') : brake s dt d ≤ brake s dt d' := by
  have hd' := hd.trans hle
  rw [le_brake_iff hs hdt hd' (brake_nonneg hs hdt hd)]
  have h := (le_brake_iff hs hdt hd (brake_nonneg hs hdt hd)).mp le_rfl
  have hmul : 2 * s * d ≤ 2 * s * d' := by gcongr
  exact h.trans hmul

/-- within a distance that one slow tick covers, the law does not bind -/
theorem le_brake_near (hs : 0 < s) (hdt : 0 < dt) (hd : 0 ≤ d) (hnear : d ≤ s * dt) : d / dt ≤ brake s dt d := by
  rw [le_brake_iff hs hdt hd (by positivity)]
  have hle : d / dt ≤ s := (div_le_iff₀ hdt).mpr hnear
  have heq : d / dt * (d / dt + s) * dt = d * (d / dt + s) := by field_simp
  rw [heq]
  nlinarith

/-- beyond it the law leaves at least `s` -/
theorem le_brake_far (hs : 0 < s) (hdt : 0 < dt) (hfar : s * dt ≤ d) : s ≤ brake s dt d := by
  have hd : 0 ≤ d := le_trans (by positivity) hfar
  rw [le_brake_iff hs hdt hd hs.le]
  nlinarith

/-- what a tick at a speed within the law leaves: room to lose `s` -/
theorem brake_after (hs : 0 < s) (hdt : 0 < dt) (hd : 0 ≤ d) (hv : v ≤ brake s dt d) (hleft : 0 ≤ d - v * dt) :
    v - s ≤ brake s dt (d - v * dt) := by
  rcases le_or_gt s v with hsv | hvs
  · have h := (le_brake_iff hs hdt hd (hs.le.trans hsv)).mp hv
    rw [le_brake_iff hs hdt hleft (sub_nonneg.mpr hsv)]
    have heq : (v - s) * (v - s + s) * dt = v * (v + s) * dt - 2 * s * (v * dt) := by ring
    rw [heq]
    linarith
  · exact (sub_neg.mpr hvs).le.trans (brake_nonneg hs hdt hleft)

/-- a tick within the law that passes the end is slower than `s` -/
theorem overshoot_slow (hs : 0 < s) (hdt : 0 < dt) (hd : 0 ≤ d) (hv : v ≤ brake s dt d) (hover : d < v * dt) :
    0 < v ∧ v < s := by
  have hpos : 0 < v := pos_of_mul_pos_left (hd.trans_lt hover) hdt.le
  refine ⟨hpos, lt_of_not_ge fun hle => ?_⟩
  have h := (le_brake_iff hs hdt hd hpos.le).mp hv
  nlinarith

/-- close to the end the law leaves less than the mean of `s` and one tick's way -/
theorem brake_near_le (hs : 0 < s) (hdt : 0 < dt) (hd : 0 ≤ d) (hnear : d ≤ s * dt) :
    2 * brake s dt d ≤ s + d / dt := by
  have hb := brake_nonneg hs hdt hd
  have hle : d / dt ≤ s := (div_le_iff₀ hdt).mpr hnear
  have hlaw : brake s dt d * (brake s dt d + s) ≤ 2 * s * (d / dt) := by
    have h := (le_brake_iff hs hdt hd hb).mp le_rfl
    rw [← mul_div_assoc, le_div_iff₀ hdt]
    exact h
  -- `(s - x) * (3 * s - x)` is not negative
  refine le_of_not_gt fun hgt => ?_
  have hx : 0 ≤ d / dt := by positivity
  nlinarith [mul_nonneg (sub_nonneg.mpr hle) (by linarith : 0 ≤ 3 * s - d / dt)]

end Braking
