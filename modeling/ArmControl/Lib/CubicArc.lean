import Mathlib
import ArmControl.Lib.Numerals

/-!
# A cubic over the unit interval

* `CubicArc`                  its coefficients, `value`, `slope`, `bend`;
* `le_value`, `value_le`      a bound at the ends and at the simple stationary points holds between them;
* `simple_root`               where such a point can be, in closed form;
* `le_slope`, `slope_le`      the same for the slope, `abs_bend_le` for the bend;
* `abs_value_sub_le`          a bound on the slope is one on the way.
-/

structure CubicArc (K : Type) where
  c0 : K
  c1 : K
  c2 : K
  c3 : K

namespace CubicArc

section
variable {K : Type} [CommRing K]

def value (p : CubicArc K) (s : K) : K := ((p.c3 * s + p.c2) * s + p.c1) * s + p.c0

/-- the derivative -/
def slope (p : CubicArc K) (s : K) : K := (3 * p.c3 * s + 2 * p.c2) * s + p.c1

/-- the second derivative -/
def bend (p : CubicArc K) (s : K) : K := 6 * p.c3 * s + 2 * p.c2

/-- the slope as a cubic -/
def derivative (p : CubicArc K) : CubicArc K := ⟨p.c1, 2 * p.c2, 3 * p.c3, 0⟩

def neg (p : CubicArc K) : CubicArc K := ⟨-p.c0, -p.c1, -p.c2, -p.c3⟩

variable (p : CubicArc K) (s x : K)

theorem value_zero : p.value 0 = p.c0 := by
  unfold value
  ring

theorem value_derivative : p.derivative.value s = p.slope s := by
  unfold derivative value slope
  ring

theorem slope_derivative : p.derivative.slope s = p.bend s := by
  unfold derivative slope bend
  ring

theorem bend_derivative : p.derivative.bend s = 6 * p.c3 := by
  unfold derivative bend
  ring

theorem value_neg : p.neg.value s = -p.value s := by
  unfold neg value
  ring

theorem slope_neg : p.neg.slope s = -p.slope s := by
  unfold neg slope
  ring

theorem bend_neg : p.neg.bend s = -p.bend s := by
  unfold neg bend
  ring

end

section
variable {p : CubicArc ℝ} {s x m : ℝ}

theorem hasDerivAt_value (p : CubicArc ℝ) (s : ℝ) : HasDerivAt p.value (p.slope s) s := by
  have hid := hasDerivAt_id' s
  have h := ((((hid.const_mul p.c3).add_const p.c2).mul hid).add_const p.c1 |>.mul hid).add_const p.c0
  refine h.congr_deriv ?_
  show (p.c3 * 1 * s + (p.c3 * s + p.c2) * 1) * s + ((p.c3 * s + p.c2) * s + p.c1) * 1 = p.slope s
  unfold slope
  ring

/-- at a double root of the slope the cubic is a shifted cube -/
theorem value_inflection (hslope : p.slope s = 0) (hbend : p.bend s = 0) (x : ℝ) :
    p.value x - p.value s = p.c3 * (x - s) ^ 3 := by
  unfold slope at hslope
  unfold bend at hbend
  unfold value
  linear_combination (x - s) * hslope + (x - s) ^ 2 * hbend / 2

/-- **A lower bound** at the ends and at the simple stationary points -/
theorem le_value (h₀ : m ≤ p.value 0) (h₁ : m ≤ p.value 1)
    (hroot : ∀ s, 0 < s → s < 1 → p.slope s = 0 → p.bend s ≠ 0 → m ≤ p.value s) (hx : x ∈ Set.Icc (0 : ℝ) 1) :
    m ≤ p.value x := by
  have hcont : ContinuousOn p.value (Set.Icc 0 1) := fun s _ => (p.hasDerivAt_value s).continuousAt.continuousWithinAt
  obtain ⟨s, hs, hmin⟩ := isCompact_Icc.exists_isMinOn (Set.nonempty_Icc.mpr zero_le_one) hcont
  refine le_trans ?_ (hmin hx)
  rcases hs.1.eq_or_lt with rfl | hpos
  · exact h₀
  rcases hs.2.eq_or_lt with rfl | hlt
  · exact h₁
  have hlocal : IsLocalMin p.value s := hmin.isLocalMin (Icc_mem_nhds hpos hlt)
  have hslope : p.slope s = 0 := hlocal.hasDerivAt_eq_zero (p.hasDerivAt_value s)
  by_cases hbend : p.bend s = 0
  · -- an inflection lies between the ends
    have hleft := value_inflection hslope hbend 0
    have hright := value_inflection hslope hbend 1
    have h0 := hmin (Set.left_mem_Icc.mpr zero_le_one)
    have h1 := hmin (Set.right_mem_Icc.mpr zero_le_one)
    change p.value s ≤ p.value 0 at h0
    change p.value s ≤ p.value 1 at h1
    rcases le_total p.c3 0 with hneg | hnn
    · have : p.c3 * (1 - s) ^ 3 ≤ 0 := mul_nonpos_of_nonpos_of_nonneg hneg (pow_nonneg (by linarith) 3)
      linarith
    · have : 0 ≤ p.c3 * s ^ 3 := mul_nonneg hnn (pow_nonneg hpos.le 3)
      linarith [show p.c3 * (0 - s) ^ 3 = -(p.c3 * s ^ 3) by ring]
  · exact hroot s hpos hlt hslope hbend

/-- **An upper bound** at the same points -/
theorem value_le (h₀ : p.value 0 ≤ m) (h₁ : p.value 1 ≤ m)
    (hroot : ∀ s, 0 < s → s < 1 → p.slope s = 0 → p.bend s ≠ 0 → p.value s ≤ m) (hx : x ∈ Set.Icc (0 : ℝ) 1) :
    p.value x ≤ m := by
  rw [← neg_le_neg_iff, ← value_neg]
  refine le_value ?_ ?_ (fun s hpos hlt hslope hbend => ?_) hx
  · rw [value_neg]
    exact neg_le_neg h₀
  · rw [value_neg]
    exact neg_le_neg h₁
  · rw [slope_neg, neg_eq_zero] at hslope
    rw [bend_neg, neg_ne_zero] at hbend
    rw [value_neg]
    exact neg_le_neg (hroot s hpos hlt hslope hbend)

/-- **The simple stationary points in closed form** -/
theorem simple_root (hslope : p.slope s = 0) (hbend : p.bend s ≠ 0) :
    (p.c3 = 0 ∧ p.c2 ≠ 0 ∧ s = -p.c1 / (2 * p.c2)) ∨
      (p.c3 ≠ 0 ∧ 0 < (2 * p.c2) * (2 * p.c2) - 4 * (3 * p.c3) * p.c1 ∧
        (s = (-(2 * p.c2) + √((2 * p.c2) * (2 * p.c2) - 4 * (3 * p.c3) * p.c1)) / (2 * (3 * p.c3)) ∨
          s = (-(2 * p.c2) - √((2 * p.c2) * (2 * p.c2) - 4 * (3 * p.c3) * p.c1)) / (2 * (3 * p.c3)))) := by
  unfold slope at hslope
  unfold bend at hbend
  by_cases h3 : p.c3 = 0
  · left
    rw [h3] at hslope hbend
    have h2 : p.c2 ≠ 0 := fun h2 => hbend (by rw [h2]; ring)
    refine ⟨h3, h2, ?_⟩
    field_simp
    linear_combination hslope
  · right
    have hdisc : (2 * p.c2) * (2 * p.c2) - 4 * (3 * p.c3) * p.c1 = (6 * p.c3 * s + 2 * p.c2) ^ 2 := by
      linear_combination -12 * p.c3 * hslope
    rw [hdisc, Real.sqrt_sq_eq_abs]
    refine ⟨h3, by positivity, ?_⟩
    rcases abs_choice (6 * p.c3 * s + 2 * p.c2) with habs | habs
    · left
      rw [habs]
      field_simp
      ring
    · right
      rw [habs]
      field_simp
      ring

theorem le_slope (h₀ : m ≤ p.slope 0) (h₁ : m ≤ p.slope 1)
    (hroot : ∀ s, 0 < s → s < 1 → p.bend s = 0 → p.c3 ≠ 0 → m ≤ p.slope s) (hx : x ∈ Set.Icc (0 : ℝ) 1) :
    m ≤ p.slope x := by
  rw [← value_derivative] at h₀ h₁ ⊢
  refine le_value h₀ h₁ (fun s hpos hlt hslope hbend => ?_) hx
  rw [slope_derivative] at hslope
  rw [bend_derivative] at hbend
  rw [value_derivative]
  exact hroot s hpos hlt hslope (right_ne_zero_of_mul hbend)

theorem abs_slope_le (h₀ : |p.slope 0| ≤ m) (h₁ : |p.slope 1| ≤ m)
    (hroot : ∀ s, 0 < s → s < 1 → p.bend s = 0 → p.c3 ≠ 0 → |p.slope s| ≤ m) (hx : x ∈ Set.Icc (0 : ℝ) 1) :
    |p.slope x| ≤ m := by
  rw [abs_le]
  constructor
  · exact le_slope (abs_le.mp h₀).1 (abs_le.mp h₁).1 (fun s hpos hlt hb h3 => (abs_le.mp (hroot s hpos hlt hb h3)).1) hx
  · rw [← neg_le_neg_iff, ← slope_neg]
    refine le_slope ?_ ?_ (fun s hpos hlt hb h3 => ?_) hx
    · rw [slope_neg]
      exact neg_le_neg (abs_le.mp h₀).2
    · rw [slope_neg]
      exact neg_le_neg (abs_le.mp h₁).2
    · rw [bend_neg, neg_eq_zero] at hb
      rw [slope_neg]
      exact neg_le_neg (abs_le.mp (hroot s hpos hlt hb (neg_ne_zero.mp h3))).2

/-- a bound on the slope is one on the way -/
theorem abs_value_sub_le (hm : ∀ x ∈ Set.Icc (0 : ℝ) 1, |p.slope x| ≤ m) (hs : s ∈ Set.Icc (0 : ℝ) 1)
    (hx : x ∈ Set.Icc (0 : ℝ) 1) : |p.value x - p.value s| ≤ m * |x - s| :=
  (convex_Icc 0 1).norm_image_sub_le_of_norm_hasDerivWithin_le
    (fun y _ => (p.hasDerivAt_value y).hasDerivWithinAt) hm hs hx

/-- the bend is affine: no larger than at one of the ends -/
theorem abs_bend_le (h₀ : |p.bend 0| ≤ m) (h₁ : |p.bend 1| ≤ m) (hx : x ∈ Set.Icc (0 : ℝ) 1) : |p.bend x| ≤ m := by
  have hmix : p.bend x = (1 - x) * p.bend 0 + x * p.bend 1 := by
    unfold bend
    ring
  calc |p.bend x| ≤ (1 - x) * |p.bend 0| + x * |p.bend 1| := by
        rw [hmix]
        refine (abs_add_le _ _).trans_eq ?_
        rw [abs_mul, abs_mul, abs_of_nonneg (sub_nonneg.mpr hx.2), abs_of_nonneg hx.1]
    _ ≤ (1 - x) * m + x * m := by
        gcongr
        · exact sub_nonneg.mpr hx.2
        · exact hx.1
    _ = m := by ring

end

end CubicArc
