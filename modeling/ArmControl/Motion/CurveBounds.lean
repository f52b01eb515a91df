import ArmControl.Motion.Types
import Mathlib.Order.Fin.Finset
import Mathlib.Topology.Order.DenselyOrdered

/-!
# The bounds are those of the flown curve

* `Tested`                a segment's coefficients are zero or clear of `tiny`;
* `lowest_isLeast`, ...   one segment: the closed forms are its extrema;
* `sampleAt_eq`, `position_arc`   the samples lie on the segments;
* `bounds_exact`          a joint's four bounds.
-/

namespace ArmControl.Motion
open CubicArc Set

/-! ## one segment -/

/-- zero, or large enough not to count as zero -/
def Clear (x : ℝ) : Prop := x = 0 ∨ tiny < |x|

/-- the coefficients that the root formulas look at -/
structure Tested (p : CubicArc ℝ) : Prop where
  cubic : Clear p.c3
  lead : Clear (3 * p.c3)
  linear : Clear (2 * p.c2)

section
variable {p : CubicArc ℝ} {h s x m : ℝ}

theorem tiny_pos : (0 : ℝ) < tiny := by
  unfold tiny
  positivity

theorem Clear.lt (hx : Clear x) (h0 : x ≠ 0) : tiny < |x| := hx.resolve_left h0

theorem stationary_mem {sign : ℝ} (hs : stationary Real.sqrt p sign = some s) : s ∈ Icc (0 : ℝ) 1 := by
  have hin := (Option.filter_eq_some_iff.mp hs).2
  simp only [decide_eq_true_eq] at hin
  exact ⟨hin.1.le, hin.2.le⟩

/-- every candidate is a position of the segment -/
theorem candidate_mem (sign : ℝ) : candidate Real.sqrt p sign ∈ p.value '' Icc 0 1 := by
  unfold candidate
  cases hs : stationary Real.sqrt p sign with
  | none => exact ⟨0, left_mem_Icc.mpr zero_le_one, rfl⟩
  | some s => exact ⟨s, stationary_mem hs, rfl⟩

/-- a simple stationary point is one of the two that the formula gives -/
theorem stationary_root (ht : Tested p) (hpos : 0 < s) (hlt : s < 1) (hslope : p.slope s = 0) (hbend : p.bend s ≠ 0) :
    stationary Real.sqrt p 1 = some s ∨ stationary Real.sqrt p (-1) = some s := by
  have hkeep : (some s).filter (fun s : ℝ => decide (0 < s ∧ s < 1)) = some s := by
    rw [Option.filter_some, if_pos (by simpa using ⟨hpos, hlt⟩)]
  rcases simple_root hslope hbend with ⟨h3, h2, hroot⟩ | ⟨h3, hdisc, hroot⟩
  · left
    have ha : ¬ tiny < |3 * p.c3| := by
      rw [h3, mul_zero, abs_zero]
      exact not_lt_of_ge tiny_pos.le
    have hb : tiny < |2 * p.c2| := ht.linear.lt (mul_ne_zero two_ne_zero h2)
    unfold stationary
    dsimp only
    rw [if_neg ha, if_pos hb, if_pos (.inr (le_of_not_gt ha)), ← hroot]
    exact hkeep
  · have ha : tiny < |3 * p.c3| := ht.lead.lt (mul_ne_zero three_ne_zero h3)
    rcases hroot with hroot | hroot
    · left
      unfold stationary
      dsimp only
      rw [if_pos ha, if_pos (.inl hdisc), if_pos hdisc, one_mul, ← hroot]
      exact hkeep
    · right
      unfold stationary
      dsimp only
      rw [if_pos ha, if_pos (.inl hdisc), if_pos hdisc, neg_one_mul, ← sub_eq_add_neg, ← hroot]
      exact hkeep

theorem candidate_root (ht : Tested p) (hpos : 0 < s) (hlt : s < 1) (hslope : p.slope s = 0) (hbend : p.bend s ≠ 0) :
    candidate Real.sqrt p 1 = p.value s ∨ candidate Real.sqrt p (-1) = p.value s := by
  unfold candidate
  rcases stationary_root ht hpos hlt hslope hbend with hs | hs
  · left
    rw [hs, Option.getD_some]
  · right
    rw [hs, Option.getD_some]

theorem min_mem {S : Set ℝ} {a b : ℝ} (ha : a ∈ S) (hb : b ∈ S) : min a b ∈ S := by
  rcases min_choice a b with h | h
  · rwa [h]
  · rwa [h]

theorem max_mem {S : Set ℝ} {a b : ℝ} (ha : a ∈ S) (hb : b ∈ S) : max a b ∈ S := by
  rcases max_choice a b with h | h
  · rwa [h]
  · rwa [h]

theorem ends_mem (p : CubicArc ℝ) : p.value 0 ∈ p.value '' Icc 0 1 ∧ p.value 1 ∈ p.value '' Icc 0 1 :=
  ⟨⟨0, left_mem_Icc.mpr zero_le_one, rfl⟩, 1, right_mem_Icc.mpr zero_le_one, rfl⟩

theorem lowest_isLeast (ht : Tested p) : IsLeast (p.value '' Icc 0 1) (lowest Real.sqrt p) := by
  refine ⟨min_mem (min_mem (ends_mem p).1 (ends_mem p).2) (min_mem (candidate_mem 1) (candidate_mem (-1))), ?_⟩
  rintro _ ⟨x, hx, rfl⟩
  refine le_value ((min_le_left _ _).trans (min_le_left _ _)) ((min_le_left _ _).trans (min_le_right _ _)) ?_ hx
  intro s hpos hlt hslope hbend
  rcases candidate_root ht hpos hlt hslope hbend with hc | hc
  · rw [← hc]
    exact (min_le_right _ _).trans (min_le_left _ _)
  · rw [← hc]
    exact (min_le_right _ _).trans (min_le_right _ _)

theorem highest_isGreatest (ht : Tested p) : IsGreatest (p.value '' Icc 0 1) (highest Real.sqrt p) := by
  refine ⟨max_mem (max_mem (ends_mem p).1 (ends_mem p).2) (max_mem (candidate_mem 1) (candidate_mem (-1))), ?_⟩
  rintro _ ⟨x, hx, rfl⟩
  refine value_le ((le_max_left _ _).trans (le_max_left _ _)) ((le_max_right _ _).trans (le_max_left _ _)) ?_ hx
  intro s hpos hlt hslope hbend
  rcases candidate_root ht hpos hlt hslope hbend with hc | hc
  · rw [← hc]
    exact (le_max_left _ _).trans (le_max_right _ _)
  · rw [← hc]
    exact (le_max_right _ _).trans (le_max_right _ _)

theorem turning_mem (hs : turning p = some s) : s ∈ Icc (0 : ℝ) 1 := by
  have hin := (Option.filter_eq_some_iff.mp hs).2
  simp only [decide_eq_true_eq] at hin
  exact ⟨hin.1.le, hin.2.le⟩

theorem turning_root (hc : Clear p.c3) (hpos : 0 < s) (hlt : s < 1) (hbend : p.bend s = 0) (h3 : p.c3 ≠ 0) :
    turning p = some s := by
  have hroot : s = -p.c2 / (3 * p.c3) := by
    unfold bend at hbend
    field_simp
    linear_combination hbend / 2
  unfold turning
  rw [if_pos (hc.lt h3), ← hroot, Option.filter_some, if_pos (by simpa using ⟨hpos, hlt⟩)]

/-- the speed of the segment is below `fastest` -/
theorem abs_slope_le_fastest (hc : Clear p.c3) (hx : x ∈ Icc (0 : ℝ) 1) : |p.slope x / h| ≤ fastest p h := by
  rcases eq_or_ne h 0 with rfl | hh
  · rw [div_zero, abs_zero]
    exact (abs_nonneg _).trans ((le_max_left _ _).trans (le_max_left _ _))
  have hpos : 0 < |h| := abs_pos.mpr hh
  rw [abs_div, div_le_iff₀ hpos]
  refine abs_slope_le ?_ ?_ (fun s hs₀ hs₁ hbend h3 => ?_) hx
  · rw [← div_le_iff₀ hpos, ← abs_div]
    exact (le_max_left _ _).trans (le_max_left _ _)
  · rw [← div_le_iff₀ hpos, ← abs_div]
    exact (le_max_right _ _).trans (le_max_left _ _)
  · rw [← div_le_iff₀ hpos, ← abs_div]
    unfold fastest
    rw [turning_root hc hs₀ hs₁ hbend h3]
    exact le_max_right _ _

/-- and it is no more than any bound on the speed of the segment -/
theorem fastest_le (hm : ∀ x ∈ Icc (0 : ℝ) 1, |p.slope x / h| ≤ m) : fastest p h ≤ m := by
  have h0 := hm 0 (left_mem_Icc.mpr zero_le_one)
  refine max_le (max_le h0 (hm 1 (right_mem_Icc.mpr zero_le_one))) ?_
  cases hs : turning p with
  | none => exact (abs_nonneg _).trans h0
  | some s => exact hm s (turning_mem hs)

theorem sharpest_eq (p : CubicArc ℝ) (h : ℝ) : sharpest p h = max (|p.bend 0 / (h * h)|) (|p.bend 1 / (h * h)|) := by
  have h0 : p.bend 0 = 2 * p.c2 := by unfold bend; ring
  have h1 : p.bend 1 = 6 * p.c3 + 2 * p.c2 := by unfold bend; ring
  unfold sharpest
  rw [h0, h1, abs_div, abs_div, abs_mul_self]

theorem abs_bend_le_sharpest (hx : x ∈ Icc (0 : ℝ) 1) : |p.bend x / (h * h)| ≤ sharpest p h := by
  rw [sharpest_eq]
  rcases eq_or_ne h 0 with rfl | hh
  · rw [mul_zero, div_zero, abs_zero]
    exact (abs_nonneg _).trans (le_max_left _ _)
  have hpos : 0 < |h * h| := abs_pos.mpr (mul_ne_zero hh hh)
  rw [abs_div, div_le_iff₀ hpos]
  refine abs_bend_le ?_ ?_ hx
  · rw [← div_le_iff₀ hpos, ← abs_div]
    exact le_max_left _ _
  · rw [← div_le_iff₀ hpos, ← abs_div]
    exact le_max_right _ _

theorem sharpest_le (hm : ∀ x ∈ Icc (0 : ℝ) 1, |p.bend x / (h * h)| ≤ m) : sharpest p h ≤ m := by
  rw [sharpest_eq]
  exact max_le (hm 0 (left_mem_Icc.mpr zero_le_one)) (hm 1 (right_mem_Icc.mpr zero_le_one))

end

/-! ## the samples -/

namespace JointTrajectory

variable {n : ℕ} {traj : JointTrajectory ℝ n} {i : Fin (traj.inner + 1)} {t s : ℝ}

theorem strictMono (traj : JointTrajectory ℝ n) : StrictMono traj.times := Fin.strictMono_iff_lt_succ.mpr traj.increasing

theorem width_pos (traj : JointTrajectory ℝ n) (i : Fin (traj.inner + 1)) : 0 < traj.width i :=
  sub_pos.mpr (traj.increasing i)

theorem first_le (traj : JointTrajectory ℝ n) (k : Fin (traj.inner + 2)) : traj.times 0 ≤ traj.times k :=
  traj.strictMono.monotone (Fin.zero_le k)

theorem le_final (traj : JointTrajectory ℝ n) (k : Fin (traj.inner + 2)) : traj.times k ≤ traj.times (Fin.last _) :=
  traj.strictMono.monotone (Fin.le_last k)

/-- a time before the last knot is in a segment -/
theorem exists_segment (hfirst : traj.times 0 ≤ t) (hlast : t < traj.times (Fin.last _)) :
    ∃ i : Fin (traj.inner + 1), traj.times i.castSucc ≤ t ∧ t < traj.times i.succ := by
  by_contra hno
  have hall : ∀ k : Fin (traj.inner + 2), traj.times k ≤ t := by
    intro k
    induction k using Fin.induction with
    | zero => exact hfirst
    | succ i ih => exact le_of_not_gt fun hlt => hno ⟨i, ih, hlt⟩
  exact absurd (hall (Fin.last _)) (not_le_of_gt hlast)

/-- the search finds it -/
theorem upper_eq (hleft : traj.times i.castSucc ≤ t) (hright : t < traj.times i.succ) : traj.upper t = i.val + 1 := by
  have hset : (Finset.univ.filter fun k => traj.times k ≤ t) = Finset.Iic i.castSucc := by
    ext k
    rw [Finset.mem_filter, Finset.mem_Iic]
    constructor
    · rintro ⟨-, hk⟩
      refine Fin.le_castSucc_iff.mpr ?_
      exact traj.strictMono.lt_iff_lt.mp (hk.trans_lt hright)
    · intro hk
      exact ⟨Finset.mem_univ k, (traj.strictMono.monotone hk).trans hleft⟩
  unfold upper
  rw [hset, Fin.card_Iic, Fin.val_castSucc]

/-- inside, the sample is that of its segment -/
theorem sampleAt_within (hfirst : traj.times 0 < t) (hleft : traj.times i.castSucc ≤ t) (hright : t < traj.times i.succ) :
    traj.sampleAt t = traj.within i t := by
  have hlast : ¬ traj.times (Fin.last _) ≤ t := not_le_of_gt (hright.trans_le (traj.le_final _))
  unfold sampleAt
  rw [if_neg (not_le_of_gt hfirst), if_neg hlast, upper_eq hleft hright, Nat.add_sub_cancel, Fin.ofNat_val_eq_self]

/-! ## the segments -/

/-- the time at `s` of a segment -/
noncomputable def timeOf (traj : JointTrajectory ℝ n) (i : Fin (traj.inner + 1)) (s : ℝ) : ℝ :=
  traj.times i.castSucc + s * traj.width i

theorem timeOf_zero (traj : JointTrajectory ℝ n) (i : Fin (traj.inner + 1)) : traj.timeOf i 0 = traj.times i.castSucc := by
  unfold timeOf
  rw [zero_mul, add_zero]

theorem timeOf_one (traj : JointTrajectory ℝ n) (i : Fin (traj.inner + 1)) : traj.timeOf i 1 = traj.times i.succ := by
  unfold timeOf width
  rw [one_mul, add_sub_cancel]

/-- and back -/
theorem timeOf_fraction (traj : JointTrajectory ℝ n) (i : Fin (traj.inner + 1)) (t : ℝ) :
    traj.timeOf i ((t - traj.times i.castSucc) / traj.width i) = t := by
  unfold timeOf
  rw [div_mul_cancel₀ _ (traj.width_pos i).ne', add_sub_cancel]

theorem fraction_timeOf (traj : JointTrajectory ℝ n) (i : Fin (traj.inner + 1)) (s : ℝ) :
    (traj.timeOf i s - traj.times i.castSucc) / traj.width i = s := by
  unfold timeOf
  rw [add_sub_cancel_left, mul_div_cancel_right₀ _ (traj.width_pos i).ne']

/-- without velocities the segment is its chord -/
theorem arc_chord (hv : traj.velocities = none) (j : Fin n) :
    traj.arc i j =
      ⟨traj.positions i.castSucc j, traj.positions i.succ j - traj.positions i.castSucc j, 0, 0⟩ := by
  have hw := (traj.width_pos i).ne'
  unfold arc
  rw [hv]
  dsimp only
  congr 1
  · rw [mul_div_cancel₀ _ hw]
  · field_simp
    ring
  · field_simp
    ring

theorem within_position (j : Fin n) :
    (traj.within i t).position j = (traj.arc i j).value ((t - traj.times i.castSucc) / traj.width i) := by
  cases hv : traj.velocities with
  | none =>
    rw [arc_chord hv]
    unfold within value
    rw [hv]
    ring
  | some v =>
    unfold within arc value
    rw [hv]
    dsimp only
    ring

theorem within_velocity (j : Fin n) :
    (traj.within i t).velocity j =
      (traj.arc i j).slope ((t - traj.times i.castSucc) / traj.width i) / traj.width i := by
  cases hv : traj.velocities with
  | none =>
    rw [arc_chord hv]
    unfold within CubicArc.slope
    rw [hv]
    ring
  | some v =>
    have hw := (traj.width_pos i).ne'
    rw [eq_div_iff hw]
    unfold within arc CubicArc.slope
    rw [hv]
    dsimp only
    generalize (t - traj.times i.castSucc) / traj.width i = s
    field_simp
    ring

theorem within_acceleration (j : Fin n) :
    (traj.within i t).acceleration j =
      (traj.arc i j).bend ((t - traj.times i.castSucc) / traj.width i) / (traj.width i * traj.width i) := by
  cases hv : traj.velocities with
  | none =>
    rw [arc_chord hv]
    unfold within bend
    rw [hv]
    ring
  | some v =>
    have hw := (traj.width_pos i).ne'
    rw [eq_div_iff (mul_ne_zero hw hw)]
    unfold within arc bend
    rw [hv]
    dsimp only
    generalize (t - traj.times i.castSucc) / traj.width i = s
    field_simp
    ring

theorem arc_zero (i : Fin (traj.inner + 1)) (j : Fin n) : (traj.arc i j).value 0 = traj.positions i.castSucc j := by
  rw [value_zero]
  rfl

theorem arc_one (i : Fin (traj.inner + 1)) (j : Fin n) : (traj.arc i j).value 1 = traj.positions i.succ j := by
  unfold arc value
  ring

/-- at a knot the sample is the knot -/
theorem sampleAt_knot (k : Fin (traj.inner + 2)) : (traj.sampleAt (traj.times k)).position = traj.positions k := by
  rcases eq_or_ne k 0 with rfl | hzero
  · unfold sampleAt
    rw [if_pos le_rfl]
    rfl
  have hfirst : traj.times 0 < traj.times k := traj.strictMono (Fin.pos_of_ne_zero hzero)
  rcases eq_or_ne k (Fin.last _) with rfl | hlast
  · unfold sampleAt
    rw [if_neg (not_le_of_gt hfirst), if_pos le_rfl]
    rfl
  · obtain ⟨i, rfl⟩ := Fin.exists_castSucc_eq.mpr hlast
    rw [sampleAt_within hfirst le_rfl (traj.increasing i)]
    funext j
    rw [within_position, sub_self, zero_div, arc_zero]

theorem timeOf_lt (hs : s < 1) : traj.timeOf i s < traj.times i.succ := by
  rw [← timeOf_one]
  exact add_lt_add_right (mul_lt_mul_of_pos_right hs (traj.width_pos i)) _

theorem lt_timeOf (hs : 0 < s) : traj.times i.castSucc < traj.timeOf i s :=
  lt_add_of_pos_right _ (mul_pos hs (traj.width_pos i))

/-- **The samples lie on the segments** -/
theorem position_arc (i : Fin (traj.inner + 1)) (j : Fin n) (hs : s ∈ Icc (0 : ℝ) 1) :
    (traj.sampleAt (traj.timeOf i s)).position j = (traj.arc i j).value s := by
  rcases hs.1.eq_or_lt with rfl | hpos
  · rw [timeOf_zero, sampleAt_knot, arc_zero]
  rcases hs.2.eq_or_lt with rfl | hlt
  · rw [timeOf_one, sampleAt_knot, arc_one]
  · have hleft := lt_timeOf (i := i) hpos
    rw [sampleAt_within ((traj.first_le _).trans_lt hleft) hleft.le (timeOf_lt hlt), within_position, fraction_timeOf]

theorem timeOf_mem (i : Fin (traj.inner + 1)) (hs : s ∈ Icc (0 : ℝ) 1) :
    traj.timeOf i s ∈ Icc (traj.times 0) (traj.times (Fin.last _)) := by
  refine ⟨(traj.first_le i.castSucc).trans (le_add_of_nonneg_right (mul_nonneg hs.1 (traj.width_pos i).le)), ?_⟩
  refine le_trans ?_ (traj.le_final i.succ)
  rw [← timeOf_one]
  exact add_le_add_right (mul_le_mul_of_nonneg_right hs.2 (traj.width_pos i).le) _

theorem fraction_mem (hleft : traj.times i.castSucc ≤ t) (hright : t ≤ traj.times i.succ) :
    (t - traj.times i.castSucc) / traj.width i ∈ Icc (0 : ℝ) 1 :=
  ⟨div_nonneg (sub_nonneg.mpr hleft) (traj.width_pos i).le,
    (div_le_one (traj.width_pos i)).mpr (sub_le_sub_right hright _)⟩

/-- every time of the curve is a time of a segment -/
theorem exists_timeOf (ht : t ∈ Icc (traj.times 0) (traj.times (Fin.last _))) :
    ∃ i, ∃ s ∈ Icc (0 : ℝ) 1, traj.timeOf i s = t := by
  rcases ht.2.eq_or_lt with rfl | hlt
  · exact ⟨Fin.last _, 1, right_mem_Icc.mpr zero_le_one, timeOf_one traj _⟩
  · obtain ⟨i, hleft, hright⟩ := exists_segment ht.1 hlt
    exact ⟨i, _, fraction_mem hleft hright.le, timeOf_fraction traj i t⟩

/-! ## the bounds -/

/-- every coefficient that `bounds` looks at is zero or clear of `tiny` -/
def AllTested (traj : JointTrajectory ℝ n) : Prop := ∀ i j, Tested (traj.arc i j)

theorem qMin_isLeast (h : traj.AllTested) (j : Fin n) :
    IsLeast ((fun t => (traj.sampleAt t).position j) '' Icc (traj.times 0) (traj.times (Fin.last _)))
      ((traj.bounds Real.sqrt).qMin j) := by
  constructor
  · obtain ⟨i, -, hi⟩ := Finset.exists_mem_eq_inf' (⟨0, Finset.mem_univ _⟩ : (Finset.univ : Finset (Fin (traj.inner + 1))).Nonempty)
      fun i => lowest Real.sqrt (traj.arc i j)
    obtain ⟨s, hs, heq⟩ := (lowest_isLeast (h i j)).1
    refine ⟨traj.timeOf i s, timeOf_mem i hs, ?_⟩
    show (traj.sampleAt (traj.timeOf i s)).position j = _
    rw [position_arc i j hs, heq]
    exact hi.symm
  · rintro _ ⟨t, ht, rfl⟩
    obtain ⟨i, s, hs, rfl⟩ := exists_timeOf ht
    show _ ≤ (traj.sampleAt (traj.timeOf i s)).position j
    rw [position_arc i j hs]
    exact (Finset.inf'_le _ (Finset.mem_univ i)).trans ((lowest_isLeast (h i j)).2 ⟨s, hs, rfl⟩)

theorem qMax_isGreatest (h : traj.AllTested) (j : Fin n) :
    IsGreatest ((fun t => (traj.sampleAt t).position j) '' Icc (traj.times 0) (traj.times (Fin.last _)))
      ((traj.bounds Real.sqrt).qMax j) := by
  constructor
  · obtain ⟨i, -, hi⟩ := Finset.exists_mem_eq_sup' (⟨0, Finset.mem_univ _⟩ : (Finset.univ : Finset (Fin (traj.inner + 1))).Nonempty)
      fun i => highest Real.sqrt (traj.arc i j)
    obtain ⟨s, hs, heq⟩ := (highest_isGreatest (h i j)).1
    refine ⟨traj.timeOf i s, timeOf_mem i hs, ?_⟩
    show (traj.sampleAt (traj.timeOf i s)).position j = _
    rw [position_arc i j hs, heq]
    exact hi.symm
  · rintro _ ⟨t, ht, rfl⟩
    obtain ⟨i, s, hs, rfl⟩ := exists_timeOf ht
    show (traj.sampleAt (traj.timeOf i s)).position j ≤ _
    rw [position_arc i j hs]
    exact ((highest_isGreatest (h i j)).2 ⟨s, hs, rfl⟩).trans (Finset.le_sup' (fun i => highest Real.sqrt (traj.arc i j)) (Finset.mem_univ i))

/-- between the ends the sample's velocity and acceleration are those of a segment -/
theorem sampleAt_inside (hfirst : traj.times 0 < t) (hlast : t < traj.times (Fin.last _)) (j : Fin n) :
    ∃ i, ∃ s ∈ Icc (0 : ℝ) 1,
      (traj.sampleAt t).velocity j = (traj.arc i j).slope s / traj.width i ∧
        (traj.sampleAt t).acceleration j = (traj.arc i j).bend s / (traj.width i * traj.width i) := by
  obtain ⟨i, hleft, hright⟩ := exists_segment hfirst.le hlast
  refine ⟨i, _, fraction_mem hleft hright.le, ?_⟩
  rw [sampleAt_within hfirst hleft hright]
  exact ⟨within_velocity j, within_acceleration j⟩

/-- and inside a segment they are its own -/
theorem sampleAt_arc (i : Fin (traj.inner + 1)) (j : Fin n) (hs : s ∈ Ioo (0 : ℝ) 1) :
    (traj.sampleAt (traj.timeOf i s)).velocity j = (traj.arc i j).slope s / traj.width i ∧
      (traj.sampleAt (traj.timeOf i s)).acceleration j = (traj.arc i j).bend s / (traj.width i * traj.width i) := by
  have hleft := lt_timeOf (i := i) hs.1
  rw [sampleAt_within ((traj.first_le _).trans_lt hleft) hleft.le (timeOf_lt hs.2), within_velocity, within_acceleration,
    fraction_timeOf]
  exact ⟨rfl, rfl⟩

/-- at the ends the sample has a knot's velocity, or none -/
theorem sampleAt_first (j : Fin n) :
    ((traj.sampleAt (traj.times 0)).velocity j = 0 ∨
      (traj.sampleAt (traj.times 0)).velocity j = (traj.arc 0 j).slope 0 / traj.width 0) ∧
      (traj.sampleAt (traj.times 0)).acceleration j = 0 := by
  unfold sampleAt
  rw [if_pos le_rfl]
  unfold point arc CubicArc.slope
  cases traj.velocities with
  | none => exact ⟨.inl rfl, rfl⟩
  | some v =>
    refine ⟨.inr ?_, rfl⟩
    have hw := (traj.width_pos 0).ne'
    dsimp only
    rw [eq_div_iff hw, mul_zero, zero_add]
    exact mul_comm _ _

theorem sampleAt_final (j : Fin n) :
    ((traj.sampleAt (traj.times (Fin.last _))).velocity j = 0 ∨
      (traj.sampleAt (traj.times (Fin.last _))).velocity j =
        (traj.arc (Fin.last _) j).slope 1 / traj.width (Fin.last _)) ∧
      (traj.sampleAt (traj.times (Fin.last _))).acceleration j = 0 := by
  have hlast : ¬ traj.times (Fin.last _) ≤ traj.times 0 := not_le_of_gt (traj.strictMono (Fin.last_pos))
  unfold sampleAt
  rw [if_neg hlast, if_pos le_rfl]
  unfold point arc CubicArc.slope
  cases traj.velocities with
  | none => exact ⟨.inl rfl, rfl⟩
  | some v =>
    refine ⟨.inr ?_, rfl⟩
    have hw := (traj.width_pos (Fin.last _)).ne'
    dsimp only
    rw [eq_div_iff hw, Fin.succ_last]
    ring

/-- a bound inside the segments holds up to their ends -/
theorem closed_le {f : ℝ → ℝ} (hf : Continuous f) {u : ℝ} (h : ∀ x ∈ Ioo (0 : ℝ) 1, f x ≤ u) : ∀ x ∈ Icc (0 : ℝ) 1, f x ≤ u := by
  have hclosed : IsClosed {x | f x ≤ u} := isClosed_le hf continuous_const
  intro x hx
  rw [← closure_Ioo zero_ne_one] at hx
  exact hclosed.closure_subset_iff.mpr h hx

/-- the speed of every segment is within the bound -/
theorem speed_le (h : ∀ i j, Clear (traj.arc i j).c3) (i : Fin (traj.inner + 1)) (j : Fin n) (hs : s ∈ Icc (0 : ℝ) 1) :
    |(traj.arc i j).slope s / traj.width i| ≤ (traj.bounds Real.sqrt).qdAbsMax j :=
  (abs_slope_le_fastest (h i j) hs).trans
    ((Finset.le_sup' (fun i => fastest (traj.arc i j) (traj.width i)) (Finset.mem_univ i)).trans (le_max_right _ _))

theorem qdAbsMax_isLUB (h : ∀ i j, Clear (traj.arc i j).c3) (j : Fin n) :
    IsLUB ((fun t => |(traj.sampleAt t).velocity j|) '' Icc (traj.times 0) (traj.times (Fin.last _)))
      ((traj.bounds Real.sqrt).qdAbsMax j) := by
  have hseg : ∀ i, ∀ s ∈ Icc (0 : ℝ) 1, |(traj.arc i j).slope s / traj.width i| ≤ (traj.bounds Real.sqrt).qdAbsMax j :=
    fun i s hs => speed_le h i j hs
  have hnn : 0 ≤ (traj.bounds Real.sqrt).qdAbsMax j := le_max_left _ _
  constructor
  · rintro _ ⟨t, ht, rfl⟩
    dsimp only
    rcases ht.1.eq_or_lt with rfl | hfirst
    · obtain ⟨hv | hv, -⟩ : (_ ∨ _) ∧ (traj.sampleAt (traj.times 0)).acceleration j = 0 := sampleAt_first j
      · rw [hv, abs_zero]
        exact hnn
      · rw [hv]
        exact hseg _ 0 (left_mem_Icc.mpr zero_le_one)
    rcases ht.2.eq_or_lt with rfl | hlast
    · obtain ⟨hv | hv, -⟩ : (_ ∨ _) ∧ (traj.sampleAt (traj.times (Fin.last _))).acceleration j = 0 := sampleAt_final j
      · rw [hv, abs_zero]
        exact hnn
      · rw [hv]
        exact hseg _ 1 (right_mem_Icc.mpr zero_le_one)
    · obtain ⟨i, s, hs, hv, -⟩ := sampleAt_inside hfirst hlast j
      rw [hv]
      exact hseg i s hs
  · intro u hu
    have hstart := hu ⟨traj.times 0, ⟨le_rfl, traj.first_le _⟩, rfl⟩
    refine max_le ((abs_nonneg _).trans hstart) (Finset.sup'_le _ _ fun i _ => fastest_le ?_)
    refine closed_le ?_ fun x hx => ?_
    · unfold CubicArc.slope
      fun_prop
    · rw [← (sampleAt_arc i j hx).1]
      exact hu ⟨_, timeOf_mem i ⟨hx.1.le, hx.2.le⟩, rfl⟩

theorem qddAbsMax_isLUB (j : Fin n) :
    IsLUB ((fun t => |(traj.sampleAt t).acceleration j|) '' Icc (traj.times 0) (traj.times (Fin.last _)))
      ((traj.bounds Real.sqrt).qddAbsMax j) := by
  have hseg : ∀ i, ∀ s ∈ Icc (0 : ℝ) 1, |(traj.arc i j).bend s / (traj.width i * traj.width i)| ≤
      (traj.bounds Real.sqrt).qddAbsMax j :=
    fun i s hs => (abs_bend_le_sharpest hs).trans
      ((Finset.le_sup' (fun i => sharpest (traj.arc i j) (traj.width i)) (Finset.mem_univ i)).trans (le_max_right _ _))
  have hnn : 0 ≤ (traj.bounds Real.sqrt).qddAbsMax j := le_max_left _ _
  constructor
  · rintro _ ⟨t, ht, rfl⟩
    dsimp only
    rcases ht.1.eq_or_lt with rfl | hfirst
    · have hstill : (traj.sampleAt (traj.times 0)).acceleration j = 0 := (sampleAt_first j).2
      rw [hstill, abs_zero]
      exact hnn
    rcases ht.2.eq_or_lt with rfl | hlast
    · have hstill : (traj.sampleAt (traj.times (Fin.last _))).acceleration j = 0 := (sampleAt_final j).2
      rw [hstill, abs_zero]
      exact hnn
    · obtain ⟨i, s, hs, -, ha⟩ := sampleAt_inside hfirst hlast j
      rw [ha]
      exact hseg i s hs
  · intro u hu
    have hstart := hu ⟨traj.times 0, ⟨le_rfl, traj.first_le _⟩, rfl⟩
    refine max_le ((abs_nonneg _).trans hstart) (Finset.sup'_le _ _ fun i _ => sharpest_le ?_)
    refine closed_le ?_ fun x hx => ?_
    · unfold bend
      fun_prop
    · rw [← (sampleAt_arc i j hx).2]
      exact hu ⟨_, timeOf_mem i ⟨hx.1.le, hx.2.le⟩, rfl⟩

end JointTrajectory

end ArmControl.Motion
