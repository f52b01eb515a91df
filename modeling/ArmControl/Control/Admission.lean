import ArmControl.Control.ExecutionPolicy
import ArmControl.Motion.CurveBounds

/-!
# Admission certifies the flown curve

* `sampleAt_clamped`      off its ends the curve stays at its end knots;
* `passed`                an accepted plan passed every check on its curve;
* `admission_certifies`   the bounds are exact, and what is accepted stays within the limits at every time.
-/

namespace ArmControl.Control
open ArmControl.Motion JointTrajectory Set

variable {n : ℕ}

/-- off its ends the curve stays at its end knots -/
theorem sampleAt_clamped (curve : JointTrajectory ℝ n) (t : ℝ) :
    ∃ t' ∈ Icc (curve.times 0) (curve.times (Fin.last _)), ∀ j,
      (curve.sampleAt t).position j = (curve.sampleAt t').position j ∧
        (curve.sampleAt t).velocity j = (curve.sampleAt t').velocity j ∧
        (curve.sampleAt t).acceleration j = (curve.sampleAt t').acceleration j := by
  have hends : curve.times 0 ≤ curve.times (Fin.last _) := curve.first_le _
  rcases le_total t (curve.times 0) with hearly | hlate
  · refine ⟨curve.times 0, ⟨le_rfl, hends⟩, fun j => ?_⟩
    unfold sampleAt
    rw [if_pos hearly, if_pos le_rfl]
    exact ⟨rfl, rfl, rfl⟩
  rcases le_total t (curve.times (Fin.last _)) with hin | hover
  · exact ⟨t, ⟨hlate, hin⟩, fun j => ⟨rfl, rfl, rfl⟩⟩
  · have hlast : ¬ curve.times (Fin.last _) ≤ curve.times 0 := not_le_of_gt (curve.strictMono Fin.last_pos)
    refine ⟨curve.times (Fin.last _), ⟨hends, le_rfl⟩, fun j => ?_⟩
    unfold sampleAt
    rw [if_neg (fun h => hlast (hover.trans h)), if_pos hover, if_neg hlast, if_pos le_rfl]
    exact ⟨rfl, rfl, rfl⟩

namespace ExecutionPolicy

variable {policy : ExecutionPolicy ℝ n} {bounds : CurveBounds ℝ n} {band : Option ((Fin n → ℝ) × (Fin n → ℝ))}

/-- what the bounds of a curve satisfy that no check refused -/
structure Within (policy : ExecutionPolicy ℝ n) (bounds : CurveBounds ℝ n)
    (band : Option ((Fin n → ℝ) × (Fin n → ℝ))) : Prop where
  position : ∀ b ∈ band, ∀ j, b.1 j - envelopeTol ≤ bounds.qMin j ∧ bounds.qMax j ≤ b.2 j + envelopeTol
  velocity : ∀ l ∈ policy.velocityLimits, ∀ j, bounds.qdAbsMax j ≤ l j + limitTol
  acceleration : ∀ l ∈ policy.accelerationLimits, ∀ j, bounds.qddAbsMax j ≤ l j + limitTol

theorem outside_some {b : (Fin n → ℝ) × (Fin n → ℝ)} {low high : Fin n → ℝ} :
    outside (some b) low high ↔ ∃ j, low j < b.1 j - envelopeTol ∨ b.2 j + envelopeTol < high j :=
  ⟨fun ⟨_, hb, h⟩ => Option.some.inj hb ▸ h, fun h => ⟨b, rfl, h⟩⟩

theorem beyond_some {l x : Fin n → ℝ} : beyond (some l) x ↔ ∃ j, l j + limitTol < x j :=
  ⟨fun ⟨_, hl, h⟩ => Option.some.inj hl ▸ h, fun h => ⟨l, rfl, h⟩⟩

theorem within_of_curveError (h : policy.curveError bounds band = none) : policy.Within bounds band := by
  unfold curveError at h
  split_ifs at h with hband hvel hacc
  refine ⟨fun b hb j => ?_, fun l hl j => ?_, fun l hl j => ?_⟩
  · constructor
    · exact le_of_not_gt fun hlt => hband ⟨b, hb, j, .inl hlt⟩
    · exact le_of_not_gt fun hlt => hband ⟨b, hb, j, .inr hlt⟩
  · exact le_of_not_gt fun hlt => hvel ⟨l, hl, j, hlt⟩
  · exact le_of_not_gt fun hlt => hacc ⟨l, hl, j, hlt⟩

/-- **An accepted plan** has strictly increasing times, and its curve passed every check -/
theorem passed {plan : PlanArrays ℝ} {measured : Fin n → ℝ} {been : Option (List (Fin n → ℝ))}
    (h : policy.planError Real.sqrt plan measured been = none) :
    ∃ hinc : plan.Increasing,
      policy.Within ((plan.curve n hinc).bounds Real.sqrt) (policy.envelope (been.getD [measured])) := by
  unfold planError at h
  split_ifs at h with hcols hshapes hinc
  dsimp only at h
  rw [Option.or_eq_none_iff, Option.or_eq_none_iff, Option.or_eq_none_iff] at h
  exact ⟨hinc, within_of_curveError h.1.1.2⟩

end ExecutionPolicy

/-- a sample within the band and the limits -/
structure Certified (policy : ExecutionPolicy ℝ n) (band : Option ((Fin n → ℝ) × (Fin n → ℝ)))
    (p : TrajectoryPoint ℝ n) : Prop where
  position : ∀ b ∈ band, ∀ j, b.1 j - envelopeTol ≤ p.position j ∧ p.position j ≤ b.2 j + envelopeTol
  velocity : ∀ l ∈ policy.velocityLimits, ∀ j, |p.velocity j| ≤ l j + limitTol
  acceleration : ∀ l ∈ policy.accelerationLimits, ∀ j, |p.acceleration j| ≤ l j + limitTol

/-- the four bounds of every joint are those of the samples -/
structure Exact (curve : JointTrajectory ℝ n) (bounds : CurveBounds ℝ n) : Prop where
  least : ∀ j, IsLeast ((fun t => (curve.sampleAt t).position j) '' Icc (curve.times 0) (curve.times (Fin.last _)))
    (bounds.qMin j)
  greatest : ∀ j, IsGreatest ((fun t => (curve.sampleAt t).position j) '' Icc (curve.times 0) (curve.times (Fin.last _)))
    (bounds.qMax j)
  speed : ∀ j, IsLUB ((fun t => |(curve.sampleAt t).velocity j|) '' Icc (curve.times 0) (curve.times (Fin.last _)))
    (bounds.qdAbsMax j)
  acceleration : ∀ j, IsLUB ((fun t => |(curve.sampleAt t).acceleration j|) '' Icc (curve.times 0) (curve.times (Fin.last _)))
    (bounds.qddAbsMax j)

theorem bounds_exact {curve : JointTrajectory ℝ n} (h : curve.AllTested) : Exact curve (curve.bounds Real.sqrt) :=
  ⟨qMin_isLeast h, qMax_isGreatest h, qdAbsMax_isLUB fun i j => (h i j).cubic, qddAbsMax_isLUB⟩

theorem Exact.certified {policy : ExecutionPolicy ℝ n} {curve : JointTrajectory ℝ n} {bounds : CurveBounds ℝ n}
    {band : Option ((Fin n → ℝ) × (Fin n → ℝ))} (h : Exact curve bounds) (hw : policy.Within bounds band) (t : ℝ) :
    Certified policy band (curve.sampleAt t) := by
  obtain ⟨t', ht', hsame⟩ := sampleAt_clamped curve t
  refine ⟨fun b hb j => ?_, fun l hl j => ?_, fun l hl j => ?_⟩
  · rw [(hsame j).1]
    exact ⟨(hw.position b hb j).1.trans ((h.least j).2 ⟨t', ht', rfl⟩),
      ((h.greatest j).2 ⟨t', ht', rfl⟩).trans (hw.position b hb j).2⟩
  · rw [(hsame j).2.1]
    exact ((h.speed j).1 ⟨t', ht', rfl⟩).trans (hw.velocity l hl j)
  · rw [(hsame j).2.2]
    exact ((h.acceleration j).1 ⟨t', ht', rfl⟩).trans (hw.acceleration l hl j)

/-- **Admission certifies the flown curve**: the bounds are exact, and a plan that is not refused stays within the band
and the limits at every time. -/
theorem admission_certifies :
    (∀ curve : JointTrajectory ℝ n, curve.AllTested → Exact curve (curve.bounds Real.sqrt)) ∧
      ∀ (policy : ExecutionPolicy ℝ n) (plan : PlanArrays ℝ) (measured : Fin n → ℝ) (been : Option (List (Fin n → ℝ))),
        policy.planError Real.sqrt plan measured been = none →
          ∃ hinc : plan.Increasing, (plan.curve n hinc).AllTested →
            ∀ t, Certified policy (policy.envelope (been.getD [measured])) ((plan.curve n hinc).sampleAt t) := by
  refine ⟨fun curve h => bounds_exact h, fun policy plan measured been h => ?_⟩
  obtain ⟨hinc, hwithin⟩ := ExecutionPolicy.passed h
  exact ⟨hinc, fun htested t => (bounds_exact htested).certified hwithin t⟩

/-! ## an arm at rest -/

/-- one joint of `[-1, 1]`, all limits `1` -/
noncomputable def unitPolicy : ExecutionPolicy ℝ 1 where
  startPosTolRad := 1
  abortPosErrRad := 1
  holdRelatchRad := 1
  torqueLimits := fun _ => 1
  position := some (fun _ => -1, fun _ => 1)
  velocityLimits := some fun _ => 1
  accelerationLimits := some fun _ => 1
  positive := ⟨one_pos, one_pos, one_pos⟩
  ordered := fun b hb _ => by
    obtain rfl := Option.some.inj hb
    norm_num
  moving := fun l hl _ => by
    obtain rfl := Option.some.inj hl
    exact one_pos
  speeding := fun l hl _ => by
    obtain rfl := Option.some.inj hl
    exact one_pos
  sprung := fun k hk => absurd hk (Option.not_mem_none k)

/-- stay at `0` for a second -/
def restPlan : PlanArrays ℝ where
  times := ⟨[2], [0, 1], rfl⟩
  positions := ⟨[2, 1], [0, 0], rfl⟩
  velocities := ⟨[2, 1], [0, 0], rfl⟩
  kp := ⟨[1], [0], rfl⟩
  kd := ⟨[1], [0], rfl⟩

theorem restPlan_increasing : restPlan.Increasing := by
  intro i
  obtain rfl : i = 0 := Subsingleton.elim (α := Fin 1) i 0
  exact zero_lt_one

theorem restPlan_entry (k j : ℕ) : restPlan.positions.entry k j = 0 ∧ restPlan.velocities.entry k j = 0 := by
  have hzero : ∀ m : ℕ, ([0, 0] : List ℝ).getD m 0 = 0 := by
    intro m
    rcases m with _ | _ | m
    · rfl
    · rfl
    · rfl
  exact ⟨hzero _, hzero _⟩

theorem restPlan_arc (i : Fin ((restPlan.curve 1 restPlan_increasing).inner + 1)) (j : Fin 1) :
    (restPlan.curve 1 restPlan_increasing).arc i j = ⟨0, 0, 0, 0⟩ := by
  unfold JointTrajectory.arc PlanArrays.curve
  dsimp only
  rw [(restPlan_entry _ _).1, (restPlan_entry _ _).1, (restPlan_entry _ _).2, (restPlan_entry _ _).2]
  congr 1
  all_goals norm_num

theorem flat_value (s : ℝ) : (⟨0, 0, 0, 0⟩ : CubicArc ℝ).value s = 0 := by
  unfold CubicArc.value
  ring

theorem flat_slope (s : ℝ) : (⟨0, 0, 0, 0⟩ : CubicArc ℝ).slope s = 0 := by
  unfold CubicArc.slope
  ring

/-- the bounds of a curve that stays at `0` -/
theorem flat_bounds {curve : JointTrajectory ℝ n} (h : ∀ i j, curve.arc i j = ⟨0, 0, 0, 0⟩) :
    curve.bounds Real.sqrt = ⟨fun _ => 0, fun _ => 0, fun _ => 0, fun _ => 0⟩ := by
  have hlow : lowest Real.sqrt ⟨0, 0, 0, 0⟩ = 0 := by
    unfold lowest candidate
    simp only [flat_value, min_self]
  have hhigh : highest Real.sqrt ⟨0, 0, 0, 0⟩ = 0 := by
    unfold highest candidate
    simp only [flat_value, max_self]
  have hfast : ∀ w : ℝ, fastest ⟨0, 0, 0, 0⟩ w = 0 := by
    intro w
    refine le_antisymm (fastest_le fun x _ => ?_) ((abs_nonneg _).trans ((le_max_left _ _).trans (le_max_left _ _)))
    rw [flat_slope, zero_div, abs_zero]
  have hsharp : ∀ w : ℝ, sharpest ⟨0, 0, 0, 0⟩ w = 0 := by
    intro w
    unfold sharpest
    norm_num
  unfold JointTrajectory.bounds
  simp only [h, hlow, hhigh, hfast, hsharp]
  congr 1
  · exact funext fun _ => Finset.inf'_const _ 0
  · exact funext fun _ => Finset.sup'_const _ 0
  · exact funext fun _ => (congrArg _ (Finset.sup'_const _ 0)).trans (max_self 0)
  · exact funext fun _ => (congrArg _ (Finset.sup'_const _ 0)).trans (max_self 0)

theorem tol_pos : (0 : ℝ) < envelopeTol ∧ (0 : ℝ) < limitTol := by
  unfold envelopeTol limitTol
  norm_num

/-- a joint at `0` is inside the band -/
theorem unit_inside {low high : Fin 1 → ℝ} (hlow : ∀ j, low j = 0) (hhigh : ∀ j, high j = 0) :
    ¬ ExecutionPolicy.outside (some (fun _ => -1, fun _ => 1)) low high := by
  rw [ExecutionPolicy.outside_some]
  rintro ⟨j, hj⟩
  rw [hlow, hhigh] at hj
  have htol := tol_pos.1
  rcases hj with hj | hj
  · linarith
  · linarith

/-- and a value of `0` below the limit -/
theorem unit_below {x : Fin 1 → ℝ} (hx : ∀ j, x j = 0) : ¬ ExecutionPolicy.beyond (some fun _ => 1) x := by
  rw [ExecutionPolicy.beyond_some]
  rintro ⟨j, hj⟩
  rw [hx] at hj
  linarith [tol_pos.2]

theorem restPlan_sampled :
    unitPolicy.sampledError (restPlan.curve 1 restPlan_increasing) (some (fun _ => -1, fun _ => 1)) = none := by
  have hq : ∀ k j, (restPlan.curve 1 restPlan_increasing).positions k j = 0 := fun k j => (restPlan_entry _ _).1
  have hv : ∀ k j, ((restPlan.curve 1 restPlan_increasing).velocities.getD fun _ _ => 0) k j = 0 :=
    fun k j => (restPlan_entry _ _).2
  unfold ExecutionPolicy.sampledError
  dsimp only
  rw [if_neg, if_neg, if_neg]
  · rintro ⟨i, hi⟩
    refine unit_below (fun j => ?_) hi
    rw [hv, hv, sub_zero, zero_div, abs_zero]
  · rintro (⟨k, hk⟩ | ⟨i, hi⟩)
    · refine unit_below (fun j => ?_) hk
      rw [hv, abs_zero]
    · refine unit_below (fun j => ?_) hi
      rw [hq, hq, sub_zero, zero_div, abs_zero]
  · rintro ⟨k, hk⟩
    exact unit_inside (hq k) (hq k) hk

/-- **It is admitted** -/
theorem restPlan_admitted : unitPolicy.planError Real.sqrt restPlan (fun _ => 0) none = none := by
  have hband : unitPolicy.envelope [fun _ => 0] = some (fun _ => -1, fun _ => 1) := by
    unfold ExecutionPolicy.envelope unitPolicy
    simp
  have hcurve : unitPolicy.curveError ⟨fun _ => 0, fun _ => 0, fun _ => 0, fun _ => 0⟩ (some (fun _ => -1, fun _ => 1)) =
      none := by
    unfold ExecutionPolicy.curveError
    rw [if_neg, if_neg, if_neg]
    · exact unit_below fun _ => rfl
    · exact unit_below fun _ => rfl
    · exact unit_inside (fun _ => rfl) fun _ => rfl
  have hlaw : unitPolicy.lawError restPlan = none := by
    unfold ExecutionPolicy.lawError restPlan
    simp
  have hstart : unitPolicy.startError ((restPlan.curve 1 restPlan_increasing).positions 0) (fun _ => 0) = none := by
    unfold ExecutionPolicy.startError
    rw [dif_pos one_pos]
    dsimp only
    refine if_pos (Finset.sup'_le _ _ fun j _ => ?_)
    rw [show (restPlan.curve 1 restPlan_increasing).positions 0 j = 0 from (restPlan_entry _ _).1, sub_zero, abs_zero]
    exact zero_le_one
  unfold ExecutionPolicy.planError
  rw [if_neg (by decide), if_neg (by decide), dif_pos restPlan_increasing]
  dsimp only
  rw [flat_bounds restPlan_arc, Option.getD_none, hband, restPlan_sampled, hcurve, hlaw, hstart]
  rfl

/-- so the arm never leaves its limits -/
theorem admission_certifies_rest :
    ∀ t, Certified unitPolicy (unitPolicy.envelope [fun _ => 0]) ((restPlan.curve 1 restPlan_increasing).sampleAt t) := by
  obtain ⟨hinc, hcert⟩ := (admission_certifies (n := 1)).2 unitPolicy restPlan (fun _ => 0) none restPlan_admitted
  refine hcert fun i j => ?_
  rw [restPlan_arc]
  exact ⟨.inl rfl, .inl (mul_zero 3), .inl (mul_zero 2)⟩

end ArmControl.Control
