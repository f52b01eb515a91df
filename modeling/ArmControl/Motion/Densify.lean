import ArmControl.Motion.CurveBounds

/-!
# Densified curves

* `moved_le`        a joint moves no further than its greatest speed allows;
* `Follows`, `Close`   rows along the flown curve, and no step of them too long;
* `densify_close`   what `densify` returns is both.
-/

namespace ArmControl.Motion
open CubicArc Set

namespace JointTrajectory

variable {n : ℕ} {traj : JointTrajectory ℝ n} {i : Fin (traj.inner + 1)} {j : Fin n} {t t' maxStep : ℝ}

/-! ## how far a joint moves -/

/-- within a segment -/
theorem moved_within (h : ∀ i j, Clear (traj.arc i j).c3) (hleft : traj.times i.castSucc ≤ t) (hle : t ≤ t')
    (hright : t' ≤ traj.times i.succ) :
    |(traj.sampleAt t').position j - (traj.sampleAt t).position j| ≤ (traj.bounds Real.sqrt).qdAbsMax j * (t' - t) := by
  have hw := traj.width_pos i
  have hs := fraction_mem hleft (hle.trans hright)
  have hs' := fraction_mem (hleft.trans hle) hright
  have hspeed : ∀ x ∈ Icc (0 : ℝ) 1, |(traj.arc i j).slope x| ≤ (traj.bounds Real.sqrt).qdAbsMax j * traj.width i := by
    intro x hx
    have hone := speed_le h i j hx
    rwa [abs_div, abs_of_pos hw, div_le_iff₀ hw] at hone
  have hmove := abs_value_sub_le hspeed hs hs'
  rw [← position_arc i j hs, ← position_arc i j hs', timeOf_fraction, timeOf_fraction, ← sub_div, sub_sub_sub_cancel_right,
    abs_div, abs_of_pos hw, mul_assoc, mul_div_cancel₀ _ hw.ne', abs_of_nonneg (sub_nonneg.mpr hle)] at hmove
  exact hmove

/-- up to a knot -/
theorem moved_to_knot (h : ∀ i j, Clear (traj.arc i j).c3) (hfirst : traj.times 0 ≤ t) (k : Fin (traj.inner + 2)) :
    t ≤ traj.times k →
      |(traj.sampleAt (traj.times k)).position j - (traj.sampleAt t).position j| ≤
        (traj.bounds Real.sqrt).qdAbsMax j * (traj.times k - t) := by
  induction k using Fin.induction with
  | zero =>
    intro hle
    rw [le_antisymm hle hfirst, sub_self, abs_zero, sub_self, mul_zero]
  | succ i ih =>
    intro hle
    rcases le_total t (traj.times i.castSucc) with hbefore | hafter
    · have hlast := moved_within (j := j) h (le_refl (traj.times i.castSucc)) (traj.increasing i).le le_rfl
      refine (abs_sub_le _ ((traj.sampleAt (traj.times i.castSucc)).position j) _).trans ?_
      have := ih hbefore
      calc _ ≤ (traj.bounds Real.sqrt).qdAbsMax j * (traj.times i.succ - traj.times i.castSucc) +
            (traj.bounds Real.sqrt).qdAbsMax j * (traj.times i.castSucc - t) := add_le_add hlast this
        _ = _ := by ring
    · exact moved_within h hafter hle le_rfl

/-- **A joint moves no further than its greatest speed allows** -/
theorem moved_le (h : ∀ i j, Clear (traj.arc i j).c3) (hfirst : traj.times 0 ≤ t) (hle : t ≤ t')
    (hlast : t' ≤ traj.times (Fin.last _)) :
    |(traj.sampleAt t').position j - (traj.sampleAt t).position j| ≤ (traj.bounds Real.sqrt).qdAbsMax j * (t' - t) := by
  rcases hlast.eq_or_lt with rfl | hlt
  · exact moved_to_knot h hfirst _ hle
  obtain ⟨i, hleft, hright⟩ := exists_segment (hfirst.trans hle) hlt
  rcases le_total t (traj.times i.castSucc) with hbefore | hafter
  · have hknot := moved_to_knot (j := j) h hfirst i.castSucc hbefore
    have hin := moved_within (j := j) h le_rfl hleft hright.le
    refine (abs_sub_le _ ((traj.sampleAt (traj.times i.castSucc)).position j) _).trans ?_
    calc _ ≤ (traj.bounds Real.sqrt).qdAbsMax j * (t' - traj.times i.castSucc) +
          (traj.bounds Real.sqrt).qdAbsMax j * (traj.times i.castSucc - t) := add_le_add hin hknot
      _ = _ := by ring
  · exact moved_within h hafter hle hright.le

/-! ## rows along the curve -/

/-- samples at increasing times from the first knot to the last -/
structure Follows (traj : JointTrajectory ℝ n) (rows : List (Fin n → ℝ)) : Prop where
  two : 2 ≤ rows.length
  first : rows.head? = some (traj.positions 0)
  final : rows.getLast? = some (traj.positions (Fin.last _))
  samples : ∃ ts : List ℝ, ts.Pairwise (· < ·) ∧ ts.head? = some (traj.times 0) ∧
    ts.getLast? = some (traj.times (Fin.last _)) ∧ rows = ts.map fun t => (traj.sampleAt t).position

/-- no joint moves more than `maxStep` from one row to the next -/
def Close (maxStep : ℝ) (rows : List (Fin n → ℝ)) : Prop := rows.IsChain fun a b => ∀ j, |b j - a j| ≤ maxStep

theorem follows_of_times {ts : List ℝ} (htwo : 2 ≤ ts.length) (hup : ts.Pairwise (· < ·))
    (hhead : ts.head? = some (traj.times 0)) (hlast : ts.getLast? = some (traj.times (Fin.last _))) :
    Follows traj (ts.map fun t => (traj.sampleAt t).position) := by
  refine ⟨by rwa [List.length_map], ?_, ?_, ts, hup, hhead, hlast, rfl⟩
  · rw [List.head?_map, hhead, Option.map_some, sampleAt_knot]
  · rw [List.getLast?_map, hlast, Option.map_some, sampleAt_knot]

/-! ## evenly spaced times -/

section
variable {a b : ℝ} {k : ℕ}

theorem linspace_length (a b : ℝ) (num : ℕ) : (linspace a b num).length = num := by
  unfold linspace
  rw [List.length_map, List.length_range]

theorem linspace_increasing (hlt : a < b) (hk : 0 < k) : (linspace a b (k + 1)).Pairwise (· < ·) := by
  have hgap : 0 < (b - a) / ((k + 1 - 1 : ℕ) : ℝ) := div_pos (sub_pos.mpr hlt) (by rw [Nat.add_sub_cancel]; exact_mod_cast hk)
  unfold linspace
  rw [List.pairwise_map]
  refine List.pairwise_lt_range.imp fun {x y} hxy => ?_
  have hcast : (x : ℝ) < y := Nat.cast_lt.mpr hxy
  exact add_lt_add_right (mul_lt_mul_of_pos_right hcast hgap) a

theorem linspace_head (a b : ℝ) (k : ℕ) : (linspace a b (k + 1)).head? = some a := by
  unfold linspace
  rw [List.head?_map, List.head?_range, if_neg k.succ_ne_zero, Option.map_some, Nat.cast_zero, zero_mul, add_zero]

theorem linspace_last (a b : ℝ) (hk : 0 < k) : (linspace a b (k + 1)).getLast? = some b := by
  have hne : (k : ℝ) ≠ 0 := Nat.cast_ne_zero.mpr hk.ne'
  unfold linspace
  rw [List.getLast?_map, List.getLast?_range, if_neg k.succ_ne_zero, Option.map_some, Nat.add_sub_cancel,
    mul_div_cancel₀ _ hne, add_sub_cancel]

theorem linspace_mem {x : ℝ} (hle : a ≤ b) (hk : 0 < k) (hx : x ∈ linspace a b (k + 1)) : x ∈ Icc a b := by
  have hpos : (0 : ℝ) < k := Nat.cast_pos.mpr hk
  obtain ⟨m, hm, rfl⟩ := List.mem_map.mp hx
  have hmk : (m : ℝ) ≤ k := Nat.cast_le.mpr (Nat.le_of_lt_succ (List.mem_range.mp hm))
  have hgap : 0 ≤ (b - a) / k := div_nonneg (sub_nonneg.mpr hle) hpos.le
  rw [Nat.add_sub_cancel]
  have hway : (m : ℝ) * ((b - a) / k) ≤ b - a := by
    calc (m : ℝ) * ((b - a) / k) ≤ k * ((b - a) / k) := mul_le_mul_of_nonneg_right hmk hgap
      _ = b - a := mul_div_cancel₀ _ hpos.ne'
  exact ⟨le_add_of_nonneg_right (mul_nonneg m.cast_nonneg hgap), by linarith⟩

/-- neighbours are one gap apart -/
theorem linspace_chain {R : ℝ → ℝ → Prop} (hle : a ≤ b) (hk : 0 < k)
    (h : ∀ x ∈ Icc a b, ∀ y ∈ Icc a b, y - x = (b - a) / k → R x y) : (linspace a b (k + 1)).IsChain R := by
  have hmem : ∀ m : ℕ, m < k + 1 → a + (m : ℝ) * ((b - a) / ((k + 1 - 1 : ℕ) : ℝ)) ∈ Icc a b := fun m hm =>
    linspace_mem hle hk (List.mem_map.mpr ⟨m, List.mem_range.mpr hm, rfl⟩)
  unfold linspace
  rw [List.isChain_map]
  refine (List.isChain_range_succ _ k).mpr fun m hm => h _ (hmem m (hm.trans k.lt_succ_self)) _ (hmem _ (Nat.succ_lt_succ hm)) ?_
  rw [Nat.add_sub_cancel, Nat.cast_succ]
  ring

end

/-! ## `densify` -/

theorem duration_pos (traj : JointTrajectory ℝ n) : 0 < traj.duration := sub_pos.mpr (traj.strictMono Fin.last_pos)

theorem qdAbsMax_le_peak {peak : ℝ} (hpeak : traj.peak Real.sqrt = some peak) (j : Fin n) :
    (traj.bounds Real.sqrt).qdAbsMax j ≤ peak := by
  unfold JointTrajectory.peak at hpeak
  split_ifs at hpeak with hn
  rw [← Option.some.inj hpeak]
  exact Finset.le_sup' _ (Finset.mem_univ j)

/-- two rows do when nothing moves -/
theorem two_rows (traj : JointTrajectory ℝ n) : Follows traj [traj.positions 0, traj.positions (Fin.last _)] := by
  have hrows : Follows traj ([traj.times 0, traj.times (Fin.last _)].map fun t => (traj.sampleAt t).position) :=
    follows_of_times le_rfl (List.pairwise_pair.mpr (traj.strictMono Fin.last_pos)) rfl rfl
  rw [List.map_cons, List.map_singleton, sampleAt_knot, sampleAt_knot] at hrows
  exact hrows

/-- **Densified curves respect their step**: at least two rows, along the curve from end to end, and no joint moves
more than `maxStep` from one to the next where the speeds are clear of the threshold. -/
theorem densify_close (traj : JointTrajectory ℝ n) (hn : 0 < n) (hstep : 0 < maxStep) :
    ∃ rows, traj.densify Real.sqrt maxStep = .ok rows ∧ Follows traj rows ∧
      ((∀ i j, Clear (traj.arc i j).c3) → Close maxStep rows) := by
  have hpeak : traj.peak Real.sqrt = some (Finset.univ.sup' ⟨⟨0, hn⟩, Finset.mem_univ _⟩ (traj.bounds Real.sqrt).qdAbsMax) :=
    dif_pos hn
  generalize Finset.univ.sup' ⟨⟨0, hn⟩, Finset.mem_univ _⟩ (traj.bounds Real.sqrt).qdAbsMax = peak at hpeak
  have hdur := traj.duration_pos
  unfold densify
  rw [if_neg (not_not.mpr hstep), hpeak]
  dsimp only
  by_cases hrest : peak ≤ 0 ∨ traj.duration ≤ 0
  · rw [if_pos hrest]
    refine ⟨_, rfl, traj.two_rows, fun h => ?_⟩
    have hzero : peak ≤ 0 := hrest.resolve_right (not_le_of_gt hdur)
    refine List.isChain_pair.mpr fun j => ?_
    have hmove := moved_le (j := j) h le_rfl (traj.first_le _) le_rfl
    rw [sampleAt_knot, sampleAt_knot] at hmove
    refine hmove.trans (le_trans ?_ hstep.le)
    exact mul_nonpos_of_nonpos_of_nonneg ((qdAbsMax_le_peak hpeak j).trans hzero) hdur.le
  · rw [if_neg hrest]
    set k := max ⌈traj.duration * peak / maxStep⌉₊ 1 with hk
    have hone : 0 < k := lt_of_lt_of_le one_pos (le_max_right _ _)
    have hlt : traj.times 0 < traj.times (Fin.last _) := traj.strictMono Fin.last_pos
    refine ⟨_, rfl, follows_of_times ?_ (linspace_increasing hlt hone) (linspace_head _ _ _) (linspace_last _ _ hone),
      fun h => ?_⟩
    · rw [linspace_length]
      exact Nat.succ_le_succ hone
    · have hpos : (0 : ℝ) < k := Nat.cast_pos.mpr hone
      have hgap : traj.duration / k * peak ≤ maxStep := by
        have hceil : traj.duration * peak / maxStep ≤ k :=
          (Nat.le_ceil _).trans (Nat.cast_le.mpr (le_max_left _ _))
        rw [div_le_iff₀ hstep] at hceil
        rw [div_mul_eq_mul_div, div_le_iff₀ hpos, mul_comm maxStep]
        exact hceil
      unfold Close
      rw [List.isChain_map]
      refine linspace_chain hlt.le hone fun x hx y hy hxy j => ?_
      have hle : x ≤ y := by
        have : 0 ≤ (traj.times (Fin.last _) - traj.times 0) / (k : ℝ) := div_nonneg hdur.le hpos.le
        linarith
      refine (moved_le (j := j) h hx.1 hle hy.2).trans (le_trans ?_ hgap)
      rw [hxy, mul_comm]
      exact mul_le_mul_of_nonneg_left (qdAbsMax_le_peak hpeak j) (div_nonneg hdur.le hpos.le)

/-! ## where the guards show -/

/-- one segment of length one, from rest to rest -/
def restToRest (n : ℕ) (d : ℝ) : JointTrajectory ℝ n where
  inner := 0
  times := fun k => k.val
  positions := fun k _ => k.val * d
  velocities := some fun _ _ => 0
  increasing := fun i => by
    rw [Nat.cast_lt]
    exact Nat.lt_succ_self i.val

theorem restToRest_arc {n : ℕ} {d : ℝ} (i : Fin ((restToRest n d).inner + 1)) (j : Fin n) :
    (restToRest n d).arc i j = ⟨0, 0, 3 * d, -2 * d⟩ := by
  obtain rfl : i = 0 := Subsingleton.elim (α := Fin 1) i 0
  unfold arc restToRest width
  dsimp only
  congr 1
  all_goals norm_num

/-- the speed between the ends is not looked at below the threshold -/
theorem restToRest_qdAbsMax {n : ℕ} {d : ℝ} (hd : |-2 * d| ≤ tiny) (j : Fin n) :
    ((restToRest n d).bounds Real.sqrt).qdAbsMax j = 0 := by
  refine le_antisymm (max_le le_rfl (Finset.sup'_le _ _ fun i _ => ?_)) (le_max_left _ _)
  rw [restToRest_arc]
  unfold fastest turning
  rw [if_neg (not_lt_of_ge hd)]
  unfold CubicArc.slope
  norm_num
  ring_nf
  norm_num

/-- **No joints, or a joint that moves by less than the threshold**: an error, and two rows too far apart. -/
theorem densify_guards :
    (restToRest 0 1).densify Real.sqrt 1 = .error "zero-size array to reduction operation maximum which has no identity" ∧
      ∃ rows, (restToRest 1 (4 / 10 * tiny)).densify Real.sqrt (1 / 10 * tiny) = .ok rows ∧
        ¬ Close (1 / 10 * tiny) rows := by
  constructor
  · unfold densify
    rw [if_neg (not_not.mpr one_pos)]
    rfl
  · have htiny := tiny_pos
    have hd : |-2 * (4 / 10 * tiny : ℝ)| ≤ tiny := by
      rw [abs_le]
      constructor <;> linarith
    have hpeak : (restToRest 1 (4 / 10 * tiny)).peak Real.sqrt = some 0 := by
      unfold JointTrajectory.peak
      rw [dif_pos one_pos]
      refine congrArg some (le_antisymm (Finset.sup'_le _ _ fun j _ => (restToRest_qdAbsMax hd j).le) ?_)
      exact (restToRest_qdAbsMax hd 0).ge.trans (Finset.le_sup' _ (Finset.mem_univ 0))
    refine ⟨[(restToRest 1 (4 / 10 * tiny)).positions 0, (restToRest 1 (4 / 10 * tiny)).positions (Fin.last _)], ?_, ?_⟩
    · unfold densify
      rw [if_neg (not_not.mpr (by positivity)), hpeak]
      dsimp only
      rw [if_pos (.inl le_rfl)]
    · intro hclose
      have hstep := List.isChain_pair.mp hclose 0
      have hmove : |(1 : ℝ) * (4 / 10 * tiny) - 0 * (4 / 10 * tiny)| ≤ 1 / 10 * tiny := by
        convert hstep using 3 <;> simp [restToRest]
      rw [abs_le] at hmove
      linarith [hmove.2]

/-- a joint that moves by `1` -/
theorem densify_close_one :
    ∃ rows, (restToRest 1 1).densify Real.sqrt (1 / 10) = .ok rows ∧ Close (1 / 10) rows := by
  have hstep : (0 : ℝ) < 1 / 10 := by norm_num
  obtain ⟨rows, hrows, -, hclose⟩ := densify_close (restToRest 1 1) one_pos hstep
  refine ⟨rows, hrows, hclose fun i j => .inr ?_⟩
  rw [restToRest_arc]
  have htiny : (tiny : ℝ) ≤ 1 := div_le_one_of_le₀ (one_le_pow₀ (by norm_num)) (by positivity)
  norm_num
  linarith

end JointTrajectory

end ArmControl.Motion
