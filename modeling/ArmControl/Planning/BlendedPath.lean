import ArmControl.Lib.Polyline
import ArmControl.Planning.Retiming
import Mathlib.Analysis.Calculus.Deriv.Add
import Mathlib.Analysis.Calculus.Deriv.Comp
import Mathlib.Analysis.Calculus.Deriv.Mul
import Mathlib.Analysis.InnerProductSpace.PiL2

/-!
# The blended path follows the route

* `Spaced`         waypoints far enough apart for every line to be kept;
* `Laid`           pieces that join up in place and in direction, none further from the route than the tolerance;
* `blends_laid`    those of `_BlendedPath`;
* `path_at`        the path at a point of a piece;
* `SmoothOn`       a derivative that does not jump;
* `blended_path`   the whole path.
-/

namespace ArmControl.Planning.Retiming

open Polyline Set

variable {n : ℕ}

/-- the Euclidean norm -/
noncomputable def euclidNorm (n : ℕ) : Seminorm ℝ (Fin n → ℝ) :=
  (normSeminorm ℝ (EuclideanSpace ℝ (Fin n))).comp (WithLp.linearEquiv 2 ℝ (Fin n → ℝ)).symm.toLinearMap

theorem euclid_eq (v : Fin n → ℝ) : euclid Real.sqrt v = euclidNorm n v := by
  show √(∑ j, v j * v j) = ‖WithLp.toLp 2 v‖
  rw [EuclideanSpace.norm_eq]
  congr 1
  refine Finset.sum_congr rfl fun j _ => ?_
  rw [Real.norm_eq_abs, sq_abs, sq]

/-- consecutive waypoints are more than 1e-11 apart -/
def Spaced (w : List (Fin n → ℝ)) : Prop := w.IsChain fun a b => 1 / 10 ^ 11 < euclidNorm n (b - a)

/-- pieces that lead from `x`, in direction `d`, to the end of the route -/
structure Laid (tolerance : ℝ) (w : List (Fin n → ℝ)) (x d : Fin n → ℝ) (path : List (Piece ℝ n)) : Prop where
  spans : ∀ p ∈ path, 0 < p.span
  within : ∀ p ∈ path, ∀ u ∈ Icc (0 : ℝ) 1, Within (euclidNorm n) w tolerance (p.value u)
  joined : path.IsChain fun p q => p.value 1 = q.value 0 ∧ p.tangent 1 = q.tangent 0
  first : ∃ p, path.head? = some p ∧ p.value 0 = x ∧ p.tangent 0 = d
  last : ∃ p, path.getLast? = some p ∧ some (p.value 1) = w.getLast?

variable {tolerance : ℝ} {w : List (Fin n → ℝ)} {a b c x d previous stop : Fin n → ℝ} {path : List (Piece ℝ n)} {p : Piece ℝ n} {lam mu : ℝ}

theorem Laid.cons (h : Laid tolerance w (p.value 1) (p.tangent 1) path) (hspan : 0 < p.span)
    (hwithin : ∀ u ∈ Icc (0 : ℝ) 1, Within (euclidNorm n) w tolerance (p.value u)) :
    Laid tolerance w (p.value 0) (p.tangent 0) (p :: path) := by
  obtain ⟨q, hq, hplace, hdir⟩ := h.first
  refine ⟨?_, ?_, ?_, ⟨p, rfl, rfl, rfl⟩, ?_⟩
  · intro q hq
    rcases List.mem_cons.mp hq with rfl | hq
    · exact hspan
    · exact h.spans q hq
  · intro q hq
    rcases List.mem_cons.mp hq with rfl | hq
    · exact hwithin
    · exact h.within q hq
  · obtain ⟨rest, rfl⟩ : ∃ rest, path = q :: rest := List.head?_eq_some_iff.mp hq
    exact .cons_cons ⟨hplace.symm, hdir.symm⟩ h.joined
  · obtain ⟨r, hr, hend⟩ := h.last
    obtain ⟨rest, rfl⟩ : ∃ rest, path = q :: rest := List.head?_eq_some_iff.mp hq
    exact ⟨r, by rwa [List.getLast?_cons_cons], hend⟩

/-- the last piece -/
theorem Laid.single (hspan : 0 < p.span) (hwithin : ∀ u ∈ Icc (0 : ℝ) 1, Within (euclidNorm n) w tolerance (p.value u))
    (hlast : some (p.value 1) = w.getLast?) : Laid tolerance w (p.value 0) (p.tangent 0) [p] where
  spans := fun _ hq => List.mem_singleton.mp hq ▸ hspan
  within := fun _ hq => List.mem_singleton.mp hq ▸ hwithin
  joined := .singleton p
  first := ⟨p, rfl, rfl, rfl⟩
  last := ⟨p, rfl, hlast⟩

/-- a waypoint more in front -/
theorem Laid.before (h : Laid tolerance (b :: w) x d path) (a : Fin n → ℝ) : Laid tolerance (a :: b :: w) x d path where
  spans := h.spans
  within := fun p hp u hu => (h.within p hp u hu).cons a
  joined := h.joined
  first := h.first
  last := by
    rw [List.getLast?_cons_cons]
    exact h.last

/-! ## lines -/

/-- a line along a leg, from the fraction `lam` of it to the fraction `mu` -/
theorem line_leg (hleg : 0 < euclidNorm n (b - a)) (hprevious : previous = a + lam • (b - a)) (hstop : stop = a + mu • (b - a))
    (hlong : 1 / 10 ^ 12 < (mu - lam) * euclidNorm n (b - a)) :
    ∃ p, line Real.sqrt previous stop = [p] ∧ 0 < p.span ∧ (∀ u, p.value u = a + (lam + u * (mu - lam)) • (b - a)) ∧
      ∀ u, p.tangent u = (euclidNorm n (b - a))⁻¹ • (b - a) := by
  have hdiff : stop - previous = (mu - lam) • (b - a) := by
    rw [hprevious, hstop]
    module
  have hpos : 0 < mu - lam := by
    have hprod : 0 < (mu - lam) * euclidNorm n (b - a) := lt_trans (by norm_num) hlong
    exact (pos_iff_pos_of_mul_pos hprod).mpr hleg
  have hnorm : euclid Real.sqrt (stop - previous) = (mu - lam) * euclidNorm n (b - a) := by
    rw [euclid_eq, hdiff, map_smul_eq_mul, Real.norm_of_nonneg hpos.le]
  refine ⟨⟨previous, stop - previous, 0, (mu - lam) * euclidNorm n (b - a)⟩, ?_, mul_pos hpos hleg, fun u => ?_, fun u => ?_⟩
  · unfold line
    rw [hnorm]
    exact if_pos hlong
  · unfold Piece.value
    dsimp only
    rw [hdiff, hprevious]
    module
  · unfold Piece.tangent
    dsimp only
    rw [hdiff, smul_zero, add_zero, smul_smul, mul_inv, mul_comm (mu - lam)⁻¹, mul_assoc, inv_mul_cancel₀ hpos.ne', mul_one]

theorem line_within (hlow : 0 ≤ lam) (hle : lam ≤ mu) (hhigh : mu ≤ 1) (htol : 0 ≤ tolerance) (w : List (Fin n → ℝ)) {u : ℝ}
    (hu : u ∈ Icc (0 : ℝ) 1) : Within (euclidNorm n) (a :: b :: w) tolerance (a + (lam + u * (mu - lam)) • (b - a)) := by
  refine within_segment ?_ htol w
  rw [segment_eq_image']
  refine ⟨lam + u * (mu - lam), ⟨?_, ?_⟩, rfl⟩
  · have := mul_nonneg hu.1 (sub_nonneg.mpr hle)
    linarith
  · have := mul_le_mul_of_nonneg_right hu.2 (sub_nonneg.mpr hle)
    linarith

/-! ## corners -/

theorem norm_unit (h : 0 < euclidNorm n (b - a)) : euclidNorm n ((euclidNorm n (b - a))⁻¹ • (b - a)) ≤ 1 := by
  rw [map_smul_eq_mul, Real.norm_of_nonneg (inv_nonneg.mpr h.le), inv_mul_cancel₀ h.ne']

/-- the parabola at a corner -/
noncomputable def cornerPiece (b d e : Fin n → ℝ) (r : ℝ) : Piece ℝ n := ⟨b - r • d, (2 * r) • d, r • (e - d), 2 * r⟩

theorem blend_value (b d e : Fin n → ℝ) (r u : ℝ) : (cornerPiece b d e r).value u = corner b d e r u := rfl

theorem blend_tangent {r : ℝ} (hr : 0 < r) (b d e : Fin n → ℝ) (u : ℝ) :
    (cornerPiece b d e r).tangent u = (1 - u) • d + u • e := by
  unfold Piece.tangent cornerPiece
  dsimp only
  rw [smul_add, smul_smul, smul_smul, smul_smul, inv_mul_cancel₀ (mul_pos two_pos hr).ne']
  have hcoef : (2 * r)⁻¹ * (2 * u * r) = u := by
    field_simp
  rw [← mul_assoc] at *
  rw [mul_assoc (2 * r)⁻¹, hcoef]
  module

theorem corner_zero (b d e : Fin n → ℝ) (r : ℝ) : corner b d e r 0 = b - r • d := by
  unfold corner
  module

theorem corner_one (b d e : Fin n → ℝ) (r : ℝ) : corner b d e r 1 = b + r • e := by
  unfold corner
  module

/-! ## the whole path -/

theorem blends_laid (htol : 0 < tolerance) (rest : List (Fin n → ℝ)) (hspaced : Spaced (a :: b :: rest)) (hlow : 0 ≤ lam)
    (hhigh : lam ≤ 1 / 4) :
    Laid tolerance (a :: b :: rest) (a + lam • (b - a)) ((euclidNorm n (b - a))⁻¹ • (b - a))
      (blends Real.sqrt tolerance (a + lam • (b - a)) (a :: b :: rest)) := by
  induction rest generalizing a b lam with
  | nil =>
    have hleg : 1 / 10 ^ 11 < euclidNorm n (b - a) := (List.isChain_cons_cons.mp hspaced).1
    have hpos : 0 < euclidNorm n (b - a) := lt_trans (by norm_num) hleg
    have hstop : b = a + (1 : ℝ) • (b - a) := by
      module
    have hlong : 1 / 10 ^ 12 < (1 - lam) * euclidNorm n (b - a) := by
      nlinarith
    obtain ⟨p, hline, hspan, hvalue, htangent⟩ := line_leg hpos rfl hstop hlong
    have hlaid : Laid tolerance [a, b] (p.value 0) (p.tangent 0) [p] := by
      refine Laid.single hspan (fun u hu => ?_) ?_
      · rw [hvalue]
        exact line_within hlow (by linarith) le_rfl htol.le [] hu
      · rw [hvalue, one_mul, add_sub_cancel, ← hstop]
        rfl
    rw [hvalue, htangent, zero_mul, add_zero] at hlaid
    unfold blends
    rw [hline]
    exact hlaid
  | cons c rest ih =>
    obtain ⟨hleg, hspaced'⟩ := List.isChain_cons_cons.mp hspaced
    have hleg' : 1 / 10 ^ 11 < euclidNorm n (c - b) := (List.isChain_cons_cons.mp hspaced').1
    have hpos : 0 < euclidNorm n (b - a) := lt_trans (by norm_num) hleg
    have hpos' : 0 < euclidNorm n (c - b) := lt_trans (by norm_num) hleg'
    unfold blends
    dsimp only
    rw [euclid_eq, euclid_eq]
    generalize hr : min tolerance (min (1 / 4 * euclidNorm n (b - a)) (1 / 4 * euclidNorm n (c - b))) = r
    have hrpos : 0 < r := hr ▸ lt_min htol (lt_min (by linarith) (by linarith))
    have hrtol : r ≤ tolerance := hr ▸ min_le_left _ _
    have hrin : r ≤ 1 / 4 * euclidNorm n (b - a) := hr ▸ (min_le_right _ _).trans (min_le_left _ _)
    have hrout : r ≤ 1 / 4 * euclidNorm n (c - b) := hr ▸ (min_le_right _ _).trans (min_le_right _ _)
    -- the line ends at the fraction `1 - r / L` of the leg
    have hfrac : r / euclidNorm n (b - a) ≤ 1 / 4 := by
      rw [div_le_iff₀ hpos]
      exact hrin
    have hstart : b - r • (euclidNorm n (b - a))⁻¹ • (b - a) = a + (1 - r / euclidNorm n (b - a)) • (b - a) := by
      rw [smul_smul, ← div_eq_mul_inv]
      module
    have hlong : 1 / 10 ^ 12 < (1 - r / euclidNorm n (b - a) - lam) * euclidNorm n (b - a) := by
      nlinarith
    obtain ⟨p, hline, hspan, hvalue, htangent⟩ := line_leg hpos rfl hstart hlong
    -- behind the corner the next leg begins at the fraction `r / L'`
    have hfrac' : r / euclidNorm n (c - b) ≤ 1 / 4 := by
      rw [div_le_iff₀ hpos']
      exact hrout
    have hstop : b + r • (euclidNorm n (c - b))⁻¹ • (c - b) = b + (r / euclidNorm n (c - b)) • (c - b) := by
      rw [smul_smul, ← div_eq_mul_inv]
    have hnext := ih hspaced' (div_nonneg hrpos.le hpos'.le) hfrac'
    rw [← hstop] at hnext
    -- the two directions
    generalize hd : (euclidNorm n (b - a))⁻¹ • (b - a) = d at *
    generalize he : (euclidNorm n (c - b))⁻¹ • (c - b) = e at *
    have hblend : Laid tolerance (b :: c :: rest) ((cornerPiece b d e r).value 0) ((cornerPiece b d e r).tangent 0)
        (cornerPiece b d e r :: blends Real.sqrt tolerance (b + r • e) (b :: c :: rest)) := by
      refine Laid.cons ?_ (mul_pos two_pos hrpos) fun u hu => ?_
      · rw [blend_value, corner_one, blend_tangent hrpos, sub_self, zero_smul, zero_add, one_smul]
        exact hnext
      · rw [blend_value]
        exact ⟨b, onPolyline_head b _, (corner_within (hd ▸ norm_unit hpos) (he ▸ norm_unit hpos') hrpos.le hu).trans hrtol⟩
    rw [blend_value, corner_zero, blend_tangent hrpos, sub_zero, one_smul, zero_smul, add_zero] at hblend
    have hlaid : Laid tolerance (a :: b :: c :: rest) (p.value 0) (p.tangent 0)
        (p :: cornerPiece b d e r :: blends Real.sqrt tolerance (b + r • e) (b :: c :: rest)) := by
      refine Laid.cons ?_ hspan fun u hu => ?_
      · rw [hvalue, htangent, one_mul, add_sub_cancel, ← hstart]
        exact hblend.before a
      · rw [hvalue]
        exact line_within hlow (by linarith) (by linarith [div_nonneg hrpos.le hpos.le]) htol.le _ hu
    rw [hvalue, htangent, zero_mul, add_zero] at hlaid
    rw [hline]
    exact hlaid

theorem blendedPath_laid (htol : 0 < tolerance) (rest : List (Fin n → ℝ)) (hspaced : Spaced (a :: b :: rest)) :
    ∃ d, Laid tolerance (a :: b :: rest) a d (blendedPath Real.sqrt (a :: b :: rest) tolerance) := by
  have hlaid := blends_laid htol rest hspaced (le_refl (0 : ℝ)) (by norm_num)
  rw [zero_smul, add_zero] at hlaid
  exact ⟨_, hlaid⟩

/-! ## a point of a piece -/

/-- the length of some pieces -/
def spanSum (path : List (Piece ℝ n)) : ℝ := (path.map Piece.span).sum

variable {pre post : List (Piece ℝ n)} {r s : ℝ}

theorem spanSum_append (pre post : List (Piece ℝ n)) : spanSum (pre ++ post) = spanSum pre + spanSum post := by
  unfold spanSum
  rw [List.map_append, List.sum_append]

theorem spanSum_snoc (pre : List (Piece ℝ n)) (p : Piece ℝ n) : spanSum (pre ++ [p]) = spanSum pre + p.span := by
  rw [spanSum_append]
  unfold spanSum
  rw [List.map_singleton, List.sum_singleton]

theorem spanSum_nonneg (h : ∀ p ∈ path, 0 < p.span) : 0 ≤ spanSum path := by
  refine List.sum_nonneg fun x hx => ?_
  obtain ⟨p, hp, rfl⟩ := List.mem_map.mp hx
  exact (h p hp).le

/-- past some pieces -/
theorem locate_skip (h : ∀ p ∈ pre, 0 < p.span) (hne : post ≠ []) (hs : spanSum pre ≤ s) :
    locate (pre ++ post) s = locate post (s - spanSum pre) := by
  induction pre generalizing s with
  | nil =>
    show locate post s = locate post (s - 0)
    rw [sub_zero]
  | cons p pre ih =>
    have hrest := spanSum_nonneg fun q hq => h q (List.mem_cons_of_mem p hq)
    have hsum : spanSum (p :: pre) = p.span + spanSum pre := rfl
    rw [hsum] at hs ⊢
    obtain ⟨q, rest, hq⟩ := List.exists_cons_of_ne_nil (List.append_ne_nil_of_right_ne_nil pre hne)
    rw [List.cons_append, hq]
    show (if s < p.span then some (p, s / p.span) else locate (q :: rest) (s - p.span)) = _
    rw [if_neg (by linarith), ← hq, ih (fun q hq => h q (List.mem_cons_of_mem p hq)) (by linarith), sub_sub]

/-- **The path at a point of a piece**, its ends included -/
theorem path_at (h : Laid tolerance w x d (pre ++ p :: post)) (hr : r ∈ Icc (0 : ℝ) p.span) :
    pathValue (pre ++ p :: post) (spanSum pre + r) = p.value (r / p.span) ∧
      pathTangent (pre ++ p :: post) (spanSum pre + r) = p.tangent (r / p.span) := by
  have hspan : 0 < p.span := h.spans p (List.mem_append_right pre List.mem_cons_self)
  have hskip : locate (pre ++ p :: post) (spanSum pre + r) = locate (p :: post) r := by
    rw [locate_skip (fun q hq => h.spans q (List.mem_append_left _ hq)) (List.cons_ne_nil p post) (le_add_of_nonneg_right hr.1),
      add_sub_cancel_left]
  unfold pathValue pathTangent
  rw [hskip]
  cases post with
  | nil => exact ⟨rfl, rfl⟩
  | cons q post =>
    unfold locate
    rcases hr.2.lt_or_eq with hlt | rfl
    · rw [if_pos hlt]
      exact ⟨rfl, rfl⟩
    · -- the end of a piece is the beginning of the next one
      have hjoined : p.value 1 = q.value 0 ∧ p.tangent 1 = q.tangent 0 :=
        (List.isChain_cons_cons.mp (List.isChain_append.mp h.joined).2.1).1
      have hq : 0 < q.span := h.spans q (List.mem_append_right pre (List.mem_cons_of_mem p List.mem_cons_self))
      have hzero : locate (q :: post) 0 = some (q, 0) := by
        cases post with
        | nil =>
          show some (q, 0 / q.span) = _
          rw [zero_div]
        | cons q' post =>
          unfold locate
          rw [if_pos hq, zero_div]
      rw [if_neg (lt_irrefl _), sub_self, hzero, div_self hspan.ne']
      exact ⟨hjoined.1.symm, hjoined.2.symm⟩

theorem path_first (h : Laid tolerance w x d path) : pathValue path 0 = x := by
  obtain ⟨p, hp, hx, -⟩ := h.first
  obtain ⟨rest, rfl⟩ : ∃ rest, path = p :: rest := List.head?_eq_some_iff.mp hp
  have hspan : 0 < p.span := h.spans p List.mem_cons_self
  have hat : pathValue ([] ++ p :: rest) (spanSum [] + 0) = p.value (0 / p.span) := (path_at h (left_mem_Icc.mpr hspan.le)).1
  rw [zero_div, hx] at hat
  rw [← hat]
  show pathValue (p :: rest) 0 = pathValue (p :: rest) (0 + 0)
  rw [add_zero]

theorem path_last (h : Laid tolerance w x d path) : some (pathValue path (spanSum path)) = w.getLast? := by
  obtain ⟨p, hp, hend⟩ := h.last
  obtain ⟨pre, rfl⟩ : ∃ pre, path = pre ++ [p] := List.getLast?_eq_some_iff.mp hp
  have hspan : 0 < p.span := h.spans p (List.mem_append_right pre List.mem_cons_self)
  have hat := (path_at h (right_mem_Icc.mpr hspan.le)).1
  rw [spanSum_snoc, hat, div_self hspan.ne', hend]

/-! ## derivatives in parts -/

section
variable {E : Type*} [NormedAddCommGroup E] [NormedSpace ℝ E] {f f' g g' : ℝ → E} {S : Set ℝ} {k l m : ℝ}

/-- a derivative, one-sided at the ends, that does not jump -/
structure SmoothOn (f f' : ℝ → E) (S : Set ℝ) : Prop where
  derivative : ∀ s ∈ S, HasDerivWithinAt f (f' s) S s
  continuous : ContinuousOn f' S

theorem SmoothOn.congr (h : SmoothOn f f' S) (hf : ∀ s ∈ S, g s = f s ∧ g' s = f' s) : SmoothOn g g' S where
  derivative := by
    intro s hs
    rw [(hf s hs).2]
    exact (h.derivative s hs).congr (fun t ht => (hf t ht).1) (hf s hs).1
  continuous := h.continuous.congr fun s hs => (hf s hs).2

/-- away from an interval there is nothing to show -/
theorem SmoothOn.within (h : SmoothOn f f' (Icc k l)) (s : ℝ) : HasDerivWithinAt f (f' s) (Icc k l) s := by
  by_cases hs : s ∈ Icc k l
  · exact h.derivative s hs
  · exact HasFDerivWithinAt.of_notMem_closure (by rwa [isClosed_Icc.closure_eq])

/-- two intervals that share an end -/
theorem SmoothOn.join (h : SmoothOn f f' (Icc k l)) (h' : SmoothOn f f' (Icc l m)) (hkl : k ≤ l) (hlm : l ≤ m) :
    SmoothOn f f' (Icc k m) := by
  rw [← Icc_union_Icc_eq_Icc hkl hlm]
  exact ⟨fun s _ => (h.within s).union (h'.within s), h.continuous.union_of_isClosed h'.continuous isClosed_Icc isClosed_Icc⟩

end

/-! ## the path is C1 -/

theorem piece_derivative (p : Piece ℝ n) (u : ℝ) : HasDerivAt p.value (p.linear + (2 * u) • p.quad) u := by
  have hid : HasDerivAt (fun u : ℝ => u) 1 u := hasDerivAt_id' u
  have hinner : HasDerivAt (fun u : ℝ => p.linear + u • p.quad) ((1 : ℝ) • p.quad) u := (hid.smul_const p.quad).const_add p.linear
  refine ((hid.smul hinner).const_add p.start).congr_deriv ?_
  module

/-- a piece, from `start` on -/
theorem piece_smooth (p : Piece ℝ n) (start : ℝ) (S : Set ℝ) :
    SmoothOn (fun s => p.value ((s - start) / p.span)) (fun s => p.tangent ((s - start) / p.span)) S where
  derivative := by
    intro s _
    have hu : HasDerivAt (fun s : ℝ => (s - start) / p.span) (1 / p.span) s := ((hasDerivAt_id' s).sub_const start).div_const p.span
    refine ((piece_derivative p _).scomp s hu).hasDerivWithinAt.congr_deriv ?_
    rw [one_div]
    rfl
  continuous := by
    unfold Piece.tangent
    fun_prop

theorem path_smooth (h : Laid tolerance w x d (pre ++ post)) :
    SmoothOn (pathValue (pre ++ post)) (pathTangent (pre ++ post)) (Icc 0 (spanSum pre)) := by
  induction pre using List.reverseRecOn generalizing post with
  | nil =>
    have hempty : spanSum ([] : List (Piece ℝ n)) = 0 := rfl
    rw [hempty, Icc_self]
    exact ⟨fun _ _ => HasFDerivWithinAt.singleton, continuousOn_singleton _ _⟩
  | append_singleton pre p ih =>
    rw [List.append_assoc, List.singleton_append] at h ⊢
    have hspan : 0 < p.span := h.spans p (List.mem_append_right pre List.mem_cons_self)
    have hpre : 0 ≤ spanSum pre := spanSum_nonneg fun q hq => h.spans q (List.mem_append_left _ hq)
    rw [spanSum_snoc]
    refine (ih h).join ((piece_smooth p (spanSum pre) _).congr fun s hs => ?_) hpre (le_add_of_nonneg_right hspan.le)
    have hat := path_at h (r := s - spanSum pre) ⟨sub_nonneg.mpr hs.1, by linarith [hs.2]⟩
    rwa [add_sub_cancel] at hat

/-- every point of a path is on a piece -/
theorem exists_piece (path : List (Piece ℝ n)) (hne : path ≠ []) (hs : s ∈ Icc 0 (spanSum path)) :
    ∃ pre p post r, path = pre ++ p :: post ∧ r ∈ Icc 0 p.span ∧ s = spanSum pre + r := by
  induction path generalizing s with
  | nil => exact (hne rfl).elim
  | cons p path ih =>
    have hsum : spanSum (p :: path) = p.span + spanSum path := rfl
    rcases le_or_gt s p.span with hle | hgt
    · exact ⟨[], p, path, s, rfl, ⟨hs.1, hle⟩, (zero_add s).symm⟩
    · have hmore : path ≠ [] := by
        rintro rfl
        exact absurd hs.2 (by rw [hsum]; show ¬ s ≤ p.span + 0; linarith)
      obtain ⟨pre, q, post, r, rfl, hr, hat⟩ := ih hmore (s := s - p.span) ⟨by linarith, by linarith [hs.2]⟩
      refine ⟨p :: pre, q, post, r, rfl, hr, ?_⟩
      show s = p.span + spanSum pre + r
      linarith

theorem path_within (h : Laid tolerance w x d path) (hs : s ∈ Icc 0 (spanSum path)) :
    Within (euclidNorm n) w tolerance (pathValue path s) := by
  have hne : path ≠ [] := by
    rintro rfl
    obtain ⟨p, hp, -⟩ := h.first
    cases hp
  obtain ⟨pre, p, post, r, rfl, hr, rfl⟩ := exists_piece path hne hs
  have hspan : 0 < p.span := h.spans p (List.mem_append_right pre List.mem_cons_self)
  rw [(path_at h hr).1]
  exact h.within p (List.mem_append_right pre List.mem_cons_self) _ ⟨div_nonneg hr.1 hspan.le, (div_le_one hspan).mpr hr.2⟩

/-- **The blended path**: from the first waypoint to the last one, nowhere further from the route than the tolerance, and C1 -/
theorem blended_path (htol : 0 < tolerance) (rest : List (Fin n → ℝ)) (hspaced : Spaced (a :: b :: rest)) :
    let path := blendedPath Real.sqrt (a :: b :: rest) tolerance
    pathValue path 0 = a ∧ some (pathValue path (spanSum path)) = (a :: b :: rest).getLast? ∧
      (∀ s ∈ Icc 0 (spanSum path), Within (euclidNorm n) (a :: b :: rest) tolerance (pathValue path s)) ∧
      SmoothOn (pathValue path) (pathTangent path) (Icc 0 (spanSum path)) := by
  obtain ⟨d, hlaid⟩ := blendedPath_laid htol rest hspaced
  have hwhole := hlaid
  rw [← List.append_nil (blendedPath _ _ _)] at hwhole
  have hsmooth := path_smooth hwhole
  rw [List.append_nil] at hsmooth
  exact ⟨path_first hlaid, path_last hlaid, fun s hs => path_within hlaid hs, hsmooth⟩

theorem spaced_unit (h : ∑ j, (b - a) j * (b - a) j = 1) : 1 / 10 ^ 11 < euclidNorm n (b - a) := by
  rw [← euclid_eq]
  show _ < √(∑ j, (b - a) j * (b - a) j)
  rw [h, Real.sqrt_one]
  norm_num

theorem blended_path_corner :
    let path := blendedPath Real.sqrt [![0, 0], ![1, 0], ![1, 1]] (1 / 500)
    pathValue path 0 = (![0, 0] : Fin 2 → ℝ) ∧ some (pathValue path (spanSum path)) = some ![1, 1] := by
  have hspaced : Spaced [(![0, 0] : Fin 2 → ℝ), ![1, 0], ![1, 1]] := by
    refine .cons_cons (spaced_unit ?_) (.cons_cons (spaced_unit ?_) (.singleton _))
    · simp
    · simp
  obtain ⟨hfirst, hlast, -⟩ := blended_path (by norm_num : (0 : ℝ) < 1 / 500) [![1, 1]] hspaced
  exact ⟨hfirst, hlast⟩

end ArmControl.Planning.Retiming
