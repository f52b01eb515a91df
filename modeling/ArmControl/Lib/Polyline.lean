import Mathlib.Analysis.Convex.Segment
import Mathlib.Analysis.Seminorm
import Mathlib.Tactic.Linarith
import Mathlib.Tactic.Module
import Mathlib.Tactic.Positivity
import ArmControl.Lib.Numerals

/-!
# Polylines and their corners

* `OnPolyline`      a point of one of the segments;
* `Within`          no further from the polyline than a radius;
* `corner`          the parabola that cuts a corner;
* `corner_within`   it stays as near to the corner as its ends.

Distances are those of any seminorm.
-/

namespace Polyline

variable {E : Type*} [AddCommGroup E] [Module ℝ E]

def OnPolyline : List E → E → Prop
  | a :: b :: w, x => x ∈ segment ℝ a b ∨ OnPolyline (b :: w) x
  | [a], x => x = a
  | [], _ => False

/-- no further than `ρ` from the polyline -/
def Within (N : Seminorm ℝ E) (w : List E) (ρ : ℝ) (x : E) : Prop := ∃ y, OnPolyline w y ∧ N (x - y) ≤ ρ

variable {N : Seminorm ℝ E} {w w' : List E} {a b x : E} {ρ ρ' : ℝ}

theorem onPolyline_head (a : E) (w : List E) : OnPolyline (a :: w) a := by
  cases w with
  | nil => rfl
  | cons b w => exact .inl (left_mem_segment ℝ a b)

theorem onPolyline_cons (h : OnPolyline w x) (a : E) : OnPolyline (a :: w) x := by
  cases w with
  | nil => exact h.elim
  | cons b w => exact .inr h

theorem Within.mono (h : Within N w ρ x) (hρ : ρ ≤ ρ') (hw : ∀ y, OnPolyline w y → OnPolyline w' y) : Within N w' ρ' x := by
  obtain ⟨y, hy, hN⟩ := h
  exact ⟨y, hw y hy, hN.trans hρ⟩

theorem Within.cons (h : Within N w ρ x) (a : E) : Within N (a :: w) ρ x := h.mono le_rfl fun _ hy => onPolyline_cons hy a

theorem within_segment (h : x ∈ segment ℝ a b) (hρ : 0 ≤ ρ) (w : List E) : Within N (a :: b :: w) ρ x :=
  ⟨x, .inl h, by rwa [sub_self, map_zero]⟩

/-! ## corners -/

/-- from `b - r • d` to `b + r • e`, past the corner `b` -/
def corner (b d e : E) (r u : ℝ) : E := b - r • d + u • ((2 * r) • d + u • (r • (e - d)))

variable {d e : E} {r u : ℝ}

theorem corner_sub (b d e : E) (r u : ℝ) : corner b d e r u - b = (r * u ^ 2) • e - (r * (1 - u) ^ 2) • d := by
  unfold corner
  module

/-- **No further from the corner than its ends** -/
theorem corner_within (hd : N d ≤ 1) (he : N e ≤ 1) (hr : 0 ≤ r) (hu : u ∈ Set.Icc (0 : ℝ) 1) : N (corner b d e r u - b) ≤ r := by
  have hu' : 0 ≤ 1 - u := sub_nonneg.mpr hu.2
  have hfirst : 0 ≤ r * u ^ 2 := by positivity
  have hsecond : 0 ≤ r * (1 - u) ^ 2 := by positivity
  rw [corner_sub]
  calc N ((r * u ^ 2) • e - (r * (1 - u) ^ 2) • d) ≤ N ((r * u ^ 2) • e) + N ((r * (1 - u) ^ 2) • d) := map_sub_le_add N _ _
    _ = r * u ^ 2 * N e + r * (1 - u) ^ 2 * N d := by
        rw [map_smul_eq_mul, map_smul_eq_mul, Real.norm_of_nonneg hfirst, Real.norm_of_nonneg hsecond]
    _ ≤ r * u ^ 2 * 1 + r * (1 - u) ^ 2 * 1 := by gcongr
    _ = r * (1 - 2 * (u * (1 - u))) := by ring
    _ ≤ r * 1 := by
        have := mul_nonneg hu.1 hu'
        gcongr
        linarith
    _ = r := mul_one r

end Polyline
