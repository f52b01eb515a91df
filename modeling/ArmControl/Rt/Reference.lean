import Mathlib.Tactic.Ring
import Mathlib.Tactic.FieldSimp
import Mathlib.Tactic.Linarith
import ArmControl.Lib.Binary64
import ArmControl.Lib.UpperBound

/-!
# The native reference: a bounded piecewise polynomial (`reference.hpp`)

A `NativeReference` is `k` knots (time, `n` positions, `n` velocities), each entry a double kept
as its bits.  `sample` evaluates it at a phase `t`: the first or last knot outside the knot range,
else the Hermite (or linear) segment that a binary search finds.  Arithmetic is exact: computed
values are rational numbers.

* `validReference`   the admission predicate of the upload path;
* `segQ`, `segV`, `segA`   the three Hermite expressions of one segment;
* `sample_seg`       **on a closed segment `sample` has the position and velocity of that
                     segment**, whichever of its formulas (endpoint or interior) computed them;
* `sample_acc`       the acceleration, on the half-open segment inside the knot range.
-/

namespace ArmControl.Rt
open UpperBound

def maxJoints : ℕ := 16
def maxReferenceKnots : ℕ := 128

/-- `q i j` is the source's `q[i*NJ+j]` -/
structure NativeReference where
  n : ℕ := 0
  k : ℕ := 0
  hermite : Bool := false
  times : ℕ → F64 := fun _ => .zero
  q : ℕ → ℕ → F64 := fun _ _ => .zero
  v : ℕ → ℕ → F64 := fun _ _ => .zero
  deriving Inhabited

/-- the output buffer of `sample`: `out[0]`, then the positions, velocities and accelerations -/
structure Point where
  t : ℚ := 0
  q : ℕ → ℚ := fun _ => 0
  v : ℕ → ℚ := fun _ => 0
  a : ℕ → ℚ := fun _ => 0
  deriving Inhabited

namespace NativeReference

def time (r : NativeReference) (i : ℕ) : ℚ := (r.times i).rat
def pos (r : NativeReference) (i j : ℕ) : ℚ := (r.q i j).rat
def vel (r : NativeReference) (i j : ℕ) : ℚ := (r.v i j).rat

/-- the largest finite double -/
def maxDouble : ℚ := (2^53 - 1) * 2^971

/-! ## evaluation -/

def segQ (h s q0 q1 v0 v1 : ℚ) : ℚ :=
  q0 + (3*s^2 - 2*s^3)*(q1 - q0) + h*((s^3 - 2*s^2 + s)*v0 + (s^3 - s^2)*v1)

def segV (h s q0 q1 v0 v1 : ℚ) : ℚ :=
  (6*s - 6*s^2)*(q1 - q0)/h + (3*s^2 - 4*s + 1)*v0 + (3*s^2 - 2*s)*v1

def segA (h s q0 q1 v0 v1 : ℚ) : ℚ :=
  (6 - 12*s)*(q1 - q0)/(h*h) + ((6*s - 4)*v0 + (6*s - 2)*v1)/h

/-- the values at an end knot -/
def endpoint (r : NativeReference) (i : ℕ) : Point where
  t := r.time i
  q j := r.pos i j
  v j := if r.hermite then r.vel i j else 0
  a _ := 0

/-- the values inside the segment from knot `i` to knot `i + 1` -/
def interior (r : NativeReference) (t : ℚ) (i : ℕ) : Point :=
  let h := r.time (i + 1) - r.time i
  let s := (t - r.time i) / h
  { t := t
    q := fun j =>
      if r.hermite then segQ h s (r.pos i j) (r.pos (i + 1) j) (r.vel i j) (r.vel (i + 1) j)
      else r.pos i j + s * (r.pos (i + 1) j - r.pos i j)
    v := fun j =>
      if r.hermite then segV h s (r.pos i j) (r.pos (i + 1) j) (r.vel i j) (r.vel (i + 1) j)
      else (r.pos (i + 1) j - r.pos i j) / h
    a := fun j =>
      if r.hermite then segA h s (r.pos i j) (r.pos (i + 1) j) (r.vel i j) (r.vel (i + 1) j)
      else 0 }

def sample (r : NativeReference) (t : ℚ) : Point :=
  if t ≤ r.time 0 then r.endpoint 0
  else if r.time (r.k - 1) ≤ t then r.endpoint (r.k - 1)
  else r.interior t (upperBound r.time t 0 r.k - 1)

/-! ## admission -/

/-- the magnitude bound of one segment and joint -/
def segBounded (r : NativeReference) (i j : ℕ) : Bool :=
  let H := r.time (i + 1) - r.time i
  let q := |r.pos i j| + |r.pos (i + 1) j|
  let v := |r.vel i j| + |r.vel (i + 1) j|
  if r.hermite then decide (32 * (q + H*v + q/H + v + q/(H*H) + v/H) ≤ maxDouble)
  else decide (2 * (q + q/H) ≤ maxDouble)

/-- what `validReference` asks of knot `i` by itself -/
def knotFinite (r : NativeReference) (i : ℕ) : Bool :=
  (r.times i).isFinite &&
    (List.range r.n).all fun j => (r.q i j).isFinite && (r.v i j).isFinite

/-- what it asks of the segment from knot `i` to knot `i + 1` -/
def segValid (r : NativeReference) (i : ℕ) : Bool :=
  let h := r.time (i + 1) - r.time i
  decide (r.time i < r.time (i + 1)) && decide (h ≤ maxDouble) &&
    (!r.hermite || (decide (h*h ≤ maxDouble) && h*h != 0)) &&
    (List.range r.n).all fun j => r.segBounded i j

def validReference (r : NativeReference) : Bool :=
  decide (1 ≤ r.n) && decide (r.n ≤ maxJoints) &&
    decide (2 ≤ r.k) && decide (r.k ≤ maxReferenceKnots) &&
    (List.range r.k).all r.knotFinite && (List.range (r.k - 1)).all r.segValid

/-! ## the knots of an admitted reference -/

section
variable {r : NativeReference} (hr : r.validReference = true)
include hr

theorem two_le_k : 2 ≤ r.k := by
  simp only [validReference, Bool.and_eq_true, decide_eq_true_eq] at hr
  exact hr.1.1.1.2

theorem finite_time {i : ℕ} (hi : i < r.k) : (r.times i).isFinite = true := by
  simp only [validReference, Bool.and_eq_true, List.all_eq_true, List.mem_range] at hr
  have := hr.1.2 i hi
  simp only [knotFinite, Bool.and_eq_true] at this
  exact this.1

theorem time_lt_succ {i : ℕ} (hi : i + 1 < r.k) : r.time i < r.time (i + 1) := by
  simp only [validReference, Bool.and_eq_true, List.all_eq_true, List.mem_range] at hr
  have := hr.2 i (by omega)
  simp only [segValid, Bool.and_eq_true, decide_eq_true_eq] at this
  exact this.1.1.1

theorem time_lt {i j : ℕ} (hij : i < j) (hj : j < r.k) : r.time i < r.time j := by
  induction j with
  | zero => omega
  | succ j ih =>
    have hstep := time_lt_succ hr hj
    rcases Nat.lt_succ_iff_lt_or_eq.mp hij with h | h
    · exact lt_trans (ih h (by omega)) hstep
    · subst h
      exact hstep

theorem time_le {i j : ℕ} (hij : i ≤ j) (hj : j < r.k) : r.time i ≤ r.time j := by
  rcases Nat.lt_or_eq_of_le hij with h | h
  · exact le_of_lt (time_lt hr h hj)
  · subst h
    exact le_rfl

theorem time_lt_iff {i j : ℕ} (hi : i < r.k) (hj : j < r.k) : r.time i < r.time j ↔ i < j := by
  refine ⟨fun h => ?_, fun h => time_lt hr h hj⟩
  by_contra hc
  exact absurd h (not_lt.mpr (time_le hr (not_lt.mp hc) hi))

theorem time_inj {i j : ℕ} (hi : i < r.k) (hj : j < r.k) (h : r.time i = r.time j) : i = j := by
  rcases Nat.lt_trichotomy i j with hlt | heq | hgt
  · exact absurd h (ne_of_lt (time_lt hr hlt hj))
  · exact heq
  · exact absurd h.symm (ne_of_lt (time_lt hr hgt hi))

theorem sorted_time : Sorted r.time 0 (0 + r.k) :=
  fun i j _ hij hj => time_le hr hij (by omega)

/-- the binary search finds the segment -/
theorem upperBound_seg {i : ℕ} {t : ℚ} (hi : i + 1 < r.k) (h1 : r.time i ≤ t)
    (h2 : t < r.time (i + 1)) : upperBound r.time t 0 r.k = i + 1 := by
  refine upperBound_unique r.time t 0 r.k (i + 1) (sorted_time hr) (by omega) (by omega) ?_ ?_
  · intro j _ hj
    exact le_trans (time_le hr (by omega) (by omega)) h1
  · intro _
    exact h2

/-! ## `sample` on a segment -/

theorem sample_interior {i : ℕ} {t : ℚ} (hi : i + 1 < r.k) (h0 : r.time 0 < t)
    (h1 : r.time i ≤ t) (h2 : t < r.time (i + 1)) : r.sample t = r.interior t i := by
  have hlast : t < r.time (r.k - 1) := lt_of_lt_of_le h2 (time_le hr (by omega) (by omega))
  rw [sample, if_neg (not_le.mpr h0), if_neg (not_le.mpr hlast), upperBound_seg hr hi h1 h2]
  rfl

/-- at a knot `sample` has the knot's own position and velocity -/
theorem sample_knot (hh : r.hermite = true) {i : ℕ} (hi : i < r.k) (j : ℕ) :
    (r.sample (r.time i)).q j = r.pos i j ∧ (r.sample (r.time i)).v j = r.vel i j := by
  have hk := two_le_k hr
  by_cases h0 : i = 0
  · subst h0
    rw [sample, if_pos le_rfl]
    simp [endpoint, hh]
  have hpos : r.time 0 < r.time i := time_lt hr (by omega) hi
  by_cases hl : i = r.k - 1
  · rw [sample, if_neg (not_le.mpr hpos), if_pos (by rw [hl]), ← hl]
    simp [endpoint, hh]
  · have hi' : i + 1 < r.k := by omega
    rw [sample_interior hr hi' hpos le_rfl (time_lt_succ hr hi')]
    simp [interior, hh, segQ, segV]

theorem sample_seg (hh : r.hermite = true) {i : ℕ} {t : ℚ} (hi : i + 1 < r.k)
    (h1 : r.time i ≤ t) (h2 : t ≤ r.time (i + 1)) (j : ℕ) :
    let h := r.time (i + 1) - r.time i
    let s := (t - r.time i) / h
    (r.sample t).q j = segQ h s (r.pos i j) (r.pos (i + 1) j) (r.vel i j) (r.vel (i + 1) j) ∧
    (r.sample t).v j = segV h s (r.pos i j) (r.pos (i + 1) j) (r.vel i j) (r.vel (i + 1) j) := by
  intro h s
  have hne : h ≠ 0 := sub_ne_zero.mpr (ne_of_gt (time_lt_succ hr hi))
  -- the two ends are knots, where both formulas give the knot; strictly inside they coincide
  rcases eq_or_lt_of_le h1 with e1 | l1
  · have hs : s = 0 := by simp [s, ← e1]
    rw [hs, ← e1]
    obtain ⟨hq, hv⟩ := sample_knot hr hh (show i < r.k by omega) j
    rw [hq, hv]
    simp [segQ, segV]
  rcases eq_or_lt_of_le h2 with e2 | l2
  · have hs : s = 1 := by simp only [s, e2]; exact div_self hne
    rw [hs, e2]
    obtain ⟨hq, hv⟩ := sample_knot hr hh hi j
    rw [hq, hv]
    constructor
    · simp only [segQ]; ring
    · simp only [segV]; ring
  · have h0 : r.time 0 < t := lt_of_le_of_lt (time_le hr (by omega) (by omega)) l1
    rw [sample_interior hr hi h0 h1 l2]
    simp [interior, hh, h, s]

theorem sample_acc (hh : r.hermite = true) {i : ℕ} {t : ℚ} (hi : i + 1 < r.k)
    (h0 : r.time 0 < t) (h1 : r.time i ≤ t) (h2 : t < r.time (i + 1)) (j : ℕ) :
    let h := r.time (i + 1) - r.time i
    let s := (t - r.time i) / h
    (r.sample t).a j = segA h s (r.pos i j) (r.pos (i + 1) j) (r.vel i j) (r.vel (i + 1) j) := by
  intro h s
  rw [sample_interior hr hi h0 h1 h2]
  simp [interior, hh, h, s]

omit hr in
/-- every phase between two knots lies on one of the segments between them -/
theorem exists_seg {m : ℕ} {t : ℚ} (hm : 0 < m) (h1 : r.time 0 ≤ t)
    (h2 : t < r.time m) : ∃ i, i < m ∧ r.time i ≤ t ∧ t < r.time (i + 1) := by
  induction m with
  | zero => omega
  | succ m ih =>
    by_cases hc : r.time m ≤ t
    · exact ⟨m, by omega, hc, h2⟩
    · rcases Nat.eq_zero_or_pos m with h0 | hpos
      · subst h0
        exact absurd h1 hc
      · obtain ⟨i, hi, hle, hlt⟩ := ih hpos (not_le.mp hc)
        exact ⟨i, by omega, hle, hlt⟩

end

end NativeReference

end ArmControl.Rt
