import Mathlib.Order.Lattice
import Mathlib.Order.Nat
import Mathlib.Tactic.Common

/-!
# Binary search for the first element above a key

`upperBound key x lo len` halves the range `[lo, lo + len)`, as `std::upper_bound` does: probe the
middle element, keep the part after it when the key is not below it, else the part before it.
The loop runs on fuel, and `len` rounds are always enough (`search_spec`).

On a range that is sorted (`Sorted`) the result splits it: everything before is `≤ x`, everything
from it on is `> x` (`upperBound_spec`), and the split point is unique (`upperBound_unique`).
-/

namespace UpperBound

section
variable {α : Type*} [LinearOrder α]

/-- the halving loop: at most `fuel` rounds on the `len` elements from `lo` on -/
def search (key : ℕ → α) (x : α) : ℕ → ℕ → ℕ → ℕ
  | 0, lo, _ => lo
  | fuel + 1, lo, len =>
    if len = 0 then lo
    else if x < key (lo + len / 2) then search key x fuel lo (len / 2)
    else search key x fuel (lo + len / 2 + 1) (len - len / 2 - 1)

/-- `std::upper_bound` over the elements `key lo, …, key (lo + len - 1)` -/
def upperBound (key : ℕ → α) (x : α) (lo len : ℕ) : ℕ := search key x len lo len

/-- nondecreasing on `[lo, hi)` -/
def Sorted (key : ℕ → α) (lo hi : ℕ) : Prop :=
  ∀ i j, lo ≤ i → i ≤ j → j < hi → key i ≤ key j

theorem Sorted.sub {key : ℕ → α} {lo hi lo' hi' : ℕ} (h : Sorted key lo hi) (h1 : lo ≤ lo')
    (h2 : hi' ≤ hi) : Sorted key lo' hi' := by
  intro i j hi1 hij hj
  exact h i j (le_trans h1 hi1) hij (lt_of_lt_of_le hj h2)

/-- with enough fuel the loop splits a sorted range -/
theorem search_spec (key : ℕ → α) (x : α) (fuel lo len : ℕ) (hf : len ≤ fuel)
    (hs : Sorted key lo (lo + len)) :
    lo ≤ search key x fuel lo len ∧ search key x fuel lo len ≤ lo + len ∧
      (∀ i, lo ≤ i → i < search key x fuel lo len → key i ≤ x) ∧
      (∀ i, search key x fuel lo len ≤ i → i < lo + len → x < key i) := by
  induction fuel generalizing lo len with
  | zero =>
    simp only [search]
    exact ⟨le_rfl, by omega, fun i h1 h2 => absurd h2 (by omega), fun i h1 h2 => absurd h2 (by omega)⟩
  | succ fuel ih =>
    simp only [search]
    split_ifs with h0 hlt
    · exact ⟨le_rfl, by omega, fun i h1 h2 => absurd h2 (by omega),
        fun i h1 h2 => absurd h2 (by omega)⟩
    · obtain ⟨h1, h2, h3, h4⟩ := ih lo (len / 2) (by omega) (hs.sub le_rfl (by omega))
      refine ⟨h1, by omega, h3, fun i hi hil => ?_⟩
      by_cases hm : i < lo + len / 2
      · exact h4 i hi hm
      · exact lt_of_lt_of_le hlt (hs _ _ (by omega) (by omega) hil)
    · obtain ⟨h1, h2, h3, h4⟩ := ih (lo + len / 2 + 1) (len - len / 2 - 1) (by omega)
        (hs.sub (by omega) (by omega))
      refine ⟨by omega, by omega, fun i hi hil => ?_, fun i hi hil => h4 i hi (by omega)⟩
      by_cases hm : lo + len / 2 + 1 ≤ i
      · exact h3 i hm hil
      · exact le_trans (hs i (lo + len / 2) hi (by omega) (by omega)) (not_lt.mp hlt)

/-- **The result splits a sorted range.** -/
theorem upperBound_spec (key : ℕ → α) (x : α) (lo len : ℕ) (hs : Sorted key lo (lo + len)) :
    lo ≤ upperBound key x lo len ∧ upperBound key x lo len ≤ lo + len ∧
      (∀ i, lo ≤ i → i < upperBound key x lo len → key i ≤ x) ∧
      (∀ i, upperBound key x lo len ≤ i → i < lo + len → x < key i) :=
  search_spec key x len lo len le_rfl hs

/-- The split point is unique. -/
theorem upperBound_unique (key : ℕ → α) (x : α) (lo len m : ℕ) (hs : Sorted key lo (lo + len))
    (h1 : lo ≤ m) (h2 : m ≤ lo + len) (hle : ∀ i, lo ≤ i → i < m → key i ≤ x)
    (hgt : m < lo + len → x < key m) : upperBound key x lo len = m := by
  obtain ⟨u1, u2, u3, u4⟩ := upperBound_spec key x lo len hs
  rcases lt_trichotomy (upperBound key x lo len) m with h | h | h
  · exact absurd (hle _ u1 h) (not_le.mpr (u4 _ le_rfl (by omega)))
  · exact h
  · exact absurd (u3 m h1 h) (not_le.mpr (hgt (by omega)))

end

end UpperBound
