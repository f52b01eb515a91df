import Mathlib.Data.Rat.Defs
import Mathlib.Algebra.Order.Field.Rat

/-!
# Doubles as bit patterns with exact values

A double is its 64 bits.  Equality of doubles is equality of bits (what `memcmp` sees: `+0` and
`-0` differ, a NaN equals itself), comparison is comparison of values (what `<` sees: `+0` and
`-0` are equal, a NaN compares with nothing).  No rounding happens here: computed quantities are
rational numbers, and `Value.fin` embeds them beside the doubles.

* `F64.value`          the value of a bit pattern: a rational number, an infinity or a NaN;
* `F64.rat`            the rational value of a finite pattern (`0` otherwise);
* `Value.lt`, `Value.le`, `Value.eq`   the comparisons of the language.
-/

/-- what a double stands for -/
inductive Value where
  | nan
  | inf (neg : Bool)
  | fin (q : ℚ)
  deriving DecidableEq

/-- a double, as its bits -/
structure F64 where
  bits : BitVec 64
  deriving DecidableEq

namespace F64

def exponent (x : F64) : ℕ := x.bits.toNat / 2^52 % 2^11
def fraction (x : F64) : ℕ := x.bits.toNat % 2^52
def negative (x : F64) : Bool := x.bits.msb

/-- `± significand * 2^(exponent - 1075)`, with the subnormals at exponent `0` -/
def magnitude (x : F64) : ℚ :=
  if x.exponent = 0 then (x.fraction : ℚ) / 2^1074
  else ((2^52 + x.fraction) * 2^x.exponent : ℕ) / 2^1075

def value (x : F64) : Value :=
  if x.exponent = 2047 then (if x.fraction = 0 then .inf x.negative else .nan)
  else .fin (if x.negative then -x.magnitude else x.magnitude)

/-- `std::isfinite` -/
def isFinite (x : F64) : Bool := x.exponent != 2047

/-- the rational value of a finite double -/
def rat (x : F64) : ℚ :=
  match x.value with
  | .fin q => q
  | _ => 0

/-- `+0.0`, the zero-initialised double -/
def zero : F64 := ⟨0⟩

instance : Inhabited F64 := ⟨zero⟩

theorem value_of_finite {x : F64} (h : x.isFinite = true) : x.value = .fin x.rat := by
  have h' : x.exponent ≠ 2047 := by simpa [isFinite] using h
  simp only [rat, value, if_neg h']

theorem finite_of_value {x : F64} {q : ℚ} (h : x.value = .fin q) :
    x.isFinite = true ∧ x.rat = q := by
  have hr : x.rat = q := by simp only [rat, h]
  refine ⟨?_, hr⟩
  simp only [isFinite, bne_iff_ne, ne_eq]
  intro he
  simp only [value, if_pos he] at h
  split at h <;> cases h

end F64

namespace Value

/-- `a < b` -/
def lt : Value → Value → Bool
  | .fin a, .fin b => decide (a < b)
  | .fin _, .inf neg => !neg
  | .inf neg, .fin _ => neg
  | .inf a, .inf b => a && !b
  | _, _ => false

/-- `a <= b` -/
def le : Value → Value → Bool
  | .fin a, .fin b => decide (a ≤ b)
  | .fin _, .inf neg => !neg
  | .inf neg, .fin _ => neg
  | .inf a, .inf b => a || !b
  | _, _ => false

/-- `a == b` -/
def eq : Value → Value → Bool
  | .nan, _ => false
  | a, b => a == b

@[simp] theorem lt_fin (a b : ℚ) : lt (.fin a) (.fin b) = decide (a < b) := rfl
@[simp] theorem le_fin (a b : ℚ) : le (.fin a) (.fin b) = decide (a ≤ b) := rfl

@[simp] theorem eq_fin (a b : ℚ) : eq (.fin a) (.fin b) = decide (a = b) := by
  show decide (Value.fin a = Value.fin b) = _
  exact decide_eq_decide.mpr ⟨Value.fin.inj, congrArg _⟩

end Value
