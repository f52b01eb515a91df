import Mathlib.Algebra.Order.Group.Abs
import Mathlib.Tactic.Ring
import ArmControl.Lib.Binary64

/-!
# Arithmetic on values

Sums, differences and products of the values of `Binary64`, with the infinities and NaN as IEEE 754 has
them.  Finite results are exact: no rounding happens.

* `Value.add`, `sub`, `mul`, `abs`, `clip`   the operations, as instances where there is a symbol;
* `Value.le_of_lt_eq_false`                  what a failed strict comparison says when no NaN is about;
* `Value.rat`, `Value.cut`                   a finite value's number, and a number cut to two bounds.
-/

namespace Value

def isFinite : Value → Bool
  | .fin _ => true
  | _ => false

def isNan : Value → Bool
  | .nan => true
  | _ => false

def neg : Value → Value
  | .nan => .nan
  | .inf b => .inf !b
  | .fin q => .fin (-q)

def add : Value → Value → Value
  | .fin a, .fin b => .fin (a + b)
  | .fin _, .inf b => .inf b
  | .inf a, .fin _ => .inf a
  | .inf a, .inf b => if a = b then .inf a else .nan
  | _, _ => .nan

def mul : Value → Value → Value
  | .fin a, .fin b => .fin (a * b)
  | .fin a, .inf b => if a = 0 then .nan else .inf (decide (a < 0) != b)
  | .inf a, .fin b => if b = 0 then .nan else .inf (a != decide (b < 0))
  | .inf a, .inf b => .inf (a != b)
  | _, _ => .nan

def abs : Value → Value
  | .nan => .nan
  | .inf _ => .inf false
  | .fin q => .fin |q|

instance : Neg Value := ⟨neg⟩
instance : Add Value := ⟨add⟩
instance : Sub Value := ⟨fun x y => x + -y⟩
instance : Mul Value := ⟨mul⟩

/-- `numpy.minimum`: a NaN wins -/
def minimum (x y : Value) : Value := if x.isNan then x else if y.isNan then y else if x.lt y then x else y

/-- `numpy.maximum`: a NaN wins -/
def maximum (x y : Value) : Value := if x.isNan then x else if y.isNan then y else if y.lt x then x else y

/-- `numpy.clip` -/
def clip (x lower upper : Value) : Value := (x.maximum lower).minimum upper

/-- `max(x, y)`: the first unless the second is greater -/
def pyMax (x y : Value) : Value := if x.lt y then y else x

/-- `min(x, y)`: the first unless the second is smaller -/
def pyMin (x y : Value) : Value := if y.lt x then y else x

@[simp] theorem fin_add (a b : ℚ) : Value.fin a + .fin b = .fin (a + b) := rfl
@[simp] theorem fin_neg (a : ℚ) : -Value.fin a = .fin (-a) := rfl
@[simp] theorem fin_mul (a b : ℚ) : Value.fin a * .fin b = .fin (a * b) := rfl
@[simp] theorem abs_fin (a : ℚ) : abs (.fin a) = .fin |a| := rfl

@[simp] theorem fin_sub (a b : ℚ) : Value.fin a - .fin b = .fin (a - b) := by
  show Value.fin (a + -b) = _
  rw [sub_eq_add_neg]

theorem isFinite_iff {x : Value} : x.isFinite = true ↔ ∃ q, x = .fin q := by
  cases x with
  | nan => exact ⟨nofun, nofun⟩
  | inf neg => exact ⟨nofun, nofun⟩
  | fin q => exact ⟨fun _ => ⟨q, rfl⟩, fun _ => rfl⟩

/-! ## finite results -/

theorem eq_fin_of_add {x y : Value} {r : ℚ} (h : x + y = .fin r) : ∃ a b, x = .fin a ∧ y = .fin b ∧ a + b = r := by
  cases x with
  | nan => cases y <;> cases h
  | inf s =>
    cases y with
    | nan => cases h
    | inf t =>
      have h' : (if s = t then Value.inf s else .nan) = .fin r := h
      split_ifs at h'
    | fin b => cases h
  | fin a =>
    cases y with
    | nan => cases h
    | inf t => cases h
    | fin b => exact ⟨a, b, rfl, rfl, Value.fin.inj h⟩

theorem eq_fin_of_mul {x y : Value} {r : ℚ} (h : x * y = .fin r) : ∃ a b, x = .fin a ∧ y = .fin b ∧ a * b = r := by
  cases x with
  | nan => cases y <;> cases h
  | inf s =>
    cases y with
    | nan => cases h
    | inf t => cases h
    | fin b =>
      have h' : (if b = 0 then Value.nan else .inf (s != decide (b < 0))) = .fin r := h
      split_ifs at h'
  | fin a =>
    cases y with
    | nan => cases h
    | inf t =>
      have h' : (if a = 0 then Value.nan else .inf (decide (a < 0) != t)) = .fin r := h
      split_ifs at h'
    | fin b => exact ⟨a, b, rfl, rfl, Value.fin.inj h⟩

/-- the order is total away from NaN -/
theorem le_of_lt_eq_false {x y : Value} (hx : x ≠ .nan) (hy : y ≠ .nan) (h : x.lt y = false) :
    y.le x = true := by
  cases x with
  | nan => exact absurd rfl hx
  | inf a =>
    cases y with
    | nan => exact absurd rfl hy
    | inf b => cases a <;> cases b <;> first | rfl | cases h
    | fin q => cases a <;> first | rfl | cases h
  | fin p =>
    cases y with
    | nan => exact absurd rfl hy
    | inf b => cases b <;> first | rfl | cases h
    | fin q =>
      rw [lt_fin, decide_eq_false_iff_not, not_lt] at h
      rw [le_fin]
      exact decide_eq_true h

/-- a step that is scaled away: `x + (x - x) * scale` -/
theorem slowed {x scale : Value} (hx : x.isFinite = true) (hscale : scale.isFinite = true) :
    x + (x - x) * scale = x := by
  obtain ⟨q, rfl⟩ := isFinite_iff.mp hx
  obtain ⟨r, rfl⟩ := isFinite_iff.mp hscale
  rw [fin_sub, fin_mul, fin_add, sub_self, zero_mul, add_zero]

/-! ## numbers between bounds -/

/-- the number of a finite value -/
def rat : Value → ℚ
  | .fin q => q
  | _ => 0

theorem eq_rat {x : Value} (h : x.isFinite = true) : x = .fin x.rat := by
  obtain ⟨q, rfl⟩ := isFinite_iff.mp h
  rfl

/-- `q`, or the bound above it -/
def atLeast (lower : Value) (q : ℚ) : ℚ :=
  match lower with
  | .fin l => max q l
  | _ => q

/-- `q`, or the bound below it -/
def atMost (upper : Value) (q : ℚ) : ℚ :=
  match upper with
  | .fin u => min q u
  | _ => q

def cut (lower upper : Value) (q : ℚ) : ℚ := upper.atMost (lower.atLeast q)

theorem maximum_fin (a b : ℚ) : (Value.fin a).maximum (.fin b) = .fin (max a b) := by
  show (if Value.lt (.fin b) (.fin a) = true then Value.fin a else .fin b) = _
  rw [lt_fin]
  rcases lt_or_ge b a with h | h
  · rw [if_pos (decide_eq_true h), max_eq_left h.le]
  · rw [if_neg (by simpa using h), max_eq_right h]

theorem minimum_fin (a b : ℚ) : (Value.fin a).minimum (.fin b) = .fin (min a b) := by
  show (if Value.lt (.fin a) (.fin b) = true then Value.fin a else .fin b) = _
  rw [lt_fin]
  rcases lt_or_ge a b with h | h
  · rw [if_pos (decide_eq_true h), min_eq_left h.le]
  · rw [if_neg (by simpa using h), min_eq_right h]

section
variable {lower upper : Value} {p q d : ℚ}

/-- a number is cut to bounds that leave room for one -/
theorem clip_fin (hl : lower.le (.fin p) = true) (hu : Value.le (.fin p) upper = true) (q : ℚ) :
    (Value.fin q).clip lower upper = .fin (cut lower upper q) := by
  have hmax : (Value.fin q).maximum lower = .fin (lower.atLeast q) := by
    cases lower with
    | nan => cases hl
    | inf neg =>
      cases neg with
      | false => cases hl
      | true => rfl
    | fin l => exact maximum_fin q l
  unfold clip cut
  rw [hmax]
  cases upper with
  | nan => cases hu
  | inf neg =>
    cases neg with
    | false => rfl
    | true => cases hu
  | fin u => exact minimum_fin _ u

theorem le_atLeast (lower : Value) (q : ℚ) : q ≤ lower.atLeast q := by
  cases lower with
  | fin l => exact le_max_left _ _
  | nan => exact le_refl _
  | inf neg => exact le_refl _

theorem atMost_le (upper : Value) (q : ℚ) : upper.atMost q ≤ q := by
  cases upper with
  | fin u => exact min_le_left _ _
  | nan => exact le_refl _
  | inf neg => exact le_refl _

theorem atLeast_of_le (hl : lower.le (.fin p) = true) : lower.atLeast p = p := by
  cases lower with
  | fin l => exact max_eq_left (of_decide_eq_true hl)
  | nan => rfl
  | inf neg => rfl

theorem atMost_of_le (hu : Value.le (.fin p) upper = true) : upper.atMost p = p := by
  cases upper with
  | fin u => exact min_eq_left (of_decide_eq_true hu)
  | nan => rfl
  | inf neg => rfl

theorem atLeast_le (hl : lower.le (.fin p) = true) (h : q ≤ p) : lower.atLeast q ≤ p := by
  cases lower with
  | fin l => exact max_le h (of_decide_eq_true hl)
  | nan => exact h
  | inf neg => exact h

theorem le_atMost (hu : Value.le (.fin p) upper = true) (h : p ≤ q) : p ≤ upper.atMost q := by
  cases upper with
  | fin u => exact le_min h (of_decide_eq_true hu)
  | nan => exact h
  | inf neg => exact h

theorem lower_le_atLeast (hl : lower.le (.fin p) = true) (q : ℚ) : lower.le (.fin (lower.atLeast q)) = true := by
  cases lower with
  | fin l => exact decide_eq_true (le_max_right _ _)
  | nan => cases hl
  | inf neg =>
    cases neg with
    | false => cases hl
    | true => rfl

theorem lower_le_of_le (hl : lower.le (.fin p) = true) (h : p ≤ q) : lower.le (.fin q) = true := by
  cases lower with
  | fin l => exact decide_eq_true ((of_decide_eq_true hl).trans h)
  | nan => cases hl
  | inf neg =>
    cases neg with
    | false => cases hl
    | true => rfl

theorem atMost_le_upper (hu : Value.le (.fin p) upper = true) (q : ℚ) : Value.le (.fin (upper.atMost q)) upper = true := by
  cases upper with
  | fin u => exact decide_eq_true (min_le_right _ _)
  | nan => cases hu
  | inf neg =>
    cases neg with
    | false => rfl
    | true => cases hu

theorem cut_mem (hl : lower.le (.fin p) = true) (hu : Value.le (.fin p) upper = true) (q : ℚ) :
    lower.le (.fin (cut lower upper q)) = true ∧ Value.le (.fin (cut lower upper q)) upper = true := by
  refine ⟨?_, atMost_le_upper hu _⟩
  rcases le_total p (lower.atLeast q) with h | h
  · exact lower_le_of_le hl (le_atMost hu h)
  · have hin : Value.le (.fin (lower.atLeast q)) upper = true := by
      cases upper with
      | fin u => exact decide_eq_true (h.trans (of_decide_eq_true hu))
      | nan => cases hu
      | inf neg =>
        cases neg with
        | false => rfl
        | true => cases hu
    unfold cut
    rw [atMost_of_le hin]
    exact lower_le_atLeast hl q

theorem cut_self (hl : lower.le (.fin p) = true) (hu : Value.le (.fin p) upper = true) : cut lower upper p = p := by
  unfold cut
  rw [atLeast_of_le hl, atMost_of_le hu]

/-- **A cut number is near a point between the bounds** exactly where no bound leaves it too far on either side. -/
theorem abs_cut_sub_le (hl : lower.le (.fin p) = true) (hu : Value.le (.fin p) upper = true) (hd : 0 ≤ d) :
    |cut lower upper q - p| ≤ d ↔ upper.atMost q ≤ p + d ∧ p - d ≤ lower.atLeast q := by
  rw [abs_sub_le_iff, sub_le_iff_le_add', sub_le_comm]
  unfold cut
  rcases le_total q p with hq | hq
  · have hlow := atLeast_le hl hq
    have hmost : upper.atMost (lower.atLeast q) = lower.atLeast q := by
      cases upper with
      | fin u => exact min_eq_left (hlow.trans (of_decide_eq_true hu))
      | nan => rfl
      | inf neg => rfl
    rw [hmost]
    have habove : upper.atMost q ≤ p + d := (atMost_le upper q).trans (hq.trans (le_add_of_nonneg_right hd))
    exact ⟨fun h => ⟨habove, h.2⟩, fun h => ⟨hlow.trans (le_add_of_nonneg_right hd), h.2⟩⟩
  · have hleast : lower.atLeast q = q := atLeast_of_le (lower_le_of_le hl hq)
    rw [hleast]
    have hbelow : p - d ≤ upper.atMost q := (sub_le_self p hd).trans (le_atMost hu hq)
    exact ⟨fun h => ⟨h.1, (sub_le_self p hd).trans hq⟩, fun h => ⟨h.1, hbelow⟩⟩

end

end Value
