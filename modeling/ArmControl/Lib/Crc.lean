import Mathlib.Data.List.Basic
import Mathlib.Logic.Function.Iterate

/-!
# Cyclic redundancy checks, the most significant bit first

A register of `w` bits is divided by a polynomial of degree `w` whose low coefficients are `p`.

* `shift p x`            one step without input;
* `feed p x b`           one step with the bit `b`, `run p x bits` a step for each bit;
* `run_eq_iterate`       up to `w` bits may be put into the register first;
* `run_split`            a step for several bits at once, by a table;
* `run_injective`        the bits are told apart when there are at most `w`;
* `Burst`, `run_burst`   two messages that differ within `w` bits have different remainders.
-/

namespace Crc

variable {w : ℕ} {p x y : BitVec w} {bits bits' : List Bool}

def shift (p x : BitVec w) : BitVec w := if x.msb then (x <<< 1) ^^^ p else x <<< 1

/-- one bit of the message -/
def feed (p x : BitVec w) (b : Bool) : BitVec w := if x.msb != b then (x <<< 1) ^^^ p else x <<< 1

def run (p x : BitVec w) (bits : List Bool) : BitVec w := bits.foldl (feed p) x

/-- the first bit as the highest one of the register, and the others behind it -/
def align : List Bool → BitVec w
  | [] => 0#w
  | b :: bits => (if b then BitVec.intMin w else 0#w) ^^^ (align bits >>> 1)

theorem shift_xor (p x y : BitVec w) : shift p (x ^^^ y) = shift p x ^^^ shift p y := by
  unfold shift
  rw [BitVec.msb_xor, BitVec.shiftLeft_xor_distrib]
  cases x.msb <;> cases y.msb
  · rfl
  · exact BitVec.xor_assoc _ _ _
  · show (x <<< 1 ^^^ y <<< 1) ^^^ p = (x <<< 1 ^^^ p) ^^^ y <<< 1
    rw [BitVec.xor_assoc, BitVec.xor_assoc, BitVec.xor_comm (y <<< 1)]
  · show x <<< 1 ^^^ y <<< 1 = (x <<< 1 ^^^ p) ^^^ (y <<< 1 ^^^ p)
    rw [BitVec.xor_comm (y <<< 1) p, BitVec.xor_assoc, ← BitVec.xor_assoc p p, BitVec.xor_self, BitVec.zero_xor]

theorem iterate_xor (n : ℕ) (x y : BitVec w) : (shift p)^[n] (x ^^^ y) = (shift p)^[n] x ^^^ (shift p)^[n] y := by
  induction n generalizing x y with
  | zero => rfl
  | succ n ih => rw [Function.iterate_succ_apply, Function.iterate_succ_apply, Function.iterate_succ_apply, shift_xor, ih]

/-- a bit goes to the top of the register -/
theorem feed_eq (hw : 0 < w) (b : Bool) : feed p x b = shift p (x ^^^ if b then BitVec.intMin w else 0#w) := by
  cases b with
  | false =>
    show (if (x.msb != false) = true then _ else _) = shift p (x ^^^ 0#w)
    rw [Bool.bne_false, BitVec.xor_zero]
    rfl
  | true =>
    have htop : (BitVec.intMin w) <<< 1 = 0#w := by
      refine BitVec.eq_of_getMsbD_eq fun i hi => ?_
      rw [BitVec.getMsbD_shiftLeft, BitVec.getMsbD_intMin, BitVec.getMsbD_zero]
      simp
    show (if (x.msb != true) = true then _ else _) = shift p (x ^^^ BitVec.intMin w)
    unfold shift
    rw [BitVec.msb_xor, BitVec.msb_intMin, BitVec.shiftLeft_xor_distrib, htop, BitVec.xor_zero, decide_eq_true hw]

theorem getMsbD_align {i : ℕ} (hi : i < w) : (align bits : BitVec w).getMsbD i = bits.getD i false := by
  induction bits generalizing i with
  | nil => exact BitVec.getMsbD_zero
  | cons b bits ih =>
    have htop : (if b then BitVec.intMin w else 0#w).getMsbD i = (b && decide (i = 0)) := by
      cases b with
      | false => exact BitVec.getMsbD_zero
      | true =>
        show (BitVec.intMin w).getMsbD i = _
        rw [BitVec.getMsbD_intMin, decide_eq_true (Nat.zero_lt_of_lt hi)]
    show ((if b then BitVec.intMin w else 0#w) ^^^ (align bits >>> 1)).getMsbD i = _
    rw [BitVec.getMsbD_xor, htop, BitVec.getMsbD_ushiftRight]
    cases i with
    | zero => simp
    | succ i =>
      rw [Nat.add_sub_cancel, ih (by omega)]
      simp [hi]

/-- a bit that is moved down comes up again -/
theorem shift_down (hw : 0 < w) (hlow : x.getMsbD (w - 1) = false) : shift p (x >>> 1) = x := by
  have hmsb : (x >>> 1).msb = false := by
    rw [BitVec.msb_ushiftRight]
    simp
  unfold shift
  rw [hmsb, if_neg Bool.false_ne_true]
  refine BitVec.eq_of_getMsbD_eq fun i hi => ?_
  rw [BitVec.getMsbD_shiftLeft, BitVec.getMsbD_ushiftRight]
  rcases Nat.lt_or_ge (i + 1) w with h | h
  · simp [h]
  · obtain rfl : i = w - 1 := by omega
    rw [hlow, decide_eq_false (by omega)]
    simp

/-- up to `w` bits, all put into the register first -/
theorem run_eq_iterate (hlen : bits.length ≤ w) (x : BitVec w) :
    run p x bits = (shift p)^[bits.length] (x ^^^ align bits) := by
  induction bits generalizing x with
  | nil =>
    show x = x ^^^ 0#w
    rw [BitVec.xor_zero]
  | cons b bits ih =>
    rw [List.length_cons] at hlen
    have hw : 0 < w := by omega
    have hlow : (align bits : BitVec w).getMsbD (w - 1) = false := by
      rw [getMsbD_align (by omega), List.getD_eq_getElem?_getD, List.getElem?_eq_none (by omega), Option.getD_none]
    show run p (feed p x b) bits = _
    rw [ih (by omega), feed_eq hw, List.length_cons, Function.iterate_succ_apply]
    show (shift p)^[bits.length] _ = (shift p)^[bits.length] (shift p (x ^^^ (_ ^^^ align bits >>> 1)))
    rw [← BitVec.xor_assoc, shift_xor p _ (align bits >>> 1), shift_down hw hlow]

/-! ## several bits at once -/

/-- a register whose top bits are clear only moves up -/
theorem iterate_clear {n : ℕ} (h : ∀ i < n, x.getMsbD i = false) : (shift p)^[n] x = x <<< n := by
  induction n generalizing x with
  | zero => exact (BitVec.shiftLeft_zero x).symm
  | succ n ih =>
    have hmsb : x.msb = false := by
      rw [BitVec.msb_eq_getMsbD_zero]
      exact h 0 (Nat.succ_pos n)
    have hstep : shift p x = x <<< 1 := if_neg (by rw [hmsb]; exact Bool.false_ne_true)
    rw [Function.iterate_succ_apply, hstep, ih, ← BitVec.shiftLeft_add, Nat.add_comm 1 n]
    intro i hi
    rw [BitVec.getMsbD_shiftLeft]
    exact h (i + 1) (by omega)

/-- the top `n` bits of the register, in place -/
def high (n : ℕ) (x : BitVec w) : BitVec w := (x >>> (w - n)) <<< (w - n)

theorem getMsbD_high {n i : ℕ} (hn : n ≤ w) : (high n x).getMsbD i = (decide (i < n) && x.getMsbD i) := by
  unfold high
  rw [BitVec.getMsbD_shiftLeft, BitVec.getMsbD_ushiftRight]
  rcases Nat.lt_or_ge i n with h | h
  · rw [Nat.add_sub_cancel, decide_eq_true h, decide_eq_true (by omega : i + (w - n) < w), decide_eq_false (by omega)]
    rfl
  · rw [decide_eq_false (by omega : ¬ i < n), decide_eq_false (by omega : ¬ i + (w - n) < w)]
    rfl

/-- the bits meet the top of the register only -/
theorem run_split (hlen : bits.length ≤ w) (x : BitVec w) :
    run p x bits = (shift p)^[bits.length] (high bits.length x ^^^ align bits) ^^^ (x <<< bits.length) := by
  have hclear : ∀ i < bits.length, (x ^^^ high bits.length x).getMsbD i = false := by
    intro i hi
    rw [BitVec.getMsbD_xor, getMsbD_high hlen, decide_eq_true hi, Bool.true_and, Bool.xor_self]
  have hgone : (high bits.length x) <<< bits.length = 0#w := by
    unfold high
    rw [← BitVec.shiftLeft_add]
    exact BitVec.shiftLeft_eq_zero (by omega)
  have hparts : x ^^^ align bits = (high bits.length x ^^^ align bits) ^^^ (x ^^^ high bits.length x) := by
    rw [BitVec.xor_comm x (high _ x), BitVec.xor_comm (high _ x) (align bits), BitVec.xor_assoc,
      ← BitVec.xor_assoc (high _ x) (high _ x), BitVec.xor_self, BitVec.zero_xor, BitVec.xor_comm]
  rw [run_eq_iterate hlen, hparts, iterate_xor, iterate_clear hclear, BitVec.shiftLeft_xor_distrib, hgone, BitVec.xor_zero]

/-! ## errors -/

/-- with a constant coefficient nothing is lost -/
theorem shift_eq_zero (hp : p.getLsbD 0 = true) (h : shift p x = 0#w) : x = 0#w := by
  unfold shift at h
  split_ifs at h with hmsb
  · have hbit := congrArg (fun z : BitVec w => z.getLsbD 0) h
    simp [hp] at hbit
  · refine BitVec.eq_of_getMsbD_eq fun i hi => ?_
    rw [BitVec.getMsbD_zero]
    cases i with
    | zero =>
      rw [← BitVec.msb_eq_getMsbD_zero]
      exact Bool.eq_false_iff.mpr hmsb
    | succ i =>
      have hbit := congrArg (fun z : BitVec w => z.getMsbD i) h
      simpa [BitVec.getMsbD_shiftLeft] using hbit

theorem shift_injective (hp : p.getLsbD 0 = true) : Function.Injective (shift p) := by
  intro x y h
  have hzero : shift p (x ^^^ y) = 0#w := by rw [shift_xor, h, BitVec.xor_self]
  exact BitVec.xor_eq_zero_iff.mp (shift_eq_zero hp hzero)

theorem run_injective_left (hp : p.getLsbD 0 = true) (bits : List Bool) : Function.Injective fun x => run p x bits := by
  have hw : 0 < w := by
    rcases Nat.eq_zero_or_pos w with rfl | hw
    · rw [BitVec.getLsbD_of_ge p 0 (Nat.le_refl 0)] at hp
      cases hp
    · exact hw
  induction bits with
  | nil => exact fun _ _ h => h
  | cons b bits ih =>
    intro x y h
    have hfeed := ih h
    rw [feed_eq hw, feed_eq hw] at hfeed
    exact (BitVec.xor_left_inj _).mp (shift_injective hp hfeed)

/-- at most `w` bits leave different remainders -/
theorem run_injective (hp : p.getLsbD 0 = true) (hlen : bits.length ≤ w) (hsame : bits.length = bits'.length)
    (h : run p x bits = run p x bits') : bits = bits' := by
  rw [run_eq_iterate hlen, run_eq_iterate (hsame ▸ hlen), ← hsame] at h
  have halign := (BitVec.xor_right_inj x).mp ((shift_injective hp).iterate _ h)
  refine List.ext_getElem hsame fun i hi hi' => ?_
  have hbit := congrArg (fun z : BitVec w => z.getMsbD i) halign
  rw [getMsbD_align (by omega), getMsbD_align (by omega)] at hbit
  simpa [List.getD_eq_getElem?_getD, hi, hi'] using hbit

/-- two messages that differ, but only within `n` bits in a row -/
def Burst (n : ℕ) (l l' : List Bool) : Prop :=
  ∃ pre e e' post, l = pre ++ e ++ post ∧ l' = pre ++ e' ++ post ∧ e.length = e'.length ∧ e.length ≤ n ∧ e ≠ e'

theorem run_append (x : BitVec w) (l l' : List Bool) : run p x (l ++ l') = run p (run p x l) l' := List.foldl_append

/-- **A burst of at most `w` bits changes the remainder.** -/
theorem run_burst (hp : p.getLsbD 0 = true) {l l' : List Bool} (h : Burst w l l') : run p x l ≠ run p x l' := by
  obtain ⟨pre, e, e', post, rfl, rfl, hsame, hlen, hne⟩ := h
  intro heq
  rw [run_append, run_append, run_append, run_append] at heq
  exact hne (run_injective hp hlen hsame (run_injective_left hp post heq))

end Crc
