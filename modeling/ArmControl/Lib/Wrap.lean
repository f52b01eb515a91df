import Mathlib.Data.Nat.ModEq

/-!
# Counters that wrap around

A counter of the program is a word of `w` bits; the number it stands for is a natural number `n`,
and the word is `BitVec.ofNat w n`.  A ring of `c` cells, `c` a divisor of `2^w`, is addressed by
the word modulo `c`.

* `wrap_sub`     the difference of two words whose numbers are less than `2^w` apart;
* `wrap_ne`      two numbers less than `2^w` apart have different words;
* `wrap_cell`    the cell of a word is the cell of its number;
* `cell_inj`     the numbers of one window of `c` have different cells.
-/

namespace Wrap

variable {w : ℕ}

theorem wrap_succ (n : ℕ) : BitVec.ofNat w n + 1 = BitVec.ofNat w (n + 1) :=
  (BitVec.ofNat_add n 1).symm

theorem wrap_sub {m n : ℕ} (h : m ≤ n) (hw : n - m < 2^w) :
    (BitVec.ofNat w n - BitVec.ofNat w m).toNat = n - m := by
  have hn : BitVec.ofNat w n = BitVec.ofNat w (n - m) + BitVec.ofNat w m := by
    rw [← BitVec.ofNat_add, Nat.sub_add_cancel h]
  rw [hn, BitVec.add_sub_cancel, BitVec.toNat_ofNat, Nat.mod_eq_of_lt hw]

theorem wrap_ne {m n : ℕ} (h : m < n) (hw : n - m < 2^w) : BitVec.ofNat w m ≠ BitVec.ofNat w n := by
  intro he
  have hs := wrap_sub h.le hw
  rw [he, BitVec.sub_self, BitVec.toNat_zero] at hs
  omega

theorem wrap_cell {c n : ℕ} (hc : c ∣ 2^w) : (BitVec.ofNat w n).toNat % c = n % c := by
  rw [BitVec.toNat_ofNat, Nat.mod_mod_of_dvd n hc]

theorem cell_inj {c t m n : ℕ} (hm : t ≤ m ∧ m < t + c) (hn : t ≤ n ∧ n < t + c)
    (h : m % c = n % c) : m = n := by
  rcases le_total m n with hle | hle
  · have hd : c ∣ n - m := (Nat.modEq_iff_dvd' hle).mp h
    have hz := Nat.eq_zero_of_dvd_of_lt hd (by omega)
    omega
  · have hd : c ∣ m - n := (Nat.modEq_iff_dvd' hle).mp h.symm
    have hz := Nat.eq_zero_of_dvd_of_lt hd (by omega)
    omega

end Wrap
