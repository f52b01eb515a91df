import Mathlib.Data.List.Basic
import Mathlib.Tactic.Ring

/-!
# Little-endian numbers in a string of bytes

* `nat bs`           the number whose little-endian bytes are `bs`;
* `ofNat w n`        the `w` low bytes of `n`;
* `slice bs at_ len` the `len` bytes from position `at_` (fewer at the end of `bs`);
* `slice_append`, `flatMap_slice`   neighbouring slices join up, so a string cut into records is
                     read back record by record;
* `pack fs`          a record of little-endian fields, each given by its width and its number.
-/

namespace Bytes

abbrev Byte := BitVec 8

def nat : List Byte → ℕ
  | [] => 0
  | b :: bs => b.toNat + 256 * nat bs

def ofNat : ℕ → ℕ → List Byte
  | 0, _ => []
  | w + 1, n => BitVec.ofNat 8 n :: ofNat w (n / 256)

def slice (bs : List Byte) (at_ len : ℕ) : List Byte := (bs.drop at_).take len

@[simp] theorem length_ofNat (w n : ℕ) : (ofNat w n).length = w := by
  induction w generalizing n with
  | zero => rfl
  | succ w ih => rw [ofNat, List.length_cons, ih]

theorem nat_lt (bs : List Byte) : nat bs < 256 ^ bs.length := by
  induction bs with
  | nil => exact Nat.one_pos
  | cons b bs ih =>
    have hb : b.toNat < 256 := b.isLt
    rw [nat, List.length_cons, Nat.pow_succ]
    omega

theorem ofNat_nat (bs : List Byte) : ofNat bs.length (nat bs) = bs := by
  induction bs with
  | nil => rfl
  | cons b bs ih =>
    have hb : b.toNat < 256 := b.isLt
    have hd : (b.toNat + 256 * nat bs) / 256 = nat bs := by omega
    have hm : BitVec.ofNat 8 (b.toNat + 256 * nat bs) = b := by
      apply BitVec.eq_of_toNat_eq
      rw [BitVec.toNat_ofNat]
      omega
    rw [nat, List.length_cons, ofNat, hd, hm, ih]

theorem nat_ofNat (w n : ℕ) : nat (ofNat w n) = n % 256 ^ w := by
  induction w generalizing n with
  | zero => rw [ofNat, nat, Nat.pow_zero, Nat.mod_one]
  | succ w ih =>
    have hp : 256 ^ (w + 1) = 256 * 256 ^ w := by ring
    rw [hp, Nat.mod_mul, ofNat, nat, ih]
    rfl

theorem slice_append (bs : List Byte) (at_ a b : ℕ) :
    slice bs at_ a ++ slice bs (at_ + a) b = slice bs at_ (a + b) := by
  rw [slice, slice, slice, List.take_add, List.drop_drop]

theorem flatMap_slice (bs : List Byte) (at_ m n : ℕ) :
    (List.range n).flatMap (fun j => slice bs (at_ + m * j) m) = slice bs at_ (m * n) := by
  induction n with
  | zero => simp [slice]
  | succ n ih => rw [List.range_succ, List.flatMap_append, List.flatMap_singleton, ih, slice_append,
      Nat.mul_succ]

theorem slice_all {bs : List Byte} {n : ℕ} (h : bs.length = n) : slice bs 0 n = bs := by
  rw [slice, List.drop_zero, ← h, List.take_length]

theorem length_slice {bs : List Byte} {at_ len : ℕ} (h : at_ + len ≤ bs.length) :
    (slice bs at_ len).length = len := by
  rw [slice, List.length_take, List.length_drop]
  omega

/-! ## records -/

/-- little-endian fields, each with its width in bytes -/
def pack (fs : List (ℕ × ℕ)) : List Byte := fs.flatMap fun f => ofNat f.1 f.2

theorem pack_nil : pack [] = [] := rfl

theorem pack_cons (w n : ℕ) (fs : List (ℕ × ℕ)) : pack ((w, n) :: fs) = ofNat w n ++ pack fs := rfl

theorem length_pack (fs : List (ℕ × ℕ)) : (pack fs).length = (fs.map Prod.fst).sum := by
  induction fs with
  | nil => rfl
  | cons f fs ih => rw [pack_cons, List.length_append, length_ofNat, ih, List.map_cons, List.sum_cons]

/-- the first field of a record -/
theorem slice_field (w n : ℕ) (bs : List Byte) : slice (ofNat w n ++ bs) 0 w = ofNat w n := by
  rw [slice, List.drop_zero, List.take_left' (length_ofNat w n)]

/-- the fields behind the first one -/
theorem slice_skip {w at_ : ℕ} (h : w ≤ at_) (n len : ℕ) (bs : List Byte) :
    slice (ofNat w n ++ bs) at_ len = slice bs (at_ - w) len := by
  rw [slice, slice, List.drop_append, length_ofNat, List.drop_of_length_le, List.nil_append]
  rw [length_ofNat]
  exact h

end Bytes
