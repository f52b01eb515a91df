import Mathlib.Algebra.BigOperators.Group.List.Basic
import Mathlib.Data.List.OfFn
import ArmControl.Lib.Numerals

/-!
# Arrays with a shape

* `NdArray`        the entries in row order, as many as the shape says;
* `ravel`, `vec`   one row of them;
* `entry`          a row and a column of a matrix.
-/

structure NdArray (α : Type) where
  shape : List ℕ
  data : List α
  sized : data.length = shape.prod
  deriving DecidableEq

namespace NdArray
variable {α : Type}

def ndim (a : NdArray α) : ℕ := a.shape.length

/-- the entries as one row -/
def ravel (a : NdArray α) : NdArray α := ⟨[a.data.length], a.data, by rw [List.prod_singleton]⟩

/-- a row -/
def vec (l : List α) : NdArray α := ⟨[l.length], l, by rw [List.prod_singleton]⟩

/-- the length of the first axis -/
def len (a : NdArray α) : ℕ := a.shape.headD 0

/-- the length of the second axis -/
def columns (a : NdArray α) : ℕ := a.shape.getD 1 0

/-- an entry of a row -/
def item [Zero α] (a : NdArray α) (i : ℕ) : α := a.data.getD i 0

/-- an entry of a matrix -/
def entry [Zero α] (a : NdArray α) (i j : ℕ) : α := a.data.getD (i * a.columns + j) 0

end NdArray
