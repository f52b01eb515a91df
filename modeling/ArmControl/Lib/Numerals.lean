import Mathlib.Data.Nat.Cast.Defs

/-!
# The numerals of a generic field

A numeral `n` of a field that is a variable rests on a proof that `n` is at least two.  Each has one name
here, so that a definition has the same body wherever it stands.
-/

namespace Numerals

instance atLeastTwo_two : Nat.AtLeastTwo 2 := ⟨by decide⟩

instance atLeastTwo_three : Nat.AtLeastTwo 3 := ⟨by decide⟩

instance atLeastTwo_four : Nat.AtLeastTwo 4 := ⟨by decide⟩

instance atLeastTwo_six : Nat.AtLeastTwo 6 := ⟨by decide⟩

instance atLeastTwo_ten : Nat.AtLeastTwo 10 := ⟨by decide⟩

instance atLeastTwo_twenty : Nat.AtLeastTwo 20 := ⟨by decide⟩

instance atLeastTwo_sixty : Nat.AtLeastTwo 60 := ⟨by decide⟩

instance atLeastTwo_hundred : Nat.AtLeastTwo 100 := ⟨by decide⟩

end Numerals
