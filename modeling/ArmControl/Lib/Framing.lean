import Mathlib.Data.List.Basic
import Mathlib.Data.List.Range

/-!
# Frames in a stream that comes in pieces

* `Reader`              what has been read, what is still to come, and how much each read hands over;
* `Reader.fill n`       reading on until `n` have come or the reads are over;
* `Reader.fill_got`     what has been read is the beginning of the stream, however it was cut;
* `find`                the first place of a pattern.
-/

namespace Framing

variable {α : Type*}

structure Reader (α : Type*) where
  got : List α
  coming : List α
  /-- what each read hands over at most, until the time is over -/
  reads : List ℕ

def fillFrom (need : ℕ) : List α → List α → List ℕ → Reader α
  | got, coming, [] => ⟨got, coming, []⟩
  | got, coming, n :: reads =>
    if got.length < need then
      fillFrom need (got ++ coming.take (min n (need - got.length))) (coming.drop (min n (need - got.length))) reads
    else ⟨got, coming, n :: reads⟩

namespace Reader

variable {need : ℕ} {r : Reader α}

/-- reading on until `need` have come -/
def fill (need : ℕ) (r : Reader α) : Reader α := fillFrom need r.got r.coming r.reads

/-- the time does not cut the reading short: as many have come, or all -/
def InTime (need : ℕ) (r : Reader α) : Prop := need ≤ (r.fill need).got.length ∨ (r.fill need).coming = []

instance (need : ℕ) (r : Reader α) [DecidableEq α] : Decidable (r.InTime need) :=
  inferInstanceAs (Decidable (_ ∨ _))

end Reader

variable {need : ℕ}

theorem fillFrom_whole (got coming : List α) (reads : List ℕ) :
    (fillFrom need got coming reads).got ++ (fillFrom need got coming reads).coming = got ++ coming := by
  induction reads generalizing got coming with
  | nil => rfl
  | cons n reads ih =>
    unfold fillFrom
    split_ifs
    · rw [ih, List.append_assoc, List.take_append_drop]
    · rfl

theorem fillFrom_length (coming : List α) (reads : List ℕ) {got : List α} (h : got.length ≤ need) :
    (fillFrom need got coming reads).got.length ≤ need := by
  induction reads generalizing got coming with
  | nil => exact h
  | cons n reads ih =>
    unfold fillFrom
    split_ifs
    · apply ih
      rw [List.length_append, List.length_take]
      omega
    · exact h

namespace Reader

variable {r : Reader α}

theorem fill_whole (need : ℕ) (r : Reader α) : (r.fill need).got ++ (r.fill need).coming = r.got ++ r.coming :=
  fillFrom_whole _ _ _

theorem fill_length (h : r.got.length ≤ need) : (r.fill need).got.length ≤ need := fillFrom_length _ _ h

/-- however the stream was cut -/
theorem fill_got (need : ℕ) (r : Reader α) : (r.fill need).got = (r.got ++ r.coming).take (r.fill need).got.length := by
  rw [← fill_whole need r, List.take_left]

/-- in time, all that is asked for -/
theorem InTime.length (h : r.InTime need) (hgot : r.got.length ≤ need) (hall : need ≤ (r.got ++ r.coming).length) :
    (r.fill need).got.length = need := by
  refine le_antisymm (fill_length hgot) ?_
  rcases h with h | h
  · exact h
  · rwa [← fill_whole need r, h, List.append_nil] at hall

/-- one read that hands over all there is -/
theorem inTime_single {n : ℕ} (h : r.reads = [n]) (hn : r.coming.length ≤ n) (need : ℕ) : r.InTime need := by
  unfold InTime fill
  rw [h]
  unfold fillFrom
  split_ifs with hgot
  · rcases Nat.lt_or_ge r.coming.length (need - r.got.length) with hless | hmore
    · refine .inr (List.drop_eq_nil_of_le ?_)
      omega
    · refine .inl ?_
      show need ≤ (r.got ++ r.coming.take (min n (need - r.got.length))).length
      rw [List.length_append, List.length_take]
      omega
  · exact .inl (not_lt.mp hgot)

end Reader

/-! ## the first place of a pattern -/

section find
variable [DecidableEq α]

def find (pat hay : List α) : Option ℕ :=
  (List.range (hay.length + 1 - pat.length)).find? fun i => decide ((hay.drop i).take pat.length = pat)

variable {pat hay : List α} {i : ℕ}

theorem find_eq_some_iff : find pat hay = some i ↔
    i < hay.length + 1 - pat.length ∧ (hay.drop i).take pat.length = pat ∧ ∀ j < i, (hay.drop j).take pat.length ≠ pat := by
  unfold find
  rw [List.find?_range_eq_some]
  simp only [decide_eq_true_eq, List.mem_range, Bool.not_eq_true', decide_eq_false_iff_not]
  constructor
  · rintro ⟨hat, hlt, hfirst⟩
    exact ⟨hlt, hat, hfirst⟩
  · rintro ⟨hlt, hat, hfirst⟩
    exact ⟨hat, hlt, hfirst⟩

theorem find_eq_none_iff : find pat hay = none ↔ ∀ j < hay.length + 1 - pat.length, (hay.drop j).take pat.length ≠ pat := by
  unfold find
  rw [List.find?_eq_none]
  simp only [decide_eq_true_eq, List.mem_range]

end find

end Framing
