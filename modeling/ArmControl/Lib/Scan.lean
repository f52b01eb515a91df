import Mathlib.Data.List.TakeWhile

/-!
# Reading words off a text

Two ways to cut a text into words, and what they have in common.

* `readWord`              a word by stream extraction: white space is skipped, and the word ends before the next one;
* `longestPrefix`         the longest prefix that satisfies a test;
* `spaced`                words with a separator before each of them;
* `splitOn_cases`         a split at a separator, piece by piece;
* `splitOn_eq_cons`       a split and the text that it came from;
* `readWord_word`, `longestPrefix_eq`   what the two readers return on a text whose words are known.
-/

set_option linter.unusedSectionVars false

namespace Scan

/-! ## pieces between separators -/

section
variable {α : Type*} [DecidableEq α] (b : α)

/-- each word with the separator before it -/
def spaced (ws : List (List α)) : List α := ws.flatMap fun w => b :: w

@[simp] theorem spaced_nil : spaced b [] = [] := rfl
@[simp] theorem spaced_cons (w : List α) (ws : List (List α)) : spaced b (w :: ws) = b :: (w ++ spaced b ws) := rfl

variable {b}

/-- the first separator of a text is where it is -/
theorem append_cons_inj {p w t u : List α} (hp : b ∉ p) (hw : b ∉ w) (h : p ++ b :: t = w ++ b :: u) : p = w ∧ t = u := by
  rcases List.append_eq_append_iff.mp h with ⟨m, rfl, hm⟩ | ⟨m, rfl, hm⟩
  · cases m with
    | nil => exact ⟨(List.append_nil p).symm, (List.cons.inj hm).2⟩
    | cons c m =>
      obtain ⟨rfl, -⟩ := List.cons.inj hm
      exact absurd (List.mem_append_right p List.mem_cons_self) hw
  · cases m with
    | nil => exact ⟨List.append_nil w, (List.cons.inj hm).2.symm⟩
    | cons c m =>
      obtain ⟨rfl, -⟩ := List.cons.inj hm
      exact absurd (List.mem_append_right w List.mem_cons_self) hp

/-- a split at a separator: there is none, or the first piece ends at the first one -/
theorem splitOn_cases (t : List α) : (b ∉ t ∧ t.splitOn b = [t]) ∨
    ∃ p t', b ∉ p ∧ t = p ++ b :: t' ∧ t.splitOn b = p :: t'.splitOn b := by
  by_cases h : b ∈ t
  · right
    obtain ⟨p, t', rfl, hp⟩ := List.eq_append_cons_of_mem h
    exact ⟨p, t', hp, rfl, List.splitOn_append_cons_self_of_not_mem hp t'⟩
  · exact .inl ⟨h, List.splitOn_eq_singleton h⟩

/-- a split and the text that it came from -/
theorem splitOn_eq_cons {t w : List α} {ws : List (List α)} :
    t.splitOn b = w :: ws ↔ t = w ++ spaced b ws ∧ b ∉ w ∧ ∀ a ∈ ws, b ∉ a := by
  induction ws generalizing t w with
  | nil =>
    rcases splitOn_cases (b := b) t with ⟨hno, hone⟩ | ⟨p, t', hp, rfl, hcons⟩
    · rw [hone]
      constructor
      · intro h
        obtain rfl := (List.cons.inj h).1
        exact ⟨by simp, hno, by simp⟩
      · rintro ⟨rfl, -, -⟩
        simp
    · rw [hcons]
      constructor
      · intro h
        exact absurd (List.cons.inj h).2 (List.splitOn_ne_nil b t')
      · rintro ⟨he, hw, -⟩
        rw [spaced_nil, List.append_nil] at he
        exact absurd (he ▸ List.mem_append_right p List.mem_cons_self) hw
  | cons v vs ih =>
    rcases splitOn_cases (b := b) t with ⟨hno, hone⟩ | ⟨p, t', hp, rfl, hcons⟩
    · rw [hone]
      constructor
      · intro h
        exact absurd (List.cons.inj h).2.symm (List.cons_ne_nil _ _)
      · rintro ⟨rfl, -, -⟩
        exact absurd (by simp) hno
    · rw [hcons]
      constructor
      · intro h
        obtain ⟨rfl, hrest⟩ := List.cons.inj h
        obtain ⟨rfl, hv, hvs⟩ := ih.mp hrest
        refine ⟨rfl, hp, fun a ha => ?_⟩
        rcases List.mem_cons.mp ha with rfl | ha
        · exact hv
        · exact hvs a ha
      · rintro ⟨he, hw, hall⟩
        obtain ⟨rfl, rfl⟩ : p = w ∧ t' = v ++ spaced b vs := by
          rw [spaced_cons] at he
          exact append_cons_inj hp hw he
        rw [ih.mpr ⟨rfl, hall v List.mem_cons_self, fun a ha => hall a (List.mem_cons_of_mem v ha)⟩]

end

/-! ## stream extraction -/

/-- `isspace` in the C locale -/
def isSpace (c : Char) : Bool := c == ' ' || (decide (9 ≤ c.toNat) && decide (c.toNat ≤ 13))

/-- `in >> word`: the word and what stands behind it; nothing where no word is left -/
def readWord (t : List Char) : Option (List Char × List Char) :=
  let t := t.dropWhile isSpace
  if t.isEmpty then none else some (t.takeWhile (!isSpace ·), t.dropWhile (!isSpace ·))

/-- a text of white space only -/
def Blank (t : List Char) : Prop := ∀ c ∈ t, isSpace c = true

/-- a word -/
def Solid (t : List Char) : Prop := ∀ c ∈ t, isSpace c = false

instance (t : List Char) : Decidable (Solid t) := List.decidableBAll (fun c => isSpace c = false) t

/-- a text that cannot continue a word -/
def Stops (t : List Char) : Prop := t = [] ∨ ∃ c t', t = c :: t' ∧ isSpace c = true

theorem takeWhile_solid {w rest : List Char} (hw : Solid w) (hrest : Stops rest) :
    (w ++ rest).takeWhile (!isSpace ·) = w ∧ (w ++ rest).dropWhile (!isSpace ·) = rest := by
  induction w with
  | nil =>
    rcases hrest with rfl | ⟨c, t', rfl, hc⟩
    · exact ⟨rfl, rfl⟩
    · rw [List.nil_append, List.takeWhile_cons, List.dropWhile_cons, hc]
      exact ⟨rfl, rfl⟩
  | cons c w ih =>
    have hc : isSpace c = false := hw c List.mem_cons_self
    obtain ⟨htake, hdrop⟩ := ih fun d hd => hw d (List.mem_cons_of_mem c hd)
    rw [List.cons_append, List.takeWhile_cons, List.dropWhile_cons, hc]
    exact ⟨congrArg (c :: ·) htake, hdrop⟩

/-- white space before a word is skipped -/
theorem readWord_blank {s t : List Char} (hs : Blank s) : readWord (s ++ t) = readWord t := by
  have hdrop : (s ++ t).dropWhile isSpace = t.dropWhile isSpace := by
    induction s with
    | nil => rfl
    | cons c s ih =>
      rw [List.cons_append, List.dropWhile_cons, if_pos (hs c List.mem_cons_self)]
      exact ih fun d hd => hs d (List.mem_cons_of_mem c hd)
  unfold readWord
  rw [hdrop]

/-- **A word reads back**, with the text behind it. -/
theorem readWord_word {w rest : List Char} (hne : w ≠ []) (hw : Solid w) (hrest : Stops rest) : readWord (w ++ rest) = some (w, rest) := by
  have hdrop : (w ++ rest).dropWhile isSpace = w ++ rest := by
    cases w with
    | nil => exact absurd rfl hne
    | cons c w => rw [List.cons_append, List.dropWhile_cons, hw c List.mem_cons_self, if_neg Bool.false_ne_true]
  obtain ⟨htake, hrest⟩ := takeWhile_solid hw hrest
  unfold readWord
  dsimp only
  rw [hdrop, htake, hrest, if_neg]
  rw [List.isEmpty_iff, List.append_eq_nil_iff]
  exact fun h => hne h.1

theorem readWord_eq_none {t : List Char} : readWord t = none ↔ Blank t := by
  unfold readWord Blank
  dsimp only
  split_ifs with h
  · rw [List.isEmpty_iff, List.dropWhile_eq_nil_iff] at h
    exact ⟨fun _ => h, fun _ => rfl⟩
  · rw [List.isEmpty_iff, List.dropWhile_eq_nil_iff] at h
    exact ⟨fun hc => hc.elim, fun hc => absurd hc h⟩

/-! ## the longest prefix -/

section
variable {α : Type*} (p : List α → Bool)

/-- the longest prefix of at most `n` elements that satisfies `p`, and the rest -/
def longestUpTo (t : List α) : ℕ → Option (List α × List α)
  | 0 => if p [] then some ([], t) else none
  | n + 1 => if p (t.take (n + 1)) then some (t.take (n + 1), t.drop (n + 1)) else longestUpTo t n

/-- the longest prefix that satisfies `p`, and the rest -/
def longestPrefix (t : List α) : Option (List α × List α) := longestUpTo p t t.length

variable {p}

theorem longestUpTo_eq {w rest : List α} (hw : p w = true) (hlong : ∀ m, w.length < m → m ≤ (w ++ rest).length → p ((w ++ rest).take m) = false)
    {n : ℕ} (hn : w.length ≤ n) (hle : n ≤ (w ++ rest).length) : longestUpTo p (w ++ rest) n = some (w, rest) := by
  induction n with
  | zero =>
    obtain rfl := List.length_eq_zero_iff.mp (Nat.le_zero.mp hn)
    unfold longestUpTo
    rw [if_pos hw]
    rfl
  | succ n ih =>
    unfold longestUpTo
    rcases Nat.lt_or_ge w.length (n + 1) with hlt | hge
    · rw [hlong (n + 1) hlt hle, if_neg Bool.false_ne_true]
      exact ih (by omega) (by omega)
    · have heq : n + 1 = w.length := Nat.le_antisymm hge hn
      rw [heq, List.take_left, List.drop_left, if_pos hw]

theorem longestUpTo_some {t w rest : List α} {n : ℕ} (h : longestUpTo p t n = some (w, rest)) (hn : n ≤ t.length) :
    t = w ++ rest ∧ p w = true ∧ ∀ m, w.length < m → m ≤ n → p (t.take m) = false := by
  induction n with
  | zero =>
    unfold longestUpTo at h
    split_ifs at h with hp
    obtain ⟨rfl, rfl⟩ := Prod.mk.inj (Option.some.inj h)
    exact ⟨rfl, hp, fun m hm hle => by omega⟩
  | succ n ih =>
    unfold longestUpTo at h
    split_ifs at h with hp
    · obtain ⟨rfl, rfl⟩ := Prod.mk.inj (Option.some.inj h)
      refine ⟨(List.take_append_drop (n + 1) t).symm, hp, fun m hm hle => ?_⟩
      rw [List.length_take] at hm
      omega
    · obtain ⟨he, hw, hlong⟩ := ih h (by omega)
      refine ⟨he, hw, fun m hm hle => ?_⟩
      rcases Nat.lt_or_ge n m with hlt | hge
      · obtain rfl : m = n + 1 := by omega
        exact Bool.eq_false_iff.mpr hp
      · exact hlong m hm hge

/-- what the longest prefix is -/
theorem longestPrefix_some {t w rest : List α} (h : longestPrefix p t = some (w, rest)) :
    t = w ++ rest ∧ p w = true ∧ ∀ m, w.length < m → m ≤ t.length → p (t.take m) = false := longestUpTo_some h (le_refl _)

/-- **The longest prefix is the word itself** where no longer one satisfies the test. -/
theorem longestPrefix_eq {w rest : List α} (hw : p w = true)
    (hlong : ∀ m, w.length < m → m ≤ (w ++ rest).length → p ((w ++ rest).take m) = false) : longestPrefix p (w ++ rest) = some (w, rest) :=
  longestUpTo_eq hw hlong (by simp) (le_refl _)

end

end Scan
