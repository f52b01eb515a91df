import ArmControl.EndEffectors.HandLanguage
import ArmControl.Lib.Scan
import Mathlib.Tactic.IntervalCases

/-!
# What the two Hand bridges make of one stream

* `framed`                        the lines of a stream, up to the first one of 255 bytes or more;
* `pyServe_eq`, `cppServe_eq`     both loops find them, however the stream arrives;
* `Reads`, `Valid`                the operands behind a verb, literal by literal;
* `Alike`                         the lines that both sides answer alike;
* `same_answer_iff`               exactly these;
* `hand_language`                 **one framing, and one language on the lines that are `Alike`.**
-/

namespace ArmControl.EndEffectors

open Scan

/-! ## framing -/

/-- the lines of a stream up to the first one of 255 bytes or more, and whether there is one -/
def framed (stream : Text) : List Text × Bool :=
  let lines := pyLines (cutLines stream).1
  if lines.2 then lines else (lines.1, decide (255 ≤ (cutLines stream).2.length))

theorem cutLines_cons {c : Char} (hc : c ≠ '\n') (t : Text) :
    cutLines (c :: t) = match cutLines t with
      | ([], rest) => ([], c :: rest)
      | (line :: lines, rest) => ((c :: line) :: lines, rest) := by
  rw [cutLines]
  exact if_neg hc

theorem cutLines_plain {t : Text} (h : '\n' ∉ t) : cutLines t = ([], t) := by
  induction t with
  | nil => rfl
  | cons c t ih =>
    have hc : c ≠ '\n' := by
      rintro rfl
      exact h List.mem_cons_self
    rw [cutLines_cons hc, ih fun hm => h (List.mem_cons_of_mem c hm)]

/-- a line that ends in the text -/
theorem cutLines_line {line : Text} (h : '\n' ∉ line) (t : Text) :
    cutLines (line ++ '\n' :: t) = (line :: (cutLines t).1, (cutLines t).2) := by
  induction line with
  | nil => rfl
  | cons c line ih =>
    rw [List.cons_append]
    have hc : c ≠ '\n' := by
      rintro rfl
      exact h List.mem_cons_self
    rw [cutLines_cons hc, ih fun hm => h (List.mem_cons_of_mem c hm)]

/-- a text is plain, or its first line ends in it -/
theorem line_cases (t : Text) : '\n' ∉ t ∨ ∃ line t', '\n' ∉ line ∧ t = line ++ '\n' :: t' := by
  by_cases h : '\n' ∈ t
  · obtain ⟨line, t', rfl, hline⟩ := List.eq_append_cons_of_mem h
    exact .inr ⟨line, t', hline, rfl⟩
  · exact .inl h

/-- what is left behind the last line is plain -/
theorem rest_plain (t : Text) : '\n' ∉ (cutLines t).2 := by
  induction h : t.length using Nat.strong_induction_on generalizing t with
  | _ n ih =>
    rcases line_cases t with hp | ⟨line, t', hline, rfl⟩
    · rw [cutLines_plain hp]
      exact hp
    · rw [cutLines_line hline]
      refine ih t'.length ?_ t' rfl
      rw [← h, List.length_append, List.length_cons]
      omega

/-- cutting is local: the lines of the first part, then those of its rest with the second part -/
theorem cutLines_append (t u : Text) :
    cutLines (t ++ u) = ((cutLines t).1 ++ (cutLines ((cutLines t).2 ++ u)).1, (cutLines ((cutLines t).2 ++ u)).2) := by
  induction h : t.length using Nat.strong_induction_on generalizing t with
  | _ n ih =>
    rcases line_cases t with hp | ⟨line, t', hline, rfl⟩
    · rw [cutLines_plain hp]
      rfl
    · rw [List.append_assoc, List.cons_append, cutLines_line hline, cutLines_line hline,
        ih t'.length (by rw [← h, List.length_append, List.length_cons]; omega) t' rfl]
      rfl

theorem pyLines_cons (line : Text) (lines : List Text) :
    pyLines (line :: lines) = if 255 ≤ line.length then ([], true) else (line :: (pyLines lines).1, (pyLines lines).2) := rfl

theorem pyLines_append (a b : List Text) :
    pyLines (a ++ b) = if (pyLines a).2 then pyLines a else ((pyLines a).1 ++ (pyLines b).1, (pyLines b).2) := by
  induction a with
  | nil => rfl
  | cons line a ih =>
    rw [List.cons_append, pyLines_cons, pyLines_cons, ih]
    by_cases hlong : 255 ≤ line.length
    · rw [if_pos hlong, if_pos hlong]
      rfl
    · rw [if_neg hlong, if_neg hlong]
      dsimp only
      by_cases hdone : (pyLines a).2 = true
      · rw [if_pos hdone, if_pos hdone]
      · rw [if_neg hdone, if_neg hdone]
        rfl

/-- the lines that arrived first are framed first -/
theorem framed_append (t u : Text) : framed (t ++ u) =
    if (pyLines (cutLines t).1).2 then pyLines (cutLines t).1
    else ((pyLines (cutLines t).1).1 ++ (framed ((cutLines t).2 ++ u)).1, (framed ((cutLines t).2 ++ u)).2) := by
  unfold framed
  dsimp only
  rw [cutLines_append]
  dsimp only
  rw [pyLines_append]
  split_ifs <;> simp_all

/-- a rest that is too long disconnects, whatever comes behind it -/
theorem framed_long {t : Text} (hp : '\n' ∉ t) (hlong : 255 ≤ t.length) (u : Text) : framed (t ++ u) = ([], true) := by
  unfold framed
  dsimp only
  rcases line_cases u with hu | ⟨line, u', hline, rfl⟩
  · rw [cutLines_plain (by rw [List.mem_append]; exact fun h => h.elim hp hu)]
    show ([], decide (255 ≤ (t ++ u).length)) = _
    rw [decide_eq_true (by rw [List.length_append]; omega)]
  · rw [← List.append_assoc, cutLines_line (by rw [List.mem_append]; exact fun h => h.elim hp hline)]
    have hline : pyLines ((t ++ line) :: (cutLines u').1) = ([], true) := by
      unfold pyLines
      rw [if_pos (by rw [List.length_append]; omega)]
    rw [hline]
    rfl

theorem framed_plain {t : Text} (hp : '\n' ∉ t) (hshort : t.length < 255) : framed t = ([], false) := by
  unfold framed
  rw [cutLines_plain hp]
  show ([], decide (255 ≤ t.length)) = _
  rw [decide_eq_false (by omega)]

/-- **The Python loop frames the stream.** -/
theorem pyServe_eq {buf : Text} (hp : '\n' ∉ buf) (hshort : buf.length < 255) (cs : List Text) :
    pyServe buf cs = framed (buf ++ cs.flatten) := by
  induction cs generalizing buf with
  | nil =>
    rw [List.flatten_nil, List.append_nil, framed_plain hp hshort]
    rfl
  | cons got rest ih =>
    rw [List.flatten_cons, ← List.append_assoc, framed_append]
    unfold pyServe
    dsimp only
    split_ifs with h₁ h₂
    · rfl
    · rw [framed_long (rest_plain _) h₂]
      simp
    · rw [ih (rest_plain _) (by omega)]

theorem pyLines_short {ls : List Text} (h : ∀ line ∈ ls, line.length < 255) : pyLines ls = (ls, false) := by
  induction ls with
  | nil => rfl
  | cons line ls ih =>
    have hline : line.length < 255 := h line List.mem_cons_self
    unfold pyLines
    rw [if_neg (by omega), ih fun l hl => h l (List.mem_cons_of_mem line hl)]

/-- the lines and the rest are no longer than the text -/
theorem cutLines_length (t : Text) : (∀ line ∈ (cutLines t).1, line.length < t.length) ∧ (cutLines t).2.length ≤ t.length := by
  induction h : t.length using Nat.strong_induction_on generalizing t with
  | _ n ih =>
    rcases line_cases t with hp | ⟨line, t', hline, rfl⟩
    · rw [cutLines_plain hp]
      exact ⟨fun l hl => absurd hl List.not_mem_nil, h.le⟩
    · rw [List.length_append, List.length_cons] at h
      obtain ⟨hlines, hrest⟩ := ih t'.length (by omega) t' rfl
      rw [cutLines_line hline]
      refine ⟨fun l hl => ?_, by dsimp only; omega⟩
      rcases List.mem_cons.mp hl with rfl | hl
      · omega
      · have := hlines l hl
        omega

/-- **The C++ loop frames the stream.** -/
theorem cppServe_eq {buf : Text} (hp : '\n' ∉ buf) (hshort : buf.length < 255) {cs : List Text} (hfits : Fits buf cs) :
    cppServe buf cs = framed (buf ++ cs.flatten) := by
  induction cs generalizing buf with
  | nil =>
    rw [List.flatten_nil, List.append_nil, framed_plain hp hshort]
    rfl
  | cons got rest ih =>
    obtain ⟨hroom, hlater⟩ := hfits
    obtain ⟨hlines, hrest⟩ := cutLines_length (buf ++ got)
    rw [List.length_append] at hlines hrest
    have hshort : pyLines (cutLines (buf ++ got)).1 = ((cutLines (buf ++ got)).1, false) :=
      pyLines_short fun line hline => (hlines line hline).trans_le hroom
    rw [List.flatten_cons, ← List.append_assoc, framed_append, hshort, if_neg Bool.false_ne_true]
    unfold cppServe
    dsimp only
    split_ifs with hfull
    · rw [framed_long (rest_plain _) hfull.ge]
      simp
    · have hless : (cutLines (buf ++ got)).2.length < 255 := by omega
      rw [ih (rest_plain _) hless (hlater hless)]

/-! ## literals -/

/-- a character that a literal can have -/
def Mark (c : Char) : Prop := isDecimal c = true ∨ c = '+' ∨ c = '-' ∨ c = '.' ∨ c = 'e' ∨ c = 'E'

theorem Mark.solid {c : Char} (h : Mark c) : isSpace c = false := by
  rcases h with h | rfl | rfl | rfl | rfl | rfl
  · unfold isDecimal at h
    rw [Bool.and_eq_true_iff, decide_eq_true_eq, decide_eq_true_eq] at h
    unfold isSpace
    have hne : c ≠ ' ' := by
      rintro rfl
      exact absurd h.1 (by decide)
    rw [beq_false_of_ne hne, decide_eq_false (by omega : ¬ c.toNat ≤ 13), Bool.and_false]
    rfl
  all_goals rfl

theorem mark_of_digits {t : Text} (h : isDigits t = true) : ∀ c ∈ t, Mark c := fun c hc =>
  .inl (List.all_eq_true.mp (Bool.and_eq_true_iff.mp h).2 c hc)

theorem mark_dropSign {t : Text} (h : ∀ c ∈ dropSign t, Mark c) : ∀ c ∈ t, Mark c := by
  cases t with
  | nil => exact h
  | cons d t =>
    change ∀ c ∈ (if d = '+' ∨ d = '-' then t else d :: t), Mark c at h
    split_ifs at h with hd
    · intro c hc
      rcases List.mem_cons.mp hc with rfl | hc
      · exact hd.elim (fun h => .inr (.inl h)) (fun h => .inr (.inr (.inl h)))
      · exact h c hc
    · exact h

theorem mark_exponent {t : Text} (h : isExponent t = true) : ∀ c ∈ t, Mark c := by
  cases t with
  | nil => exact fun c hc => absurd hc List.not_mem_nil
  | cons d t =>
    unfold isExponent at h
    obtain ⟨hd, ht⟩ := Bool.and_eq_true_iff.mp h
    intro c hc
    rcases List.mem_cons.mp hc with rfl | hc
    · rcases Bool.or_eq_true_iff.mp hd with hd | hd
      · exact .inr (.inr (.inr (.inr (.inl (beq_iff_eq.mp hd)))))
      · exact .inr (.inr (.inr (.inr (.inr (beq_iff_eq.mp hd)))))
    · exact mark_dropSign (mark_of_digits ht) c hc

/-- a text that starts with digits -/
theorem mark_run {t : Text} (h : ∀ c ∈ t.dropWhile isDecimal, Mark c) : ∀ c ∈ t, Mark c := by
  intro c hc
  rw [← List.takeWhile_append_dropWhile (p := isDecimal) (l := t)] at hc
  rcases List.mem_append.mp hc with hc | hc
  · exact .inl (List.mem_takeWhile_imp hc)
  · exact h c hc

theorem mark_number {t : Text} (h : isNumber t = true) : ∀ c ∈ t, Mark c := by
  refine mark_dropSign (mark_run ?_)
  unfold isNumber at h
  dsimp only at h
  split at h
  · rename_i rest heq
    rw [heq]
    intro c hc
    rcases List.mem_cons.mp hc with rfl | hc
    · exact .inr (.inr (.inr (.inl rfl)))
    · exact mark_run (mark_exponent (Bool.and_eq_true_iff.mp h).2) c hc
  · exact mark_exponent (Bool.and_eq_true_iff.mp h).2

theorem solid_number {t : Text} (h : isNumber t = true) : Solid t := fun c hc => (mark_number h c hc).solid

theorem solid_digits {t : Text} (h : isDigits t = true) : Solid t := fun c hc => (mark_of_digits h c hc).solid

theorem number_ne_nil {t : Text} (h : isNumber t = true) : t ≠ [] := by
  rintro rfl
  exact absurd h (by decide)

theorem digits_ne_nil {t : Text} (h : isDigits t = true) : t ≠ [] := by
  rintro rfl
  exact absurd h (by decide)

/-- where a literal ends before white space, no longer prefix is one -/
theorem literal_ends {w rest : Text} (hrest : Stops rest) :
    ∀ m, w.length < m → m ≤ (w ++ rest).length → isNumber ((w ++ rest).take m) = false := by
  intro m hm hle
  rcases hrest with rfl | ⟨c, t, rfl, hc⟩
  · rw [List.append_nil] at hle
    omega
  · -- the longer prefix has the white space in it
    rw [Bool.eq_false_iff]
    intro hnum
    have hmem : c ∈ (w ++ c :: t).take m := by
      rw [List.take_append, List.mem_append]
      right
      obtain ⟨k, hk⟩ : ∃ k, m - w.length = k + 1 := ⟨m - w.length - 1, by omega⟩
      rw [hk, List.take_succ_cons]
      exact List.mem_cons_self
    rw [solid_number hnum c hmem] at hc
    exact Bool.noConfusion hc

/-! ## operands -/

section
variable {strtod : Text → Value} {l : HandLimits}

theorem dropWhile_blank {s w rest : Text} (hs : Blank s) (hne : w ≠ []) (hw : Solid w) : (s ++ (w ++ rest)).dropWhile isSpace = w ++ rest := by
  induction s with
  | nil =>
    cases w with
    | nil => exact absurd rfl hne
    | cons c w => rw [List.nil_append, List.cons_append, List.dropWhile_cons, hw c List.mem_cons_self, if_neg Bool.false_ne_true]
  | cons c s ih =>
    rw [List.cons_append, List.dropWhile_cons, if_pos (hs c List.mem_cons_self)]
    exact ih fun d hd => hs d (List.mem_cons_of_mem c hd)

/-- the operands of a text: literals, each the longest at its place, with white space around them -/
inductive Reads (strtod : Text → Value) : Text → List Value → Prop where
  | done {t : Text} : Blank t → Reads strtod t []
  | next {s w rest : Text} {xs : List Value} : Blank s → isNumber w = true →
      (∀ m, w.length < m → m ≤ (w ++ rest).length → isNumber ((w ++ rest).take m) = false) → Reads strtod rest xs →
      Reads strtod (s ++ (w ++ rest)) (strtod w :: xs)

theorem readDouble_next {s w rest : Text} (hs : Blank s) (hw : isNumber w = true)
    (hlong : ∀ m, w.length < m → m ≤ (w ++ rest).length → isNumber ((w ++ rest).take m) = false) :
    readDouble strtod (s ++ (w ++ rest)) = if (strtod w).isFinite = true then some (strtod w, rest) else none := by
  unfold readDouble
  rw [dropWhile_blank hs (number_ne_nil hw) (solid_number hw), longestPrefix_eq hw hlong]

/-- what the bridge reads is what stands there -/
theorem reads_of_readDoubles {n : ℕ} {t rest : Text} {xs : List Value} (h : readDoubles strtod n t = some (xs, rest)) (hrest : Blank rest) :
    Reads strtod t xs ∧ xs.length = n := by
  induction n generalizing t xs with
  | zero =>
    obtain ⟨rfl, rfl⟩ := Prod.mk.inj (Option.some.inj h)
    exact ⟨.done hrest, rfl⟩
  | succ n ih =>
    unfold readDoubles at h
    cases hr : readDouble strtod t with
    | none =>
      rw [hr] at h
      cases h
    | some r =>
      rw [hr] at h
      obtain ⟨r', hr', he⟩ := Option.map_eq_some_iff.mp h
      obtain ⟨rfl, rfl⟩ := Prod.mk.inj he
      obtain ⟨hreads, hlen⟩ := ih hr'
      unfold readDouble at hr
      cases hl : longestPrefix isNumber (t.dropWhile isSpace) with
      | none =>
        rw [hl] at hr
        cases hr
      | some lit =>
        obtain ⟨hsplit, hnum, hlong⟩ := longestPrefix_some hl
        rw [hl] at hr
        dsimp only at hr
        split_ifs at hr
        obtain rfl := Option.some.inj hr
        refine ⟨?_, congrArg (· + 1) hlen⟩
        rw [← List.takeWhile_append_dropWhile (p := isSpace) (l := t), hsplit]
        rw [hsplit] at hlong
        exact .next (fun c hc => List.mem_takeWhile_imp hc) hnum hlong hreads

theorem readDoubles_of_reads {t : Text} {xs : List Value} (h : Reads strtod t xs) (hfin : ∀ x ∈ xs, x.isFinite = true) :
    ∃ rest, readDoubles strtod xs.length t = some (xs, rest) ∧ Blank rest := by
  induction h with
  | done hb => exact ⟨_, rfl, hb⟩
  | next hs hw hlong _ ih =>
    obtain ⟨rest, hread, hrest⟩ := ih fun x hx => hfin x (List.mem_cons_of_mem _ hx)
    refine ⟨rest, ?_, hrest⟩
    rw [List.length_cons]
    unfold readDoubles
    rw [readDouble_next hs hw hlong, if_pos (hfin _ List.mem_cons_self)]
    dsimp only
    rw [hread]
    rfl

/-! ## the envelope -/

theorem outOfStroke_eq (x : Value) (hi : ℚ) : outOfStroke x hi = !inStroke x hi := by
  unfold outOfStroke inStroke
  cases x with
  | nan => rfl
  | inf neg => cases neg <;> rfl
  | fin q =>
    simp only [Value.lt_fin, Value.le_fin, Value.isFinite, Bool.not_true, Bool.false_or, Bool.true_and, Bool.not_and, ← decide_not, not_le]

theorem speed_eq (x : Value) (hi : ℚ) : (!x.isFinite || x.le (.fin 0) || (Value.fin hi).lt x) =
    !(x.isFinite && ((Value.fin 0).lt x && x.le (.fin hi))) := by
  cases x with
  | nan => rfl
  | inf neg => cases neg <;> rfl
  | fin q =>
    simp only [Value.lt_fin, Value.le_fin, Value.isFinite, Bool.not_true, Bool.false_or, Bool.true_and, Bool.not_and, ← decide_not, not_le,
      not_lt]

/-- **Both sides check the same envelope.** -/
theorem cppAdmits_eq (a : Action) : cppAdmits l a = pyAdmits l a := by
  have hchecks : ∀ w s g f₁ f₂ f₃ f₄ e₁ e₂ : Bool,
      (if (!w || !s) = true then false else !g || (f₁ && f₂ && f₃ && f₄ && !!e₁ && !!e₂)) =
        if (!(w && s)) = true then false else !(g && !(f₄ && f₁ && f₂ && f₃ && e₁ && e₂)) := by decide
  unfold cppAdmits pyAdmits
  rw [outOfStroke_eq, outOfStroke_eq, outOfStroke_eq, Bool.or_assoc, Bool.or_assoc, ← Bool.or_assoc (!a.s.isFinite), speed_eq,
    Value.lt_fin, Bool.and_assoc (inStroke a.w l.widthMax && a.s.isFinite), Bool.and_assoc (inStroke a.w l.widthMax)]
  by_cases hhome : a.kind = .home
  · rw [if_pos hhome, if_pos hhome]
  · rw [if_neg hhome, if_neg hhome]
    exact hchecks _ _ _ _ _ _ _ _ _

theorem finite_of_stroke {x : Value} {hi : ℚ} (h : inStroke x hi = true) : x.isFinite = true :=
  (Bool.and_eq_true_iff.mp (Bool.and_eq_true_iff.mp h).1).1

/-- what an envelope holds an action to -/
theorem admits_parts {a : Action} (h : pyAdmits l a = true) (hk : a.kind ≠ .home) : inStroke a.w l.widthMax = true ∧ a.s.isFinite = true ∧
    (a.kind = .grasp → a.f.isFinite = true ∧ inStroke a.ei l.widthMax = true ∧ inStroke a.eo l.widthMax = true) := by
  unfold pyAdmits at h
  rw [if_neg hk] at h
  split_ifs at h with hw
  rw [Bool.not_eq_true, Bool.not_eq_false'] at hw
  simp only [Bool.and_eq_true_iff] at hw
  refine ⟨hw.1.1.1, hw.1.1.2, fun hg => ?_⟩
  rw [decide_eq_true hg, Bool.true_and, Bool.not_not] at h
  simp only [Bool.and_eq_true_iff] at h
  exact ⟨h.1.1.1.1.2, h.1.2, h.2⟩

/-- an action in the envelope has finite operands -/
theorem finite_of_admits {v : Verb} {token : ℕ} {xs : List Value} (hlen : xs.length = v.arity) (h : pyAdmits l (v.action token xs) = true) :
    ∀ x ∈ xs, x.isFinite = true := by
  cases v with
  | home =>
    obtain rfl := List.length_eq_zero_iff.mp hlen
    exact fun x hx => absurd hx List.not_mem_nil
  | move =>
    match xs, hlen with
    | [w, s], _ =>
      obtain ⟨hw, hs, -⟩ := admits_parts h Verb.noConfusion
      simp only [List.mem_cons, List.not_mem_nil, or_false, forall_eq_or_imp, forall_eq]
      exact ⟨finite_of_stroke hw, hs⟩
  | grasp =>
    match xs, hlen with
    | [w, s, f, ei, eo], _ =>
      obtain ⟨hw, hs, hgrasp⟩ := admits_parts h Verb.noConfusion
      obtain ⟨hf, hei, heo⟩ := hgrasp rfl
      simp only [List.mem_cons, List.not_mem_nil, or_false, forall_eq_or_imp, forall_eq]
      exact ⟨finite_of_stroke hw, hs, hf, finite_of_stroke hei, finite_of_stroke heo⟩

/-- the operands behind a verb are as many as it takes, and in the envelope -/
def Valid (strtod : Text → Value) (l : HandLimits) (verb tail : Text) : Prop :=
  ∃ v xs, verbOf verb = some v ∧ Reads strtod tail xs ∧ xs.length = v.arity ∧ pyAdmits l (v.action 0 xs) = true

/-- **The bridge accepts exactly the valid commands.** -/
theorem cppBody_valid {n : ℕ} {verb tail : Text} : (cppBody strtod l n verb tail).isSome = true ↔ Valid strtod l verb tail := by
  unfold cppBody Valid
  constructor
  · intro h
    cases hv : verbOf verb with
    | none =>
      rw [hv] at h
      cases h
    | some v =>
      rw [hv] at h
      dsimp only at h
      cases hr : readDoubles strtod v.arity tail with
      | none =>
        rw [hr] at h
        cases h
      | some r =>
        obtain ⟨xs, rest⟩ := r
        rw [hr] at h
        dsimp only at h
        split_ifs at h with hextra hadmit
        · cases h
        · obtain ⟨hreads, hlen⟩ := reads_of_readDoubles hr (readWord_eq_none.mp (Option.not_isSome_iff_eq_none.mp hextra))
          rw [cppAdmits_eq] at hadmit
          exact ⟨v, xs, rfl, hreads, hlen, hadmit⟩
        · cases h
  · rintro ⟨v, xs, hv, hreads, hlen, hadmit⟩
    obtain ⟨rest, hread, hrest⟩ := readDoubles_of_reads hreads (finite_of_admits hlen hadmit)
    rw [hlen] at hread
    have hadmit' : cppAdmits l (v.action n xs) = true := by
      rw [cppAdmits_eq]
      exact hadmit
    rw [hv]
    dsimp only
    rw [hread]
    dsimp only
    rw [readWord_eq_none.mpr hrest, if_neg (by decide), if_pos hadmit']
    rfl

/-! ## words with single blanks -/

theorem stops_spaced (ws : List Text) : Stops (spaced ' ' ws) := by
  cases ws with
  | nil => exact .inl rfl
  | cons w ws => exact .inr ⟨' ', w ++ spaced ' ' ws, rfl, rfl⟩

theorem blank_singleton : Blank [' '] := fun c hc => by
  rw [List.mem_singleton.mp hc]
  rfl

theorem readDoubles_spaced {args : List Text} (hargs : ∀ a ∈ args, isNumber a = true) (n : ℕ) :
    readDoubles strtod n (spaced ' ' args) =
      if n ≤ args.length ∧ ∀ a ∈ args.take n, (strtod a).isFinite = true then
        some ((args.take n).map strtod, spaced ' ' (args.drop n))
      else none := by
  induction n generalizing args with
  | zero => rw [if_pos ⟨Nat.zero_le _, fun a ha => absurd ha (by simp)⟩]; rfl
  | succ n ih =>
    unfold readDoubles
    cases args with
    | nil =>
      rw [if_neg (by simp)]
      rfl
    | cons a args =>
      have ha : isNumber a = true := hargs a List.mem_cons_self
      have hread : readDouble strtod (spaced ' ' (a :: args)) = if (strtod a).isFinite = true then some (strtod a, spaced ' ' args) else none :=
        readDouble_next blank_singleton ha (literal_ends (stops_spaced args))
      rw [hread]
      by_cases hfin : (strtod a).isFinite = true
      · rw [if_pos hfin]
        dsimp only
        rw [ih fun a' ha' => hargs a' (List.mem_cons_of_mem a ha')]
        by_cases hrest : n ≤ args.length ∧ ∀ a ∈ args.take n, (strtod a).isFinite = true
        · rw [if_pos hrest, if_pos]
          · rfl
          · refine ⟨Nat.succ_le_succ hrest.1, fun a' ha' => ?_⟩
            rcases List.mem_cons.mp ha' with rfl | ha'
            · exact hfin
            · exact hrest.2 a' ha'
        · rw [if_neg hrest, if_neg]
          · rfl
          · exact fun h => hrest ⟨Nat.le_of_succ_le_succ h.1, fun a' ha' => h.2 a' (List.mem_cons_of_mem a ha')⟩
      · rw [if_neg hfin, if_neg]
        exact fun h => hfin (h.2 a List.mem_cons_self)

/-- **On single blanks and one literal a word the two parsers do the same.** -/
theorem cppBody_spaced {args : List Text} (hargs : ∀ a ∈ args, isNumber a = true) (n : ℕ) (verb : Text) :
    cppBody strtod l n verb (spaced ' ' args) = pyBody strtod l n verb args := by
  unfold cppBody pyBody
  rw [if_pos (List.all_eq_true.mpr hargs)]
  cases verbOf verb with
  | none => rfl
  | some v =>
    dsimp only
    rw [readDoubles_spaced hargs]
    by_cases hlen : args.length = v.arity
    · rw [if_pos hlen]
      by_cases hfin : ∀ a ∈ args.take v.arity, (strtod a).isFinite = true
      · rw [if_pos ⟨hlen.ge, hfin⟩]
        dsimp only
        rw [List.drop_of_length_le hlen.le, List.take_of_length_le hlen.le, cppAdmits_eq]
        rfl
      · rw [if_neg fun h => hfin h.2]
        have hout : ¬ pyAdmits l (v.action n (args.map strtod)) = true := by
          intro hadmit
          refine hfin fun a ha => ?_
          exact finite_of_admits (by rw [List.length_map, hlen]) hadmit _ (List.mem_map_of_mem (List.mem_of_mem_take ha))
        rw [if_neg hout]
    · rw [if_neg hlen]
      split_ifs with h
      · -- something stands behind the operands
        have hmore : v.arity < args.length := lt_of_le_of_ne h.1 (Ne.symm hlen)
        cases hd : args.drop v.arity with
        | nil =>
          rw [List.drop_eq_nil_iff] at hd
          omega
        | cons a rest =>
          have ha : isNumber a = true := hargs a (List.mem_of_mem_drop (hd ▸ List.mem_cons_self))
          have hword : readWord (spaced ' ' (a :: rest)) = some (a, spaced ' ' rest) :=
            (readWord_blank blank_singleton).trans (readWord_word (number_ne_nil ha) (solid_number ha) (stops_spaced rest))
          dsimp only
          rw [hword]
          rfl
      · rfl

/-! ## heads -/

/-- what the simulation takes for a command that states a token -/
theorem pyHead_some {line token verb : Text} {args : List Text} (h : pyHead line = some (token, verb, args)) :
    line = "CMD".toList ++ spaced ' ' (token :: verb :: args) ∧ isDigits token = true := by
  unfold pyHead at h
  split at h
  · rename_i first token' verb' args' hsplit
    split_ifs at h with hcmd
    obtain ⟨rfl, hrest⟩ := Prod.mk.inj (Option.some.inj h)
    obtain ⟨rfl, rfl⟩ := Prod.mk.inj hrest
    rw [Bool.and_eq_true_iff, decide_eq_true_eq] at hcmd
    obtain ⟨hline, -, -⟩ := splitOn_eq_cons.mp hsplit
    exact ⟨hcmd.1 ▸ hline, hcmd.2⟩
  · cases h

/-- the bridge reads the same token there, and its verb is the next word -/
theorem cppHead_of_pyHead {line token verb : Text} {args : List Text} (h : pyHead line = some (token, verb, args)) :
    cppHead line = (readWord (spaced ' ' (verb :: args))).map fun r => (token, r.1, r.2) := by
  obtain ⟨rfl, hdigits⟩ := pyHead_some h
  have hcmd : readWord ("CMD".toList ++ spaced ' ' (token :: verb :: args)) = some ("CMD".toList, spaced ' ' (token :: verb :: args)) :=
    readWord_word (by decide) (by decide) (stops_spaced _)
  have htoken : readWord (spaced ' ' (token :: verb :: args)) = some (token, spaced ' ' (verb :: args)) :=
    (readWord_blank blank_singleton).trans (readWord_word (digits_ne_nil hdigits) (solid_digits hdigits) (stops_spaced (verb :: args)))
  unfold cppHead cppWords
  rw [hcmd]
  dsimp only
  rw [htoken]
  dsimp only
  cases readWord (spaced ' ' (verb :: args)) with
  | none => rfl
  | some r =>
    show (if (decide ("CMD".toList = "CMD".toList) && isDigits token) = true then some (token, r.1, r.2) else none) = _
    rw [hdigits]
    rfl

theorem verb_solid {t : Text} {v : Verb} (h : verbOf t = some v) : t ≠ [] ∧ Solid t := by
  unfold verbOf at h
  split_ifs at h with h₁ h₂ h₃
  · exact h₁ ▸ ⟨by decide, by decide⟩
  · exact h₂ ▸ ⟨by decide, by decide⟩
  · exact h₃ ▸ ⟨by decide, by decide⟩

/-- the words of a command that the simulation accepts -/
theorem words_of_pyBody {n : ℕ} {verb : Text} {args : List Text} (h : (pyBody strtod l n verb args).isSome = true) :
    args.all isNumber = true ∧ readWord (spaced ' ' (verb :: args)) = some (verb, spaced ' ' args) := by
  unfold pyBody at h
  split_ifs at h with hargs
  · refine ⟨hargs, ?_⟩
    cases hv : verbOf verb with
    | none =>
      rw [hv] at h
      cases h
    | some v =>
      obtain ⟨hne, hsolid⟩ := verb_solid hv
      exact (readWord_blank blank_singleton).trans (readWord_word hne hsolid (stops_spaced args))
  · cases h

/-! ## answers -/

theorem printed_zero : printed 0 = "0".toList := rfl

theorem printed_eq_zero {n : ℕ} (h : printed n = "0".toList) : n = 0 := by
  unfold printed at h
  rw [Nat.toDigits_eq_if (by norm_num)] at h
  split_ifs at h with hn
  · interval_cases n <;> first | rfl | exact absurd h (by decide)
  · have hlen := congrArg List.length h
    rw [List.length_append] at hlen
    have hpos : 0 < (Nat.toDigits 10 (n / 10)).length := Nat.length_toDigits_pos
    simp at hlen

theorem rejectLine_inj {t u : Text} : rejectLine t = rejectLine u ↔ t = u := by
  unfold rejectLine
  rw [List.append_left_inj, List.append_right_inj]

/-- both sides take the line for the same action, or refuse it with the same REJECT line -/
def SameAnswer (strtod : Text → Value) (l : HandLimits) (line : Text) : Prop :=
  pyParse strtod l line = cppParse strtod l line ∧
    (cppParse strtod l line = none → rejectLine (pyToken line) = rejectLine (cppToken line))

/-- the lines that are answered alike.  A token is stated where `CMD`, digits and a verb are the first three words:
then it stands between single blanks, it fits 64 bits, and either the operands are valid and each is a word of its own, or they are not and
the token is written as it is printed.  Elsewhere only a token that nothing follows may differ from `0`. -/
def Alike (strtod : Text → Value) (l : HandLimits) (line : Text) : Prop :=
  match cppHead line with
  | none => ∀ token verb args, pyHead line = some (token, verb, args) → token = "0".toList
  | some (token, verb, tail) =>
    match pyHead line with
    | none => 2 ^ 64 ≤ number token ∨ (number token = 0 ∧ ¬ Valid strtod l verb tail)
    | some (_, first, args) =>
      number token < 2 ^ 64 ∧ (Valid strtod l verb tail → first = verb ∧ args.all isNumber = true) ∧
        (¬ Valid strtod l verb tail → token = printed (number token))

theorem number_zero : number "0".toList = 0 := rfl

/-- **The lines that both sides answer alike.** -/
theorem same_answer_iff (line : Text) : SameAnswer strtod l line ↔ Alike strtod l line := by
  unfold SameAnswer Alike
  rw [rejectLine_inj]
  unfold pyParse pyToken cppParse cppToken
  cases hc : cppHead line with
  | none =>
    dsimp only
    cases hp : pyHead line with
    | none =>
      refine ⟨?_, fun _ => ⟨rfl, fun _ => rfl⟩⟩
      rintro - token verb args he
      cases he
    | some p =>
      obtain ⟨token, verb, args⟩ := p
      -- nothing follows the token
      have hword : readWord (spaced ' ' (verb :: args)) = none := by
        have := (cppHead_of_pyHead hp).symm.trans hc
        exact Option.map_eq_none_iff.mp this
      have hnone : pyBody strtod l (number token) verb args = none := by
        rw [← Option.not_isSome_iff_eq_none]
        intro hsome
        rw [(words_of_pyBody hsome).2] at hword
        cases hword
      show (pyBody strtod l (number token) verb args = none ∧ (_ → token = printed 0)) ↔ _
      rw [hnone, printed_zero]
      constructor
      · rintro ⟨-, h⟩ _ _ _ he
        obtain ⟨rfl, -⟩ := Prod.mk.inj (Option.some.inj he)
        exact h rfl
      · exact fun h => ⟨rfl, fun _ => h token verb args rfl⟩
  | some c =>
    obtain ⟨token, verb, tail⟩ := c
    dsimp only
    have hvalid : (cppBody strtod l (number token) verb tail).isSome = true ↔ Valid strtod l verb tail := cppBody_valid
    cases hp : pyHead line with
    | none =>
      show (none = (stoull token).bind _ ∧ (_ → "0".toList = printed ((stoull token).getD 0))) ↔ _
      unfold stoull
      by_cases hbig : number token < 2 ^ 64
      · rw [if_pos hbig, Option.bind_some, Option.getD_some]
        constructor
        · rintro ⟨hnone, h⟩
          refine .inr ⟨printed_eq_zero (h hnone.symm).symm, fun hv => ?_⟩
          rw [← hvalid, ← hnone] at hv
          cases hv
        · rintro (h | ⟨hzero, hv⟩)
          · omega
          · rw [← hvalid, Option.not_isSome_iff_eq_none] at hv
            exact ⟨hv.symm, fun _ => by rw [hzero]; rfl⟩
      · rw [if_neg hbig]
        exact ⟨fun _ => .inl (not_lt.mp hbig), fun _ => ⟨rfl, fun _ => rfl⟩⟩
    | some p =>
      obtain ⟨token', first, args⟩ := p
      obtain ⟨r, hword, he⟩ := Option.map_eq_some_iff.mp ((cppHead_of_pyHead hp).symm.trans hc)
      obtain ⟨rfl, hrest⟩ := Prod.mk.inj he
      obtain ⟨rfl, rfl⟩ := Prod.mk.inj hrest
      -- the simulation accepts only where the words are the bridge's
      have hwords : (pyBody strtod l (number token') first args).isSome = true →
          first = r.1 ∧ args.all isNumber = true ∧ pyBody strtod l (number token') first args = cppBody strtod l (number token') r.1 r.2 := by
        intro hsome
        obtain ⟨hargs, hw⟩ := words_of_pyBody hsome
        rw [hword] at hw
        obtain rfl := Option.some.inj hw
        exact ⟨rfl, hargs, (cppBody_spaced (List.all_eq_true.mp hargs) _ _).symm⟩
      show (pyBody strtod l (number token') first args = (stoull token').bind _ ∧ (_ → token' = printed ((stoull token').getD 0))) ↔ _
      unfold stoull
      by_cases hbig : number token' < 2 ^ 64
      · rw [if_pos hbig, Option.bind_some, Option.getD_some]
        by_cases hv : Valid strtod l r.1 r.2
        · have hsome := hvalid.mpr hv
          constructor
          · rintro ⟨hsame, -⟩
            rw [← hsame] at hsome
            obtain ⟨hfirst, hargs, -⟩ := hwords hsome
            exact ⟨hbig, fun _ => ⟨hfirst, hargs⟩, fun hn => absurd hv hn⟩
          · rintro ⟨-, h, -⟩
            obtain ⟨rfl, hargs⟩ := h hv
            have htail : r.2 = spaced ' ' args := by
              obtain ⟨u, hu⟩ : ∃ u, verbOf r.1 = some u := hv.imp fun _ h => h.choose_spec.1
              obtain ⟨hne, hsolid⟩ := verb_solid hu
              have hown : readWord (spaced ' ' (r.1 :: args)) = some (r.1, spaced ' ' args) :=
                (readWord_blank blank_singleton).trans (readWord_word hne hsolid (stops_spaced args))
              rw [hword] at hown
              exact congrArg Prod.snd (Option.some.inj hown)
            rw [htail] at hsome ⊢
            refine ⟨(cppBody_spaced (List.all_eq_true.mp hargs) _ _).symm, fun hnone => ?_⟩
            rw [hnone] at hsome
            cases hsome
        · have hnone : cppBody strtod l (number token') r.1 r.2 = none := by
            rw [← Option.not_isSome_iff_eq_none, hvalid]
            exact hv
          have hpnone : pyBody strtod l (number token') first args = none := by
            rw [← Option.not_isSome_iff_eq_none]
            intro hsome
            rw [(hwords hsome).2.2, hnone] at hsome
            cases hsome
          rw [hnone, hpnone]
          exact ⟨fun h => ⟨hbig, fun hc => absurd hc hv, fun _ => h.2 rfl⟩, fun h => ⟨rfl, fun _ => h.2.2 hv⟩⟩
      · rw [if_neg hbig]
        constructor
        · rintro ⟨-, h⟩
          have hzero : number token' = 0 := (congrArg number (h rfl)).trans number_zero
          omega
        · rintro ⟨h, -⟩
          exact absurd h hbig

/-- **One framing and one language.**  However the stream arrives, both loops cut it into the same lines and disconnect at the same one; and
a line is answered alike exactly when it is `Alike`. -/
theorem hand_language {stream : Text} {cs ds : List Text} (hc : cs.flatten = stream) (hfits : Fits [] cs) (hd : ds.flatten = stream)
    (strtod : Text → Value) (l : HandLimits) :
    cppServe [] cs = pyServe [] ds ∧ ∀ line : Text, line.length < 255 → (SameAnswer strtod l line ↔ Alike strtod l line) := by
  refine ⟨?_, fun line _ => same_answer_iff line⟩
  rw [cppServe_eq List.not_mem_nil (by decide) hfits, pyServe_eq List.not_mem_nil (by decide), hc, hd]

/-- a stop and a command that arrive in other pieces on each side -/
theorem hand_language_split :
    cppServe [] ["GST".toList, "OP\nCMD 1 HOME\n".toList] = pyServe [] ["GSTOP\nCMD 1".toList, " HOME\n".toList] ∧
      ∀ line : Text, line.length < 255 → (SameAnswer (fun _ => .fin 0) frankaHand line ↔ Alike (fun _ => .fin 0) frankaHand line) :=
  hand_language (show ["GST".toList, "OP\nCMD 1 HOME\n".toList].flatten = "GSTOP\nCMD 1 HOME\n".toList by decide)
    (by unfold Fits Fits Fits; decide) (by decide) _ _

/-- a blank behind a command: the bridge opens the gripper, the simulation refuses -/
theorem blank_behind_command :
    ¬ ∀ (strtod : Text → Value) (line : Text), line.length < 255 → SameAnswer strtod frankaHand line := by
  intro h
  have := (h (fun _ => .fin 0) "CMD 1 HOME ".toList (by decide)).1
  revert this
  decide +kernel

end

end ArmControl.EndEffectors
