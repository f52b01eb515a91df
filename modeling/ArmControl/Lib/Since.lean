import Mathlib.Data.List.Basic

/-!
# Looking back over a log

A log is the list of what has happened, the latest entry last.

* `Since x quiet log`     some entry satisfies `x` (together with the log before it), and every later
                          entry is quiet;
* `Answered x y log`      every entry with `x` is followed by an answer `y` to it;
* `Justified ok log`      every entry is right by the log before it;
* `Since.snoc`, `Since.now`, `Answered.snoc`   how an appended entry changes them;
* `Since.nest`            two looks back at one log, the farther one seen from the nearer.
-/

namespace History

section
variable {α : Type*}

/-- an entry with `x`, and only quiet entries since -/
def Since (x : List α → α → Prop) (quiet : α → Prop) (log : List α) : Prop :=
  ∃ p o q, log = p ++ o :: q ∧ x p o ∧ ∀ o' ∈ q, quiet o'

/-- every entry with `x` has an answer behind it -/
def Answered (x : α → Prop) (y : α → α → Prop) (log : List α) : Prop :=
  ∀ p o q, log = p ++ o :: q → x o → ∃ o' ∈ q, y o o'

/-- every entry is right by the log before it -/
def Justified (ok : List α → α → Prop) (log : List α) : Prop :=
  ∀ p o q, log = p ++ o :: q → ok p o

variable {x y : List α → α → Prop} {quiet quiet' : α → Prop} {log : List α} {o : α}

theorem Since.now (h : x log o) : Since x quiet (log ++ [o]) :=
  ⟨log, o, [], rfl, h, by simp⟩

theorem Since.snoc (h : Since x quiet log) (ho : quiet o) : Since x quiet (log ++ [o]) := by
  obtain ⟨p, a, q, rfl, hx, hq⟩ := h
  refine ⟨p, a, q ++ [o], by simp, hx, ?_⟩
  intro o' ho'
  rcases List.mem_append.mp ho' with h | h
  · exact hq o' h
  · rw [List.mem_singleton.mp h]
    exact ho

theorem Since.append (h : Since x quiet log) {new : List α} (hnew : ∀ o ∈ new, quiet o) : Since x quiet (log ++ new) := by
  obtain ⟨p, a, q, rfl, hx, hq⟩ := h
  refine ⟨p, a, q ++ new, by simp, hx, fun o ho => ?_⟩
  rcases List.mem_append.mp ho with ho | ho
  · exact hq o ho
  · exact hnew o ho

theorem Since.mono (h : Since x quiet log) (hx : ∀ p o, x p o → y p o)
    (hq : ∀ o, quiet o → quiet' o) : Since y quiet' log := by
  obtain ⟨p, a, q, rfl, hxa, hqa⟩ := h
  exact ⟨p, a, q, rfl, hx p a hxa, fun o' ho' => hq o' (hqa o' ho')⟩

/-- the entry that was found is in the log -/
theorem Since.mem (h : Since x quiet log) : ∃ p o, o ∈ log ∧ x p o := by
  obtain ⟨p, a, q, rfl, hx, -⟩ := h
  exact ⟨p, a, by simp, hx⟩

/-- what an entry sets and quiet entries keep holds of a fold over the log -/
theorem Since.foldl {β : Type*} {step : β → α → β} {P : β → Prop} {b : β} (h : Since x quiet log)
    (hx : ∀ p o f, x p o → P (step f o)) (hq : ∀ o f, quiet o → P f → P (step f o)) : P (log.foldl step b) := by
  obtain ⟨p, o, q, rfl, ho, hquiet⟩ := h
  rw [List.foldl_append, List.foldl_cons]
  have hstart : P (step (p.foldl step b) o) := hx p o _ ho
  clear ho
  generalize step (p.foldl step b) o = f at hstart
  induction q generalizing f with
  | nil => exact hstart
  | cons o' q ih =>
    exact ih (fun o'' ho'' => hquiet o'' (List.mem_cons_of_mem _ ho'')) _ (hq o' f (hquiet o' List.mem_cons_self) hstart)

/-- an entry that breaks the quiet of the nearer look stands before it -/
theorem Since.nest (h : Since x quiet log) (h' : Since y quiet' log)
    (hloud : ∀ p o, x p o → ¬ quiet' o) (hne : ∀ p p' o, x p o → ¬ y p' o) :
    Since (fun p o => y p o ∧ Since x quiet p) quiet' log := by
  obtain ⟨p, a, q, rfl, hx, hq⟩ := h
  obtain ⟨p', b, q', he, hy, hq'⟩ := h'
  refine ⟨p', b, q', he, ⟨hy, ?_⟩, hq'⟩
  rcases List.append_eq_append_iff.mp he with ⟨m, rfl, hm⟩ | ⟨m, rfl, hm⟩
  · cases m with
    | nil =>
      obtain ⟨rfl, -⟩ := List.cons.inj (by simpa using hm)
      exact absurd hy (hne _ _ _ hx)
    | cons c m =>
      obtain ⟨rfl, rfl⟩ := List.cons.inj (by simpa using hm)
      exact ⟨p, a, m, rfl, hx, fun o' ho' => hq o' (by simp [ho'])⟩
  · cases m with
    | nil =>
      obtain ⟨rfl, -⟩ := List.cons.inj (by simpa using hm)
      exact absurd hy (hne _ _ _ hx)
    | cons c m =>
      obtain ⟨-, rfl⟩ := List.cons.inj (by simpa using hm)
      exact absurd (hq' a (by simp)) (hloud _ _ hx)

variable {r : α → Prop} {s : α → α → Prop}

theorem answered_nil : Answered r s [] := by
  intro p o q h
  simp at h

/-- the entries of a longer log -/
theorem split_snoc {p q : List α} {a : α} (h : log ++ [o] = p ++ a :: q) :
    (q = [] ∧ p = log ∧ a = o) ∨ ∃ q', q = q' ++ [o] ∧ log = p ++ a :: q' := by
  rcases List.eq_nil_or_concat q with rfl | ⟨q', b, rfl⟩
  · left
    obtain ⟨rfl, hb⟩ := List.append_inj' h rfl
    exact ⟨rfl, rfl, (List.cons.inj hb).1.symm⟩
  · right
    rw [List.concat_eq_append] at h ⊢
    have h' : log ++ [o] = (p ++ a :: q') ++ [b] := by rw [h, List.append_assoc, List.cons_append]
    obtain ⟨rfl, hb⟩ := List.append_inj' h' rfl
    obtain rfl := (List.cons.inj hb).1
    exact ⟨q', rfl, rfl⟩

theorem since_snoc_iff : Since x quiet (log ++ [o]) ↔ x log o ∨ Since x quiet log ∧ quiet o := by
  constructor
  · rintro ⟨p, a, q, he, hx, hq⟩
    rcases split_snoc he with ⟨rfl, rfl, rfl⟩ | ⟨q', rfl, rfl⟩
    · exact .inl hx
    · exact .inr ⟨⟨p, a, q', rfl, hx, fun o' ho' => hq o' (List.mem_append_left _ ho')⟩, hq o (by simp)⟩
  · rintro (hx | ⟨h, ho⟩)
    · exact .now hx
    · exact h.snoc ho

/-- the last entry that is not quiet is one -/
theorem Since.both (h : Since x quiet log) (h' : Since y quiet log) (hx : ∀ p o, x p o → ¬ quiet o)
    (hy : ∀ p o, y p o → ¬ quiet o) : Since (fun p o => x p o ∧ y p o) quiet log := by
  obtain ⟨p, a, q, rfl, ha, hq⟩ := h
  obtain ⟨p', b, q', he, hb, hq'⟩ := h'
  refine ⟨p, a, q, rfl, ⟨ha, ?_⟩, hq⟩
  rcases List.append_eq_append_iff.mp he with ⟨m, rfl, hm⟩ | ⟨m, rfl, hm⟩
  · cases m with
    | nil =>
      obtain ⟨rfl, -⟩ := List.cons.inj hm
      rw [List.append_nil] at hb
      exact hb
    | cons c m =>
      obtain ⟨-, rfl⟩ := List.cons.inj hm
      exact absurd (hq b (by simp)) (hy _ _ hb)
  · cases m with
    | nil =>
      obtain ⟨rfl, -⟩ := List.cons.inj hm
      rw [List.append_nil]
      exact hb
    | cons c m =>
      obtain ⟨-, rfl⟩ := List.cons.inj hm
      exact absurd (hq' a (by simp)) (hx _ _ ha)

theorem justified_nil : Justified x [] := by
  intro p o q h
  simp at h

/-- the entry at an index is right by the entries before it -/
theorem Justified.get (h : Justified x log) {n : ℕ} (hn : log[n]? = some o) : x (log.take n) o := by
  obtain ⟨hlt, rfl⟩ := List.getElem?_eq_some_iff.mp hn
  exact h _ _ (log.drop (n + 1)) (by rw [← List.drop_eq_getElem_cons hlt, List.take_append_drop])

theorem Justified.snoc (h : Justified x log) (ho : x log o) : Justified x (log ++ [o]) := by
  intro p a q he
  rcases split_snoc he with ⟨-, rfl, rfl⟩ | ⟨q', -, he'⟩
  · exact ho
  · exact h p a q' he'

/-- entries that are right after every log -/
theorem Justified.append (h : Justified x log) {new : List α} (hnew : ∀ o ∈ new, ∀ p, x p o) : Justified x (log ++ new) := by
  induction new generalizing log with
  | nil => rwa [List.append_nil]
  | cons o new ih =>
    rw [List.append_cons]
    exact ih (h.snoc (hnew o List.mem_cons_self log)) fun o' ho' => hnew o' (List.mem_cons_of_mem o ho')

/-- an entry that asks for nothing -/
theorem Answered.snoc (h : Answered r s log) (ho : ¬ r o) : Answered r s (log ++ [o]) := by
  intro p a q he hr
  rcases split_snoc he with ⟨-, -, rfl⟩ | ⟨q', rfl, rfl⟩
  · exact absurd hr ho
  · obtain ⟨b, hb, hs⟩ := h p a q' rfl hr
    exact ⟨b, by simp [hb], hs⟩

/-- an entry that answers all that is still open -/
theorem Answered.close (h : Answered (fun a => r a ∧ ¬ s a o) s log) (ho : ¬ r o) :
    Answered r s (log ++ [o]) := by
  intro p a q he hr
  rcases split_snoc he with ⟨-, -, rfl⟩ | ⟨q', rfl, rfl⟩
  · exact absurd hr ho
  · by_cases hs : s a o
    · exact ⟨o, by simp, hs⟩
    · obtain ⟨b, hb, hsb⟩ := h p a q' rfl ⟨hr, hs⟩
      exact ⟨b, by simp [hb], hsb⟩

theorem Answered.mono {r' : α → Prop} (h : Answered r s log) (hr : ∀ a, r' a → r a) :
    Answered r' s log := fun p a q he ha => h p a q he (hr a ha)

end

end History
