import Mathlib.Data.List.Forall2

/-!
# Computations that may fail

* `bind_eq_ok`        two computations in a row end well when both do;
* `bind_eq_error`     and fail when one does;
* `forall₂_of_mapM`   the same for a list of them, result by result;
* `exists_mapM`       a list of computations that all end well does;
* `mem_of_foldlM`, `error_of_foldlM`, `invariant_of_foldlM`   a loop that may stop with an error;
* `map_bind_congr`, `map_foldlM`   two computations, two loops that go alike;
* `result_of_mem`, `source_of_mem`, `map_eq_of_mapM`   which result belongs to which.
-/

namespace Except

variable {α β ε : Type} {x : Except ε α} {k : α → Except ε β} {f : α → Except ε β} {l : List α} {r : List β} {b : β}

theorem bind_eq_ok : x >>= k = .ok b ↔ ∃ a, x = .ok a ∧ k a = .ok b := by
  cases x with
  | error e =>
    constructor
    · intro h
      cases h
    · rintro ⟨a, ha, -⟩
      cases ha
  | ok a => exact ⟨fun h => ⟨a, rfl, h⟩, fun ⟨_, ha, h⟩ => Except.ok.inj ha ▸ h⟩

theorem bind_eq_error {e : ε} : x >>= k = .error e ↔ x = .error e ∨ ∃ a, x = .ok a ∧ k a = .error e := by
  cases x with
  | error e' =>
    constructor
    · intro h
      exact .inl (congrArg _ (Except.error.inj h))
    · rintro (h | ⟨a, ha, -⟩)
      · exact congrArg _ (Except.error.inj h)
      · cases ha
  | ok a =>
    constructor
    · exact fun h => .inr ⟨a, rfl, h⟩
    · rintro (h | ⟨a', ha, h⟩)
      · cases h
      · exact Except.ok.inj ha ▸ h

theorem forall₂_of_mapM (h : l.mapM f = .ok r) : List.Forall₂ (fun x y => f x = .ok y) l r := by
  induction l generalizing r with
  | nil =>
    obtain rfl := Except.ok.inj h
    exact .nil
  | cons x l ih =>
    rw [List.mapM_cons] at h
    obtain ⟨y, hx, h⟩ := bind_eq_ok.mp h
    obtain ⟨ys, hl, h⟩ := bind_eq_ok.mp h
    obtain rfl := Except.ok.inj h
    exact .cons hx (ih hl)

theorem exists_mapM (h : ∀ x ∈ l, ∃ y, f x = .ok y) : ∃ r, l.mapM f = .ok r := by
  induction l with
  | nil => exact ⟨[], rfl⟩
  | cons x l ih =>
    obtain ⟨y, hy⟩ := h x List.mem_cons_self
    obtain ⟨ys, hys⟩ := ih fun x' hx' => h x' (List.mem_cons_of_mem _ hx')
    refine ⟨y :: ys, ?_⟩
    rw [List.mapM_cons, hy, hys]
    rfl

theorem result_of_mem (h : l.mapM f = .ok r) {x : α} (hx : x ∈ l) : ∃ y ∈ r, f x = .ok y := by
  have hall := forall₂_of_mapM h
  clear h
  induction hall with
  | nil => cases hx
  | cons hxy _ ih =>
    rcases List.mem_cons.mp hx with rfl | hx
    · exact ⟨_, List.mem_cons_self, hxy⟩
    · obtain ⟨y, hy, hf⟩ := ih hx
      exact ⟨y, List.mem_cons_of_mem _ hy, hf⟩

theorem source_of_mem (h : l.mapM f = .ok r) {y : β} (hy : y ∈ r) : ∃ x ∈ l, f x = .ok y := by
  have hall := forall₂_of_mapM h
  clear h
  induction hall with
  | nil => cases hy
  | cons hxy _ ih =>
    rcases List.mem_cons.mp hy with rfl | hy
    · exact ⟨_, List.mem_cons_self, hxy⟩
    · obtain ⟨x, hx, hf⟩ := ih hy
      exact ⟨x, List.mem_cons_of_mem _ hx, hf⟩

theorem map_eq_of_mapM {γ : Type} {g : β → γ} {k : α → γ} (h : l.mapM f = .ok r) (hg : ∀ x y, f x = .ok y → g y = k x) :
    r.map g = l.map k := by
  have hall := forall₂_of_mapM h
  clear h
  induction hall with
  | nil => rfl
  | cons hxy _ ih => rw [List.map_cons, List.map_cons, hg _ _ hxy, ih]

section
variable {σ : Type} {step : σ → α → Except ε σ} {s s' : σ} {e : ε}

/-- a loop that ends took all its turns -/
theorem mem_of_foldlM (h : l.foldlM step s = .ok s') {x : α} (hx : x ∈ l) : ∃ t t', step t x = .ok t' := by
  induction l generalizing s with
  | nil => cases hx
  | cons y l ih =>
    rw [List.foldlM_cons] at h
    obtain ⟨t, ht, hrest⟩ := bind_eq_ok.mp h
    rcases List.mem_cons.mp hx with rfl | hx
    · exact ⟨s, t, ht⟩
    · exact ih hrest hx

/-- a loop that stops stopped in one of its turns -/
theorem error_of_foldlM (h : l.foldlM step s = .error e) : ∃ x ∈ l, ∃ t, step t x = .error e := by
  induction l generalizing s with
  | nil => cases h
  | cons x l ih =>
    rw [List.foldlM_cons] at h
    cases hstep : step s x with
    | error e' =>
      rw [hstep] at h
      obtain rfl := Except.error.inj h
      exact ⟨x, List.mem_cons_self, s, hstep⟩
    | ok t =>
      rw [hstep] at h
      obtain ⟨y, hy, hstep'⟩ := ih h
      exact ⟨y, List.mem_cons_of_mem _ hy, hstep'⟩

/-- what every turn keeps, the loop keeps -/
theorem invariant_of_foldlM {P : σ → Prop} (hs : P s) (hstep : ∀ t x t', x ∈ l → P t → step t x = .ok t' → P t')
    (h : l.foldlM step s = .ok s') : P s' := by
  induction l generalizing s with
  | nil =>
    obtain rfl := Except.ok.inj h
    exact hs
  | cons x l ih =>
    rw [List.foldlM_cons] at h
    obtain ⟨t, ht, hrest⟩ := bind_eq_ok.mp h
    exact ih (hstep s x t List.mem_cons_self hs ht) (fun t x t' hx => hstep t x t' (List.mem_cons_of_mem _ hx)) hrest

/-- two computations that go alike -/
theorem map_bind_congr {τ γ σ' τ' γ' : Type} {x : Except ε σ} {y : Except ε τ} {g : σ → γ} {g' : τ → γ} {k : σ → Except ε σ'}
    {k' : τ → Except ε τ'} {h : σ' → γ'} {h' : τ' → γ'} (hx : x.map g = y.map g')
    (hk : ∀ a b, g a = g' b → (k a).map h = (k' b).map h') : (x >>= k).map h = (y >>= k').map h' := by
  cases x with
  | error e =>
    cases y with
    | error e' => exact congrArg Except.error (Except.error.inj hx)
    | ok b => cases hx
  | ok a =>
    cases y with
    | error e' => cases hx
    | ok b => exact hk a b (Except.ok.inj hx)

/-- two loops that go alike -/
theorem map_foldlM {τ γ : Type} {step' : τ → α → Except ε τ} {g : σ → γ} {g' : τ → γ} {t : τ} (hs : g s = g' t)
    (hstep : ∀ s t x, x ∈ l → g s = g' t → (step s x).map g = (step' t x).map g') :
    (l.foldlM step s).map g = (l.foldlM step' t).map g' := by
  induction l generalizing s t with
  | nil => exact congrArg Except.ok hs
  | cons x l ih =>
    rw [List.foldlM_cons, List.foldlM_cons]
    exact map_bind_congr (hstep s t x List.mem_cons_self hs) fun s t hst =>
      ih hst fun s t y hy => hstep s t y (List.mem_cons_of_mem _ hy)

end

end Except
