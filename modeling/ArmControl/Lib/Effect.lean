import Mathlib.Data.List.Basic
import Mathlib.Order.Basic

/-!
# Programs with a state and exceptions

`EStateM ε σ α` is a program over the state `σ` that returns an `α` or raises an `ε`, and that keeps
the effects it had before it raised.

* `Ends Q E m s`    run from `s`, `m` returns with `Q` or raises with `E`;
* `Holds I m s`     the state satisfies `I` however `m` ends;
* one rule a construct, and `Ends.each`, `Ends.each_all` for a loop over a list;
* `andFinally`      `try: m finally: fin`;
* `zoom`            a program over a part of the state;
* `Keeps I m`       from a state with `I`, `m` ends in one, with a rule a construct.
-/

namespace Effect

universe u

variable {ε σ α β : Type u}

/-- run from `s`, `m` returns with `Q` or raises with `E` -/
def Ends (Q : α → σ → Prop) (E : ε → σ → Prop) (m : EStateM ε σ α) (s : σ) : Prop :=
  match m s with
  | .ok a t => Q a t
  | .error e t => E e t

/-- the state satisfies `I` however `m` ends -/
abbrev Holds (I : σ → Prop) (m : EStateM ε σ α) (s : σ) : Prop :=
  Ends (fun _ => I) (fun _ => I) m s

/-- the state that `m` leaves behind -/
def leaves (m : EStateM ε σ α) (s : σ) : σ :=
  match m s with
  | .ok _ t => t
  | .error _ t => t

variable {Q Q' : α → σ → Prop} {E E' : ε → σ → Prop} {R : β → σ → Prop} {I : σ → Prop} {s : σ}

theorem Ends.mono {m : EStateM ε σ α} (h : Ends Q E m s) (hQ : ∀ a t, Q a t → Q' a t)
    (hE : ∀ e t, E e t → E' e t) : Ends Q' E' m s := by
  unfold Ends at h ⊢
  cases hm : m s with
  | ok a t =>
    rw [hm] at h
    exact hQ a t h
  | error e t =>
    rw [hm] at h
    exact hE e t h

theorem Ends.and {m : EStateM ε σ α} (h : Ends Q E m s) (h' : Ends Q' E' m s) :
    Ends (fun a t => Q a t ∧ Q' a t) (fun e t => E e t ∧ E' e t) m s := by
  unfold Ends at h h' ⊢
  cases hm : m s with
  | ok a t =>
    rw [hm] at h h'
    exact ⟨h, h'⟩
  | error e t =>
    rw [hm] at h h'
    exact ⟨h, h'⟩

theorem ends_of {m : EStateM ε σ α} (hQ : ∀ a t, m s = .ok a t → Q a t) (hE : ∀ e t, m s = .error e t → E e t) :
    Ends Q E m s := by
  unfold Ends
  cases hm : m s with
  | ok a t => exact hQ a t hm
  | error e t => exact hE e t hm

theorem Ends.of_ok {m : EStateM ε σ α} {a : α} {t : σ} (h : Ends Q E m s) (hm : m s = .ok a t) : Q a t := by
  unfold Ends at h
  rw [hm] at h
  exact h

theorem Ends.of_error {m : EStateM ε σ α} {e : ε} {t : σ} (h : Ends Q E m s) (hm : m s = .error e t) : E e t := by
  unfold Ends at h
  rw [hm] at h
  exact h

theorem ends_ok {m : EStateM ε σ α} {a : α} {t : σ} (hm : m s = .ok a t) : Ends Q E m s ↔ Q a t := by
  unfold Ends
  rw [hm]

theorem holds_iff {m : EStateM ε σ α} : Holds I m s ↔ I (leaves m s) := by
  unfold Holds Ends leaves
  cases m s <;> exact Iff.rfl

theorem leaves_bind_ok {m : EStateM ε σ β} {f : β → EStateM ε σ α} {b : β} {t : σ} (hm : m s = .ok b t) :
    leaves (m >>= f) s = leaves (f b) t := by
  show leaves (EStateM.bind m f) s = _
  unfold leaves EStateM.bind
  rw [hm]

theorem leaves_bind_error {m : EStateM ε σ β} {f : β → EStateM ε σ α} {e : ε} {t : σ} (hm : m s = .error e t) :
    leaves (m >>= f) s = t := by
  show leaves (EStateM.bind m f) s = _
  unfold leaves EStateM.bind
  rw [hm]

@[simp] theorem ends_pure {a : α} : Ends Q E (pure a) s ↔ Q a s := Iff.rfl

@[simp] theorem ends_bind {m : EStateM ε σ β} {f : β → EStateM ε σ α} :
    Ends Q E (m >>= f) s ↔ Ends (fun b t => Ends Q E (f b) t) E m s := by
  show Ends Q E (EStateM.bind m f) s ↔ _
  unfold Ends EStateM.bind
  cases m s <;> exact Iff.rfl

@[simp] theorem ends_map {m : EStateM ε σ β} {f : β → α} :
    Ends Q E (f <$> m) s ↔ Ends (fun b t => Q (f b) t) E m s := by
  show Ends Q E (EStateM.map f m) s ↔ _
  unfold Ends EStateM.map
  cases m s <;> exact Iff.rfl

theorem get_bind (f : σ → EStateM ε σ α) (s : σ) : (get >>= f) s = f s s := rfl

@[simp] theorem ends_get {Q : σ → σ → Prop} : Ends Q E get s ↔ Q s s := Iff.rfl

@[simp] theorem ends_set {Q : PUnit → σ → Prop} {t : σ} : Ends Q E (set t) s ↔ Q ⟨⟩ t := Iff.rfl

@[simp] theorem ends_modify {Q : PUnit → σ → Prop} {f : σ → σ} :
    Ends Q E (modify f) s ↔ Q ⟨⟩ (f s) := Iff.rfl

@[simp] theorem ends_throw {e : ε} : Ends Q E (throw e) s ↔ E e s := Iff.rfl

/-- a handler runs in the state that the raise left -/
@[simp] theorem ends_tryCatch {m : EStateM ε σ α} {f : ε → EStateM ε σ α} :
    Ends Q E (tryCatch m f) s ↔ Ends Q (fun e t => Ends Q E (f e) t) m s := by
  show Ends Q E (EStateM.tryCatch m f) s ↔ _
  unfold Ends EStateM.tryCatch
  cases m s <;> exact Iff.rfl

theorem ends_ite {c : Prop} [Decidable c] {m n : EStateM ε σ α} (hm : c → Ends Q E m s)
    (hn : ¬ c → Ends Q E n s) : Ends Q E (if c then m else n) s := by
  split_ifs with hc
  · exact hm hc
  · exact hn hc

/-- `f` for each element, in order -/
def each (xs : List β) (f : β → EStateM ε σ PUnit) : EStateM ε σ PUnit :=
  match xs with
  | [] => pure ⟨⟩
  | x :: xs => do
    f x
    each xs f

/-- what every round keeps, the loop keeps -/
theorem Ends.each {f : β → EStateM ε σ PUnit} {xs : List β} (h : I s)
    (hf : ∀ x ∈ xs, ∀ t, I t → Ends (fun _ => I) E (f x) t) :
    Ends (fun _ => I) E (each xs f) s := by
  induction xs generalizing s with
  | nil => exact h
  | cons x xs ih =>
    show Ends _ E (f x >>= fun _ => Effect.each xs f) s
    rw [ends_bind]
    refine (hf x List.mem_cons_self s h).mono (fun _ t ht => ?_) (fun _ _ h => h)
    exact ih ht fun y hy => hf y (List.mem_cons_of_mem _ hy)

/-- a loop in which each round sees to its own element, and leaves the others alone -/
theorem Ends.each_all {f : β → EStateM ε σ PUnit} {P G : β → σ → Prop} {xs : List β} (hnodup : xs.Nodup)
    (hP : ∀ x ∈ xs, P x s)
    (hf : ∀ x t, P x t → Ends (fun _ u => G x u ∧ (∀ y, y ≠ x → P y t → P y u) ∧ ∀ y, y ≠ x → G y t → G y u) E (f x) t) :
    Ends (fun _ u => (∀ x ∈ xs, G x u) ∧ ∀ y, y ∉ xs → G y s → G y u) E (Effect.each xs f) s := by
  induction xs generalizing s with
  | nil => exact ⟨fun _ hx => absurd hx List.not_mem_nil, fun _ _ h => h⟩
  | cons x xs ih =>
    obtain ⟨hx, hnodup'⟩ := List.nodup_cons.mp hnodup
    show Ends _ E (f x >>= fun _ => Effect.each xs f) s
    rw [ends_bind]
    refine (hf x s (hP x List.mem_cons_self)).mono (fun _ t ht => ?_) fun _ _ h => h
    obtain ⟨hG, hP', hG'⟩ := ht
    have hne : ∀ y ∈ xs, y ≠ x := fun y hy h => hx (h ▸ hy)
    refine (ih hnodup' fun y hy => hP' y (hne y hy) (hP y (List.mem_cons_of_mem _ hy))).mono (fun _ u hu => ⟨fun y hy => ?_, fun y hy h => ?_⟩)
      fun _ _ h => h
    · rcases List.mem_cons.mp hy with rfl | hy
      · exact hu.2 _ hx hG
      · exact hu.1 y hy
    · have hyx : y ≠ x := fun he => hy (he ▸ List.mem_cons_self)
      exact hu.2 y (fun hmem => hy (List.mem_cons_of_mem _ hmem)) (hG' y hyx h)

/-! ## `finally` and parts of the state -/

/-- `fin` runs however `m` ends; what it raises replaces what `m` raised -/
def andFinally (m : EStateM ε σ α) (fin : EStateM ε σ PUnit) : EStateM ε σ α := fun s =>
  match m s with
  | .ok a t => (fin >>= fun _ => pure a) t
  | .error e t => (fin >>= fun _ => throw e) t

theorem ends_andFinally {m : EStateM ε σ α} {fin : EStateM ε σ PUnit} :
    Ends Q E (andFinally m fin) s ↔
      Ends (fun a t => Ends (fun _ => Q a) E fin t) (fun e t => Ends (fun _ => E e) E fin t) m s := by
  show (match (match m s with
      | .ok a t => (fin >>= fun _ => pure a) t
      | .error e t => (fin >>= fun _ => throw e) t) with
    | .ok a t => Q a t
    | .error e t => E e t) ↔ _
  unfold Ends
  cases m s with
  | ok a t => exact @ends_bind _ _ _ _ Q E t fin fun _ => pure a
  | error e t => exact @ends_bind _ _ _ _ Q E t fin fun _ => throw e

/-- the state that `fin` leaves is the last one -/
theorem leaves_andFinally {m : EStateM ε σ α} {fin : EStateM ε σ PUnit} :
    leaves (andFinally m fin) s = leaves fin (leaves m s) := by
  have hlast : ∀ (k : EStateM ε σ α), (∀ u, leaves k u = u) → ∀ t, leaves (fin >>= fun _ => k) t = leaves fin t := by
    intro k hk t
    cases hf : fin t with
    | ok a u => rw [leaves_bind_ok hf, hk, leaves, hf]
    | error e u => rw [leaves_bind_error hf, leaves, hf]
  cases hm : m s with
  | ok a t =>
    have hfin : leaves (andFinally m fin) s = leaves (fin >>= fun _ => pure a) t := by
      unfold leaves andFinally
      rw [hm]
    rw [hfin, hlast _ (fun _ => rfl)]
    exact congrArg _ (by rw [leaves, hm])
  | error e t =>
    have hfin : leaves (andFinally m fin) s = leaves (fin >>= fun _ => (throw e : EStateM ε σ α)) t := by
      unfold leaves andFinally
      rw [hm]
    rw [hfin, hlast _ (fun _ => rfl)]
    exact congrArg _ (by rw [leaves, hm])

variable {τ : Type u}

/-- `m` on the part of the state that `view` reads and `put` writes -/
def zoom (view : σ → τ) (put : τ → σ → σ) (m : EStateM ε τ α) : EStateM ε σ α := fun s =>
  match m (view s) with
  | .ok a t => .ok a (put t s)
  | .error e t => .error e (put t s)

@[simp] theorem ends_zoom {view : σ → τ} {put : τ → σ → σ} {m : EStateM ε τ α} :
    Ends Q E (zoom view put m) s ↔
      Ends (fun a t => Q a (put t s)) (fun e t => E e (put t s)) m (view s) := by
  unfold Ends zoom
  cases m (view s) <;> exact Iff.rfl

/-! ## what a program keeps -/

/-- from a state with `I`, `m` ends in one -/
def Keeps (I : σ → Prop) (m : EStateM ε σ α) : Prop := ∀ s, I s → Holds I m s

theorem keeps_pure (a : α) : Keeps I (pure a : EStateM ε σ α) := fun _ h => h

theorem keeps_throw (e : ε) : Keeps I (throw e : EStateM ε σ α) := fun _ h => h

theorem keeps_modify {f : σ → σ} (hf : ∀ s, I s → I (f s)) : Keeps I (modify f : EStateM ε σ PUnit) := hf

theorem Keeps.bind {m : EStateM ε σ β} {f : β → EStateM ε σ α} (hm : Keeps I m) (hf : ∀ b, Keeps I (f b)) :
    Keeps I (m >>= f) := by
  intro s h
  unfold Holds
  rw [ends_bind]
  exact (hm s h).mono (fun b t ht => hf b t ht) fun _ _ ht => ht

/-- a program that reads the state first -/
theorem keeps_get {f : σ → EStateM ε σ α} (hf : ∀ s, I s → Holds I (f s) s) : Keeps I (get >>= f) := by
  intro s h
  unfold Holds
  rw [ends_bind, ends_get]
  exact hf s h

theorem Keeps.tryCatch {m : EStateM ε σ α} {f : ε → EStateM ε σ α} (hm : Keeps I m) (hf : ∀ e, Keeps I (f e)) :
    Keeps I (tryCatch m f) := by
  intro s h
  unfold Holds
  rw [ends_tryCatch]
  exact (hm s h).mono (fun _ _ ht => ht) fun e t ht => hf e t ht

theorem Keeps.ite {c : Prop} [Decidable c] {m n : EStateM ε σ α} (hm : Keeps I m) (hn : Keeps I n) :
    Keeps I (if c then m else n) := by
  split_ifs
  · exact hm
  · exact hn

theorem Keeps.andFinally {m : EStateM ε σ α} {fin : EStateM ε σ PUnit} (hm : Keeps I m) (hfin : Keeps I fin) :
    Keeps I (andFinally m fin) := by
  intro s h
  unfold Holds
  rw [ends_andFinally]
  exact (hm s h).mono (fun _ t ht => hfin t ht) fun _ t ht => hfin t ht

theorem Keeps.each {f : β → EStateM ε σ PUnit} {xs : List β} (hf : ∀ x, Keeps I (f x)) : Keeps I (each xs f) :=
  fun _ h => Ends.each h fun x _ t ht => hf x t ht

theorem Keeps.zoom {view : σ → τ} {put : τ → σ → σ} {m : EStateM ε τ α} {J : τ → Prop} (hm : Keeps J m)
    (hview : ∀ s, I s → J (view s)) (hput : ∀ s t, I s → J t → I (put t s)) : Keeps I (zoom view put m) := by
  intro s h
  unfold Holds
  rw [ends_zoom]
  exact (hm _ (hview s h)).mono (fun _ t ht => hput s t h ht) fun _ t ht => hput s t h ht

end Effect
