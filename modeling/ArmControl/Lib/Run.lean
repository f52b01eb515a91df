import Mathlib.Data.List.Infix
import Mathlib.Order.Basic

/-!
# Runs of a step function

A system is a total step function `step : σ → ε → σ`: the event carries everything the outside
world decides (the clock, the bytes received, which thread moves), and an event that is not
enabled leaves the state as it is.  A run is a list of events.

* `run step s es`          the state after the events `es`;
* `Along step C s es`      every step of the run meets `C` (a condition on the state BEFORE the
                           step and on the event);
* `Once step P s es`       `P` held after some prefix of the run (the history modality);
* `invariant`              the invariant rule, `invariant_hist` its form for invariants that
                           speak about the history as well.
-/

set_option linter.unusedSectionVars false

namespace Run

section
variable {σ ε : Type*} (step : σ → ε → σ)

/-- the state after the events `es` -/
def run (s : σ) (es : List ε) : σ := es.foldl step s

@[simp] theorem run_nil (s : σ) : run step s [] = s := rfl

@[simp] theorem run_cons (s : σ) (e : ε) (es : List ε) :
    run step s (e :: es) = run step (step s e) es := rfl

theorem run_append (s : σ) (as bs : List ε) :
    run step s (as ++ bs) = run step (run step s as) bs := List.foldl_append

@[simp] theorem run_snoc (s : σ) (es : List ε) (e : ε) :
    run step s (es ++ [e]) = step (run step s es) e := by
  rw [run_append, run_cons, run_nil]

/-- every step of the run meets `C` -/
def Along (C : σ → ε → Prop) (s : σ) (es : List ε) : Prop :=
  ∀ pre e, pre ++ [e] <+: es → C (run step s pre) e

/-- `P` held after some prefix of the run -/
def Once (P : σ → Prop) (s : σ) (es : List ε) : Prop :=
  ∃ pre, pre <+: es ∧ P (run step s pre)

end

section
variable {σ ε : Type*} {step : σ → ε → σ} {s : σ} {C : σ → ε → Prop}

theorem along_nil : Along step C s [] := by
  intro pre e h
  have := List.prefix_nil.mp h
  simp at this

theorem Along.sub {as bs : List ε} (h : Along step C s bs) (hp : as <+: bs) :
    Along step C s as := fun pre e hpre => h pre e (hpre.trans hp)

theorem Along.last {es : List ε} {e : ε} (h : Along step C s (es ++ [e])) :
    C (run step s es) e := h es e (List.prefix_refl _)

theorem Along.init {es : List ε} {e : ε} (h : Along step C s (es ++ [e])) :
    Along step C s es := h.sub (List.prefix_append _ _)

theorem along_cons {e : ε} {es : List ε} :
    Along step C s (e :: es) ↔ C s e ∧ Along step C (step s e) es := by
  constructor
  · intro h
    refine ⟨h [] e (by simp), fun pre e' hpre => ?_⟩
    have := h (e :: pre) e' (by simpa using hpre)
    exact this
  · rintro ⟨h0, h⟩ pre e' hpre
    cases pre with
    | nil =>
      have he : e' = e := by simpa using hpre
      subst he
      exact h0
    | cons a pre =>
      rw [List.cons_append, List.cons_prefix_cons] at hpre
      obtain ⟨rfl, hpre⟩ := hpre
      exact h pre e' hpre

/-- the rest of a run -/
theorem Along.rest {as bs : List ε} (h : Along step C s (as ++ bs)) :
    Along step C (run step s as) bs := by
  intro pre e hpre
  rw [← run_append]
  apply h
  rw [List.append_assoc]
  exact (List.prefix_append_right_inj as).mpr hpre

theorem Along.append {as bs : List ε} (h : Along step C s as)
    (h' : Along step C (run step s as) bs) : Along step C s (as ++ bs) := by
  induction as generalizing s with
  | nil => exact h'
  | cons a as ih =>
    obtain ⟨h0, h⟩ := along_cons.mp h
    exact along_cons.mpr ⟨h0, ih h h'⟩

instance decidableAlong [∀ s e, Decidable (C s e)] : ∀ (s : σ) (es : List ε),
    Decidable (Along step C s es)
  | _, [] => isTrue along_nil
  | s, e :: es =>
    haveI := decidableAlong (step s e) es
    decidable_of_iff _ along_cons.symm

theorem Along.mono {C' : σ → ε → Prop} {es : List ε} (h : Along step C s es)
    (hC : ∀ s e, C s e → C' s e) : Along step C' s es :=
  fun pre e hpre => hC _ _ (h pre e hpre)

/-- a condition that every step meets is met along every run -/
theorem along_of_forall (h : ∀ s e, C s e) (es : List ε) : Along step C s es :=
  fun _ _ _ => h _ _

/-- **Invariant rule.** -/
theorem invariant {I : σ → Prop} (h0 : I s) (hstep : ∀ s e, C s e → I s → I (step s e))
    {es : List ε} (h : Along step C s es) : I (run step s es) := by
  induction es using List.reverseRecOn with
  | nil => exact h0
  | append_singleton es e ih =>
    rw [run_snoc]
    exact hstep _ _ h.last (ih h.init)

/-- **Invariant rule with history**: the invariant may speak about the run so far. -/
theorem invariant_hist {I : List ε → σ → Prop} (h0 : I [] s)
    (hstep : ∀ es e, Along step C s es → C (run step s es) e → I es (run step s es) →
      I (es ++ [e]) (step (run step s es) e))
    {es : List ε} (h : Along step C s es) : I es (run step s es) := by
  induction es using List.reverseRecOn with
  | nil => exact h0
  | append_singleton es e ih =>
    rw [run_snoc]
    exact hstep es e h.init h.last (ih h.init)

theorem prefix_snoc_iff {α : Type*} {pre es : List α} {e : α} :
    pre <+: es ++ [e] ↔ pre <+: es ∨ pre = es ++ [e] := by
  rw [List.prefix_concat_iff, or_comm]

theorem Once.now {P : σ → Prop} {es : List ε} (h : P (run step s es)) : Once step P s es :=
  ⟨es, List.prefix_refl _, h⟩

theorem Once.extend {P : σ → Prop} {as bs : List ε} (h : Once step P s as) (hp : as <+: bs) :
    Once step P s bs := by
  obtain ⟨pre, hpre, hP⟩ := h
  exact ⟨pre, hpre.trans hp, hP⟩

theorem Once.snoc {P : σ → Prop} {es : List ε} (e : ε) (h : Once step P s es) :
    Once step P s (es ++ [e]) := h.extend (List.prefix_append _ _)

end

end Run
