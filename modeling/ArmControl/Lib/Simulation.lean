import ArmControl.Lib.Run

/-!
# One system plays the runs of another

A step of the first system is played by a block of steps of the second one, and what a step answers is a list.

* `outputs`      what a run answers, in order;
* `each`         what each step of a run answers;
* `answers`      what each block of a run answers;
* `plays`        the simulation rule: a relation that every block keeps gives a block for every step of a run.
-/

namespace Run

section
variable {σ ε ω : Type*} (step : σ → ε → σ) (out : σ → ε → List ω)

/-- what a run answers -/
def outputs : σ → List ε → List ω
  | _, [] => []
  | s, e :: es => out s e ++ outputs (step s e) es

/-- what each step of a run answers -/
def each : σ → List ε → List (List ω)
  | _, [] => []
  | s, e :: es => out s e :: each (step s e) es

/-- what each block of a run answers -/
def answers : σ → List (List ε) → List (List ω)
  | _, [] => []
  | s, b :: bs => outputs step out s b :: answers (run step s b) bs

end

section
variable {σ τ ε δ ω : Type*} {step : σ → ε → σ} {out : σ → ε → List ω} {step' : τ → δ → τ} {out' : τ → δ → List ω}
variable {R : σ → τ → Prop} {Plays : ε → List δ → Prop}

/-- **Simulation rule.** -/
theorem plays (hstep : ∀ s t e, R s t → ∃ b, Plays e b ∧ outputs step' out' t b = out s e ∧ R (step s e) (run step' t b))
    {s : σ} {t : τ} (h : R s t) (es : List ε) :
    ∃ bs, List.Forall₂ Plays es bs ∧ answers step' out' t bs = each step out s es := by
  induction es generalizing s t with
  | nil => exact ⟨[], .nil, rfl⟩
  | cons e es ih =>
    obtain ⟨b, hb, hout, hnext⟩ := hstep s t e h
    obtain ⟨bs, hbs, hanswers⟩ := ih hnext
    refine ⟨b :: bs, .cons hb hbs, ?_⟩
    unfold answers each
    rw [hout, hanswers]

end

end Run
