import Mathlib.Logic.Relation
import ArmControl.Lib.Effect

/-!
# Programs that change the state in steps

* `Stepwise R ε α`   a program, and the proof that all it does to the state is steps of `R`, however it ends;
* `change`, `attempt`   one step, one step or a raise; the other constructs add no step;
* `Stepwise.keeps`   what every step keeps, the program keeps.

A development writes its programs in this monad once, and has the frame of each for every invariant of its steps.
-/

namespace Effect
open Relation (ReflTransGen)

variable {σ ε α β : Type}

/-- a program that only makes steps of `R` -/
structure Stepwise (R : σ → σ → Prop) (ε α : Type) where
  run : EStateM ε σ α
  steps : ∀ s, Holds (ReflTransGen R s) run s

namespace Stepwise

variable {R : σ → σ → Prop}

theorem steps_bind (m : Stepwise R ε α) (f : α → Stepwise R ε β) (s : σ) :
    Holds (ReflTransGen R s) (m.run >>= fun a => (f a).run) s := by
  unfold Holds
  rw [ends_bind]
  refine (m.steps s).mono (fun a t ht => ?_) fun _ _ ht => ht
  exact ((f a).steps t).mono (fun _ _ hu => ht.trans hu) fun _ _ hu => ht.trans hu

theorem steps_tryCatch (m : Stepwise R ε α) (f : ε → Stepwise R ε α) (s : σ) :
    Holds (ReflTransGen R s) (tryCatch m.run fun e => (f e).run) s := by
  unfold Holds
  rw [ends_tryCatch]
  refine (m.steps s).mono (fun _ _ ht => ht) fun e t ht => ?_
  exact ((f e).steps t).mono (fun _ _ hu => ht.trans hu) fun _ _ hu => ht.trans hu

instance : Monad (Stepwise R ε) where
  pure a := ⟨pure a, fun _ => .refl⟩
  bind m f := ⟨m.run >>= fun a => (f a).run, steps_bind m f⟩

instance : MonadExcept ε (Stepwise R ε) where
  throw e := ⟨throw e, fun _ => .refl⟩
  tryCatch m f := ⟨tryCatch m.run fun e => (f e).run, steps_tryCatch m f⟩

instance : MonadReaderOf σ (Stepwise R ε) where
  read := ⟨get, fun _ => .refl⟩

theorem run_bind (m : Stepwise R ε α) (f : α → Stepwise R ε β) : (m >>= f).run = m.run >>= fun a => (f a).run := rfl

/-- one step -/
def change (f : σ → σ) (hf : ∀ s, R s (f s)) : Stepwise R ε PUnit where
  run := modify f
  steps s := .single (hf s)

/-- the program of one step, or a raise -/
def attemptRun (f : ∀ s, Except ε { t // R s t }) : EStateM ε σ PUnit := fun s =>
  match f s with
  | .ok t => .ok ⟨⟩ t.1
  | .error e => .error e s

theorem steps_attemptRun (f : ∀ s, Except ε { t // R s t }) (s : σ) : Holds (ReflTransGen R s) (attemptRun f) s := by
  unfold Holds Ends attemptRun
  cases f s with
  | ok t => exact .single t.2
  | error e => exact .refl

/-- one step, or a raise -/
def attempt (f : ∀ s, Except ε { t // R s t }) : Stepwise R ε PUnit := ⟨attemptRun f, steps_attemptRun f⟩

/-- `f` for each element, in order -/
def each (f : β → Stepwise R ε PUnit) : List β → Stepwise R ε PUnit
  | [] => pure ⟨⟩
  | x :: xs => do
    f x
    each f xs

/-- what every step keeps, the program keeps -/
theorem keeps {I : σ → Prop} (hI : ∀ s t, R s t → I s → I t) (m : Stepwise R ε α) : Keeps I m.run := by
  have hrun : ∀ s t, ReflTransGen R s t → I s → I t := by
    intro s t h hs
    induction h with
    | refl => exact hs
    | tail _ hstep ih => exact hI _ _ hstep ih
  exact fun s hs => (m.steps s).mono (fun _ t ht => hrun s t ht hs) fun _ t ht => hrun s t ht hs

/-- a program that keeps what every step keeps makes steps only -/
theorem steps_of_keeps {m : EStateM ε σ α} (h : ∀ I : σ → Prop, (∀ s t, R s t → I s → I t) → Keeps I m) (s : σ) :
    Holds (ReflTransGen R s) m s :=
  h (ReflTransGen R s) (fun _ _ hstep hs => hs.tail hstep) s .refl

end Stepwise
end Effect
