import ArmControl.Lib.Run
import ArmControl.Rt.ReferenceSelection

/-!
# A retired reference is never selected again

The RT loop keeps no set of retired ids: one high-water mark stands for all of them.  A run is any
list of operations on the selection (`SelOp`), epoch changes included.

* `WellMarked`   the invariant: the selected id is the mark while a reference is active, and never
                 above it;
* `Spent id`     the id is used up: at or below the mark, and below the active id if there is one.
                 Every operation of the same epoch keeps it (`Spent.kept`);
* `retired_never_selected`   the run theorem.
-/

namespace ArmControl.Rt
namespace ReferenceSelection
open Run

inductive SelOp where
  | reset (session epoch : ℕ)
  | commit (c : ReferenceCommit) (now cancelGeneration : ℕ)
  | retire (pendingId : ℕ) (expired : Bool)
  | evaluate (now : ℕ)
  | markEnvelope

def opStep (s : ReferenceSelection) : SelOp → ReferenceSelection
  | .reset session epoch => s.reset session epoch
  | .commit c now g => (s.commit c now g).2
  | .retire id expired => s.retire id expired
  | .evaluate now => (s.evaluate now).1
  | .markEnvelope => s.markEnvelope

/-! ## what one operation does to the mark, the id and the status -/

theorem reset_of_same {s : ReferenceSelection} {session epoch : ℕ}
    (h : (s.reset session epoch).session = s.session ∧ (s.reset session epoch).epoch = s.epoch) :
    s.reset session epoch = s := by
  unfold reset at h ⊢
  split_ifs at h ⊢ with hc
  · rfl
  · exact absurd ⟨h.1.symm, h.2.symm⟩ hc

theorem active_iff {s : ReferenceSelection} :
    s.active = true ↔ s.info.status = .running ∨ s.info.status = .ended := by
  simp [active]

theorem retire_inactive (s : ReferenceSelection) (id : ℕ) (expired : Bool) :
    (s.retire id expired).active = false := by
  by_cases h : s.active = true
  · simp only [retire, h, if_true]
    rfl
  · have h' : s.active = false := by simpa using h
    have e : (s.retire id expired).info = s.info := by simp [retire, h']
    rw [active, e]
    exact h'

theorem retire_id (s : ReferenceSelection) (id : ℕ) (expired : Bool) :
    (s.retire id expired).info.referenceId = s.info.referenceId := by
  simp only [retire]
  split <;> rfl

theorem evaluate_id (s : ReferenceSelection) (now : ℕ) :
    (s.evaluate now).1.info.referenceId = s.info.referenceId ∧
      (s.evaluate now).1.highestId = s.highestId := by
  unfold evaluate
  dsimp only
  split_ifs <;> exact ⟨rfl, rfl⟩

theorem evaluate_active {s : ReferenceSelection} {now : ℕ}
    (h : (s.evaluate now).1.active = true) : s.active = true := by
  by_contra hc
  have hc' : s.active = false := by simpa using hc
  rw [evaluate, if_pos hc', hc'] at h
  exact absurd h (by simp)

/-! ## the mark -/

def WellMarked (s : ReferenceSelection) : Prop :=
  (s.active = true → s.info.referenceId = s.highestId) ∧ s.info.referenceId ≤ s.highestId

/-- the id is used up in this epoch -/
def Spent (id : ℕ) (s : ReferenceSelection) : Prop :=
  id ≤ s.highestId ∧ (s.active = true → id < s.info.referenceId)

theorem wellMarked_step (s : ReferenceSelection) (op : SelOp) (h : WellMarked s) :
    WellMarked (opStep s op) := by
  obtain ⟨h1, h2⟩ := h
  cases op with
  | reset session epoch =>
    simp only [opStep, reset]
    split_ifs with hc
    · exact ⟨h1, h2⟩
    · exact ⟨fun ha => absurd ha (by simp [active]), le_rfl⟩
  | commit c now g =>
    by_cases hr : s.commitResult c now g = .ok
    · simp only [opStep, commit, if_pos hr]
      exact ⟨fun _ => rfl, le_rfl⟩
    · rw [opStep, commit_not_ok hr]
      exact ⟨h1, h2⟩
  | retire id expired =>
    refine ⟨fun ha => absurd ha (by simp [opStep, retire_inactive]), ?_⟩
    simp only [opStep, retire_id]
    exact le_trans h2 (le_max_left _ _)
  | evaluate now =>
    obtain ⟨e1, e2⟩ := evaluate_id s now
    simp only [WellMarked, opStep, e1, e2]
    exact ⟨fun ha => h1 (evaluate_active ha), h2⟩
  | markEnvelope => exact ⟨h1, h2⟩

theorem wellMarked_run (ops : List SelOp) : WellMarked (run opStep {} ops) :=
  invariant (C := fun _ _ => True) ⟨fun ha => absurd ha (by simp [active]), le_rfl⟩
    (fun s op _ h => wellMarked_step s op h) (along_of_forall (fun _ _ => trivial) ops)

/-- a successful commit names an id at or above the mark -/
theorem highestId_le_of_ok {s : ReferenceSelection} {c : ReferenceCommit} {now g : ℕ}
    (hs : WellMarked s) (h : s.commitResult c now g = .ok) :
    s.highestId ≤ c.request.referenceId := by
  rcases (commitResult_ok h).2.2.2 with ⟨-, hlt, -⟩ | ⟨-, ha, hid, -⟩
  · exact le_of_lt hlt
  · rw [hid, hs.1 ha]

/-- a successful commit never names a spent id -/
theorem Spent.lt_of_ok {id : ℕ} {s : ReferenceSelection} {c : ReferenceCommit} {now g : ℕ}
    (hs : Spent id s) (h : s.commitResult c now g = .ok) : id < c.request.referenceId := by
  rcases (commitResult_ok h).2.2.2 with ⟨-, hlt, -⟩ | ⟨-, ha, hid, -⟩
  · exact lt_of_le_of_lt hs.1 hlt
  · rw [hid]
    exact hs.2 ha

section
variable {s : ReferenceSelection} {op : SelOp}
  (hE : (opStep s op).session = s.session ∧ (opStep s op).epoch = s.epoch)
include hE

theorem highestId_step (hs : WellMarked s) : s.highestId ≤ (opStep s op).highestId := by
  cases op with
  | reset session epoch => exact le_of_eq (congrArg highestId (reset_of_same hE)).symm
  | commit c now g =>
    by_cases hr : s.commitResult c now g = .ok
    · simp only [opStep, commit, if_pos hr]
      exact highestId_le_of_ok hs hr
    · rw [opStep, commit_not_ok hr]
  | retire id expired => exact le_max_left _ _
  | evaluate now => exact le_of_eq (evaluate_id s now).2.symm
  | markEnvelope => exact le_rfl

theorem Spent.kept {id : ℕ} (hs : Spent id s) : Spent id (opStep s op) := by
  cases op with
  | reset session epoch =>
    have e : opStep s (.reset session epoch) = s := reset_of_same hE
    rwa [e]
  | commit c now g =>
    by_cases hr : s.commitResult c now g = .ok
    · have hlt := hs.lt_of_ok hr
      simp only [opStep, commit, if_pos hr]
      exact ⟨le_of_lt hlt, fun _ => hlt⟩
    · rw [opStep, commit_not_ok hr]
      exact hs
  | retire pid expired =>
    exact ⟨le_trans hs.1 (le_max_left _ _), fun ha => absurd ha (by
      simp [opStep, retire_inactive])⟩
  | evaluate now =>
    obtain ⟨e1, e2⟩ := evaluate_id s now
    simp only [Spent, opStep, e1, e2]
    exact ⟨hs.1, fun ha => hs.2 (evaluate_active ha)⟩
  | markEnvelope => exact hs

end

/-! ## runs within one epoch -/

/-- the operations `b` after `a` stay in the (session, epoch) that `a` ended in -/
def OneEpoch (a b : List SelOp) : Prop :=
  ∀ pre, pre <+: b → (run opStep {} (a ++ pre)).session = (run opStep {} a).session ∧
    (run opStep {} (a ++ pre)).epoch = (run opStep {} a).epoch

theorem OneEpoch.init {a b : List SelOp} {op : SelOp} (h : OneEpoch a (b ++ [op])) :
    OneEpoch a b := fun pre hp => h pre (hp.trans (List.prefix_append _ _))

theorem OneEpoch.last {a b : List SelOp} {op : SelOp} (h : OneEpoch a (b ++ [op])) :
    (opStep (run opStep {} (a ++ b)) op).session = (run opStep {} (a ++ b)).session ∧
      (opStep (run opStep {} (a ++ b)) op).epoch = (run opStep {} (a ++ b)).epoch := by
  have h1 := h b (List.prefix_append _ _)
  have h2 := h (b ++ [op]) (List.prefix_refl _)
  rw [← List.append_assoc, run_snoc] at h2
  exact ⟨h2.1.trans h1.1.symm, h2.2.trans h1.2.symm⟩

theorem highestId_run {a b : List SelOp} (hE : OneEpoch a b) :
    (run opStep {} a).highestId ≤ (run opStep {} (a ++ b)).highestId := by
  induction b using List.reverseRecOn with
  | nil => rw [List.append_nil]
  | append_singleton b op ih =>
    rw [← List.append_assoc, run_snoc]
    exact le_trans (ih hE.init) (highestId_step hE.last (wellMarked_run _))

theorem Spent.along {id : ℕ} {a b : List SelOp} (hE : OneEpoch a b)
    (hs : Spent id (run opStep {} a)) : Spent id (run opStep {} (a ++ b)) := by
  induction b using List.reverseRecOn with
  | nil => rwa [List.append_nil]
  | append_singleton b op ih =>
    rw [← List.append_assoc, run_snoc]
    exact Spent.kept hE.last (ih hE.init)

/-- the id has been used up at this point of the run: its reference was cancelled or underflowed,
or the last operation was a retirement that named it as pending -/
def RetiredAt (id : ℕ) (a : List SelOp) : Prop :=
  ((run opStep {} a).info.referenceId = id ∧
    ((run opStep {} a).info.status = .cancelled ∨ (run opStep {} a).info.status = .underflow)) ∨
  ∃ a' expired, a = a' ++ [.retire id expired]

theorem RetiredAt.spent {id : ℕ} {a : List SelOp} (h : RetiredAt id a) :
    Spent id (run opStep {} a) := by
  rcases h with ⟨hid, hst⟩ | ⟨a', expired, rfl⟩
  · refine ⟨?_, fun ha => ?_⟩
    · rw [← hid]
      exact (wellMarked_run a).2
    · rw [active_iff] at ha
      rcases hst with e | e <;> rw [e] at ha <;> simp at ha
  · rw [run_snoc]
    exact ⟨le_max_right _ _, fun ha => absurd ha (by simp [opStep, retire_inactive])⟩

/-- **A retired reference is never selected again.**  For every run `a` and every continuation `b`
within the same epoch: the mark never decreases; an active reference has the marked id; an id
retired after `a` is below every id a commit after `b` selects; a RUNNING reference is only ever
replaced by its own id; and a commit with a selection budget succeeds only inside it. -/
theorem retired_never_selected (a b : List SelOp) (hE : OneEpoch a b) :
    (run opStep {} a).highestId ≤ (run opStep {} (a ++ b)).highestId ∧
    ((run opStep {} a).active = true →
      (run opStep {} a).info.referenceId = (run opStep {} a).highestId) ∧
    ∀ c now g, ((run opStep {} (a ++ b)).commit c now g).1 = .ok →
      (∀ id, RetiredAt id a → id < c.request.referenceId) ∧
      ((run opStep {} (a ++ b)).info.status = .running →
        c.request.referenceId = (run opStep {} (a ++ b)).info.referenceId) ∧
      (c.request.selectionBudgetNs ≠ 0 → c.admitted.sealedAtNs ≤ now ∧
        now - c.admitted.sealedAtNs < c.request.selectionBudgetNs) := by
  refine ⟨highestId_run hE, (wellMarked_run a).1, fun c now g hok => ⟨fun id hid => ?_, ?_, ?_⟩⟩
  · exact (Spent.along hE hid.spent).lt_of_ok hok
  · intro hst
    rcases (commitResult_ok hok).2.2.2 with ⟨-, -, hend⟩ | ⟨-, -, hid, -⟩
    · have := hend (active_iff.mpr (Or.inl hst))
      rw [hst] at this
      cases this
    · exact hid
  · intro hb
    have hspent := (commitResult_ok hok).2.2.1
    simp only [budgetSpent, Bool.and_eq_false_iff, Bool.or_eq_false_iff, bne_eq_false_iff_eq,
      decide_eq_false_iff_not, not_lt, not_le] at hspent
    rcases hspent with h | ⟨⟨-, h1⟩, h2⟩
    · exact absurd h hb
    · exact ⟨h1, h2⟩

/-- the first revision of reference `id`, for session 7 and ARM epoch 1 -/
def firstRevision (id : ℕ) : ReferenceCommit where
  admitted := { identity := { sessionId := 7, armEpoch := 1, referenceId := id, revision := 1 } }
  request := { sessionId := 7, armEpoch := 1, referenceId := id, revision := 1 }

/-- reference 5 is selected and cancelled; reference 6 is then selected in the same epoch -/
theorem retired_never_selected_five :
    let a := [SelOp.reset 7 1, .commit (firstRevision 5) 10 0, .retire 0 false]
    ((run opStep {} (a ++ [.evaluate 20])).commit (firstRevision 6) 30 0).1 = .ok ∧
      5 < (firstRevision 6).request.referenceId := by
  intro a
  have hok : ((run opStep {} (a ++ [.evaluate 20])).commit (firstRevision 6) 30 0).1 = .ok := by
    decide +kernel
  have hE : OneEpoch a [.evaluate 20] := by
    intro pre hp
    rw [show [SelOp.evaluate 20] = [] ++ [.evaluate 20] from rfl, prefix_snoc_iff,
      List.prefix_nil] at hp
    rcases hp with rfl | rfl <;> decide +kernel
  exact ⟨hok, ((retired_never_selected a [.evaluate 20] hE).2.2 _ 30 0 hok).1 5
    (Or.inl (by decide +kernel))⟩

end ReferenceSelection

end ArmControl.Rt
