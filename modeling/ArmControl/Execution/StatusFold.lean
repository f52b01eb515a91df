import ArmControl.Execution.Contract

/-!
# The fold of an execution's receipts

Receipts are delivered at least once.

* `Redelivered l l'`   `l'` is `l` with further copies, each after its original;
* `Follows p q`        `q` may be reported after `p`;
* `fold_redelivered`   the fold forgives every redelivery, and moves forward only.
-/

namespace ArmControl.Execution
namespace ExecutionStatus

/-- further copies of receipts, each inserted somewhere behind its original -/
inductive Redelivered (l : List Receipt) : List Receipt → Prop
  | refl : Redelivered l l
  | again {a b : List Receipt} {r : Receipt} (h : Redelivered l (a ++ b)) (hr : r ∈ a) :
      Redelivered l (a ++ r :: b)

/-- `q` lies further along the chain than `p`, or is an outcome that `p` allows -/
def Follows (p q : Phase) : Prop :=
  p.terminal = false ∧
    ((q.terminal = false ∧ p.chain < q.chain) ∨ ∃ allowed, q.ends = some allowed ∧ p ∈ allowed)

variable {s t : ExecutionStatus} {r : Receipt} {l l' : List Receipt}

/-! ## one receipt -/

/-- what one receipt does to a status -/
theorem apply_ok (h : s.apply r = .ok t) : s.owns r = true ∧
    ((s.has r.phase = true ∧ t = s) ∨ (s.has r.phase = false ∧ Follows s.phase r.phase ∧
      t = { s with phase := r.phase, reason := r.reason, reached := s.reached ++ [(r.phase, r.at_)] })) := by
  unfold apply at h
  by_cases ho : s.owns r = false
  · rw [if_pos ho] at h
    cases h
  rw [if_neg ho] at h
  refine ⟨by simpa using ho, ?_⟩
  by_cases hh : s.has r.phase = true
  · rw [if_pos hh] at h
    cases h
    exact .inl ⟨hh, rfl⟩
  rw [if_neg hh] at h
  by_cases ht : s.terminal = true
  · rw [if_pos ht] at h
    cases h
  rw [if_neg ht] at h
  have hns : s.phase.terminal = false := by simpa using ht
  refine .inr ⟨by simpa using hh, ?_⟩
  dsimp only at h
  cases he : r.phase.ends with
  | some allowed =>
    rw [he] at h
    dsimp only at h
    by_cases hm : s.phase ∈ allowed
    · rw [if_neg (not_not.mpr hm)] at h
      cases h
      exact ⟨⟨hns, .inr ⟨allowed, he, hm⟩⟩, rfl⟩
    · rw [if_pos hm] at h
      cases h
  | none =>
    rw [he] at h
    dsimp only at h
    by_cases hc : r.phase.chain ≤ s.phase.chain
    · rw [if_pos hc] at h
      cases h
    · rw [if_neg hc] at h
      cases h
      refine ⟨⟨hns, .inl ⟨?_, not_le.mp hc⟩⟩, rfl⟩
      show r.phase.ends.isSome = false
      rw [he]
      rfl

/-- a redelivery changes nothing -/
theorem apply_again (ho : s.owns r = true) (hh : s.has r.phase = true) : s.apply r = .ok s := by
  unfold apply
  rw [if_neg (by rw [ho]; exact Bool.noConfusion), if_pos hh]

/-! ## folds -/

/-- what is known of a receipt once it was folded -/
def Settled (s : ExecutionStatus) (r : Receipt) : Prop := s.owns r = true ∧ s.has r.phase = true

theorem Settled.apply {q : Receipt} (hq : Settled s q) (h : s.apply r = .ok t) : Settled t q := by
  obtain ⟨-, ⟨-, rfl⟩ | ⟨-, -, rfl⟩⟩ := apply_ok h
  · exact hq
  · refine ⟨hq.1, ?_⟩
    show List.any (_ ++ _) _ = true
    rw [List.any_append]
    exact Bool.or_eq_true_iff.mpr (.inl hq.2)

theorem settled_of_apply (h : s.apply r = .ok t) : Settled t r := by
  obtain ⟨ho, ⟨hh, rfl⟩ | ⟨-, -, rfl⟩⟩ := apply_ok h
  · exact ⟨ho, hh⟩
  · refine ⟨ho, ?_⟩
    show List.any (_ ++ _) _ = true
    rw [List.any_append]
    exact Bool.or_eq_true_iff.mpr (.inr (by simp))

theorem start_ok (h : start r = .ok s) :
    (r.phase = .requested ∨ r.phase = .admitted ∨ r.phase = .rejected) ∧ s.phase = r.phase ∧
      s.reached = [(r.phase, r.at_)] ∧ Settled s r := by
  unfold start at h
  split_ifs at h with hp
  cases h
  refine ⟨?_, rfl, rfl, ?_, ?_⟩
  · by_contra hno
    exact hp ⟨fun h => hno (.inl h), fun h => hno (.inr (.inl h)), fun h => hno (.inr (.inr h))⟩
  · simp [owns]
  · simp [has]

theorem settled_foldlM {rs : List Receipt} (h : rs.foldlM apply s = .ok t) {q : Receipt}
    (hq : Settled s q ∨ q ∈ rs) : Settled t q := by
  induction rs generalizing s with
  | nil =>
    cases h
    simpa using hq
  | cons r rs ih =>
    rw [List.foldlM_cons] at h
    cases ha : s.apply r with
    | error e =>
      rw [ha] at h
      cases h
    | ok u =>
      rw [ha] at h
      refine ih h ?_
      rcases hq with hq | hq
      · exact .inl (hq.apply ha)
      · rcases List.mem_cons.mp hq with rfl | hq
        · exact .inl (settled_of_apply ha)
        · exact .inr hq

/-- a fold starts with its first receipt and applies the others -/
theorem fold_cons {rs : List Receipt} : fold (r :: rs) = .ok (some t) ↔
    ∃ s, start r = .ok s ∧ rs.foldlM apply s = .ok t := by
  show (start r >>= fun s => rs.foldlM apply s >>= fun u => pure (some u)) = _ ↔ _
  cases start r with
  | error e =>
    refine iff_of_false (fun h => by cases h) ?_
    rintro ⟨s, hs, -⟩
    cases hs
  | ok s =>
    show (rs.foldlM apply s >>= fun u => pure (some u)) = _ ↔ _
    constructor
    · intro h
      refine ⟨s, rfl, ?_⟩
      cases hf : rs.foldlM apply s with
      | error e =>
        rw [hf] at h
        cases h
      | ok u =>
        rw [hf] at h
        cases h
        rfl
    · rintro ⟨u, hu, hf⟩
      cases hu
      rw [hf]
      rfl

/-- every receipt of a fold is settled by its end -/
theorem settled_fold (h : fold l = .ok (some t)) {q : Receipt} (hq : q ∈ l) : Settled t q := by
  cases l with
  | nil => cases hq
  | cons r rs =>
    obtain ⟨s, hs, hf⟩ := fold_cons.mp h
    refine settled_foldlM hf ?_
    rcases List.mem_cons.mp hq with rfl | hq
    · exact .inl (start_ok hs).2.2.2
    · exact .inr hq

/-- one more copy changes nothing -/
theorem fold_again {a b : List Receipt} (hr : r ∈ a) (h : fold (a ++ b) = .ok (some t)) :
    fold (a ++ r :: b) = .ok (some t) := by
  cases a with
  | nil => cases hr
  | cons q rs =>
    rw [List.cons_append] at h ⊢
    obtain ⟨s, hs, hf⟩ := fold_cons.mp h
    refine fold_cons.mpr ⟨s, hs, ?_⟩
    rw [List.foldlM_append] at hf ⊢
    cases hm : rs.foldlM apply s with
    | error e =>
      rw [hm] at hf
      cases hf
    | ok u =>
      rw [hm] at hf
      have hset : Settled u r := settled_fold (fold_cons.mpr ⟨s, hs, hm⟩) hr
      show (r :: b).foldlM apply u = _
      rw [List.foldlM_cons, apply_again hset.1 hset.2]
      exact hf

/-! ## what a fold has reached -/

/-- the phase is reached, the reached phases are those of the receipts, and a completed execution was
applied -/
structure Reached (l : List Receipt) (s : ExecutionStatus) : Prop where
  now : s.has s.phase = true
  phases : ∀ p, s.has p = true ↔ ∃ r ∈ l, r.phase = p
  completed : s.phase = .completed → s.has .applied = true

theorem has_snoc {q p : Phase} {at_ : Stamp} :
    ({ s with phase := q, reason := r.reason, reached := s.reached ++ [(q, at_)] } : ExecutionStatus).has p =
      (s.has p || q == p) := by
  show List.any (_ ++ _) _ = _
  rw [List.any_append]
  simp [has]

theorem Reached.apply (h : Reached l s) (ha : s.apply r = .ok t) : Reached (l ++ [r]) t := by
  obtain ⟨-, ⟨hh, rfl⟩ | ⟨-, hf, rfl⟩⟩ := apply_ok ha
  · refine ⟨h.now, fun p => ?_, h.completed⟩
    rw [h.phases p]
    constructor
    · rintro ⟨q, hq, hp⟩
      exact ⟨q, List.mem_append_left _ hq, hp⟩
    · rintro ⟨q, hq, hp⟩
      rcases List.mem_append.mp hq with hq | hq
      · exact ⟨q, hq, hp⟩
      · rw [List.mem_singleton.mp hq] at hp
        rw [hp] at hh
        exact (h.phases p).mp hh
  · refine ⟨?_, fun p => ?_, fun hc => ?_⟩
    · rw [has_snoc]
      simp
    · rw [has_snoc, Bool.or_eq_true, h.phases p]
      constructor
      · rintro (⟨q, hq, hp⟩ | hp)
        · exact ⟨q, List.mem_append_left _ hq, hp⟩
        · exact ⟨r, List.mem_append_right _ (List.mem_singleton_self r), by simpa using hp⟩
      · rintro ⟨q, hq, hp⟩
        rcases List.mem_append.mp hq with hq | hq
        · exact .inl ⟨q, hq, hp⟩
        · rw [List.mem_singleton.mp hq] at hp
          exact .inr (by simpa using hp)
    · -- only an applied execution completes
      have hcr : r.phase = .completed := hc
      obtain ⟨-, ⟨hterm, -⟩ | ⟨allowed, hal, hin⟩⟩ := hf
      · rw [hcr] at hterm
        cases hterm
      · rw [hcr] at hal
        cases hal
        have hap : s.phase = .applied := by simpa using hin
        have hnow := h.now
        rw [hap] at hnow
        rw [has_snoc, hnow]
        rfl

theorem Reached.start (hs : start r = .ok s) : Reached [r] s := by
  obtain ⟨hp, hph, hre, hset⟩ := start_ok hs
  refine ⟨?_, fun p => ?_, fun hc => ?_⟩
  · rw [hph]
    exact hset.2
  · rw [has, hre]
    simp
  · rw [hph] at hc
    rw [hc] at hp
    simp at hp

theorem reached_foldlM {rs : List Receipt} (h : Reached l s) (hf : rs.foldlM ExecutionStatus.apply s = .ok t) :
    Reached (l ++ rs) t := by
  induction rs generalizing l s with
  | nil =>
    cases hf
    rw [List.append_nil]
    exact h
  | cons r rs ih =>
    rw [List.foldlM_cons] at hf
    cases ha : s.apply r with
    | error e =>
      rw [ha] at hf
      cases hf
    | ok u =>
      rw [ha] at hf
      have := ih (h.apply ha) hf
      rwa [List.append_assoc] at this

theorem reached_fold (h : fold l = .ok (some t)) : Reached l t := by
  cases l with
  | nil => cases h
  | cons r rs =>
    obtain ⟨s, hs, hf⟩ := fold_cons.mp h
    exact reached_foldlM (Reached.start hs) hf

/-- **The fold is safe under redelivery.**  Copies of receipts that arrive again change nothing; a receipt
either is a redelivery or moves the phase forward, never out of a terminal one; a completed execution was
applied; and the reached phases are exactly those of the receipts. -/
theorem fold_redelivered :
    (∀ l l' t, Redelivered l l' → fold l = .ok (some t) → fold l' = .ok (some t)) ∧
      (∀ l s r t, fold l = .ok (some s) → s.apply r = .ok t →
        t = s ∨ (Follows s.phase r.phase ∧ t.phase = r.phase ∧ t.reason = r.reason ∧
          t.reached = s.reached ++ [(r.phase, r.at_)])) ∧
      (∀ l s, fold l = .ok (some s) → s.phase = .completed → s.has .applied = true) ∧
      ∀ l s p, fold l = .ok (some s) → (s.has p = true ↔ ∃ r ∈ l, r.phase = p) := by
  refine ⟨?_, ?_, fun l s h => (reached_fold h).completed, fun l s p h => (reached_fold h).phases p⟩
  · intro l l' t hre h
    induction hre with
    | refl => exact h
    | again hre hr ih => exact fold_again hr ih
  · intro l s r t _ ha
    obtain ⟨-, ⟨-, rfl⟩ | ⟨-, hf, rfl⟩⟩ := apply_ok ha
    · exact .inl rfl
    · exact .inr ⟨hf, rfl, rfl, rfl⟩

end ExecutionStatus
end ArmControl.Execution
