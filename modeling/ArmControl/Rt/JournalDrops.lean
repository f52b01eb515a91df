import ArmControl.Rt.JournalDelivery

/-!
# What the fault journal drops

The fullness test subtracts a tail that was loaded now from a head that was loaded before; in between the ring may have moved on.

* `DropsWhenFull`       a record is dropped only by a call that saw a full ring;
* `Current`             a tail that is loaded has not passed the head that the call holds;
* `drops_when_full`     **then no record is dropped but for a full ring;**
* `dropped_while_empty` a call that sleeps between its two loads drops its record while the ring is empty.
-/

namespace ArmControl.Rt
namespace Journal
open Function Run Wrap

/-- `FAULT_RING` records are claimed and not released -/
def State.full (s : State) : Prop := (s.faultHead - s.faultTail).toNat = faultRing

instance (s : State) : Decidable s.full := inferInstanceAs (Decidable (_ = _))

/-- the ring was full at some moment of the call that `p` is in -/
def FullDuring (p : Producer) (es : List Event) : Prop :=
  ∃ before since, es = before ++ since ∧ (run step {} before).full ∧
    ∀ es', es' <+: since → (run step {} (before ++ es')).pc p ≠ .idle

/-- a call counts its record as dropped only if the ring was full during it -/
def DropsWhenFull (es : List Event) : Prop :=
  ∀ es' e rest, es = es' ++ e :: rest → (run step {} (es' ++ [e])).faultDropped ≠ (run step {} es').faultDropped →
    ∃ p, e = .produce p ∧ FullDuring p es'

/-- a claim that succeeds finds the ring not full, and a tail that is loaded has not passed the head that the call holds -/
def Current (s : State) : Event → Prop
  | .produce p =>
    match s.pc p with
    | .loadTail _ head _ => (s.faultHead - head).toNat ≤ (s.faultHead - s.faultTail).toNat
    | .claim _ head _ => head = s.faultHead → (s.faultHead - s.faultTail).toNat < faultRing
    | _ => True
  | _ => True

/-- `Current` of a producer's step -/
def State.current (s : State) : ProducerPc → Bool
  | .loadTail _ head _ => decide ((s.faultHead - head).toNat ≤ (s.faultHead - s.faultTail).toNat)
  | .claim _ head _ => decide (head = s.faultHead → (s.faultHead - s.faultTail).toNat < faultRing)
  | _ => true

theorem current_iff (s : State) (p : Producer) : s.current (s.pc p) = true ↔ Current s (.produce p) := by
  unfold Current
  dsimp only
  generalize s.pc p = pc
  cases pc with
  | loadTail => exact decide_eq_true_iff
  | claim => exact decide_eq_true_iff
  | _ => exact iff_true_intro rfl

instance (s : State) : DecidablePred (Current s)
  | .produce p => decidable_of_iff _ (current_iff s p)
  | .call _ _ | .drain | .consume => isTrue trivial

/-! ## the counters do not matter to the ring -/

/-- the state as if nothing had been counted -/
def State.uncounted (s : State) : State :=
  { s with
    faultDropped := 0
    faultContended := 0
    calls := s.claimed.length + undecided (s.pc .rt) + undecided (s.pc .control) }

variable {s : State} {es : List Event} {e : Event} {p : Producer}

theorem uncounted_step (s : State) (e : Event) : (step s.uncounted e).uncounted = (step s e).uncounted := by
  cases e with
  | call p c =>
    show (if s.pc p = .idle then _ else _ : State).uncounted = _
    unfold step
    dsimp only
    split_ifs <;> rfl
  | produce p =>
    show (produce s.uncounted p).uncounted = (produce s p).uncounted
    have hpc : s.uncounted.pc p = s.pc p := rfl
    unfold produce
    rw [hpc]
    cases s.pc p with
    | loadTail r head tries =>
      dsimp only
      show (if faultRing ≤ (head - s.faultTail).toNat then _ else _ : State).uncounted = _
      split_ifs <;> rfl
    | claim r head tries =>
      dsimp only
      show (if s.faultHead = head then _ else if faultClaimTries ≤ tries + 1 then _ else _ : State).uncounted = _
      split_ifs <;> rfl
    | _ => rfl
  | drain =>
    show (if s.consumer = .idle then _ else _ : State).uncounted = _
    unfold step
    dsimp only
    split_ifs <;> rfl
  | consume =>
    show (consume s.uncounted).uncounted = (consume s).uncounted
    have hc : s.uncounted.consumer = s.consumer := rfl
    unfold consume
    rw [hc]
    cases s.consumer with
    | loadReady tail =>
      dsimp only
      show (if (s.ring (slotOf tail)).ready = tail + 1 then _ else _ : State).uncounted = _
      split_ifs <;> rfl
    | _ => rfl

theorem Inv.uncounted (h : Inv s) : Inv s.uncounted :=
  ⟨h.head, h.tail, h.low, h.high, h.slots, h.owner, h.distinct, h.fill, h.consumer, h.order, rfl⟩

/-- the window is kept by a step that is current, whatever the counters do -/
theorem window_step (h : Inv s.uncounted) (hc : Current s e) : Inv (step s e).uncounted := by
  rw [← uncounted_step]
  refine (h.step ?_).uncounted
  cases e with
  | produce p =>
    have hpc : s.uncounted.pc p = s.pc p := rfl
    unfold Keeps
    unfold Current at hc
    dsimp only at hc ⊢
    rw [hpc]
    cases hp : s.pc p with
    | claim r head tries =>
      rw [hp] at hc
      exact hc
    | drop => exact (by decide : (0 : BitVec 32).toNat + 1 < 2 ^ 32)
    | contend => exact (by decide : (0 : BitVec 32).toNat + 1 < 2 ^ 32)
    | _ => trivial
  | call p c => trivial
  | drain => trivial
  | consume => trivial

/-! ## a drop -/

/-- the fullness test, on a tail that has not passed the head: the ring is full now -/
theorem full_of_test (h : Inv s.uncounted) {head : BitVec 32} (hpassed : (s.faultHead - head).toNat ≤ (s.faultHead - s.faultTail).toNat)
    (htest : faultRing ≤ (head - s.faultTail).toNat) : s.full := by
  have hring : (s.faultHead - s.faultTail).toNat = s.claimed.length - s.released := h.inRing
  have hhigh : s.claimed.length ≤ s.released + faultRing := h.high
  unfold State.full faultRing
  unfold faultRing at htest hhigh
  bv_omega

/-- the ring was full, and the call goes on -/
theorem FullDuring.snoc (h : FullDuring p es) (hgoes : (run step {} (es ++ [e])).pc p ≠ .idle) : FullDuring p (es ++ [e]) := by
  obtain ⟨before, since, rfl, hfull, hpc⟩ := h
  refine ⟨before, since ++ [e], List.append_assoc .., hfull, fun es' hes' => ?_⟩
  rcases prefix_snoc_iff.mp hes' with hes' | rfl
  · exact hpc es' hes'
  · rw [← List.append_assoc]
    exact hgoes

theorem FullDuring.now (hfull : (run step {} es).full) (hcall : (run step {} es).pc p ≠ .idle) : FullDuring p es :=
  ⟨es, [], (List.append_nil es).symm, hfull, fun es' hes' => by
    rw [List.prefix_nil.mp hes', List.append_nil]
    exact hcall⟩

/-- a producer comes to drop its record by the fullness test only, and stays there until it counts the drop -/
theorem drop_cases (h : (step s e).pc p = .drop) : s.pc p = .drop ∨ ∃ r head tries, s.pc p = .loadTail r head tries ∧
    e = .produce p ∧ faultRing ≤ (head - s.faultTail).toNat := by
  -- a step of another thread
  have hother : ∀ {q : Producer} {t : State} {pc : ProducerPc}, t.pc = s.pc → q ≠ p → (t.goto q pc).pc p = .drop → s.pc p = .drop := by
    intro q t pc ht hq hdrop
    have hdrop : update t.pc q pc p = .drop := hdrop
    rw [update_of_ne (Ne.symm hq), ht] at hdrop
    exact hdrop
  have hself : ∀ {t : State} {pc : ProducerPc}, (t.goto p pc).pc p = .drop → pc = .drop := by
    intro t pc hdrop
    have hdrop : update t.pc p pc p = .drop := hdrop
    rwa [update_self] at hdrop
  cases e with
  | call q c =>
    unfold step at h
    dsimp only at h
    split_ifs at h
    · by_cases hq : q = p
      · subst hq
        cases hself h
      · exact .inl (hother (t := { s with calls := s.calls + 1 }) rfl hq h)
    · exact .inl h
  | produce q =>
    have h : (produce s q).pc p = .drop := h
    unfold produce at h
    by_cases hq : q = p
    · subst hq
      cases hpc : s.pc q with
      | drop => exact .inl rfl
      | loadTail r head tries =>
        rw [hpc] at h
        dsimp only at h
        split_ifs at h with htest
        · exact .inr ⟨r, head, tries, rfl, rfl, htest⟩
        · cases hself h
      | idle =>
        rw [hpc] at h
        exact .inl (hpc.symm.trans h)
      | loadHead r =>
        rw [hpc] at h
        cases hself h
      | claim r head tries =>
        rw [hpc] at h
        dsimp only at h
        split_ifs at h <;> cases hself h
      | contend =>
        rw [hpc] at h
        cases hself h
      | fill r head i =>
        rw [hpc] at h
        have hpc' := hself h
        split_ifs at hpc'
      | publish r head =>
        rw [hpc] at h
        cases hself h
    · refine .inl ?_
      cases hpc : s.pc q <;> rw [hpc] at h <;> dsimp only at h <;> try split_ifs at h
      all_goals first | exact h | exact hother rfl hq h
  | drain =>
    refine .inl ?_
    unfold step at h
    dsimp only at h
    split_ifs at h <;> exact h
  | consume =>
    refine .inl ?_
    have h : (consume s).pc p = .drop := h
    unfold consume at h
    cases hc : s.consumer <;> rw [hc] at h <;> dsimp only at h <;> try split_ifs at h
    all_goals exact h

/-- the window, and where a record is about to be dropped the ring was full -/
def Tested (es : List Event) (s : State) : Prop := Inv s.uncounted ∧ ∀ p, s.pc p = .drop → FullDuring p es

theorem tested_step (hc : Current (run step {} es) e) (h : Tested es (run step {} es)) :
    Tested (es ++ [e]) (step (run step {} es) e) := by
  refine ⟨window_step h.1 hc, fun p hp => ?_⟩
  have hgoes : (run step {} (es ++ [e])).pc p ≠ .idle := by
    rw [run_snoc, hp]
    exact ProducerPc.noConfusion
  rcases drop_cases hp with hdrop | ⟨r, head, tries, hpc, rfl, htest⟩
  · exact (h.2 p hdrop).snoc hgoes
  · refine (FullDuring.now (full_of_test h.1 ?_ htest) ?_).snoc hgoes
    · unfold Current at hc
      dsimp only at hc
      rw [hpc] at hc
      exact hc
    · rw [hpc]
      exact ProducerPc.noConfusion

/-- only a producer that is about to drop its record counts it -/
theorem dropped_step (h : (step s e).faultDropped ≠ s.faultDropped) : ∃ p, e = .produce p ∧ s.pc p = .drop := by
  cases e with
  | produce p =>
    refine ⟨p, rfl, ?_⟩
    have h : (produce s p).faultDropped ≠ s.faultDropped := h
    unfold produce at h
    cases hpc : s.pc p <;> rw [hpc] at h <;> dsimp only at h <;> try split_ifs at h
    all_goals first | rfl | exact absurd rfl h
  | call q c =>
    unfold step at h
    dsimp only at h
    split_ifs at h <;> exact absurd rfl h
  | drain =>
    unfold step at h
    dsimp only at h
    split_ifs at h <;> exact absurd rfl h
  | consume =>
    have h : (consume s).faultDropped ≠ s.faultDropped := h
    unfold consume at h
    cases hc : s.consumer <;> rw [hc] at h <;> dsimp only at h <;> try split_ifs at h
    all_goals exact absurd rfl h

/-- **A record is dropped only where the ring is full**, in every interleaving in which a tail that is loaded has not passed the
head that the call holds, and a successful claim finds the ring not full. -/
theorem drops_when_full (es : List Event) (h : Along step Current {} es) : DropsWhenFull es := by
  rintro es' e rest rfl hcounted
  have hinit : Tested [] {} := ⟨inv_init.uncounted, fun p hp => by cases hp⟩
  rw [run_snoc] at hcounted
  obtain ⟨p, rfl, hpc⟩ := dropped_step hcounted
  have hes : Along step Current {} es' := h.sub (List.prefix_append _ _)
  exact ⟨p, rfl, (invariant_hist hinit (fun _ _ _ hc hi => tested_step hc hi) hes).2 p hpc⟩

/-- sixteen records fill the ring, and the next one is dropped -/
theorem drops_when_full_seventeen : DropsWhenFull ((List.replicate 16 put).flatten ++ [.call .rt {}, .produce .rt, .produce .rt, .produce .rt]) :=
  drops_when_full _ (by decide +kernel)

/-- the RT loop loads the head; a record is journaled and taken; the RT loop goes on -/
def asleep : List Event := [.call .rt {}, .produce .rt] ++ put ++ [.drain, .consume] ++ take ++ [.produce .rt, .produce .rt]

/-- **A record is dropped while the ring is empty**, since the tail has passed the head that the call holds. -/
theorem dropped_while_empty : ¬ ∀ es, DropsWhenFull es := by
  intro hall
  have hsplit : asleep = asleep.dropLast ++ .produce .rt :: [] := rfl
  obtain ⟨p, -, before, since, hes, hfull, -⟩ := hall asleep asleep.dropLast (.produce .rt) [] hsplit (by decide +kernel)
  have hnever : ∀ before ∈ asleep.dropLast.inits, ¬ (run step {} before).full := by decide +kernel
  exact hnever before ((List.mem_inits _ _).mpr ⟨since, hes.symm⟩) hfull

end Journal

end ArmControl.Rt
