import ArmControl.MultiArm.PairLog

/-!
# The run and its log

* `Track`   what a run has recorded of the log since its staging;
* `Tied`    a coordinator whose log is legal and whose run is the log's pair;
* `Tied.note`, `Tied.update`, `Tied.moved`, `Tied.own`   the changes that keep it;
* `Idles`   what happens to a pair that is not active.

A failing event stands in the log before the pair is aborted; `clean` says that there is none.
-/

namespace ArmControl.MultiArm

variable {σ : Type} {g : Group} {log since : List Entry} {x : Entry} {plan : BimanualPlan} {r : PairRun}
  {states : Side → ArmControlState}

theorem Acked.append {a : Side} (h : Acked g plan states a since) (new : List Entry) :
    Acked g plan states a (since ++ new) := by
  obtain ⟨e, he, hrest⟩ := h
  exact ⟨e, List.mem_append_left _ he, hrest⟩

theorem Succeeded.append {a : Side} (h : Succeeded g plan a since) (new : List Entry) :
    Succeeded g plan a (since ++ new) := by
  obtain ⟨e, he, hrest⟩ := h
  exact ⟨e, List.mem_append_left _ he, hrest⟩

theorem Staged.concat (h : Staged plan states since log) (hx : ∀ p, x ≠ .moved p .staging) :
    Staged plan states (since ++ [x]) (log ++ [x]) := by
  obtain ⟨before, now, rfl⟩ := h.split
  refine ⟨⟨before, now, ?_⟩, fun p hp => ?_⟩
  · rw [List.append_assoc, List.cons_append, List.cons_append]
  · rcases List.mem_append.mp hp with hp | hp
    · exact h.last p hp
    · exact hx p (List.mem_singleton.mp hp).symm

theorem Unfailed.concat (h : Unfailed g plan states since)
    (hx : ∀ a e, x = .event a e → ¬ Failing g plan states a since e) : Unfailed g plan states (since ++ [x]) := by
  intro before a e after heq
  rcases List.eq_nil_or_concat' after with rfl | ⟨after', y, rfl⟩
  · obtain ⟨rfl, hxe⟩ := List.append_inj' heq rfl
    exact hx a e (List.singleton_inj.mp hxe)
  · rw [← List.cons_append, ← List.append_assoc] at heq
    obtain ⟨rfl, -⟩ := List.append_inj' heq rfl
    exact h before a e after' rfl

/-- what the run has recorded of the log since its staging -/
structure Track (g : Group) (r : PairRun) (states : Side → ArmControlState) (since : List Entry) : Prop where
  sessions : ∀ a, r.sessions a = (states a).sessionId
  models : ∀ a, r.models a = (states a).modelToken
  tokens : ∀ a, ∃ body, (g.member r.plan a).payload = .ok body ∧ body.modelToken = (states a).modelToken
  acked : ∀ a t, r.stageAcks a = some (true, t) → Acked g r.plan states a since
  both : r.lifecycle = .ready ∨ r.lifecycle = .executing → ∀ a, (r.stageAcks a).isSome
  succeeded : ∀ a t, r.results a = some (true, t) → Succeeded g r.plan a since
  unreleased : r.lifecycle = .staging ∨ r.lifecycle = .ready → ∀ p, .moved p .executing ∉ since
  uncancelled : r.lifecycle.active = true → r.cancellationRequested = false

theorem Track.concat (h : Track g r states since) (hx : x.move = none) : Track g r states (since ++ [x]) :=
  { h with
    acked := fun a t ht => (h.acked a t ht).append _
    succeeded := fun a t ht => (h.succeeded a t ht).append _
    unreleased := fun hl p hp => by
      rcases List.mem_append.mp hp with hp | hp
      · exact h.unreleased hl p hp
      · rw [← List.mem_singleton.mp hp] at hx
        cases hx }

/-- nothing has failed the pair -/
structure Going (g : Group) (r : PairRun) (states : Side → ArmControlState) (since : List Entry) : Prop where
  unfailed : Unfailed g r.plan states since
  acks : ∀ a b t, r.stageAcks a = some (b, t) → b = true
  results : ∀ a b t, r.results a = some (b, t) → b = true

theorem Track.acked_of_some (h : Track g r states since) (hg : Going g r states since) {a : Side}
    (hack : (r.stageAcks a).isSome) : Acked g r.plan states a since := by
  obtain ⟨⟨b, t⟩, hack⟩ := Option.isSome_iff_exists.mp hack
  obtain rfl := hg.acks a b t hack
  exact h.acked a t hack

theorem Track.succeeded_of_some (h : Track g r states since) (hg : Going g r states since) {a : Side}
    (hres : (r.results a).isSome) : Succeeded g r.plan a since := by
  obtain ⟨⟨b, t⟩, hres⟩ := Option.isSome_iff_exists.mp hres
  obtain rfl := hg.results a b t hres
  exact h.succeeded a t hres

/-- the log is legal, and the run is its pair -/
structure Tied (g : Group) (clean : Prop) (s : Coordinator σ) : Prop where
  legal : Legal g s.log
  now : current s.log = s.run.map fun r => (r.plan, r.lifecycle)
  tracked : ∀ r, s.run = some r → ∃ states since, Staged r.plan states since s.log ∧ Track g r states since ∧
    (clean → r.lifecycle.active = true → Going g r states since)
  consumed : ∀ p l, .moved p l ∈ s.log → p.pairId ∈ s.consumedPairIds ∧ ∀ a, (g.member p a).planId ∈ s.consumedPlanIds
  live : ∀ r, s.run = some r → r.lifecycle.active = true → ∀ a, Live g (g.member r.plan a).planId s.log

namespace Tied

variable {clean clean' : Prop} {s t : Coordinator σ}

theorem congr (h : Tied g clean s) (hrun : t.run = s.run) (hlog : t.log = s.log)
    (hpairs : t.consumedPairIds = s.consumedPairIds) (hplans : t.consumedPlanIds = s.consumedPlanIds) :
    Tied g clean t where
  legal := hlog ▸ h.legal
  now := by rw [hlog, hrun]; exact h.now
  tracked := by rw [hlog, hrun]; exact h.tracked
  consumed := by rw [hlog, hpairs, hplans]; exact h.consumed
  live := by rw [hlog, hrun]; exact h.live

theorem current_eq (h : Tied g clean s) (hr : s.run = some r) : current s.log = some (r.plan, r.lifecycle) := by
  rw [h.now, hr]
  rfl

theorem mem_of_move {p : BimanualPlan} {l : PairLifecycle} (hx : x.move = none) (h : .moved p l ∈ log ++ [x]) :
    .moved p l ∈ log := by
  rcases List.mem_append.mp h with h | h
  · exact h
  · rw [← List.mem_singleton.mp h] at hx
    cases hx

/-- an entry that is no move -/
theorem note (h : Tied g clean s) (hx : x.move = none) (had : Admits g s.log x)
    (hclean : clean' → clean ∧ ∀ r states since, s.run = some r → r.lifecycle.active = true → Track g r states since →
      Going g r states since → ∀ a e, x = .event a e → ¬ Failing g r.plan states a since e) :
    Tied g clean' (s.add x) where
  legal := h.legal.concat had
  now := (current_concat hx).trans h.now
  tracked := by
    intro r hr
    obtain ⟨states, since, hstaged, htrack, hun⟩ := h.tracked r hr
    refine ⟨states, since ++ [x], hstaged.concat fun p hp => ?_, htrack.concat hx, fun hc hactive => ?_⟩
    · rw [hp] at hx
      cases hx
    · obtain ⟨hc, hev⟩ := hclean hc
      have hgoing := hun hc hactive
      exact { hgoing with unfailed := hgoing.unfailed.concat (hev r states since hr hactive htrack hgoing) }
  consumed := fun p l hp => h.consumed p l (mem_of_move hx hp)
  live := fun r hr hactive a p l hp => h.live r hr hactive a p l (mem_of_move hx hp)

theorem forget (h : Tied g clean s) : Tied g False s :=
  { h with
    tracked := fun r hr => by
      obtain ⟨states, since, hstaged, htrack, -⟩ := h.tracked r hr
      exact ⟨states, since, hstaged, htrack, False.elim⟩ }

/-- a change of the run that is no move -/
theorem update (h : Tied g clean s) {f : PairRun → PairRun} (hplan : ∀ r, (f r).plan = r.plan)
    (hlifecycle : ∀ r, (f r).lifecycle = r.lifecycle)
    (hf : ∀ r states since, s.run = some r → Staged r.plan states since s.log → Track g r states since →
      Track g (f r) states since ∧ (clean → Going g r states since → Going g (f r) states since)) :
    Tied g clean { s with run := s.run.map f } where
  legal := h.legal
  now := by
    rw [h.now]
    cases s.run with
    | none => rfl
    | some r =>
      show some (r.plan, r.lifecycle) = some ((f r).plan, (f r).lifecycle)
      rw [hplan, hlifecycle]
  tracked := by
    intro r' hr'
    obtain ⟨r, hr, rfl⟩ := Option.map_eq_some_iff.mp hr'
    obtain ⟨states, since, hstaged, htrack, hun⟩ := h.tracked r hr
    obtain ⟨htrack', hgoing⟩ := hf r states since hr hstaged htrack
    refine ⟨states, since, ?_, htrack', fun hc hactive => ?_⟩
    · rw [hplan]
      exact hstaged
    · rw [hlifecycle] at hactive
      exact hgoing hc (hun hc hactive)
  consumed := h.consumed
  live := by
    intro r' hr'
    obtain ⟨r, hr, rfl⟩ := Option.map_eq_some_iff.mp hr'
    rw [hplan, hlifecycle]
    exact h.live r hr

theorem mem_moved {p : BimanualPlan} {l next : PairLifecycle} (h : .moved p l ∈ log ++ [Entry.moved plan next]) :
    .moved p l ∈ log ∨ p = plan ∧ l = next := by
  rcases List.mem_append.mp h with h | h
  · exact .inl h
  · obtain ⟨rfl, rfl⟩ := Entry.moved.inj (List.mem_singleton.mp h)
    exact .inr ⟨rfl, rfl⟩

/-- the run enters `next` -/
theorem moved (h : Tied g clean s) (hr : s.run = some r) {next : PairLifecycle} {f : PairRun → PairRun}
    (had : Admits g s.log (.moved r.plan next)) (hne : next ≠ .staging) (hplan : (f r).plan = r.plan)
    (hactive : next.active = true → clean ∧ r.lifecycle.active = true)
    (hgoing : ∀ states since, Going g r states since → Going g { f r with lifecycle := next } states since)
    (htrack : ∀ states since, Track g r states since →
      Track g { f r with lifecycle := next } states (since ++ [Entry.moved r.plan next])) :
    Tied g True (s.enter next f) := by
  have hmem : .moved r.plan r.lifecycle ∈ s.log := by
    obtain ⟨y, hy, hmove⟩ := List.mem_filterMap.mp (List.mem_of_getLast? (h.current_eq hr))
    cases y with
    | moved p l =>
      obtain ⟨rfl, rfl⟩ := Prod.mk.inj (Option.some.inj hmove)
      exact hy
    | called c => cases hmove
    | event a e => cases hmove
    | checked now states => cases hmove
  unfold Coordinator.enter
  rw [hr]
  constructor
  · exact h.legal.concat had
  · show current (s.log ++ [Entry.moved r.plan next]) = some ((f r).plan, next)
    rw [current_moved, hplan]
  · intro r' hr'
    obtain rfl := Option.some.inj hr'
    obtain ⟨states, since, hstaged, ht, hun⟩ := h.tracked r hr
    refine ⟨states, since ++ [Entry.moved r.plan next], ?_, htrack states since ht, fun _ hn => ?_⟩
    · show Staged (f r).plan states _ _
      rw [hplan]
      exact hstaged.concat fun p hp => hne (Entry.moved.inj hp).2
    · obtain ⟨hc, hl⟩ := hactive hn
      have hg := hgoing states since (hun hc hl)
      exact { hg with unfailed := hg.unfailed.concat nofun }
  · intro p l hp
    rcases mem_moved hp with hp | ⟨rfl, rfl⟩
    · exact h.consumed p l hp
    · exact h.consumed r.plan r.lifecycle hmem
  · intro r' hr' hn a p l hp hl
    obtain rfl := Option.some.inj hr'
    show ∀ b, (g.member p b).planId ≠ (g.member (f r).plan a).planId
    rw [hplan]
    rcases mem_moved hp with hp | ⟨rfl, rfl⟩
    · exact h.live r hr (hactive hn).2 a p l hp hl
    · exact absurd (hl.symm.trans hn) Bool.false_ne_true

/-- a new pair -/
theorem own (h : Tied g clean s) {both : Side → ArmControlState} {before : List Entry} {now t : ℚ}
    (hidle : s.lifecycle.active = false) (hlog : s.log = before ++ [Entry.checked now both])
    (hpair : plan.pairId ∉ s.consumedPairIds) (hplans : ∀ a, (g.member plan a).planId ∉ s.consumedPlanIds)
    (hall : ∀ a, (g.member plan a).planId = plan.left.planId ∨ (g.member plan a).planId = plan.right.planId)
    (htokens : ∀ a, ∃ body, (g.member plan a).payload = .ok body ∧ body.modelToken = (both a).modelToken) :
    Tied g True (s.own plan both t) where
  legal := by
    refine h.legal.concat ⟨fun p l hp => ?_, fun p l hp heq => ?_, before, now, both, hlog⟩
    · rw [h.now] at hp
      obtain ⟨r, hr, hpl⟩ := Option.map_eq_some_iff.mp hp
      obtain ⟨-, rfl⟩ := Prod.mk.inj hpl
      rw [Coordinator.lifecycle, hr] at hidle
      exact hidle
    · exact hpair (heq ▸ (h.consumed p l hp).1)
  now := current_moved _ _ _
  tracked := by
    intro r hr
    obtain rfl := Option.some.inj hr
    refine ⟨both, [], ⟨⟨before, now, ?_⟩, fun _ => List.not_mem_nil⟩, ?_, fun _ _ => ?_⟩
    · show s.log ++ [Entry.moved plan .staging] = _
      rw [hlog, List.append_assoc]
      rfl
    · exact
        { sessions := fun _ => rfl
          models := fun _ => rfl
          tokens := htokens
          acked := fun _ _ ht => by cases ht
          both := fun hl => by rcases hl with hl | hl <;> cases hl
          succeeded := fun _ _ ht => by cases ht
          unreleased := fun _ _ => List.not_mem_nil
          uncancelled := fun _ => rfl }
    · refine ⟨fun before a e after heq => ?_, fun _ _ _ ht => (by cases ht), fun _ _ _ ht => by cases ht⟩
      cases before <;> cases heq
  consumed := by
    intro p l hp
    rcases mem_moved hp with hp | ⟨rfl, rfl⟩
    · obtain ⟨h₁, h₂⟩ := h.consumed p l hp
      exact ⟨List.mem_cons_of_mem _ h₁, fun a => List.mem_cons_of_mem _ (List.mem_cons_of_mem _ (h₂ a))⟩
    · refine ⟨List.mem_cons_self, fun a => ?_⟩
      rcases hall a with ha | ha
      · rw [ha]
        exact List.mem_cons_self
      · rw [ha]
        exact List.mem_cons_of_mem _ List.mem_cons_self
  live := by
    intro r hr _ a p l hp hl b heq
    obtain rfl := Option.some.inj hr
    rcases mem_moved hp with hp | ⟨-, rfl⟩
    · exact hplans a (heq ▸ (h.consumed p l hp).2 b)
    · cases hl

end Tied

end ArmControl.MultiArm
