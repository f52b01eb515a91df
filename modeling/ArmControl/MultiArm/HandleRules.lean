import ArmControl.Lib.Since
import ArmControl.MultiArm.SdkArmHandle

/-!
# What a truthful handle knows

* `Truthful`   an answer that is true, given what was answered before;
* `Sound`      the handle's records lag behind the supervisor, but they miss no execution;
* `Sound.idle`, `Sound.push`, `Sound.pop`, `Sound.admitted`, `Sound.released`, `Sound.resolved`, ...
               one lemma for each thing that happens.

A plan is spent once a result of it was answered, or that it is cleared.
-/

namespace ArmControl.MultiArm

open Execution Executions History
open Clients (CallError)

/-! ## the rules -/

def IsResult (p : String) (e : Event) : Prop := e.kind = .legResult ∧ e.planId = some p

def IsCleared (p : String) (e : Event) : Prop := e.kind = .planCleared ∧ e.ok = true ∧ e.planId = some p

def Note.queued : Note → List Event
  | .event e _ => [e]
  | _ => []

def Note.returned : Note → List Event
  | .polled _ _ events => events
  | _ => []

def Spent (p : String) (log : List Note) : Prop := ∃ e ∈ log.flatMap Note.queued, IsResult p e ∨ IsCleared p e

structure TrueEvent (earlier : List Note) (e : Event) (l : Ledger) : Prop where
  cleared : ∀ p, IsCleared p e → NoLive l p
  result : ∀ p, IsResult p e → ¬ Spent p earlier
  completed : ∀ p, IsResult p e → e.ok = true → ∃ (i : ℕ) (x : Executions.Entry), l[i]? = some x ∧ x.planId = p ∧ x.phase = .completed

/-- what was released and ended by itself is reported, unless its status call got no answer -/
def TruePoll (earlier : List Note) (l : Ledger) (start : ℕ) (events : List Event) : Prop :=
  ∀ (i : ℕ) (x : Executions.Entry), l[i]? = some x → x.released = true → x.live = false → x.cancelled = false →
    (∃ e ∈ earlier.flatMap Note.returned ++ events, IsResult x.planId e) ∨ .unanswered x.planId ∈ earlier.drop start

/-- a live execution is reported, and that it is past `admitted` -/
def TrueState (s : ArmControlState) (before after : Ledger) : Prop :=
  ∀ (i : ℕ) (x : Executions.Entry), after[i]? = some x → x.live = true → s.runningPlanId = some x.planId ∧
    ∀ x₀, before[i]? = some x₀ → x₀.phase.begun = true → s.executing = some true

def Truthful (earlier : List Note) : Note → Prop
  | .event e l => TrueEvent earlier e l
  | .unanswered _ => True
  | .polled l start events => TruePoll earlier l start events
  | .stated s before after => TrueState s before after

/-! ## what the handle knows -/

namespace SdkArmHandle

/-- the record of a plan is about the execution -/
structure About (plans : Dict String Record) (p : String) (i : ℕ) (r : Record) : Prop where
  get : plans.get p = some r
  execution : r.execution = i

structure Sound (s : SdkArmHandle) : Prop where
  ledger : s.world.ledger.Sound
  start : ∀ (i : ℕ) (x : Executions.Entry), s.world.ledger[i]? = some x → x.request.start = .onRelease
  known : ∀ (i : ℕ) (x : Executions.Entry), s.world.ledger[i]? = some x → x.live = true →
    (∃ r, About s.plans x.planId i r) ∨ x.planId ∈ s.unknownStage.keys
  told : ∀ (i : ℕ) (x : Executions.Entry), s.world.ledger[i]? = some x → x.released = true → x.cancelled = false →
    (∃ e ∈ s.log.flatMap Note.queued, IsResult x.planId e) ∨
      ∃ r, About s.plans x.planId i r ∧ r.released = true ∧ r.reported = false
  running : ∀ (i : ℕ) (x : Executions.Entry), s.world.ledger[i]? = some x → x.released = true → x.live = true →
    ∃ r, About s.plans x.planId i r ∧ r.released = true
  entry : ∀ p r, s.plans.get p = some r → ∃ x, s.world.ledger[r.execution]? = some x ∧ x.planId = p
  reported : ∀ p r, s.plans.get p = some r → r.reported = true → (∃ e ∈ s.log.flatMap Note.queued, IsResult p e) ∨
    ∀ x, s.world.ledger[r.execution]? = some x → x.cancelled = true
  fresh : ∀ p r, s.plans.get p = some r → r.reported = false → ¬ Spent p s.log
  requests : ∀ p r, s.unknownStage.get p = some r → r.requestId = p ∧ r.start = .onRelease
  bounded : s.unknownStage.entries.length ≤ 64
  queue : s.log.flatMap Note.queued = s.log.flatMap Note.returned ++ s.events
  truth : Justified Truthful s.log
  undeferred : s.deferred = none

variable {s : SdkArmHandle} {w : World} {p : String} {r : Record}

theorem get_of_pop {d : Dict String Record} {q : String} (h : (d.pop p).get q = some r) : q ≠ p ∧ d.get q = some r :=
  Dict.mem_pop.mp (Dict.mem_entries.mpr h)

theorem spent_snoc {n : Note} {log : List Note} (h : Spent p (log ++ [n])) :
    Spent p log ∨ ∃ e ∈ n.queued, IsResult p e ∨ IsCleared p e := by
  obtain ⟨e, he, hp⟩ := h
  rw [List.flatMap_append, List.flatMap_singleton] at he
  rcases List.mem_append.mp he with he | he
  · exact .inl ⟨e, he, hp⟩
  · exact .inr ⟨e, he, hp⟩

theorem queued_snoc {n : Note} {log : List Note} {e : Event} (h : e ∈ log.flatMap Note.queued) :
    e ∈ (log ++ [n]).flatMap Note.queued := by
  rw [List.flatMap_append]
  exact List.mem_append_left _ h

/-- the supervisor goes on by itself, or a cancel is taken -/
theorem Sound.idle {op : Option Op} (h : Sound s) (hop : Plain op) (hw : Onward op s.world w) : Sound (s.setWorld w) where
  ledger := hw.sound h.ledger
  start i x' hx := by
    obtain ⟨x, hi, hlater, -⟩ := hw.change.back hop hx
    rw [hlater.request]
    exact h.start i x hi
  known i x' hx hlive := by
    obtain ⟨x, hi, hl, hlater⟩ := hw.change.live hop hx hlive
    rw [hlater.planId]
    exact h.known i x hi hl
  told i x' hx hrel hcan := by
    obtain ⟨x, hi, hlater, hr, hc⟩ := hw.change.back hop hx
    rw [hlater.planId]
    exact h.told i x hi (hr hrel) (hc hcan)
  running i x' hx hrel hlive := by
    obtain ⟨x, hi, hlater, hr, -⟩ := hw.change.back hop hx
    rw [hlater.planId]
    exact h.running i x hi (hr hrel) (hlater.live hlive)
  entry p r hr := by
    obtain ⟨x, hx, hp⟩ := h.entry p r hr
    obtain ⟨x', hx', hlater, -⟩ := hw.change.old _ x hx
    exact ⟨x', hx', hlater.planId.trans hp⟩
  reported p r hr hrep := by
    refine (h.reported p r hr hrep).imp_right fun hc x' hx' => ?_
    obtain ⟨x, hx, hlater, -⟩ := hw.change.back hop hx'
    exact hlater.cancelled (hc x hx)
  fresh := h.fresh
  requests := h.requests
  bounded := h.bounded
  queue := h.queue
  truth := h.truth
  undeferred := h.undeferred

/-- what the rules do not look at -/
theorem Sound.aside (h : Sound s) (faultReported : Bool) (faultReason : Option String) (offset : ℚ) :
    Sound { s with faultReported := faultReported, faultReason := faultReason, offset := offset } :=
  ⟨h.ledger, h.start, h.known, h.told, h.running, h.entry, h.reported, h.fresh, h.requests, h.bounded, h.queue, h.truth,
    h.undeferred⟩

/-- records that are found in the same way -/
theorem Sound.plans {plans plans' : Dict String Record} (h : Sound { s with plans := plans })
    (hget : ∀ q, plans'.get q = plans.get q) : Sound { s with plans := plans' } where
  ledger := h.ledger
  start := h.start
  known i x hx hl := (h.known i x hx hl).imp_left fun ⟨r, hr⟩ => ⟨r, (hget _).trans hr.get, hr.execution⟩
  told i x hx hrel hcan :=
    (h.told i x hx hrel hcan).imp_right fun ⟨r, hr, hrest⟩ => ⟨r, ⟨(hget _).trans hr.get, hr.execution⟩, hrest⟩
  running i x hx hrel hl := by
    obtain ⟨r, hr, hrest⟩ := h.running i x hx hrel hl
    exact ⟨r, ⟨(hget _).trans hr.get, hr.execution⟩, hrest⟩
  entry p r hr := h.entry p r ((hget p).symm.trans hr)
  reported p r hr := h.reported p r ((hget p).symm.trans hr)
  fresh p r hr := h.fresh p r ((hget p).symm.trans hr)
  requests := h.requests
  bounded := h.bounded
  queue := h.queue
  truth := h.truth
  undeferred := h.undeferred

theorem queued_push (e : Event) (l : Ledger) (log : List Note) :
    (log ++ [Note.event e l]).flatMap Note.queued = log.flatMap Note.queued ++ [e] := by
  rw [List.flatMap_append, List.flatMap_singleton]
  rfl

theorem returned_push (e : Event) (l : Ledger) (log : List Note) :
    (log ++ [Note.event e l]).flatMap Note.returned = log.flatMap Note.returned := by
  rw [List.flatMap_append, List.flatMap_singleton]
  exact List.append_nil _

/-- a plan's execution is over for the handle: its record says so or goes, and the answer is given -/
theorem Sound.resolve {plans : Dict String Record} {e : Event} (h : Sound s) (hne : ∀ q, q ≠ p → plans.get q = s.plans.get q)
    (hp : ∀ r', plans.get p = some r' → r'.reported = true ∧ ∃ r, s.plans.get p = some r ∧ r'.execution = r.execution ∧
      r'.released = r.released)
    (hgone : plans.get p = none → ∀ r, s.plans.get p = some r → ∀ x, s.world.ledger[r.execution]? = some x → x.live = false)
    (he : e.planId = some p)
    (htold : IsResult p e ∨ ∀ r, s.plans.get p = some r → ∀ x, s.world.ledger[r.execution]? = some x → x.cancelled = true)
    (ht : TrueEvent s.log e s.world.ledger) : Sound (push e { s with plans := plans }) where
  ledger := h.ledger
  start := h.start
  known i x hx hl := by
    refine (h.known i x hx hl).imp_left fun ⟨r, hr⟩ => ?_
    by_cases hxp : x.planId = p
    · subst hxp
      cases hg : plans.get x.planId with
      | none =>
        rw [hgone hg r hr.get x (hr.execution ▸ hx)] at hl
        cases hl
      | some r' =>
        obtain ⟨-, r₀, hr₀, hexec, -⟩ := hp r' hg
        obtain rfl := Option.some.inj (hr₀.symm.trans hr.get)
        exact ⟨r', hg, hexec.trans hr.execution⟩
    · exact ⟨r, (hne _ hxp).trans hr.get, hr.execution⟩
  told i x hx hrel hcan := by
    show (∃ e' ∈ (s.log ++ [Note.event e s.world.ledger]).flatMap Note.queued, _) ∨ _
    rw [queued_push]
    rcases h.told i x hx hrel hcan with ⟨e', he', hres⟩ | ⟨r, hr, hrest⟩
    · exact .inl ⟨e', List.mem_append_left _ he', hres⟩
    · by_cases hxp : x.planId = p
      · subst hxp
        rcases htold with hres | hall
        · exact .inl ⟨e, List.mem_append_right _ (List.mem_singleton_self _), hres⟩
        · rw [hall r hr.get x (hr.execution ▸ hx)] at hcan
          cases hcan
      · exact .inr ⟨r, ⟨(hne _ hxp).trans hr.get, hr.execution⟩, hrest⟩
  running i x hx hrel hl := by
    obtain ⟨r, hr, hrest⟩ := h.running i x hx hrel hl
    by_cases hxp : x.planId = p
    · subst hxp
      cases hg : plans.get x.planId with
      | none =>
        rw [hgone hg r hr.get x (hr.execution ▸ hx)] at hl
        cases hl
      | some r' =>
        obtain ⟨-, r₀, hr₀, hexec, hrel'⟩ := hp r' hg
        obtain rfl := Option.some.inj (hr₀.symm.trans hr.get)
        exact ⟨r', ⟨hg, hexec.trans hr.execution⟩, hrel'.trans hrest⟩
    · exact ⟨r, ⟨(hne _ hxp).trans hr.get, hr.execution⟩, hrest⟩
  entry q r hr := by
    by_cases hqp : q = p
    · subst hqp
      obtain ⟨-, r₀, hr₀, hexec, -⟩ := hp r hr
      rw [hexec]
      exact h.entry q r₀ hr₀
    · exact h.entry q r ((hne q hqp).symm.trans hr)
  reported q r hr hrep := by
    show (∃ e' ∈ (s.log ++ [Note.event e s.world.ledger]).flatMap Note.queued, _) ∨ _
    rw [queued_push]
    by_cases hqp : q = p
    · subst hqp
      obtain ⟨-, r₀, hr₀, hexec, -⟩ := hp r hr
      refine htold.imp (fun hres => ⟨e, List.mem_append_right _ (List.mem_singleton_self _), hres⟩) fun hall => ?_
      rw [hexec]
      exact hall r₀ hr₀
    · exact (h.reported q r ((hne q hqp).symm.trans hr) hrep).imp_left fun ⟨e', he', hres⟩ => ⟨e', List.mem_append_left _ he', hres⟩
  fresh q r hr hrep := by
    intro hspent
    by_cases hqp : q = p
    · subst hqp
      rw [(hp r hr).1] at hrep
      cases hrep
    · rcases spent_snoc hspent with hold | ⟨e', he', hbad⟩
      · exact h.fresh q r ((hne q hqp).symm.trans hr) hrep hold
      · obtain rfl := List.mem_singleton.mp he'
        have hq : e'.planId = some q := hbad.elim (fun h => h.2) fun h => h.2.2
        exact hqp (Option.some.inj (hq.symm.trans he))
  requests := h.requests
  bounded := h.bounded
  queue := by
    show (s.log ++ [Note.event e s.world.ledger]).flatMap Note.queued =
      (s.log ++ [Note.event e s.world.ledger]).flatMap Note.returned ++ (s.events ++ [e])
    rw [queued_push, returned_push, h.queue, List.append_assoc]
  truth := h.truth.snoc ht
  undeferred := h.undeferred

/-- an entry of the log that gives no answer about an open record -/
theorem Sound.append {n : Note} {events : List Event} (h : Sound s)
    (hfresh : ∀ q r, s.plans.get q = some r → r.reported = false → ∀ e ∈ n.queued, ¬ IsResult q e ∧ ¬ IsCleared q e)
    (hqueue : s.events ++ n.queued = n.returned ++ events) (ht : Truthful s.log n) :
    Sound { s with events := events, log := s.log ++ [n] } where
  ledger := h.ledger
  start := h.start
  known := h.known
  told i x hx hrel hcan := (h.told i x hx hrel hcan).imp_left fun ⟨e', he', hres⟩ => ⟨e', queued_snoc he', hres⟩
  running := h.running
  entry := h.entry
  reported q r hr hrep := (h.reported q r hr hrep).imp_left fun ⟨e', he', hres⟩ => ⟨e', queued_snoc he', hres⟩
  fresh q r hr hrep := by
    intro hspent
    rcases spent_snoc hspent with hold | ⟨e', he', hbad⟩
    · exact h.fresh q r hr hrep hold
    · exact hbad.elim (hfresh q r hr hrep e' he').1 (hfresh q r hr hrep e' he').2
  requests := h.requests
  bounded := h.bounded
  queue := by
    show (s.log ++ [n]).flatMap Note.queued = (s.log ++ [n]).flatMap Note.returned ++ events
    rw [List.flatMap_append, List.flatMap_append, List.flatMap_singleton, List.flatMap_singleton, h.queue, List.append_assoc,
      hqueue, List.append_assoc]
  truth := h.truth.snoc ht
  undeferred := h.undeferred

theorem Sound.push {e : Event} (h : Sound s) (ht : TrueEvent s.log e s.world.ledger)
    (hfresh : ∀ q r, s.plans.get q = some r → r.reported = false → ¬ IsResult q e ∧ ¬ IsCleared q e) :
    Sound (s.push e) := by
  refine h.append (n := .event e s.world.ledger) (fun q r hr hrep e' he' => ?_) rfl ht
  obtain rfl := List.mem_singleton.mp he'
  exact hfresh q r hr hrep

/-- the events are returned -/
theorem Sound.drain {l : Ledger} {start : ℕ} (h : Sound s) (ht : TruePoll s.log l start s.events) : Sound (s.drain l start) :=
  h.append (n := .polled l start s.events) (fun _ _ _ _ _ he => absurd he List.not_mem_nil) rfl ht

/-- an ended execution's record goes once it is answered -/
theorem Sound.pop (h : Sound s)
    (hover : ∀ r, s.plans.get p = some r → ∀ x, s.world.ledger[r.execution]? = some x → x.live = false)
    (hdone : ∀ r, s.plans.get p = some r → r.reported = true ∨ r.released = false) : Sound (s.popPlan p) where
  ledger := h.ledger
  start := h.start
  known i x hx hl := by
    refine (h.known i x hx hl).imp_left fun ⟨r, hr⟩ => ?_
    by_cases hxp : x.planId = p
    · subst hxp
      rw [hover r hr.get x (hr.execution ▸ hx)] at hl
      cases hl
    · exact ⟨r, (Dict.get_pop_ne hxp).trans hr.get, hr.execution⟩
  told i x hx hrel hcan := by
    rcases h.told i x hx hrel hcan with hres | ⟨r, hr, hreleased, hrep⟩
    · exact .inl hres
    · by_cases hxp : x.planId = p
      · subst hxp
        rcases hdone r hr.get with h1 | h1
        · rw [h1] at hrep
          cases hrep
        · rw [h1] at hreleased
          cases hreleased
      · exact .inr ⟨r, ⟨(Dict.get_pop_ne hxp).trans hr.get, hr.execution⟩, hreleased, hrep⟩
  running i x hx hrel hl := by
    obtain ⟨r, hr, hrest⟩ := h.running i x hx hrel hl
    by_cases hxp : x.planId = p
    · subst hxp
      rw [hover r hr.get x (hr.execution ▸ hx)] at hl
      cases hl
    · exact ⟨r, ⟨(Dict.get_pop_ne hxp).trans hr.get, hr.execution⟩, hrest⟩
  entry q r hr := h.entry q r (get_of_pop hr).2
  reported q r hr := h.reported q r (get_of_pop hr).2
  fresh q r hr := h.fresh q r (get_of_pop hr).2
  requests := h.requests
  bounded := h.bounded
  queue := h.queue
  truth := h.truth
  undeferred := h.undeferred

/-! ## staging and releasing -/

/-- nothing was answered about the plan for good, and it was not released -/
structure Unused (s : SdkArmHandle) (p : String) : Prop where
  spent : ¬ Spent p s.log
  released : ∀ r, s.plans.get p = some r → r.released = false

/-- a submission was taken: its live execution is recorded, or its lost reply is remembered -/
theorem Sound.submitted {req : TrajectoryRequest} {plans : Dict String Record} (h : Sound s)
    (hw : Onward (some (.submit req)) s.world w) (hreq : req.requestId = p) (hstart : req.start = .onRelease)
    (hplans : plans = s.plans ∨ ∃ i, plans = s.plans.set p { execution := i } ∧ Unused s p ∧
      ∃ x, w.ledger[i]? = some x ∧ x.planId = p)
    (hknown : ∀ (i : ℕ) (x : Executions.Entry), w.ledger[i]? = some x → x.live = true → x.planId = p →
      (∃ r, About plans p i r) ∨ p ∈ s.unknownStage.keys) : Sound { s with world := w, plans := plans } := by
  have hget : ∀ q, q ≠ p → plans.get q = s.plans.get q := by
    intro q hq
    rcases hplans with rfl | ⟨i, rfl, -⟩
    · rfl
    · exact Dict.get_set_ne hq
  -- an execution that is not of this plan was there before
  have hback : ∀ (i : ℕ) (x' : Executions.Entry), w.ledger[i]? = some x' → x'.planId = p ∧ x'.request.start = .onRelease ∧
      x'.released = false ∨ ∃ x, s.world.ledger[i]? = some x ∧ x.Later x' ∧ (x'.released = true → x.released = true) ∧
        (x'.cancelled = false → x.cancelled = false) := by
    intro i x' hx'
    cases hi : s.world.ledger[i]? with
    | none =>
      obtain ⟨hop, hrel, -⟩ := hw.change.new i x' hi hx'
      obtain rfl := Op.submit.inj (Option.some.inj hop)
      exact .inl ⟨hreq, hstart, hrel⟩
    | some x =>
      obtain ⟨y, hy, hlater, hr, -⟩ := hw.change.old i x hi
      obtain rfl := Option.some.inj (hy.symm.trans hx')
      refine .inr ⟨x, rfl, hlater, fun h0 => (hr h0).resolve_right fun ho => Op.noConfusion (Option.some.inj ho), fun h0 => ?_⟩
      cases hc : x.cancelled with
      | false => rfl
      | true =>
        rw [hlater.cancelled hc] at h0
        cases h0
  constructor
  · exact hw.sound h.ledger
  · intro i x' hx'
    rcases hback i x' hx' with ⟨-, hs, -⟩ | ⟨x, hi, hlater, -⟩
    · exact hs
    · rw [hlater.request]
      exact h.start i x hi
  · intro i x' hx' hl
    by_cases hxp : x'.planId = p
    · rw [hxp]
      exact hknown i x' hx' hl hxp
    · rcases hback i x' hx' with ⟨hp, -⟩ | ⟨x, hi, hlater, -⟩
      · exact absurd hp hxp
      · refine (h.known i x hi (hlater.live hl)).imp (fun ⟨r, hr⟩ => ⟨r, ?_⟩) fun hk => hlater.planId ▸ hk
        rw [hlater.planId] at hxp ⊢
        exact ⟨(hget _ hxp).trans hr.get, hr.execution⟩
  · intro i x' hx' hrel hcan
    rcases hback i x' hx' with ⟨-, -, hno⟩ | ⟨x, hi, hlater, hr, hc⟩
    · rw [hno] at hrel
      cases hrel
    · rw [hlater.planId]
      rcases h.told i x hi (hr hrel) (hc hcan) with hres | ⟨r, hr', hrest⟩
      · exact .inl hres
      · refine .inr ⟨r, ⟨?_, hr'.execution⟩, hrest⟩
        by_cases hxp : x.planId = p
        · rcases hplans with rfl | ⟨j, rfl, hunused, -⟩
          · exact hr'.get
          · rw [hunused.released r (hxp ▸ hr'.get)] at hrest
            exact absurd hrest.1 nofun
        · exact (hget _ hxp).trans hr'.get
  · intro i x' hx' hrel hl
    rcases hback i x' hx' with ⟨-, -, hno⟩ | ⟨x, hi, hlater, hr, hc⟩
    · rw [hno] at hrel
      cases hrel
    · rw [hlater.planId]
      obtain ⟨r, hr', hrest⟩ := h.running i x hi (hr hrel) (hlater.live hl)
      refine ⟨r, ⟨?_, hr'.execution⟩, hrest⟩
      by_cases hxp : x.planId = p
      · rcases hplans with rfl | ⟨j, rfl, hunused, -⟩
        · exact hr'.get
        · rw [hunused.released r (hxp ▸ hr'.get)] at hrest
          cases hrest
      · exact (hget _ hxp).trans hr'.get
  · intro q r hr
    have hold : s.plans.get q = some r → ∃ x', w.ledger[r.execution]? = some x' ∧ x'.planId = q := by
      intro hr
      obtain ⟨x, hx, hq⟩ := h.entry q r hr
      obtain ⟨x', hx', hlater, -⟩ := hw.change.old _ x hx
      exact ⟨x', hx', hlater.planId.trans hq⟩
    by_cases hqp : q = p
    · subst hqp
      rcases hplans with rfl | ⟨i, rfl, -, hx⟩
      · exact hold hr
      · obtain rfl := Option.some.inj (Dict.get_set_self.symm.trans hr)
        exact hx
    · exact hold ((hget q hqp).symm.trans hr)
  · intro q r hr hrep
    have hold : s.plans.get q = some r → (∃ e ∈ s.log.flatMap Note.queued, IsResult q e) ∨
        ∀ x', w.ledger[r.execution]? = some x' → x'.cancelled = true := by
      intro hr
      refine (h.reported q r hr hrep).imp_right fun hc x' hx' => ?_
      obtain ⟨x, hx, -⟩ := h.entry q r hr
      obtain ⟨y, hy, hlater, -⟩ := hw.change.old _ x hx
      obtain rfl := Option.some.inj (hy.symm.trans hx')
      exact hlater.cancelled (hc x hx)
    by_cases hqp : q = p
    · subst hqp
      rcases hplans with rfl | ⟨i, rfl, -⟩
      · exact hold hr
      · obtain rfl := Option.some.inj (Dict.get_set_self.symm.trans hr)
        cases hrep
    · exact hold ((hget q hqp).symm.trans hr)
  · intro q r hr hrep
    by_cases hqp : q = p
    · subst hqp
      rcases hplans with rfl | ⟨i, rfl, hunused, -⟩
      · exact h.fresh q r hr hrep
      · exact hunused.spent
    · exact h.fresh q r ((hget q hqp).symm.trans hr) hrep
  · exact h.requests
  · exact h.bounded
  · exact h.queue
  · exact h.truth
  · exact h.undeferred

/-- a release was taken, and the plan counts as released -/
theorem Sound.released (h : Sound s) (hw : Onward (some (.release r.execution)) s.world w) (hr : s.plans.get p = some r) :
    Sound ((s.setWorld w).setPlan p { r with released := true }) := by
  have hback : ∀ (i : ℕ) (x' : Executions.Entry), w.ledger[i]? = some x' → ∃ x, s.world.ledger[i]? = some x ∧ x.Later x' ∧
      (x'.released = true → x.released = true ∨ i = r.execution) ∧ (x'.cancelled = false → x.cancelled = false) := by
    intro i x' hx'
    cases hi : s.world.ledger[i]? with
    | none =>
      obtain ⟨hop, -⟩ := hw.change.new i x' hi hx'
      cases hop
    | some x =>
      obtain ⟨y, hy, hlater, hr, -⟩ := hw.change.old i x hi
      obtain rfl := Option.some.inj (hy.symm.trans hx')
      refine ⟨x, rfl, hlater, fun h0 => (hr h0).imp_right fun ho => (Op.release.inj (Option.some.inj ho)).symm, fun h0 => ?_⟩
      cases hc : x.cancelled with
      | false => rfl
      | true =>
        rw [hlater.cancelled hc] at h0
        cases h0
  obtain ⟨x₀, hx₀, hp₀⟩ := h.entry p r hr
  -- what was known of another record, and of this one
  have habout : ∀ {i : ℕ} {q : String} {r' : Record}, About s.plans q i r' → ∃ r'', About (s.plans.set p { r with released := true }) q i r'' ∧
      (r'.released = true → r''.released = true) ∧ r''.reported = r'.reported := by
    intro i q r' ha
    by_cases hqp : q = p
    · subst hqp
      obtain rfl := Option.some.inj (hr.symm.trans ha.get)
      exact ⟨_, ⟨Dict.get_set_self, ha.execution⟩, fun _ => rfl, rfl⟩
    · exact ⟨r', ⟨(Dict.get_set_ne hqp).trans ha.get, ha.execution⟩, id, rfl⟩
  have hrecord : ∀ {q : String} {r' : Record}, (s.plans.set p { r with released := true }).get q = some r' →
      ∃ r'', s.plans.get q = some r'' ∧ r'.execution = r''.execution ∧ r'.reported = r''.reported := by
    intro q r' hq
    by_cases hqp : q = p
    · subst hqp
      obtain rfl := Option.some.inj (Dict.get_set_self.symm.trans hq)
      exact ⟨r, hr, rfl, rfl⟩
    · exact ⟨r', (Dict.get_set_ne hqp).symm.trans hq, rfl, rfl⟩
  constructor
  · exact hw.sound h.ledger
  · intro i x' hx'
    obtain ⟨x, hi, hlater, -⟩ := hback i x' hx'
    rw [hlater.request]
    exact h.start i x hi
  · intro i x' hx' hl
    obtain ⟨x, hi, hlater, -⟩ := hback i x' hx'
    rw [hlater.planId]
    refine (h.known i x hi (hlater.live hl)).imp_left fun ⟨r', ha⟩ => ?_
    obtain ⟨r'', ha', -⟩ := habout ha
    exact ⟨r'', ha'⟩
  · intro i x' hx' hrel hcan
    obtain ⟨x, hi, hlater, hrel', hc⟩ := hback i x' hx'
    rw [hlater.planId]
    rcases hrel' hrel with hrel₀ | rfl
    · refine (h.told i x hi hrel₀ (hc hcan)).imp_right fun ⟨r', ha, h1, h2⟩ => ?_
      obtain ⟨r'', ha', h1', h2'⟩ := habout ha
      exact ⟨r'', ha', h1' h1, h2'.trans h2⟩
    · obtain rfl := Option.some.inj (hx₀.symm.trans hi)
      rw [hp₀]
      cases hrep : r.reported with
      | false => exact .inr ⟨_, ⟨Dict.get_set_self, rfl⟩, rfl, rfl⟩
      | true =>
        refine (h.reported p r hr hrep).imp_right fun hall => ?_
        have hcan₀ := hc hcan
        rw [hall x₀ hi] at hcan₀
        cases hcan₀
  · intro i x' hx' hrel hl
    obtain ⟨x, hi, hlater, hrel', -⟩ := hback i x' hx'
    rw [hlater.planId]
    rcases hrel' hrel with hrel₀ | rfl
    · obtain ⟨r', ha, h1⟩ := h.running i x hi hrel₀ (hlater.live hl)
      obtain ⟨r'', ha', h1', -⟩ := habout ha
      exact ⟨r'', ha', h1' h1⟩
    · obtain rfl := Option.some.inj (hx₀.symm.trans hi)
      rw [hp₀]
      exact ⟨_, ⟨Dict.get_set_self, rfl⟩, rfl⟩
  · intro q r' hq
    obtain ⟨r'', hr'', hexec, -⟩ := hrecord hq
    obtain ⟨x, hx, hxq⟩ := h.entry q r'' hr''
    obtain ⟨x', hx', hlater, -⟩ := hw.change.old _ x hx
    exact ⟨x', hexec ▸ hx', hlater.planId.trans hxq⟩
  · intro q r' hq hrep
    obtain ⟨r'', hr'', hexec, hrep'⟩ := hrecord hq
    refine (h.reported q r'' hr'' (hrep'.symm.trans hrep)).imp_right fun hall x' hx' => ?_
    obtain ⟨x, hi, hlater, -⟩ := hback _ x' hx'
    exact hlater.cancelled (hall x (hexec ▸ hi))
  · intro q r' hq hrep
    obtain ⟨r'', hr'', -, hrep'⟩ := hrecord hq
    exact h.fresh q r'' hr'' (hrep'.symm.trans hrep)
  · exact h.requests
  · exact h.bounded
  · exact h.queue
  · exact h.truth
  · exact h.undeferred

/-- the lost replies that are remembered change, but every live execution stays known -/
theorem Sound.unknown {unknown : Dict String TrajectoryRequest} (h : Sound s)
    (hkept : ∀ (i : ℕ) (x : Executions.Entry), s.world.ledger[i]? = some x → x.live = true →
      (∃ r, About s.plans x.planId i r) ∨ x.planId ∈ unknown.keys)
    (hreq : ∀ q r, unknown.get q = some r → r.requestId = q ∧ r.start = .onRelease) (hlen : unknown.entries.length ≤ 64) :
    Sound { s with unknownStage := unknown } :=
  ⟨h.ledger, h.start, hkept, h.told, h.running, h.entry, h.reported, h.fresh, hreq, hlen, h.queue, h.truth, h.undeferred⟩

end SdkArmHandle

end ArmControl.MultiArm
