import ArmControl.MultiArm.PairRules

/-!
# Retiring a pair

A pair that has ended owns the group until both cancels are confirmed.  A confirmation counts only under the
session that was recorded when the pair was staged.

* `Asked`          a cancel that waits has been asked for, in every reachable state;
* `Reports`        the session that an arm's `state()` gives;
* `Truthful`       a `plan_cleared` of the member's plan, under the arm's session;
* `Continues`      cancels and truthful answers;
* `Stuck`          an arm that waits for a session that is gone;
* `pair_retired`   members of the recorded sessions can be retired, a member of another session never is.
-/

namespace ArmControl.MultiArm.Retirement

open Coordinator

variable {σ α : Type} {g : Group} {h : Handles σ} {n : ℕ} {s t : Coordinator σ} {r : PairRun} {a : Side}

/-! ## what waits has been asked for -/

def AskedFor (r : PairRun) : Prop := ∀ a, r.pendingCancels a = true → r.cancellationRequested = true

def Asked (s : Coordinator σ) : Prop := ∀ r, s.run = some r → AskedFor r

theorem asked_note (e : Entry) : Effect.Keeps Asked (note e : M σ PUnit) := fun _ hs => hs

theorem asked_onWorld (m : EStateM Failure σ α) : Effect.Keeps Asked (onWorld m) :=
  Effect.Keeps.zoom (J := fun _ => True) (fun _ _ => Effect.ends_of (fun _ _ _ => trivial) fun _ _ _ => trivial)
    (fun _ _ => trivial) fun _ _ hs _ => hs

theorem asked_now : Effect.Keeps Asked (now h) := fun _ hs => hs

theorem asked_map {f : PairRun → PairRun} (hf : ∀ r, AskedFor r → AskedFor (f r)) (hs : Asked s) :
    Asked { s with run := s.run.map f } := by
  intro r hr
  obtain ⟨r', hr', rfl⟩ := Option.map_eq_some_iff.mp hr
  exact hf r' (hs r' hr')

theorem asked_updateRun {f : PairRun → PairRun} (hf : ∀ r, AskedFor r → AskedFor (f r)) :
    Effect.Keeps Asked (updateRun f : M σ PUnit) := fun _ hs => asked_map hf hs

theorem asked_move {f : PairRun → PairRun} (hf : ∀ r, AskedFor r → AskedFor (f r)) (next : PairLifecycle) :
    Effect.Keeps Asked (move next f : M σ PUnit) := by
  intro s hs r hr
  obtain ⟨r', hr', rfl⟩ := Option.map_eq_some_iff.mp hr
  exact hf r' (hs r' hr')

theorem asked_refuse (o : Option String) : Effect.Keeps Asked (refuse o : M σ PUnit) := by
  cases o with
  | none => exact Effect.keeps_pure _
  | some text => exact Effect.keeps_throw _

theorem asked_raising (x : Except Failure α) : Effect.Keeps Asked (raising x : M σ α) := by
  cases x with
  | ok a => exact Effect.keeps_pure _
  | error e => exact Effect.keeps_throw _

theorem asked_armState (a : Side) : Effect.Keeps Asked (armState h a) :=
  (asked_onWorld _).bind fun _ => asked_now.bind fun _ => Effect.keeps_pure _

theorem asked_states : Effect.Keeps Asked (states g h) :=
  (asked_armState _).bind fun _ => (asked_armState _).bind fun _ => asked_now.bind fun _ => (asked_refuse _).bind fun _ =>
    (asked_refuse _).bind fun _ => (asked_note _).bind fun _ => Effect.keeps_pure _

theorem asked_checkRun (run : PairRun) : Effect.Keeps Asked (checkRun g h run) :=
  asked_states.bind fun _ => (asked_refuse _).bind fun _ => asked_refuse _

/-- a handler of events that leaves nothing waiting unasked -/
def Asks (handler : String → Event → M σ PUnit) : Prop := ∀ armId e, Effect.Keeps Asked (handler armId e)

section
variable {handler : String → Event → M σ PUnit}

theorem asked_call (hh : Asks handler) (c : HandleCall) : Effect.Keeps Asked (call h handler c) := by
  refine (asked_note _).bind fun _ => Effect.keeps_get fun s hs => ?_
  unfold Effect.Holds
  rw [Effect.ends_bind, Effect.ends_set, Effect.ends_bind]
  have hdeliver : Effect.Keeps Asked (deliver handler (h.answer c s.world).1.events) :=
    Effect.Keeps.each fun x => (hh x.1 x.2).tryCatch fun _ => Effect.keeps_pure _
  have hworld : Asked { s with world := (h.answer c s.world).2 } := hs
  refine (hdeliver _ hworld).mono (fun _ t ht => ?_) fun _ _ ht => ht
  cases (h.answer c s.world).1.raised with
  | none => exact ht
  | some e => exact ht

theorem asked_sendCancel (hh : Asks handler) (run : PairRun) (a : Side) : Effect.Keeps Asked (sendCancel g h handler run a) :=
  Effect.Keeps.tryCatch ((asked_call hh _).bind fun _ => asked_updateRun (by exact fun _ hr => hr)) fun _ =>
    asked_updateRun (by exact fun _ hr => hr)

theorem asked_sendCancels (hh : Asks handler) : Effect.Keeps Asked (sendCancels g h handler) := by
  refine Effect.keeps_get fun s hs => ?_
  cases s.run with
  | none => exact hs
  | some run => exact Effect.Keeps.each (asked_sendCancel hh run) s hs

theorem asked_finish : Effect.Keeps Asked (finish h) := Effect.keeps_get fun s hs => asked_onWorld _ s hs

theorem asked_abort (hh : Asks handler) (next : PairLifecycle) (reason : String) (arm : Option Side) :
    Effect.Keeps Asked (abort g h handler next reason arm) := by
  refine Effect.keeps_get fun s hs => Effect.ends_ite (fun _ => ?_) fun _ => hs
  have hmove : ∀ t, Effect.Keeps Asked (move next (ending reason arm t) : M σ PUnit) :=
    fun t => asked_move (fun _ _ _ _ => rfl) next
  exact (asked_now.bind fun t => (hmove t).bind fun _ => (asked_sendCancels hh).bind fun _ => asked_finish) s hs

theorem asked_onCleared (run : PairRun) (a : Side) (e : Event) : Effect.Keeps Asked (onCleared run a e : M σ PUnit) := by
  refine Effect.Keeps.ite (Effect.Keeps.ite (asked_updateRun fun r hr b hb => ?_) (asked_updateRun (by exact fun _ hr => hr)))
    (Effect.keeps_pure _)
  replace hb : Function.update r.pendingCancels a false b = true := hb
  rcases eq_or_ne b a with rfl | hne
  · rw [Function.update_self] at hb
    cases hb
  · rw [Function.update_of_ne hne] at hb
    exact hr b hb

theorem asked_onStaged (hh : Asks handler) (run : PairRun) (a : Side) (e : Event) :
    Effect.Keeps Asked (onStaged g h handler run a e) := by
  refine Effect.Keeps.ite (asked_now.bind fun t => (asked_updateRun (by exact fun _ hr => hr)).bind fun _ => ?_) (Effect.keeps_pure _)
  exact Effect.Keeps.ite (asked_abort hh _ _ _) (Effect.Keeps.ite (asked_now.bind fun t => asked_move (by exact fun _ hr => hr) _)
    (Effect.keeps_pure _))

theorem asked_onResult (hh : Asks handler) (run : PairRun) (a : Side) (e : Event) :
    Effect.Keeps Asked (onResult g h handler run a e) := by
  refine Effect.Keeps.ite ((asked_updateRun (by exact fun _ hr => hr)).bind fun _ => asked_abort hh _ _ _)
    (Effect.Keeps.ite ((asked_updateRun (by exact fun _ hr => hr)).bind fun _ => ?_) (Effect.keeps_pure _))
  exact Effect.Keeps.ite (asked_now.bind fun t => (asked_move (by exact fun _ hr => hr) _).bind fun _ => asked_finish)
    (Effect.keeps_pure _)

theorem asked_onMemberEventWith (hh : Asks handler) : Asks (onMemberEventWith g h handler) := by
  intro armId e
  unfold onMemberEventWith
  cases g.sideOf armId with
  | none => exact Effect.keeps_throw _
  | some a =>
    refine Effect.keeps_get fun s hs => ?_
    cases s.run with
    | none => exact hs
    | some run =>
      refine (asked_note _).bind (fun _ => ?_) s hs
      unfold onEvent
      refine Effect.Keeps.ite (Effect.keeps_pure _) (Effect.Keeps.ite (asked_abort hh _ _ _)
        (Effect.Keeps.ite (asked_abort hh _ _ _) (Effect.Keeps.ite (Effect.keeps_pure _) ?_)))
      cases e.kind with
      | planCleared => exact asked_onCleared run a e
      | planStaged => exact asked_onStaged hh run a e
      | legResult => exact asked_onResult hh run a e
      | fault => exact Effect.keeps_pure _
      | other => exact Effect.keeps_pure _

end

theorem asked_onMemberEvent (n : ℕ) : Asks (onMemberEvent g h n) := by
  induction n with
  | zero => exact asked_onMemberEventWith fun _ _ => Effect.keeps_pure _
  | succ n ih => exact asked_onMemberEventWith ih

theorem asked_poll (a : Side) : Effect.Keeps Asked (poll g h n a) :=
  (asked_onWorld _).bind fun _ => Effect.Keeps.each fun e => asked_onMemberEvent n (g.name a) e

theorem asked_checkTimeouts : Effect.Keeps Asked (checkTimeouts g h n) := by
  have hh : Asks (onMemberEvent g h n) := asked_onMemberEvent n
  refine Effect.keeps_get fun s hs => ?_
  cases s.run with
  | none => exact hs
  | some run =>
    refine Effect.Keeps.ite (Effect.Keeps.bind (Effect.Keeps.tryCatch ((asked_checkRun run).bind fun _ => Effect.keeps_pure _)
      fun e => ?_) fun ok => ?_) (Effect.keeps_pure _) s hs
    · cases e with
      | valueError text => exact (asked_abort hh _ _ _).bind fun _ => Effect.keeps_pure _
      | other text => exact Effect.keeps_throw _
    · exact Effect.Keeps.ite (Effect.Keeps.ite (asked_now.bind fun t => Effect.Keeps.ite (asked_abort hh _ _ _)
        (Effect.keeps_pure _)) (Effect.keeps_pure _)) (Effect.keeps_pure _)

theorem asked_cancelPair (reason : String) : Effect.Keeps Asked (cancelPair g h n reason) := by
  refine Effect.keeps_get fun s hs => ?_
  cases s.run with
  | none => exact hs
  | some run =>
    exact Effect.Keeps.ite (asked_abort (asked_onMemberEvent n) _ _ _) (asked_sendCancels (asked_onMemberEvent n)) s hs

theorem asked_stageMembers (plan : BimanualPlan) (as : List Side) : Effect.Keeps Asked (stageMembers g h n plan as) := by
  induction as with
  | nil => exact Effect.keeps_pure _
  | cons a as ih =>
    refine Effect.Keeps.bind (Effect.Keeps.tryCatch ((asked_call (asked_onMemberEvent n) _).bind fun _ => Effect.keeps_pure _)
      fun e => (asked_abort (asked_onMemberEvent n) _ _ _).bind fun _ => Effect.keeps_pure _) fun ok => ?_
    exact Effect.Keeps.ite (Effect.keeps_get fun s hs => Effect.Keeps.ite ih (Effect.keeps_pure _) s hs) (Effect.keeps_pure _)

theorem asked_admitMember (plan : BimanualPlan) (both : Side → ArmControlState) (a : Side) :
    Effect.Keeps Asked (admitMember g plan both a : M σ PUnit) :=
  Effect.Keeps.ite (Effect.keeps_throw _) (asked_raising _)

theorem asked_stagePair (plan : BimanualPlan) : Effect.Keeps Asked (stagePair g h n plan) := by
  refine Effect.keeps_get fun s hs => ?_
  refine ((asked_refuse _).bind fun _ => asked_states.bind fun both => (Effect.Keeps.each fun a => asked_admitMember plan both a).bind
    fun _ => (asked_onWorld _).bind fun _ => asked_now.bind fun t => Effect.Keeps.bind (Effect.keeps_modify fun s _ => ?_) fun _ =>
      asked_stageMembers plan _) s hs
  intro r hr
  obtain rfl := Option.some.inj hr
  intro a ha
  cases ha

theorem asked_loadedMember (plan : BimanualPlan) (both : Side → ArmControlState) (a : Side) :
    Effect.Keeps Asked (loadedMember g plan both a : M σ PUnit) :=
  Effect.Keeps.ite (Effect.keeps_throw _) (asked_raising _)

theorem asked_checkRelease (run : PairRun) : Effect.Keeps Asked (checkRelease g h run) :=
  (asked_checkRun run).bind fun _ => asked_states.bind fun both =>
    (Effect.Keeps.each fun a => asked_loadedMember run.plan both a).bind fun _ => asked_onWorld _

theorem asked_releaseMembers (plan : BimanualPlan) (as : List Side) : Effect.Keeps Asked (releaseMembers g h n plan as) := by
  induction as with
  | nil => exact Effect.keeps_pure _
  | cons a as ih =>
    refine Effect.Keeps.bind (Effect.keeps_modify fun _ hs => hs) fun _ => (asked_call (asked_onMemberEvent n) _).bind fun _ =>
      asked_now.bind fun t => (asked_updateRun (by exact fun _ hr => hr)).bind fun _ => (asked_poll a).bind fun _ => ?_
    exact Effect.keeps_get fun s hs => Effect.Keeps.ite ih (Effect.keeps_pure _) s hs

theorem asked_withRelease {body : M σ PUnit} (hbody : Effect.Keeps Asked body) : Effect.Keeps Asked (withRelease h body) := by
  refine (asked_onWorld _).bind fun _ => Effect.Keeps.bind (Effect.Keeps.tryCatch (hbody.bind fun _ => Effect.keeps_pure _)
    fun _ => Effect.keeps_pure _) fun raised => (asked_onWorld _).bind fun swallowed => ?_
  cases raised with
  | none => exact Effect.keeps_pure _
  | some e => exact Effect.Keeps.ite (Effect.keeps_pure _) (Effect.keeps_throw _)

theorem asked_release (run : PairRun) : Effect.Keeps Asked (release g h n run) := by
  refine (asked_move (by exact fun _ hr => hr) _).bind fun _ => Effect.Keeps.bind (Effect.keeps_modify fun _ hs => hs) fun _ => ?_
  refine Effect.Keeps.tryCatch (asked_withRelease (asked_releaseMembers _ _)) fun e => Effect.keeps_get fun s hs => ?_
  exact asked_abort (asked_onMemberEvent n) _ _ _ s hs

theorem asked_executePair (pairId : String) : Effect.Keeps Asked (executePair g h n pairId) := by
  refine Effect.keeps_get fun s hs => ?_
  cases s.run with
  | none => exact hs
  | some run =>
    refine Effect.Keeps.ite (Effect.keeps_throw _) (Effect.Keeps.ite (Effect.keeps_pure _) (Effect.Keeps.ite
      (Effect.keeps_throw _) (Effect.Keeps.bind (Effect.Keeps.tryCatch ((asked_checkRelease run).bind fun _ =>
        Effect.keeps_pure _) fun e => ?_) fun ok => Effect.Keeps.ite (asked_release run) (Effect.keeps_pure _)))) s hs
    exact (asked_abort (asked_onMemberEvent n) _ _ _).bind fun _ => Effect.keeps_pure _

theorem asked_op (o : Op) : Effect.Keeps Asked (op g h n o) := by
  cases o with
  | stagePair plan => exact asked_stagePair plan
  | executePair pairId => exact asked_executePair pairId
  | cancelPair reason => exact asked_cancelPair reason
  | pump => exact (asked_poll _).bind fun _ => (asked_poll _).bind fun _ => asked_checkTimeouts
  | checkTimeouts => exact asked_checkTimeouts
  | onMemberEvent armId e => exact asked_onMemberEvent n armId e

theorem asked_run (g : Group) (h : Handles σ) (n : ℕ) (w : σ) (ops : List Op) : Asked (Run.run (step g h n) { world := w } ops) := by
  have hnew : Asked { world := w : Coordinator σ } := fun r hr => by cases hr
  refine Run.invariant (C := fun _ _ => True) hnew (fun t o _ ht => ?_) (Run.along_of_forall (fun _ _ => trivial) ops)
  exact Effect.holds_iff.mp (asked_op o t ht)

/-! ## truthful answers -/

/-- `state()` of the arm gives the session -/
def Reports (h : Handles σ) (w : σ) (a : Side) (session : Option String) : Prop :=
  ∃ st w', h.state a w = .ok st w' ∧ st.sessionId = session

/-- a cancelled member's `plan_cleared`, under the session that the arm reports -/
structure Truthful (g : Group) (h : Handles σ) (w : σ) (run : PairRun) (a : Side) (e : Event) : Prop where
  kind : e.kind = .planCleared
  ok : e.ok = true
  plan : e.planId = some (g.member run.plan a).planId
  session : ∃ session, e.session = some session ∧ Reports h w a session

/-- the worlds that the answers to cancels lead to -/
inductive After (h : Handles σ) (w₀ : σ) : σ → Prop where
  | refl : After h w₀ w₀
  | cancel {w : σ} (hw : After h w₀ w) (a : Side) (reason planId : String) :
    After h w₀ (h.answer (.cancel a reason planId) w).2

/-- a `plan_cleared` that a cancel delivers is under the session that its arm then reports -/
def Honest (g : Group) (h : Handles σ) : Prop :=
  ∀ b reason planId w armId e a, (armId, e) ∈ (h.answer (.cancel b reason planId) w).1.events → e.kind = .planCleared →
    g.sideOf armId = some a → ∃ session, e.session = some session ∧ Reports h (h.answer (.cancel b reason planId) w).2 a session

/-- `cancel_pair` calls, and the arms' truthful answers -/
inductive Continues (g : Group) (h : Handles σ) (n : ℕ) (s : Coordinator σ) : Coordinator σ → Prop where
  | refl : Continues g h n s s
  | cancel {t : Coordinator σ} (ht : Continues g h n s t) (reason : String) : Continues g h n s (step g h n t (.cancelPair reason))
  | answer {t : Coordinator σ} (ht : Continues g h n s t) {run : PairRun} (hrun : t.run = some run) {a : Side} {e : Event}
    (he : Truthful g h t.world run a e) : Continues g h n s (step g h n t (.onMemberEvent (g.name a) e))

/-- `stage_pair` does not refuse a pair for the one before -/
def Retired (g : Group) (s : Coordinator σ) : Prop :=
  ∀ plan, stageRefusal g s plan ≠ some "previous pair is active or cancellation is unconfirmed"

theorem retired_of_clear (hrun : s.run = some r) (hin : r.lifecycle.active = false) (hclear : ∀ a, r.pendingCancels a = false) :
    Retired g s := by
  intro plan
  have hfree : ¬ ∃ run ∈ s.run, run.lifecycle.active ∨ run.pendingCancels .first ∨ run.pendingCancels .second := by
    rintro ⟨run, hmem, hbusy⟩
    obtain rfl := Option.some.inj (hrun.symm.trans hmem)
    rw [hin, hclear, hclear] at hbusy
    rcases hbusy with h | h | h <;> cases h
  unfold stageRefusal
  rw [if_neg hfree]
  split_ifs <;> simp

theorem refused_of_pending (hrun : s.run = some r) (hpending : r.pendingCancels a = true) (plan : BimanualPlan) :
    stageRefusal g s plan = some "previous pair is active or cancellation is unconfirmed" := by
  unfold stageRefusal
  rw [if_pos ⟨r, hrun, .inr (by cases a <;> simp [hpending])⟩]

theorem sideOf_name (a : Side) : g.sideOf (g.name a) = some a := by
  unfold Group.sideOf
  cases a with
  | first => exact if_pos rfl
  | second => rw [if_neg g.distinct.symm, if_pos rfl]

/-! ## answers under the recorded session -/

theorem cancelPair_idles (hrun : s.run = some r) (hin : r.lifecycle.active = false) (reason : String) :
    ∃ as, Idles g as s (step g h n s (.cancelPair reason)) := by
  suffices hidles : Effect.Holds (Idles g (g.setOrder.filter fun a => r.pendingCancels a) s) (cancelPair g h n reason) s from
    ⟨_, Effect.holds_iff.mp hidles⟩
  unfold cancelPair Effect.Holds
  rw [Effect.ends_bind, Effect.ends_get, hrun]
  refine Effect.ends_ite (fun hactive => absurd (hin.symm.trans hactive) Bool.false_ne_true) fun _ => ?_
  exact (sendCancels_idles (quietly_onMemberEvent n) ((active_of_run hrun).symm ▸ hin) hrun).mono (fun _ _ ht => ht)
    fun _ _ hf => hf.elim

/-- what an event of an arm does after the end, in all -/
structure Answers (r : PairRun) (a : Side) (s t : Coordinator σ) : Prop where
  world : t.world = s.world
  run : ∃ p c, t.run = some { r with pendingCancels := p, cancelErrors := c } ∧ p a = false ∧
    ∀ b, b ≠ a → p b = r.pendingCancels b

theorem answer_clears (hrun : s.run = some r) (hin : r.lifecycle.active = false) (hask : AskedFor r) {e : Event} {w : σ}
    (he : Truthful g h w r a e) (hsession : r.pendingCancels a = true → e.session = some (r.sessions a)) :
    Answers r a s (step g h n s (.onMemberEvent (g.name a) e)) := by
  obtain ⟨session, hsome, -⟩ := he.session
  have hwith : ∀ handler, Effect.Holds (Answers r a s) (onMemberEventWith g h handler (g.name a) e) s := by
    intro handler
    unfold onMemberEventWith
    rw [sideOf_name]
    show Effect.Ends _ _ (get >>= _) s
    rw [Effect.ends_bind, Effect.ends_get, hrun]
    show Effect.Ends _ _ (note (.event a e) >>= fun _ => onEvent g h handler r a e) s
    unfold note onEvent
    rw [Effect.ends_bind, Effect.ends_modify]
    have hin' : (s.add (.event a e)).lifecycle.active = false := (active_of_run hrun).symm ▸ hin
    have hquiet : r.pendingCancels a = false → Answers r a s (s.add (.event a e)) := fun hclear =>
      ⟨rfl, r.pendingCancels, r.cancelErrors, hrun, hclear, fun _ _ => rfl⟩
    refine Effect.ends_ite (fun hbare => ?_) fun _ => Effect.ends_ite (fun hother => ?_) fun _ => Effect.ends_ite (fun hfault => ?_)
      fun _ => Effect.ends_ite (fun hplan => absurd he.plan hplan) fun _ => ?_
    · rw [hsome] at hbare
      cases hbare.2
    · refine abort_inactive hin' (hquiet ?_) _ _ _
      exact Bool.eq_false_iff.mpr fun hpending => hother.2 (hsession hpending)
    · rw [he.kind] at hfault
      cases hfault
    · rw [he.kind]
      refine Effect.ends_ite (fun _ => ?_) fun hunasked => hquiet (Bool.eq_false_iff.mpr fun hpending => hunasked (hask a hpending))
      rw [he.ok]
      refine ⟨rfl, Function.update r.pendingCancels a false, Function.update r.cancelErrors a none, ?_, Function.update_self _ _ _,
        fun b hb => Function.update_of_ne hb _ _⟩
      show Option.map _ s.run = _
      rw [hrun]
      rfl
  refine Effect.holds_iff.mp ?_
  cases n with
  | zero => exact hwith _
  | succ n => exact hwith _

/-- two truthful answers under the recorded sessions retire the pair -/
theorem retired_of_answers {reason : String} (hask : Asked s) (hrun : s.run = some r) (hin : r.lifecycle.active = false)
    (hstate : ∀ a, ∃ session, Reports h (step g h n s (.cancelPair reason)).world a session)
    (hsame : ∀ a r', (step g h n s (.cancelPair reason)).run = some r' → r'.pendingCancels a = true →
      Reports h (step g h n s (.cancelPair reason)).world a (r.sessions a)) :
    ∃ u, Continues g h n s u ∧ Retired g u := by
  have hask₁ : Asked (step g h n s (.cancelPair reason)) := Effect.holds_iff.mp (asked_op _ s hask)
  have hcont₁ : Continues g h n s (step g h n s (.cancelPair reason)) := .cancel .refl reason
  obtain ⟨as, hidles⟩ := cancelPair_idles (g := g) (h := h) (n := n) hrun hin reason
  generalize step g h n s (.cancelPair reason) = t at *
  obtain ⟨p, c, hrun₁⟩ := hidles.run
  rw [hrun, Option.map_some] at hrun₁
  -- each arm's answer, under the recorded session while it waits
  have hanswer : ∀ a, ∃ e, Truthful g h t.world { r with pendingCancels := p, cancelErrors := c } a e ∧
      (p a = true → e.session = some (r.sessions a)) := by
    intro a
    cases hp : p a with
    | true => exact ⟨⟨.planCleared, some (r.sessions a), some (g.member r.plan a).planId, true, none⟩,
        ⟨rfl, rfl, rfl, _, rfl, hsame a _ hrun₁ hp⟩, fun _ => rfl⟩
    | false =>
      obtain ⟨session, hsession⟩ := hstate a
      exact ⟨⟨.planCleared, some session, some (g.member r.plan a).planId, true, none⟩, ⟨rfl, rfl, rfl, _, rfl, hsession⟩, nofun⟩
  obtain ⟨e₁, he₁, hs₁⟩ := hanswer .first
  obtain ⟨e₂, he₂, hs₂⟩ := hanswer .second
  have hanswers₁ := answer_clears (n := n) (a := .first) hrun₁ hin (hask₁ _ hrun₁) he₁ hs₁
  have hask₂ : Asked (step g h n t (.onMemberEvent (g.name .first) e₁)) := Effect.holds_iff.mp (asked_op _ t hask₁)
  obtain ⟨p₂, c₂, hrun₂, hclear₁, hkept₁⟩ := hanswers₁.run
  have hcont₂ : Continues g h n s (step g h n t (.onMemberEvent (g.name .first) e₁)) := .answer hcont₁ hrun₁ he₁
  have hworld := hanswers₁.world
  generalize step g h n t (.onMemberEvent (g.name .first) e₁) = u at *
  have he₂' : Truthful g h u.world { r with pendingCancels := p₂, cancelErrors := c₂ } .second e₂ :=
    ⟨he₂.kind, he₂.ok, he₂.plan, hworld ▸ he₂.session⟩
  have hanswers₂ := answer_clears (n := n) (a := .second) hrun₂ hin (hask₂ _ hrun₂) he₂' fun hp =>
    hs₂ ((hkept₁ .second nofun).symm.trans hp)
  obtain ⟨p₃, c₃, hrun₃, hclear₂, hkept₂⟩ := hanswers₂.run
  refine ⟨_, .answer hcont₂ hrun₂ he₂', retired_of_clear hrun₃ hin fun a => ?_⟩
  cases a with
  | first => exact (hkept₂ .first nofun).trans hclear₁
  | second => exact hclear₂

/-! ## an arm of another session -/

/-- the arm waits for a session that is gone -/
structure Stuck (h : Handles σ) (w₀ : σ) (a : Side) (session : Option String) (s : Coordinator σ) : Prop where
  idle : s.lifecycle.active = false
  run : ∃ r, s.run = some r ∧ r.pendingCancels a = true ∧ r.sessions a = session
  world : After h w₀ s.world

variable {w₀ : σ} {session : Option String}

/-- no confirmation under the session -/
def Foreign (g : Group) (a : Side) (session : Option String) (armId : String) (e : Event) : Prop :=
  e.kind = .planCleared → g.sideOf armId = some a → ∃ other, e.session = some other ∧ other ≠ session

theorem stuck_event (handler : String → Event → M σ PUnit) {armId : String} {e : Event} (he : Foreign g a session armId e)
    (hs : Stuck h w₀ a session s) :
    Effect.Holds (fun t => Stuck h w₀ a session t ∧ t.world = s.world) (onMemberEventWith g h handler armId e) s := by
  obtain ⟨r, hrun, hpending, hsession⟩ := hs.run
  unfold onMemberEventWith
  cases hside : g.sideOf armId with
  | none => exact ⟨hs, rfl⟩
  | some b =>
    show Effect.Ends _ _ (get >>= _) s
    rw [Effect.ends_bind, Effect.ends_get, hrun]
    show Effect.Ends _ _ (note (.event b e) >>= fun _ => onEvent g h handler r b e) s
    unfold note onEvent
    rw [Effect.ends_bind, Effect.ends_modify]
    have hnoted : Stuck h w₀ a session (s.add (.event b e)) ∧ (s.add (.event b e)).world = s.world :=
      ⟨⟨hs.idle, hs.run, hs.world⟩, rfl⟩
    have hin : r.lifecycle.active = false := (active_of_run hrun) ▸ hs.idle
    have hkept : ∀ f : PairRun → PairRun, (f r).lifecycle = r.lifecycle → (f r).pendingCancels a = true →
        (f r).sessions a = r.sessions a →
        Effect.Ends (fun _ t => Stuck h w₀ a session t ∧ t.world = s.world) (fun _ t => Stuck h w₀ a session t ∧ t.world = s.world)
          (updateRun f) (s.add (.event b e)) := by
      intro f hlife hp hsess
      have hrun' : (s.run.map f) = some (f r) := by rw [hrun, Option.map_some]
      refine ⟨⟨?_, ⟨f r, hrun', hp, hsess.trans hsession⟩, hs.world⟩, rfl⟩
      show ((s.run.map f).map PairRun.lifecycle |>.getD .idle).active = false
      rw [hrun', Option.map_some, Option.getD_some, hlife]
      exact hin
    refine Effect.ends_ite (fun _ => hnoted) fun hbare => Effect.ends_ite (fun _ => abort_inactive hnoted.1.idle hnoted _ _ _)
      fun hown => Effect.ends_ite (fun _ => abort_inactive hnoted.1.idle hnoted _ _ _) fun _ =>
        Effect.ends_ite (fun _ => hnoted) fun _ => ?_
    cases hkind : e.kind with
    | planCleared =>
      have hother : b ≠ a := by
        rintro rfl
        obtain ⟨other, hsome, hne⟩ := he hkind hside
        refine hown ⟨by rw [hsome]; rfl, fun heq => hne ?_⟩
        rw [hsome] at heq
        exact (Option.some.inj heq).trans hsession
      refine Effect.ends_ite (fun _ => Effect.ends_ite (fun _ => hkept _ rfl ?_ rfl) fun _ => hkept _ rfl hpending rfl) fun _ => hnoted
      show Function.update r.pendingCancels b false a = true
      rw [Function.update_of_ne hother.symm]
      exact hpending
    | planStaged =>
      refine Effect.ends_ite (fun hstaging => ?_) fun _ => hnoted
      rw [hstaging.1] at hin
      cases hin
    | legResult =>
      refine Effect.ends_ite (fun hactive => ?_) fun _ => Effect.ends_ite (fun hexec => ?_) fun _ => hnoted
      · exact absurd (hin.symm.trans hactive.1) Bool.false_ne_true
      · rw [hexec.1] at hin
        cases hin
    | fault => exact hnoted
    | other => exact hnoted

theorem stuck_onMemberEvent (n : ℕ) {armId : String} {e : Event} (he : Foreign g a session armId e) (hs : Stuck h w₀ a session s) :
    Effect.Holds (fun t => Stuck h w₀ a session t ∧ t.world = s.world) (onMemberEvent g h n armId e) s := by
  cases n with
  | zero => exact stuck_event _ he hs
  | succ n => exact stuck_event _ he hs

/-- the arm never gives the session again -/
def Gone (h : Handles σ) (w₀ : σ) (a : Side) (session : Option String) : Prop := ∀ w, After h w₀ w → ¬ Reports h w a session

theorem stuck_call (hhonest : Honest g h) (hgone : Gone h w₀ a session) (b : Side) (reason planId : String)
    (hs : Stuck h w₀ a session s) :
    Effect.Holds (Stuck h w₀ a session) (call h (onMemberEvent g h n) (.cancel b reason planId)) s := by
  unfold call note Effect.Holds
  rw [Effect.ends_bind, Effect.ends_modify, Effect.ends_bind, Effect.ends_get, Effect.ends_bind, Effect.ends_set, Effect.ends_bind]
  have hworld : After h w₀ (h.answer (.cancel b reason planId) s.world).2 := .cancel hs.world b reason planId
  have hforeign : ∀ x ∈ (h.answer (.cancel b reason planId) s.world).1.events, Foreign g a session x.1 x.2 := by
    intro x hx hkind hside
    obtain ⟨other, hsome, hreports⟩ := hhonest b reason planId s.world x.1 x.2 a hx hkind hside
    exact ⟨other, hsome, fun heq => hgone _ hworld (heq ▸ hreports)⟩
  have hstart : Stuck h w₀ a session { s.add (.called (.cancel b reason planId)) with
      world := (h.answer (.cancel b reason planId) s.world).2 } := ⟨hs.idle, hs.run, hworld⟩
  refine Effect.Ends.mono (Effect.Ends.each hstart fun x hx t ht => ?_) (fun _ t ht => ?_) fun _ _ ht => ht
  · rw [Effect.ends_tryCatch]
    exact (stuck_onMemberEvent n (hforeign x hx) ht).mono (fun _ _ hu => hu.1) fun _ _ hu => hu.1
  · cases (h.answer (.cancel b reason planId) (s.add (.called (.cancel b reason planId))).world).1.raised with
    | none => exact ht
    | some e => exact ht

theorem stuck_errors (errors : PairRun → Side → Option String) (hs : Stuck h w₀ a session s) :
    Effect.Holds (Stuck h w₀ a session) (updateRun fun r => { r with cancelErrors := errors r }) s := by
  obtain ⟨r, hrun, hpending, hsession⟩ := hs.run
  have hrun' : (s.run.map fun r : PairRun => { r with cancelErrors := errors r }) = some { r with cancelErrors := errors r } := by
    rw [hrun, Option.map_some]
  refine ⟨?_, ⟨_, hrun', hpending, hsession⟩, hs.world⟩
  have hin : r.lifecycle.active = false := (active_of_run hrun) ▸ hs.idle
  show ((s.run.map _).map PairRun.lifecycle |>.getD .idle).active = false
  rw [hrun', Option.map_some, Option.getD_some]
  exact hin

theorem stuck_cancelPair (hhonest : Honest g h) (hgone : Gone h w₀ a session) (reason : String) (hs : Stuck h w₀ a session s) :
    Stuck h w₀ a session (step g h n s (.cancelPair reason)) := by
  refine Effect.holds_iff.mp ?_
  show Effect.Holds _ (cancelPair g h n reason) s
  obtain ⟨r, hrun, -⟩ := hs.run
  have hin : r.lifecycle.active = false := (active_of_run hrun) ▸ hs.idle
  unfold cancelPair Effect.Holds
  rw [Effect.ends_bind, Effect.ends_get, hrun]
  refine Effect.ends_ite (fun hactive => absurd (hin.symm.trans hactive) Bool.false_ne_true) fun _ => ?_
  unfold sendCancels
  rw [Effect.ends_bind, Effect.ends_get, hrun]
  refine Effect.Ends.each hs fun b _ t ht => ?_
  unfold sendCancel
  rw [Effect.ends_tryCatch, Effect.ends_bind]
  exact (stuck_call hhonest hgone b _ _ ht).mono (fun _ u hu => stuck_errors _ hu) fun _ u hu => stuck_errors _ hu

theorem stuck_continues (hhonest : Honest g h) (hgone : Gone h w₀ a session) (hs : Stuck h w₀ a session s)
    (hc : Continues g h n s t) : Stuck h w₀ a session t := by
  induction hc with
  | refl => exact hs
  | cancel _ reason ih => exact stuck_cancelPair hhonest hgone reason ih
  | answer _ _ he ih =>
    refine (Effect.holds_iff.mp (stuck_onMemberEvent n (fun _ hside => ?_) ih)).1
    obtain ⟨other, hsome, hreports⟩ := he.session
    obtain rfl := Option.some.inj ((sideOf_name _).symm.trans hside)
    exact ⟨other, hsome, fun heq => hgone _ ih.world (heq ▸ hreports)⟩

/-- **When a pair can be retired.**  After the end of the pair of a reachable coordinator, cancels and truthful answers
free the group once every member that waits answers under the session of its staging.  A member whose controller
reports another session from then on waits through every continuation, and every pair is refused. -/
theorem pair_retired (g : Group) (h : Handles σ) (n : ℕ) (w : σ) (ops : List Op) {run : PairRun}
    (hrun : (Run.run (step g h n) { world := w } ops).run = some run) (hend : run.lifecycle.active = false) :
    (∀ reason,
      (∀ a, ∃ session,
        Reports h (step g h n (Run.run (step g h n) { world := w } ops) (.cancelPair reason)).world a session) →
      (∀ a run', (step g h n (Run.run (step g h n) { world := w } ops) (.cancelPair reason)).run = some run' →
        run'.pendingCancels a = true →
          Reports h (step g h n (Run.run (step g h n) { world := w } ops) (.cancelPair reason)).world a (run.sessions a)) →
      ∃ u, Continues g h n (Run.run (step g h n) { world := w } ops) u ∧ Retired g u) ∧
    ∀ a, run.pendingCancels a = true → Honest g h →
      Gone h (Run.run (step g h n) { world := w } ops).world a (run.sessions a) →
      ∀ u, Continues g h n (Run.run (step g h n) { world := w } ops) u →
        ∀ plan, stageRefusal g u plan = some "previous pair is active or cancellation is unconfirmed" := by
  have hask := asked_run g h n w ops
  generalize Run.run (step g h n) { world := w } ops = s at *
  refine ⟨fun reason hstate hsame => retired_of_answers hask hrun hend hstate hsame, ?_⟩
  intro a hpending hhonest hgone u hu plan
  have hstuck : Stuck h s.world a (run.sessions a) s := ⟨(active_of_run hrun).symm ▸ hend, ⟨run, hrun, hpending, rfl⟩, .refl⟩
  obtain ⟨r, hr, hp, -⟩ := (stuck_continues hhonest hgone hstuck hu).run
  exact refused_of_pending hr hp plan

/-! ## a restart -/

def benchGroup : Group where
  name
    | .first => "a"
    | .second => "b"
  distinct := by decide
  named := by
    intro a
    cases a <;> decide
  stagingTimeoutS := 1
  stateTimeoutS := 1
  positive := by norm_num

def benchMember (arm planId : String) : ArmPlan :=
  ⟨arm, planId, .ok ⟨some planId, true, some "m", [.fin 0, .fin 1], [[.fin 0], [.fin 0]], [[.fin 0], [.fin 0]]⟩⟩

def benchPlan : BimanualPlan where
  pairId := "pair"
  left := benchMember "a" "pair:a"
  right := benchMember "b" "pair:b"
  arms := by decide
  plans := by decide

/-- an arm that rests, under a session that a restart changes -/
def benchState (session : String) : ArmControlState :=
  { armId := "", position := some [.fin 0], velocity := some [.fin 0], armed := some true, ready := some true, executing := some false,
    modeLaw := some "joint", stopped := some false, frozen := some false, sessionId := some session, modelToken := some "m",
    observedAt := some (.fin 0) }

/-- handles that say nothing; the first controller may restart once both plans are staged -/
def benchHandles (restarts : Bool) : Handles Bool where
  state a := do
    let restarted ← get
    pure (benchState (if a = .first ∧ restarted = true then "new" else "old"))
  pollEvents _ := pure []
  answer c w :=
    match c with
    | .stage .second _ => ({}, restarts)
    | _ => ({}, w)
  clock w := (0, w)
  admission _ _ := pure ⟨⟩
  enterRelease := pure ⟨⟩
  leaveRelease _ := pure false
  onPairResult _ := pure ⟨⟩

/-- a pair is staged and cancelled -/
def benchRun (restarts : Bool) : Coordinator Bool :=
  Run.run (step benchGroup (benchHandles restarts) 0) { world := false } [.stagePair benchPlan, .cancelPair "operator"]

theorem benchRun_run (restarts : Bool) : ∃ r, (benchRun restarts).run = some r ∧ r.lifecycle = .cancelled ∧
    r.pendingCancels .first = true ∧ (∀ a, r.sessions a = some "old") ∧ (benchRun restarts).world = restarts := by
  have hcheck : (benchRun restarts).run.map (fun r => decide (r.lifecycle = .cancelled) && r.pendingCancels .first &&
      decide (r.sessions .first = some "old") && decide (r.sessions .second = some "old")) = some true := by
    cases restarts <;> decide +kernel
  have hworld : (benchRun restarts).world = restarts := by cases restarts <;> decide +kernel
  obtain ⟨r, hr, hall⟩ := Option.map_eq_some_iff.mp hcheck
  simp only [Bool.and_eq_true, decide_eq_true_eq] at hall
  obtain ⟨⟨⟨hlife, hpending⟩, hfirst⟩, hsecond⟩ := hall
  refine ⟨r, hr, hlife, hpending, fun a => ?_, hworld⟩
  cases a with
  | first => exact hfirst
  | second => exact hsecond

/-- without a restart the pair can be retired -/
theorem pair_retired_bench : ∃ u, Continues benchGroup (benchHandles false) 0 (benchRun false) u ∧ Retired benchGroup u := by
  obtain ⟨r, hr, hlife, -, hsessions, -⟩ := benchRun_run false
  have hend : r.lifecycle.active = false := by
    rw [hlife]
    rfl
  have hworld : (step benchGroup (benchHandles false) 0 (benchRun false) (.cancelPair "again")).world = false := by decide +kernel
  refine (pair_retired benchGroup (benchHandles false) 0 false [.stagePair benchPlan, .cancelPair "operator"] hr hend).1 "again"
    (fun a => ⟨_, _, _, rfl, rfl⟩) fun a r' _ _ => ?_
  show Reports _ (step benchGroup (benchHandles false) 0 (benchRun false) (.cancelPair "again")).world a _
  rw [hworld, hsessions]
  exact ⟨_, _, rfl, by simp [benchState]⟩

/-- after a restart of the first controller every pair is refused -/
theorem restarted_unretired : ∃ ops r,
    (Run.run (step benchGroup (benchHandles true) 0) { world := false } ops).run = some r ∧ r.lifecycle = .cancelled ∧
      r.pendingCancels .first = true ∧
      ∀ u, Continues benchGroup (benchHandles true) 0 (Run.run (step benchGroup (benchHandles true) 0) { world := false } ops) u →
        ∀ plan, stageRefusal benchGroup u plan = some "previous pair is active or cancellation is unconfirmed" := by
  obtain ⟨r, hr, hlife, hpending, hsessions, hworld⟩ := benchRun_run true
  refine ⟨[.stagePair benchPlan, .cancelPair "operator"], r, hr, hlife, hpending, fun u hu plan => ?_⟩
  have hin : (benchRun true).lifecycle.active = false := by
    rw [active_of_run hr, hlife]
    rfl
  have hafter : ∀ w, After (benchHandles true) true w → w = true := by
    intro w hw
    induction hw with
    | refl => rfl
    | cancel _ _ _ _ ih => exact ih
  have hgone : Gone (benchHandles true) true .first (some "old") := by
    rintro w hw ⟨st, w', hstate, hsession⟩
    obtain rfl := hafter w hw
    obtain ⟨rfl, -⟩ := EStateM.Result.ok.inj hstate
    revert hsession
    decide
  have hhonest : Honest benchGroup (benchHandles true) := fun _ _ _ _ _ _ _ hmem => absurd hmem List.not_mem_nil
  have hstuck : Stuck (benchHandles true) true .first (some "old") (benchRun true) :=
    ⟨hin, ⟨r, hr, hpending, hsessions _⟩, by rw [hworld]; exact .refl⟩
  obtain ⟨r', hr', hp, -⟩ := (stuck_continues hhonest hgone hstuck hu).run
  exact refused_of_pending hr' hp plan

end ArmControl.MultiArm.Retirement
