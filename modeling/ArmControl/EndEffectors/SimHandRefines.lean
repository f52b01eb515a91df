import ArmControl.EndEffectors.SimHandSession
import ArmControl.Lib.Simulation

/-!
# A session of the simulated Hand is a session of the bridge

* `Mirrors`               the bridge that stands where the simulation stands: its actor waits or is inside the action, its
                          stop worker waits;
* `Plays`                 the steps of the bridge that play a step of the simulation: the client's steps are the same, a tick
                          is played by the two workers at the time of the tick;
* `sim_session_is_real`   **every session of the simulation is one of the bridge, answer by answer, and its log is fair.**
-/

namespace ArmControl.EndEffectors
open Rt Run History

/-- the bridge's admission where the simulation's is `h`, after `serial` stops -/
def SimAdmission.real (h : SimAdmission) (serial : ℕ) : HandAdmission where
  pending := h.pending.getD {}
  epoch := h.epoch
  connected := true
  client := h.client
  acting := h.acting
  dispatchCommitted := h.dispatchCommitted
  stopping := h.stopping
  stopSerial := serial

theorem SimAdmission.real_admit {h : SimAdmission} (hp : ∀ a, h.pending = some a → a.kind ≠ .none) (serial : ℕ) (a : HandAction)
    {fresh fresh' : Bool} (hf : h.acting = false → fresh' = fresh) :
    (h.real serial).admitAction a fresh' = ((h.admitAction a fresh).1, (h.admitAction a fresh).2.real serial) := by
  have hbusy : ((h.real serial).acting || (h.real serial).pending.kind != .none) = (h.acting || h.pending.isSome) := by
    unfold SimAdmission.real
    cases hq : h.pending with
    | none => rfl
    | some b =>
      have hb := bne_iff_ne.mpr (hp b hq)
      show (h.acting || b.kind != .none) = (h.acting || true)
      rw [hb]
  unfold HandAdmission.admitAction SimAdmission.admitAction
  rw [hbusy]
  cases hclient : h.client with
  | false => simp [SimAdmission.real, hclient]
  | true =>
    cases hstop : h.stopping with
    | true => simp [SimAdmission.real, hclient, hstop]
    | false =>
      by_cases htoken : a.token = h.epoch
      · cases hacting : h.acting with
        | true => simp [SimAdmission.real, hclient, hstop, htoken, hacting]
        | false =>
          rw [hf hacting]
          cases hpending : h.pending with
          | some b => simp [SimAdmission.real, hclient, hstop, htoken, hacting, hpending]
          | none => cases fresh <;> simp [SimAdmission.real, hclient, hstop, htoken, hacting, hpending]
      · simp [SimAdmission.real, hclient, hstop, htoken]

namespace SimHandBridge

/-! ## the relation -/

/-- the results are the same, and what the client has seen of them -/
structure SameResults (s : SimHandBridge) (t : HandBridge) : Prop where
  graspSeq : t.graspSeq = s.graspSeq
  graspOk : t.graspOk = s.graspOk
  seenGrasp : t.seenGrasp = s.seenGrasp
  doneSeq : t.doneSeq = s.doneSeq
  doneToken : t.doneToken = s.doneToken
  doneOk : t.doneOk = s.doneOk
  seenDone : t.seenDone = s.seenDone

structure Mirrors (s : SimHandBridge) (t : HandBridge) : Prop where
  admission : ∃ serial, t.admission = s.adm.real serial
  session : t.hand = true ∧ t.handSession = true
  stopper : t.stopper = .wait
  idle : s.acting = none → t.actor = .wait ∨ t.actor = .take
  inside : ∀ a, s.acting = some a → t.actor = .acting a
  serving : t.serving = s.serving
  results : SameResults s t
  real : s.acting = none → t.haveReal = s.haveReal ∧ (s.haveReal = true → t.realT = s.realT)

/-- a step of one of the workers at a given time, on a session that holds and with a stop that succeeds -/
def Working (now : ℚ) : HandBridge.Event → Prop
  | .actor env => env.connects = true ∧ env.action ≠ .lost ∧ env.state ≠ none ∧ env.now = now
  | .stopper ok => ok = true
  | .serve _ => False

/-- the steps of the bridge that play a step of the simulation -/
inductive Plays : Event → List HandBridge.Event → Prop
  | connect : Plays .connect [.serve .connect]
  | gstop : Plays .gstop [.serve .gstop]
  | command (a : HandAction) (parsed : a.kind ≠ .none) (now : ℚ) : Plays (.command a parsed now) [.serve (.command a now)]
  | poll : Plays .poll [.serve .pollGrasp, .serve .pollDone]
  | disconnect : Plays .disconnect [.serve .disconnect]
  | sample (positions efforts : List Value) (now : ℚ) (block : List HandBridge.Event) (working : ∀ e ∈ block, Working now e) :
      Plays (.sample positions efforts now) block

/-- the workers answer nothing -/
theorem outputs_working {now : ℚ} {block : List HandBridge.Event} (h : ∀ e ∈ block, Working now e) (t : HandBridge) :
    outputs HandBridge.step HandBridge.replies t block = [] := by
  induction block generalizing t with
  | nil => rfl
  | cons e block ih =>
    unfold outputs
    rw [ih fun e' he' => h e' (List.mem_cons_of_mem e he'), List.append_nil]
    cases e with
    | serve c => exact (h _ List.mem_cons_self).elim
    | actor env => rfl
    | stopper ok => rfl

variable {s : SimHandBridge} {t : HandBridge}

/-! ## the client's steps -/

theorem Mirrors.connect (m : Mirrors s t) : Mirrors s.connect t.connect where
  admission := by
    obtain ⟨serial, h⟩ := m.admission
    refine ⟨serial, ?_⟩
    show ({ t.admission.cancel with client := true } : HandAdmission) = _
    rw [h]
    rfl
  session := m.session
  stopper := m.stopper
  idle := m.idle
  inside := m.inside
  serving := rfl
  results := { m.results with seenGrasp := m.results.graspSeq, seenDone := m.results.doneSeq }
  real := m.real

theorem Mirrors.gstop (m : Mirrors s t) : Mirrors s.gstop t.gstop where
  admission := by
    obtain ⟨serial, h⟩ := m.admission
    refine ⟨serial + 1, ?_⟩
    show t.admission.requestStop = _
    rw [h]
    rfl
  session := m.session
  stopper := m.stopper
  idle := m.idle
  inside := m.inside
  serving := m.serving
  results := { m.results with }
  real _ := ⟨rfl, nofun⟩

theorem Mirrors.fresh (m : Mirrors s t) (h : s.acting = none) (now : ℚ) : t.fresh now = s.fresh now := by
  obtain ⟨hreal, htime⟩ := m.real h
  unfold HandBridge.fresh SimHandBridge.fresh
  rw [hreal]
  cases hr : s.haveReal with
  | false => rfl
  | true => rw [htime hr]

/-- both sides answer a command alike -/
theorem Mirrors.admit (m : Mirrors s t) (h : Inv s) (a : HandAction) (now : ℚ) :
    ∃ serial, t.admission.admitAction a (t.fresh now) =
      ((s.adm.admitAction a (s.fresh now)).1, (s.adm.admitAction a (s.fresh now)).2.real serial) := by
  obtain ⟨serial, hadm⟩ := m.admission
  refine ⟨serial, ?_⟩
  rw [hadm]
  refine SimAdmission.real_admit (fun b hb => (h.pending b hb).1) serial a fun hacting => m.fresh ?_ now
  rw [h.acting] at hacting
  exact Option.isNone_iff_eq_none.mp (Option.isSome_eq_false_iff.mp hacting)

theorem Mirrors.command (m : Mirrors s t) (h : Inv s) (a : HandAction) (now : ℚ) : Mirrors (s.command a now) (t.command a now) := by
  obtain ⟨serial, he⟩ := m.admit h a now
  unfold HandBridge.command SimHandBridge.command
  rw [he]
  rcases admit_cases s.adm a (s.fresh now) with ⟨r, hr⟩ | ⟨-, -, -, -, hr⟩
  · rw [hr]
    exact m
  · rw [hr]
    exact ⟨⟨serial, rfl⟩, m.session, m.stopper, m.idle, m.inside, m.serving, { m.results with }, m.real⟩

theorem Mirrors.pollGrasp (m : Mirrors s t) : Mirrors s.pollGrasp t.pollGrasp := by
  unfold HandBridge.pollGrasp SimHandBridge.pollGrasp
  rw [m.results.graspSeq, m.results.seenGrasp]
  split_ifs
  · exact m
  · exact ⟨m.admission, m.session, m.stopper, m.idle, m.inside, m.serving, { m.results with graspSeq := rfl, seenGrasp := rfl }, m.real⟩

theorem Mirrors.pollDone (m : Mirrors s t) : Mirrors s.pollDone t.pollDone := by
  unfold HandBridge.pollDone SimHandBridge.pollDone
  rw [m.results.doneSeq, m.results.seenDone]
  split_ifs
  · exact m
  · exact ⟨m.admission, m.session, m.stopper, m.idle, m.inside, m.serving, { m.results with doneSeq := rfl, seenDone := rfl }, m.real⟩

/-- the bridge's log is its own -/
theorem Mirrors.noted (m : Mirrors s t) (o : Obs) : Mirrors s (t.note o) :=
  ⟨m.admission, m.session, m.stopper, m.idle, m.inside, m.serving, { m.results with }, m.real⟩

theorem Mirrors.cancel (m : Mirrors s t) : Mirrors { s with adm := s.adm.cancel } t.cancel := by
  obtain ⟨serial, h⟩ := m.admission
  refine ⟨⟨serial, ?_⟩, m.session, m.stopper, m.idle, m.inside, m.serving, { m.results with }, m.real⟩
  show t.admission.cancel = _
  rw [h]
  rfl

theorem Mirrors.disconnect (m : Mirrors s t) : Mirrors s.disconnect t.disconnect := by
  obtain ⟨serial, hadm⟩ := m.admission
  have gone : Mirrors ({ s with serving := false, adm := { s.adm with client := false } }.note .clientLost)
      { t with serving := false, admission := { t.admission with client := false } } :=
    ⟨⟨serial, by rw [hadm]; rfl⟩, m.session, m.stopper, m.idle, m.inside, rfl, { m.results with }, m.real⟩
  have hflags : (t.admission.dispatchCommitted || t.admission.stopping) = (s.adm.dispatchCommitted || s.adm.stopping) := by
    rw [hadm]
    rfl
  refine Mirrors.noted ?_ _
  show Mirrors (if (s.adm.dispatchCommitted || s.adm.stopping) = true then _ else _)
    (if (t.admission.dispatchCommitted || t.admission.stopping) = true then _ else _)
  rw [hflags]
  split_ifs
  · exact gone.gstop
  · exact gone.cancel

/-! ## the plant's steps -/

/-- the bridge's workers come from one state to another at one time -/
def Works (now : ℚ) (t t' : HandBridge) : Prop :=
  ∃ block, (∀ e ∈ block, Working now e) ∧ run HandBridge.step t block = t'

theorem Works.refl (now : ℚ) (t : HandBridge) : Works now t t := ⟨[], by simp, rfl⟩

theorem Works.trans {now : ℚ} {t t' t'' : HandBridge} (h : Works now t t') (h' : Works now t' t'') : Works now t t'' := by
  obtain ⟨b, hb, rfl⟩ := h
  obtain ⟨b', hb', rfl⟩ := h'
  refine ⟨b ++ b', fun e he => ?_, run_append ..⟩
  rcases List.mem_append.mp he with he | he
  · exact hb e he
  · exact hb' e he

theorem Works.one {now : ℚ} {e : HandBridge.Event} (he : Working now e) (t : HandBridge) : Works now t (t.step e) :=
  ⟨[e], by simpa using he, rfl⟩

theorem returned_ne_lost (ok : Bool) : ActionEnd.returned ok ≠ .lost := by
  intro h
  cases h

/-- what the actor is told at a time, unless a call of the device matters -/
def quietly (now : ℚ) : ActorEnv := { state := some ⟨0, .zero, false⟩, now := now }

theorem working_quietly (now : ℚ) : Working now (.actor (quietly now)) := ⟨rfl, returned_ne_lost _, nofun, rfl⟩

/-- an idle actor looks for an action -/
theorem awake (now : ℚ) (hhand : t.hand = true) (hidle : t.actor = .wait ∨ t.actor = .take) : Works now t { t with actor := .take } := by
  rcases hidle with h | h
  · have he : t.step (.actor (quietly now)) = { t with actor := .take } := by
      show t.actorStep (quietly now) = _
      unfold HandBridge.actorStep HandBridge.wake
      rw [h, hhand]
      rfl
    exact he ▸ Works.one (working_quietly now) t
  · have he : { t with actor := .take } = t := by rw [← h]
    exact he ▸ Works.refl now t

/-- the stop worker ends a stop that meets no action -/
theorem stops (now : ℚ) (hpc : t.stopper = .wait) (hsession : t.handSession = true) (hstop : t.admission.stopping = true)
    (hacting : t.admission.acting = false) :
    Works now t { t with
      admission := { t.admission with stopping := false, stopRetriedOk := t.admission.stopFault }, haveReal := false
      log := t.log ++ [Obs.stopBegan] ++ [Obs.stopEnded true true] } := by
  have h₁ : t.step (.stopper true) =
      { t with stopper := .calling t.admission.stopSerial false true, log := t.log ++ [Obs.stopBegan] } := by
    show t.stopperStep true = _
    unfold HandBridge.stopperStep HandBridge.beginStop
    rw [hpc]
    dsimp only
    rw [if_pos hstop, hsession, hacting]
    rfl
  have h₂ : (t.step (.stopper true)).step (.stopper true) = { t with
      admission := { t.admission with stopping := false, stopRetriedOk := t.admission.stopFault }, haveReal := false
      log := t.log ++ [Obs.stopBegan] ++ [Obs.stopEnded true true] } := by
    rw [h₁]
    show HandBridge.finishStop _ _ _ _ = _
    unfold HandBridge.finishStop HandAdmission.finishStop
    dsimp only
    rw [if_neg (by simp [hacting]), hstop]
    simp [HandBridge.note, hpc]
  have hok : Working now (.stopper true) := rfl
  exact h₂ ▸ (Works.one hok t).trans (Works.one hok _)

/-- the bridge after an action has left the device -/
def left (t : HandBridge) (a : HandAction) : HandBridge :=
  { t with admission := t.admission.endAction, haveReal := false, actor := .wait }.note (.ended a)

/-- and after its result was kept for the client -/
def kept (t : HandBridge) (a : HandAction) (ok : Bool) : HandBridge :=
  { left t a with doneToken := a.token, doneOk := ok, doneSeq := t.doneSeq + 1 }.note (.done a ok)

/-- an action that was overtaken leaves without a result -/
theorem finishAction_returned (a : HandAction) (ok : Bool) :
    t.finishAction a (.returned ok) =
      if t.admission.current a then
        if a.kind = .grasp then { kept t a ok with graspOk := ok, graspSeq := t.graspSeq + 1 } else kept t a ok
      else left t a := by
  have hok : (ActionEnd.returned ok == .returned true) = ok := by cases ok <;> rfl
  unfold HandBridge.finishAction
  simp only [if_neg (returned_ne_lost ok), hok]
  -- the session holds, so the currency is what it was
  show (if (a.kind == .grasp && t.admission.current a) = true then
      { (if t.admission.current a = true then kept t a ok else left t a) with
        graspOk := ok, graspSeq := (if t.admission.current a = true then kept t a ok else left t a).graspSeq + 1 }
    else if t.admission.current a = true then kept t a ok else left t a) = _
  cases t.admission.current a with
  | false =>
    rw [Bool.and_false]
    rfl
  | true =>
    rw [Bool.and_true, if_pos rfl, if_pos rfl]
    by_cases hk : a.kind = .grasp
    · rw [if_pos hk, if_pos (beq_iff_eq.mpr hk)]
      rfl
    · rw [if_neg hk, if_neg (fun h => hk (beq_iff_eq.mp h))]

/-- the actor comes out of the device -/
theorem leaves (now : ℚ) {a : HandAction} (h : t.actor = .acting a) (ok : Bool) : Works now t (t.finishAction a (.returned ok)) := by
  have he : t.step (.actor { quietly now with action := .returned ok }) = t.finishAction a (.returned ok) := by
    show t.actorStep _ = _
    unfold HandBridge.actorStep
    rw [h]
  have hw : Working now (.actor { quietly now with action := .returned ok }) := ⟨rfl, returned_ne_lost ok, nofun, rfl⟩
  exact he ▸ Works.one hw t

theorem Mirrors.left (m : Mirrors s t) (a : HandAction) :
    Mirrors ({ s with
      acting := none, adm := { s.adm with acting := false, dispatchCommitted := false }, haveReal := false }.note (.ended a)) (left t a) where
  admission := by
    obtain ⟨serial, h⟩ := m.admission
    refine ⟨serial, ?_⟩
    show t.admission.endAction = _
    rw [h]
    rfl
  session := m.session
  stopper := m.stopper
  idle _ := .inl rfl
  inside := nofun
  serving := m.serving
  results := { m.results with }
  real _ := ⟨rfl, nofun⟩

theorem Mirrors.current (m : Mirrors s t) (a : HandAction) : t.admission.current a = s.adm.current a := by
  obtain ⟨serial, h⟩ := m.admission
  rw [h]
  rfl

theorem Mirrors.finish (m : Mirrors s t) (a : HandAction) (ok : Bool) : Mirrors (s.finish a ok) (t.finishAction a (.returned ok)) := by
  have hleft := m.left a
  rw [finishAction_returned, m.current a]
  unfold SimHandBridge.finish
  dsimp only
  show Mirrors (if s.adm.current a = true then _ else _) _
  have r := m.results
  split_ifs
  · exact ⟨hleft.admission, hleft.session, hleft.stopper, hleft.idle, hleft.inside, hleft.serving,
      ⟨congrArg (· + 1) r.graspSeq, rfl, r.seenGrasp, congrArg (· + 1) r.doneSeq, rfl, rfl, r.seenDone⟩, hleft.real⟩
  · exact ⟨hleft.admission, hleft.session, hleft.stopper, hleft.idle, hleft.inside, hleft.serving,
      ⟨r.graspSeq, r.graspOk, r.seenGrasp, congrArg (· + 1) r.doneSeq, rfl, rfl, r.seenDone⟩, hleft.real⟩
  · exact hleft

/-- the stop worker is done -/
theorem Mirrors.stopped (m : Mirrors s t) (hstop : s.adm.stopping = true) (hacting : s.adm.acting = false)
    (hcommitted : s.adm.dispatchCommitted = false) (hnone : s.acting = none) (width : Value) (now : ℚ) :
    ∃ t', Works now t t' ∧ Mirrors (s.endStop width) t' := by
  obtain ⟨serial, hadm⟩ := m.admission
  have hworks := stops (t := t) now m.stopper m.session.2 (by rw [hadm]; exact hstop) (by rw [hadm]; exact hacting)
  refine ⟨_, hworks, ⟨⟨serial, ?_⟩, m.session, m.stopper, fun _ => m.idle hnone, nofun, m.serving, { m.results with }, fun _ => ⟨rfl, nofun⟩⟩⟩
  show ({ t.admission with stopping := false, stopRetriedOk := t.admission.stopFault } : HandAdmission) = SimAdmission.real _ serial
  rw [hadm]
  unfold SimAdmission.real SimHandBridge.endStop
  simp [SimHandBridge.note, hacting, hcommitted]

/-- the two workers end a stop -/
theorem Mirrors.endStop (m : Mirrors s t) (h : Inv s) (hstop : s.adm.stopping = true) (width : Value) (now : ℚ) :
    ∃ t', Works now t t' ∧ Mirrors (s.endStop width) t' := by
  cases ha : s.acting with
  | none =>
    have hacting : s.adm.acting = false := by
      rw [h.acting, ha]
      rfl
    exact m.stopped hstop hacting (h.committed.trans hacting) ha width now
  | some a =>
    -- the action comes out first, and it was overtaken
    have hcurrent : t.admission.current a = false := by
      rw [m.current a, Bool.eq_false_iff]
      intro hc
      have hgeneration : a.generation = s.adm.epoch := beq_iff_eq.mp (Bool.and_eq_true_iff.mp hc).2
      rw [((h.running a ha).2 hgeneration).1] at hstop
      cases hstop
    have hout := leaves now (m.inside a ha) true
    rw [finishAction_returned, hcurrent] at hout
    obtain ⟨t', hworks, hm⟩ := (m.left a).stopped hstop rfl rfl rfl width now
    exact ⟨t', hout.trans hworks, hm.admission, hm.session, hm.stopper, hm.idle, hm.inside, hm.serving, { hm.results with }, hm.real⟩

/-! ## a sample -/

/-- an action enters the device -/
theorem enters (now : ℚ) {h h' h'' : HandAdmission} {a : HandAction} (hadm : t.admission = h) (hkind : a.kind ≠ .none)
    (htake : h.take = (a, h')) (hbegin : h'.beginAction a = (true, h'')) (hnew : (h.acting, h'.acting) = (false, true)) :
    Works now { t with actor := .take }
      { t with admission := h'', actor := .acting a, log := t.log ++ [Obs.taken a] ++ [Obs.dispatched a] } := by
  obtain ⟨hout, hin⟩ := Prod.mk.inj hnew
  have h₁ : HandBridge.step { t with actor := .take } (.actor (quietly now)) =
      { t with admission := h', actor := .carry a, log := t.log ++ [Obs.taken a] } := by
    show HandBridge.takeAction _ = _
    unfold HandBridge.takeAction
    dsimp only
    rw [hadm, htake]
    dsimp only
    rw [hout, hin, if_neg hkind]
    rfl
  have h₂ : HandBridge.step { t with admission := h', actor := .carry a, log := t.log ++ [Obs.taken a] } (.actor (quietly now)) =
      { t with admission := h'', actor := .acting a, log := t.log ++ [Obs.taken a] ++ [Obs.dispatched a] } := by
    show HandBridge.dispatch _ _ = _
    unfold HandBridge.dispatch
    dsimp only
    rw [hbegin]
    rfl
  have hone := Works.one (working_quietly now) { t with actor := .take }
  rw [h₁] at hone
  exact hone.trans (h₂ ▸ Works.one (working_quietly now) _)

theorem Mirrors.startPending (m : Mirrors s t) (h : Inv s) {a : HandAction} (hp : s.adm.pending = some a) (hnone : s.acting = none)
    (width : Value) (now : ℚ) : ∃ t', Works now t t' ∧ Mirrors (s.startPending width now) t' := by
  obtain ⟨hkind, hclient, hacting, hstop, hgeneration, -, -⟩ := h.pending a hp
  obtain ⟨serial, hadm⟩ := m.admission
  have htake : (s.adm.real serial).take =
      (a, ({ s.adm with pending := none, acting := true, dispatchCommitted := false } : SimAdmission).real serial) := by
    unfold HandAdmission.take SimAdmission.real HandAdmission.current
    simp [hp, hkind, hclient, hacting, hstop, hgeneration]
  have hbegin : (({ s.adm with pending := none, acting := true, dispatchCommitted := false } : SimAdmission).real serial).beginAction a =
      (true, ({ s.adm with pending := none, acting := true, dispatchCommitted := true } : SimAdmission).real serial) := by
    unfold HandAdmission.beginAction SimAdmission.real HandAdmission.current
    simp [hclient, hgeneration]
  have hworks := (awake now m.session.1 (m.idle hnone)).trans (enters now hadm hkind htake hbegin (by rw [← hacting]; rfl))
  refine ⟨_, hworks, ?_⟩
  unfold SimHandBridge.startPending
  rw [take_pending h hp]
  refine ⟨⟨serial, rfl⟩, m.session, m.stopper, nofun, ?_, m.serving, { m.results with }, nofun⟩
  intro b hb
  obtain rfl := Option.some.inj hb
  rfl

/-- what `readOnce` returns where the simulation measures a usable width, or one that is not -/
def reading (t : HandBridge) (ok grasped : Bool) : GripperState := ⟨t.robotSampleTime + 1, if ok then .zero else ⟨0x7FF8000000000000⟩, grasped⟩

theorem usable_reading (ok grasped : Bool) : HandBridge.usable (reading t ok grasped).width = ok := by
  show HandBridge.usable (if ok then .zero else ⟨0x7FF8000000000000⟩) = ok
  cases ok <;> decide +kernel

/-- the bridge after a sample -/
def sampled (t : HandBridge) (ok grasped : Bool) (now : ℚ) : HandBridge :=
  if ok then
    { t with
      seenRobotSample := true, robotSampleTime := t.robotSampleTime + 1, haveReal := true, realT := now
      sampleSeq := t.sampleSeq + 1, realW := HandBridge.clampWidth .zero, realGrasped := grasped }.note .observed
  else { t with haveReal := false }

theorem observeState_reading (hstop : t.admission.stopping = false) (hretry : t.admission.stopRetriedOk = false) (ok grasped : Bool) (now : ℚ) :
    t.observeState (reading t ok grasped) now = sampled t ok grasped now := by
  have hold : (t.seenRobotSample && decide ((reading t ok grasped).time ≤ t.robotSampleTime)) = false := by
    rw [Bool.and_eq_false_iff]
    exact .inr (decide_eq_false (by show ¬ t.robotSampleTime + 1 ≤ t.robotSampleTime; omega))
  have hforgive : t.admission.sampled = t.admission := by
    unfold HandAdmission.sampled
    rw [hretry, Bool.false_and, if_neg Bool.false_ne_true]
  unfold HandBridge.observeState sampled
  rw [hstop, hold, if_neg Bool.false_ne_true, if_neg Bool.false_ne_true, usable_reading, hforgive]
  cases ok with
  | false => rfl
  | true => rfl

/-- the actor reads the device -/
theorem reads (now : ℚ) {h : HandAdmission} (hadm : t.admission = h) (htake : h.take = ({}, h)) (hstop : h.stopping = false)
    (hretry : h.stopRetriedOk = false) (ok grasped : Bool) :
    Works now { t with actor := .take } (sampled { t with actor := .wait, log := t.log ++ [Obs.readBegan] } ok grasped now) := by
  have h₁ : HandBridge.step { t with actor := .take } (.actor (quietly now)) = { t with actor := .read } := by
    show HandBridge.takeAction _ = _
    unfold HandBridge.takeAction
    dsimp only
    rw [hadm, htake]
    dsimp only
    rw [Bool.and_not_self, if_neg Bool.false_ne_true, if_pos rfl, ← hadm]
  have h₂ : HandBridge.step { t with actor := .read } (.actor (quietly now)) =
      { t with actor := .reading h.stopSerial false, log := t.log ++ [Obs.readBegan] } := by
    show HandBridge.beginRead _ = _
    unfold HandBridge.beginRead
    dsimp only
    rw [hadm, hstop]
    rfl
  have h₃ : HandBridge.step { t with actor := .reading h.stopSerial false, log := t.log ++ [Obs.readBegan] }
      (.actor { quietly now with state := some (reading t ok grasped) }) =
      sampled { t with actor := .wait, log := t.log ++ [Obs.readBegan] } ok grasped now := by
    show (if false = false ∧ h.stopSerial = t.admission.stopSerial then
      HandBridge.observeState { t with actor := .wait, log := t.log ++ [Obs.readBegan] } (reading t ok grasped) now else _) = _
    rw [if_pos ⟨rfl, by rw [hadm]⟩]
    exact observeState_reading (t := { t with actor := .wait, log := t.log ++ [Obs.readBegan] }) (by rw [← hstop, ← hadm]) (by rw [← hretry, ← hadm])
      ok grasped now
  have hone := Works.one (working_quietly now) { t with actor := .take }
  rw [h₁] at hone
  have htwo := Works.one (working_quietly now) { t with actor := .read }
  rw [h₂] at htwo
  have hw : Working now (.actor { quietly now with state := some (reading t ok grasped) }) := ⟨rfl, returned_ne_lost true, nofun, rfl⟩
  exact (hone.trans htwo).trans (h₃ ▸ Works.one hw _)

/-- the sample that the simulation measures -/
theorem Mirrors.observe (m : Mirrors s t) (hp : s.adm.pending = none) (hstop : s.adm.stopping = false) (hnone : s.acting = none)
    (width : Value) (efforts : List Value) (now : ℚ) : ∃ t', Works now t t' ∧ Mirrors (s.observe width efforts now) t' := by
  obtain ⟨serial, hadm⟩ := m.admission
  have htake : (s.adm.real serial).take = ({}, s.adm.real serial) := by
    unfold HandAdmission.take SimAdmission.real
    rw [hp]
    simp
  have hworks := (awake now m.session.1 (m.idle hnone)).trans
    (reads now hadm htake hstop rfl (usable s.limits width) (s.fingers.grasped width efforts))
  refine ⟨_, hworks, ?_⟩
  unfold SimHandBridge.observe sampled
  split_ifs
  · exact ⟨⟨serial, hadm⟩, m.session, m.stopper, fun _ => .inl rfl, fun a ha => absurd (hnone.symm.trans ha) nofun, m.serving,
      { m.results with }, fun _ => ⟨rfl, fun _ => rfl⟩⟩
  · exact ⟨⟨serial, hadm⟩, m.session, m.stopper, fun _ => .inl rfl, fun a ha => absurd (hnone.symm.trans ha) nofun, m.serving,
      { m.results with }, fun _ => ⟨rfl, nofun⟩⟩

/-- while an action is inside, the bridge takes no samples -/
theorem Mirrors.inside_only (m : Mirrors s t) {s' : SimHandBridge} {a : HandAction} (ha : s.acting = some a)
    (hsame : (s'.adm, s'.acting, s'.serving) = (s.adm, s.acting, s.serving)) (hresults : SameResults s' t) : Mirrors s' t := by
  obtain ⟨hadm, hrest⟩ := Prod.mk.inj hsame
  obtain ⟨hacting, hserving⟩ := Prod.mk.inj hrest
  have hbusy : s'.acting ≠ none := by
    rw [hacting, ha]
    nofun
  refine ⟨?_, m.session, m.stopper, fun hn => absurd hn hbusy, ?_, ?_, hresults, fun hn => absurd hn hbusy⟩
  · rw [hadm]
    exact m.admission
  · rw [hacting]
    exact m.inside
  · rw [hserving]
    exact m.serving

theorem Mirrors.advance (m : Mirrors s t) {a : HandAction} (ha : s.acting = some a) (width : Value) (now : ℚ) :
    ∃ t', Works now t t' ∧ Mirrors (s.advance a width now) t' := by
  have hfingers : Mirrors { s with fingers := (s.fingers.tick width now).2 } t := m.inside_only ha rfl { m.results with }
  unfold SimHandBridge.advance
  dsimp only
  cases (s.fingers.tick width now).1 with
  | none => exact ⟨t, .refl now t, hfingers⟩
  | some ok => exact ⟨_, leaves now (m.inside a ha) ok, hfingers.finish a ok⟩

/-- **A tick of the plant is played by the workers.** -/
theorem Mirrors.onSample (m : Mirrors s t) (h : Inv s) (positions efforts : List Value) (now : ℚ) :
    ∃ t', Works now t t' ∧ Mirrors (s.onSample positions efforts now).2 t' := by
  unfold SimHandBridge.onSample
  dsimp only
  split_ifs with hstop
  · exact m.endStop h hstop _ now
  rw [Bool.not_eq_true] at hstop
  rw [observe_acting]
  cases ha : s.acting with
  | some a =>
    -- the action goes on, and it may come out
    have hseen : Mirrors (s.observe (measured positions) efforts now) t := by
      unfold SimHandBridge.observe
      split_ifs
      · exact m.inside_only ha rfl { m.results with }
      · exact m.inside_only ha rfl { m.results with }
    exact hseen.advance ((observe_acting _ _ _).trans ha) _ now
  | none =>
    cases hp : s.adm.pending with
    | some a =>
      -- the bridge's actor finds the action before it reads
      obtain ⟨t', hworks, hm⟩ := m.startPending h hp ha (measured positions) now
      refine ⟨t', hworks, ?_⟩
      unfold SimHandBridge.startPending at hm
      rw [take_pending h hp] at hm
      unfold SimHandBridge.startPending SimHandBridge.observe
      split_ifs
      · dsimp only [note]
        rw [take_pending h hp]
        exact hm.inside_only rfl rfl { hm.results with }
      · dsimp only
        rw [take_pending h hp]
        exact hm.inside_only rfl rfl { hm.results with }
    | none =>
      obtain ⟨t', hworks, hm⟩ := m.observe hp hstop ha (measured positions) efforts now
      refine ⟨t', hworks, ?_⟩
      have hnone : (s.observe (measured positions) efforts now).adm.pending = none := by
        unfold SimHandBridge.observe
        split_ifs <;> exact hp
      unfold SimHandBridge.startPending
      rw [take_none hnone]
      exact hm

/-! ## sessions -/

theorem pollGrasp_done : s.pollGrasp.doneSeq = s.doneSeq ∧ s.pollGrasp.seenDone = s.seenDone ∧ s.pollGrasp.doneToken = s.doneToken ∧
    s.pollGrasp.doneOk = s.doneOk := by
  unfold SimHandBridge.pollGrasp
  split_ifs <;> exact ⟨rfl, rfl, rfl, rfl⟩

/-- **A step of the simulation is played by a block of the bridge, with the same answers.** -/
theorem plays_step (s : SimHandBridge) (t : HandBridge) (e : Event) (h : Inv s ∧ Mirrors s t) :
    ∃ block, Plays e block ∧ outputs HandBridge.step HandBridge.replies t block = s.replies e ∧
      Inv (s.step e) ∧ Mirrors (s.step e) (run HandBridge.step t block) := by
  obtain ⟨h, m⟩ := h
  have hserving := m.serving
  cases e with
  | connect =>
    refine ⟨_, .connect, ?_, h.step _, ?_⟩
    · show (if t.serving then [] else []) ++ [] = []
      split_ifs <;> rfl
    · show Mirrors (if s.serving then s else s.connect) (if t.serving then t else t.connect)
      rw [hserving]
      split_ifs
      · exact m
      · exact m.connect
  | gstop =>
    refine ⟨_, .gstop, ?_, h.step _, ?_⟩
    · obtain ⟨serial, hadm⟩ := m.admission
      show (if t.serving then [HandReply.stopping t.admission.requestStop.epoch] else []) ++ [] = _
      rw [List.append_nil, hserving, hadm]
      rfl
    · show Mirrors (if s.serving then s.gstop else s) (if t.serving then t.gstop else t)
      rw [hserving]
      split_ifs
      · exact m.gstop
      · exact m
  | command a parsed now =>
    refine ⟨_, .command a parsed now, ?_, h.step _, ?_⟩
    · obtain ⟨serial, hadmit⟩ := m.admit h a now
      show (if t.serving then [HandReply.ofAdmission a.token (t.admission.admitAction a (t.fresh now)).1] else []) ++ [] = _
      rw [List.append_nil, hserving, hadmit]
      rfl
    · show Mirrors (if s.serving then s.command a now else s) (if t.serving then t.command a now else t)
      rw [hserving]
      split_ifs
      · exact m.command h a now
      · exact m
  | poll =>
    have m₁ := m.pollGrasp
    have hstep : t.step (.serve .pollGrasp) = if t.serving then t.pollGrasp else t := rfl
    refine ⟨_, .poll, ?_, h.step _, ?_⟩
    · show t.replies (.serve .pollGrasp) ++ ((t.step (.serve .pollGrasp)).replies (.serve .pollDone) ++ []) = _
      rw [List.append_nil, hstep]
      unfold HandBridge.replies replies
      dsimp only
      rw [hserving]
      cases hs : s.serving with
      | false => rw [if_neg Bool.false_ne_true, if_neg Bool.false_ne_true, if_neg Bool.false_ne_true, hserving, hs, if_neg Bool.false_ne_true, List.append_nil]
      | true =>
        have r := m₁.results
        have hs₁ : t.pollGrasp.serving = true := m₁.serving.trans (pollGrasp_serving.trans hs)
        rw [if_pos rfl, if_pos rfl, if_pos rfl, hs₁, if_pos rfl]
        unfold HandBridge.serveReplies
        dsimp only
        obtain ⟨hd, hseen, htoken, hok⟩ := pollGrasp_done (s := s)
        rw [m.results.graspSeq, m.results.seenGrasp, m.results.graspOk, r.doneSeq, r.seenDone, r.doneToken, r.doneOk, hd, hseen, htoken, hok]
    · show Mirrors (if s.serving then s.pollGrasp.pollDone else s)
        (if (if t.serving then t.pollGrasp else t).serving then (if t.serving then t.pollGrasp else t).pollDone else (if t.serving then t.pollGrasp else t))
      rw [hserving]
      cases hs : s.serving with
      | false =>
        rw [if_neg Bool.false_ne_true, if_neg Bool.false_ne_true, hserving, hs]
        exact m
      | true =>
        rw [if_pos rfl, if_pos rfl, m₁.serving, pollGrasp_serving, hs]
        exact m₁.pollDone
  | disconnect =>
    refine ⟨_, .disconnect, ?_, h.step _, ?_⟩
    · show (if t.serving then [] else []) ++ [] = []
      split_ifs <;> rfl
    · show Mirrors (if s.serving then s.disconnect else s) (if t.serving then t.disconnect else t)
      rw [hserving]
      split_ifs
      · exact m.disconnect
      · exact m
  | sample positions efforts now =>
    obtain ⟨t', ⟨block, hworking, rfl⟩, hm⟩ := m.onSample h positions efforts now
    exact ⟨block, .sample _ _ _ block hworking, outputs_working hworking t, h.onSample _ _ _, hm⟩

/-- the bridge opens its device session -/
def opening : List HandBridge.Event := [.actor {}, .actor {}]

theorem mirrors_new (limits : HandLimits) : Mirrors (new limits) (run HandBridge.step {} opening) where
  admission := ⟨0, rfl⟩
  session := ⟨rfl, rfl⟩
  stopper := rfl
  idle _ := .inr rfl
  inside := nofun
  serving := rfl
  results := ⟨rfl, rfl, rfl, rfl, rfl, rfl, rfl⟩
  real _ := ⟨rfl, nofun⟩

/-- **Every session of the simulated Hand is a session of the bridge.**  Once its device session is open, the bridge has a run with the same
steps of the client, each tick played by its workers at that time, with the same answers to each step.  And in the simulation, only an action
that nothing has overtaken is done, results are told to the client that was there, and no action starts before a usable sample that was taken
after the last action or stop ended. -/
theorem sim_session_is_real (limits : HandLimits) (es : List Event) :
    (∃ blocks, List.Forall₂ Plays es blocks ∧
      answers HandBridge.step HandBridge.replies {} (opening :: blocks) = [] :: each SimHandBridge.step replies (new limits) es) ∧
    Justified Fair (run SimHandBridge.step (new limits) es).log := by
  constructor
  · obtain ⟨blocks, hplays, hanswers⟩ := plays (R := fun s t => Inv s ∧ Mirrors s t) plays_step ⟨inv_new limits, mirrors_new limits⟩ es
    refine ⟨blocks, hplays, ?_⟩
    unfold answers
    rw [hanswers]
    rfl
  · exact (invariant (C := fun _ _ => True) (I := Inv) (inv_new limits) (fun _ e _ h => h.step e) (along_of_forall (fun _ _ => trivial) es)).fair

end SimHandBridge
end ArmControl.EndEffectors
