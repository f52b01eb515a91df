import ArmControl.Lib.Run
import ArmControl.MultiArm.HandleRules

/-!
# The handle's answers are truthful

* `Looked`, `forget_sound`, `report_ends`, `loadedFrom_ends`   looks at the supervisor, and what they find;
* `pollEvents_sound`, `state_sound`, `stage_sound`, `execute_sound`, `cancel_sound`;
* `Steady`        the calls after which the records still say enough;
* `handle_truth`  **every answer of a run of such calls is true.**
-/

namespace ArmControl.MultiArm

open Execution Executions History Effect
open Clients (CallError)

namespace SdkArmHandle

variable {α : Type} {arm : HandleArm} {s t : SdkArmHandle} {w : World} {p : String} {r : Record} {e : Event}

theorem ends_attempt {m : EStateM CallError World α} {Q : Except CallError α → SdkArmHandle → Prop}
    {E : Failure → SdkArmHandle → Prop} : Ends Q E (attempt m) s ↔
      Ends (fun a w => Q (.ok a) (s.setWorld w)) (fun e w => Q (.error e) (s.setWorld w)) m s.world := by
  unfold Ends attempt
  cases m s.world <;> exact Iff.rfl

theorem ends_reading {m : EStateM CallError World α} {Q : α → SdkArmHandle → Prop} {E : Failure → SdkArmHandle → Prop} :
    Ends Q E (reading m) s ↔
      Ends (fun a w => Q a (s.setWorld w)) (fun e w => E (.other e.text) (s.setWorld w)) m s.world := by
  unfold reading
  rw [ends_bind, ends_attempt]
  exact Iff.rfl

theorem observe_ends {env : Env} {value : ℕ → α} : Ends (fun _ w' => Onward none w w' ∧ w'.calls = w.calls + 1)
    (fun _ w' => Onward none w w' ∧ (env.turn w.calls).fate ≠ .answered) (observe env value) w := by
  unfold observe Ends
  beta_reduce
  split
  · rename_i h
    split at h
    · cases h
      exact ⟨found_onward, rfl⟩
    · cases h
    · cases h
  · rename_i h
    split at h
    · cases h
    · rename_i hf
      cases h
      exact ⟨found_onward, fun h0 => by rw [hf] at h0; cases h0⟩
    · rename_i hf
      cases h
      exact ⟨found_onward, fun h0 => by rw [hf] at h0; cases h0⟩

/-! ## events -/

theorem isResult_answer {kind : EventKind} {ok : Bool} {reason q : String} :
    IsResult q (answer arm kind p ok reason) ↔ kind = .legResult ∧ p = q :=
  and_congr Iff.rfl (Option.some_inj)

theorem isCleared_answer {kind : EventKind} {ok : Bool} {reason q : String} :
    IsCleared q (answer arm kind p ok reason) ↔ kind = .planCleared ∧ ok = true ∧ p = q :=
  and_congr Iff.rfl (and_congr Iff.rfl Option.some_inj)

/-- an event that settles nothing -/
theorem Sound.say (h : Sound s) (hres : ∀ q, ¬ IsResult q e) (hclr : ∀ q, ¬ IsCleared q e) : Sound (s.push e) :=
  h.push ⟨fun q hq => absurd hq (hclr q), fun q hq => absurd hq (hres q), fun q hq => absurd hq (hres q)⟩
    fun q _ _ _ => ⟨hres q, hclr q⟩

theorem Sound.staging (h : Sound s) {ok : Bool} {reason : String} : Sound (s.push (answer arm .planStaged p ok reason)) :=
  h.say (fun _ hq => EventKind.noConfusion (isResult_answer.mp hq).1) fun _ hq => EventKind.noConfusion (isCleared_answer.mp hq).1

theorem Sound.uncleared (h : Sound s) {reason : String} : Sound (s.push (answer arm .planCleared p false reason)) :=
  h.say (fun _ hq => EventKind.noConfusion (isResult_answer.mp hq).1) fun _ hq => Bool.noConfusion (isCleared_answer.mp hq).2.1

/-- a plan without a record is cleared when the supervisor holds nothing of it -/
theorem Sound.cleared (h : Sound s) (hnone : s.plans.get p = none) (hno : NoLive s.world.ledger p) {reason : String} :
    Sound (s.push (answer arm .planCleared p true reason)) := by
  refine h.push ⟨fun q hq => ?_, fun q hq => ?_, fun q hq => ?_⟩ fun q r hr _ => ⟨fun hq => ?_, fun hq => ?_⟩
  · obtain ⟨-, -, rfl⟩ := isCleared_answer.mp hq
    exact hno
  · exact EventKind.noConfusion (isResult_answer.mp hq).1
  · exact EventKind.noConfusion (isResult_answer.mp hq).1
  · exact EventKind.noConfusion (isResult_answer.mp hq).1
  · obtain ⟨-, -, rfl⟩ := isCleared_answer.mp hq
    rw [hnone] at hr
    cases hr

/-- a result of an open record whose execution has ended -/
theorem result_true (h : Sound s) (hr : s.plans.get p = some r) (hrep : r.reported = false) {ok : Bool} {reason : String}
    (hok : ok = true → ∃ (i : ℕ) (x : Executions.Entry), s.world.ledger[i]? = some x ∧ x.planId = p ∧ x.phase = .completed) :
    TrueEvent s.log (answer arm .legResult p ok reason) s.world.ledger where
  cleared q hq := EventKind.noConfusion (isCleared_answer.mp hq).1
  result q hq := by
    obtain ⟨-, rfl⟩ := isResult_answer.mp hq
    exact h.fresh _ r hr hrep
  completed q hq hok' := by
    obtain ⟨-, rfl⟩ := isResult_answer.mp hq
    exact hok hok'

/-! ## looks at the supervisor -/

/-- the record of an execution -/
def ended (s : SdkArmHandle) (r : Record) : Prop :=
  ∀ x, s.world.ledger[r.execution]? = some x → x.live = false

/-- the plan is reported, or there was no answer about it -/
def Tells (p : String) (log tail : List Note) : Prop :=
  (∃ e ∈ (log ++ tail).flatMap Note.queued, IsResult p e) ∨ .unanswered p ∈ tail

theorem tells_result {l : Ledger} {log : List Note} (h : IsResult p e) : Tells p log [.event e l] := by
  refine .inl ⟨e, ?_, h⟩
  rw [queued_push]
  exact List.mem_append_right _ (List.mem_singleton_self _)

theorem Tells.left {log tail tail' : List Note} (h : Tells p log tail) : Tells p log (tail ++ tail') := by
  refine h.imp (fun ⟨e, he, hres⟩ => ⟨e, ?_, hres⟩) (List.mem_append_left _)
  rw [← List.append_assoc, List.flatMap_append]
  exact List.mem_append_left _ he

theorem Tells.right {log tail tail' : List Note} (h : Tells p (log ++ tail) tail') : Tells p log (tail ++ tail') := by
  refine h.imp (fun ⟨e, he, hres⟩ => ⟨e, ?_, hres⟩) (List.mem_append_right _)
  rw [← List.append_assoc]
  exact he

/-- what is left after a look at the supervisor, with what was said of it -/
structure Looked (s : SdkArmHandle) (tail : List Note) (t : SdkArmHandle) : Prop where
  sound : Sound t
  change : Change none s.world.ledger t.world.ledger
  unknown : t.unknownStage = s.unknownStage
  log : t.log = s.log ++ tail
  plans : ∀ q r, t.plans.get q = some r → ∃ r₀, s.plans.get q = some r₀

theorem Looked.trans {u : SdkArmHandle} {tail tail' : List Note} (h : Looked s tail t) (h' : Looked t tail' u) :
    Looked s (tail ++ tail') u where
  sound := h'.sound
  change := h.change.idle_trans h'.change
  unknown := h'.unknown.trans h.unknown
  log := by rw [h'.log, h.log, List.append_assoc]
  plans q r hr := by
    obtain ⟨r₁, hr₁⟩ := h'.plans q r hr
    exact h.plans q r₁ hr₁

theorem Looked.turn (h : Sound s) (hw : Onward none s.world w) : Looked s [] (s.setWorld w) where
  sound := h.idle (.inl rfl) hw
  change := hw.change
  unknown := rfl
  log := (List.append_nil _).symm
  plans _ r hr := ⟨r, hr⟩

theorem ended_later (h : s.ended r) (hc : Change none s.world.ledger t.world.ledger) : t.ended r := by
  intro x' hx'
  obtain ⟨x, hx, hlater, -⟩ := hc.back (.inl rfl) hx'
  exact hlater.ended_of (h x hx)

/-- a forgotten execution's record goes, and a result that was never seen is reported -/
theorem forget_ends (h : Sound s) (hr : s.plans.get p = some r) (hover : s.ended r) :
    Ends (fun _ t => ∃ tail, Looked s tail t ∧ t.world = s.world ∧ (∀ q, q ≠ p → t.plans.get q = s.plans.get q) ∧
      (r.released = true → r.reported = false → Tells p s.log tail)) (fun _ _ => False) (forget arm p r) s := by
  unfold forget emit
  rw [ends_bind, ends_modify]
  refine ends_ite (fun hopen => ?_) fun hclosed => ?_
  · obtain ⟨hrel, hrep⟩ := Bool.and_eq_true_iff.mp hopen
    have hrep' : r.reported = false := by simpa using hrep
    have hsound : Sound (push (answer arm .legResult p false
        "outcome unknown: the supervisor no longer holds this execution") (s.popPlan p)) := by
      refine h.resolve (p := p) (fun q hq => Dict.get_pop_ne hq) (fun r' hr' => absurd rfl (get_of_pop hr').1) (fun _ r' hr' => ?_) rfl
        (.inl (isResult_answer.mpr ⟨rfl, rfl⟩)) (result_true h hr hrep' nofun)
      obtain rfl := Option.some.inj (hr.symm.trans hr')
      exact hover
    exact ⟨[.event _ _], ⟨hsound, .refl none _, rfl, rfl, fun q r' hr' => ⟨r', (get_of_pop hr').2⟩⟩, rfl,
      fun q hq => Dict.get_pop_ne hq, fun _ _ => tells_result (isResult_answer.mpr ⟨rfl, rfl⟩)⟩
  · have hdone : r.reported = true ∨ r.released = false := by
      cases hrel : r.released <;> cases hrep : r.reported
      · exact .inr rfl
      · exact .inl rfl
      · rw [hrel, hrep] at hclosed
        exact absurd rfl hclosed
      · exact .inl rfl
    have hsound : Sound (s.popPlan p) := by
      refine h.pop (fun r' hr' => ?_) fun r' hr' => ?_
      · obtain rfl := Option.some.inj (hr.symm.trans hr')
        exact hover
      · obtain rfl := Option.some.inj (hr.symm.trans hr')
        exact hdone
    refine ⟨[], ⟨hsound, .refl none _, rfl, (List.append_nil _).symm, fun q r' hr' => ⟨r', (get_of_pop hr').2⟩⟩, rfl,
      fun q hq => Dict.get_pop_ne hq, fun hrel hrep => ?_⟩
    rcases hdone with h1 | h1
    · rw [h1] at hrep
      cases hrep
    · rw [h1] at hrel
      cases hrel

/-- an execution that the supervisor does not know has ended -/
theorem unknown_ended (h : Sound s) (hw : Onward none s.world w) {text : String}
    (hm : Missed arm.env (.status r.execution) s.world w (.refused text)) :
    unknownExecution text = true ∧ (s.setWorld w).ended r := by
  obtain ⟨htext, hk⟩ := hm.unknown_status
  exact ⟨htext, fun x hx => ((hw.sound h.ledger).entry _ x hx).forgotten (hk x hx)⟩

theorem Sound.unanswered (h : Sound s) : Sound (s.note (.unanswered p)) :=
  h.append (fun _ _ _ _ _ he => absurd he List.not_mem_nil) (List.append_nil _) trivial

theorem looked_unanswered (h : Sound s) (hw : Onward none s.world w) :
    Looked s [.unanswered p] ((s.setWorld w).note (.unanswered p)) where
  sound := (h.idle (.inl rfl) hw).unanswered
  change := hw.change
  unknown := rfl
  log := rfl
  plans _ r hr := ⟨r, hr⟩

/-- a status that is terminal says that the execution has ended, and how -/
theorem answered_over (hr : s.plans.get p = some r) (h : Sound s) {status : Executions.Reply} {l : Ledger}
    (hc : Change none s.world.ledger w.ledger) (ha : Answers (.status r.execution) status l w.ledger) :
    ∃ x, w.ledger[r.execution]? = some x ∧ x.planId = p ∧ x.phase = status.phase := by
  obtain ⟨x, hx, hp⟩ := h.entry p r hr
  obtain ⟨x', hx', hlater, -⟩ := hc.old _ x hx
  obtain ⟨y, hy, hphase⟩ := Option.map_eq_some_iff.mp ha.phase
  rw [ha.target.about r.execution (.inr (.inr rfl))] at hy
  obtain rfl := Option.some.inj (hx'.symm.trans hy)
  exact ⟨x', hx', hlater.planId.trans hp, hphase⟩

/-- one round of `poll_events` -/
theorem report_ends (h : Sound s) (hr : s.plans.get p = some r) :
    Ends (fun _ t => ∃ tail, Looked s tail t ∧ (∀ q, q ≠ p → t.plans.get q = s.plans.get q) ∧
      (r.released = true → r.reported = false → s.ended r → Tells p s.log tail)) (fun _ _ => False) (report arm p r) s := by
  have hunanswered : ∀ w, Onward none s.world w → ∃ tail, Looked s tail ((s.setWorld w).note (.unanswered p)) ∧
      (∀ q, q ≠ p → ((s.setWorld w).note (.unanswered p)).plans.get q = s.plans.get q) ∧
      (r.released = true → r.reported = false → s.ended r → Tells p s.log tail) := fun w hw =>
    ⟨_, looked_unanswered h hw, fun _ _ => rfl, fun _ _ _ => .inr (List.mem_singleton_self _)⟩
  unfold report
  refine ends_ite (fun hopen => ?_) fun hclosed => ?_
  · obtain ⟨hrel, hrep⟩ := Bool.and_eq_true_iff.mp hopen
    have hrep' : r.reported = false := by simpa using hrep
    rw [ends_bind, ends_attempt]
    refine ask_ends.mono (fun status w hw => ?_) fun e w hw => ?_
    · have hturn := status_idle hw.1
      obtain ⟨x, hx, hxp, hphase⟩ := answered_over hr h hturn.change hw.2
      refine ends_ite (fun hterm => ?_) fun hlive => ?_
      · have hover : x.live = false := by
          unfold Entry.live
          rw [hphase]
          exact congrArg Bool.not hterm
        unfold emit
        rw [ends_bind, ends_modify, ends_modify]
        refine ⟨[.event _ _], ⟨?_, hturn.change, rfl, rfl, fun q r' hr' => ?_⟩, fun q hq => Dict.get_set_ne hq,
          fun _ _ _ => tells_result (isResult_answer.mpr ⟨rfl, rfl⟩)⟩
        · refine (h.idle (.inl rfl) hturn).resolve (p := p) (fun q hq => Dict.get_set_ne hq) (fun r' hr' => ?_)
            (fun hnone => ?_) rfl (.inl (isResult_answer.mpr ⟨rfl, rfl⟩))
            (result_true (h.idle (.inl rfl) hturn) hr hrep' fun hok => ⟨_, x, hx, hxp, hphase.trans (of_decide_eq_true hok)⟩)
          · obtain rfl := Option.some.inj (Dict.get_set_self.symm.trans hr')
            exact ⟨rfl, r, hr, rfl, rfl⟩
          · rw [Dict.get_set_self] at hnone
            cases hnone
        · by_cases hq : q = p
          · exact ⟨r, hq ▸ hr⟩
          · exact ⟨r', (Dict.get_set_ne hq).symm.trans hr'⟩
      · refine ⟨[], Looked.turn h hturn, fun _ _ => rfl, fun _ _ hended => absurd ?_ hlive⟩
        have hover := ended_later (t := s.setWorld w) hended hturn.change x hx
        unfold Entry.live at hover
        rw [hphase] at hover
        exact (Bool.not_eq_eq_eq_not.mp hover).trans rfl
    · have hturn := status_idle hw.1
      cases e with
      | refused text =>
        obtain ⟨htext, hover⟩ := @unknown_ended arm _ _ _ h hturn _ hw.2
        show Ends _ _ (if unknownExecution text = true then _ else _) (s.setWorld w)
        rw [if_pos htext]
        refine (forget_ends (h.idle (.inl rfl) hturn) hr hover).mono (fun _ t ht => ?_) fun _ _ hf => hf
        obtain ⟨tail, hlook, -, hne, htell⟩ := ht
        exact ⟨tail, (Looked.turn h hturn).trans hlook, hne, fun h1 h2 _ => htell h1 h2⟩
      | supervisor text => exact hunanswered w hturn
      | timeout text => exact hunanswered w hturn
      | os text => exact hunanswered w hturn
  · refine ⟨[], ⟨h, .refl none _, rfl, (List.append_nil _).symm, fun q r' hr' => ⟨r', hr'⟩⟩, fun _ _ => rfl, fun h1 h2 _ => ?_⟩
    rw [h1, h2] at hclosed
    exact absurd rfl hclosed

/-- the rounds of `poll_events` -/
theorem reports_ends {rest : List (String × Record)} (h : Sound s) (hnodup : (rest.map Prod.fst).Nodup)
    (hrest : ∀ q r, (q, r) ∈ rest → s.plans.get q = some r) :
    Ends (fun _ t => ∃ tail, Looked s tail t ∧ ∀ q r, (q, r) ∈ rest → r.released = true → r.reported = false → s.ended r →
      Tells q s.log tail) (fun _ _ => False) (each rest fun x => report arm x.1 x.2) s := by
  induction rest generalizing s with
  | nil => exact ⟨[], ⟨h, .refl none _, rfl, (List.append_nil _).symm, fun q r hr => ⟨r, hr⟩⟩, fun _ _ hm => absurd hm List.not_mem_nil⟩
  | cons x rest ih =>
    obtain ⟨p, r⟩ := x
    obtain ⟨hnew, hnodup'⟩ := List.nodup_cons.mp hnodup
    show Ends _ _ (report arm p r >>= fun _ => each rest fun x => report arm x.1 x.2) s
    rw [ends_bind]
    refine (report_ends h (hrest p r List.mem_cons_self)).mono (fun _ t ht => ?_) fun _ _ hf => hf
    obtain ⟨tail, hlook, hne, htell⟩ := ht
    refine (ih hlook.sound hnodup' fun q r' hm => ?_).mono (fun _ u hu => ?_) fun _ _ hf => hf
    · rw [hne q fun hq => hnew (List.mem_map.mpr ⟨(q, r'), hm, hq⟩)]
      exact hrest q r' (List.mem_cons_of_mem _ hm)
    · obtain ⟨tail', hlook', htell'⟩ := hu
      refine ⟨tail ++ tail', hlook.trans hlook', fun q r' hm hrel hrep hover => ?_⟩
      rcases List.mem_cons.mp hm with hm | hm
      · obtain ⟨rfl, rfl⟩ := Prod.mk.inj hm
        exact (htell hrel hrep hover).left
      · refine Tells.right (hlook.log ▸ htell' q r' hm hrel hrep ?_)
        exact ended_later hover hlook.change

/-- flags of the handle that no rule looks at -/
theorem looked_aside (h : Sound s) (faultReported : Bool) (faultReason : Option String) (offset : ℚ) :
    Looked s [] { s with faultReported := faultReported, faultReason := faultReason, offset := offset } where
  sound := h.aside faultReported faultReason offset
  change := .refl none _
  unknown := rfl
  log := (List.append_nil _).symm
  plans _ r hr := ⟨r, hr⟩

theorem watchFault_ends (h : Sound s) : Ends (fun _ t => ∃ tail, Looked s tail t) (fun _ _ => False) (watchFault arm) s := by
  unfold watchFault emit
  rw [ends_bind, ends_attempt]
  refine observe_ends.mono (fun a w hw => ?_) fun e w hw => ⟨_, Looked.turn h hw.1⟩
  have hturn := Looked.turn h hw.1
  rw [ends_bind, ends_get]
  dsimp only
  cases a.fault with
  | none => exact ⟨_, hturn.trans (looked_aside hturn.sound _ _ _)⟩
  | some f =>
    refine ends_ite (fun _ => ?_) fun _ => ⟨_, hturn⟩
    have haside := hturn.trans (looked_aside hturn.sound true (some (faultText f)) (s.setWorld w).offset)
    have hsays : ∀ {u : SdkArmHandle}, Looked _ [.event (answer arm .fault "" false (faultText f)) w.ledger] u → _ := haside.trans
    refine ⟨_, hsays ⟨?_, .refl none _, rfl, rfl, fun _ r hr => ⟨r, hr⟩⟩⟩
    exact haside.sound.say (fun _ hq => EventKind.noConfusion (isResult_answer.mp hq).1)
      fun _ hq => EventKind.noConfusion (isCleared_answer.mp hq).1

theorem pollEvents_sound (h : Sound s) : Ends (fun _ t => Sound t) (fun _ _ => False) (pollEvents arm) s := by
  unfold pollEvents
  rw [ends_bind, ends_get, ends_bind]
  refine (reports_ends h s.plans.nodup fun q r hm => Dict.mem_entries.mp hm).mono (fun _ t ht => ?_) fun _ _ hf => hf
  obtain ⟨tail, hlook, htell⟩ := ht
  rw [ends_bind]
  refine (watchFault_ends hlook.sound).mono (fun _ u hu => ?_) fun _ _ hf => hf
  obtain ⟨tail', hlook'⟩ := hu
  have hall := hlook.trans hlook'
  rw [ends_bind, ends_get, ends_bind]
  refine hall.sound.drain fun i x hx hrel hlive hcan => ?_
  -- what was released and is over has an open record, or its result was answered before
  have htold : Tells x.planId s.log (tail ++ tail') := by
    rcases h.told i x hx hrel hcan with ⟨e, he, hres⟩ | ⟨r, hr, hrel', hrep⟩
    · refine .inl ⟨e, ?_, hres⟩
      rw [List.flatMap_append]
      exact List.mem_append_left _ he
    · refine (htell _ r (Dict.mem_entries.mpr hr.get) hrel' hrep fun y hy => ?_).left
      rw [hr.execution] at hy
      obtain rfl := Option.some.inj (hx.symm.trans hy)
      exact hlive
  rcases htold with ⟨e, he, hres⟩ | hun
  · refine .inl ⟨e, ?_, hres⟩
    rw [← hall.sound.queue, hall.log]
    exact he
  · refine .inr ?_
    rw [hall.log, List.drop_left]
    exact hun

/-! ## state -/

/-- one look at a live execution among the records, no reply before it lost -/
structure Finds (s : SdkArmHandle) (rest : List (String × Record)) (a : Option String × Bool) (t : SdkArmHandle)
    (i : ℕ) (p : String) (r : Record) : Prop where
  plan : a.1 = some p
  running : ∀ x, s.world.ledger[i]? = some x → x.phase.begun = true → r.released = true → a.2 = true
  calls : t.world.calls = s.world.calls + (rest.map Prod.fst).idxOf p + 1

theorem loadedFrom_ends {rest : List (String × Record)} (h : Sound s) (hnodup : (rest.map Prod.fst).Nodup)
    (hrest : ∀ q r, (q, r) ∈ rest → s.plans.get q = some r) :
    Ends (fun a t => (∃ tail, Looked s tail t) ∧ ∀ q r, (q, r) ∈ rest → ∀ x, t.world.ledger[r.execution]? = some x →
        x.live = true → (∀ k < (rest.map Prod.fst).idxOf q, ¬ (arm.env.turn (s.world.calls + k)).fate.isLost) →
        Finds s rest a t r.execution q r)
      (fun _ _ => False) (loadedFrom arm rest) s := by
  induction rest generalizing s with
  | nil => exact ⟨⟨[], h, .refl none _, rfl, (List.append_nil _).symm, fun q r hr => ⟨r, hr⟩⟩, fun _ _ hm => absurd hm List.not_mem_nil⟩
  | cons x rest ih =>
    obtain ⟨p, r⟩ := x
    obtain ⟨hnew, hnodup'⟩ := List.nodup_cons.mp hnodup
    have hr := hrest p r List.mem_cons_self
    -- the rest of the loop, once the execution at hand has ended
    have hgoOn : ∀ {t : SdkArmHandle} {tail : List Note}, Looked s tail t → t.ended r →
        t.world.calls = s.world.calls + 1 → (∀ q, q ≠ p → t.plans.get q = s.plans.get q) →
        Ends (fun a u => (∃ tail, Looked s tail u) ∧ ∀ q r', (q, r') ∈ (p, r) :: rest → ∀ x, u.world.ledger[r'.execution]? = some x →
          x.live = true → (∀ k < (((p, r) :: rest).map Prod.fst).idxOf q, ¬ (arm.env.turn (s.world.calls + k)).fate.isLost) →
          Finds s ((p, r) :: rest) a u r'.execution q r')
        (fun _ _ => False) (loadedFrom arm rest) t := by
      intro t tail hlook hover hcalls hne
      refine (ih hlook.sound hnodup' fun q r' hm => ?_).mono (fun a u hu => ?_) fun _ _ hf => hf
      · rw [hne q fun hq => hnew (List.mem_map.mpr ⟨(q, r'), hm, hq⟩)]
        exact hrest q r' (List.mem_cons_of_mem _ hm)
      · obtain ⟨⟨tail', hlook'⟩, hfind⟩ := hu
        refine ⟨⟨_, hlook.trans hlook'⟩, fun q r' hm x hx hlive hcallsAnswered => ?_⟩
        rcases List.mem_cons.mp hm with hm | hm
        · obtain ⟨rfl, rfl⟩ := Prod.mk.inj hm
          rw [ended_later hover hlook'.change x hx] at hlive
          cases hlive
        · have hqp : p ≠ q := fun hq => hnew (List.mem_map.mpr ⟨(q, r'), hm, hq.symm⟩)
          have hidx : (((p, r) :: rest).map Prod.fst).idxOf q = (rest.map Prod.fst).idxOf q + 1 :=
            List.idxOf_cons_ne _ hqp
          have hf := hfind q r' hm x hx hlive fun k hk => by
            rw [hcalls, Nat.add_assoc, Nat.add_comm 1 k]
            exact hcallsAnswered (k + 1) (by rw [hidx]; omega)
          refine ⟨hf.plan, fun y hy hbegun hrel => ?_, ?_⟩
          · obtain ⟨y', hy', hlater, -⟩ := hlook.change.old _ y hy
            obtain ⟨z, hz, hlater', -⟩ := hlook'.change.old _ y' hy'
            obtain rfl := Option.some.inj (hz.symm.trans hx)
            exact hf.running y' hy' (hlater.begun hbegun (hlater'.live hlive)) hrel
          · rw [hf.calls, hcalls, hidx]
            omega
    unfold loadedFrom
    rw [ends_bind, ends_attempt]
    refine (ask_ends.and ask_calls).mono (fun status w hw => ?_) fun e w hw => ?_
    · have hturn := status_idle hw.1.1
      obtain ⟨y, hy, hyp, hphase⟩ := answered_over hr h hturn.change hw.1.2
      refine ends_ite (fun hterm => ?_) fun hlive => ?_
      · have hover : (s.setWorld w).ended r := by
          intro x hx
          obtain rfl := Option.some.inj (hy.symm.trans hx)
          unfold Entry.live
          rw [hphase]
          exact congrArg Bool.not hterm
        refine ends_ite (fun hdone => ?_) fun _ => hgoOn (Looked.turn h hturn) hover hw.2 fun _ _ => rfl
        rw [ends_bind, ends_modify]
        have hlook := Looked.turn h hturn
        have hpopped : Sound ((s.setWorld w).popPlan p) → Looked (s.setWorld w) [] ((s.setWorld w).popPlan p) := fun hsound =>
          ⟨hsound, .refl none _, rfl, (List.append_nil _).symm, fun q r' hr' => ⟨r', (get_of_pop hr').2⟩⟩
        refine hgoOn (hlook.trans (hpopped ?_)) hover hw.2 fun q hq => Dict.get_pop_ne hq
        refine hlook.sound.pop (fun r' hr' => ?_) fun r' hr' => ?_
        · obtain rfl := Option.some.inj (hr.symm.trans hr')
          exact hover
        · obtain rfl := Option.some.inj (hr.symm.trans hr')
          simpa using hdone
      · have hylive : y.live = true := by
          unfold Entry.live
          rw [hphase]
          exact congrArg Bool.not (Bool.eq_false_of_not_eq_true hlive)
        refine ⟨⟨_, Looked.turn h hturn⟩, fun q r' hm x hx hlive' _ => ?_⟩
        have hexec : r'.execution = r.execution := (hturn.sound h.ledger).one _ _ x y hx hy hlive' hylive
        rw [hexec] at hx
        obtain rfl := Option.some.inj (hy.symm.trans hx)
        have hqp : q = p := by
          obtain ⟨x₀, hx₀, hq⟩ := h.entry q r' (hrest q r' hm)
          obtain ⟨x₁, hx₁, hlater, -⟩ := hturn.change.old _ x₀ hx₀
          rw [hexec] at hx₁
          obtain rfl := Option.some.inj (hy.symm.trans hx₁)
          exact hq.symm.trans (hlater.planId.symm.trans hyp)
        subst hqp
        obtain rfl := Option.some.inj (hr.symm.trans (hrest _ r' hm))
        refine ⟨rfl, fun x₀ hx₀ hbegun hrel => ?_, ?_⟩
        · obtain ⟨x₁, hx₁, hlater, -⟩ := hturn.change.old _ x₀ hx₀
          obtain rfl := Option.some.inj (hy.symm.trans hx₁)
          have hb := hlater.begun hbegun hylive
          rw [hphase] at hb
          refine Bool.and_eq_true_iff.mpr ⟨hrel, decide_eq_true fun hadm => ?_⟩
          rw [hadm] at hb
          cases hb
        · show w.calls = _
          rw [hw.2, List.map_cons, List.idxOf_cons_self]
    · have hturn := status_idle hw.1.1
      have hgiveUp : (∀ text, e ≠ .refused text) → (∃ tail, Looked s tail (s.setWorld w)) ∧ ∀ q r', (q, r') ∈ (p, r) :: rest →
          ∀ x, (s.setWorld w).world.ledger[r'.execution]? = some x → x.live = true →
          (∀ k < (((p, r) :: rest).map Prod.fst).idxOf q, ¬ (arm.env.turn (s.world.calls + k)).fate.isLost) →
          Finds s ((p, r) :: rest) (some p, r.released) (s.setWorld w) r'.execution q r' := by
        intro hne
        refine ⟨⟨_, Looked.turn h hturn⟩, fun q r' hm x _ _ hans => ?_⟩
        by_cases hqp : p = q
        · subst hqp
          obtain rfl := Option.some.inj (hr.symm.trans (hrest p r' hm))
          refine ⟨rfl, fun _ _ _ hrel => hrel, ?_⟩
          show w.calls = _
          rw [hw.2, List.map_cons, List.idxOf_cons_self]
        · have hidx : (((p, r) :: rest).map Prod.fst).idxOf q = (rest.map Prod.fst).idxOf q + 1 := List.idxOf_cons_ne _ hqp
          obtain ⟨reached, loss, hfate⟩ := hw.1.2.fate_lost hne
          refine absurd ?_ (hans 0 (by omega))
          rw [Nat.add_zero, hfate]
          rfl
      cases e with
      | refused text =>
        obtain ⟨htext, hover⟩ := @unknown_ended arm _ _ _ h hturn _ hw.1.2
        show Ends _ _ (if unknownExecution text = true then _ else _) (s.setWorld w)
        rw [if_pos htext, ends_bind]
        refine (forget_ends (h.idle (.inl rfl) hturn) hr hover).mono (fun _ t ht => ?_) fun _ _ hf => hf
        obtain ⟨tail, hlook, hworld, hne, -⟩ := ht
        refine hgoOn ((Looked.turn h hturn).trans hlook) ?_ ?_ hne
        · exact ended_later hover hlook.change
        · rw [hworld]
          exact hw.2
      | supervisor text => exact hgiveUp fun _ he => CallError.noConfusion he
      | timeout text => exact hgiveUp fun _ he => CallError.noConfusion he
      | os text => exact hgiveUp fun _ he => CallError.noConfusion he

/-- the calls of `state` that only read, around `n` plans before the live one -/
def ReadCall (arm : HandleArm) (n k : ℕ) : Prop := k < 3 ∨ arm.controller = true ∧ k = 4 + n

/-- a live execution has a record, the reads are answered, and no reply about an earlier plan is lost -/
def Reachable (arm : HandleArm) (s : SdkArmHandle) : Prop :=
  ∀ (i : ℕ) (x : Executions.Entry), s.world.ledger[i]? = some x → x.live = true → (∃ r, About s.plans x.planId i r) ∧
    (∀ k, ReadCall arm (s.plans.keys.idxOf x.planId) k → (arm.env.turn (s.world.calls + k)).fate = .answered) ∧
    ∀ k < s.plans.keys.idxOf x.planId, ¬ (arm.env.turn (s.world.calls + (3 + k))).fate.isLost

theorem looked_idle {tail : List Note} (hlook : Looked s tail t) (hw : Onward none t.world w) :
    Looked s tail (t.setWorld w) := by
  have hall := hlook.trans (Looked.turn hlook.sound hw)
  rw [List.append_nil] at hall
  exact hall

/-- what a raise of a call comes to: it says that nothing was live -/
def GaveUp (arm : HandleArm) (s : SdkArmHandle) (text : String) (t : SdkArmHandle) : Prop :=
  (∃ tail, Looked s tail t) ∧ TrueState (unreachable arm text) s.world.ledger t.world.ledger

theorem gaveUp (hreach : Reachable arm s) {tail : List Note} {text : String} (hlook : Looked s tail t)
    (hmiss : ∀ (i : ℕ) (x₀ x : Executions.Entry), s.world.ledger[i]? = some x₀ → t.world.ledger[i]? = some x → x₀.live = true →
      x.live = true → ∃ k, ReadCall arm (s.plans.keys.idxOf x₀.planId) k ∧
        (arm.env.turn (s.world.calls + k)).fate ≠ .answered) : GaveUp arm s text t := by
  refine ⟨⟨_, hlook⟩, fun i x hx hlive => ?_⟩
  obtain ⟨x₀, hx₀, hlive₀, -⟩ := hlook.change.live (.inl rfl) hx hlive
  obtain ⟨k, hk, hno⟩ := hmiss i x₀ x hx₀ hx hlive₀ hlive
  exact absurd ((hreach i x₀ hx₀ hlive₀).2.1 k hk) hno

/-- the first calls of `state` -/
theorem gaveUp_early (hreach : Reachable arm s) {tail : List Note} {text : String} {k : ℕ} (hk : k < 3) (hlook : Looked s tail t)
    (hno : (arm.env.turn (s.world.calls + k)).fate ≠ .answered) : GaveUp arm s text t :=
  gaveUp hreach hlook fun _ _ _ _ _ _ _ => ⟨k, .inl hk, hno⟩

/-- a live execution that is past `admitted` counts as released -/
theorem released_of_begun (h : Sound s) {i : ℕ} {x : Executions.Entry} (hx : s.world.ledger[i]? = some x) (hlive : x.live = true)
    (hbegun : x.phase.begun = true) (ha : About s.plans x.planId i r) : r.released = true := by
  have hrel : x.released = true := ((h.ledger.entry i x hx).begun hbegun).resolve_right fun hstart => by
    rw [h.start i x hx] at hstart
    cases hstart
  obtain ⟨r', ha', hrel'⟩ := h.running i x hx hrel hlive
  obtain rfl := Option.some.inj (ha.get.symm.trans ha'.get)
  exact hrel'

theorem readState_ends (h : Sound s) (hreach : Reachable arm s) :
    Ends (fun st t => (∃ tail, Looked s tail t) ∧ TrueState st s.world.ledger t.world.ledger)
      (fun e t => GaveUp arm s e.text t) (readState arm) s := by
  unfold readState
  rw [ends_bind, ends_get, ends_bind, ends_reading]
  refine observe_ends.mono (fun robot w₁ hw₁ => ?_) fun e w₁ hw₁ =>
    gaveUp_early hreach (k := 0) (by omega) (Looked.turn h hw₁.1) hw₁.2
  have h₁ := Looked.turn h hw₁.1
  rw [ends_bind, ends_reading]
  refine observe_ends.mono (fun authority w₂ hw₂ => ?_) fun e w₂ hw₂ =>
    gaveUp_early hreach (k := 1) (by omega) (looked_idle h₁ hw₂.1) (hw₁.2 ▸ hw₂.2)
  have h₂ := looked_idle h₁ hw₂.1
  have hc₂ : w₂.calls = s.world.calls + 2 := hw₂.2.trans (congrArg (· + 1) hw₁.2)
  rw [ends_bind, ends_reading]
  refine observe_ends.mono (fun stamp w₃ hw₃ => ?_) fun e w₃ hw₃ =>
    gaveUp_early hreach (k := 2) (by omega) (looked_idle h₂ hw₃.1) (hc₂ ▸ hw₃.2)
  have h₃ := looked_idle h₂ hw₃.1
  have hc₃ : w₃.calls = s.world.calls + 3 := hw₃.2.trans (congrArg (· + 1) hc₂)
  rw [ends_bind, ends_modify, ends_bind]
  -- the clock offset is settled, and the records are asked about
  obtain ⟨u, hu⟩ : ∃ u, u = settleOffset (arm.clock s.world.calls) stamp (setWorld w₃ (setWorld w₂ (setWorld w₁ s))) := ⟨_, rfl⟩
  have h₄ : Looked s [] u := hu ▸ h₃.trans (looked_aside h₃.sound _ _ _)
  have hplans : u.plans = s.plans := by rw [hu]; rfl
  have hcalls : u.world.calls = s.world.calls + 3 := by rw [hu]; exact hc₃
  rw [← hu]
  unfold loaded
  rw [ends_bind, ends_get, hplans]
  refine (@loadedFrom_ends arm _ _ h₄.sound s.plans.nodup fun q r hm => hplans ▸ Dict.mem_entries.mp hm).mono
    (fun plan v hv => ?_) fun _ _ hf => hf.elim
  obtain ⟨⟨tail, hlook⟩, hfind⟩ := hv
  have h₅ := h₄.trans hlook
  -- what was found of a live execution
  have hfound : ∀ (i : ℕ) (x₀ x : Executions.Entry), s.world.ledger[i]? = some x₀ → v.world.ledger[i]? = some x →
      x₀.live = true → x.live = true → plan.1 = some x₀.planId ∧ (x₀.phase.begun = true → plan.2 = true) ∧
        v.world.calls = s.world.calls + (4 + s.plans.keys.idxOf x₀.planId) := by
    intro i x₀ x hx₀ hx hlive₀ hlive
    obtain ⟨⟨r, ha⟩, -, hans⟩ := hreach i x₀ hx₀ hlive₀
    have hf := hfind x₀.planId r (Dict.mem_entries.mpr ha.get) x (ha.execution ▸ hx) hlive fun k hk => by
      rw [hcalls, Nat.add_assoc]
      exact hans k hk
    refine ⟨hf.plan, fun hbegun => ?_, ?_⟩
    · obtain ⟨y, hy, hlater, -⟩ := h₄.change.old i x₀ hx₀
      obtain ⟨z, hz, hlater', -⟩ := hlook.change.old i y hy
      obtain rfl := Option.some.inj (hz.symm.trans hx)
      exact hf.running y (ha.execution ▸ hy) (hlater.begun hbegun (hlater'.live hlive)) (released_of_begun h hx₀ hlive₀ hbegun ha)
    · have hcall := hf.calls
      have hidx : (s.plans.entries.map Prod.fst).idxOf x₀.planId = s.plans.keys.idxOf x₀.planId := rfl
      rw [hcall, hcalls, hidx]
      omega
  -- what `state` says then
  have hstate : ∀ {t : SdkArmHandle} {law : String} {offset : ℚ}, Change none v.world.ledger t.world.ledger →
      TrueState (stateOf arm robot authority stamp plan law offset) s.world.ledger t.world.ledger := by
    intro t law offset hc i x hx hlive
    obtain ⟨y, hy, hlive', hlater⟩ := hc.live (.inl rfl) hx hlive
    obtain ⟨x₀, hx₀, hlive₀, hlater₀⟩ := h₅.change.live (.inl rfl) hy hlive'
    obtain ⟨hplan, hrunning, -⟩ := hfound i x₀ y hx₀ hy hlive₀ hlive'
    refine ⟨?_, fun x₁ hx₁ hbegun => ?_⟩
    · show plan.1 = _
      rw [hplan, hlater.planId, hlater₀.planId]
    · obtain rfl := Option.some.inj (hx₀.symm.trans hx₁)
      exact congrArg some (hrunning hbegun)
  unfold controlLaw
  rw [ends_bind]
  by_cases hlaw : arm.controller = true
  · rw [if_pos hlaw, ends_reading]
    refine observe_ends.mono (fun law w₆ hw₆ => ?_) fun e w₆ hw₆ => ?_
    · rw [ends_bind, ends_get]
      exact ⟨⟨_, looked_idle h₅ hw₆.1⟩, hstate hw₆.1.change⟩
    · refine gaveUp hreach (looked_idle h₅ hw₆.1) fun i x₀ x hx₀ hx hlive₀ hlive =>
        ⟨4 + s.plans.keys.idxOf x₀.planId, .inr ⟨hlaw, rfl⟩, ?_⟩
      obtain ⟨y, hy, hlive', -⟩ := hw₆.1.change.live (.inl rfl) hx hlive
      rw [← (hfound i x₀ y hx₀ hy hlive₀ hlive').2.2]
      exact hw₆.2
  · rw [if_neg hlaw, ends_pure, ends_bind, ends_get]
    exact ⟨⟨_, h₅⟩, hstate (t := v) (.refl none _)⟩

theorem state_sound (h : Sound s) (hreach : Reachable arm s) : Ends (fun _ t => Sound t) (fun _ _ => False) (state arm) s := by
  unfold state
  rw [ends_bind, ends_get, ends_bind, ends_tryCatch]
  refine (readState_ends h hreach).mono (fun st t ht => ?_) fun e t ht => ?_
  · obtain ⟨⟨tail, hlook⟩, htrue⟩ := ht
    exact hlook.sound.append (fun _ _ _ _ _ he => absurd he List.not_mem_nil) (List.append_nil _) htrue
  · obtain ⟨⟨tail, hlook⟩, htrue⟩ := ht
    exact hlook.sound.append (fun _ _ _ _ _ he => absurd he List.not_mem_nil) (List.append_nil _) htrue

/-! ## staging and releasing -/

theorem constructed_val [Values.Checks α] {a : α} {v : Values.Checked α} (h : Values.construct a = .ok v) : v.val = a := by
  unfold Values.construct at h
  split_ifs at h
  rw [← Except.ok.inj h]

theorem stageRequest_ok {plan : StagePlan} {req : TrajectoryRequest} (h : stageRequest arm plan = .ok req) :
    req.requestId = plan.planId ∧ req.start = .onRelease := by
  have hbind : ∀ {α β : Type} {x : Except String α} {f : α → Except String β} {b : β}, (x >>= f) = .ok b →
      ∃ a, x = .ok a ∧ f a = .ok b := by
    intro α β x f b hx
    cases x with
    | error _ => cases hx
    | ok a => exact ⟨a, rfl, hx⟩
  obtain ⟨body, -, h⟩ := hbind h
  split_ifs at h
  unfold planRequest at h
  split_ifs at h
  · obtain ⟨_, -, h⟩ := hbind h
    cases h
  · obtain ⟨_, -, h⟩ := hbind h
    obtain ⟨_, -, h⟩ := hbind h
    cases h
  · obtain ⟨_, -, h⟩ := hbind h
    obtain ⟨_, -, h⟩ := hbind h
    obtain ⟨_, -, h⟩ := hbind h
    obtain ⟨_, -, h⟩ := hbind h
    obtain ⟨v, hv, h⟩ := hbind h
    obtain rfl := Except.ok.inj h
    have hval := constructed_val hv
    exact ⟨congrArg Values.TrajectoryRequest.requestId hval, congrArg Values.TrajectoryRequest.start hval⟩

/-- no live execution is left without a record or a remembered reply -/
def Retains (s : SdkArmHandle) (p : String) : Prop :=
  ∀ (req : TrajectoryRequest) (i : ℕ) (x : Executions.Entry), s.world.ledger[i]? = some x → x.live = true →
    (∃ r, About s.plans x.planId i r) ∨ x.planId ∈ (s.remember p req).unknownStage.keys

theorem Sound.remember {req : TrajectoryRequest} (h : Sound s) (hreq : req.requestId = p) (hstart : req.start = .onRelease)
    (hretains : Retains s p) : Sound (s.remember p req) := by
  refine h.unknown (hretains req) (fun q r hq => ?_) (Dict.length_newest 64)
  have hset := Dict.get_newest hq
  rw [Dict.get_set] at hset
  split_ifs at hset with hqp
  · obtain rfl := Option.some.inj hset
    exact ⟨hreq.trans hqp.symm, hstart⟩
  · exact h.requests q r hset

/-- the execution that a submission is about -/
theorem submission_of (hs : s.world.ledger.Sound) {req : TrajectoryRequest} (hreq : req.requestId = p) {status : Executions.Reply}
    (ha : Answers (.submit req) status s.world.ledger w.ledger) : ∃ x, w.ledger[status.execution]? = some x ∧ x.planId = p ∧
      x.phase = status.phase ∧ ∀ (i : ℕ) (y : Executions.Entry), w.ledger[i]? = some y → y.live = true → y.planId = p →
        i = status.execution := by
  obtain ⟨x, hx, hr, -⟩ := ha.target.entry
  obtain ⟨y, hy, hphase⟩ := Option.map_eq_some_iff.mp ha.phase
  obtain rfl := Option.some.inj (hx.symm.trans hy)
  have hp : x.planId = p := (congrArg TrajectoryRequest.requestId (hr req rfl)).trans hreq
  refine ⟨x, hx, hp, hphase, fun i y hy' hlive hyp => ?_⟩
  exact ha.sole hs i x y hx hy' hlive (hyp.trans hp.symm)

theorem staged_sound {req : TrajectoryRequest} (h : Sound s) (hreq : req.requestId = p) (hstart : req.start = .onRelease)
    (hunused : Unused s p ∨ ∀ status w, ask arm.env (.submit req) s.world = .ok status w → status.terminal = true)
    (hretains : ∀ reached loss, (arm.env.turn s.world.calls).fate = .lost reached loss → Retains s p) :
    Ends (fun answered w => Holds Sound (staged arm p req (.ok answered)) (s.setWorld w))
      (fun e w => Holds Sound (staged arm p req (.error e)) (s.setWorld w)) (ask arm.env (.submit req)) s.world := by
  refine (ask_ends.and (ends_of (fun _ _ ha => ha) fun _ _ _ => trivial)).mono (fun status w hw => ?_) fun e w hw => ?_
  · obtain ⟨hw, hreply⟩ := hw
    obtain ⟨x, hx, hxp, hphase, hsole⟩ := submission_of h.ledger hreq hw.2
    unfold staged emit Effect.Holds
    refine ends_ite (fun hterm => ?_) fun hlive => ?_
    · have hdeclined : Sound (s.setWorld w) := by
        refine h.submitted hw.1 hreq hstart (.inl rfl) fun i y hy hlive hyp => ?_
        obtain rfl := hsole i y hy hlive hyp
        obtain rfl := Option.some.inj (hx.symm.trans hy)
        rw [Executions.Reply.ended_of hterm hphase] at hlive
        cases hlive
      exact hdeclined.staging
    · have hadmitted : Sound ((s.setWorld w).setPlan p { execution := status.execution }) := by
        have hunused' := hunused.resolve_right fun hno => hlive (hno status w hreply)
        refine h.submitted hw.1 hreq hstart (.inr ⟨status.execution, rfl, hunused', x, hx, hxp⟩) fun i y hy hlive hyp => ?_
        exact .inl ⟨_, Dict.get_set_self, (hsole i y hy hlive hyp).symm⟩
      rw [ends_bind, ends_modify, ends_modify]
      exact hadmitted.staging
  · have hw := hw.1
    have hlost : (∀ text, e ≠ .refused text) → Sound ((s.setWorld w).remember p req) := by
      intro hne
      obtain ⟨reached, loss, hfate⟩ := hw.2.fate_lost hne
      have hrem := h.remember hreq hstart (hretains reached loss hfate)
      exact hrem.submitted hw.1 hreq hstart (.inl rfl) fun _ _ _ _ _ =>
        .inr (Dict.mem_newest_set (by omega) h.bounded)
    unfold staged emit
    cases e with
    | refused text => exact (h.idle (.inl rfl) (hw.2.idle_refused hw.1)).staging
    | supervisor text => exact (hlost fun _ he => CallError.noConfusion he).staging
    | timeout text => exact (hlost fun _ he => CallError.noConfusion he).staging
    | os text => exact (hlost fun _ he => CallError.noConfusion he).staging

/-- the supervisor answers a submission of the plan with an execution that has ended -/
def Declined (arm : HandleArm) (s : SdkArmHandle) (plan : StagePlan) : Prop :=
  ∀ req, stageRequest arm plan = .ok req → ∀ status w, ask arm.env (.submit req) s.world = .ok status w → status.terminal = true

theorem stage_sound {plan : StagePlan} (h : Sound s) (hunused : Unused s plan.planId ∨ Declined arm s plan)
    (hretains : ∀ reached loss, (arm.env.turn s.world.calls).fate = .lost reached loss → Retains s plan.planId) :
    Holds Sound (stage arm plan) s := by
  unfold stage
  cases hr : stageRequest arm plan with
  | error text => exact h.staging
  | ok req =>
    obtain ⟨hreq, hstart⟩ := stageRequest_ok hr
    show Ends _ _ (attempt (ask arm.env (.submit req)) >>= _) s
    rw [ends_bind, ends_attempt]
    exact staged_sound h hreq hstart (hunused.imp_right fun hno => hno req hr) hretains

/-- a release that the supervisor takes is answered -/
def Confirms (arm : HandleArm) (s : SdkArmHandle) (p : String) : Prop :=
  ∀ r, s.plans.get p = some r → r.released = false → ∀ loss, (arm.env.turn s.world.calls).fate = .lost true loss →
    ∀ x, (s.world.found arm.env)[r.execution]? = some x → x.phase ≠ .admitted

theorem execute_sound (h : Sound s) (hreply : Confirms arm s p) :
    Holds Sound (execute arm p) s := by
  unfold execute Effect.Holds
  rw [ends_bind, ends_get]
  cases hr : s.plans.get p with
  | none => exact h
  | some r =>
    rw [h.undeferred]
    show Ends _ _ (reading (ask arm.env (.release r.execution)) >>= fun _ => release p r) s
    rw [ends_bind, ends_reading]
    refine (ask_ends.and (ends_of (fun _ _ _ => trivial) fun _ _ ha => ha)).mono (fun status w hw => h.released hw.1.1 hr)
      fun e w hw => ?_
    obtain ⟨hw, hrun⟩ := hw
    cases hrel : r.released with
    | false => exact h.idle (.inl rfl) (lost_release (hreply r hr hrel) hrun hw.1 hw.2)
    | true =>
      refine (h.released hw.1 hr).plans fun q => ?_
      have hsame : { r with released := true } = r := by rw [← hrel]
      rw [hsame, Dict.get_set]
      split_ifs with hq
      · rw [hq, hr]
      · rfl

/-! ## cancels -/

/-- a submission, and a cancel of its execution if it was live -/
def Resubmitted (req : TrajectoryRequest) (w w' : World) : Prop :=
  ∃ w₁, Onward (some (.submit req)) w w₁ ∧ (w' = w₁ ∨ ∃ i, Onward (some (.cancel i)) w₁ w')

theorem cancelResubmitted_ends (h : Sound s) {req : TrajectoryRequest} (hreq : req.requestId = p) :
    Ends (fun status w => Resubmitted req s.world w ∧ status.terminal = true ∧ NoLive w.ledger p)
      (fun _ w => Resubmitted req s.world w) (cancelResubmitted arm req) s.world := by
  unfold cancelResubmitted
  rw [ends_bind]
  refine ask_ends.mono (fun status w hw => ?_) fun e w hw => ⟨w, hw.1, .inl rfl⟩
  obtain ⟨x, hx, hxp, hphase, hsole⟩ := submission_of h.ledger hreq hw.2
  refine ends_ite (fun hterm => ⟨⟨w, hw.1, .inl rfl⟩, hterm, fun i y hy hyp => ?_⟩) fun _ => ?_
  · cases hlive : y.live with
    | false => rfl
    | true =>
      obtain rfl := hsole i y hy hlive hyp
      obtain rfl := Option.some.inj (hx.symm.trans hy)
      exact hlive.symm.trans (Executions.Reply.ended_of hterm hphase)
  · refine cancel_ends.mono (fun status' w' hw' => ⟨⟨w, hw.1, .inr ⟨_, hw'.1⟩⟩, hw'.2.1.terminal, fun i y hy hyp => ?_⟩)
      fun e w' hw' => ⟨w, hw.1, .inr ⟨_, hw'⟩⟩
    cases hlive : y.live with
    | false => rfl
    | true =>
      obtain ⟨y₀, hy₀, hlive₀, hlater⟩ := hw'.1.change.live (.inr ⟨_, rfl⟩) hy hlive
      obtain rfl := hsole i y₀ hy₀ hlive₀ (hlater.planId.symm.trans hyp)
      obtain ⟨z, hz, hphase'⟩ := hw'.2.1.entry
      obtain rfl := Option.some.inj (hz.symm.trans hy)
      exact hlive.symm.trans (Executions.Reply.ended_of hw'.2.1.terminal hphase')

theorem Sound.resubmitted (h : Sound s) {req : TrajectoryRequest} (hreq : req.requestId = p) (hstart : req.start = .onRelease)
    (hknown : p ∈ s.unknownStage.keys) (hw : Resubmitted req s.world w) : Sound (s.setWorld w) := by
  obtain ⟨w₁, hsubmit, hw⟩ := hw
  have h₁ : Sound (s.setWorld w₁) := h.submitted hsubmit hreq hstart (.inl rfl) fun _ _ _ _ _ => .inr hknown
  rcases hw with rfl | ⟨i, hcancel⟩
  · exact h₁
  · exact h₁.idle (.inr ⟨i, rfl⟩) hcancel

theorem cancelUnknownStage_sound {req : TrajectoryRequest} (h : Sound s) (hnone : s.plans.get p = none)
    (hget : s.unknownStage.get p = some req) : Holds Sound (cancelUnknownStage arm p req) s := by
  obtain ⟨hreq, hstart⟩ := h.requests p req hget
  have hknown : p ∈ s.unknownStage.keys := Dict.mem_keys.mpr ⟨req, hget⟩
  unfold cancelUnknownStage emit Effect.Holds
  rw [ends_bind, ends_attempt]
  refine (cancelResubmitted_ends h hreq).mono (fun status w hw => ?_) fun e w hw => ?_
  · obtain ⟨hre, hterm, hno⟩ := hw
    have hsound := h.resubmitted hreq hstart hknown hre
    show Ends _ _ (modify _ >>= fun _ => modify (SdkArmHandle.push (answer arm .planCleared p status.terminal (notTerminal status))))
      (s.setWorld w)
    rw [ends_bind, ends_modify, ends_modify, hterm]
    refine Sound.cleared (s := { s.setWorld w with unknownStage := s.unknownStage.pop p }) ?_ hnone hno
    refine hsound.unknown (fun i x hx hlive => ?_) (fun q r hq => h.requests q r (Dict.mem_pop.mp (Dict.mem_entries.mpr hq)).2)
      ((List.length_filter_le _ _).trans h.bounded)
    refine (hsound.known i x hx hlive).imp_right fun hk => ?_
    obtain ⟨v, hv⟩ := Dict.mem_keys.mp hk
    refine Dict.mem_keys.mpr ⟨v, (Dict.get_pop_ne fun hxp => ?_).trans hv⟩
    rw [hno i x hx hxp] at hlive
    cases hlive
  · exact (h.resubmitted hreq hstart hknown hw).uncleared

theorem cancelUnloaded_sound (h : Sound s) (hnone : s.plans.get p = none) : Holds Sound (cancelUnloaded arm p) s := by
  unfold cancelUnloaded loaded Effect.Holds
  rw [ends_bind, ends_bind, ends_get]
  refine (loadedFrom_ends h s.plans.nodup fun q r hm => Dict.mem_entries.mp hm).mono (fun other t ht => ?_) fun _ _ hf => hf.elim
  obtain ⟨⟨tail, hlook⟩, -⟩ := ht
  have hnone' : t.plans.get p = none := by
    cases hg : t.plans.get p with
    | none => rfl
    | some r =>
      obtain ⟨r₀, hr₀⟩ := hlook.plans p r hg
      rw [hnone] at hr₀
      cases hr₀
  rw [ends_bind, ends_get]
  cases hg : t.unknownStage.get p with
  | some req => exact cancelUnknownStage_sound hlook.sound hnone' hg
  | none =>
    show Holds Sound (emit arm .planCleared p other.1.isNone _) t
    cases other.1.isNone with
    | false => exact hlook.sound.uncleared
    | true =>
      refine hlook.sound.cleared hnone' fun i x hx hxp => ?_
      cases hlive : x.live with
      | false => rfl
      | true =>
        rcases hlook.sound.known i x hx hlive with ⟨r, hr⟩ | hk
        · have hget := hr.get
          rw [hxp, hnone'] at hget
          cases hget
        · obtain ⟨v, hv⟩ := Dict.mem_keys.mp hk
          rw [hxp, hg] at hv
          cases hv

theorem cancelLoaded_sound (h : Sound s) (hr : s.plans.get p = some r) : Holds Sound (cancelLoaded arm p r) s := by
  unfold cancelLoaded emit Effect.Holds
  rw [ends_bind, ends_attempt]
  refine cancel_ends.mono (fun status w hw => ?_) fun e w hw => (h.idle (.inr ⟨_, rfl⟩) hw).uncleared
  obtain ⟨honward, hended, hcancelled⟩ := hw
  have hsound := h.idle (.inr ⟨_, rfl⟩) honward
  obtain ⟨x, hx, hxp⟩ := hsound.entry p r hr
  show Ends _ _ (modify _ >>= fun _ => modify (SdkArmHandle.push (answer arm .planCleared p status.terminal (notTerminal status))))
    (s.setWorld w)
  rw [ends_bind, ends_modify, ends_modify, hended.terminal]
  refine hsound.resolve (p := p) (fun q hq => Dict.get_set_ne hq) (fun r' hr' => ?_) (fun hnone => ?_) rfl
    (.inr fun r' hr' y hy => ?_) ⟨fun q hq i y hy hyp => ?_, fun q hq => ?_, fun q hq => ?_⟩
  · obtain rfl := Option.some.inj (Dict.get_set_self.symm.trans hr')
    exact ⟨rfl, r, hr, rfl, rfl⟩
  · rw [Dict.get_set_self] at hnone
    cases hnone
  · obtain rfl := Option.some.inj (hr.symm.trans hr')
    exact hcancelled y hy
  · obtain ⟨-, -, rfl⟩ := isCleared_answer.mp hq
    cases hlive : y.live with
    | false => rfl
    | true =>
      obtain rfl := hended.sole h.ledger i x y hx hy hlive (hyp.trans hxp.symm)
      obtain ⟨z, hz, hphase⟩ := hended.entry
      obtain rfl := Option.some.inj (hz.symm.trans hy)
      exact hlive.symm.trans (Executions.Reply.ended_of hended.terminal hphase)
  · exact EventKind.noConfusion (isResult_answer.mp hq).1
  · exact EventKind.noConfusion (isResult_answer.mp hq).1

theorem cancelOne_sound : Keeps Sound (cancelOne arm p) := by
  refine keeps_get fun s h => ?_
  cases hr : s.plans.get p with
  | none => exact cancelUnloaded_sound h hr
  | some r => exact cancelLoaded_sound h hr

theorem cancel_sound {planId : Option String} : Keeps Sound (cancel arm planId) := by
  refine keeps_get fun s h => ?_
  cases planId with
  | some p => exact cancelOne_sound s h
  | none => exact Keeps.each (fun p => cancelOne_sound) s h

/-! ## runs -/

/-- a plan id is admitted once, no live execution drops out of memory, a release that is taken is answered, and `state`
reaches the supervisor while an execution is live -/
def Steady (arm : HandleArm) (s : SdkArmHandle) : Call → Prop
  | .stage plan => (Unused s plan.planId ∨ Declined arm s plan) ∧
    ∀ reached loss, (arm.env.turn s.world.calls).fate = .lost reached loss → Retains s plan.planId
  | .execute p => Confirms arm s p
  | .state => Reachable arm s
  | .cancel _ | .pollEvents => True

theorem step_sound {c : Call} (h : Sound s) (hsteady : Steady arm s c) : Sound (step arm s c) := by
  unfold step
  refine holds_iff.mp ?_
  cases c with
  | stage plan => exact stage_sound h hsteady.1 hsteady.2
  | execute p => exact execute_sound h hsteady
  | cancel planId => exact cancel_sound s h
  | pollEvents =>
    show Ends _ _ (pollEvents arm >>= fun _ => pure PUnit.unit) s
    rw [ends_bind]
    exact (pollEvents_sound h).mono (fun _ _ ht => ht) fun _ _ hf => hf.elim
  | state =>
    show Ends _ _ (state arm >>= fun _ => pure PUnit.unit) s
    rw [ends_bind]
    exact (state_sound h hsteady).mono (fun _ _ ht => ht) fun _ _ hf => hf.elim

theorem init_sound : Sound (init arm) where
  ledger := sound_nil
  start _ _ hx := by cases hx
  known _ _ hx := by cases hx
  told _ _ hx := by cases hx
  running _ _ hx := by cases hx
  entry _ _ hr := by cases hr
  reported _ _ hr := by cases hr
  fresh _ _ hr := by cases hr
  requests _ _ hr := by cases hr
  bounded := Nat.zero_le _
  queue := rfl
  truth := justified_nil
  undeferred := rfl

end SdkArmHandle

open SdkArmHandle

/-- **Every answer of the handle is true**, along every run of steady calls. -/
theorem handle_truth (arm : HandleArm) (calls : List Call) (h : Run.Along (step arm) (SdkArmHandle.Steady arm) (init arm) calls) :
    Justified Truthful (Run.run (step arm) (init arm) calls).log :=
  (Run.invariant (I := SdkArmHandle.Sound) init_sound (fun _ _ hc hs => step_sound hs hc) h).truth

/-! ## one joint -/

/-- a plan of one joint -/
def liftPlan : StagePlan where
  planId := "lift"
  payload := .ok
    { planId := some "lift", kp := [1], kd := [1], trajectory := { times := [0, 1], positions := [[0], [1]], velocities := none } }

def restRobot : Values.RobotState where
  instanceId := "arm"
  validity := .missing
  reason := "no sample"
  q := none
  dq := none
  tau := none
  selectedQ := none
  selectedQd := none
  outputTau := none
  wrench := none
  source := none
  received := none
  stateSeq := none
  lastCommandSeq := none

/-- an arm of one joint, whose supervisor answers by `turn` -/
def liftArm (turn : ℕ → Turn) : HandleArm where
  env := { turn := turn, polls := fun _ => 0 }
  robot _ := restRobot
  authority _ := ⟨.armed, some "session", 1, 1, none, none⟩
  now _ := ⟨0, .pc, "host"⟩
  law _ := "joint"
  clock _ := 0
  armId := "arm"
  session := "session"
  instanceId := "arm"
  jointNames := ["lift"]

theorem handle_truth_lift : Justified Truthful
    (Run.run (step (liftArm fun _ => {})) (init (liftArm fun _ => {})) [.stage liftPlan, .execute "lift", .pollEvents]).log := by
  refine handle_truth _ _ (Run.along_cons.mpr ⟨?_, Run.along_cons.mpr ⟨?_, Run.along_cons.mpr ⟨trivial, Run.along_nil⟩⟩⟩)
  · refine ⟨.inl ⟨fun ⟨e, he, _⟩ => absurd he List.not_mem_nil, fun r hr => ?_⟩, fun reached loss hf => ?_⟩
    · cases hr
    · cases hf
  · intro r _ _ loss hf
    cases hf

/-- the reply to the release is lost, and the execution runs to its end -/
def releaseLost : ℕ → Turn
  | 2 => { fate := .lost true (.timeout "no reply")
           within := [.advance 0 .selected, .advance 0 .sent, .advance 0 .applied, .advance 0 .completed] }
  | _ => {}

/-- where a poll began, and what the supervisor held of its first execution then -/
def Note.poll : Note → Option (ℕ × Option (Bool × Bool × Bool))
  | .polled l start _ => some (start, l[0]?.map fun x => (x.released, x.live, x.cancelled))
  | _ => none

/-- **A released plan that ended is never reported** when the reply to its release was lost. -/
theorem release_reply_lost : ¬ ∀ (arm : HandleArm) (calls : List Call),
    Justified Truthful (Run.run (step arm) (init arm) calls).log := by
  intro hall
  obtain ⟨log, hlog⟩ : ∃ log, log = (Run.run (step (liftArm releaseLost)) (init (liftArm releaseLost))
      [.stage liftPlan, .execute "lift", .pollEvents]).log := ⟨_, rfl⟩
  have hpoll : log[1]?.bind Note.poll = some (1, some (true, false, false)) := by
    rw [hlog]
    decide +kernel
  have hsilent : (log.flatMap Note.returned).any (fun e => decide (e.kind = .legResult)) = false := by
    rw [hlog]
    decide +kernel
  have h := hall (liftArm releaseLost) [.stage liftPlan, .execute "lift", .pollEvents]
  rw [← hlog] at h
  obtain ⟨n, hn, hgist⟩ := Option.bind_eq_some_iff.mp hpoll
  cases n with
  | polled l start events =>
    obtain ⟨rfl, hfirst⟩ := Prod.mk.inj (Option.some.inj hgist)
    obtain ⟨x, hx, hflags⟩ := Option.map_eq_some_iff.mp hfirst
    obtain ⟨hrel, hlive, hcan⟩ : x.released = true ∧ x.live = false ∧ x.cancelled = false := by simpa using hflags
    rcases h.get hn 0 x hx hrel hlive hcan with ⟨e, he, hres⟩ | hun
    · refine Bool.false_ne_true (hsilent.symm.trans (List.any_eq_true.mpr ⟨e, ?_, decide_eq_true hres.1⟩))
      rw [← List.take_append_drop 2 log, List.flatMap_append]
      refine List.mem_append_left _ ?_
      rw [List.take_add_one, hn, List.flatMap_append, Option.toList_some, List.flatMap_singleton]
      exact he
    · rw [List.drop_eq_nil_of_le (List.length_take_le 1 log)] at hun
      cases hun
  | event e l => cases hgist
  | unanswered q => cases hgist
  | stated st before after => cases hgist

end ArmControl.MultiArm
