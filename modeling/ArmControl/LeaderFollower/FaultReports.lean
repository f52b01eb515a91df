import ArmControl.Lib.Run
import ArmControl.Lib.Since
import ArmControl.LeaderFollower.Takeover

/-!
# Which faults a sample reports (`leader_follower/dora_feedback.py`)

What is kept of the inputs is a fold over what was received, whatever the batches in which it was absorbed.

* `hear`              one entry of the log, with the time left out;
* `Heard`             the feedback is the fold over the log, `call_heard` for every call;
* `Latched`, `HealthMessage`, `ControllerFault`   the messages that a fault comes with;
* `faults_reported`   **a fault that nothing newer replaced is in the sample.**

A health message replaces the one before it, from either topic; a message that is not readable raises and changes nothing.
-/

namespace ArmControl.LeaderFollower
open History

/-- the kept inputs without the time of the arm state -/
def DoraFollowerFeedback.untimed (f : DoraFollowerFeedback) : DoraFollowerFeedback := { f with t := 0 }

/-- what an entry of the log leaves behind -/
def hear (c : FeedbackTopics) (f : DoraFollowerFeedback) : Traffic → DoraFollowerFeedback
  | .received .stop => { f with stopped := true }
  | .received (.input id value) =>
    match f.handle c id value 0 with
    | .ok f' => f'
    | .error _ => f
  | _ => f

namespace Graph

variable {σ : Type}

/-- the calls of the feedback -/
inductive Call where
  | sample (now : ℚ)
  | latestArmState
  | prime (deadline : ℚ)

/-- the state a call leaves, also where it raises -/
def call (c : FeedbackTopics) (s : Graph σ) : Call → Graph σ
  | .sample now => Effect.leaves (sample c now) s
  | .latestArmState => Effect.leaves (latestArmState c) s
  | .prime deadline => Effect.leaves (prime c deadline) s

/-- the feedback is what the log says -/
def Heard (c : FeedbackTopics) (s : Graph σ) : Prop := s.feed.untimed = s.log.foldl (hear c) {}

/-! ## the fold over the log -/

section
variable {c : FeedbackTopics} {s : Graph σ}

theorem handle_untimed (f : DoraFollowerFeedback) (id : String) (value : Option Payload) (now : ℚ) :
    f.untimed.handle c id value 0 = (f.handle c id value now).map DoraFollowerFeedback.untimed := by
  cases value with
  | none => rfl
  | some v =>
    unfold DoraFollowerFeedback.handle
    dsimp only
    split_ifs
    · unfold DoraFollowerFeedback.parseMotorState
      cases decodeArm c.numArmJoints v <;> rfl
    · unfold DoraFollowerFeedback.parseGripperState
      cases unpackJsonMessage v (some "gripper_state") with
      | error e => rfl
      | ok body =>
        dsimp only [bind, Except.bind]
        cases body.width with
        | none => rfl
        | some width => cases width <;> rfl
    · unfold DoraFollowerFeedback.parseHealth
      cases unpackJsonMessage v none <;> rfl
    · unfold DoraFollowerFeedback.parseControllerEvent
      cases unpackControllerEvent v with
      | error e => rfl
      | ok body =>
        refine congrArg Except.ok ?_
        dsimp only
        rw [apply_ite DoraFollowerFeedback.untimed]
        rfl
    · rfl

theorem hear_input (f : DoraFollowerFeedback) (id : String) (value : Option Payload) :
    hear c f (.received (.input id value)) =
      match f.handle c id value 0 with
      | .ok f' => f'
      | .error _ => f := rfl

theorem Heard.congr {t : Graph σ} (h : Heard c s) (hfeed : t.feed = s.feed) (hlog : t.log = s.log) : Heard c t := by
  unfold Heard at h ⊢
  rw [hfeed, hlog]
  exact h

/-- a received event is the next entry of the log -/
theorem receive_heard (h : Heard c s) :
    Effect.Ends (fun r t => (r = none → Heard c t) ∧
        ∀ e now, r = some (e, now) → t.feed = s.feed ∧ t.log = s.log ++ [Traffic.received e])
      (fun _ t => Heard c t) receive s := by
  unfold receive
  rw [Effect.ends_bind, Effect.ends_get]
  cases s.inbox with
  | nil => exact ⟨fun _ => h, fun _ _ heq => by cases heq⟩
  | cons r inbox =>
    obtain ⟨asked, outcome, now⟩ := r
    have htaken : Heard c { s with inbox := inbox } := h.congr rfl rfl
    cases outcome with
    | ok e =>
      cases e with
      | none => exact ⟨fun _ => htaken, fun _ _ heq => by cases heq⟩
      | some e =>
        refine ⟨fun heq => (by cases heq), fun e' now' heq => ?_⟩
        obtain ⟨rfl, -⟩ := Prod.mk.inj (Option.some.inj heq)
        exact ⟨rfl, rfl⟩
    | error e =>
      show Effect.Ends _ _ (set _ >>= fun _ => if e.isException = true then pure none else throw e) s
      rw [Effect.ends_bind, Effect.ends_set]
      exact Effect.ends_ite (fun _ => ⟨fun _ => htaken, fun _ _ heq => by cases heq⟩) fun _ => htaken

theorem heard_next {t : Graph σ} {e : DoraEvent} {feed : DoraFollowerFeedback} (h : Heard c s)
    (hlog : t.log = s.log ++ [Traffic.received e]) (hfeed : feed.untimed = hear c s.feed.untimed (.received e)) :
    Heard c { t with feed := feed } := by
  show feed.untimed = t.log.foldl (hear c) {}
  rw [hlog, List.foldl_append, ← h, hfeed]
  rfl

theorem handle_heard {t : Graph σ} {id : String} {value : Option Payload} {now : ℚ} (h : Heard c s)
    (hfeed : t.feed = s.feed) (hlog : t.log = s.log ++ [Traffic.received (.input id value)]) :
    Effect.Holds (Heard c) (handle c id value now) t := by
  unfold handle Effect.Holds
  rw [Effect.ends_bind, Effect.ends_get, Effect.ends_bind, hfeed]
  have huntimed := handle_untimed (c := c) s.feed id value now
  cases hhandle : s.feed.handle c id value now with
  | ok feed =>
    rw [hhandle] at huntimed
    refine heard_next h hlog ?_
    rw [hear_input, huntimed]
    rfl
  | error e =>
    rw [hhandle] at huntimed
    have hnext : Heard c { t with feed := t.feed } := by
      refine heard_next h hlog ?_
      rw [hear_input, huntimed, hfeed]
      rfl
    exact hnext.congr rfl rfl

theorem stop_heard {t : Graph σ} (h : Heard c s) (hfeed : t.feed = s.feed) (hlog : t.log = s.log ++ [Traffic.received .stop]) :
    Heard c { t with feed := { t.feed with stopped := true } } :=
  heard_next h hlog (by rw [hfeed]; rfl)

theorem other_heard {t : Graph σ} (h : Heard c s) (hfeed : t.feed = s.feed) (hlog : t.log = s.log ++ [Traffic.received .other]) :
    Heard c t := by
  have hnext : Heard c { t with feed := t.feed } := heard_next h hlog (by rw [hfeed]; rfl)
  exact hnext.congr rfl rfl

theorem drainUpTo_heard (fuel handled : ℕ) : Effect.Keeps (Heard c) (drainUpTo (σ := σ) c fuel handled) := by
  induction fuel generalizing handled with
  | zero => exact Effect.keeps_pure _
  | succ fuel ih =>
    intro s hs
    unfold drainUpTo Effect.Holds
    rw [Effect.ends_bind]
    refine (receive_heard hs).mono ?_ fun _ _ ht => ht
    rintro r t ⟨hnone, hsome⟩
    obtain _ | ⟨event, now⟩ := r
    · exact hnone rfl
    obtain ⟨hfeed, hlog⟩ := hsome _ _ rfl
    cases event with
    | stop => exact stop_heard hs hfeed hlog
    | input id value =>
      dsimp only
      rw [Effect.ends_bind]
      exact (handle_heard hs hfeed hlog).mono (fun _ u hu => ih _ u hu) fun _ _ hu => hu
    | other => exact ih _ t (other_heard hs hfeed hlog)

theorem drain_heard : Effect.Keeps (Heard c) (drain (σ := σ) c) :=
  Effect.keeps_get fun s hs => drainUpTo_heard _ _ s hs

theorem primeUpTo_heard (deadline : ℚ) (fuel : ℕ) : Effect.Keeps (Heard c) (primeUpTo (σ := σ) c deadline fuel) := by
  induction fuel with
  | zero => exact Effect.keeps_pure _
  | succ fuel ih =>
    intro s hs
    unfold primeUpTo Effect.Holds
    rw [Effect.ends_bind, Effect.ends_get]
    refine Effect.ends_ite (fun _ => hs) fun _ => ?_
    rw [Effect.ends_bind]
    refine (receive_heard hs).mono ?_ fun _ _ ht => ht
    rintro r t ⟨hnone, hsome⟩
    obtain _ | ⟨event, now⟩ := r
    · exact ih t (hnone rfl)
    obtain ⟨hfeed, hlog⟩ := hsome _ _ rfl
    cases event with
    | stop => exact stop_heard hs hfeed hlog
    | input id value =>
      dsimp only
      rw [Effect.ends_bind]
      exact (handle_heard hs hfeed hlog).mono (fun _ u hu => ih u hu) fun _ _ hu => hu
    | other => exact ih t (other_heard hs hfeed hlog)

/-- **However a call ends**, the feedback is what the log says -/
theorem call_heard (h : Heard c s) (call : Call) : Heard c (s.call c call) := by
  cases call with
  | sample now =>
    have hkeeps : Effect.Keeps (Heard c) (sample (σ := σ) c now) := by
      refine .bind drain_heard fun _ => Effect.keeps_get fun s hs => ?_
      refine Effect.ends_ite (fun _ => hs) fun _ => ?_
      split
      · exact hs
      · exact hs
    exact Effect.holds_iff.mp (hkeeps s h)
  | latestArmState =>
    have hkeeps : Effect.Keeps (Heard c) (latestArmState (σ := σ) c) := by
      refine .bind drain_heard fun _ => Effect.keeps_get fun s hs => ?_
      split
      · exact hs
      · exact hs
    exact Effect.holds_iff.mp (hkeeps s h)
  | prime deadline =>
    have hkeeps : Effect.Keeps (Heard c) (prime (σ := σ) c deadline) := by
      refine Effect.keeps_get fun s hs => ?_
      refine Effect.Keeps.bind (primeUpTo_heard _ _) (fun _ => Effect.keeps_get fun t ht => ?_) s hs
      exact Effect.ends_ite (fun _ => ht) fun _ => ht
    exact Effect.holds_iff.mp (hkeeps s h)

end

end Graph

/-! ## the messages -/

/-- a readable health message, from either topic -/
def HealthMessage (c : FeedbackTopics) (e : Traffic) (body : Body) : Prop :=
  ∃ id v, id ∈ c.healthIds ∧ e = .received (.input id (some v)) ∧ unpackJsonMessage v none = .ok body

/-- a readable `motor_health` with a latched fault -/
def Latched (e : Traffic) : Prop :=
  ∃ v body, e = .received (.input "motor_health" (some v)) ∧ unpackJsonMessage v none = .ok body ∧ body.latchedFault ≠ ""

/-- a readable controller event of kind `fault` -/
def ControllerFault (c : FeedbackTopics) (e : Traffic) : Prop :=
  ∃ v body, e = .received (.input c.eventId (some v)) ∧ unpackControllerEvent v = .ok body ∧ body.kind = "fault"

/-- a readable arm state -/
def ArmState (c : FeedbackTopics) (e : Traffic) : Prop :=
  ∃ v state, e = .received (.input c.armStateId (some v)) ∧ decodeArm c.numArmJoints v = .ok state

/-- a STOP or a controller fault came, or the last health message is a `motor_health` with a latched fault -/
def FaultStands (c : FeedbackTopics) (log : List Traffic) : Prop :=
  .received .stop ∈ log ∨ (∃ e ∈ log, ControllerFault c e) ∨
    Since (fun _ => Latched) (fun e => ∀ body, ¬ HealthMessage c e body) log

/-- the last health message that carries `armed` says so -/
def SaidDisarmed (c : FeedbackTopics) (log : List Traffic) : Prop :=
  Since (fun _ e => ∃ body, HealthMessage c e body ∧ body.armed = some false)
    (fun e => ∀ body, HealthMessage c e body → body.armed = none) log

section
variable {c : FeedbackTopics} {f f' : DoraFollowerFeedback} {id : String} {value : Option Payload} {now : ℚ}

/-- what an input can do -/
theorem handle_cases (h : f.handle c id value now = .ok f') :
    f' = f ∨ (∃ q dq, f' = { f with q := some q, dq := some dq, t := now }) ∨ (∃ w, f' = { f with widthM := w }) ∨
      (∃ body, HealthMessage c (.received (.input id value)) body ∧
        f' = { f with armed := body.armed <|> f.armed, healthFault := body.latchedFault }) ∨
      ∃ reason, reason ≠ "" ∧ f' = { f with eventFault := reason } := by
  cases value with
  | none => exact .inl (Except.ok.inj h).symm
  | some v =>
    change (if id = c.armStateId then f.parseMotorState c.numArmJoints v now
      else if id = c.gripperStateId then f.parseGripperState v
      else if id ∈ c.healthIds then f.parseHealth v
      else if id = c.eventId then f.parseControllerEvent v
      else .ok f) = .ok f' at h
    split_ifs at h with harm hgripper hhealth hevent
    · obtain ⟨state, -, rfl⟩ := Graph.of_map_ok h
      exact .inr (.inl ⟨state.1, state.2, rfl⟩)
    · unfold DoraFollowerFeedback.parseGripperState at h
      obtain ⟨body, -, hwidth⟩ := Graph.of_bind_ok h
      refine .inr (.inr (.inl ?_))
      cases hw : body.width with
      | none =>
        rw [hw] at hwidth
        exact ⟨none, (Except.ok.inj hwidth).symm⟩
      | some width =>
        rw [hw] at hwidth
        obtain ⟨w, -, hfeed⟩ := Graph.of_bind_ok hwidth
        exact ⟨some w, (Except.ok.inj hfeed).symm⟩
    · obtain ⟨body, hbody, rfl⟩ := Graph.of_map_ok h
      exact .inr (.inr (.inr (.inl ⟨body, ⟨id, v, hhealth, rfl, hbody⟩, rfl⟩)))
    · obtain ⟨body, -, rfl⟩ := Graph.of_map_ok h
      split_ifs with hkind hreason
      · exact .inr (.inr (.inr (.inr ⟨_, by decide, rfl⟩)))
      · exact .inr (.inr (.inr (.inr ⟨body.reason, hreason, rfl⟩)))
      · exact .inl rfl
    · exact .inl (Except.ok.inj h).symm

/-- a property of what is kept that every input keeps -/
theorem hear_keeps {P : DoraFollowerFeedback → Prop} (hstop : ∀ f, P f → P { f with stopped := true })
    (hinput : ∀ f f' id value, f.handle c id value 0 = .ok f' → P f → P f') (e : Traffic) (hf : P f) : P (hear c f e) := by
  match e with
  | .received .stop => exact hstop f hf
  | .received (.input id value) =>
    rw [Graph.hear_input]
    cases h : f.handle c id value 0 with
    | ok f' => exact hinput f f' id value h hf
    | error e => exact hf
  | .received .other => exact hf
  | .sent o => exact hf

theorem hear_stopped (e : Traffic) (hf : f.stopped = true) : (hear c f e).stopped = true := by
  refine hear_keeps (P := fun f => f.stopped = true) (fun _ _ => rfl) (fun f f' id value h hf => ?_) e hf
  obtain rfl | ⟨q, dq, rfl⟩ | ⟨w, rfl⟩ | ⟨body, -, rfl⟩ | ⟨reason, -, rfl⟩ := handle_cases h <;> exact hf

theorem hear_event (e : Traffic) (hf : f.eventFault ≠ "") : (hear c f e).eventFault ≠ "" := by
  refine hear_keeps (P := fun f => f.eventFault ≠ "") (fun _ hf => hf) (fun f f' id value h hf => ?_) e hf
  obtain rfl | ⟨q, dq, rfl⟩ | ⟨w, rfl⟩ | ⟨body, -, rfl⟩ | ⟨reason, hreason, rfl⟩ := handle_cases h
  · exact hf
  · exact hf
  · exact hf
  · exact hf
  · exact hreason

theorem hear_posed (e : Traffic) (hf : f.q.isSome = true) : (hear c f e).q.isSome = true := by
  refine hear_keeps (P := fun f => f.q.isSome = true) (fun _ hf => hf) (fun f f' id value h hf => ?_) e hf
  obtain rfl | ⟨q, dq, rfl⟩ | ⟨w, rfl⟩ | ⟨body, -, rfl⟩ | ⟨reason, -, rfl⟩ := handle_cases h
  · exact hf
  · rfl
  · exact hf
  · exact hf
  · exact hf

/-- an entry that is no health message keeps the latched fault -/
theorem hear_health {e : Traffic} (he : ∀ body, ¬ HealthMessage c e body) (hf : f.healthFault ≠ "") :
    (hear c f e).healthFault ≠ "" := by
  match e with
  | .received .stop => exact hf
  | .received (.input id value) =>
    rw [Graph.hear_input]
    cases h : f.handle c id value 0 with
    | ok f' =>
      obtain rfl | ⟨q, dq, rfl⟩ | ⟨w, rfl⟩ | ⟨body, hbody, rfl⟩ | ⟨reason, -, rfl⟩ := handle_cases h
      · exact hf
      · exact hf
      · exact hf
      · exact absurd hbody (he body)
      · exact hf
    | error e => exact hf
  | .received .other => exact hf
  | .sent o => exact hf

/-- an entry that does not carry `armed` keeps it -/
theorem hear_armed {e : Traffic} (he : ∀ body, HealthMessage c e body → body.armed = none) (hf : f.armed = some false) :
    (hear c f e).armed = some false := by
  match e with
  | .received .stop => exact hf
  | .received (.input id value) =>
    rw [Graph.hear_input]
    cases h : f.handle c id value 0 with
    | ok f' =>
      obtain rfl | ⟨q, dq, rfl⟩ | ⟨w, rfl⟩ | ⟨body, hbody, rfl⟩ | ⟨reason, -, rfl⟩ := handle_cases h
      · exact hf
      · exact hf
      · exact hf
      · show (body.armed <|> f.armed) = some false
        rw [he body hbody]
        exact hf
      · exact hf
    | error e => exact hf
  | .received .other => exact hf
  | .sent o => exact hf

theorem handle_health {n : ℕ} {v : Payload} {body : Body} (hid : id = "motor_health" ∨ id = "controller_arm")
    (hbody : unpackJsonMessage v none = .ok body) :
    f.handle { numArmJoints := n } id (some v) now =
      .ok { f with armed := body.armed <|> f.armed, healthFault := body.latchedFault } := by
  have hparse : f.parseHealth v = .ok { f with armed := body.armed <|> f.armed, healthFault := body.latchedFault } := by
    unfold DoraFollowerFeedback.parseHealth
    rw [hbody]
    rfl
  obtain rfl | rfl := hid
  · exact hparse
  · exact hparse

theorem hear_healthMessage {n : ℕ} {e : Traffic} {body : Body} (h : HealthMessage { numArmJoints := n } e body) :
    hear { numArmJoints := n } f e = { f with armed := body.armed <|> f.armed, healthFault := body.latchedFault } := by
  obtain ⟨id, v, hid, rfl, hbody⟩ := h
  rw [Graph.hear_input, handle_health (by simpa using hid) hbody]

theorem hear_controllerFault {n : ℕ} {e : Traffic} (h : ControllerFault { numArmJoints := n } e) :
    (hear { numArmJoints := n } f e).eventFault ≠ "" := by
  obtain ⟨v, body, rfl, hbody, hkind⟩ := h
  have hhandle : f.handle { numArmJoints := n } "controller_event" (some v) 0 =
      .ok { f with eventFault := if body.reason = "" then "controller fault" else body.reason } := by
    show f.parseControllerEvent v = _
    unfold DoraFollowerFeedback.parseControllerEvent
    rw [hbody]
    exact congrArg Except.ok (if_pos hkind)
  rw [Graph.hear_input, hhandle]
  dsimp only
  split_ifs with hreason
  · decide
  · exact hreason

theorem hear_armState {e : Traffic} (h : ArmState c e) : (hear c f e).q.isSome = true := by
  obtain ⟨v, state, rfl, hdec⟩ := h
  have hhandle : f.handle c c.armStateId (some v) 0 = .ok { f with q := some state.1, dq := some state.2, t := 0 } := by
    show (if c.armStateId = c.armStateId then f.parseMotorState c.numArmJoints v 0 else _) = _
    rw [if_pos rfl]
    unfold DoraFollowerFeedback.parseMotorState
    rw [hdec]
    rfl
  rw [Graph.hear_input, hhandle]
  rfl

theorem faultReason_ne (h : f.eventFault ≠ "" ∨ f.healthFault ≠ "") : f.faultReason ≠ "" := by
  unfold DoraFollowerFeedback.faultReason
  by_cases hevent : f.eventFault = ""
  · have hhealth := h.resolve_left fun hne => hne hevent
    simp [hevent, hhealth]
  · by_cases hhealth : f.healthFault = ""
    · simp [hevent, hhealth]
    · have hboth : [f.eventFault, f.healthFault].filter (· ≠ "") = [f.eventFault, f.healthFault] := by
        simp [hevent, hhealth]
      rw [hboth]
      show f.eventFault ++ "; " ++ f.healthFault ≠ ""
      simp [hevent]

end

/-! ## the sample -/

/-- what a sample is to report of the log -/
structure Reports (c : FeedbackTopics) (log : List Traffic) (r : Option FeedbackSample) : Prop where
  present : (∃ e ∈ log, ArmState c e) → r ≠ none
  fault : ∀ x ∈ r, FaultStands c log → x.fault = true
  disarmed : ∀ x ∈ r, .received .stop ∉ log → SaidDisarmed c log → x.armed = some false

section
variable {σ : Type} {n : ℕ} {s : Graph σ}

theorem since_of_mem {x : Traffic → Prop} {log : List Traffic} {e : Traffic} (he : e ∈ log) (hx : x e) :
    Since (fun _ => x) (fun _ => True) log := by
  obtain ⟨p, q, rfl⟩ := List.append_of_mem he
  exact ⟨p, e, q, rfl, hx, fun _ _ => trivial⟩

theorem Graph.Heard.stopped {c : FeedbackTopics} (h : Graph.Heard c s) (hstop : .received .stop ∈ s.log) :
    s.feed.stopped = true := by
  have hfold : (s.log.foldl (hear c) {}).stopped = true := by
    refine (since_of_mem (x := (· = .received .stop)) hstop rfl).foldl (P := fun f : DoraFollowerFeedback => f.stopped = true) ?_
      fun o f _ hf => hear_stopped o hf
    rintro p o f rfl
    rfl
  rw [← h] at hfold
  exact hfold

/-- only a STOP stops -/
theorem hear_stop {c : FeedbackTopics} {f : DoraFollowerFeedback} {e : Traffic} (h : (hear c f e).stopped = true) :
    f.stopped = true ∨ e = .received .stop := by
  match e with
  | .received .stop => exact .inr rfl
  | .received (.input id value) =>
    rw [Graph.hear_input] at h
    cases hhandle : f.handle c id value 0 with
    | ok f' =>
      rw [hhandle] at h
      obtain rfl | ⟨q, dq, rfl⟩ | ⟨w, rfl⟩ | ⟨body, -, rfl⟩ | ⟨reason, -, rfl⟩ := handle_cases hhandle <;> exact .inl h
    | error e =>
      rw [hhandle] at h
      exact .inl h
  | .received .other => exact .inl h
  | .sent o => exact .inl h

theorem Graph.Heard.stop_mem {c : FeedbackTopics} (h : Graph.Heard c s) (hstopped : s.feed.stopped = true) :
    .received .stop ∈ s.log := by
  have hfold : (s.log.foldl (hear c) {}).stopped = true := by
    rw [← h]
    exact hstopped
  clear h hstopped
  generalize s.log = log at hfold ⊢
  induction log using List.reverseRecOn with
  | nil => cases hfold
  | append_singleton log e ih =>
    rw [List.foldl_append] at hfold
    rcases hear_stop hfold with hf | rfl
    · exact List.mem_append_left _ (ih hf)
    · exact List.mem_append_right _ (List.mem_singleton_self _)

theorem Graph.Heard.posed {c : FeedbackTopics} (h : Graph.Heard c s) {e : Traffic} (he : e ∈ s.log) (hstate : ArmState c e) :
    s.feed.q.isSome = true := by
  have hfold : (s.log.foldl (hear c) {}).q.isSome = true :=
    (since_of_mem he hstate).foldl (P := fun f : DoraFollowerFeedback => f.q.isSome = true) (fun _ _ _ ho => hear_armState ho)
      fun o f _ hf => hear_posed o hf
  rw [← h] at hfold
  exact hfold

theorem Graph.Heard.event (h : Graph.Heard { numArmJoints := n } s) {e : Traffic} (he : e ∈ s.log)
    (hfault : ControllerFault { numArmJoints := n } e) : s.feed.eventFault ≠ "" := by
  have hfold : (s.log.foldl (hear { numArmJoints := n }) {}).eventFault ≠ "" :=
    (since_of_mem he hfault).foldl (P := fun f : DoraFollowerFeedback => f.eventFault ≠ "") (fun _ _ _ ho => hear_controllerFault ho)
      fun o f _ hf => hear_event o hf
  rw [← h] at hfold
  exact hfold

theorem Graph.Heard.health (h : Graph.Heard { numArmJoints := n } s)
    (hlatched : Since (fun _ => Latched) (fun e => ∀ body, ¬ HealthMessage { numArmJoints := n } e body) s.log) :
    s.feed.healthFault ≠ "" := by
  have hfold : (s.log.foldl (hear { numArmJoints := n }) {}).healthFault ≠ "" := by
    refine hlatched.foldl (P := fun f : DoraFollowerFeedback => f.healthFault ≠ "") ?_ fun o f ho hf => hear_health ho hf
    rintro p o f ⟨v, body, rfl, hbody, hne⟩
    have hmessage : HealthMessage { numArmJoints := n } _ body := ⟨"motor_health", v, by simp, rfl, hbody⟩
    rw [hear_healthMessage hmessage]
    exact hne
  rw [← h] at hfold
  exact hfold

theorem Graph.Heard.armed (h : Graph.Heard { numArmJoints := n } s) (hsaid : SaidDisarmed { numArmJoints := n } s.log) :
    s.feed.armed = some false := by
  have hfold : (s.log.foldl (hear { numArmJoints := n }) {}).armed = some false := by
    refine hsaid.foldl (P := fun f : DoraFollowerFeedback => f.armed = some false) ?_ fun o f ho hf => hear_armed ho hf
    rintro p o f ⟨body, hmessage, harmed⟩
    rw [hear_healthMessage hmessage]
    show (body.armed <|> f.armed) = some false
    rw [harmed]
    rfl
  rw [← h] at hfold
  exact hfold

theorem Graph.Heard.sample (h : Graph.Heard { numArmJoints := n } s) (now : ℚ) :
    Effect.Ends (fun r t => Reports { numArmJoints := n } t.log r) (fun _ _ => True)
      (Graph.sample { numArmJoints := n } now) s := by
  unfold Graph.sample
  rw [Effect.ends_bind]
  refine (Graph.drain_heard s h).mono (fun _ t ht => ?_) fun _ _ _ => trivial
  rw [Effect.ends_bind, Effect.ends_get]
  refine Effect.ends_ite (fun hstopped => ?_) fun hstopped => ?_
  · refine ⟨fun _ hnone => (by cases hnone), fun x hx _ => ?_, fun x hx hunstopped => ?_⟩
    · rw [← Option.some.inj hx]
    · exact absurd (ht.stop_mem hstopped) hunstopped
  · have hunstopped : .received .stop ∉ t.log := fun hstop => hstopped (ht.stopped hstop)
    cases hq : t.feed.q with
    | none =>
      refine ⟨fun ⟨e, he, hstate⟩ => ?_, fun x hx => (by cases hx), fun x hx => (by cases hx)⟩
      have hposed := ht.posed he hstate
      rw [hq] at hposed
      cases hposed
    | some q =>
      refine ⟨fun _ hnone => (by cases hnone), fun x hx hstands => ?_, fun x hx _ hsaid => ?_⟩
      · rw [← Option.some.inj hx]
        refine decide_eq_true (faultReason_ne ?_)
        obtain hstop | ⟨e, he, hfault⟩ | hlatched := hstands
        · exact absurd hstop hunstopped
        · exact .inl (ht.event he hfault)
        · exact .inr (ht.health hlatched)
      · rw [← Option.some.inj hx]
        exact ht.armed hsaid

/-- a node that has received nothing yet, with what it is to receive -/
def Graph.fresh (rest : σ) (inbox : List Receive) : Graph σ := { rest := rest, inbox := inbox }

/-- **Which faults a sample reports**, after any calls. -/
theorem faults_reported (rest : σ) (inbox : List Receive) (calls : List Graph.Call) (now : ℚ) :
    let c : FeedbackTopics := { numArmJoints := n }
    Effect.Ends (fun r t => Reports c t.log r) (fun _ _ => True) (Graph.sample c now)
      (Run.run (Graph.call c) (Graph.fresh rest inbox) calls) := by
  intro c
  have hstart : Graph.Heard c (Graph.fresh rest inbox) := by
    unfold Graph.Heard
    rfl
  have hrun : Graph.Heard c (Run.run (Graph.call c) (Graph.fresh rest inbox) calls) :=
    Run.invariant (I := Graph.Heard c) (C := fun _ _ => True) hstart (fun _ call _ h => Graph.call_heard h call)
      (Run.along_of_forall (fun _ _ => trivial) calls)
  exact hrun.sample now

end

/-! ## messages that take a fault back -/

def message (body : Body) : Payload := { length := 1, flat := .error (.error "no numbers"), body := .ok body }

/-- a health message with this latched fault, armed or not -/
def health (id latchedFault : String) (armed : Option Bool) : Receive :=
  ⟨0, .ok (some (.input id (some (message { schema := id, armed := armed, latchedFault := latchedFault })))), 0⟩

/-- one motor at rest -/
def motorState : Receive :=
  ⟨0, .ok (some (.input "motor_state" (some
    { length := 8, flat := .ok (List.replicate 8 (.fin 0)), body := .error (.error "no text") }))), 0⟩

/-- what the first sample reports of a fault and of the arm -/
def firstSample (inbox : List Receive) : Option (Bool × Option Bool) :=
  match Graph.sample { numArmJoints := 1 } 0 (Graph.fresh () inbox) with
  | .ok (some x) _ => some (x.fault, x.armed)
  | _ => none

/-- a newer health message takes the latched fault back, a STOP the answer to `armed` -/
theorem taken_back :
    firstSample [motorState, health "motor_health" "overtemperature" none, health "motor_health" "" none] =
        some (false, none) ∧
      firstSample [motorState, health "motor_health" "overtemperature" none, health "controller_arm" "" (some true)] =
        some (false, some true) ∧
      firstSample [motorState, health "motor_health" "" (some false), ⟨0, .ok (some .stop), 0⟩] = some (true, none) := by
  decide +kernel

end ArmControl.LeaderFollower
