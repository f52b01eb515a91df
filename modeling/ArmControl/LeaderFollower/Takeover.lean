import ArmControl.LeaderFollower.DoraFeedback
import ArmControl.LeaderFollower.Release

/-!
# Where a takeover starts

If no STOP comes before the first `jog`, the motion starts from a pose that a `motor_state` of the log
carries.  A STOP that comes first ends `prime` without an exception, and the run goes on: it arms the arm,
and its start pose may be the zero fallback.

* `Stable`             what receiving, handling and the other parties keep;
* `MeasuredStart`      what a log and a retargeter say about the start;
* `takeover_measured`  when they say it.
-/

namespace ArmControl.LeaderFollower

namespace Traffic

def jogs : Traffic → Bool
  | .sent (.jog _ _) => true
  | _ => false

/-- `control(arm=True)` -/
def arms : Traffic → Bool
  | .sent (.control u) => u.arm == some true
  | _ => false

end Traffic

/-- `q` is the pose of an arm state in the log -/
def Decoded (c : FeedbackTopics) (q : List Value) (log : List Traffic) : Prop :=
  ∃ v dq, .received (.input c.armStateId (some v)) ∈ log ∧ decodeArm c.numArmJoints v = .ok (q, dq)

/-- the offsets were taken at `pose`, and the motion starts there -/
structure TakenOver (r : Retargeter) (pose : List Value) : Prop where
  aligned : ∃ leader applied, (r.joints.mapM fun j => j.apply leader (.fin 0)) = .ok applied ∧
    r.align = some (pose.zipWith (· - ·) applied)
  reset : ∃ grip, r.start = some (pose, grip)

def Jogless (log : List Traffic) : Prop := ∀ x ∈ log, x.jogs = false

/-- a STOP came before the first jog -/
def StopFirst (log : List Traffic) : Prop :=
  ∃ before after, log = before ++ .received .stop :: after ∧ Jogless before

/-- a jog comes after the arm state that the motion starts from, and after a STOP comes none -/
structure MeasuredStart (c : FeedbackTopics) (log : List Traffic) (r : Retargeter) : Prop where
  measured : ∀ before o after, log = before ++ o :: after → o.jogs = true →
    ∃ pose, TakenOver r pose ∧ Decoded c pose before
  stopped : StopFirst log → ∀ x ∈ log, x.jogs = false ∧ x.arms = false

theorem Decoded.shorter {c : FeedbackTopics} {q : List Value} {xs ys : List Traffic} (h : Decoded c q xs)
    (hp : xs <+: ys) : Decoded c q ys := by
  obtain ⟨v, dq, hv, hdec⟩ := h
  exact ⟨v, dq, hp.subset hv, hdec⟩

theorem jogless_concat {log : List Traffic} {x : Traffic} (h : Jogless log) (hx : x.jogs = false) :
    Jogless (log ++ [x]) := by
  intro y hy
  rcases List.mem_append.mp hy with hy | hy
  · exact h y hy
  · rw [List.mem_singleton.mp hy]
    exact hx

theorem StopFirst.of_prefix {xs ys : List Traffic} (hs : .received .stop ∈ xs) (h : Jogless xs) (hp : xs <+: ys) :
    StopFirst ys := by
  obtain ⟨before, after, rfl⟩ := List.append_of_mem hs
  obtain ⟨tail, rfl⟩ := hp
  refine ⟨before, after ++ tail, ?_, fun x hx => h x (List.mem_append_left _ hx)⟩
  rw [List.append_assoc, List.cons_append]

/-- what comes after a jogless part has it before each of its jogs -/
theorem prefix_of_jog {base log before after : List Traffic} {o : Traffic} (hb : Jogless base) (hp : base <+: log)
    (hlog : log = before ++ o :: after) (ho : o.jogs = true) : base <+: before := by
  have hbefore : before <+: log := ⟨o :: after, hlog.symm⟩
  rcases List.prefix_or_prefix_of_prefix hp hbefore with h | h
  · exact h
  · obtain ⟨tail, rfl⟩ := h
    cases tail with
    | nil => rw [List.append_nil]
    | cons x tail =>
      obtain ⟨rest, rfl⟩ := hp
      rw [List.append_assoc, List.cons_append] at hlog
      obtain ⟨rfl, -⟩ := List.cons.inj (List.append_cancel_left hlog)
      have hx := hb x (List.mem_append_right _ List.mem_cons_self)
      exact absurd (hx.symm.trans ho) Bool.false_ne_true

namespace Graph

variable {σ α : Type} {c : FeedbackTopics} {I : Graph σ → Prop} {s : Graph σ}

/-- the other parties and the arrival of an event keep `I` -/
structure Stable (c : FeedbackTopics) (I : Graph σ → Prop) : Prop where
  rest : ∀ s r, I s → I { s with rest := r }
  taken : ∀ s inbox, I s → I { s with inbox := inbox }
  received : ∀ s e, I s → I { s with log := s.log ++ [Traffic.received e] }
  stop : ∀ s, I s → I { s with feed := { s.feed with stopped := true } }
  handled : ∀ s id value now feed, .received (.input id value) ∈ s.log →
    s.feed.handle c id value now = .ok feed → I s → I { s with feed := feed }

theorem onRest_keeps (h : Stable c I) (m : EStateM Exn σ α) : Effect.Keeps I (onRest m) := by
  intro s hs
  unfold onRest Effect.Holds
  rw [Effect.ends_zoom]
  exact Effect.ends_of (fun _ r _ => h.rest s r hs) fun _ r _ => h.rest s r hs

/-- a received event is in the log -/
theorem receive_spec (h : Stable c I) (hs : I s) :
    Effect.Ends (fun r t => I t ∧ ∀ e now, r = some (e, now) → .received e ∈ t.log) (fun _ t => I t) receive s := by
  unfold receive
  rw [Effect.ends_bind, Effect.ends_get]
  cases s.inbox with
  | nil => exact ⟨hs, fun _ _ heq => by cases heq⟩
  | cons r inbox =>
    obtain ⟨asked, outcome, now⟩ := r
    cases outcome with
    | ok e =>
      cases e with
      | none => exact ⟨h.taken s inbox hs, fun _ _ heq => by cases heq⟩
      | some e =>
        refine ⟨h.received _ e (h.taken s inbox hs), fun e' now heq => ?_⟩
        obtain ⟨rfl, -⟩ := Prod.mk.inj (Option.some.inj heq)
        exact List.mem_append_right _ (List.mem_singleton_self _)
    | error e =>
      show Effect.Ends _ _ (set _ >>= fun _ => if e.isException = true then pure none else throw e) s
      rw [Effect.ends_bind, Effect.ends_set]
      exact Effect.ends_ite (fun _ => ⟨h.taken s inbox hs, fun _ _ heq => by cases heq⟩) fun _ => h.taken s inbox hs

theorem receive_log (s : Graph σ) :
    Effect.Ends (fun r t => ∀ x ∈ t.log, x ∈ s.log ∨ ∃ e now, r = some (e, now) ∧ x = .received e)
      (fun _ t => t.log = s.log) receive s := by
  unfold receive
  rw [Effect.ends_bind, Effect.ends_get]
  cases s.inbox with
  | nil => exact fun x hx => .inl hx
  | cons r inbox =>
    obtain ⟨asked, outcome, now⟩ := r
    cases outcome with
    | ok e =>
      cases e with
      | none => exact fun x hx => .inl hx
      | some e =>
        intro x hx
        exact (List.mem_append.mp hx).imp_right fun hx => ⟨e, now, rfl, List.mem_singleton.mp hx⟩
    | error e =>
      show Effect.Ends _ _ (set _ >>= fun _ => if e.isException = true then pure none else throw e) s
      rw [Effect.ends_bind, Effect.ends_set]
      exact Effect.ends_ite (fun _ => fun x hx => .inl hx) fun _ => rfl

theorem handle_log {id : String} {value : Option Payload} {now : ℚ} (s : Graph σ) :
    Effect.Holds (fun t => t.log = s.log) (handle c id value now) s := by
  unfold handle Effect.Holds
  rw [Effect.ends_bind, Effect.ends_get, Effect.ends_bind]
  cases s.feed.handle c id value now with
  | ok feed => rfl
  | error e => rfl

theorem handle_spec (h : Stable c I) {id : String} {value : Option Payload} {now : ℚ} (hs : I s)
    (hlog : .received (.input id value) ∈ s.log) : Effect.Holds I (handle c id value now) s := by
  unfold handle Effect.Holds
  rw [Effect.ends_bind, Effect.ends_get, Effect.ends_bind]
  cases hfeed : s.feed.handle c id value now with
  | ok feed => exact h.handled s id value now feed hlog hfeed hs
  | error e => exact hs

theorem drainUpTo_keeps (h : Stable c I) (fuel handled : ℕ) : Effect.Keeps I (drainUpTo c fuel handled) := by
  induction fuel generalizing handled with
  | zero => exact Effect.keeps_pure _
  | succ fuel ih =>
    intro s hs
    unfold drainUpTo Effect.Holds
    rw [Effect.ends_bind]
    refine (receive_spec h hs).mono ?_ fun _ _ ht => ht
    rintro r t ⟨ht, hlog⟩
    match r with
    | none => exact ht
    | some (.stop, _) => exact h.stop t ht
    | some (.input id value, now) =>
      rw [Effect.ends_bind]
      exact (handle_spec h ht (hlog _ _ rfl)).mono (fun _ u hu => ih _ u hu) fun _ _ hu => hu
    | some (.other, _) => exact ih _ t ht

theorem drain_keeps (h : Stable c I) : Effect.Keeps I (drain c) :=
  Effect.keeps_get fun s hs => drainUpTo_keeps h _ _ s hs

theorem latestArmState_keeps (h : Stable c I) : Effect.Keeps I (latestArmState c) := by
  refine .bind (drain_keeps h) fun _ => Effect.keeps_get fun s hs => ?_
  split
  · exact hs
  · exact hs

theorem sample_keeps (h : Stable c I) (now : ℚ) : Effect.Keeps I (sample c now) := by
  refine .bind (drain_keeps h) fun _ => Effect.keeps_get fun s hs => ?_
  refine Effect.ends_ite (fun _ => hs) fun _ => ?_
  split
  · exact hs
  · exact hs

/-- a STOP that ends `prime` is in the log, and so is none where `prime` raises -/
theorem primeUpTo_spec (h : Stable c I) (deadline : ℚ) (fuel : ℕ) (hs : I s) :
    Effect.Ends (fun b t => I t ∧ (b = true → .received .stop ∈ t.log)) (fun _ t => I t)
      (primeUpTo c deadline fuel) s := by
  induction fuel generalizing s with
  | zero => exact ⟨hs, nofun⟩
  | succ fuel ih =>
    unfold primeUpTo
    rw [Effect.ends_bind, Effect.ends_get]
    refine Effect.ends_ite (fun _ => ⟨hs, nofun⟩) fun _ => ?_
    rw [Effect.ends_bind]
    refine (receive_spec h hs).mono ?_ fun _ _ ht => ht
    rintro r t ⟨ht, hlog⟩
    match r with
    | none => exact ih ht
    | some (.stop, _) => exact ⟨h.stop t ht, fun _ => hlog _ _ rfl⟩
    | some (.input id value, now) =>
      rw [Effect.ends_bind]
      exact (handle_spec h ht (hlog _ _ rfl)).mono (fun _ u hu => ih hu) fun _ _ hu => hu
    | some (.other, _) => exact ih ht

theorem prime_spec (h : Stable c I) (deadline : ℚ) (hs : I s) :
    Effect.Ends (fun _ t => I t ∧ (t.feed.q.isSome ∨ .received .stop ∈ t.log)) (fun _ t => I t)
      (prime c deadline) s := by
  unfold prime
  rw [Effect.ends_bind, Effect.ends_get, Effect.ends_bind]
  refine (primeUpTo_spec h deadline _ hs).mono ?_ fun _ _ ht => ht
  rintro b t ⟨ht, hstop⟩
  rw [Effect.ends_bind, Effect.ends_get]
  refine Effect.ends_ite (fun _ => ht) fun hgo => ⟨ht, ?_⟩
  cases b with
  | true => exact .inr (hstop rfl)
  | false =>
    refine .inl (Option.isSome_iff_ne_none.mpr fun hq => hgo ⟨?_, rfl⟩)
    rw [hq]
    rfl

def Unstopped (s : Graph σ) : Prop := .received .stop ∉ s.log

theorem primeUpTo_unstopped (deadline : ℚ) (fuel : ℕ) (hs : Unstopped s) :
    Effect.Ends (fun b t => b = false → Unstopped t) (fun _ t => Unstopped t) (primeUpTo c deadline fuel) s := by
  induction fuel generalizing s with
  | zero => exact fun _ => hs
  | succ fuel ih =>
    unfold primeUpTo
    rw [Effect.ends_bind, Effect.ends_get]
    refine Effect.ends_ite (fun _ _ => hs) fun _ => ?_
    rw [Effect.ends_bind]
    refine (receive_log s).mono ?_ fun _ t ht hstop => hs (ht ▸ hstop)
    intro r t ht
    have hother : (∀ now, r ≠ some (.stop, now)) → Unstopped t := by
      intro hr hstop
      rcases ht _ hstop with hstop | ⟨e, now, heq, he⟩
      · exact hs hstop
      · rw [← Traffic.received.inj he] at heq
        exact hr now heq
    match r with
    | none => exact ih (hother fun _ h => by cases h)
    | some (.stop, _) => exact fun h => by cases h
    | some (.input id value, now) =>
      rw [Effect.ends_bind]
      have ht' := hother fun _ h => by cases h
      exact (handle_log t).mono (fun _ u hu => ih fun hstop => ht' (hu ▸ hstop)) fun _ u hu hstop => ht' (hu ▸ hstop)
    | some (.other, _) => exact ih (hother fun _ h => by cases h)

/-- `prime` raises before a STOP only -/
theorem prime_unstopped (deadline : ℚ) (hs : Unstopped s) :
    Effect.Ends (fun _ _ => True) (fun _ t => Unstopped t) (prime c deadline) s := by
  unfold prime
  rw [Effect.ends_bind, Effect.ends_get, Effect.ends_bind]
  refine (primeUpTo_unstopped deadline _ hs).mono (fun b t ht => ?_) fun _ _ ht => ht
  rw [Effect.ends_bind, Effect.ends_get]
  exact Effect.ends_ite (fun hgo => ht hgo.2) fun _ => trivial

/-! ## what the graph keeps -/

theorem stable_log {R : List Traffic → Prop} (hR : ∀ log e, R log → R (log ++ [Traffic.received e])) :
    Stable c fun s : Graph σ => R s.log where
  rest := fun _ _ h => h
  taken := fun _ _ h => h
  received := fun s e h => hR s.log e h
  stop := fun _ h => h
  handled := fun _ _ _ _ _ _ _ h => h

theorem Stable.and {J : Graph σ → Prop} (hI : Stable c I) (hJ : Stable c J) : Stable c fun s => I s ∧ J s where
  rest := fun s r h => ⟨hI.rest s r h.1, hJ.rest s r h.2⟩
  taken := fun s inbox h => ⟨hI.taken s inbox h.1, hJ.taken s inbox h.2⟩
  received := fun s e h => ⟨hI.received s e h.1, hJ.received s e h.2⟩
  stop := fun s h => ⟨hI.stop s h.1, hJ.stop s h.2⟩
  handled := fun s id value now feed hlog hfeed h =>
    ⟨hI.handled s id value now feed hlog hfeed h.1, hJ.handled s id value now feed hlog hfeed h.2⟩

/-- no jog yet, and a pose that is kept was decoded from the log -/
structure Waiting (c : FeedbackTopics) (s : Graph σ) : Prop where
  jogless : Jogless s.log
  decoded : ∀ q, s.feed.q = some q → Decoded c q s.log

theorem of_map_ok {α β : Type} {x : Except Exn α} {f : α → β} {b : β} (h : x.map f = .ok b) :
    ∃ a, x = .ok a ∧ b = f a := by
  cases x with
  | error e => cases h
  | ok a => exact ⟨a, rfl, (Except.ok.inj h).symm⟩

theorem of_bind_ok {α β : Type} {x : Except Exn α} {f : α → Except Exn β} {b : β} (h : x >>= f = .ok b) :
    ∃ a, x = .ok a ∧ f a = .ok b := by
  cases x with
  | error e => cases h
  | ok a => exact ⟨a, rfl, h⟩

theorem parseGripperState_q {f feed : DoraFollowerFeedback} {v : Payload} (h : f.parseGripperState v = .ok feed) :
    feed.q = f.q := by
  unfold DoraFollowerFeedback.parseGripperState at h
  obtain ⟨body, -, hwidth⟩ := of_bind_ok h
  cases hw : body.width with
  | none =>
    rw [hw] at hwidth
    rw [← Except.ok.inj hwidth]
  | some width =>
    rw [hw] at hwidth
    obtain ⟨w, -, hfeed⟩ := of_bind_ok hwidth
    rw [← Except.ok.inj hfeed]

/-- a pose comes from the arm's topic only -/
theorem handle_q {f feed : DoraFollowerFeedback} {id : String} {value : Option Payload} {now : ℚ}
    (h : f.handle c id value now = .ok feed) :
    feed.q = f.q ∨ ∃ v q dq, id = c.armStateId ∧ value = some v ∧ decodeArm c.numArmJoints v = .ok (q, dq) ∧
      feed.q = some q := by
  cases value with
  | none => exact .inl (congrArg _ (Except.ok.inj h).symm)
  | some v =>
    change (if id = c.armStateId then f.parseMotorState c.numArmJoints v now
      else if id = c.gripperStateId then f.parseGripperState v
      else if id ∈ c.healthIds then f.parseHealth v
      else if id = c.eventId then f.parseControllerEvent v
      else .ok f) = .ok feed at h
    split_ifs at h with harm hgripper hhealth hevent
    · obtain ⟨x, hdec, rfl⟩ := of_map_ok h
      exact .inr ⟨v, x.1, x.2, harm, rfl, hdec, rfl⟩
    · exact .inl (parseGripperState_q h)
    · obtain ⟨body, -, rfl⟩ := of_map_ok h
      exact .inl rfl
    · obtain ⟨body, -, rfl⟩ := of_map_ok h
      refine .inl ?_
      split_ifs <;> rfl
    · exact .inl (congrArg _ (Except.ok.inj h).symm)

theorem stable_waiting : Stable c (Waiting c (σ := σ)) where
  rest := fun _ _ h => ⟨h.jogless, h.decoded⟩
  taken := fun _ _ h => ⟨h.jogless, h.decoded⟩
  received := fun s e h => ⟨jogless_concat h.jogless rfl, fun q hq => (h.decoded q hq).shorter (List.prefix_append _ _)⟩
  stop := fun _ h => ⟨h.jogless, h.decoded⟩
  handled := by
    intro s id value now feed hlog hfeed h
    refine ⟨h.jogless, fun q hq => ?_⟩
    rcases handle_q hfeed with heq | ⟨v, q', dq, rfl, rfl, hdec, heq⟩
    · exact h.decoded q (heq.symm.trans hq)
    · obtain rfl := Option.some.inj (heq.symm.trans hq)
      exact ⟨v, dq, hlog, hdec⟩

/-- a measured pose is at hand -/
def Known (c : FeedbackTopics) (s : Graph σ) : Prop := Waiting c s ∧ s.feed.q.isSome

theorem stable_known : Stable c (Known c (σ := σ)) where
  rest := fun s r h => ⟨stable_waiting.rest s r h.1, h.2⟩
  taken := fun s inbox h => ⟨stable_waiting.taken s inbox h.1, h.2⟩
  received := fun s e h => ⟨stable_waiting.received s e h.1, h.2⟩
  stop := fun s h => ⟨stable_waiting.stop s h.1, h.2⟩
  handled := by
    intro s id value now feed hlog hfeed h
    refine ⟨stable_waiting.handled s id value now feed hlog hfeed h.1, ?_⟩
    rcases handle_q hfeed with heq | ⟨v, q, dq, -, -, -, heq⟩
    · show feed.q.isSome = true
      rw [heq]
      exact h.2
    · show feed.q.isSome = true
      rw [heq]
      rfl

/-- with a pose at hand, the follower's state is measured -/
theorem latestArmState_spec (hs : Known c s) :
    Effect.Ends (fun pose t => Waiting c t ∧ Decoded c pose.1 t.log) (fun _ t => Waiting c t) (latestArmState c) s := by
  unfold latestArmState
  rw [Effect.ends_bind]
  refine (drain_keeps stable_known s hs).mono (fun _ t ht => ?_) fun _ _ ht => ht.1
  rw [Effect.ends_bind, Effect.ends_get]
  cases hq : t.feed.q with
  | none => exact absurd (hq.symm ▸ ht.2 : (none : Option (List Value)).isSome = true) Bool.false_ne_true
  | some q => exact ⟨ht.1, ht.1.decoded q hq⟩

end Graph

/-! ## the deployment -/

namespace Deployment

variable {σ α : Type} {d : Deployment σ} {J : Graph σ → Prop} {R : Retargeter → Prop}

/-- an output that the node takes keeps `J` -/
def TakesOutput (J : Graph σ → Prop) (o : Output) : Prop :=
  ∀ s : Graph σ, J s → J { s with log := s.log ++ [.sent o] }

theorem onNode_keeps {m : EStateM Exn (Graph σ) α} (hm : Effect.Keeps J m) :
    Effect.Keeps (fun w : DoraWorld (Graph σ) => J w.node) (DoraWorld.onNode m) :=
  hm.zoom (fun _ h => h) fun _ _ _ h => h

theorem put_keeps (hJ : Graph.Stable d.topics J) {o : Output} (ho : TakesOutput J o) :
    Effect.Keeps (fun w => J w.node) (DoraWorld.put (Graph.node d.node) o) :=
  .bind (onNode_keeps (.bind (Graph.onRest_keeps hJ _) fun _ => Effect.keeps_modify ho)) fun _ =>
    Effect.keeps_modify fun _ h => h

theorem ensureNode_keeps (hJ : Graph.Stable d.topics J) :
    Effect.Keeps (fun w => J w.node) (DoraWorld.onNode (Graph.node d.node).ensureNode) :=
  onNode_keeps (Graph.onRest_keeps hJ _)

theorem ignoring_keeps {I : DoraWorld (Graph σ) → Prop} {m : EStateM Exn (DoraWorld (Graph σ)) PUnit}
    (hm : Effect.Keeps I m) : Effect.Keeps I (DoraWorld.ignoring m) :=
  .tryCatch hm fun e => .ite (Effect.keeps_pure _) (Effect.keeps_throw e)

theorem open_keeps (hJ : Graph.Stable d.topics J) (ho : ∀ u, TakesOutput J (.control u)) :
    Effect.Keeps (fun w => J w.node) (DoraWorld.open' (Graph.node d.node) d.follower) := by
  have hopened : Effect.Keeps (fun w => J w.node)
      (modify fun s => { s with opened := true } : EStateM Exn (DoraWorld (Graph σ)) PUnit) :=
    Effect.keeps_modify fun _ h => h
  refine .bind (ensureNode_keeps hJ) fun _ => ?_
  exact .ite (.bind (put_keeps hJ (ho _)) fun _ => hopened) hopened

theorem safeStop_keeps (hJ : Graph.Stable d.topics J) (ho : ∀ u, TakesOutput J (.control u)) :
    Effect.Keeps (fun w => J w.node) (DoraWorld.safeStop (Graph.node d.node)) := by
  refine Effect.keeps_get fun w h => ?_
  refine Effect.ends_ite (fun _ => ?_) fun _ => h
  exact ignoring_keeps (.bind (ensureNode_keeps hJ) fun _ => put_keeps hJ (ho _)) w h

theorem close_keeps (hJ : Graph.Stable d.topics J) (ho : ∀ u, TakesOutput J (.control u)) :
    Effect.Keeps (fun w => J w.node) (DoraWorld.close (Graph.node d.node)) := by
  refine Effect.keeps_get fun w h => ?_
  refine Effect.ends_ite (fun _ => ?_) fun _ => h
  refine Effect.Keeps.bind (ignoring_keeps (.bind (ensureNode_keeps hJ) fun _ => put_keeps hJ (ho _)))
    (fun _ => ?_) w h
  exact Effect.keeps_modify fun _ h => h

theorem send_keeps (hJ : Graph.Stable d.topics J) (ho : ∀ o, TakesOutput J o) (arm : List Value) (grip : Value) :
    Effect.Keeps (fun w => J w.node) (DoraWorld.send (Graph.node d.node) d.follower arm grip) := by
  have hrest : Effect.Keeps (fun w : DoraWorld (Graph σ) => J w.node) (do
      DoraWorld.put (Graph.node d.node) (.jog arm d.follower.reason)
      DoraWorld.put (Graph.node d.node) (.gripper [grip, grip])
      modify fun s => { s with sent := s.sent + 1 }) :=
    .bind (put_keeps hJ (ho _)) fun _ => .bind (put_keeps hJ (ho _)) fun _ => Effect.keeps_modify fun _ h => h
  refine .bind (ensureNode_keeps hJ) fun _ => ?_
  exact .ite (.bind (Effect.keeps_throw _) fun _ => hrest) hrest

/-- a turn of the loop -/
theorem preserves (hJ : Graph.Stable d.topics J) (ho : ∀ o, TakesOutput J o)
    (hmap : ∀ leader now, Effect.Keeps R (Retargeter.map leader now)) (hslow : ∀ r x, R r → R { r with prev := x }) :
    TeleopLoop.Preserves d.parties fun w r => J w.node ∧ R r := by
  have hworld : ∀ {α : Type} {m : EStateM Exn (DoraWorld (Graph σ)) α} (r : Retargeter),
      Effect.Keeps (fun w => J w.node) m → Effect.Keeps (fun w => J w.node ∧ R r) m := fun r hm w hw =>
    (hm w hw.1).mono (fun _ _ h => ⟨h, hw.2⟩) fun _ _ h => ⟨h, hw.2⟩
  have hrest : ∀ {α : Type} (m : EStateM Exn σ α) (r : Retargeter),
      Effect.Keeps (fun w : DoraWorld (Graph σ) => J w.node ∧ R r) (DoraWorld.onNode (Graph.onRest m)) :=
    fun m r => hworld r (onNode_keeps (Graph.onRest_keeps hJ m))
  refine ⟨hrest _, fun r _ => hrest _ r, fun r _ => hrest _ r, fun r arm grip => hworld r (send_keeps hJ ho arm grip),
    fun r fb hfb => ?_, hrest _, fun r => hworld r (safeStop_keeps hJ fun u => ho _),
    fun w leader now r hr => (hmap leader now r hr.2).mono (fun _ _ h => ⟨hr.1, h⟩) fun _ _ h => ⟨hr.1, h⟩,
    fun w r x h => ⟨h.1, hslow r x h.2⟩⟩
  obtain rfl := Option.some.inj hfb
  exact hworld r (onNode_keeps (Effect.keeps_get fun s hs => Graph.sample_keeps hJ _ s hs))

/-- the loop's `try` statement with its `finally` block -/
theorem guarded_keeps (hJ : Graph.Stable d.topics J) (ho : ∀ o, TakesOutput J o)
    (hmap : ∀ leader now, Effect.Keeps R (Retargeter.map leader now)) (hslow : ∀ r x, R r → R { r with prev := x })
    (nows : List ℚ) :
    Effect.Keeps (TeleopLoop.World fun w r => J w.node ∧ R r)
      (Effect.andFinally (TeleopLoop.interruptible d.parties d.gates nows) (TeleopLoop.release d.parties)) := by
  have hcalled : ∀ {m : EStateM Exn (DoraWorld (Graph σ)) PUnit} (c : Call), Effect.Keeps (fun w => J w.node) m →
      Effect.Keeps (TeleopLoop.World fun w r => J w.node ∧ R r) (TeleopLoop.called c m) := fun c hm =>
    TeleopLoop.called_keeps fun r w hw => (hm w hw.1).mono (fun _ _ h => ⟨h, hw.2⟩) fun _ _ h => ⟨h, hw.2⟩
  refine .andFinally (TeleopLoop.interruptible_keeps (preserves hJ ho hmap hslow) nows) ?_
  refine .bind (hcalled _ (close_keeps hJ fun u => ho _)) fun _ => .bind (hcalled _ ?_) fun _ => hcalled _ ?_
  · exact onNode_keeps (Graph.onRest_keeps hJ _)
  · exact onNode_keeps (Graph.onRest_keeps hJ _)

/-! ## the start pose -/

theorem raising_keeps {ρ : Type} {I : ρ → Prop} (x : Except Exn α) : Effect.Keeps I (raising x) := by
  cases x with
  | ok a => exact Effect.keeps_pure a
  | error e => exact Effect.keeps_throw e

/-- a frame changes neither the offsets nor the start -/
theorem map_keeps (pose leader : List Value) (now : ℚ) :
    Effect.Keeps (TakenOver · pose) (Retargeter.map leader now) := by
  have hmodify : ∀ {f : Retargeter → Retargeter}, (∀ r, (f r).joints = r.joints ∧ (f r).align = r.align ∧
      (f r).start = r.start) → Effect.Keeps (TakenOver · pose) (modify f : EStateM Exn Retargeter PUnit) := by
    intro f hf
    refine Effect.keeps_modify fun r h => ?_
    obtain ⟨hjoints, halign, hstart⟩ := hf r
    refine ⟨?_, ?_⟩
    · rw [hjoints, halign]
      exact h.aligned
    · rw [hstart]
      exact h.reset
  refine Effect.keeps_get fun r h => Effect.ends_ite (fun _ => h) fun _ => ?_
  refine Effect.Keeps.bind (raising_keeps _) (fun desired => ?_) r h
  refine .bind (raising_keeps _) fun grip => .bind (hmodify ?_) fun _ => .bind (raising_keeps _) fun smooth =>
    .bind (hmodify ?_) fun _ => Effect.keeps_get fun r' h' => ?_
  · exact fun _ => ⟨rfl, rfl, rfl⟩
  · exact fun _ => ⟨rfl, rfl, rfl⟩
  · refine Effect.Keeps.bind (raising_keeps _) (fun soft => ?_) r' h'
    refine .bind (raising_keeps _) fun limited => .bind (hmodify ?_) fun _ => Effect.keeps_pure _
    exact fun _ => ⟨rfl, rfl, rfl⟩

theorem autoAlign_spec (leader pose : List Value) (r : Retargeter) :
    Effect.Ends (fun _ t => ∃ applied, (t.joints.mapM fun j => j.apply leader (.fin 0)) = .ok applied ∧
      t.align = some (pose.zipWith (· - ·) applied)) (fun _ _ => True) (Retargeter.autoAlign leader pose) r := by
  unfold Retargeter.autoAlign
  rw [Effect.ends_bind, Effect.ends_get]
  have hset : Effect.Ends (fun _ t => ∃ applied, (t.joints.mapM fun j => j.apply leader (.fin 0)) = .ok applied ∧
      t.align = some (pose.zipWith (· - ·) applied)) (fun _ _ => True)
      (raising (r.joints.mapM fun j => j.apply leader (.fin 0)) >>= fun applied =>
        set { r with align := some (pose.zipWith (· - ·) applied) }) r := by
    rw [Effect.ends_bind]
    cases happ : r.joints.mapM fun j => j.apply leader (.fin 0) with
    | ok applied => exact ⟨applied, happ, rfl⟩
    | error e => trivial
  exact Effect.ends_ite (fun _ => trivial) fun _ => hset

/-- after the alignment the start is a pose of the log, and no jog has gone out -/
structure Settled (d : Deployment σ) (pose : List Value) (s : TeleopLoop (DoraWorld (Graph σ))) : Prop where
  jogless : Jogless s.gate.world.node.log
  decoded : Decoded d.topics pose s.gate.world.node.log
  taken : TakenOver s.retargeter pose

theorem prepare_spec {s : TeleopLoop (DoraWorld (Graph σ))} (h : Graph.Known d.topics s.gate.world.node) :
    Effect.Ends (fun _ t => ∃ pose, Settled d pose t) (fun _ t => Jogless t.gate.world.node.log)
      (TeleopLoop.prepare d.parties true) s := by
  unfold TeleopLoop.prepare TeleopLoop.startupAlign
  rw [Effect.ends_bind, Effect.ends_bind, TeleopLoop.ends_called]
  refine (onNode_keeps (Graph.onRest_keeps Graph.stable_known _) _ h).mono (fun leader w hw => ?_)
    fun _ _ hw => hw.1.jogless
  rw [Effect.ends_bind, TeleopLoop.ends_called]
  show Effect.Ends _ _ (DoraWorld.onNode (Graph.latestArmState d.topics)) w
  unfold DoraWorld.onNode
  rw [Effect.ends_zoom]
  refine (Graph.latestArmState_spec hw).mono (fun pose v hv => ?_) fun _ _ hv => hv.jogless
  rw [if_pos rfl, Effect.ends_bind]
  unfold TeleopLoop.onRetargeter
  rw [Effect.ends_zoom]
  refine (autoAlign_spec leader pose.1 _).mono (fun _ r hr => ?_) fun _ _ _ => hv.1.jogless
  rw [Effect.ends_zoom]
  show Effect.Ends _ _ (TeleopLoop.called .pause (DoraWorld.onNode (Graph.onRest d.others.pause))) _
  rw [TeleopLoop.ends_called]
  have hstable : Graph.Stable d.topics fun t : Graph σ => Graph.Waiting d.topics t ∧ Decoded d.topics pose.1 t.log :=
    Graph.stable_waiting.and (Graph.stable_log fun _ _ h => h.shorter (List.prefix_append _ _))
  refine (onNode_keeps (Graph.onRest_keeps hstable d.others.pause) _ hv).mono (fun _ u hu => ?_)
    fun _ _ hu => hu.1.jogless
  exact ⟨pose.1, hu.1.jogless, hu.2, ⟨⟨leader, hr⟩, pose.2, rfl⟩⟩

/-- the motion starts from a pose of the log, or no jog went out -/
def Start (d : Deployment σ) (s : TeleopLoop (DoraWorld (Graph σ))) : Prop :=
  Jogless s.gate.world.node.log ∨ ∃ base pose, base <+: s.gate.world.node.log ∧ Jogless base ∧
    Decoded d.topics pose base ∧ TakenOver s.retargeter pose

theorem Start.measured {s : TeleopLoop (DoraWorld (Graph σ))} (h : Start d s) {before after : List Traffic}
    {o : Traffic} (hlog : s.gate.world.node.log = before ++ o :: after) (ho : o.jogs = true) :
    ∃ pose, TakenOver s.retargeter pose ∧ Decoded d.topics pose before := by
  rcases h with hno | ⟨base, pose, hp, hb, hdec, htaken⟩
  · have hmem : o ∈ s.gate.world.node.log := hlog ▸ List.mem_append_right _ List.mem_cons_self
    exact absurd ((hno o hmem).symm.trans ho) Bool.false_ne_true
  · exact ⟨pose, htaken, hdec.shorter (prefix_of_jog hb hp hlog ho)⟩

theorem run_start {s : TeleopLoop (DoraWorld (Graph σ))} (h : Graph.Known d.topics s.gate.world.node)
    (nows : List ℚ) : Effect.Holds (Start d) (TeleopLoop.run d.parties d.gates true nows) s := by
  have hcontrol : ∀ u, TakesOutput (Graph.Known (σ := σ) d.topics) (.control u) := fun u s hs =>
    ⟨⟨jogless_concat hs.1.jogless rfl, fun q hq => (hs.1.decoded q hq).shorter (List.prefix_append _ _)⟩, hs.2⟩
  unfold TeleopLoop.run Effect.Holds
  rw [Effect.ends_bind, TeleopLoop.ends_called]
  refine (open_keeps Graph.stable_known hcontrol _ h).mono (fun _ w hw => ?_) fun _ _ hw => .inl hw.1.jogless
  rw [Effect.ends_bind]
  refine (prepare_spec hw).mono (fun _ t ht => ?_) fun _ _ ht => .inl ht
  obtain ⟨pose, ht⟩ := ht
  have hstable : Graph.Stable d.topics fun u : Graph σ => t.gate.world.node.log <+: u.log :=
    Graph.stable_log fun _ _ h => h.trans (List.prefix_append _ _)
  have hsettled := guarded_keeps hstable (fun _ _ h => h.trans (List.prefix_append _ _)) (map_keeps pose)
    (fun _ _ h => ⟨h.aligned, h.reset⟩) nows t ⟨List.prefix_refl _, ht.taken⟩
  exact hsettled.mono (fun _ u hu => .inr ⟨_, pose, hu.1, ht.jogless, ht.decoded, hu.2⟩)
    fun _ u hu => .inr ⟨_, pose, hu.1, ht.jogless, ht.decoded, hu.2⟩

/-- what comes after `open` -/
theorem opened_keeps (hJ : Graph.Stable d.topics J) (ho : ∀ o, TakesOutput J o) (autoAlign : Bool) (nows : List ℚ) :
    Effect.Keeps (TeleopLoop.World fun w _ => J w.node) (do
      TeleopLoop.prepare d.parties autoAlign
      Effect.andFinally (TeleopLoop.interruptible d.parties d.gates nows) (TeleopLoop.release d.parties)) := by
  have hmap : ∀ leader now, Effect.Keeps (fun _ => True) (Retargeter.map leader now) := fun leader now r _ =>
    Effect.ends_of (fun _ _ _ => trivial) fun _ _ _ => trivial
  have hp := preserves (R := fun _ => True) hJ ho hmap fun _ _ _ => trivial
  have hboth : Effect.Keeps (TeleopLoop.World fun w _ => J w.node ∧ True) (do
      TeleopLoop.prepare d.parties autoAlign
      Effect.andFinally (TeleopLoop.interruptible d.parties d.gates nows) (TeleopLoop.release d.parties)) := by
    refine .bind (TeleopLoop.prepare_keeps hp (fun r w hw => ?_) (fun _ _ _ h => h) autoAlign) fun _ =>
      guarded_keeps hJ ho hmap (fun _ _ _ => trivial) nows
    exact (onNode_keeps (Graph.latestArmState_keeps hJ) w hw.1).mono (fun _ _ h => ⟨h, trivial⟩)
      fun _ _ h => ⟨h, trivial⟩
  exact fun s hs => (hboth s ⟨hs, trivial⟩).mono (fun _ _ h => h.1) fun _ _ h => h.1

theorem run_keeps (hJ : Graph.Stable d.topics J) (ho : ∀ o, TakesOutput J o) (autoAlign : Bool) (nows : List ℚ) :
    Effect.Keeps (TeleopLoop.World fun w _ => J w.node) (TeleopLoop.run d.parties d.gates autoAlign nows) :=
  .bind (TeleopLoop.called_keeps fun _ => open_keeps hJ fun _ => ho _) fun _ => opened_keeps hJ ho autoAlign nows

/-! ## the result -/

/-- nothing came yet and nothing went out -/
structure Built (s : TeleopLoop (DoraWorld (Graph σ))) : Prop where
  log : s.gate.world.node.log = []
  unmeasured : s.gate.world.node.feed.q = none

def arming : Output := .control { arm := some true }

/-- the follower arms on `open`, and the node takes that -/
def TakesArm (d : Deployment σ) : Prop :=
  d.follower.autoArm = true ∧ ∀ n, ∃ n₁ n₂, d.node.ensureNode n = .ok ⟨⟩ n₁ ∧ d.node.sendOutput arming n₁ = .ok ⟨⟩ n₂

/-- `prime` in the loop's world -/
def primed (d : Deployment σ) (deadline : ℚ) : EStateM Exn (TeleopLoop (DoraWorld (Graph σ))) PUnit :=
  TeleopLoop.onGate (Guarded.outside (DoraWorld.onNode (Graph.prime d.topics deadline)))

theorem ends_primed {Q : PUnit → Graph σ → Prop} {E : Exn → Graph σ → Prop} {deadline : ℚ}
    {s : TeleopLoop (DoraWorld (Graph σ))} (h : Effect.Ends Q E (Graph.prime d.topics deadline) s.gate.world.node) :
    Effect.Ends (fun a t => Q a t.gate.world.node) (fun e t => E e t.gate.world.node) (primed d deadline) s := by
  unfold primed TeleopLoop.onGate Guarded.outside DoraWorld.onNode
  rw [Effect.ends_zoom, Effect.ends_zoom, Effect.ends_zoom]
  exact h

theorem open_arms (h : TakesArm d) (w : DoraWorld (Graph σ)) :
    Effect.Ends (fun _ v => .sent arming ∈ v.node.log) (fun _ _ => False)
      (DoraWorld.open' (Graph.node d.node) d.follower) w := by
  obtain ⟨hauto, htakes⟩ := h
  obtain ⟨n₁, n₂, hens, hsend⟩ := htakes w.node.rest
  have hensure : Effect.Ends (fun _ v => v.node.rest = n₁) (fun _ _ => False)
      (DoraWorld.onNode (Graph.node d.node).ensureNode) w := by
    show Effect.Ends _ _ (DoraWorld.onNode (Graph.onRest d.node.ensureNode)) w
    unfold DoraWorld.onNode Graph.onRest
    rw [Effect.ends_zoom, Effect.ends_zoom]
    unfold Effect.Ends
    rw [hens]
  have hput : ∀ v : DoraWorld (Graph σ), v.node.rest = n₁ → Effect.Ends (fun _ v => .sent arming ∈ v.node.log)
      (fun _ _ => False) (DoraWorld.put (Graph.node d.node) arming) v := by
    intro v hv
    unfold DoraWorld.put DoraWorld.onNode
    rw [Effect.ends_bind, Effect.ends_zoom]
    show Effect.Ends _ _ (Graph.onRest (d.node.sendOutput arming) >>= _) _
    unfold Graph.onRest
    rw [Effect.ends_bind, Effect.ends_zoom, hv]
    unfold Effect.Ends
    rw [hsend]
    exact List.mem_append_right _ (List.mem_singleton_self _)
  unfold DoraWorld.open'
  rw [Effect.ends_bind]
  refine hensure.mono (fun _ v hv => ?_) fun _ _ h => h
  rw [if_pos hauto, Effect.ends_bind]
  exact (hput v hv).mono (fun _ _ h => h) fun _ _ h => h

/-- the log and the retargeter that a takeover leaves satisfy `MeasuredStart` -/
def StartsMeasured (d : Deployment σ) (deadline : ℚ) (nows : List ℚ) (s : TeleopLoop (DoraWorld (Graph σ))) : Prop :=
  MeasuredStart d.topics (Effect.leaves (d.takeover deadline true nows) s).gate.world.node.log
    (Effect.leaves (d.takeover deadline true nows) s).retargeter

/-- a STOP is received before the first jog -/
def StopsFirst (d : Deployment σ) (deadline : ℚ) (nows : List ℚ) (s : TeleopLoop (DoraWorld (Graph σ))) : Prop :=
  StopFirst (Effect.leaves (d.takeover deadline true nows) s).gate.world.node.log

theorem start_of_unstopped {s : TeleopLoop (DoraWorld (Graph σ))} (h0 : Built s) {deadline : ℚ} {nows : List ℚ}
    (h : ¬ StopsFirst d deadline nows s) : Start d (Effect.leaves (d.takeover deadline true nows) s) := by
  have hwaiting : Graph.Waiting d.topics s.gate.world.node := by
    refine ⟨?_, fun q hq => by rw [h0.unmeasured] at hq; cases hq⟩
    rw [h0.log]
    exact List.forall_mem_nil _
  have hprime := ends_primed (Graph.prime_spec Graph.stable_waiting deadline hwaiting)
  cases hrun : primed d deadline s with
  | error e t =>
    have hleaves : Effect.leaves (d.takeover deadline true nows) s = t := Effect.leaves_bind_error hrun
    rw [hleaves]
    exact .inl (hprime.of_error hrun).jogless
  | ok a t =>
    have hleaves : Effect.leaves (d.takeover deadline true nows) s =
        Effect.leaves (TeleopLoop.run d.parties d.gates true nows) t := Effect.leaves_bind_ok hrun
    obtain ⟨hw, hknown | hstop⟩ := hprime.of_ok hrun
    · rw [hleaves]
      exact Effect.holds_iff.mp (run_start ⟨hw, hknown⟩ nows)
    · have hlog := Effect.holds_iff.mp (run_keeps (d := d) (J := fun u => t.gate.world.node.log <+: u.log)
        (Graph.stable_log fun _ _ h => h.trans (List.prefix_append _ _))
        (fun _ _ h => h.trans (List.prefix_append _ _)) true nows t (List.prefix_refl _))
      refine absurd ?_ h
      unfold StopsFirst
      rw [hleaves]
      exact StopFirst.of_prefix hstop hw.jogless hlog

theorem armed_of_stop {s : TeleopLoop (DoraWorld (Graph σ))} (h0 : Built s) {deadline : ℚ} {nows : List ℚ}
    (harm : TakesArm d) (h : StopsFirst d deadline nows s) :
    .sent arming ∈ (Effect.leaves (d.takeover deadline true nows) s).gate.world.node.log := by
  obtain ⟨before, after, hlog, -⟩ := h
  have hunstopped : Graph.Unstopped s.gate.world.node := by
    unfold Graph.Unstopped
    rw [h0.log]
    exact List.not_mem_nil
  have hprime := ends_primed (Graph.prime_unstopped (c := d.topics) deadline hunstopped)
  cases hrun : primed d deadline s with
  | error e t =>
    have hleaves : Effect.leaves (d.takeover deadline true nows) s = t := Effect.leaves_bind_error hrun
    rw [hleaves] at hlog
    refine absurd ?_ (hprime.of_error hrun)
    rw [hlog]
    exact List.mem_append_right _ List.mem_cons_self
  | ok a t =>
    have hleaves : Effect.leaves (d.takeover deadline true nows) s =
        Effect.leaves (TeleopLoop.run d.parties d.gates true nows) t := Effect.leaves_bind_ok hrun
    rw [hleaves]
    have hafter := opened_keeps (d := d) (J := fun u => .sent arming ∈ u.log)
      (Graph.stable_log (R := fun log => .sent arming ∈ log) fun _ _ h => List.mem_append_left _ h)
      (fun _ _ h => List.mem_append_left _ h) true nows
    have hall : Effect.Holds (TeleopLoop.World fun w : DoraWorld (Graph σ) => fun _ => .sent arming ∈ w.node.log)
        (TeleopLoop.run d.parties d.gates true nows) t := by
      unfold TeleopLoop.run Effect.Holds
      rw [Effect.ends_bind, TeleopLoop.ends_called]
      exact (open_arms harm t.gate.world).mono (fun _ w hw => hafter _ hw) fun _ _ h => h.elim
    exact Effect.holds_iff.mp hall

/-- **A takeover starts from a measured pose if no STOP comes first.**  Then every jog of the log comes after
the arm state that the offsets and the start were taken from.  Where a STOP comes before the first jog and the
follower can arm, the arm is armed all the same, and the takeover breaks its promise. -/
theorem takeover_measured (deadline : ℚ) (nows : List ℚ) :
    ∀ (σ : Type) (d : Deployment σ) (s : TeleopLoop (DoraWorld (Graph σ))), Built s →
      (¬ StopsFirst d deadline nows s → StartsMeasured d deadline nows s) ∧
      (TakesArm d → StartsMeasured d deadline nows s → ¬ StopsFirst d deadline nows s) := by
  intro σ d s h0
  refine ⟨fun h => ⟨fun before o after hlog ho => (start_of_unstopped h0 h).measured hlog ho, fun hstop => ?_⟩,
    fun harm hms hstop => ?_⟩
  · exact absurd hstop h
  · have hquiet := hms.stopped hstop _ (armed_of_stop h0 harm hstop)
    exact absurd hquiet.2.symm Bool.false_ne_true

/-- one joint at `0`, and a node that takes everything -/
def oneJoint : Deployment Unit where
  node := TeleopLoop.anyNode
  follower := { numArmJoints := 1 }
  others := TeleopLoop.still 0
  gates := TeleopLoop.wide
  clock := fun _ => 1

def builtWith (inbox : List Receive) : TeleopLoop (DoraWorld (Graph Unit)) where
  gate := { world := { node := { rest := (), inbox := inbox } } }
  retargeter := TeleopLoop.fresh.retargeter

/-- a `motor_state` of one motor at rest -/
def atRest : Receive where
  asked := 0
  outcome := .ok (some (.input "motor_state" (some
    { length := 8, flat := .ok (List.replicate 8 (.fin 0)), body := .error (.error "no JSON") })))
  now := 1

def stopNow : Receive where
  asked := 0
  outcome := .ok (some .stop)
  now := 1

theorem oneJoint_takesArm : TakesArm oneJoint := ⟨rfl, fun n => ⟨n, n, rfl, rfl⟩⟩

def stops : Traffic → Bool
  | .received .stop => true
  | _ => false

theorem eq_received_stop {x : Traffic} (h : stops x = true) : x = .received .stop := by
  cases x with
  | sent o => cases h
  | received e =>
    cases e with
    | stop => rfl
    | input id value => cases h
    | other => cases h

theorem takeover_measured_at_rest :
    StartsMeasured oneJoint 1 [1] (builtWith [atRest]) ∧ ¬ StopsFirst oneJoint 1 [1] (builtWith [atRest]) ∧
      ∃ x ∈ (Effect.leaves (oneJoint.takeover 1 true [1]) (builtWith [atRest])).gate.world.node.log,
        x.jogs = true := by
  have hno : ∀ x ∈ (Effect.leaves (oneJoint.takeover 1 true [1]) (builtWith [atRest])).gate.world.node.log,
      stops x = false := by decide +kernel
  have hjog : ∃ x ∈ (Effect.leaves (oneJoint.takeover 1 true [1]) (builtWith [atRest])).gate.world.node.log,
      x.jogs = true := by decide +kernel
  have hquiet : ¬ StopsFirst oneJoint 1 [1] (builtWith [atRest]) := by
    rintro ⟨before, after, hlog, -⟩
    have hstop := hno (.received .stop) (hlog ▸ List.mem_append_right _ List.mem_cons_self)
    cases hstop
  have hboth := takeover_measured 1 [1] Unit oneJoint (builtWith [atRest]) ⟨rfl, rfl⟩
  exact ⟨hboth.1 hquiet, hboth.2 oneJoint_takesArm (hboth.1 hquiet), hjog⟩

/-- a STOP while the node waits for the first pose, and the arm is armed -/
theorem stopped_and_armed :
    ¬ ∀ (d : Deployment Unit) (s : TeleopLoop (DoraWorld (Graph Unit))), Built s → StartsMeasured d 1 [1] s := by
  intro h
  have hhead : (Effect.leaves (oneJoint.takeover 1 true [1]) (builtWith [stopNow])).gate.world.node.log.head?.map stops =
      some true := by decide +kernel
  have hstop : StopsFirst oneJoint 1 [1] (builtWith [stopNow]) := by
    obtain ⟨x, hx, hstops⟩ := Option.map_eq_some_iff.mp hhead
    obtain ⟨tail, hlog⟩ := List.head?_eq_some_iff.mp hx
    exact ⟨[], tail, eq_received_stop hstops ▸ hlog, List.forall_mem_nil _⟩
  have harmed : ∃ x ∈ (Effect.leaves (oneJoint.takeover 1 true [1]) (builtWith [stopNow])).gate.world.node.log,
      x.arms = true := by decide +kernel
  obtain ⟨x, hx, harm⟩ := harmed
  have hquiet := (h oneJoint (builtWith [stopNow]) ⟨rfl, rfl⟩).stopped hstop x hx
  exact absurd (hquiet.2.symm.trans harm) Bool.false_ne_true

end Deployment

end ArmControl.LeaderFollower
