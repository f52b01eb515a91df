import ArmControl.LeaderFollower.Follower
import ArmControl.LeaderFollower.TargetGates

/-!
# A stopped run and its follower

Whatever the parties return or raise, once the loop's `try` statement is entered the follower is closed, is
sent nothing after the first failure, and is stopped before it is closed where a gate failed.  What is raised
between `open` and that statement leaves the follower as `open` made it.

* `Released`            what the entries of a run say about the follower;
* `Calm`, `Broken`, `Orderly`   what a program adds to the entries;
* `teleop_release`      the follower is released if and only if the alignment returns.
-/

namespace ArmControl.LeaderFollower

namespace Entry

def failed : Entry → Bool
  | .called _ none => false
  | .called _ (some _) => true
  | .gateFailed _ _ => true

def gate : Entry → Bool
  | .gateFailed _ _ => true
  | .called _ _ => false

def sends : Entry → Bool
  | .called (.send _ _ _) _ => true
  | _ => false

def stops : Entry → Bool
  | .called .safeStop _ => true
  | _ => false

def closes : Entry → Bool
  | .called .followerClose _ => true
  | _ => false

/-- no target after a failure -/
def Late (x y : Entry) : Prop := x.failed = true → y.sends = false

end Entry

open Entry

/-- the follower was closed, got no target after the first failure, and was stopped first where a gate failed -/
structure Released (es : List Entry) : Prop where
  closed : ∃ x ∈ es, x.closes = true
  silent : es.Pairwise Late
  stopped : (∃ x ∈ es, x.gate = true) → ∃ before after, es = before ++ after ∧
    (∃ x ∈ before, x.stops = true) ∧ ∀ x ∈ before, x.closes = false

/-- `follower.open()` returned -/
def Opened (es : List Entry) : Prop := Entry.called .followerOpen none ∈ es

namespace TeleopLoop

variable {σ α β : Type} {p : Parties σ} {g : SafetyGates} {s t : TeleopLoop σ} {now : ℚ} {A B : List Entry} {e : Exn}

/-- nothing between `open` and the `try` statement raises -/
def Aligns (p : Parties σ) (autoAlign : Bool) (s : TeleopLoop σ) : Prop :=
  ∀ t, called .followerOpen p.followerOpen s = .ok ⟨⟩ t → ∃ t', prepare p autoAlign t = .ok ⟨⟩ t'

/-! ## what a program adds to the entries -/

/-- nothing failed, and the follower is not closed -/
def Calm (new : List Entry) : Prop := ∀ x ∈ new, x.failed = false ∧ x.closes = false

/-- the first failure is the last but for entries that are no targets; a failed gate raises `SafetyStop` -/
structure Broken (e : Exn) (new : List Entry) : Prop where
  silent : new.Pairwise Late
  unclosed : ∀ x ∈ new, x.closes = false
  gate : (∃ x ∈ new, x.gate = true) → ∃ reason source, e = .safetyStop reason source

/-- the follower is not closed yet, and was stopped where a gate failed -/
structure Orderly (new : List Entry) : Prop where
  silent : new.Pairwise Late
  unclosed : ∀ x ∈ new, x.closes = false
  gate : (∃ x ∈ new, x.gate = true) → ∃ x ∈ new, x.stops = true

theorem failed_of_gate {x : Entry} (h : x.gate = true) : x.failed = true := by
  cases x with
  | called c raised => cases h
  | gateFailed reason source => rfl

theorem Calm.append (ha : Calm A) (hb : Calm B) : Calm (A ++ B) := by
  intro x hx
  rcases List.mem_append.mp hx with hx | hx
  · exact ha x hx
  · exact hb x hx

theorem Calm.ungated (h : Calm A) : ¬ ∃ x ∈ A, x.gate = true := by
  rintro ⟨x, hx, hg⟩
  exact absurd ((h x hx).1.symm.trans (failed_of_gate hg)) Bool.false_ne_true

theorem Calm.late (h : Calm A) : ∀ x ∈ A, ∀ y, Late x y := by
  intro x hx y hf
  exact absurd ((h x hx).1.symm.trans hf) Bool.false_ne_true

theorem Calm.pairwise (h : Calm A) : A.Pairwise Late :=
  List.pairwise_of_forall_mem_list fun x hx y _ => h.late x hx y

theorem exists_append {P : Entry → Prop} (h : ∃ x ∈ A ++ B, P x) : (∃ x ∈ A, P x) ∨ ∃ x ∈ B, P x := by
  obtain ⟨x, hx, hp⟩ := h
  exact (List.mem_append.mp hx).imp (fun hx => ⟨x, hx, hp⟩) fun hx => ⟨x, hx, hp⟩

theorem Calm.broken (ha : Calm A) (hb : Broken e B) : Broken e (A ++ B) where
  silent := List.pairwise_append.mpr ⟨ha.pairwise, hb.silent, fun x hx y _ => ha.late x hx y⟩
  unclosed := fun x hx => (List.mem_append.mp hx).elim (fun hx => (ha x hx).2) (hb.unclosed x)
  gate := fun h => (exists_append h).elim (fun h => absurd h ha.ungated) hb.gate

theorem Calm.orderly (ha : Calm A) (hb : Orderly B) : Orderly (A ++ B) where
  silent := List.pairwise_append.mpr ⟨ha.pairwise, hb.silent, fun x hx y _ => ha.late x hx y⟩
  unclosed := fun x hx => (List.mem_append.mp hx).elim (fun hx => (ha x hx).2) (hb.unclosed x)
  gate := fun h => (exists_append h).elim (fun h => absurd h ha.ungated) fun h =>
    (hb.gate h).imp fun _ hx => ⟨List.mem_append_right _ hx.1, hx.2⟩

theorem orderly_nil : Orderly [] := ⟨.nil, List.forall_mem_nil _, fun h => absurd h (by simp)⟩

/-- entries with no target may follow anything -/
theorem silent_append (ha : A.Pairwise Late) (hb : B.Pairwise Late) (hs : ∀ x ∈ B, x.sends = false) :
    (A ++ B).Pairwise Late := List.pairwise_append.mpr ⟨ha, hb, fun _ _ y hy _ => hs y hy⟩

theorem Broken.orderly (h : Broken e A) (he : ∀ reason source, e ≠ .safetyStop reason source) : Orderly A where
  silent := h.silent
  unclosed := h.unclosed
  gate := fun hg => by
    obtain ⟨reason, source, rfl⟩ := h.gate hg
    exact absurd rfl (he reason source)

/-- a stop after the failure -/
theorem Broken.stopped (h : Broken e A) (r : Option Exn) : Orderly (A ++ [Entry.called .safeStop r]) where
  silent := silent_append h.silent (List.pairwise_singleton _ _) fun x hx => by rw [List.mem_singleton.mp hx]; rfl
  unclosed := fun x hx => (List.mem_append.mp hx).elim (h.unclosed x) fun hx => by rw [List.mem_singleton.mp hx]; rfl
  gate := fun _ => ⟨_, List.mem_append_right _ (List.mem_singleton_self _), rfl⟩

theorem Broken.gated (h : Broken e A) (reason : Reason) (source : Source) :
    Broken (.safetyStop reason source) (A ++ [Entry.gateFailed reason source]) where
  silent := silent_append h.silent (List.pairwise_singleton _ _) fun x hx => by rw [List.mem_singleton.mp hx]; rfl
  unclosed := fun x hx => (List.mem_append.mp hx).elim (h.unclosed x) fun hx => by rw [List.mem_singleton.mp hx]; rfl
  gate := fun _ => ⟨reason, source, rfl⟩

theorem Orderly.stopped (h : Orderly A) (r : Option Exn) : Orderly (A ++ [Entry.called .safeStop r]) where
  silent := silent_append h.silent (List.pairwise_singleton _ _) fun x hx => by rw [List.mem_singleton.mp hx]; rfl
  unclosed := fun x hx => (List.mem_append.mp hx).elim (h.unclosed x) fun hx => by rw [List.mem_singleton.mp hx]; rfl
  gate := fun _ => ⟨_, List.mem_append_right _ (List.mem_singleton_self _), rfl⟩

/-- what was added since `s` satisfies `P` -/
def Grows (s : TeleopLoop σ) (P : List Entry → Prop) (t : TeleopLoop σ) : Prop :=
  ∃ new, t.entries = s.entries ++ new ∧ P new

/-- a program that is calm when it returns -/
def Calmly (m : EStateM Exn (TeleopLoop σ) α) : Prop :=
  ∀ s, Effect.Ends (fun _ t => Grows s Calm t) (fun e t => Grows s (Broken e) t) m s

theorem grows_same {P : List Entry → Prop} (h : t.entries = s.entries) (hP : P []) : Grows s P t :=
  ⟨[], h.trans (List.append_nil _).symm, hP⟩

theorem Grows.after {P R : List Entry → Prop} {u : TeleopLoop σ} (h : Grows s Calm t) (h' : Grows t P u)
    (hR : ∀ A B, Calm A → P B → R (A ++ B)) : Grows s R u := by
  obtain ⟨A, hA, hcalm⟩ := h
  obtain ⟨B, hB, hP⟩ := h'
  exact ⟨A ++ B, by rw [hB, hA, List.append_assoc], hR A B hcalm hP⟩

theorem calm_nil : Calm [] := List.forall_mem_nil _

theorem broken_nil (e : Exn) : Broken e [] := ⟨.nil, List.forall_mem_nil _, fun h => absurd h (by simp)⟩

theorem broken_call {c : Call} (hc : c ≠ .followerClose) (e : Exn) : Broken e [.called c (some e)] where
  silent := List.pairwise_singleton _ _
  unclosed := fun x hx => by
    rw [List.mem_singleton.mp hx]
    cases c <;> first | rfl | exact absurd rfl hc
  gate := fun ⟨x, hx, hg⟩ => by
    rw [List.mem_singleton.mp hx] at hg
    cases hg

theorem calm_call {c : Call} (hc : c ≠ .followerClose) : Calm [.called c none] := by
  intro x hx
  rw [List.mem_singleton.mp hx]
  refine ⟨rfl, ?_⟩
  cases c <;> first | rfl | exact absurd rfl hc

theorem calmly_pure (a : α) : Calmly (pure a : EStateM Exn (TeleopLoop σ) α) := fun _ => grows_same rfl calm_nil

theorem calmly_modify {f : TeleopLoop σ → TeleopLoop σ} (hf : ∀ s, (f s).entries = s.entries) :
    Calmly (modify f : EStateM Exn (TeleopLoop σ) PUnit) := fun s => grows_same (hf s) calm_nil

theorem Calmly.bind {m : EStateM Exn (TeleopLoop σ) β} {f : β → EStateM Exn (TeleopLoop σ) α} (hm : Calmly m)
    (hf : ∀ b, Calmly (f b)) : Calmly (m >>= f) := by
  intro s
  rw [Effect.ends_bind]
  refine (hm s).mono (fun b t ht => ?_) fun _ _ h => h
  refine (hf b t).mono (fun _ u hu => ht.after hu fun _ _ => Calm.append) fun e u hu => ht.after hu fun _ _ => Calm.broken

theorem calmly_get {f : TeleopLoop σ → EStateM Exn (TeleopLoop σ) α}
    (hf : ∀ s, Effect.Ends (fun _ t => Grows s Calm t) (fun e t => Grows s (Broken e) t) (f s) s) :
    Calmly (get >>= f) := by
  intro s
  rw [Effect.ends_bind, Effect.ends_get]
  exact hf s

theorem calmly_noted {c : Call} {m : EStateM Exn (TeleopLoop σ) α}
    (hm : ∀ s, Effect.Holds (fun t => t.entries = s.entries) m s) (hc : c ≠ .followerClose) :
    Calmly (noted c m) := by
  intro s
  rw [ends_noted]
  refine (hm s).mono (fun _ t ht => ⟨_, ?_, calm_call hc⟩) fun e t ht => ⟨_, ?_, broken_call hc e⟩
  · exact congrArg (· ++ _) ht
  · exact congrArg (· ++ _) ht

theorem calmly_called {c : Call} (m : EStateM Exn σ α) (hc : c ≠ .followerClose := by nofun) :
    Calmly (called c m) := by
  refine calmly_noted (fun s => ?_) hc
  unfold onGate Guarded.outside Effect.Holds
  rw [Effect.ends_zoom, Effect.ends_zoom]
  exact Effect.ends_of (fun _ _ _ => rfl) fun _ _ _ => rfl

theorem calmly_onGate {c : Call} (m : EStateM Exn (Guarded σ) α) (hc : c ≠ .followerClose := by nofun) :
    Calmly (noted c (onGate m)) := by
  refine calmly_noted (fun s => ?_) hc
  unfold onGate Effect.Holds
  rw [Effect.ends_zoom]
  exact Effect.ends_of (fun _ _ _ => rfl) fun _ _ _ => rfl

theorem calmly_onRetargeter (m : EStateM Exn Retargeter α) :
    Calmly (onRetargeter m : EStateM Exn (TeleopLoop σ) α) := by
  intro s
  unfold onRetargeter
  rw [Effect.ends_zoom]
  exact Effect.ends_of (fun _ _ _ => grows_same rfl calm_nil) fun e _ _ => grows_same rfl (broken_nil e)

theorem broken_gate (reason : Reason) (source : Source) :
    Broken (.safetyStop reason source) [.gateFailed reason source] where
  silent := List.pairwise_singleton _ _
  unclosed := fun x hx => by rw [List.mem_singleton.mp hx]; rfl
  gate := fun _ => ⟨reason, source, rfl⟩

theorem calmly_raiseStop (reason : Reason) (source : Source) :
    Calmly (raiseStop reason source : EStateM Exn (TeleopLoop σ) α) := fun s => by
  rw [ends_raiseStop]
  exact ⟨_, rfl, broken_gate reason source⟩

theorem calmly_judge (source : Source) (verdict : SafetyMonitor → SafetyVerdict × SafetyMonitor) :
    Calmly (judge source verdict : EStateM Exn (TeleopLoop σ) PUnit) := by
  refine calmly_get fun s => ?_
  rw [Effect.ends_bind, Effect.ends_set]
  split
  · exact grows_same rfl calm_nil
  · rw [ends_raiseStop]
    exact ⟨_, rfl, broken_gate _ source⟩

theorem calmly_slowDown (v : Value) (target : List Value) :
    Calmly (slowDown v target : EStateM Exn (TeleopLoop σ) (List Value)) := by
  refine calmly_get fun s => ?_
  split
  · exact Effect.ends_ite (fun _ => grows_same rfl calm_nil) fun _ => grows_same rfl calm_nil
  · exact grows_same rfl calm_nil

theorem calmly_command (leader target : List Value) (grip : Value) :
    Calmly (command p g leader target grip now) := by
  refine .bind (calmly_called _) fun _ => .bind (calmly_onGate _) fun checked => ?_
  cases checked.1 with
  | refused reason => exact calmly_raiseStop reason .target
  | ok v =>
    refine .bind (calmly_slowDown v checked.2) fun arm => .bind (calmly_called _) fun _ => ?_
    exact calmly_modify fun _ => rfl

/-- a feedback that raised is refused -/
theorem faulted_refused (m : SafetyMonitor) (n : ℕ) (text : String) :
    ∃ reason, (m.checkFeedback g (some
      { armQ := List.replicate n .nan, timestamp := .fin now, fault := true, faultReason := text }) now).1 =
        .refused reason := by
  unfold SafetyMonitor.checkFeedback
  simp only [↓reduceIte, ite_self]
  generalize (if text = "" then "unknown" else text) = shown
  generalize Value.fin now - Value.fin now = gap
  split_ifs
  · exact ⟨.staleSample gap g.limits.feedbackTimeoutS, rfl⟩
  · exact ⟨.feedbackIllegal, rfl⟩
  · exact ⟨.controllerFault shown, rfl⟩

/-- the feedback and its gate: an exception of the feedback ends in the gate -/
theorem calmly_feedback : Calmly (do
    let sample ← readFeedback p now
    judge (σ := σ) .feedback fun m => m.checkFeedback g sample now) := by
  unfold readFeedback
  cases p.feedback with
  | none => exact .bind (calmly_pure _) fun sample => calmly_judge _ _
  | some fb =>
    intro s
    dsimp only
    rw [Effect.ends_bind, Effect.ends_tryCatch]
    refine (@calmly_called _ _ .feedback fb nofun s).mono (fun sample t ht => ?_) fun e t ht => ?_
    · refine (calmly_judge .feedback _ t).mono (fun _ u hu => ht.after hu fun _ _ => Calm.append) fun e u hu => ?_
      exact ht.after hu fun _ _ => Calm.broken
    · refine Effect.ends_ite (fun _ => ?_) fun _ => ht
      obtain ⟨reason, hreason⟩ := @faulted_refused g now t.gate.monitor p.numArmJoints
        ("反馈读取异常：" ++ e.text)
      show Effect.Ends _ _ (judge .feedback _) t
      unfold judge
      rw [Effect.ends_bind, Effect.ends_get, Effect.ends_bind, Effect.ends_set, hreason]
      show Effect.Ends _ _ (raiseStop reason .feedback) _
      rw [ends_raiseStop]
      obtain ⟨A, hA, hb⟩ := ht
      exact ⟨A ++ [Entry.gateFailed reason .feedback], by rw [← List.append_assoc, ← hA]; rfl, hb.gated reason .feedback⟩

theorem calmly_once : Calmly (once p g now) := by
  refine .bind (calmly_called _) fun leader => .bind (calmly_judge _ _) fun _ =>
    .bind (calmly_onRetargeter _) fun mapped => ?_
  cases mapped with
  | none => exact calmly_raiseStop .noTarget .retarget
  | some x =>
    refine .bind (calmly_command leader x.1 x.2) fun _ => ?_
    have hfeed : Calmly ((do
        let sample ← readFeedback p now
        judge (σ := σ) .feedback fun m => m.checkFeedback g sample now) >>= fun _ =>
          (modify fun s => { s with ticks := s.ticks + 1 } : EStateM Exn (TeleopLoop σ) PUnit)) :=
      .bind calmly_feedback fun _ => calmly_modify fun _ => rfl
    intro s
    have h := hfeed s
    rw [Effect.ends_bind, Effect.ends_bind] at h
    rw [Effect.ends_bind]
    refine h.mono (fun sample t ht => ?_) fun _ _ h => h
    rw [Effect.ends_bind]
    exact ht

/-! ## the loop -/

theorem orderly_call {c : Call} (hc : c ≠ .followerClose) (r : Option Exn) : Orderly [.called c r] where
  silent := List.pairwise_singleton _ _
  unclosed := fun x hx => by
    rw [List.mem_singleton.mp hx]
    cases c <;> first | rfl | exact absurd rfl hc
  gate := fun ⟨x, hx, hg⟩ => by
    rw [List.mem_singleton.mp hx] at hg
    cases hg

theorem Grows.stop {P : List Entry → Prop} (h : Grows s P t) (hP : ∀ A r, P A → Orderly (A ++ [Entry.called .safeStop r]))
    (m : EStateM Exn σ α) : Effect.Holds (Grows s Orderly) (TeleopLoop.called .safeStop m) t := by
  unfold Effect.Holds
  rw [ends_called]
  obtain ⟨A, hA, hb⟩ := h
  have hadd : ∀ (w : σ) (r : Option Exn), Grows s Orderly ((t.setWorld w).add (.called .safeStop r)) := by
    intro w r
    refine ⟨A ++ [Entry.called .safeStop r], ?_, hP A r hb⟩
    rw [← List.append_assoc, ← hA]
    rfl
  exact Effect.ends_of (fun _ w _ => hadd w none) fun e w _ => hadd w (some e)

/-- a turn that goes on is calm -/
theorem turn_spec : Effect.Ends (fun ok t => Grows s (if ok then Calm else Orderly) t) (fun _ t => Grows s Orderly t)
    (turn p g now) s := by
  unfold turn
  rw [Effect.ends_bind, Effect.ends_tryCatch, Effect.ends_bind]
  refine (calmly_once s).mono (fun _ t ht => ?_) fun e t ht => ?_
  · show Effect.Ends _ _ (called .pause p.pause >>= fun _ => pure true) t
    rw [Effect.ends_bind, ends_called]
    refine Effect.ends_of (fun _ w _ => ?_) fun e w _ => ?_
    · exact ht.after ⟨_, rfl, calm_call nofun⟩ fun _ _ => Calm.append
    · exact ht.after ⟨_, rfl, @orderly_call .pause nofun (some e)⟩ fun _ _ => Calm.orderly
  · have hthrow : (∀ reason source, e ≠ .safetyStop reason source) → Grows s Orderly t :=
      fun he => ht.imp fun A hA => ⟨hA.1, hA.2.orderly he⟩
    cases e with
    | safetyStop reason source =>
      show Effect.Ends _ _ (modify _ >>= _) t
      rw [Effect.ends_bind, Effect.ends_modify, Effect.ends_bind]
      exact (Grows.stop (t := { t with safetyStops := t.safetyStops + 1 }) ht (fun A r hA => hA.stopped r) p.safeStop).mono
        (fun _ u hu => hu) fun _ u hu => hu
    | error text => exact hthrow fun _ _ h => by cases h
    | keyboardInterrupt => exact hthrow fun _ _ h => by cases h
    | exit => exact hthrow fun _ _ h => by cases h

theorem turns_spec (nows : List ℚ) : Effect.Holds (Grows s Orderly) (turns p g nows) s := by
  induction nows generalizing s with
  | nil => exact grows_same rfl orderly_nil
  | cons now nows ih =>
    unfold turns Effect.Holds
    rw [Effect.ends_bind]
    refine turn_spec.mono (fun ok t ht => ?_) fun _ _ h => h
    cases ok with
    | false => exact ht
    | true => exact (ih (s := t)).mono (fun _ u hu => ht.after hu fun _ _ => Calm.orderly) fun _ u hu =>
        ht.after hu fun _ _ => Calm.orderly

theorem interruptible_spec (nows : List ℚ) : Effect.Holds (Grows s Orderly) (interruptible p g nows) s := by
  unfold interruptible Effect.Holds
  rw [Effect.ends_tryCatch]
  refine (turns_spec nows).mono (fun _ _ h => h) fun e t ht => ?_
  cases e with
  | safetyStop reason source => exact ht
  | error text => exact ht
  | keyboardInterrupt => exact ht.stop (fun A r hA => hA.stopped r) p.safeStop
  | exit => exact ht

theorem calmly_prepare (autoAlign : Bool) : Calmly (prepare p autoAlign) := by
  refine .bind (.bind (calmly_called _) fun leader => .bind (calmly_called _) fun pose => ?_) fun _ => calmly_called _
  intro s
  refine Effect.ends_ite (fun _ => ?_) fun _ => calmly_onRetargeter _ s
  exact Calmly.bind (calmly_onRetargeter _) (fun _ => calmly_onRetargeter _) s

/-- the `finally` block closes the follower first -/
structure Closing (new : List Entry) : Prop where
  closed : ∃ x ∈ new, x.closes = true
  silent : ∀ x ∈ new, x.sends = false
  gate : ∀ x ∈ new, x.gate = false

theorem Closing.snoc (h : Closing A) {x : Entry} (hs : x.sends = false) (hg : x.gate = false) : Closing (A ++ [x]) where
  closed := h.closed.imp fun _ hx => ⟨List.mem_append_left _ hx.1, hx.2⟩
  silent := fun y hy => (List.mem_append.mp hy).elim (h.silent y) fun hy => by rw [List.mem_singleton.mp hy]; exact hs
  gate := fun y hy => (List.mem_append.mp hy).elim (h.gate y) fun hy => by rw [List.mem_singleton.mp hy]; exact hg

theorem Grows.close {c : Call} (h : Grows s Closing t) (hc : (Entry.called c none).sends = false) (m : EStateM Exn σ α) :
    Effect.Holds (Grows s Closing) (TeleopLoop.called c m) t := by
  unfold Effect.Holds
  rw [ends_called]
  obtain ⟨A, hA, hb⟩ := h
  have hadd : ∀ (w : σ) (r : Option Exn), Grows s Closing ((t.setWorld w).add (.called c r)) := by
    intro w r
    refine ⟨A ++ [Entry.called c r], ?_, hb.snoc ?_ rfl⟩
    · rw [← List.append_assoc, ← hA]
      rfl
    · cases c <;> first | rfl | cases hc
  exact Effect.ends_of (fun _ w _ => hadd w none) fun e w _ => hadd w (some e)

theorem release_spec : Effect.Holds (Grows s Closing) (release p) s := by
  unfold release Effect.Holds
  rw [Effect.ends_bind, ends_called]
  have hclose : ∀ (w : σ) (r : Option Exn), Grows s Closing ((s.setWorld w).add (.called .followerClose r)) := by
    refine fun w r => ⟨[.called .followerClose r], rfl, ⟨_, List.mem_singleton_self _, rfl⟩, ?_, ?_⟩
    · exact fun x hx => by rw [List.mem_singleton.mp hx]; rfl
    · exact fun x hx => by rw [List.mem_singleton.mp hx]; rfl
  refine Effect.ends_of (fun _ w _ => ?_) fun e w _ => hclose w (some e)
  rw [Effect.ends_bind]
  refine ((hclose w none).close rfl p.leaderClose).mono (fun _ t ht => ?_) fun _ _ h => h
  exact ht.close rfl p.collision.close

/-! ## the run -/

theorem Orderly.released (ha : Orderly A) (hb : Closing B) : Released (A ++ B) where
  closed := hb.closed.imp fun _ hx => ⟨List.mem_append_right _ hx.1, hx.2⟩
  silent := silent_append ha.silent
    (List.pairwise_of_forall_mem_list fun _ _ y hy _ => hb.silent y hy) hb.silent
  stopped := fun h => by
    rcases exists_append h with hg | ⟨x, hx, hg⟩
    · exact ⟨A, B, rfl, ha.gate hg, ha.unclosed⟩
    · exact absurd ((hb.gate x hx).symm.trans hg) Bool.false_ne_true

/-- from the `try` statement on, the follower is released -/
theorem guarded_spec (nows : List ℚ) (h : Grows s Calm t) :
    Effect.Holds (Grows s Released) (Effect.andFinally (interruptible p g nows) (release p)) t := by
  have hrelease : ∀ u, Grows t Orderly u → Effect.Holds (Grows s Released) (release p) u := by
    intro u hu
    have hsu : Grows s Orderly u := h.after hu fun _ _ => Calm.orderly
    have hstep : ∀ v, Grows u Closing v → Grows s Released v := by
      rintro v ⟨B, hB, hclosing⟩
      obtain ⟨A, hA, horderly⟩ := hsu
      exact ⟨A ++ B, by rw [hB, hA, List.append_assoc], horderly.released hclosing⟩
    exact release_spec.mono (fun _ v hv => hstep v hv) fun _ v hv => hstep v hv
  unfold Effect.Holds
  rw [Effect.ends_andFinally]
  exact (interruptible_spec nows).mono (fun _ u hu => hrelease u hu) fun _ u hu => hrelease u hu

theorem opened_spec (h0 : s.entries = []) :
    Effect.Ends (fun _ t => t.entries = [.called .followerOpen none])
      (fun e t => t.entries = [.called .followerOpen (some e)]) (called .followerOpen p.followerOpen) s := by
  rw [ends_called]
  refine Effect.ends_of (fun _ w _ => ?_) fun e w _ => ?_
  · exact congrArg (· ++ [Entry.called .followerOpen none]) h0
  · exact congrArg (· ++ [Entry.called .followerOpen (some e)]) h0

theorem grows_nil {P : List Entry → Prop} (h0 : s.entries = []) (h : Grows s P t) : P t.entries := by
  obtain ⟨new, hnew, hP⟩ := h
  rw [hnew, h0]
  exact hP

/-- the alignment decides -/
theorem run_released (h0 : s.entries = []) (autoAlign : Bool) (nows : List ℚ) :
    (Opened (Effect.leaves (run p g autoAlign nows) s).entries →
      Released (Effect.leaves (run p g autoAlign nows) s).entries) ↔ Aligns p autoAlign s := by
  cases hopen : called .followerOpen p.followerOpen s with
  | error e t =>
    have hentries := (opened_spec h0).of_error hopen
    have hleaves : Effect.leaves (run p g autoAlign nows) s = t := Effect.leaves_bind_error hopen
    rw [hleaves, hentries]
    refine ⟨fun _ u hu => ?_, fun _ h => ?_⟩
    · rw [hopen] at hu
      cases hu
    · cases List.mem_singleton.mp h
  | ok a t =>
    have hentries := (opened_spec h0).of_ok hopen
    have hcalm : Grows s Calm t := ⟨_, by rw [h0, hentries]; rfl, @calm_call .followerOpen nofun⟩
    have hleaves : Effect.leaves (run p g autoAlign nows) s = Effect.leaves (prepare p autoAlign >>= fun _ =>
        Effect.andFinally (interruptible p g nows) (release p)) t := Effect.leaves_bind_ok hopen
    have haligns : Aligns p autoAlign s ↔ ∃ t', prepare p autoAlign t = .ok ⟨⟩ t' := by
      refine ⟨fun h => h t hopen, fun h u hu => ?_⟩
      obtain ⟨-, rfl⟩ := EStateM.Result.ok.inj (hopen.symm.trans hu)
      exact h
    rw [hleaves, haligns]
    cases hprep : prepare p autoAlign t with
    | ok b t' =>
      rw [Effect.leaves_bind_ok hprep]
      have hcalm' := hcalm.after ((calmly_prepare autoAlign t).of_ok hprep) fun _ _ => Calm.append
      exact ⟨fun _ => ⟨t', rfl⟩, fun _ _ => grows_nil h0 (Effect.holds_iff.mp (guarded_spec nows hcalm'))⟩
    | error e t' =>
      rw [Effect.leaves_bind_error hprep]
      obtain ⟨new, hnew, hb⟩ := hcalm.after ((calmly_prepare autoAlign t).of_error hprep) fun _ _ => Calm.broken
      have hopened : Opened t'.entries := by
        obtain ⟨B, hB, -⟩ := (calmly_prepare autoAlign t).of_error hprep
        rw [hB, hentries]
        exact List.mem_append_left _ (List.mem_singleton_self _)
      refine ⟨fun h => ?_, fun ⟨_, h⟩ => nomatch h⟩
      obtain ⟨x, hx, hcloses⟩ := (h hopened).closed
      rw [hnew, h0] at hx
      exact absurd ((hb.unclosed x hx).symm.trans hcloses) Bool.false_ne_true

end TeleopLoop

/-! ## the follower behind the graph -/

namespace DoraWorld

variable {σ α : Type} {d : DoraNode σ} {f : DoraJogFollower} {p : Parties σ} {g : SafetyGates}

/-- no message has taken the arm's enable away -/
def Enabled (w : DoraWorld σ) : Prop := ∀ u ∈ w.controls, u.arm ≠ some false

/-- the follower is open and enabled -/
def Held (w : DoraWorld σ) : Prop := w.opened = true ∧ Enabled w

theorem onNode_keeps {I : DoraWorld σ → Prop} (hI : ∀ w n, I w → I { w with node := n }) (m : EStateM Exn σ α) :
    Effect.Keeps I (onNode m) := by
  intro w h
  unfold onNode Effect.Holds
  rw [Effect.ends_zoom]
  exact Effect.ends_of (fun _ n _ => hI w n h) fun _ n _ => hI w n h

theorem put_keeps {I : DoraWorld σ → Prop} (hI : ∀ w n, I w → I { w with node := n }) {o : Output}
    (ho : ∀ w, I w → I { w with outputs := w.outputs ++ [o] }) : Effect.Keeps I (put d o) :=
  .bind (onNode_keeps hI _) fun _ => Effect.keeps_modify ho

theorem held_node (w : DoraWorld σ) (n : σ) (h : Held w) : Held { w with node := n } := h

theorem controls_put (w : DoraWorld σ) (o : Output) :
    ({ w with outputs := w.outputs ++ [o] } : DoraWorld σ).controls = w.controls ++
      (match o with
        | .control u => [u]
        | _ => []) := by
  unfold controls
  rw [List.filterMap_append]
  cases o <;> rfl

theorem held_put {o : Output} (ho : ∀ u, o = .control u → u.arm ≠ some false) (w : DoraWorld σ) (h : Held w) :
    Held { w with outputs := w.outputs ++ [o] } := by
  refine ⟨h.1, fun u hu => ?_⟩
  rw [controls_put] at hu
  rcases List.mem_append.mp hu with hu | hu
  · exact h.2 u hu
  · cases o with
    | control v =>
      rw [List.mem_singleton.mp hu]
      exact ho v rfl
    | jog q reason => cases hu
    | gripper position => cases hu

theorem safeStop_keeps : Effect.Keeps Held (safeStop d) := by
  refine Effect.keeps_get fun w h => ?_
  refine Effect.ends_ite (fun _ => ?_) fun _ => h
  refine Effect.Keeps.tryCatch (.bind (onNode_keeps held_node _) fun _ =>
    put_keeps held_node (held_put fun u hu => ?_)) (fun e => ?_) w h
  · obtain rfl := Output.control.inj hu
    exact nofun
  · exact .ite (Effect.keeps_pure _) (Effect.keeps_throw e)

theorem send_keeps (arm : List Value) (grip : Value) : Effect.Keeps Held (send d f arm grip) := by
  have hput : ∀ o, (∀ u, o ≠ .control u) → Effect.Keeps Held (put d o) := fun o ho =>
    put_keeps held_node (held_put fun u hu => absurd hu (ho u))
  have hrest : Effect.Keeps Held (do
      put d (.jog arm f.reason)
      put d (.gripper [grip, grip])
      modify fun s => { s with sent := s.sent + 1 }) :=
    .bind (hput _ nofun) fun _ => .bind (hput _ nofun) fun _ => Effect.keeps_modify fun _ h => h
  refine .bind (onNode_keeps held_node _) fun _ => ?_
  exact .ite (.bind (Effect.keeps_throw _) fun _ => hrest) hrest

theorem preserves_held : TeleopLoop.Preserves (parties d f p) fun w _ => Held w where
  getJointState := fun _ => onNode_keeps held_node _
  setOtherState := fun _ _ => onNode_keeps held_node _
  minDistance := fun _ _ => onNode_keeps held_node _
  send := fun _ => send_keeps
  feedback := fun _ fb hfb => by
    obtain ⟨m, -, rfl⟩ := Option.map_eq_some_iff.mp hfb
    exact onNode_keeps held_node _
  pause := fun _ => onNode_keeps held_node _
  safeStop := fun _ => safeStop_keeps
  map := fun _ _ _ => fun _ h => Effect.ends_of (fun _ _ _ => h) fun _ _ _ => h
  slowDown := fun _ _ _ h => h

/-- the node takes the message that `close` sends -/
def TakesLeave (d : DoraNode σ) (n : σ) : Prop :=
  ∃ n₁ n₂, d.ensureNode n = .ok ⟨⟩ n₁ ∧ d.sendOutput (.control leaving) n₁ = .ok ⟨⟩ n₂

theorem open_held {w : DoraWorld σ} (h0 : w.outputs = []) :
    Effect.Ends (fun _ v => Held v) (fun _ _ => True) (open' d f) w := by
  have hput : Effect.Keeps Enabled (put d (.control { arm := some true })) := by
    refine put_keeps (fun _ _ h => h) fun w h u hu => ?_
    rw [controls_put] at hu
    rcases List.mem_append.mp hu with hu | hu
    · exact h u hu
    · rw [List.mem_singleton.mp hu]
      exact nofun
  have hempty : Enabled w := by
    intro u hu
    rw [controls, h0] at hu
    cases hu
  have hnode : Effect.Holds Enabled (onNode d.ensureNode) w := onNode_keeps (fun _ _ h => h) _ w hempty
  unfold open'
  rw [Effect.ends_bind]
  refine hnode.mono (fun _ v hv => ?_) fun _ _ _ => trivial
  refine Effect.ends_ite (fun _ => ?_) fun _ => ⟨rfl, hv⟩
  rw [Effect.ends_bind]
  exact (hput v hv).mono (fun _ u hu => ⟨rfl, hu⟩) fun _ _ _ => trivial

/-- `close` sends its message where the node takes it, and nothing else -/
theorem close_spec {w : DoraWorld σ} (h : Held w) :
    Effect.Holds (fun v => v.controls.getLast? = some leaving ↔ TakesLeave d w.node) (close d) w := by
  have hlast : w.controls.getLast? ≠ some leaving := fun hl => h.2 _ (List.mem_of_getLast? hl) rfl
  have hrefused : ¬ TakesLeave d w.node → (w.controls.getLast? = some leaving ↔ TakesLeave d w.node) :=
    fun hno => ⟨fun hl => absurd hl hlast, fun ht => absurd ht hno⟩
  unfold close Effect.Holds
  rw [Effect.ends_bind, Effect.ends_get, if_pos h.1]
  show Effect.Ends _ _ (ignoring _ >>= _) w
  unfold ignoring put onNode
  rw [Effect.ends_bind, Effect.ends_tryCatch, Effect.ends_bind, Effect.ends_zoom]
  refine Effect.ends_of (fun _ n hens => ?_) fun e n hens => ?_
  · rw [Effect.ends_bind, Effect.ends_zoom]
    refine Effect.ends_of (fun _ n' hsend => ?_) fun e n' hsend => ?_
    · rw [Effect.ends_modify]
      refine ⟨fun _ => ⟨n, n', hens, hsend⟩, fun _ => ?_⟩
      show ({ w with outputs := w.outputs ++ [.control leaving] } : DoraWorld σ).controls.getLast? = some leaving
      rw [controls_put]
      exact List.getLast?_concat
    · have hno : ¬ TakesLeave d w.node := by
        rintro ⟨m, m', hm, hm'⟩
        obtain ⟨-, rfl⟩ := EStateM.Result.ok.inj (hens.symm.trans hm)
        exact nomatch hsend.symm.trans hm'
      exact Effect.ends_ite (fun _ => hrefused hno) fun _ => hrefused hno
  · have hno : ¬ TakesLeave d w.node := by
      rintro ⟨m, m', hm, -⟩
      exact nomatch hens.symm.trans hm
    exact Effect.ends_ite (fun _ => hrefused hno) fun _ => hrefused hno

end DoraWorld

/-! ## the result -/

namespace TeleopLoop

variable {σ : Type} {d : DoraNode σ} {f : DoraJogFollower} {p : Parties σ} {g : SafetyGates}

/-- the run up to its `finally` block -/
def unreleased (p : Parties σ) (g : SafetyGates) (autoAlign : Bool) (nows : List ℚ) :
    EStateM Exn (TeleopLoop σ) PUnit := do
  called .followerOpen p.followerOpen
  prepare p autoAlign
  interruptible p g nows

/-- what became of the last message of `close` -/
def Left (d : DoraNode σ) (n : σ) (w : DoraWorld σ) : Prop :=
  w.controls.getLast? = some DoraWorld.leaving ↔ DoraWorld.TakesLeave d n

theorem left_called (n : σ) (m : EStateM Exn σ PUnit) (c : Call) :
    Effect.Keeps (World fun w _ => Left d n w) (called c (DoraWorld.onNode m)) :=
  called_keeps fun _ => DoraWorld.onNode_keeps (fun _ _ h => h) m

theorem release_dora {s : TeleopLoop (DoraWorld σ)} (h : World (fun w _ => DoraWorld.Held w) s) :
    Effect.Holds (World fun w _ => Left d s.gate.world.node w) (release (DoraWorld.parties d f p)) s := by
  unfold release Effect.Holds
  rw [Effect.ends_bind, ends_called]
  refine (DoraWorld.close_spec h).mono (fun _ v hv => ?_) fun _ _ hv => hv
  exact (left_called _ p.leaderClose .leaderClose).bind (fun _ => left_called _ p.collision.close .guardClose) _ hv

/-- the last control message of the run is the one of `close` if and only if the alignment returns and the
node takes it -/
theorem run_disarmed {s : TeleopLoop (DoraWorld σ)} (h0 : s.entries = []) (hw : s.gate.world.outputs = [])
    (autoAlign : Bool) (nows : List ℚ)
    (hopened : Opened (Effect.leaves (run (DoraWorld.parties d f p) g autoAlign nows) s).entries) :
    (Effect.leaves (run (DoraWorld.parties d f p) g autoAlign nows) s).gate.world.controls.getLast? =
        some DoraWorld.leaving ↔
      Aligns (DoraWorld.parties d f p) autoAlign s ∧
        DoraWorld.TakesLeave d
          (Effect.leaves (unreleased (DoraWorld.parties d f p) g autoAlign nows) s).gate.world.node := by
  generalize hp : DoraWorld.parties d f p = pp at *
  have hpres : Preserves pp fun w _ => DoraWorld.Held w := hp ▸ DoraWorld.preserves_held
  have hread : Effect.Keeps DoraWorld.Held pp.readState := by
    subst hp
    exact DoraWorld.onNode_keeps DoraWorld.held_node _
  cases hopen : called .followerOpen pp.followerOpen s with
  | error e t =>
    have hleaves : Effect.leaves (run pp g autoAlign nows) s = t := Effect.leaves_bind_error hopen
    rw [hleaves, (opened_spec h0).of_error hopen] at hopened
    cases List.mem_singleton.mp hopened
  | ok a t =>
    have hheld : World (fun w _ => DoraWorld.Held w) t := by
      have hspec : Effect.Ends (fun _ t => World (fun w _ => DoraWorld.Held w) t) (fun _ _ => True)
          (called .followerOpen pp.followerOpen) s := by
        subst hp
        rw [ends_called]
        exact DoraWorld.open_held hw
      exact hspec.of_ok hopen
    have haligns : Aligns pp autoAlign s ↔ ∃ t', prepare pp autoAlign t = .ok ⟨⟩ t' := by
      refine ⟨fun h => h t hopen, fun h u hu => ?_⟩
      obtain ⟨-, rfl⟩ := EStateM.Result.ok.inj (hopen.symm.trans hu)
      exact h
    have hrun : Effect.leaves (run pp g autoAlign nows) s = Effect.leaves (prepare pp autoAlign >>= fun _ =>
        Effect.andFinally (interruptible pp g nows) (release pp)) t := Effect.leaves_bind_ok hopen
    have hun : Effect.leaves (unreleased pp g autoAlign nows) s =
        Effect.leaves (prepare pp autoAlign >>= fun _ => interruptible pp g nows) t := Effect.leaves_bind_ok hopen
    rw [hrun, hun, haligns]
    have hheld' := Effect.holds_iff.mp (prepare_keeps hpres (fun _ => hread) (fun _ _ _ h => h) autoAlign t hheld)
    cases hprep : prepare pp autoAlign t with
    | ok b t' =>
      rw [Effect.leaves_bind_ok hprep, Effect.leaves_bind_ok hprep, Effect.leaves_andFinally]
      have hlast : World (fun w _ => DoraWorld.Held w) (Effect.leaves (interruptible pp g nows) t') := by
        rw [Effect.leaves, hprep] at hheld'
        exact Effect.holds_iff.mp (interruptible_keeps hpres nows t' hheld')
      subst hp
      have hleft := Effect.holds_iff.mp (release_dora (d := d) (f := f) (p := p) hlast)
      exact hleft.trans ⟨fun h => ⟨⟨t', rfl⟩, h⟩, fun h => h.2⟩
    | error e t' =>
      rw [Effect.leaves, hprep] at hheld'
      rw [Effect.leaves_bind_error hprep]
      refine ⟨fun hl => absurd rfl (hheld'.2 _ (List.mem_of_getLast? hl)), fun hr => ?_⟩
      obtain ⟨⟨_, h⟩, -⟩ := hr
      cases h

/-- **A stopped run leaves the follower released if and only if the alignment returned.**  Then the follower
is closed, got no target after the first failure, and was stopped first where a gate failed; and behind the
graph the last control message takes the enable away, provided that the node takes that message. -/
theorem teleop_release (g : SafetyGates) (autoAlign : Bool) (nows : List ℚ) :
    (∀ (σ : Type) (p : Parties σ) (s : TeleopLoop σ), s.entries = [] →
      ((Opened (Effect.leaves (run p g autoAlign nows) s).entries →
        Released (Effect.leaves (run p g autoAlign nows) s).entries) ↔ Aligns p autoAlign s)) ∧
    (∀ (σ : Type) (d : DoraNode σ) (f : DoraJogFollower) (p : Parties σ) (s : TeleopLoop (DoraWorld σ)),
      s.entries = [] → s.gate.world.outputs = [] →
      Opened (Effect.leaves (run (DoraWorld.parties d f p) g autoAlign nows) s).entries →
      ((Effect.leaves (run (DoraWorld.parties d f p) g autoAlign nows) s).gate.world.controls.getLast? =
          some DoraWorld.leaving ↔
        Aligns (DoraWorld.parties d f p) autoAlign s ∧
          DoraWorld.TakesLeave d
            (Effect.leaves (unreleased (DoraWorld.parties d f p) g autoAlign nows) s).gate.world.node)) :=
  ⟨fun _ _ _ h0 => run_released h0 autoAlign nows, fun _ _ _ _ _ h0 hw => run_disarmed h0 hw autoAlign nows⟩

/-- a node that takes everything -/
def anyNode : DoraNode Unit where
  ensureNode := pure ⟨⟩
  sendOutput _ := pure ⟨⟩

def onGraph : Parties (DoraWorld Unit) := DoraWorld.parties anyNode { numArmJoints := 1 } (still 0)

def freshGraph : TeleopLoop (DoraWorld Unit) where
  gate := { world := { node := () } }
  retargeter := fresh.retargeter

theorem teleop_release_still :
    Released (Effect.leaves (run (still 0) wide true [1]) fresh).entries ∧
      (Effect.leaves (run onGraph wide true [1]) freshGraph).gate.world.controls.getLast? =
        some DoraWorld.leaving := by
  have haligns : Aligns (still 0) true fresh := by
    rintro t ht
    obtain ⟨-, rfl⟩ := EStateM.Result.ok.inj ht
    exact ⟨_, rfl⟩
  have haligns' : Aligns onGraph true freshGraph := by
    rintro t ht
    obtain ⟨-, rfl⟩ := EStateM.Result.ok.inj ht
    exact ⟨_, rfl⟩
  constructor
  · refine ((teleop_release wide true [1]).1 Unit (still 0) fresh rfl).mpr haligns ?_
    unfold Opened
    decide +kernel
  · refine ((teleop_release wide true [1]).2 Unit anyNode { numArmJoints := 1 } (still 0) freshGraph rfl rfl ?_).mpr
      ⟨haligns', (), (), rfl, rfl⟩
    unfold Opened
    decide +kernel

/-- a leader that does not answer while the loop aligns leaves the follower open -/
theorem left_open :
    ¬ ∀ (p : Parties Unit) (s : TeleopLoop Unit), s.entries = [] →
      Opened (Effect.leaves (run p wide true []) s).entries →
      Released (Effect.leaves (run p wide true []) s).entries := by
  intro h
  have hentries : (Effect.leaves (run { still 0 with getJointState := throw (.error "no leader") } wide true [])
      fresh).entries = [.called .followerOpen none, .called .getJointState (some (.error "no leader"))] := rfl
  have hreleased := h _ fresh rfl (hentries ▸ List.mem_cons_self)
  obtain ⟨x, hx, hcloses⟩ := (hentries ▸ hreleased).closed
  rcases List.mem_pair.mp hx with rfl | rfl
  · cases hcloses
  · cases hcloses

end TeleopLoop

end ArmControl.LeaderFollower
