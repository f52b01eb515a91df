import ArmControl.Lib.Since
import ArmControl.Rt.HandBridge

/-!
# What the log of the Hand bridge says

What a state of the bridge knows about its past.

* `Idle`, `Ended`      every stop was completed, every action has ended;
* `Sampled`            a sample was observed whose read began after the last stop completed;
* `Permitted a`        `a` is the last admitted action, admitted after such a sample, and nothing has
                       interrupted it since;
* `Forgiven`           a stop call began with no action running, succeeded, and a later read is
                       under way;
* `Inv`                what every state keeps of all this, and `Inv.step`.
-/

namespace ArmControl.Rt
namespace HandBridge
open History

/-! ## what a log can say -/

def Obs.isStop : Obs → Bool
  | .stopRequested | .stopBegan | .stopEnded .. => true
  | _ => false

/-- entries that end the currency of an admitted action -/
def Obs.interrupts : Obs → Bool
  | .admitted _ | .cancelled | .stopRequested | .clientConnected | .clientLost | .sessionOpened
  | .sessionLost => true
  | _ => false

/-- every requested stop was completed -/
def Idle : List Obs → Prop := Answered (· = .stopRequested) fun _ o => ∃ ok, o = .stopEnded ok true

/-- every action that was taken has ended -/
def Ended : List Obs → Prop :=
  Answered (fun o => ∃ a, o = .taken a) fun o o' => ∃ a, o = .taken a ∧ (o' = .ended a ∨ o' = .dropped a)

/-- a read is under way that began after the last stop completed -/
def ReadIdle : List Obs → Prop :=
  Since (fun p o => o = .readBegan ∧ Idle p) fun o => Obs.isStop o = false ∧ o ≠ .readBegan

/-- a sample was observed whose read began after the last stop completed -/
def Sampled : List Obs → Prop :=
  Since (fun p o => o = .observed ∧ ReadIdle p) fun o => Obs.isStop o = false

/-- `a` is the last admitted action, admitted on a measured sample, and nothing has interrupted it -/
def Permitted (a : HandAction) : List Obs → Prop :=
  Since (fun p o => o = .admitted a ∧ Sampled p) fun o => Obs.interrupts o = false

/-- a stop call is under way that began when no action was running -/
def CallIdle : List Obs → Prop :=
  Since (fun p o => o = .stopBegan ∧ Ended p) fun o => o ≠ .stopBegan

/-- such a call has succeeded, and no stop was requested since -/
def Retried : List Obs → Prop :=
  Since (fun p o => (∃ last, o = .stopEnded true last) ∧ CallIdle p) fun o => o ≠ .stopRequested

/-- and a sample is being read that was asked for after it -/
def Forgiven : List Obs → Prop :=
  Since (fun p o => (o = .readBegan ∧ Idle p) ∧ Retried p) fun o =>
    Obs.isStop o = false ∧ o ≠ .readBegan

/-! ## one more entry -/

section
variable {l : List Obs} {o : Obs} {a : HandAction}

theorem Idle.snoc (h : Idle l) (ho : o ≠ .stopRequested) : Idle (l ++ [o]) := Answered.snoc h ho

/-- the last call of a request completes all that was requested -/
theorem Idle.closed (l : List Obs) (ok : Bool) : Idle (l ++ [Obs.stopEnded ok true]) :=
  Answered.close (fun _ _ _ _ h => absurd ⟨ok, rfl⟩ h.2) (by simp)

theorem Ended.snoc (h : Ended l) (ho : ∀ a, o ≠ .taken a) : Ended (l ++ [o]) :=
  Answered.snoc h fun ⟨a, he⟩ => ho a he

theorem ReadIdle.snoc (h : ReadIdle l) (ho : Obs.isStop o = false) (hr : o ≠ .readBegan) :
    ReadIdle (l ++ [o]) := Since.snoc h ⟨ho, hr⟩

theorem Sampled.snoc (h : Sampled l) (ho : Obs.isStop o = false) : Sampled (l ++ [o]) := Since.snoc h ho

theorem Permitted.snoc (h : Permitted a l) (ho : Obs.interrupts o = false) : Permitted a (l ++ [o]) :=
  Since.snoc h ho

theorem CallIdle.snoc (h : CallIdle l) (ho : o ≠ .stopBegan) : CallIdle (l ++ [o]) := Since.snoc h ho

theorem Retried.snoc (h : Retried l) (ho : o ≠ .stopRequested) : Retried (l ++ [o]) := Since.snoc h ho

/-- every action but `a` has ended -/
def EndedBut (a : HandAction) : List Obs → Prop :=
  Answered (fun o => ∃ b, o = .taken b ∧ b ≠ a) fun o o' =>
    ∃ b, o = .taken b ∧ (o' = .ended b ∨ o' = .dropped b)

theorem EndedBut.snoc (h : EndedBut a l) (ho : ∀ a, o ≠ .taken a) : EndedBut a (l ++ [o]) :=
  Answered.snoc h fun ⟨b, he, _⟩ => ho b he

theorem Ended.but (h : Ended l) : EndedBut a (l ++ [Obs.taken a]) := by
  refine Answered.snoc (Answered.mono h fun o ⟨b, he, _⟩ => ⟨b, he⟩) ?_
  rintro ⟨b, he, hne⟩
  exact hne (Obs.taken.inj he).symm

theorem EndedBut.closed (h : EndedBut a l) (ho : o = .ended a ∨ o = .dropped a) : Ended (l ++ [o]) := by
  refine Answered.close (Answered.mono h ?_) ?_
  · rintro x ⟨⟨b, rfl⟩, hno⟩
    refine ⟨b, rfl, ?_⟩
    rintro rfl
    exact hno ⟨b, rfl, ho⟩
  · rintro ⟨b, rfl⟩
    rcases ho with ho | ho <;> cases ho

end

/-! ## the invariant -/

/-- the action the actor holds -/
def ActorPc.action : ActorPc → Option HandAction
  | .carry a | .acting a => some a
  | _ => none

structure Inv (s : HandBridge) : Prop where
  link : s.hand = s.admission.connected
  opening : s.actor = .connect → s.admission.connected = false
  acting : s.admission.acting = (ActorPc.action s.actor).isSome
  carried : ∀ a, ActorPc.action s.actor = some a → .admitted a ∈ s.log
  pending : s.admission.pending.kind ≠ .none →
    .admitted s.admission.pending ∈ s.log ∧ s.admission.pending.generation = s.admission.epoch
  bound : ∀ a, .admitted a ∈ s.log → a.generation ≤ s.admission.epoch
  current : ∀ a, .admitted a ∈ s.log → a.generation = s.admission.epoch →
    Permitted a s.log ∧ s.admission.stopping = false ∧ s.admission.stopFault = false ∧
      s.admission.connected = true
  idle : s.admission.stopping = false → Idle s.log
  calling : ∀ serial wasActing hand, s.stopper = .calling serial wasActing hand →
    s.admission.stopping = true ∧ (wasActing = false → CallIdle s.log)
  reading : ∀ serial during, s.actor = .reading serial during →
    s.admission.connected = true ∧ serial ≤ s.admission.stopSerial ∧
      (during = false → serial = s.admission.stopSerial →
        s.admission.stopping = false ∧ ReadIdle s.log)
  real : s.haveReal = true →
    Sampled s.log ∧ s.admission.stopping = false ∧ s.admission.connected = true
  retried : s.admission.stopRetriedOk = true → s.admission.stopping = false ∧ Retried s.log
  ended : s.admission.acting = false → Ended s.log
  others : ∀ a, ActorPc.action s.actor = some a → EndedBut a s.log
  online : s.actor = .take ∨ s.actor = .read → s.admission.connected = true

namespace Inv
variable {s : HandBridge}

/-- an entry that says nothing about stops, reads and actions taken -/
theorem plain (h : Inv s) {o : Obs} (ho : Obs.isStop o = false) (hr : o ≠ .readBegan)
    (ht : ∀ a, o ≠ .taken a) (ha : ∀ a, o ≠ .admitted a)
    (hi : Obs.interrupts o = false ∨ ∀ a, .admitted a ∈ s.log → a.generation ≠ s.admission.epoch) :
    Inv (s.note o) := by
  have hreq : o ≠ .stopRequested := by
    rintro rfl
    cases ho
  have hbeg : o ≠ .stopBegan := by
    rintro rfl
    cases ho
  obtain ⟨h1, h2, h3, h4, h5, h6, h7, h8, h9, h10, h11, h12, h13, h14, h15⟩ := h
  unfold note
  constructor <;> first | assumption | grind -ring -linarith -order -ac [EndedBut.snoc, Ended.snoc, CallIdle.snoc,
    Idle.snoc, ReadIdle.snoc, Sampled.snoc, Retried.snoc, Permitted.snoc]

theorem cancel (h : Inv s) : Inv s.cancel := by
  obtain ⟨h1, h2, h3, h4, h5, h6, h7, h8, h9, h10, h11, h12, h13, h14, h15⟩ := h
  unfold HandBridge.cancel note HandAdmission.cancel
  constructor <;> first | assumption | grind -ring -linarith -order -ac [EndedBut.snoc, Ended.snoc, CallIdle.snoc,
    Idle.snoc, ReadIdle.snoc, Sampled.snoc, Retried.snoc, Obs.isStop]

theorem gstop (h : Inv s) : Inv s.gstop := by
  obtain ⟨h1, h2, h3, h4, h5, h6, h7, h8, h9, h10, h11, h12, h13, h14, h15⟩ := h
  unfold HandBridge.gstop requestStop note HandAdmission.requestStop HandAdmission.cancel
  constructor <;> first | assumption | grind -ring -linarith -order -ac [EndedBut.snoc, Ended.snoc, CallIdle.snoc]

/-- after a cancellation nothing that was admitted is current -/
theorem stale_cancel (h : Inv s) {a : HandAction} (ha : .admitted a ∈ s.cancel.log) :
    a.generation ≠ s.cancel.admission.epoch := by
  have hmem : Obs.admitted a ∈ s.log := by
    rcases List.mem_append.mp ha with hm | hm
    · exact hm
    · simp at hm
  have hle := h.bound a hmem
  show a.generation ≠ s.admission.epoch + 1
  omega

theorem stale_gstop (h : Inv s) {a : HandAction} (ha : .admitted a ∈ s.gstop.log) :
    a.generation ≠ s.gstop.admission.epoch := by
  have hmem : Obs.admitted a ∈ s.log := by
    rcases List.mem_append.mp ha with hm | hm
    · exact hm
    · simp at hm
  have hle := h.bound a hmem
  show a.generation ≠ s.admission.epoch + 1
  omega

/-! ## the client's session -/

theorem connect (h : Inv s) : Inv s.connect := by
  have hc := h.cancel
  unfold HandBridge.connect
  refine plain ?_ rfl nofun nofun nofun (.inr fun a ha => h.stale_cancel ha)
  exact ⟨hc.1, hc.2, hc.3, hc.4, hc.5, hc.6, hc.7, hc.8, hc.9, hc.10, hc.11, hc.12, hc.13, hc.14, hc.15⟩

theorem command (h : Inv s) (a : HandAction) (now : ℚ) : Inv (s.command a now) := by
  unfold HandBridge.command
  rcases s.admission.admit_cases a (s.fresh now) with ⟨r, he⟩ | ⟨hc, -, hst, hf, -, ha, hfr, he⟩
  · rw [he]
    exact h
  · rw [he]
    have hreal : s.haveReal = true := (Bool.and_eq_true _ _ ▸ hfr).1
    have hnew : Permitted { a with generation := s.admission.epoch + 1 }
        (s.log ++ [Obs.admitted { a with generation := s.admission.epoch + 1 }]) :=
      Since.now ⟨rfl, (h.real hreal).1⟩
    obtain ⟨h1, h2, h3, h4, h5, h6, h7, h8, h9, h10, h11, h12, h13, h14, h15⟩ := h
    unfold note
    constructor <;> first | assumption | grind -ring -linarith -order -ac [EndedBut.snoc, Ended.snoc, CallIdle.snoc,
      Idle.snoc, ReadIdle.snoc, Sampled.snoc, Retried.snoc, Obs.isStop]

theorem disconnect (h : Inv s) : Inv s.disconnect := by
  have h' : Inv { s with serving := false, admission := { s.admission with client := false } } :=
    ⟨h.1, h.2, h.3, h.4, h.5, h.6, h.7, h.8, h.9, h.10, h.11, h.12, h.13, h.14, h.15⟩
  unfold HandBridge.disconnect
  dsimp only
  split_ifs
  · exact h'.gstop.plain rfl nofun nofun nofun (.inr fun a ha => h'.stale_gstop ha)
  · exact h'.cancel.plain rfl nofun nofun nofun (.inr fun a ha => h'.stale_cancel ha)

theorem serveStep (h : Inv s) (c : ServeStep) : Inv (s.serveStep c) := by
  unfold HandBridge.serveStep
  cases c with
  | connect =>
    dsimp only
    split_ifs
    · exact h
    · exact h.connect
  | gstop =>
    dsimp only
    split_ifs
    · exact h.gstop
    · exact h
  | command a now =>
    dsimp only
    split_ifs
    · exact h.command a now
    · exact h
  | pollGrasp =>
    dsimp only
    unfold pollGrasp
    split_ifs
    · exact h
    · refine plain ?_ rfl nofun nofun nofun (.inl rfl)
      exact ⟨h.1, h.2, h.3, h.4, h.5, h.6, h.7, h.8, h.9, h.10, h.11, h.12, h.13, h.14, h.15⟩
    · exact h
  | pollDone =>
    dsimp only
    unfold pollDone
    split_ifs
    · exact h
    · refine plain ?_ rfl nofun nofun nofun (.inl rfl)
      exact ⟨h.1, h.2, h.3, h.4, h.5, h.6, h.7, h.8, h.9, h.10, h.11, h.12, h.13, h.14, h.15⟩
    · exact h
  | disconnect =>
    dsimp only
    split_ifs
    · exact h.disconnect
    · exact h

/-! ## the stop worker -/

theorem beginStop (h : Inv s) : Inv s.beginStop := by
  unfold HandBridge.beginStop
  split_ifs with hst
  · have hcall : s.admission.acting = false → CallIdle (s.log ++ [Obs.stopBegan]) := fun ha =>
      Since.now ⟨rfl, h.ended ha⟩
    obtain ⟨h1, h2, h3, h4, h5, h6, h7, h8, h9, h10, h11, h12, h13, h14, h15⟩ := h
    unfold note
    constructor <;> first | assumption | grind -ring -linarith -order -ac [EndedBut.snoc, Ended.snoc, Idle.snoc]
  · exact h

theorem finishStop (h : Inv s) {serial : ℕ} {wasActing hand : Bool}
    (hc : s.stopper = .calling serial wasActing hand) (ok : Bool) :
    Inv (s.finishStop serial wasActing ok) := by
  obtain ⟨hst, hcall⟩ := h.calling _ _ _ hc
  have hcur : ∀ a, .admitted a ∈ s.log → a.generation ≠ s.admission.epoch := fun a ha hg =>
    absurd ((h.current a ha hg).2.1.symm.trans hst) Bool.noConfusion
  have hclosed := Idle.closed s.log ok
  have hretried : wasActing = false → ok = true → Retried (s.log ++ [Obs.stopEnded ok true]) := by
    rintro hw rfl
    exact Since.now ⟨⟨true, rfl⟩, hcall hw⟩
  unfold HandBridge.finishStop note
  dsimp only
  rcases s.admission.finishStop_cases serial wasActing ok with he | ⟨hs, hw, hna, he⟩
  · rw [he]
    obtain ⟨h1, h2, h3, h4, h5, h6, h7, h8, h9, h10, h11, h12, h13, h14, h15⟩ := h
    constructor <;> first | assumption | grind -ring -linarith -order -ac [EndedBut.snoc, Ended.snoc]
  · rw [he, hst]
    obtain ⟨h1, h2, h3, h4, h5, h6, h7, h8, h9, h10, h11, h12, h13, h14, h15⟩ := h
    constructor <;> first | assumption | grind -ring -linarith -order -ac [EndedBut.snoc, Ended.snoc]

theorem stopperStep (h : Inv s) (ok : Bool) : Inv (s.stopperStep ok) := by
  unfold HandBridge.stopperStep
  cases hs : s.stopper with
  | wait => exact h.beginStop
  | calling serial wasActing hand => exact h.finishStop hs _

/-! ## the actor -/

theorem wake (h : Inv s) (hw : s.actor = .wait) : Inv s.wake := by
  obtain ⟨h1, h2, h3, h4, h5, h6, h7, h8, h9, h10, h11, h12, h13, h14, h15⟩ := h
  unfold HandBridge.wake
  split_ifs <;> constructor <;> first | assumption | grind -ring -linarith -order -ac [ActorPc.action]

/-- the new session, before a failed stop is retried on it -/
def opened (s : HandBridge) : HandBridge :=
  { s with
    hand := true, handSession := true, seenRobotSample := false, actor := .take
    admission := { s.admission with connected := true } }.note .sessionOpened

theorem openSession_eq (hr : s.haveReal = false) :
    s.openSession = if s.admission.stopFault then (opened s).gstop else opened s := by
  unfold HandBridge.openSession HandAdmission.sessionOpened opened HandBridge.gstop
  dsimp only
  split_ifs with hf
  · rw [← hr]
    rfl
  · rfl

theorem openSession (h : Inv s) (hw : s.actor = .connect) : Inv s.openSession := by
  have hoff := h.opening hw
  have hno : s.haveReal = false := by
    by_contra hr
    exact absurd ((h.real (by simpa using hr)).2.2.symm.trans hoff) Bool.noConfusion
  have hstale : ∀ a, .admitted a ∈ s.log → a.generation ≠ s.admission.epoch := fun a ha hg =>
    absurd ((h.current a ha hg).2.2.2.symm.trans hoff) Bool.noConfusion
  have hopen : Inv (opened s) := by
    refine plain ?_ rfl nofun nofun nofun (.inr hstale)
    obtain ⟨h1, h2, h3, h4, h5, h6, h7, h8, h9, h10, h11, h12, h13, h14, h15⟩ := h
    constructor <;> first | assumption | grind -ring -linarith -order -ac [ActorPc.action]
  rw [openSession_eq hno]
  split_ifs
  · exact hopen.gstop
  · exact hopen

theorem takeAction (h : Inv s) (hw : s.actor = .take) : Inv s.takeAction := by
  have hno : s.admission.acting = false := by
    rw [h.acting, hw]
    rfl
  unfold HandBridge.takeAction
  rcases s.admission.take_cases fun hk => (h.pending hk).2 with he | ⟨hk, -, he⟩
  · rw [he]
    obtain ⟨h1, h2, h3, h4, h5, h6, h7, h8, h9, h10, h11, h12, h13, h14, h15⟩ := h
    dsimp only
    rw [hno]
    constructor <;> first | assumption | grind -ring -linarith -order -ac [ActorPc.action]
  · rw [he]
    have hbut : EndedBut s.admission.pending (s.log ++ [Obs.taken s.admission.pending]) :=
      (h.ended hno).but
    obtain ⟨h1, h2, h3, h4, h5, h6, h7, h8, h9, h10, h11, h12, h13, h14, h15⟩ := h
    dsimp only
    rw [hno, if_neg hk]
    unfold note
    constructor <;> first | assumption | grind -ring -linarith -order -ac [CallIdle.snoc, Idle.snoc, ReadIdle.snoc,
      Sampled.snoc, Retried.snoc, Permitted.snoc, Obs.isStop, Obs.interrupts, ActorPc.action]

theorem dispatch (h : Inv s) {a : HandAction} (hw : s.actor = .carry a) : Inv (s.dispatch a) := by
  unfold HandBridge.dispatch
  rcases s.admission.beginAction_cases a with he | ⟨-, -, -, -, he⟩
  · have hend : Ended (s.log ++ [Obs.dropped a]) := (h.others a (by rw [hw]; rfl)).closed (.inr rfl)
    obtain ⟨h1, h2, h3, h4, h5, h6, h7, h8, h9, h10, h11, h12, h13, h14, h15⟩ := h
    dsimp only
    rw [he, if_neg Bool.false_ne_true]
    unfold note HandAdmission.endAction
    constructor <;> first | assumption | grind -ring -linarith -order -ac [CallIdle.snoc, Idle.snoc, ReadIdle.snoc,
      Sampled.snoc, Retried.snoc, Permitted.snoc, Obs.isStop, Obs.interrupts, ActorPc.action]
  · rw [he]
    dsimp only
    rw [if_pos rfl]
    refine plain ?_ rfl nofun nofun nofun (.inl rfl)
    obtain ⟨h1, h2, h3, h4, h5, h6, h7, h8, h9, h10, h11, h12, h13, h14, h15⟩ := h
    constructor <;> first | assumption | grind -ring -linarith -order -ac [ActorPc.action]

theorem loseSession (h : Inv s) (hw : s.actor = .wait) (hr : s.haveReal = false) :
    Inv s.loseSession := by
  have hstale : ∀ a, .admitted a ∈ s.cancel.log → a.generation ≠ s.cancel.admission.epoch :=
    fun a ha => h.stale_cancel ha
  have hc := h.cancel
  unfold HandBridge.loseSession
  refine plain ?_ rfl nofun nofun nofun (.inr hstale)
  have hr' : s.cancel.haveReal = false := hr
  have hw' : s.cancel.actor = .wait := hw
  show Inv { s.cancel with
    hand := false, handSession := false, admission := { s.cancel.admission with connected := false } }
  obtain ⟨h1, h2, h3, h4, h5, h6, h7, h8, h9, h10, h11, h12, h13, h14, h15⟩ := hc
  constructor <;> first | assumption | grind -ring -linarith -order -ac [ActorPc.action]

theorem finishAction (h : Inv s) {a : HandAction} (hw : s.actor = .acting a) (out : ActionEnd) :
    Inv (s.finishAction a out) := by
  have hend : Ended (s.log ++ [Obs.ended a]) := (h.others a (by rw [hw]; rfl)).closed (.inl rfl)
  have hfirst : Inv ({ s with
      admission := s.admission.endAction, haveReal := false, actor := .wait }.note (.ended a)) := by
    obtain ⟨h1, h2, h3, h4, h5, h6, h7, h8, h9, h10, h11, h12, h13, h14, h15⟩ := h
    unfold note HandAdmission.endAction
    constructor <;> first | assumption | grind -ring -linarith -order -ac [CallIdle.snoc, Idle.snoc, ReadIdle.snoc,
      Sampled.snoc, Retried.snoc, Permitted.snoc, Obs.isStop, Obs.interrupts, ActorPc.action]
  have hlost : Inv (if out = .lost then ({ s with
      admission := s.admission.endAction, haveReal := false, actor := .wait }.note (.ended a)).loseSession
      else { s with
        admission := s.admission.endAction, haveReal := false, actor := .wait }.note (.ended a)) := by
    split_ifs
    · exact hfirst.loseSession rfl rfl
    · exact hfirst
  unfold HandBridge.finishAction
  dsimp only
  generalize (if out = .lost then _ else _ : HandBridge) = s₁ at hlost ⊢
  have hdone : Inv (if s₁.admission.current a = true then
      { s₁ with doneToken := a.token, doneOk := out == ActionEnd.returned true, doneSeq := s₁.doneSeq + 1 }.note
        (.done a (out == ActionEnd.returned true)) else s₁) := by
    split_ifs
    · refine plain ?_ rfl nofun nofun nofun (.inl rfl)
      have h := hlost
      exact ⟨h.1, h.2, h.3, h.4, h.5, h.6, h.7, h.8, h.9, h.10, h.11, h.12, h.13, h.14, h.15⟩
    · exact hlost
  split_ifs at hdone ⊢
  all_goals exact ⟨hdone.1, hdone.2, hdone.3, hdone.4, hdone.5, hdone.6, hdone.7, hdone.8, hdone.9,
    hdone.10, hdone.11, hdone.12, hdone.13, hdone.14, hdone.15⟩

theorem beginRead (h : Inv s) (hw : s.actor = .read) : Inv s.beginRead := by
  have hread : s.admission.stopping = false → ReadIdle (s.log ++ [Obs.readBegan]) := fun hst =>
    Since.now ⟨rfl, h.idle hst⟩
  obtain ⟨h1, h2, h3, h4, h5, h6, h7, h8, h9, h10, h11, h12, h13, h14, h15⟩ := h
  unfold HandBridge.beginRead note
  constructor <;> first | assumption | grind -ring -linarith -order -ac [EndedBut.snoc, Ended.snoc, CallIdle.snoc,
    Idle.snoc, Sampled.snoc, Retried.snoc, Permitted.snoc, Obs.isStop, Obs.interrupts, ActorPc.action]

theorem observeState (h : Inv s) (hw : s.actor = .wait) (hc : s.admission.connected = true)
    (hread : s.admission.stopping = false → ReadIdle s.log) (st : GripperState) (now : ℚ) :
    Inv (s.observeState st now) := by
  unfold HandBridge.observeState
  split_ifs with hst
  · exact h
  · exact h
  · obtain ⟨h1, h2, h3, h4, h5, h6, h7, h8, h9, h10, h11, h12, h13, h14, h15⟩ := h
    constructor <;> first | assumption | grind -ring -linarith -order -ac [ActorPc.action]
  · have hst' : s.admission.stopping = false := by simpa using hst
    have hsam : Sampled (s.log ++ [Obs.observed]) := Since.now ⟨rfl, hread hst'⟩
    obtain ⟨h1, h2, h3, h4, h5, h6, h7, h8, h9, h10, h11, h12, h13, h14, h15⟩ := h
    unfold HandAdmission.sampled note
    dsimp only
    split_ifs <;> constructor <;> first | assumption | grind -ring -linarith -order -ac [EndedBut.snoc, Ended.snoc,
      CallIdle.snoc, Idle.snoc, Retried.snoc, Permitted.snoc, Obs.interrupts, ActorPc.action]

theorem finishRead (h : Inv s) {serial : ℕ} {during : Bool} (hw : s.actor = .reading serial during)
    (env : ActorEnv) : Inv (s.finishRead serial during env) := by
  obtain ⟨hc, -, hread⟩ := h.reading _ _ hw
  have hidle : Inv { s with actor := .wait } := by
    obtain ⟨h1, h2, h3, h4, h5, h6, h7, h8, h9, h10, h11, h12, h13, h14, h15⟩ := h
    constructor <;> first | assumption | grind -ring -linarith -order -ac [ActorPc.action]
  unfold HandBridge.finishRead
  dsimp only
  cases env.state with
  | none =>
    refine loseSession ?_ rfl rfl
    obtain ⟨h1, h2, h3, h4, h5, h6, h7, h8, h9, h10, h11, h12, h13, h14, h15⟩ := hidle
    constructor <;> first | assumption | grind -ring -linarith -order -ac [ActorPc.action]
  | some st =>
    dsimp only
    split_ifs with hg
    · exact hidle.observeState rfl hc (fun _ => (hread hg.1 hg.2).2) st env.now
    · exact hidle

theorem actorStep (h : Inv s) (env : ActorEnv) : Inv (s.actorStep env) := by
  unfold HandBridge.actorStep
  cases hw : s.actor with
  | wait => exact h.wake hw
  | connect =>
    dsimp only
    split_ifs
    · exact h.openSession hw
    · obtain ⟨h1, h2, h3, h4, h5, h6, h7, h8, h9, h10, h11, h12, h13, h14, h15⟩ := h
      constructor <;> first | assumption | grind -ring -linarith -order -ac [ActorPc.action]
  | take => exact h.takeAction hw
  | carry a => exact h.dispatch hw
  | acting a => exact h.finishAction hw _
  | read => exact h.beginRead hw
  | reading serial during => exact h.finishRead hw env

theorem step (h : Inv s) (e : Event) : Inv (s.step e) := by
  cases e with
  | actor env => exact h.actorStep env
  | stopper ok => exact h.stopperStep ok
  | serve c => exact h.serveStep c

end Inv

end HandBridge
end ArmControl.Rt
