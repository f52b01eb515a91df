import ArmControl.Lib.Run
import ArmControl.Rt.HandInvariant

/-!
# A stop of the Hand outranks every action

* `Lawful`             what the entries of one step say about the log before it;
* `hand_stop_outranks` every step of every run is lawful.
-/

namespace ArmControl.Rt
namespace HandBridge
open Run History

/-! ## what a step does -/

/-- the entries of one step, and the fault flag before and after it -/
structure Lawful (s s' : HandBridge) (new : List Obs) : Prop where
  log : s'.log = s.log ++ new
  dispatched : ∀ a, .dispatched a ∈ new →
    s.admission.stopping = false ∧ s.admission.stopFault = false ∧ Permitted a s.log
  alone : ∀ a, .taken a ∈ new → Ended s.log
  done : ∀ a ok, .done a ok ∈ new → Permitted a s.log
  line : ∀ token ok, .doneLine token ok ∈ new → ∃ a, .done a ok ∈ s.log ∧ a.token = token
  forgiven : s.admission.stopFault = true → s'.admission.stopFault = false →
    .observed ∈ new ∧ Forgiven s.log

/-- entries that `Lawful` says something about -/
def Obs.tells : Obs → Bool
  | .dispatched _ | .taken _ | .done .. | .doneLine .. => true
  | _ => false

variable {s : HandBridge}

/-- a step that tells nothing and keeps the fault -/
theorem Lawful.quiet {s' : HandBridge} {new : List Obs} (hl : s'.log = s.log ++ new)
    (hn : ∀ o ∈ new, Obs.tells o = false)
    (hf : s.admission.stopFault = true → s'.admission.stopFault = true) : Lawful s s' new where
  log := hl
  dispatched _ ha := absurd (hn _ ha) Bool.noConfusion
  alone _ ha := absurd (hn _ ha) Bool.noConfusion
  done _ _ ha := absurd (hn _ ha) Bool.noConfusion
  line _ _ ha := absurd (hn _ ha) Bool.noConfusion
  forgiven h1 h2 := absurd ((hf h1).symm.trans h2) Bool.noConfusion

theorem Lawful.same : Lawful s s [] := .quiet (List.append_nil _).symm nofun id

/-- the last result is in the log -/
structure Reported (s : HandBridge) : Prop where
  seen : s.seenDone ≤ s.doneSeq
  result : s.doneSeq ≠ 0 → ∃ a, .done a s.doneOk ∈ s.log ∧ a.token = s.doneToken

theorem serveStep_lawful (hr : Reported s) (c : ServeStep) :
    ∃ new, Lawful s (s.serveStep c) new := by
  unfold serveStep
  cases c with
  | connect =>
    dsimp only
    split_ifs
    · exact ⟨[], .same⟩
    · exact ⟨[.cancelled, .clientConnected], .quiet (by simp [connect, cancel, note]) (by simp [Obs.tells]) id⟩
  | gstop =>
    dsimp only
    split_ifs
    · exact ⟨[.stopRequested], .quiet rfl (by simp [Obs.tells]) id⟩
    · exact ⟨[], .same⟩
  | command a now =>
    dsimp only
    split_ifs
    · unfold command
      rcases s.admission.admit_cases a (s.fresh now) with ⟨r, he⟩ | ⟨-, -, -, -, -, -, -, he⟩
      · rw [he]
        exact ⟨[], .same⟩
      · rw [he]
        exact ⟨[_], .quiet rfl (by simp [Obs.tells]) id⟩
    · exact ⟨[], .same⟩
  | pollGrasp =>
    dsimp only
    unfold pollGrasp
    split_ifs
    · exact ⟨[], .same⟩
    · exact ⟨[_], .quiet rfl (by simp [Obs.tells]) id⟩
    · exact ⟨[], .same⟩
  | pollDone =>
    dsimp only
    unfold pollDone
    split_ifs with _ hseq
    · exact ⟨[], .same⟩
    · refine ⟨[.doneLine s.doneToken s.doneOk], rfl, by simp, by simp, by simp, ?_, fun h1 h2 => ?_⟩
      · intro token ok hm
        obtain ⟨rfl, rfl⟩ : token = s.doneToken ∧ ok = s.doneOk := by simpa using hm
        have := hr.seen
        exact hr.result (by omega)
      · exact absurd (h1.symm.trans h2) Bool.noConfusion
    · exact ⟨[], .same⟩
  | disconnect =>
    dsimp only
    split_ifs
    · unfold disconnect
      dsimp only
      split_ifs
      · exact ⟨[.stopRequested, .clientLost], .quiet (by simp [gstop, requestStop, note])
          (by simp [Obs.tells]) id⟩
      · exact ⟨[.cancelled, .clientLost], .quiet (by simp [cancel, note]) (by simp [Obs.tells]) id⟩
    · exact ⟨[], .same⟩

theorem stopperStep_lawful (ok : Bool) : ∃ new, Lawful s (s.stopperStep ok) new := by
  unfold stopperStep
  cases s.stopper with
  | wait =>
    dsimp only
    unfold beginStop
    split_ifs
    · exact ⟨[.stopBegan], .quiet rfl (by simp [Obs.tells]) id⟩
    · exact ⟨[], .same⟩
  | calling serial wasActing hand =>
    refine ⟨[_], .quiet rfl (by simp [Obs.tells]) fun hf => ?_⟩
    show (s.admission.finishStop serial wasActing (hand && ok)).stopFault = true
    rcases s.admission.finishStop_cases serial wasActing (hand && ok) with he | ⟨-, -, -, he⟩
    · rw [he]
      exact hf
    · rw [he]
      dsimp only
      split_ifs
      · exact hf
      · rfl

/-- the tail of a log that a loss of the session leaves -/
theorem loseSession_log : s.loseSession.log = s.log ++ [Obs.cancelled, .sessionLost] := by
  simp [loseSession, cancel, note]

theorem openSession_lawful : ∃ new, Lawful s s.openSession new := by
  unfold openSession HandAdmission.sessionOpened
  dsimp only
  split_ifs with hf
  · exact ⟨[.sessionOpened, .stopRequested], .quiet (by simp [note]) (by simp [Obs.tells]) id⟩
  · exact ⟨[.sessionOpened], .quiet rfl (by simp [Obs.tells]) id⟩

theorem takeAction_lawful (h : Inv s) (hw : s.actor = .take) : ∃ new, Lawful s s.takeAction new := by
  have hno : s.admission.acting = false := by
    rw [h.acting, hw]
    rfl
  unfold takeAction
  rcases s.admission.take_cases fun hk => (h.pending hk).2 with he | ⟨-, -, he⟩
  · rw [he]
    dsimp only
    rw [hno]
    exact ⟨[], .quiet (List.append_nil _).symm nofun id⟩
  · rw [he]
    dsimp only
    rw [hno]
    refine ⟨[.taken s.admission.pending], rfl, by simp, fun _ _ => h.ended hno, by simp, by simp, ?_⟩
    exact fun h1 h2 => absurd (h1.symm.trans h2) Bool.noConfusion

theorem dispatch_lawful (h : Inv s) {a : HandAction} (hw : s.actor = .carry a) :
    ∃ new, Lawful s (s.dispatch a) new := by
  unfold dispatch
  rcases s.admission.beginAction_cases a with he | ⟨-, -, -, hg, he⟩
  · dsimp only
    rw [he, if_neg Bool.false_ne_true]
    exact ⟨[.dropped a], .quiet rfl (by simp [Obs.tells]) id⟩
  · rw [he]
    dsimp only
    rw [if_pos rfl]
    obtain ⟨hp, hst, hf, -⟩ := h.current a (h.carried a (by rw [hw]; rfl)) hg
    refine ⟨[.dispatched a], rfl, ?_, by simp, by simp, by simp, ?_⟩
    · intro b hb
      obtain rfl : b = a := by simpa using hb
      exact ⟨hst, hf, hp⟩
    · exact fun h1 h2 => absurd (h1.symm.trans h2) Bool.noConfusion

/-- the entries of an action's end -/
theorem finishAction_log (a : HandAction) (out : ActionEnd) : ∃ new,
    (s.finishAction a out).log = s.log ++ new ∧
      (s.finishAction a out).admission.stopFault = s.admission.stopFault ∧
      (∀ o ∈ new, Obs.tells o = true → (∃ ok, o = .done a ok) ∧ a.generation = s.admission.epoch) := by
  unfold finishAction
  by_cases hl : out = .lost
  · -- a lost session leaves nothing current
    dsimp only
    rw [if_pos hl]
    refine ⟨[.ended a, .cancelled, .sessionLost], ?_, ?_, ?_⟩
    all_goals simp [HandAdmission.current, loseSession, cancel, note, HandAdmission.cancel,
      HandAdmission.endAction, Obs.tells]
  · dsimp only
    rw [if_neg hl]
    by_cases hc : ({ s with
        admission := s.admission.endAction, haveReal := false, actor := .wait }.note
          (.ended a)).admission.current a = true
    · have hg : a.generation = s.admission.epoch := by
        simp only [HandAdmission.current, Bool.and_eq_true, beq_iff_eq] at hc
        exact hc.2
      refine ⟨[.ended a, .done a (out == .returned true)], ?_, ?_, ?_⟩
      · rw [if_pos hc]
        split_ifs <;> simp [note]
      · rw [if_pos hc]
        split_ifs <;> rfl
      · intro o ho ht
        rcases List.mem_cons.mp ho with rfl | ho
        · cases ht
        · rw [List.mem_singleton.mp ho]
          exact ⟨⟨_, rfl⟩, hg⟩
    · refine ⟨[.ended a], ?_, ?_, ?_⟩
      · rw [if_neg hc]
        split_ifs <;> simp_all [note]
      · rw [if_neg hc]
        split_ifs <;> rfl
      · simp [Obs.tells]

theorem finishAction_lawful (h : Inv s) {a : HandAction} (hw : s.actor = .acting a) (out : ActionEnd) :
    ∃ new, Lawful s (s.finishAction a out) new := by
  obtain ⟨new, hlog, hf, hn⟩ := finishAction_log (s := s) a out
  have htell : ∀ o ∈ new, Obs.tells o = true → (∃ ok, o = .done a ok) ∧ Permitted a s.log := by
    intro o ho ht
    obtain ⟨hd, hg⟩ := hn o ho ht
    exact ⟨hd, (h.current a (h.carried a (by rw [hw]; rfl)) hg).1⟩
  refine ⟨new, hlog, ?_, ?_, ?_, ?_, ?_⟩
  · intro b hb
    obtain ⟨⟨ok, he⟩, -⟩ := htell _ hb rfl
    cases he
  · intro b hb
    obtain ⟨⟨ok, he⟩, -⟩ := htell _ hb rfl
    cases he
  · intro b ok hb
    obtain ⟨⟨ok, he⟩, hp⟩ := htell _ hb rfl
    cases he
    exact hp
  · intro token ok hb
    obtain ⟨⟨ok, he⟩, -⟩ := htell _ hb rfl
    cases he
  · intro h1 h2
    rw [hf, h1] at h2
    cases h2

/-- the sample that forgives was asked for after the stop that succeeded -/
theorem Inv.forgives (h : Inv s) (hr : s.admission.stopRetriedOk = true) (hread : ReadIdle s.log) :
    Forgiven s.log := by
  refine Since.nest (h.retried hr).2 hread ?_ ?_
  · rintro p o ⟨⟨last, rfl⟩, -⟩ ⟨hst, -⟩
    cases hst
  · rintro p p' o ⟨⟨last, rfl⟩, -⟩ ⟨he, -⟩
    cases he

theorem finishRead_lawful (h : Inv s) {serial : ℕ} {during : Bool}
    (hw : s.actor = .reading serial during) (env : ActorEnv) :
    ∃ new, Lawful s (s.finishRead serial during env) new := by
  obtain ⟨-, -, hread⟩ := h.reading _ _ hw
  unfold finishRead
  dsimp only
  cases env.state with
  | none =>
    refine ⟨[.cancelled, .sessionLost], .quiet ?_ (by simp [Obs.tells]) id⟩
    exact loseSession_log
  | some st =>
    dsimp only
    split_ifs with hg
    · unfold observeState
      split_ifs
      · exact ⟨[], .quiet (List.append_nil _).symm nofun id⟩
      · exact ⟨[], .quiet (List.append_nil _).symm nofun id⟩
      · exact ⟨[], .quiet (List.append_nil _).symm nofun id⟩
      · refine ⟨[.observed], rfl, by simp, by simp, by simp, by simp, fun h1 h2 => ?_⟩
        refine ⟨by simp, h.forgives ?_ (hread hg.1 hg.2).2⟩
        by_contra hno
        have hsam : s.admission.sampled = s.admission := by
          rw [HandAdmission.sampled, Bool.eq_false_of_not_eq_true hno]
          rfl
        have h2' : s.admission.sampled.stopFault = false := h2
        rw [hsam, h1] at h2'
        cases h2'
    · exact ⟨[], .quiet (List.append_nil _).symm nofun id⟩

theorem actorStep_lawful (h : Inv s) (env : ActorEnv) : ∃ new, Lawful s (s.actorStep env) new := by
  unfold actorStep
  cases hw : s.actor with
  | wait =>
    dsimp only
    unfold wake
    split_ifs
    · exact ⟨[], .quiet (List.append_nil _).symm nofun id⟩
    · exact ⟨[], .same⟩
    · exact ⟨[], .quiet (List.append_nil _).symm nofun id⟩
  | connect =>
    dsimp only
    split_ifs
    · exact openSession_lawful
    · exact ⟨[], .quiet (List.append_nil _).symm nofun id⟩
  | take => exact takeAction_lawful h hw
  | carry a => exact dispatch_lawful h hw
  | acting a => exact finishAction_lawful h hw _
  | read => exact ⟨[.readBegan], .quiet rfl (by simp [Obs.tells]) id⟩
  | reading serial during => exact finishRead_lawful h hw env

/-! ## runs -/

theorem inv_init : Inv {} where
  link := rfl
  opening := nofun
  acting := rfl
  carried := nofun
  pending h := absurd rfl h
  bound := nofun
  current := nofun
  idle _ := answered_nil
  calling := nofun
  reading := nofun
  real := nofun
  retried := nofun
  ended _ := answered_nil
  others := nofun
  online := nofun

/-- a step that leaves the last result alone -/
theorem Reported.keep {s' : HandBridge} (hr : Reported s) (hseen : s'.seenDone = s.seenDone)
    (hlast : (s'.doneSeq, s'.doneToken, s'.doneOk) = (s.doneSeq, s.doneToken, s.doneOk))
    (hlog : s.log ⊆ s'.log) : Reported s' := by
  obtain ⟨hs, ht, ho⟩ : s'.doneSeq = s.doneSeq ∧ s'.doneToken = s.doneToken ∧ s'.doneOk = s.doneOk := by
    simpa using hlast
  refine ⟨?_, fun h0 => ?_⟩
  · rw [hseen, hs]
    exact hr.seen
  · rw [hs] at h0
    obtain ⟨a, ha, hat⟩ := hr.result h0
    rw [ho, ht]
    exact ⟨a, hlog ha, hat⟩

theorem Reported.note (hr : Reported s) (o : Obs) : Reported (s.note o) :=
  hr.keep rfl rfl (List.subset_append_left ..)

theorem Reported.cancel (hr : Reported s) : Reported s.cancel :=
  hr.keep rfl rfl (List.subset_append_left ..)

theorem Reported.gstop (hr : Reported s) : Reported s.gstop :=
  hr.keep rfl rfl (List.subset_append_left ..)

theorem Reported.loseSession (hr : Reported s) : Reported s.loseSession := by
  refine hr.keep rfl rfl ?_
  rw [loseSession_log]
  exact List.subset_append_left ..

theorem Reported.serveStep (hr : Reported s) (c : ServeStep) : Reported (s.serveStep c) := by
  unfold HandBridge.serveStep
  cases c with
  | connect =>
    dsimp only
    split_ifs
    · exact hr
    · exact ⟨le_refl _, (hr.cancel.note .clientConnected).result⟩
  | gstop =>
    dsimp only
    split_ifs
    · exact hr.gstop
    · exact hr
  | command a now =>
    dsimp only
    split_ifs
    · unfold command
      split
      · exact hr.keep rfl rfl (List.subset_append_left ..)
      · exact hr
    · exact hr
  | pollGrasp =>
    dsimp only
    unfold pollGrasp
    split_ifs
    · exact hr
    · exact hr.keep rfl rfl (List.subset_append_left ..)
    · exact hr
  | pollDone =>
    dsimp only
    unfold pollDone
    split_ifs
    · exact hr
    · exact ⟨le_refl _, (hr.note (.doneLine s.doneToken s.doneOk)).result⟩
    · exact hr
  | disconnect =>
    dsimp only
    split_ifs
    · unfold disconnect
      dsimp only
      apply Reported.note
      split_ifs
      · exact hr.keep rfl rfl (List.subset_append_left ..)
      · exact hr.keep rfl rfl (List.subset_append_left ..)
    · exact hr

theorem Reported.finishAction (hr : Reported s) (a : HandAction) (out : ActionEnd) :
    Reported (s.finishAction a out) := by
  unfold HandBridge.finishAction
  dsimp only
  generalize hs1 : ({ s with
    admission := s.admission.endAction, haveReal := false, actor := .wait }.note (.ended a)) = s1
  have hr1 : Reported s1 := by
    rw [← hs1]
    exact hr.keep rfl rfl (List.subset_append_left ..)
  generalize hs2 : (if out = .lost then s1.loseSession else s1) = s2
  have hr2 : Reported s2 := by
    rw [← hs2]
    split_ifs
    · exact hr1.loseSession
    · exact hr1
  have hr3 : Reported ({ s2 with
      doneToken := a.token, doneOk := (out == ActionEnd.returned true), doneSeq := s2.doneSeq + 1 }.note
        (.done a (out == ActionEnd.returned true))) := by
    refine ⟨Nat.le_succ_of_le hr2.seen, fun _ => ⟨a, ?_, rfl⟩⟩
    exact List.mem_append_right _ (List.mem_singleton.mpr rfl)
  by_cases hc : s2.admission.current a = true
  · rw [if_pos hc]
    split_ifs
    · exact hr3.keep rfl rfl (List.Subset.refl _)
    · exact hr3
  · rw [if_neg hc]
    split_ifs
    · exact hr2.keep rfl rfl (List.Subset.refl _)
    · exact hr2

theorem Reported.actorStep (hr : Reported s) (env : ActorEnv) : Reported (s.actorStep env) := by
  unfold HandBridge.actorStep
  cases s.actor with
  | wait =>
    dsimp only
    unfold wake
    split_ifs
    · exact hr.keep rfl rfl (List.Subset.refl _)
    · exact hr
    · exact hr.keep rfl rfl (List.Subset.refl _)
  | connect =>
    dsimp only
    split_ifs
    · unfold openSession
      dsimp only
      have hopen : Reported ({ s with
          hand := true, handSession := true, seenRobotSample := false, actor := .take
          admission := s.admission.sessionOpened }.note .sessionOpened) :=
        hr.keep rfl rfl (List.subset_append_left ..)
      split_ifs
      · exact hopen.note .stopRequested
      · exact hopen
    · exact hr.keep rfl rfl (List.Subset.refl _)
  | take =>
    dsimp only
    unfold takeAction
    dsimp only
    split_ifs
    all_goals exact hr.keep rfl rfl (by simp [HandBridge.note])
  | carry a =>
    dsimp only
    unfold dispatch
    dsimp only
    split_ifs
    all_goals exact hr.keep rfl rfl (List.subset_append_left ..)
  | acting a => exact hr.finishAction a _
  | read => exact hr.keep rfl rfl (List.subset_append_left ..)
  | reading serial during =>
    dsimp only
    unfold finishRead
    dsimp only
    cases env.state with
    | none =>
      exact (show Reported { s with actor := .wait, haveReal := false } from hr.keep rfl rfl
        (List.Subset.refl _)).loseSession
    | some st =>
      dsimp only
      split_ifs
      · unfold observeState
        split_ifs
        · exact hr.keep rfl rfl (List.Subset.refl _)
        · exact hr.keep rfl rfl (List.Subset.refl _)
        · exact hr.keep rfl rfl (List.Subset.refl _)
        · exact hr.keep rfl rfl (List.subset_append_left ..)
      · exact hr.keep rfl rfl (List.Subset.refl _)

theorem Reported.stopperStep (hr : Reported s) (ok : Bool) : Reported (s.stopperStep ok) := by
  unfold HandBridge.stopperStep
  cases s.stopper with
  | wait =>
    dsimp only
    unfold beginStop
    split_ifs
    · exact hr.keep rfl rfl (List.subset_append_left ..)
    · exact hr
  | calling serial wasActing hand => exact hr.keep rfl rfl (List.subset_append_left ..)

theorem Reported.step (hr : Reported s) (e : Event) : Reported (s.step e) := by
  cases e with
  | actor env => exact hr.actorStep env
  | stopper ok => exact hr.stopperStep ok
  | serve c => exact hr.serveStep c

/-- **A stop of the Hand outranks every action.**  In every run, an action is dispatched only while no
stop is wanted or failed, uninterrupted since its admission, which a sample preceded that was read
after the last stop; no action is taken before the last one has ended; only an uninterrupted action
is done; and a failed stop is forgiven only on a sample read after a successful stop that met no
action. -/
theorem hand_stop_outranks (es : List Event) (e : Event) :
    ∃ new, Lawful (run step {} es) ((run step {} es).step e) new := by
  have hinv : Inv (run step {} es) ∧ Reported (run step {} es) := by
    refine invariant (C := fun _ _ => True) (I := fun s => Inv s ∧ Reported s) ⟨inv_init, ?_⟩
      (fun _ e _ hi => ⟨hi.1.step e, hi.2.step e⟩) (along_of_forall (fun _ _ => trivial) es)
    exact ⟨le_refl _, fun h => absurd rfl h⟩
  obtain ⟨hi, hr⟩ := hinv
  cases e with
  | actor env => exact actorStep_lawful hi env
  | stopper ok => exact stopperStep_lawful ok
  | serve c => exact serveStep_lawful hr c

end HandBridge
end ArmControl.Rt
