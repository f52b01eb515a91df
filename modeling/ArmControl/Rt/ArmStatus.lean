import ArmControl.Rt.ControlSession

/-!
# What a control frame does to the arm authority

* `Server.acks`     the STATUS replies that were sent, in order;
* `KeepsArm`        a step with no ARM and no DISARM in it;
* `controlStep_keepsArm`, `onArm_spec`, `onDisarm_spec`.
-/

namespace ArmControl.Rt.Server

/-- a STATUS reply -/
structure Ack where
  flags : Flags
  text : String
  seq : ℕ
  deriving DecidableEq, Inhabited

def ackOf : Reply → Option Ack
  | .status flags text seq => some ⟨flags, text, seq⟩
  | _ => none

def acks (s : Server) : List Ack := s.sent.filterMap ackOf

/-- the authority is as it was and no STATUS was sent -/
structure KeepsArm (s s' : Server) : Prop where
  armed : s'.pub.armed = s.pub.armed
  armGen : s'.pub.armGen = s.pub.armGen
  disarmGen : s'.pub.disarmGen = s.pub.disarmGen
  acks : s'.acks = s.acks

namespace KeepsArm

variable {s a b : Server}

theorem refl (s : Server) : KeepsArm s s := ⟨rfl, rfl, rfl, rfl⟩

theorem trans (h : KeepsArm s a) (h' : KeepsArm a b) : KeepsArm s b :=
  ⟨h'.armed.trans h.armed, h'.armGen.trans h.armGen, h'.disarmGen.trans h.disarmGen, h'.acks.trans h.acks⟩

theorem branch {c : Prop} [Decidable c] (ha : KeepsArm s a) (hb : KeepsArm s b) :
    KeepsArm s (if c then a else b) := by
  split
  · exact ha
  · exact hb

theorem send (s : Server) {r : Reply} (hr : ackOf r = none) (ok : Bool) : KeepsArm s (s.send r ok) := by
  cases ok with
  | false => exact refl s
  | true =>
    refine ⟨rfl, rfl, rfl, ?_⟩
    simp [Server.acks, Server.send, hr]

/-- a step that publishes nothing and sends nothing -/
theorem silent (h : KeepsArm s a) (hpub : b.pub = a.pub) (hsent : b.sent = a.sent) : KeepsArm s b :=
  ⟨by rw [hpub, h.armed], by rw [hpub, h.armGen], by rw [hpub, h.disarmGen],
    by rw [← h.acks, Server.acks, hsent, Server.acks]⟩

theorem groupReply (cfg : ServerConfig) (s : Server) (gid op : ℕ) (result : ReferenceResult) (verdict seq : ℕ)
    (env : CtlEnv) : KeepsArm s (s.groupReply cfg gid op result verdict seq env) := by
  unfold Server.groupReply
  dsimp only
  refine trans ?_ (send _ rfl _)
  exact (refl s).silent rfl rfl

theorem groupLeave (s : Server) : KeepsArm s s.groupLeave := by
  unfold Server.groupLeave
  exact branch (refl s) ⟨rfl, rfl, rfl, rfl⟩

theorem groupRetire (s : Server) : KeepsArm s s.groupRetire := by
  unfold Server.groupRetire
  exact branch ⟨rfl, rfl, rfl, rfl⟩ (branch (refl s) ⟨rfl, rfl, rfl, rfl⟩)

/-- the member leaves its group -/
theorem leave (s : Server) : KeepsArm s s.groupRetire.groupLeave := (groupRetire s).trans (groupLeave _)

end KeepsArm

open KeepsArm

variable (cfg : ServerConfig) (ids : SessionIds) (s : Server) (env : CtlEnv)

theorem top_keepsArm : KeepsArm s (s.top cfg env) := by
  have hread : KeepsArm s s.readSelection := ⟨rfl, rfl, rfl, rfl⟩
  unfold Server.top
  dsimp only
  refine branch (hread.silent rfl rfl) (branch (branch ?_ ?_) (branch ?_ (branch ?_ ?_)))
  case refine_1 => exact ((hread.trans (leave _)).trans (KeepsArm.groupReply ..)).silent rfl rfl
  case refine_2 => exact (hread.trans (leave _)).silent rfl rfl
  case refine_3 =>
    have hevent : KeepsArm s { s.readSelection with sh := { s.readSelection.sh with groupEvent := 0 } } :=
      hread.silent rfl rfl
    refine KeepsArm.silent (KeepsArm.trans ?_ (KeepsArm.groupReply ..)) rfl rfl
    exact (hevent.trans (leave _)).silent rfl rfl
  all_goals exact hread.silent rfl rfl

theorem holdDecide_keepsArm (gnow : ℕ) (release : Bool) (bad : Option PeerVerdict) :
    KeepsArm s (s.holdDecide cfg gnow release bad env) := by
  unfold Server.holdDecide
  dsimp only
  refine branch ?_ (branch ⟨rfl, rfl, rfl, rfl⟩ ⟨rfl, rfl, rfl, rfl⟩)
  refine KeepsArm.silent ((KeepsArm.trans ?_ (leave _)).trans (KeepsArm.groupReply ..)) rfl rfl
  exact (refl s).silent rfl rfl

theorem poll_keepsArm (m gnow : ℕ) (release : Bool) (bad : Option PeerVerdict) :
    KeepsArm s (s.poll cfg m gnow release bad env) := by
  have hquiet (p : CtlPc) : KeepsArm s { s with pc := p } := (refl s).silent rfl rfl
  unfold Server.poll
  dsimp only
  exact branch (holdDecide_keepsArm ..) (branch (hquiet _) (branch (hquiet _) (hquiet _)))

theorem modeAck_keepsArm : KeepsArm s (s.modeAck env) := by
  have hquiet (p : CtlPc) : KeepsArm s { s with pc := p } := (refl s).silent rfl rfl
  have hmode (r : ModeSelectReplyPayload) (seq : ℕ) (ok : Bool) : KeepsArm s (s.send (.mode r seq) ok) :=
    KeepsArm.send s rfl ok
  unfold Server.modeAck
  dsimp only
  refine branch (hquiet _) (branch (branch (hquiet _) ?_) (branch (branch (hquiet _) ?_) (hquiet _)))
  case refine_1 =>
    split
    · exact (refl s).silent rfl rfl
    · exact (hmode s.rt.modeFeedback s.loc.modeFrame.seq env.sendOk).silent rfl rfl
  case refine_2 => exact (hmode _ _ _).silent rfl rfl

theorem commitAck_keepsArm : KeepsArm s (s.commitAck cfg env) := by
  have hresult (result : ReferenceResult) : KeepsArm s { s with loc := { s.loc with
      commitReply := { s.loc.commitReply with result := result } } } := (refl s).silent rfl rfl
  have hdiscard {a : Server} (h : KeepsArm s a) : KeepsArm s a.discardUpload := h.silent rfl rfl
  unfold Server.commitAck
  refine branch ((refl s).silent rfl rfl) ?_
  dsimp only
  refine branch ?_ (branch ((refl s).silent rfl rfl) ?_)
  case refine_1 =>
    have hleft := branch (c := s.rt.referenceResult = .ok) (hresult s.rt.referenceResult)
      ((hresult s.rt.referenceResult).trans (leave _))
    refine (trans (branch (hdiscard ?_) ?_) (KeepsArm.groupReply ..)).silent rfl rfl
    all_goals exact hleft.silent rfl rfl
  case refine_2 =>
    have hsent := (hresult s.rt.referenceResult).trans (KeepsArm.send _ (r := .reference
      { s.loc.commitReply with result := s.rt.referenceResult } s.loc.commitFrame.seq) rfl true)
    refine (branch (hdiscard ?_) ?_).silent rfl rfl
    all_goals exact hsent.silent rfl rfl

/-- the control thread without a frame -/
theorem controlStep_keepsArm (hframe : env.frame = none) : KeepsArm s (s.controlStep cfg ids env) := by
  unfold Server.controlStep
  cases hpc : s.pc with
  | closed => exact branch (refl s) ⟨rfl, rfl, rfl, rfl⟩
  | top => exact top_keepsArm cfg s env
  | poll m gnow release bad => exact poll_keepsArm cfg s env m gnow release bad
  | modeAck => exact modeAck_keepsArm s env
  | commitAck => exact commitAck_keepsArm cfg s env
  | recv =>
    dsimp only
    rw [hframe]
    exact branch ((refl s).silent rfl rfl) ((refl s).silent rfl rfl)
  | commitWrite => exact ⟨rfl, rfl, rfl, rfl⟩
  | ending => exact ⟨rfl, rfl, rfl, rfl⟩
  | groupEnd =>
    dsimp only
    unfold Server.groupEnd
    exact branch ((refl s).silent rfl rfl) ⟨rfl, rfl, rfl, rfl⟩

/-- the servo thread -/
theorem servo_keepsArm (renv : RtEnv) : KeepsArm s (s.step cfg ids (.servo renv)) := by
  unfold Server.step
  dsimp only
  generalize s.rt.step cfg s.sh s.pub renv = x
  exact ⟨rfl, rfl, rfl, rfl⟩

/-- a STATUS with the flags as they are now -/
theorem status_acks (text : String) (seq : ℕ) :
    (s.status text seq env).acks = s.acks ++ if env.sendOk then [⟨s.flags, text, seq⟩] else [] := by
  unfold Server.status Server.send
  cases env.sendOk with
  | false => simp [acks]
  | true => simp [acks, ackOf]

theorem status_pub (text : String) (seq : ℕ) : (s.status text seq env).pub = s.pub := by
  unfold Server.status Server.send
  cases env.sendOk <;> rfl

/-- an ARM is refused with the epoch 0, or its reply names the ARM generation in force; an ARM that was in
force stays -/
structure ArmAnswer (s s' : Server) (ok : Bool) (a : Ack) : Prop where
  acks : s'.acks = s.acks ++ if ok then [a] else []
  names : a.seq ≠ 0 → s'.pub.armed = true ∧ a.seq = low32 s'.pub.armGen
  stays : s.pub.armed = true → s'.pub.armed = true ∧ s'.pub.armGen = s.pub.armGen
  disarmGen : s'.pub.disarmGen = s.pub.disarmGen

theorem ArmAnswer.refused (text : String) :
    ArmAnswer s (s.status text 0 env) env.sendOk ⟨s.flags, text, 0⟩ := by
  refine ⟨status_acks .., fun h => absurd rfl h, fun h => ?_, ?_⟩
  all_goals rw [status_pub]
  exact ⟨h, rfl⟩

theorem onArm_spec : ∃ a, ArmAnswer s (s.onArm cfg env) env.sendOk a := by
  unfold Server.onArm
  split
  case isTrue => exact ⟨_, .refused ..⟩
  case isFalse =>
    split
    case isTrue h =>
      refine ⟨_, status_acks .., fun _ => ?_, fun h => ?_, ?_⟩
      all_goals rw [status_pub]
      · exact ⟨h.1, rfl⟩
      · exact ⟨h, rfl⟩
    case isFalse hidle =>
      split
      · exact ⟨_, .refused ..⟩
      · exact ⟨_, .refused ..⟩
      case h_3 _ hl =>
        refine ⟨_, status_acks .., fun _ => ?_, fun h => ?_, ?_⟩
        · rw [status_pub]
          exact ⟨rfl, rfl⟩
        · exact absurd ⟨h, by rw [Shared.fault, hl]; rfl⟩ hidle
        · rw [status_pub]

/-- a DISARM takes the authority and names its own generation -/
theorem onDisarm_spec : ∃ text,
    (s.onDisarm env).acks =
      s.acks ++ (if env.sendOk then
        [⟨⟨false, false, s.pub.claimOk⟩, text, low32 (s.pub.disarmGen + 1)⟩] else []) ∧
    (s.onDisarm env).pub.armed = false ∧ (s.onDisarm env).pub.disarmGen = s.pub.disarmGen + 1 := by
  refine ⟨_, status_acks .., ?_, ?_⟩
  all_goals rw [Server.onDisarm, status_pub]

end ArmControl.Rt.Server
