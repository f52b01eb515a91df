import ArmControl.Rt.ControlSession

/-!
# What one step of the control thread can do

The group protocol depends on a few fields of the server only.  `core` blanks the others, and
`Move` lists what a step of the control thread does to the rest, one constructor for each kind of
step, with the guards that later proofs use:

* `core`, `quit`      the relevant fields; retiring and leaving the group in one update;
* `Move`              the kinds of steps;
* `controlStep_move`  every step is one of them.

Proofs about the group protocol go by cases on `Move` and never unfold the thread again.
-/

namespace ArmControl.Rt

/-- the positions of a round after the epoch check at its top -/
def CtlPc.inRound : CtlPc → Bool
  | .poll .. | .modeAck | .commitAck | .recv => true
  | _ => false

@[grind →]
theorem CtlPc.inRound_ne {p : CtlPc} (h : p.inRound = true) :
    p ≠ .closed ∧ p ≠ .top ∧ p ≠ .commitWrite ∧ p ≠ .ending ∧ p ≠ .groupEnd := by
  cases p <;> simp_all [inRound]

/-- the tick's part of the group protocol -/
def RtLoop.groupPart (r : RtLoop) : RtLoop :=
  { pc := r.pc, pub := r.pub, faulted := r.faulted
    referenceSeen := r.referenceSeen, referenceDone := r.referenceDone
    referenceResult := r.referenceResult
    groupStampPending := r.groupStampPending, groupTripped := r.groupTripped
    groupFaultMirrored := r.groupFaultMirrored, groupDone := r.groupDone
    groupStampNs := r.groupStampNs, groupTickId := r.groupTickId }

namespace Server

/-- the server with every field blanked that the group protocol does not depend on -/
def core (s : Server) : Server :=
  { s with
    sent := [], ctlPeerIp := 0, rt := s.rt.groupPart
    loc :=
      { session := s.loc.session, pending := s.loc.pending, commitWaiting := s.loc.commitWaiting
        grp := { s.loc.grp with deadlineNs := 0, lastCancelled := 0 } }
    pub := { s.pub with
      claimOk := false, referenceSession := 0, armStart := {}, disarmGen := 0
      referenceCancel := {}, modeIn := {}, modePublished := 0 }
    sh := { s.sh with heartbeatNs := 0, groupEvent := 0, latch := none, cmdIn := default } }

def goto (s : Server) (p : CtlPc) : Server := { s with pc := p }

/-- the slot value of a member that leaves -/
def leftSlot (s : Server) : GroupSlot :=
  { state := .cancelled, groupId := s.loc.grp.id, sessionId := s.loc.session
    armEpoch := s.loc.grp.epoch }

/-- the slot value of an accepted GROUP_COMMIT -/
def committedSlot (s : Server) : GroupSlot :=
  { state := .committed, groupId := s.loc.grp.id, sessionId := s.loc.session
    armEpoch := s.loc.grp.epoch, deadlineNs := s.loc.grp.myDeadline }

/-- the slot value of a session that has ended -/
def goneSlot (s : Server) : GroupSlot :=
  { state := .cancelled, groupId := s.pub.groupId, sessionId := s.pub.groupSession
    armEpoch := s.pub.groupEpoch }

/-- the group is left; `g` is the cancel generation and `w` says whether a commit still waits -/
def quit (s : Server) (g : ℕ) (w : Bool) (p : CtlPc) : Server :=
  { s with
    pub := { s.pub with
      groupCommitted := false, groupActive := false, referenceCancelGeneration := g }
    sh := { s.sh with slot := s.sh.slot.write s.leftSlot leaveStates, slotBusy := false }
    loc := { s.loc with
      commitWaiting := w
      grp := { s.loc.grp with joined := false, hold := false, isCommit := false } }
    pc := p }

/-- what holds of the two: a commit that waits no more was retired, unless it was never published
or the member had finished -/
structure QuitOk (s : Server) (g : ℕ) (w : Bool) : Prop where
  gen : g = s.pub.referenceCancelGeneration ∨ g = s.pub.referenceCancelGeneration + 1
  waits : w = true → s.loc.commitWaiting = true ∧ s.loc.grp.hold = false ∧ s.loc.grp.isCommit = false
  retired : s.loc.commitWaiting = true → s.loc.grp.hold = false → w = false →
    s.loc.pending.request.referenceId ≠ 0 →
      g = s.pub.referenceCancelGeneration + 1 ∨
        (s.loc.grp.isCommit = true ∧ s.sh.slot.state = .done)

/-- a CANCEL_REFERENCE that publishes a cancel generation -/
def cancels (s : Server) (f : ControlPacket) : Bool :=
  match f.body, s.loc.upload with
  | .cancelReference c, some u =>
    let u := u.observeEpoch (if s.pub.armed then low32 s.pub.armGen else 0)
    f.arg == 0 && c.valid false && s.names c.sessionId c.armEpoch && c != s.loc.lastCancel &&
      s.readSelection.cancelTarget u c
  | _, _ => false

/-- a MODE_SELECT that is accepted and publishes a cancel generation as its fence -/
def fences (cfg : ServerConfig) (s : Server) (f : ControlPacket) : Bool :=
  match f.body with
  | .modeSelect want =>
    !s.loc.modeOutstanding && s.modeCheck cfg f want == .ok &&
      !(want.generation == s.rt.modeGeneration && want.desiredMode == s.rt.modeEffective.code) &&
      want.generation == s.rt.modeGeneration + 1 && want.expectedPredecessor == s.rt.modeGeneration
  | _ => false

/-- a commit made now: the next ticket, the live session, epoch and cancel generation -/
structure Current (s : Server) (c : ReferenceCommit) : Prop where
  ticket : c.ticket = s.pub.referencePublished + 1
  session : c.request.sessionId = s.loc.session
  epoch : c.request.armEpoch = s.pub.armGen
  generation : c.cancelGeneration = s.pub.referenceCancelGeneration
  id : c.request.referenceId ≠ 0

/-- a JOIN that starts a membership -/
def joins (cfg : ServerConfig) (s : Server) (g : GroupMemberPayload) : Bool :=
  cfg.groupEnabled && s.names g.sessionId g.armEpoch && !s.sh.fault &&
    g.memberIndex == cfg.groupMember && g.memberCount == cfg.groupMembers && !s.loc.grp.joined

/-! ## the kinds of steps -/

inductive Move (cfg : ServerConfig) (ids : SessionIds) (s : Server) (env : CtlEnv) : Server → Prop
  /-- another host is turned away -/
  | refused (hpc : s.pc = .closed) : Move cfg ids s env s
  | opened (hpc : s.pc = .closed) : Move cfg ids s env
      { s with
        opened := s.opened + 1, pub := { s.pub with sessionId := ids.id s.opened }
        loc := { session := ids.id s.opened }, pc := .top }
  | pass (hpc : s.pc = .top)
      (hep : s.loc.grp.joined = true → s.pub.armed = true ∧ s.pub.armGen = s.loc.grp.epoch) :
      Move cfg ids s env (s.goto .modeAck)
  | hold (gnow : ℕ) (hpc : s.pc = .top) (hj : s.loc.grp.joined = true)
      (hep : s.pub.armed = true ∧ s.pub.armGen = s.loc.grp.epoch) (hh : s.loc.grp.hold = true) :
      Move cfg ids s env (s.goto (.poll 0 gnow true none))
  | quiet (p : CtlPc) (hpc : s.pc.inRound = true)
      (hp : p = .modeAck ∨ p = .commitAck ∨ p = .recv ∨ p = .top ∨ p = .ending) :
      Move cfg ids s env (s.goto p)
  /-- one peer of the hold was read -/
  | peer (m gnow : ℕ) (release release' : Bool) (bad bad' : Option PeerVerdict)
      (hpc : s.pc = .poll m gnow release bad) (hm : m < s.loc.grp.count)
      (hrel : release' = true → bad' = none → release = true ∧ bad = none ∧
        (m ≠ s.loc.grp.index → env.snap.ok = true ∧ env.snap.slot.groupId = s.loc.grp.id ∧
          env.snap.slot.state ∈ [GroupState.committed, .running, .done])) :
      Move cfg ids s env (s.goto (.poll (m + 1) gnow release' bad'))
  /-- the held commit is published -/
  | release (m gnow : ℕ) (hpc : s.pc = .poll m gnow true none) (hm : s.loc.grp.count ≤ m) :
      Move cfg ids s env
        { s with
          loc := { s.loc with grp := { s.loc.grp with hold := false } }
          pub := { s.pub with
            referenceIn := s.loc.pending, referencePublished := s.loc.pending.ticket }
          pc := .modeAck }
  | quit (g : ℕ) (w : Bool) (p : CtlPc) (hj : s.loc.grp.joined = true)
      (hpc : s.pc = .top ∨ s.pc.inRound = true)
      (hp : p = .modeAck ∨ p = .recv ∨ p = .top ∨ p = .ending) (hq : QuitOk s g w) :
      Move cfg ids s env (s.quit g w p)
  /-- RT's answer to the commit in flight was taken -/
  | answered (p : CtlPc) (hpc : s.pc = .commitAck) (hw : s.loc.commitWaiting = true)
      (hh : s.loc.grp.hold = false) (hd : s.rt.referenceDone = s.loc.pending.ticket)
      (hr : s.loc.grp.isCommit = true → s.rt.referenceResult = .ok) (hp : p = .recv ∨ p = .ending) :
      Move cfg ids s env
        { s with
          loc := { s.loc with
            commitWaiting := false, grp := { s.loc.grp with isCommit := false } }
          pc := p }
  | commit (c : ReferenceCommit) (hpc : s.pc = .recv) (hw : s.loc.commitWaiting = false)
      (hc : Current s c) :
      Move cfg ids s env
        { s with
          loc := { s.loc with pending := c, commitWaiting := true }
          pub := { s.pub with referenceIn := c, referencePublished := c.ticket }
          pc := .top }
  | cancel (f : ControlPacket) (p : CtlPc) (hpc : s.pc = .recv) (hf : env.frame = some f)
      (hc : s.cancels f = true ∨ s.fences cfg f = true) (hp : p = .top ∨ p = .ending) :
      Move cfg ids s env
        { s with
          pub := { s.pub with
            referenceCancelGeneration := s.pub.referenceCancelGeneration + 1 }
          pc := p }
  | join (f : ControlPacket) (g : GroupMemberPayload) (p : CtlPc) (hpc : s.pc = .recv)
      (hf : env.frame = some f) (hb : f.body = .groupJoin g) (hg : g.groupId ≠ 0)
      (hjoin : s.joins cfg g = true) (hp : p = .top ∨ p = .ending) :
      Move cfg ids s env
        { s with
          loc := { s.loc with grp :=
            { joined := true, id := g.groupId, epoch := s.pub.armGen, count := cfg.groupMembers
              index := cfg.groupMember } }
          pub := { s.pub with
            groupId := g.groupId, groupSession := s.loc.session, groupEpoch := s.pub.armGen
            groupActive := true }
          sh := { s.sh with
            slot := { state := .staged, groupId := g.groupId, sessionId := s.loc.session
                      armEpoch := s.pub.armGen }
            slotBusy := false }
          joinedIds := s.joinedIds ++ [g.groupId]
          pc := p }
  | holdCommit (c : ReferenceCommit) (deadline : ℕ) (hpc : s.pc = .recv)
      (hj : s.loc.grp.joined = true) (hw : s.loc.commitWaiting = false) (hc : Current s c)
      (hrev : c.request.revision = 1) :
      Move cfg ids s env
        { s with
          loc := { s.loc with
            pending := c, commitWaiting := true
            grp := { s.loc.grp with hold := true, isCommit := true, myDeadline := deadline } }
          groupPending := c
          pc := .commitWrite }
  | commitWrite (hpc : s.pc = .commitWrite) :
      Move cfg ids s env
        { s with
          pub := { s.pub with groupMyDeadline := s.loc.grp.myDeadline, groupCommitted := true }
          sh := { s.sh with slot := s.committedSlot, slotBusy := false }
          pc := .top }
  | arm (hpc : s.pc = .recv) (ha : s.pub.armed = false) :
      Move cfg ids s env
        { s with pub := { s.pub with armGen := s.pub.armGen + 1, armed := true }, pc := .top }
  | disarm (hpc : s.pc = .recv) :
      Move cfg ids s env { s with pub := { s.pub with armed := false }, pc := .top }
  | ending (hpc : s.pc = .ending) :
      Move cfg ids s env { s with pub := { s.pub with sessionId := 0 }, pc := .groupEnd }
  | noGroup (hpc : s.pc = .groupEnd) (hg : cfg.groupEnabled = false) :
      Move cfg ids s env (s.goto .closed)
  | neverJoined (hpc : s.pc = .groupEnd) (hg : cfg.groupEnabled = true) (hid : s.pub.groupId = 0) :
      Move cfg ids s env
        { s with
          pub := { s.pub with groupCommitted := false, groupActive := false, groupId := 0 }
          pc := .closed }
  | groupEnd (hpc : s.pc = .groupEnd) (hg : cfg.groupEnabled = true) (hid : s.pub.groupId ≠ 0) :
      Move cfg ids s env
        { s with
          pub := { s.pub with groupCommitted := false, groupActive := false, groupId := 0 }
          sh := { s.sh with slot := s.goneSlot, slotBusy := false }
          pc := .closed }

/-! ## what the helpers leave alone -/

/-- the group part of the thread's locals is consistent -/
structure Shape (s : Server) : Prop where
  hold : s.loc.grp.hold = true → s.loc.commitWaiting = true ∧ s.loc.grp.isCommit = true
  commit : s.loc.grp.isCommit = true → s.loc.grp.joined = true ∧ s.loc.commitWaiting = true
  poll : ∀ m gnow release bad, s.pc = .poll m gnow release bad → s.loc.grp.hold = true
  write : s.pc = .commitWrite → s.loc.grp.hold = true

/-- the handler only answered -/
def Answers (s s' : Server) : Prop :=
  ∃ p, (p = .top ∨ p = .ending) ∧ s'.core = (s.goto p).core

section
variable (s : Server)

theorem core_send (r : Reply) (ok : Bool) : (s.send r ok).core = s.core := by
  unfold send
  split_ifs <;> rfl

theorem core_groupReply (cfg : ServerConfig) (gid op : ℕ) (result : ReferenceResult)
    (verdict seq : ℕ) (env : CtlEnv) :
    (s.groupReply cfg gid op result verdict seq env).core = s.core := by
  unfold groupReply
  dsimp only
  rw [core_send]
  split_ifs <;> rfl

/-- the position is a part of the core -/
theorem core_pc {s s' : Server} (h : s.core = s'.core) (p : CtlPc) :
    (s.goto p).core = (s'.goto p).core :=
  congrArg (fun x : Server => { x with pc := p }) h

theorem core_goOn {s s' : Server} (h : s.core = s'.core) (next : CtlPc) (ok : Bool) :
    (s.goOn next ok).core = (s'.goto (if ok then next else .ending)).core :=
  core_pc h _

theorem goOn_top_cases (ok : Bool) : (if ok then CtlPc.top else .ending) = .top ∨
    (if ok then CtlPc.top else .ending) = .ending := by
  cases ok
  · exact .inr rfl
  · exact .inl rfl

theorem answers_pc {s s' : Server} (h : s'.core = s.core) : Answers s (s'.goto .top) :=
  ⟨.top, .inl rfl, core_pc h _⟩

theorem answers_goOn {s s' : Server} (h : s'.core = s.core) (ok : Bool) :
    Answers s (s'.goOn .top ok) :=
  ⟨_, goOn_top_cases ok, core_goOn h _ _⟩

theorem answers_answer {s s' : Server} (h : s'.core = s.core) (seq : ℕ)
    (reply : ReferenceReplyPayload) (result : ReferenceResult) (env : CtlEnv) :
    Answers s (s'.answer seq reply result env) :=
  answers_goOn ((core_send _ _ _).trans h) _

theorem answers_groupReply {s s' : Server} (h : s'.core = s.core) (cfg : ServerConfig)
    (gid op : ℕ) (result : ReferenceResult) (verdict seq : ℕ) (env : CtlEnv) :
    Answers s ((s'.groupReply cfg gid op result verdict seq env).goOn .top env.sendOk) :=
  answers_goOn ((core_groupReply _ _ _ _ _ _ _ _).trans h) _

theorem answers_status {s s' : Server} (h : s'.core = s.core) (text : String) (seq : ℕ)
    (env : CtlEnv) : Answers s (s'.status text seq env) :=
  answers_pc ((core_send _ _ _).trans h)

theorem answers_modeStatus (r : ModeSelectReplyPayload) (seq : ℕ) (env : CtlEnv) :
    Answers s (s.modeStatus r seq env) :=
  answers_pc (core_send _ _ _)

theorem core_setUpload (u : ReferenceUpload) : (s.setUpload u).core = s.core := rfl

/-- a waiting commit of the group is dropped -/
def waitsAfter (s : Server) : Bool := if s.loc.grp.isCommit then false else s.loc.commitWaiting

theorem waitsAfter_spec (hs : s.Shape) (h : s.waitsAfter = true) :
    s.loc.commitWaiting = true ∧ s.loc.grp.hold = false ∧ s.loc.grp.isCommit = false := by
  unfold waitsAfter at h
  cases hc : s.loc.grp.isCommit with
  | true => simp [hc] at h
  | false =>
    rw [hc] at h
    refine ⟨h, ?_, rfl⟩
    cases hh : s.loc.grp.hold with
    | false => rfl
    | true => rw [(hs.hold hh).2] at hc; cases hc

theorem core_groupLeave (hj : s.loc.grp.joined = true) (p : CtlPc) :
    (s.groupLeave.goto p).core =
      (s.quit s.pub.referenceCancelGeneration s.waitsAfter p).core := by
  simp only [groupLeave, hj]
  rfl

/-- retiring and leaving, whatever the reason -/
theorem quit_retired (hj : s.loc.grp.joined = true) (hs : s.Shape) (p : CtlPc) : ∃ g w,
    (s.groupRetire.groupLeave.goto p).core = (s.quit g w p).core ∧
      (g = s.pub.referenceCancelGeneration ∨ g = s.pub.referenceCancelGeneration + 1) ∧
      (w = true → s.loc.commitWaiting = true ∧ s.loc.grp.hold = false ∧
        s.loc.grp.isCommit = false) ∧
      (s.loc.commitWaiting = true → s.loc.grp.hold = false →
        s.loc.pending.request.referenceId ≠ 0 → g = s.pub.referenceCancelGeneration + 1) := by
  by_cases hh : s.loc.grp.hold = true
  · refine ⟨s.pub.referenceCancelGeneration, false, ?_, .inl rfl, (by simp), ?_⟩
    · have e : s.groupRetire = { s with loc := { s.loc with
          commitWaiting := false
          grp := { s.loc.grp with hold := false }
          upload := s.loc.upload.map fun u => (u.abort s.loc.pending.request.uploadId).2 } } := by
        simp only [groupRetire, hh, if_true]
      rw [e, core_groupLeave _ (by exact hj) p]
      simp only [waitsAfter, (hs.hold hh).2, if_true]
      rfl
    · intro _ h
      rw [hh] at h
      cases h
  by_cases hid : s.retireId s.loc.selection.referenceId = 0
  · refine ⟨s.pub.referenceCancelGeneration, s.waitsAfter, ?_, .inl rfl, waitsAfter_spec s hs, ?_⟩
    · have e : s.groupRetire = s := by simp [groupRetire, hh, hid]
      rw [e, core_groupLeave s hj p]
    · intro hw _ hne
      simp only [retireId, hw, if_true] at hid
      omega
  · refine ⟨s.pub.referenceCancelGeneration + 1, s.waitsAfter, ?_, .inr rfl,
      waitsAfter_spec s hs, fun _ _ _ => rfl⟩
    have e : s.groupRetire = (s.publishCancel (s.retireId s.loc.selection.referenceId)
        s.loc.grp.epoch s.loc.selection.revision).discardUpload := by
      simp only [groupRetire, hh, if_neg hid]
      rfl
    rw [e, core_groupLeave _ (by exact hj) p]
    rfl

/-- leaving without retiring, when nothing waits or the member has finished -/
theorem quit_left (hs : s.Shape)
    (h : s.loc.commitWaiting = false ∨ s.sh.slot.state = .done) :
    QuitOk s s.pub.referenceCancelGeneration s.waitsAfter := by
  refine ⟨.inl rfl, waitsAfter_spec s hs, fun hw _ hw' _ => .inr ?_⟩
  have hc : s.loc.grp.isCommit = true := by
    by_contra hc
    simp [waitsAfter, hc, hw] at hw'
  exact ⟨hc, h.resolve_left (by simp [hw])⟩

end

/-! ## the steps before a frame -/

/-- the step to `s'` is a move, as far as the core can tell -/
def Moves (cfg : ServerConfig) (ids : SessionIds) (s : Server) (env : CtlEnv) (s' : Server) : Prop :=
  ∃ t, s'.core = t.core ∧ Move cfg ids s env t

section
variable {cfg : ServerConfig} {ids : SessionIds} {s : Server} {env : CtlEnv}

theorem Answers.moves {s' : Server} (h : Answers s s') (hpc : s.pc = .recv) :
    Moves cfg ids s env s' := by
  obtain ⟨p, hp, he⟩ := h
  exact ⟨_, he, .quiet p (by rw [hpc]; rfl) (.inr (.inr (.inr hp)))⟩

theorem pc_cases {P : CtlPc → Prop} {next : CtlPc} (h : P next) (h' : P .ending) (ok : Bool) :
    P (if ok then next else .ending) := by
  cases ok
  · exact h'
  · exact h

theorem Shape.congr {s s' : Server} (h : s.Shape) (hc : s'.core = s.core) : s'.Shape := by
  have hs : s.core.Shape := ⟨h.1, h.2, h.3, h.4⟩
  rw [← hc] at hs
  exact ⟨hs.1, hs.2, hs.3, hs.4⟩

theorem QuitOk.congr {s s' : Server} {g : ℕ} {w : Bool} (h : QuitOk s g w)
    (hc : s'.core = s.core) : QuitOk s' g w := by
  have hs : QuitOk s.core g w := ⟨h.1, h.2, h.3⟩
  rw [← hc] at hs
  exact ⟨hs.1, hs.2, hs.3⟩

theorem quit_congr {s s' : Server} (hc : s'.core = s.core) (g : ℕ) (w : Bool) (p : CtlPc) :
    (s'.quit g w p).core = (s.quit g w p).core := by
  show (s'.core.quit g w p).core = (s.core.quit g w p).core
  rw [hc]

theorem joined_congr {s s' : Server} (hc : s'.core = s.core) :
    s'.loc.grp.joined = s.loc.grp.joined := by
  show s'.core.loc.grp.joined = s.core.loc.grp.joined
  rw [hc]

/-- a server with the core of `s` retires and leaves -/
theorem moves_quit {a s' : Server} {p : CtlPc} (hc : a.core = s.core) (hs : s.Shape)
    (hj : s.loc.grp.joined = true) (hpc : s.pc = .top ∨ s.pc.inRound = true)
    (hp : p = .modeAck ∨ p = .recv ∨ p = .top ∨ p = .ending)
    (h : s'.core = (a.groupRetire.groupLeave.goto p).core) : Moves cfg ids s env s' := by
  obtain ⟨g, w, he, hg, hw, hr⟩ :=
    quit_retired a ((joined_congr hc).trans hj) (hs.congr hc) p
  have hq : QuitOk a g w := ⟨hg, hw, fun a b _ c => .inl (hr a b c)⟩
  exact ⟨_, (h.trans he).trans (quit_congr hc g w p), .quit g w p hj hpc hp (hq.congr hc.symm)⟩

/-- a server with the core of `s` leaves -/
theorem moves_left {a s' : Server} {p : CtlPc} (hc : a.core = s.core) (hs : s.Shape)
    (hj : s.loc.grp.joined = true) (hpc : s.pc = .top ∨ s.pc.inRound = true)
    (hp : p = .modeAck ∨ p = .recv ∨ p = .top ∨ p = .ending)
    (hq : a.loc.commitWaiting = false ∨ a.sh.slot.state = .done)
    (h : s'.core = (a.groupLeave.goto p).core) : Moves cfg ids s env s' :=
  ⟨_, (h.trans (core_groupLeave a ((joined_congr hc).trans hj) p)).trans (quit_congr hc _ _ p),
    .quit _ _ p hj hpc hp ((quit_left a (hs.congr hc) hq).congr hc.symm)⟩

def unwait (s : Server) : Server := { s with loc := { s.loc with commitWaiting := false } }

/-- it also forgets the commit that waited -/
theorem moves_quit_unwait {a s' : Server} {p : CtlPc} (hc : a.core = s.core) (hs : s.Shape)
    (hj : s.loc.grp.joined = true) (hpc : s.pc = .top ∨ s.pc.inRound = true)
    (hp : p = .modeAck ∨ p = .recv ∨ p = .top ∨ p = .ending)
    (h : s'.core = (a.groupRetire.groupLeave.unwait.goto p).core) : Moves cfg ids s env s' := by
  obtain ⟨g, w, he, hg, -, hr⟩ :=
    quit_retired a ((joined_congr hc).trans hj) (hs.congr hc) p
  have hq : QuitOk a g false := ⟨hg, (by simp), fun a b _ c => .inl (hr a b c)⟩
  refine ⟨s.quit g false p, ?_, .quit g false p hj hpc hp (hq.congr hc.symm)⟩
  have hf : (a.groupRetire.groupLeave.unwait.goto p).core = (a.quit g w p).unwait.core := by
    show (a.groupRetire.groupLeave.goto p).core.unwait = (a.quit g w p).core.unwait
    rw [he]
  exact (h.trans hf).trans (quit_congr hc g false p)

theorem isCommit_cleared {g : GroupCtl} (h : g.isCommit = false) :
    { g with isCommit := false } = g := by
  cases g
  simp_all

/-- after the group was left nothing of a group COMMIT is left to clear -/
theorem core_cleared (hs : s.Shape) (hj : s.loc.grp.joined = true) {x : Server}
    (hx : s.groupRetire.groupLeave = x) :
    { x with loc := { x.loc with
        commitWaiting := false, haveCommitReply := false
        grp := { x.loc.grp with isCommit := false } } }.core = x.unwait.core := by
  obtain ⟨g, w, he, -⟩ := quit_retired s hj hs .top
  have h : x.loc.grp.isCommit = false := by
    rw [← hx]
    show (s.groupRetire.groupLeave.goto .top).core.loc.grp.isCommit = false
    rw [he]
    rfl
  rw [isCommit_cleared h]
  rfl

theorem sendTo_quit (next : CtlPc) (h : next = .modeAck ∨ next = .recv ∨ next = .top) (ok : Bool) :
    (if ok then next else CtlPc.ending) = .modeAck ∨ (if ok then next else CtlPc.ending) = .recv ∨
      (if ok then next else CtlPc.ending) = .top ∨ (if ok then next else CtlPc.ending) = .ending := by
  cases ok
  · exact .inr (.inr (.inr rfl))
  · exact or_assoc.mp (or_assoc.mp (.inl (or_assoc.mpr h)))

theorem top_moves (hs : s.Shape) (hpc : s.pc = .top) : Moves cfg ids s env (s.top cfg env) := by
  unfold top
  have hc : s.readSelection.core = s.core := rfl
  by_cases hj : s.loc.grp.joined = true
  swap
  · rw [if_pos (by simpa [readSelection] using hj)]
    exact ⟨s.goto .modeAck, rfl, .pass hpc fun h => absurd h hj⟩
  rw [if_neg (by simpa [readSelection] using hj)]
  by_cases hep : s.pub.armed = false ∨ s.pub.armGen ≠ s.loc.grp.epoch
  · rw [if_pos (by exact hep)]
    dsimp only
    split_ifs
    · exact moves_quit hc hs hj (.inl hpc) (sendTo_quit _ (.inl rfl) env.sendOk)
        (core_goOn (core_groupReply _ _ _ _ _ _ _ _) _ _)
    · exact moves_quit hc hs hj (.inl hpc) (.inl rfl) rfl
  rw [if_neg (by exact hep)]
  have hlive : s.pub.armed = true ∧ s.pub.armGen = s.loc.grp.epoch := by
    simpa using hep
  by_cases hev : s.sh.groupEvent ≠ 0
  · rw [if_pos (by exact hev)]
    dsimp only
    refine moves_quit_unwait (a := { s.readSelection with sh := { s.sh with groupEvent := 0 } })
      rfl hs hj (.inl hpc) (sendTo_quit _ (.inl rfl) env.sendOk) ?_
    exact core_goOn (core_groupReply _ _ _ _ _ _ _ _) _ _
  rw [if_neg (by exact hev)]
  by_cases hh : s.loc.grp.hold = true
  · rw [if_pos (by exact hh)]
    exact ⟨s.goto (.poll 0 env.now true none), rfl, .hold env.now hpc hj hlive hh⟩
  · rw [if_neg (by exact hh)]
    exact ⟨s.goto .modeAck, rfl, .pass hpc fun _ => hlive⟩

/-- a peer that is not bad and at least COMMITTED is COMMITTED, RUNNING or DONE -/
theorem committed_code {st : GroupState} (h1 : st ≠ .faulted) (h2 : st ≠ .cancelled)
    (h : GroupState.committed.code ≤ st.code) : st ∈ [GroupState.committed, .running, .done] := by
  cases st <;> simp_all [GroupState.code]

theorem holdDecide_moves (hs : s.Shape) {m gnow : ℕ} {release : Bool} {bad : Option PeerVerdict}
    (hpc : s.pc = .poll m gnow release bad) (hm : s.loc.grp.count ≤ m) :
    Moves cfg ids s env (s.holdDecide cfg gnow release bad env) := by
  have hj : s.loc.grp.joined = true := (hs.commit (hs.hold (hs.poll _ _ _ _ hpc)).2).1
  have hround : s.pc.inRound = true := by rw [hpc]; rfl
  unfold holdDecide
  dsimp only
  generalize groupDeadline env.peers cfg.groupMembers s.loc.grp.index s.loc.grp.id
    s.loc.grp.myDeadline = d
  by_cases h1 : bad.isSome = true ∨ (release = false ∧ d ≤ gnow)
  · rw [if_pos h1]
    exact moves_quit (a := { s with loc := { s.loc with grp := { s.loc.grp with deadlineNs := d } } })
      rfl hs hj (.inr hround) (sendTo_quit _ (.inl rfl) env.sendOk)
      (core_goOn (core_groupReply _ _ _ _ _ _ _ _) _ _)
  rw [if_neg h1]
  by_cases h2 : release = true
  · have hb : bad = none := by
      cases bad with
      | none => rfl
      | some v => exact absurd (.inl rfl) h1
    rw [if_pos h2]
    refine ⟨_, ?_, .release m gnow (by rw [hpc, h2, hb]) hm⟩
    rfl
  · rw [if_neg h2]
    exact ⟨s.goto .modeAck, rfl, .quiet _ hround (.inl rfl)⟩

theorem poll_moves (hs : s.Shape) {m gnow : ℕ} {release : Bool} {bad : Option PeerVerdict}
    (hpc : s.pc = .poll m gnow release bad) :
    Moves cfg ids s env (s.poll cfg m gnow release bad env) := by
  unfold poll
  split_ifs with hm hi
  · exact holdDecide_moves hs hpc hm
  · exact ⟨_, rfl, .peer m gnow release release bad bad hpc (not_le.mp hm)
      fun h1 h2 => ⟨h1, h2, fun h => absurd hi h⟩⟩
  dsimp only
  split_ifs with hv
  · exact ⟨_, rfl, .peer m gnow release release bad _ hpc (not_le.mp hm) fun _ h => by cases h⟩
  · refine ⟨_, rfl, .peer m gnow release _ bad bad hpc (not_le.mp hm) fun h1 h2 => ?_⟩
    rw [Bool.and_eq_true, decide_eq_true_eq] at h1
    obtain ⟨hok, hid, hf, hcan⟩ := peerVerdict_ok (not_not.mp hv)
    exact ⟨h1.1, h2, fun _ => ⟨hok, hid, committed_code hf hcan h1.2⟩⟩

theorem modeAck_moves (hpc : s.pc = .modeAck) : Moves cfg ids s env (s.modeAck env) := by
  have hround : s.pc.inRound = true := by rw [hpc]; rfl
  have go : ∀ p s', (p = .commitAck ∨ p = .ending) → s'.core = (s.goto p).core →
      Moves cfg ids s env s' := fun p s' hp he =>
    ⟨_, he, .quiet p hround (hp.elim (fun h => .inr (.inl h)) fun h => .inr (.inr (.inr (.inr h))))⟩
  unfold modeAck
  dsimp only
  split_ifs
  · exact go .commitAck _ (.inl rfl) rfl
  · exact go .ending _ (.inr rfl) rfl
  · exact go .commitAck _ (.inl rfl) rfl
  · exact go .commitAck _ (.inl rfl)
      (core_pc (core_send s (.mode s.rt.modeFeedback s.loc.modeFrame.seq) env.sendOk) .commitAck)
  · exact go .ending _ (.inr rfl) rfl
  · exact go .commitAck _ (.inl rfl) rfl
  · exact go .commitAck _ (.inl rfl) rfl

theorem commitAck_moves (hs : s.Shape) (hpc : s.pc = .commitAck) :
    Moves cfg ids s env (s.commitAck cfg env) := by
  have hround : s.pc.inRound = true := by rw [hpc]; rfl
  unfold commitAck
  by_cases h : s.loc.commitWaiting = false ∨ s.loc.grp.hold = true ∨
      s.rt.referenceDone ≠ s.loc.pending.ticket
  · rw [if_pos h]
    exact ⟨s.goto .recv, rfl, .quiet _ hround (.inr (.inr (.inl rfl)))⟩
  rw [if_neg h]
  rw [not_or, not_or, Bool.not_eq_false, Bool.not_eq_true, not_not] at h
  obtain ⟨hw, hh, hd⟩ := h
  dsimp only
  by_cases hc : s.loc.grp.isCommit = true
  · rw [if_pos hc]
    by_cases hr : s.rt.referenceResult = .ok
    · simp only [if_pos hr]
      refine ⟨_, ?_, .answered _ hpc hw hh hd (fun _ => hr) (pc_cases (P := fun p => p = .recv ∨ p = .ending)
        (.inl rfl) (.inr rfl) env.sendOk)⟩
      exact core_goOn (core_groupReply _ _ _ _ _ _ _ _) _ _
    · simp only [if_neg hr]
      refine moves_quit_unwait
        (a := { s with loc := { s.loc with
          commitReply := { s.loc.commitReply with result := s.rt.referenceResult } } })
        rfl hs (hs.commit hc).1 (.inr hround) (sendTo_quit _ (.inr (.inl rfl)) env.sendOk) ?_
      exact (core_goOn (core_groupReply _ _ _ _ _ _ _ _) _ _).trans
        (core_pc (core_cleared (s := { s with loc := { s.loc with
          commitReply := { s.loc.commitReply with result := s.rt.referenceResult } } })
          (hs.congr rfl) (hs.commit hc).1 rfl) _)
  · rw [if_neg hc]
    have he : { s.loc.grp with isCommit := false } = s.loc.grp :=
      isCommit_cleared (by simpa using hc)
    split_ifs
    · exact ⟨s.goto .ending, rfl, .quiet _ hround (.inr (.inr (.inr (.inr rfl))))⟩
    all_goals
      refine ⟨_, ?_, .answered .recv hpc hw hh hd (fun h => absurd h hc) (.inl rfl)⟩
      rw [he]
      rfl

/-! ## frames -/

theorem Answers.congr {s s₂ s' : Server} (h : Answers s₂ s') (hc : s₂.core = s.core) :
    Answers s s' := by
  obtain ⟨p, hp, he⟩ := h
  exact ⟨p, hp, he.trans (core_pc hc p)⟩

theorem onArm_moves (hpc : s.pc = .recv) : Moves cfg ids s env (s.onArm cfg env) := by
  unfold onArm
  split_ifs with h1 h2
  · exact (answers_status rfl _ _ _).moves hpc
  · exact (answers_status rfl _ _ _).moves hpc
  split
  · exact (answers_status rfl _ _ _).moves hpc
  · exact (answers_status rfl _ _ _).moves hpc
  rename_i hl
  have ha : s.pub.armed = false := by
    rw [not_and, Shared.fault, hl] at h2
    simpa using h2
  refine ⟨_, ?_, .arm hpc ha⟩
  exact core_pc (core_send _ _ _) _

theorem onReferenceMode_moves (hpc : s.pc = .recv) (f : ControlPacket) (want : ReferenceModePayload) :
    Moves cfg ids s env (s.onReferenceMode cfg f want env) := by
  unfold onReferenceMode
  dsimp only
  split_ifs <;>
  · refine (answers_status (s := s) ?_ _ _ _).moves hpc
    rfl

theorem onModeSelect_moves (hpc : s.pc = .recv) {f : ControlPacket} (hf : env.frame = some f)
    {want : ModeSelectPayload} (hb : f.body = .modeSelect want) :
    Moves cfg ids s env (s.onModeSelect cfg f want env) := by
  unfold onModeSelect
  dsimp only
  by_cases h1 : s.loc.modeOutstanding = true
  · rw [if_pos h1]
    split_ifs <;> exact (answers_modeStatus s _ _ _).moves hpc
  rw [if_neg h1]
  by_cases h2 : s.modeCheck cfg f want ≠ .ok
  · rw [if_pos h2]
    exact (answers_modeStatus s _ _ _).moves hpc
  rw [if_neg h2]
  by_cases h3 : want.generation = s.rt.modeGeneration ∧ want.desiredMode = s.rt.modeEffective.code
  · rw [if_pos h3]
    exact (answers_modeStatus s _ _ _).moves hpc
  rw [if_neg h3]
  by_cases h4 : want.generation ≠ s.rt.modeGeneration + 1 ∨
      want.expectedPredecessor ≠ s.rt.modeGeneration
  · rw [if_pos h4]
    exact (answers_modeStatus s _ _ _).moves hpc
  rw [if_neg h4]
  have hc : s.fences cfg f = true := by
    rw [not_or, not_not, not_not] at h4
    simp [fences, hb, h1, not_not.mp h2, h4]
  refine ⟨_, ?_, .cancel f .top hpc hf (.inr hc) (.inl rfl)⟩
  rfl

/-- the server as a v7 frame finds it: selection read, the upload's epoch observed -/
def reading (s : Server) (u : ReferenceUpload) : Server := s.readSelection.setUpload u

theorem core_reading (s : Server) (u : ReferenceUpload) : (s.reading u).core = s.core := rfl

theorem names_spec {session armEpoch : ℕ} (h : s.names session armEpoch ≠ false) :
    session = s.loc.session ∧ armEpoch = s.pub.armGen ∧ s.pub.armed = true := by
  simpa [names, and_assoc] using h

theorem onCommit_moves (hpc : s.pc = .recv) (u₂ u : ReferenceUpload) (f : ControlPacket)
    {c : ReferenceCommitPayload} (hv : c.valid = true) :
    Moves cfg ids s env ((s.reading u₂).onCommit u f c env) := by
  have ans : ∀ reply result, Moves cfg ids s env ((s.reading u₂).answer f.seq reply result env) :=
    fun reply result => (answers_answer (core_reading s u₂) _ _ _ _).moves hpc
  unfold onCommit
  dsimp only
  by_cases h1 : (s.reading u₂).names c.sessionId c.armEpoch = false
  · rw [if_pos h1]
    exact ans _ _
  rw [if_neg h1]
  by_cases h2 : (s.reading u₂).loc.modeOutstanding = true
  · rw [if_pos h2]
    exact ans _ _
  rw [if_neg h2]
  by_cases h3 : (s.reading u₂).loc.commitWaiting = true
  · rw [if_pos h3]
    split_ifs
    · exact ⟨s.goto .top, rfl, .quiet _ (by rw [hpc]; rfl) (.inr (.inr (.inr (.inl rfl))))⟩
    · exact ans _ _
  rw [if_neg h3]
  by_cases h4 : (s.reading u₂).loc.haveCommitReply = true ∧ (s.reading u₂).loc.commitFrame.body = f.body
  · rw [if_pos h4]
    exact ans _ _
  rw [if_neg h4]
  split
  · exact ans _ _
  rename_i a _
  split_ifs
  · exact ans _ _
  obtain ⟨hs, he, -⟩ := names_spec h1
  refine ⟨_, ?_, .commit
    { admitted := a, request := c, ticket := s.pub.referencePublished + 1
      cancelGeneration := s.pub.referenceCancelGeneration }
    hpc (Bool.eq_false_of_not_eq_true h3) ⟨rfl, hs, he, rfl, ?_⟩⟩
  · rfl
  · simp only [ReferenceCommitPayload.valid, Bool.and_eq_true, bne_iff_ne] at hv
    tauto

theorem onCancel_moves (hpc : s.pc = .recv) {f : ControlPacket} (hf : env.frame = some f)
    {c : ReferenceRetirePayload} (hb : f.body = .cancelReference c) {u : ReferenceUpload}
    (hu : s.loc.upload = some u) (ha : f.arg = 0) (hv : c.valid false = true) {u₂ : ReferenceUpload}
    (hu₂ : u₂ = u.observeEpoch (if s.pub.armed then low32 s.pub.armGen else 0)) :
    Moves cfg ids s env ((s.reading u₂).onCancel u₂ f.seq c env) := by
  have ans : ∀ reply result, Moves cfg ids s env ((s.reading u₂).answer f.seq reply result env) :=
    fun reply result => (answers_answer (core_reading s u₂) _ _ _ _).moves hpc
  unfold onCancel
  dsimp only
  by_cases h1 : (s.reading u₂).names c.sessionId c.armEpoch = false
  · rw [if_pos h1]
    exact ans _ _
  rw [if_neg h1]
  by_cases h2 : c = (s.reading u₂).loc.lastCancel
  · rw [if_pos h2]
    exact ans _ _
  rw [if_neg h2]
  by_cases h3 : (s.reading u₂).cancelTarget u₂ c = false
  · rw [if_pos h3]
    exact ans _ _
  rw [if_neg h3]
  have hc : s.cancels f = true := by
    have h1' : s.names c.sessionId c.armEpoch = true := Bool.eq_true_of_not_eq_false h1
    have h2' : c ≠ s.loc.lastCancel := h2
    have h3' : s.readSelection.cancelTarget u₂ c = true :=
      Bool.eq_true_of_not_eq_false h3
    simp only [cancels, hb, hu, ← hu₂, ha, hv, h1', h3', Bool.and_eq_true]
    simpa using h2'
  refine ⟨_, ?_, .cancel f (if env.sendOk then .top else .ending) hpc hf (.inl hc)
    (goOn_top_cases env.sendOk)⟩
  exact core_goOn (core_send _ _ _) _ _

theorem onGroupJoin_moves (hpc : s.pc = .recv) {f : ControlPacket} (hf : env.frame = some f)
    {g : GroupMemberPayload} (hb : f.body = .groupJoin g) (hv : g.valid = true)
    (hen : cfg.groupEnabled = true) (u₂ : ReferenceUpload) :
    Moves cfg ids s env ((s.reading u₂).onGroupJoin cfg f.seq g env) := by
  unfold onGroupJoin
  dsimp only
  generalize hr : (if (s.reading u₂).names g.sessionId g.armEpoch = false then
      ReferenceResult.identity
    else if (s.reading u₂).sh.fault then .groupRefused
    else if g.memberIndex ≠ cfg.groupMember ∨ g.memberCount ≠ cfg.groupMembers then .groupRefused
    else if (s.reading u₂).loc.grp.joined = true ∧ (s.reading u₂).loc.grp.id ≠ g.groupId then
      .groupRefused
    else .ok) = res
  by_cases h : res = .ok ∧ (s.reading u₂).loc.grp.joined = false
  swap
  · rw [if_neg h]
    exact (answers_groupReply (core_reading s u₂) _ _ _ _ _ _ _).moves hpc
  rw [if_pos h]
  rw [h.1] at hr
  split_ifs at hr with h1 h2 h3
  obtain ⟨hsess, hep, -⟩ := names_spec (s := s) h1
  rw [not_or, not_not, not_not] at h3
  have hjoin : s.joins cfg g = true := by
    have h1' : s.names g.sessionId g.armEpoch = true := Bool.eq_true_of_not_eq_false h1
    have h2' : s.sh.fault = false := Bool.eq_false_of_not_eq_true h2
    have h4' : s.loc.grp.joined = false := h.2
    simp [joins, hen, h1', h2', h3, h4']
  refine ⟨_, ?_, .join f g (if env.sendOk then .top else .ending) hpc hf hb ?_ hjoin
    (goOn_top_cases env.sendOk)⟩
  · refine (core_goOn (core_groupReply _ _ _ _ _ _ _ _) _ _).trans ?_
    rw [← h3.1, ← h3.2, ← hep]
    rfl
  · simp only [GroupMemberPayload.valid, Bool.and_eq_true, bne_iff_ne] at hv
    tauto

theorem onGroupCancel_moves (hs : s.Shape) (hpc : s.pc = .recv) (seq : ℕ) (g : GroupMemberPayload)
    (u₂ : ReferenceUpload) :
    Moves cfg ids s env ((s.reading u₂).onGroupCancel cfg seq g env) := by
  have hround : s.pc.inRound = true := by rw [hpc]; rfl
  unfold onGroupCancel
  dsimp only
  by_cases h1 : (s.reading u₂).names g.sessionId g.armEpoch = false
  · rw [if_pos h1]
    exact (answers_groupReply (core_reading s u₂) _ _ _ _ _ _ _).moves hpc
  rw [if_neg h1]
  by_cases h2 : (s.reading u₂).loc.grp.joined = true ∧ (s.reading u₂).loc.grp.id = g.groupId
  swap
  · rw [if_neg h2]
    exact (answers_groupReply (core_reading s u₂) _ _ _ _ _ _ _).moves hpc
  rw [if_pos h2]
  have hj : s.loc.grp.joined = true := h2.1
  have hreply : ∀ x : Server, (((if (s.reading u₂).loc.grp.hold then
      x.groupReply cfg g.groupId groupCommitOp .groupPeer 0 (s.reading u₂).loc.commitFrame.seq env
      else x).groupReply cfg g.groupId 41 .ok 0 seq env).goOn .top env.sendOk).core =
        (x.goto (if env.sendOk then .top else .ending)).core := by
    intro x
    refine core_goOn ((core_groupReply _ _ _ _ _ _ _ _).trans ?_) _ _
    split_ifs
    · exact core_groupReply _ _ _ _ _ _ _ _
    · rfl
  by_cases hfin : (env.ownOk && (s.reading u₂).sh.slot.groupId == (s.reading u₂).loc.grp.id &&
      (s.reading u₂).sh.slot.state == .done) = true
  · rw [if_pos hfin]
    simp only [Bool.and_eq_true, beq_iff_eq] at hfin
    exact moves_left (core_reading s u₂) hs hj (.inr hround)
      (sendTo_quit _ (.inr (.inr rfl)) env.sendOk) (.inr hfin.2) (hreply _)
  · rw [if_neg hfin]
    exact moves_quit (core_reading s u₂) hs hj (.inr hround)
      (sendTo_quit _ (.inr (.inr rfl)) env.sendOk) (hreply _)

theorem groupCommitCheck_ok {u : ReferenceUpload} {g : GroupCommitPayload} {v d : ℕ}
    {res : ReferenceResult} (h : s.groupCommitCheck cfg u g env = (res, v, d)) :
    (res = .ok ∨ res = .late → s.names g.sessionId g.armEpoch ≠ false ∧ s.loc.grp.joined = true ∧
      s.loc.grp.id = g.groupId ∧ s.loc.commitWaiting = false) := by
  intro hres
  unfold groupCommitCheck at h
  dsimp only at h
  by_cases h1 : s.names g.sessionId g.armEpoch = false
  · rw [if_pos h1] at h
    simp only [Prod.mk.injEq] at h
    simp [← h.1] at hres
  rw [if_neg h1] at h
  by_cases h2 : s.loc.grp.joined = false ∨ s.loc.grp.id ≠ g.groupId ∨ g.memberIndex ≠ s.loc.grp.index
  · rw [if_pos h2] at h
    simp only [Prod.mk.injEq] at h
    simp [← h.1] at hres
  rw [if_neg h2] at h
  rw [not_or, not_or, Bool.not_eq_false, not_not, not_not] at h2
  by_cases h3 : s.sh.fault = true
  · rw [if_pos h3] at h
    simp only [Prod.mk.injEq] at h
    simp [← h.1] at hres
  rw [if_neg h3] at h
  by_cases h4 : s.loc.modeOutstanding = true ∨ s.loc.commitWaiting = true
  · rw [if_pos h4] at h
    simp only [Prod.mk.injEq] at h
    simp [← h.1] at hres
  rw [not_or, Bool.not_eq_true, Bool.not_eq_true] at h4
  exact ⟨h1, h2.1, h2.2.1, h4.2⟩

/-- a GROUP_COMMIT that is no retry is remembered before its checks -/
def asking (s : Server) (u : ReferenceUpload) (f : ControlPacket) : Server :=
  { s.reading u with
    loc := { (s.reading u).loc with gcommitReq := f, haveGcommitStatus := false } }

theorem onGroupCommit_moves (hs : s.Shape) (hpc : s.pc = .recv) (u₂ u : ReferenceUpload)
    (f : ControlPacket) {g : GroupCommitPayload} (hv : g.valid = true) :
    Moves cfg ids s env ((s.reading u₂).onGroupCommit cfg u f g env) := by
  have hround : s.pc.inRound = true := by rw [hpc]; rfl
  unfold onGroupCommit
  dsimp only
  by_cases h1 : ((s.reading u₂).loc.gcommitReq.body == f.body && (s.reading u₂).loc.commitWaiting &&
      (s.reading u₂).loc.grp.isCommit) = true
  · rw [if_pos h1]
    exact ⟨s.goto .top, rfl, .quiet _ hround (.inr (.inr (.inr (.inl rfl))))⟩
  rw [if_neg h1]
  by_cases h2 : ((s.reading u₂).loc.gcommitReq.body == f.body && !(s.reading u₂).loc.commitWaiting &&
      (s.reading u₂).loc.haveGcommitStatus) = true
  · rw [if_pos h2]
    exact (answers_goOn ((core_send (s.reading u₂) _ _).trans (core_reading s u₂)) _).moves hpc
  rw [if_neg h2]
  have hc : (s.asking u₂ f).core = s.core := rfl
  let checked := (s.asking u₂ f).groupCommitCheck cfg u g env
  show Moves cfg ids s env
    (if checked.1 = .ok then (s.asking u₂ f).holdCommit u f g checked.2.2 env.now
    else ((if (s.asking u₂ f).loc.grp.joined = true ∧ (s.asking u₂ f).loc.grp.id = g.groupId ∧
        checked.1 = .late then (s.asking u₂ f).groupLeave else s.asking u₂ f).groupReply cfg g.groupId
          groupCommitOp checked.1 checked.2.1 f.seq env).goOn .top env.sendOk)
  unfold checked
  rcases hchk : (s.asking u₂ f).groupCommitCheck cfg u g env with ⟨res, v, d⟩
  dsimp only
  have hok := groupCommitCheck_ok hchk
  by_cases h3 : res = .ok
  · rw [if_pos h3]
    obtain ⟨hn, hj, -, hw⟩ := hok (.inl h3)
    obtain ⟨hsess, hep, -⟩ := names_spec (s := s) hn
    refine ⟨_, ?_, .holdCommit
      { admitted := u.candidate
        request :=
          { sessionId := g.sessionId, uploadId := g.uploadId, referenceId := g.referenceId
            armEpoch := g.armEpoch, revision := 1 }
        ticket := s.pub.referencePublished + 1
        cancelGeneration := s.pub.referenceCancelGeneration }
      (env.now + g.budgetNs) hpc hj hw ⟨rfl, hsess, hep, rfl, ?_⟩ rfl⟩
    · rfl
    · simp only [GroupCommitPayload.valid, Bool.and_eq_true, bne_iff_ne] at hv
      tauto
  rw [if_neg h3]
  by_cases h4 : (s.asking u₂ f).loc.grp.joined = true ∧ (s.asking u₂ f).loc.grp.id = g.groupId ∧
      res = .late
  · rw [if_pos h4]
    exact moves_left hc hs h4.1 (.inr hround) (sendTo_quit _ (.inr (.inr rfl)) env.sendOk)
      (.inl (hok (.inr h4.2.2)).2.2.2) (core_goOn (core_groupReply _ _ _ _ _ _ _ _) _ _)
  · rw [if_neg h4]
    exact (answers_groupReply hc _ _ _ _ _ _ _).moves hpc

theorem onBegin_moves (hpc : s.pc = .recv) (u₂ u : ReferenceUpload) (seq : ℕ)
    (b : ReferenceBeginPayload) : Moves cfg ids s env ((s.reading u₂).onBegin u seq b env) := by
  unfold onBegin
  dsimp only
  split_ifs
  · exact (answers_answer (core_reading s u₂) _ _ _ _).moves hpc
  · exact (answers_answer (core_reading s _) _ _ _ _).moves hpc
  · exact (answers_answer (core_reading s _) _ _ _ _).moves hpc

theorem referenceFrame_moves (hs : s.Shape) (hpc : s.pc = .recv) {f : ControlPacket}
    (hf : env.frame = some f) {u : ReferenceUpload} (hu : s.loc.upload = some u) (ha : f.arg = 0)
    (hv : f.body.valid = true) {u₂ : ReferenceUpload}
    (hu₂ : u₂ = u.observeEpoch (if s.pub.armed then low32 s.pub.armGen else 0)) :
    Moves cfg ids s env ((s.reading u₂).referenceFrame cfg u₂ f env) := by
  have ans : ∀ u' reply result, Moves cfg ids s env
      (((s.reading u₂).setUpload u').answer f.seq reply result env) :=
    fun u' reply result => (answers_answer (core_reading s u') _ _ _ _).moves hpc
  have ans₂ : ∀ reply result, Moves cfg ids s env ((s.reading u₂).answer f.seq reply result env) :=
    fun reply result => (answers_answer (core_reading s u₂) _ _ _ _).moves hpc
  unfold referenceFrame
  cases hb : f.body with
  | referenceBegin b => exact onBegin_moves hpc _ _ _ _
  | referenceChunk c => exact ans _ _ _
  | referenceSeal c => exact ans _ _ _
  | referenceAbort a =>
    dsimp only
    split_ifs
    · exact ans₂ _ _
    · exact ans₂ _ _
    · exact ans _ _ _
  | referenceCommit c =>
    rw [hb] at hv
    exact onCommit_moves hpc _ _ _ hv
  | cancelReference c =>
    rw [hb] at hv
    exact onCancel_moves hpc hf hb hu ha hv hu₂
  | groupJoin g =>
    rw [hb] at hv
    dsimp only
    split_ifs with hen
    · exact onGroupJoin_moves hpc hf hb hv hen _
    · exact ans₂ _ _
  | groupCancel g =>
    dsimp only
    split_ifs
    · exact onGroupCancel_moves hs hpc _ _ _
    · exact ans₂ _ _
  | groupCommit g =>
    rw [hb] at hv
    dsimp only
    split_ifs
    · exact onGroupCommit_moves hs hpc _ _ _ hv
    · exact ans₂ _ _
  | referenceStatus wellFormed => exact ans₂ _ _
  | groupStatus wellFormed => exact ans₂ _ _
  | _ => exact (answers_pc (core_reading s u₂)).moves hpc

/-- a frame of the reference protocol is for the upload of the serving thread -/
def onReference (s : Server) (cfg : ServerConfig) (f : ControlPacket) (env : CtlEnv) : Server :=
  match s.readSelection.loc.upload with
  | none => { s.readSelection with pc := .top }
  | some u =>
    if f.arg ≠ 0 ∨ f.body.valid = false then { s.readSelection with pc := .top }
    else
      (s.reading (u.observeEpoch (if s.pub.armed then low32 s.pub.armGen else 0))).referenceFrame
        cfg (u.observeEpoch (if s.pub.armed then low32 s.pub.armGen else 0)) f env

theorem frame_moves (hs : s.Shape) (hpc : s.pc = .recv) {f : ControlPacket}
    (hf : env.frame = some f) : Moves cfg ids s env (s.frame cfg f env) := by
  have hv7 : Moves cfg ids s env (s.onReference cfg f env) := by
    have hread : s.readSelection.core = s.core := rfl
    have hquiet : Moves cfg ids s env (s.readSelection.goto .top) := (answers_pc hread).moves hpc
    unfold onReference
    split
    · exact hquiet
    rename_i u hu
    by_cases hbad : f.arg ≠ 0 ∨ f.body.valid = false
    · rw [if_pos hbad]
      exact hquiet
    rw [if_neg hbad]
    rw [not_or, not_not, Bool.not_eq_false] at hbad
    exact referenceFrame_moves hs hpc hf hu hbad.1 hbad.2 rfl
  unfold frame
  cases hb : f.body with
  | arm => exact onArm_moves hpc
  | disarm =>
    refine ⟨_, ?_, .disarm hpc⟩
    exact core_pc (core_send _ _ _) _
  | ping => exact (answers_pc (core_send s _ _)).moves hpc
  | status => exact (answers_status rfl _ _ _).moves hpc
  | setActive => exact (answers_pc (s := s) rfl).moves hpc
  | unknown => exact (answers_pc (s := s) rfl).moves hpc
  | claim want =>
    dsimp only
    unfold onClaim
    split
    · exact (answers_status rfl _ _ _).moves hpc
    · refine (answers_status (s := s) ?_ _ _ _).moves hpc
      rfl
  | referenceMode want => exact onReferenceMode_moves hpc f want
  | modeSelect want => exact onModeSelect_moves hpc hf hb
  | _ =>
    unfold onReference at hv7
    rw [hb] at hv7
    exact hv7

end

/-! ## the thread -/

/-- **Every step of the control thread is one of the moves.** -/
theorem controlStep_move (cfg : ServerConfig) (ids : SessionIds) (s : Server) (env : CtlEnv)
    (hs : s.Shape) : Moves cfg ids s env (s.controlStep cfg ids env) := by
  unfold controlStep
  split
  · rename_i hpc
    unfold accept
    split_ifs
    · exact ⟨s, rfl, .refused hpc⟩
    · refine ⟨_, ?_, .opened hpc⟩
      rfl
  · rename_i hpc
    exact top_moves hs hpc
  · rename_i hpc
    exact poll_moves hs hpc
  · rename_i hpc
    exact modeAck_moves hpc
  · rename_i hpc
    exact commitAck_moves hs hpc
  · rename_i hpc
    split_ifs
    · exact ⟨s.goto .ending, rfl, .quiet _ (by rw [hpc]; rfl) (.inr (.inr (.inr (.inr rfl))))⟩
    split
    · exact ⟨s.goto .top, rfl, .quiet _ (by rw [hpc]; rfl) (.inr (.inr (.inr (.inl rfl))))⟩
    · rename_i f hf
      exact frame_moves hs hpc hf
  · rename_i hpc
    refine ⟨_, ?_, .commitWrite hpc⟩
    rfl
  · rename_i hpc
    refine ⟨_, ?_, .ending hpc⟩
    unfold ending
    split_ifs
    · unfold Shared.latchFault
      split <;> rfl
    · rfl
  · rename_i hpc
    unfold groupEnd
    by_cases hg : cfg.groupEnabled = false
    · rw [if_pos hg]
      exact ⟨s.goto .closed, rfl, .noGroup hpc hg⟩
    rw [if_neg hg]
    by_cases hid : s.pub.groupId = 0
    · simp only [if_pos hid]
      refine ⟨_, ?_, .neverJoined hpc (by simpa using hg) hid⟩
      rfl
    · simp only [if_neg hid]
      refine ⟨_, ?_, .groupEnd hpc (by simpa using hg) hid⟩
      rfl

end Server

end ArmControl.Rt
