import ArmControl.Rt.RtLoop
import ArmControl.Rt.ReferenceUpload
import ArmControl.Rt.UdpLink

/-!
# The control thread (`control_session.cpp`)

`serve_client` as a step function: one iteration of its loop is the round
`top → (poll …) → modeAck → commitAck → recv → top`, and each step is what the thread does between
two points where another thread's move matters.  A received frame is handled in one step, except
that a GROUP_COMMIT checks first and writes the slot in a step of its own, and the group hold reads
one peer a step.

* `Locals`       the locals of `serve_client`, fresh for every session;
* `groupRetire`, `groupLeave`, `groupReply`   its lambdas;
* `frame`        one received frame;
* `controlStep`  the thread's next step;
* `Server.step`  the whole server: control thread, servo thread, and `udp_rx`'s publications.

`groupPending` (the commit of the last accepted GROUP_COMMIT) and `joinedIds` are history.  Process
shutdown, the fault notices (see `Latch`) and the active mask are left out.
-/

namespace ArmControl.Rt

structure GroupStatusPayload where
  groupId : ℕ := 0
  deadlineNs : ℕ := 0
  selectedNs : ℕ := 0
  result : ReferenceResult := .ok
  operation : ℕ := 0
  state : GroupState := .none
  peerVerdict : ℕ := 0
  deriving DecidableEq, Inhabited

structure Flags where
  armed : Bool
  faulted : Bool
  claimed : Bool
  deriving DecidableEq, Inhabited

/-- what the control thread sends -/
inductive Reply where
  | status (flags : Flags) (text : String) (seq : ℕ)
  | pong
  | reference (r : ReferenceReplyPayload) (seq : ℕ)
  | group (r : GroupStatusPayload) (seq : ℕ)
  | mode (r : ModeSelectReplyPayload) (seq : ℕ)
  deriving DecidableEq, Inhabited

structure GroupCtl where
  joined : Bool := false
  hold : Bool := false
  isCommit : Bool := false
  id : ℕ := 0
  deadlineNs : ℕ := 0
  myDeadline : ℕ := 0
  lastCancelled : ℕ := 0
  epoch : ℕ := 0
  count : ℕ := 0
  index : ℕ := 0
  deriving DecidableEq, Inhabited

structure Locals where
  session : ℕ := 0
  upload : Option ReferenceUpload := none
  bound : ReferenceModePayload := {}
  selection : ReferenceSelectionInfo := {}
  pending : ReferenceCommit := {}
  commitFrame : ControlPacket := {}
  commitReply : ReferenceReplyPayload := {}
  lastCancel : ReferenceRetirePayload := {}
  commitWaiting : Bool := false
  haveCommitReply : Bool := false
  modeRequest : ModeSelectPayload := {}
  modeFrame : ControlPacket := {}
  modeTicket : ℕ := 0
  modeDeadlineNs : ℕ := 0
  modeOutstanding : Bool := false
  modePendingSent : Bool := false
  grp : GroupCtl := {}
  gcommitReq : ControlPacket := {}
  gcommitStatus : GroupStatusPayload := {}
  haveGcommitStatus : Bool := false
  deriving Inhabited

inductive CtlPc where
  /-- no client -/
  | closed
  /-- the top of the loop: no step of the thread is in progress -/
  | top
  /-- the group hold, about to read peer `m`; `release` and `bad` are what it has found so far -/
  | poll (m gnow : ℕ) (release : Bool) (bad : Option PeerVerdict)
  | modeAck
  | commitAck
  | recv
  /-- a GROUP_COMMIT has passed its checks; the slot is written next -/
  | commitWrite
  /-- the loop was left -/
  | ending
  /-- `serve_client` has returned; the session's group ends next -/
  | groupEnd
  deriving DecidableEq, Inhabited

/-- what the world decides in one step of the control thread -/
structure CtlEnv where
  now : ℕ := 0
  sendOk : Bool := true
  /-- own slot readable -/
  ownOk : Bool := true
  /-- the snapshot of the peer this step reads -/
  snap : GroupSnapshot := {}
  /-- the snapshots of the COMMIT check and of `group_deadline` -/
  peers : ℕ → GroupSnapshot := fun _ => {}
  frame : Option ControlPacket := none
  hangup : Bool := false
  ip : ℕ := 0
  deriving Inhabited

structure Server where
  pub : Published := {}
  loc : Locals := {}
  pc : CtlPc := .closed
  rt : RtLoop := {}
  sh : Shared := {}
  sent : List Reply := []
  opened : ℕ := 0
  ctlPeerIp : ℕ := 0
  groupPending : ReferenceCommit := {}
  joinedIds : List ℕ := []
  deriving Inhabited

namespace Server

def send (s : Server) (r : Reply) (ok : Bool) : Server :=
  if ok then { s with sent := s.sent ++ [r] } else s

def flags (s : Server) : Flags := ⟨s.pub.armed, s.sh.fault, s.pub.claimOk⟩

/-- leave the loop when the reply could not be sent -/
def goOn (s : Server) (next : CtlPc) (ok : Bool) : Server :=
  { s with pc := if ok then next else .ending }

/-! ## the group lambdas -/

def groupStatus (cfg : ServerConfig) (s : Server) (gid op : ℕ) (result : ReferenceResult)
    (verdict : ℕ) (ownOk : Bool) : GroupStatusPayload :=
  let own := if cfg.groupEnabled && ownOk then s.sh.slot else {}
  { groupId := gid, operation := op, result := result, peerVerdict := verdict
    deadlineNs := if s.loc.grp.joined then s.loc.grp.deadlineNs else 0
    state := own.state, selectedNs := own.selectedNs }

def groupCommitOp : ℕ := 40

def groupReply (cfg : ServerConfig) (s : Server) (gid op : ℕ) (result : ReferenceResult)
    (verdict seq : ℕ) (env : CtlEnv) : Server :=
  let st := s.groupStatus cfg gid op result verdict env.ownOk
  let loc := if op = groupCommitOp then
      { s.loc with gcommitStatus := st, haveGcommitStatus := true } else s.loc
  { s with loc := loc }.send (.group st seq) env.sendOk

/-- the slot ends CANCELLED unless it is FAULTED or DONE, and the tick stops enforcing -/
def groupLeave (s : Server) : Server :=
  if s.loc.grp.joined = false then s
  else
    let grp := s.loc.grp
    let left : GroupSlot :=
      { state := .cancelled, groupId := grp.id, sessionId := s.loc.session, armEpoch := grp.epoch }
    { s with
      pub := { s.pub with groupCommitted := false, groupActive := false }
      sh := { s.sh with slot := s.sh.slot.write left leaveStates, slotBusy := false }
      loc := { s.loc with
        commitWaiting := if grp.isCommit then false else s.loc.commitWaiting
        grp := { grp with
          lastCancelled := grp.id, joined := false, hold := false, isCommit := false } } }

/-- publish one more cancel generation -/
def publishCancel (s : Server) (referenceId armEpoch revision : ℕ) : Server :=
  let generation := s.pub.referenceCancelGeneration + 1
  { s with pub := { s.pub with
      referenceCancel := ⟨s.loc.session, referenceId, generation, armEpoch, revision⟩
      referenceCancelGeneration := generation } }

def discardUpload (s : Server) : Server :=
  { s with loc := { s.loc with upload := s.loc.upload.map ReferenceUpload.discard } }

/-- the highest id among a base, the staged candidate and the commit in flight -/
def retireId (s : Server) (base : ℕ) : ℕ :=
  let staged := (s.loc.upload.bind ReferenceUpload.candidateIdentity).elim 0 (·.referenceId)
  let waiting := if s.loc.commitWaiting then s.loc.pending.request.referenceId else 0
  max (max base staged) waiting

/-- retire whatever this member has staged, waiting or selected; a held COMMIT was never published
and is only dropped -/
def groupRetire (s : Server) : Server :=
  if s.loc.grp.hold then
    { s with loc := { s.loc with
        commitWaiting := false
        grp := { s.loc.grp with hold := false }
        upload := s.loc.upload.map fun u => (u.abort s.loc.pending.request.uploadId).2 } }
  else
    let id := s.retireId s.loc.selection.referenceId
    if id = 0 then s
    else (s.publishCancel id s.loc.grp.epoch s.loc.selection.revision).discardUpload

/-! ## the loop before a frame -/

def readSelection (s : Server) : Server :=
  { s with loc := { s.loc with selection := s.rt.referenceFeedback } }

/-- the top of the loop: the group's end with its epoch, the tick's event, or the hold -/
def top (cfg : ServerConfig) (s : Server) (env : CtlEnv) : Server :=
  let s := s.readSelection
  let grp := s.loc.grp
  if grp.joined = false then { s with pc := .modeAck }
  else if s.pub.armed = false ∨ s.pub.armGen ≠ grp.epoch then
    let s' := s.groupRetire.groupLeave
    if grp.hold then
      (s'.groupReply cfg grp.id groupCommitOp .identity 0 s.loc.commitFrame.seq env).goOn .modeAck
        env.sendOk
    else { s' with pc := .modeAck }
  else if s.sh.groupEvent ≠ 0 then
    let event := s.sh.groupEvent
    let waiting := s.loc.commitWaiting
    let s := { s with sh := { s.sh with groupEvent := 0 } }
    let s := s.groupRetire.groupLeave
    let s := { s with loc := { s.loc with commitWaiting := false } }
    (s.groupReply cfg grp.id (if waiting then groupCommitOp else 0) .groupPeer (event - 1)
      (if waiting then s.loc.commitFrame.seq else 0) env).goOn .modeAck env.sendOk
  else if grp.hold then { s with pc := .poll 0 env.now true none }
  else { s with pc := .modeAck }

/-- every peer was read: abort, release, or keep holding -/
def holdDecide (cfg : ServerConfig) (s : Server) (gnow : ℕ) (release : Bool)
    (bad : Option PeerVerdict) (env : CtlEnv) : Server :=
  let grp := s.loc.grp
  let deadline := groupDeadline env.peers cfg.groupMembers grp.index grp.id grp.myDeadline
  let s := { s with loc := { s.loc with grp := { grp with deadlineNs := deadline } } }
  if bad.isSome = true ∨ (release = false ∧ deadline ≤ gnow) then
    let s' := s.groupRetire.groupLeave
    (s'.groupReply cfg grp.id groupCommitOp (if bad.isSome then .groupPeer else .late)
      ((bad.map PeerVerdict.code).getD 0) s.loc.commitFrame.seq env).goOn .modeAck env.sendOk
  else if release then
    { s with
      loc := { s.loc with grp := { s.loc.grp with hold := false } }
      pub := { s.pub with
        referenceIn := s.loc.pending, referencePublished := s.loc.pending.ticket }
      pc := .modeAck }
  else { s with pc := .modeAck }

/-- one peer of the hold -/
def poll (cfg : ServerConfig) (s : Server) (m gnow : ℕ) (release : Bool)
    (bad : Option PeerVerdict) (env : CtlEnv) : Server :=
  if s.loc.grp.count ≤ m then s.holdDecide cfg gnow release bad env
  else if m = s.loc.grp.index then { s with pc := .poll (m + 1) gnow release bad }
  else
    let v := peerVerdict env.snap s.loc.grp.id gnow cfg.groupMaxAgeNs
    if v ≠ .ok then { s with pc := .poll (m + 1) gnow release (some v) }
    else
      let committed := decide (GroupState.committed.code ≤ env.snap.slot.state.code)
      { s with pc := .poll (m + 1) gnow (release && committed) bad }

/-- bounded wait for RT's answer to a mode request -/
def modeAck (s : Server) (env : CtlEnv) : Server :=
  let l := s.loc
  if l.modeOutstanding = false then { s with pc := .commitAck }
  else if s.rt.modeDone = l.modeTicket then
    if l.modePendingSent = false ∧ env.sendOk = false then { s with pc := .ending }
    else
      let s := if l.modePendingSent then s else
        s.send (.mode s.rt.modeFeedback l.modeFrame.seq) env.sendOk
      { s with
        loc := { s.loc with modeOutstanding := false, modePendingSent := false }, pc := .commitAck }
  else if l.modePendingSent = false ∧ l.modeDeadlineNs ≤ env.now then
    let r : ModeSelectReplyPayload :=
      { sessionId := l.modeRequest.sessionId, generation := l.modeRequest.generation
        armEpoch := l.modeRequest.armEpoch, requestedMode := l.modeRequest.desiredMode
        selectedMode := s.rt.modeEffective, predecessor := s.rt.modeGeneration, result := .pending }
    if env.sendOk = false then { s with pc := .ending }
    else
      { s.send (.mode r l.modeFrame.seq) true with
        loc := { l with modePendingSent := true }, pc := .commitAck }
  else { s with pc := .commitAck }

/-- RT has answered the commit in flight -/
def commitAck (cfg : ServerConfig) (s : Server) (env : CtlEnv) : Server :=
  if s.loc.commitWaiting = false ∨ s.loc.grp.hold = true ∨
      s.rt.referenceDone ≠ s.loc.pending.ticket then { s with pc := .recv }
  else
    let result := s.rt.referenceResult
    let s := { s with loc := { s.loc with commitReply := { s.loc.commitReply with result := result } } }
    if s.loc.grp.isCommit then
      let gid := s.loc.grp.id
      let s := if result = .ok then s else s.groupRetire.groupLeave
      let s := { s with loc := { s.loc with
        commitWaiting := false, haveCommitReply := false
        grp := { s.loc.grp with isCommit := false } } }
      let s := if result = .ok then s.discardUpload else s
      (s.groupReply cfg gid groupCommitOp result 0 s.loc.commitFrame.seq env).goOn .recv env.sendOk
    else if env.sendOk = false then { s with pc := .ending }
    else
      let s := s.send (.reference s.loc.commitReply s.loc.commitFrame.seq) true
      let s := { s with loc := { s.loc with commitWaiting := false, haveCommitReply := true } }
      { if result = .ok then s.discardUpload else s with pc := .recv }

/-! ## reference frames (v7) -/

def answer (s : Server) (seq : ℕ) (reply : ReferenceReplyPayload) (result : ReferenceResult)
    (env : CtlEnv) : Server :=
  (s.send (.reference { reply with result := result } seq) env.sendOk).goOn .top env.sendOk

def setUpload (s : Server) (u : ReferenceUpload) : Server :=
  { s with loc := { s.loc with upload := some u } }

def onBegin (s : Server) (u : ReferenceUpload) (seq : ℕ) (b : ReferenceBeginPayload) (env : CtlEnv) :
    Server :=
  let sel := s.loc.selection
  let active := sel.sessionId == s.loc.session && sel.armEpoch == s.pub.armGen &&
    (sel.status == .running || sel.status == .ended)
  let newAfterEnd := active && sel.status == .ended && decide (sel.referenceId < b.referenceId) &&
    b.expectedRevision == 0
  let reply : ReferenceReplyPayload :=
    { operation := 32, uploadId := b.uploadId, referenceId := b.referenceId, revision := b.revision }
  if s.loc.commitWaiting then s.answer seq reply .busy env
  else
    let (result, u) := u.begin b sel.referenceId (if active && !newAfterEnd then sel.revision else 0)
    (s.setUpload u).answer seq reply result env

/-- a COMMIT that passed every check is published to RT, which answers it -/
def publishCommit (s : Server) (f : ControlPacket) (c : ReferenceCommitPayload)
    (a : AdmittedReference) (reply : ReferenceReplyPayload) : Server :=
  let pending : ReferenceCommit :=
    { admitted := a, request := c, ticket := s.pub.referencePublished + 1
      cancelGeneration := s.pub.referenceCancelGeneration }
  { s with
    loc := { s.loc with
      pending := pending, commitFrame := f, commitReply := reply
      commitWaiting := true, haveCommitReply := false }
    pub := { s.pub with referenceIn := pending, referencePublished := pending.ticket }
    pc := .top }

/-- the request names the current session and the live ARM epoch -/
def names (s : Server) (session armEpoch : ℕ) : Bool :=
  session == s.loc.session && armEpoch == s.pub.armGen && s.pub.armed

def onCommit (s : Server) (u : ReferenceUpload) (f : ControlPacket) (c : ReferenceCommitPayload)
    (env : CtlEnv) : Server :=
  let reply : ReferenceReplyPayload :=
    { operation := 35, uploadId := c.uploadId, referenceId := c.referenceId, revision := c.revision }
  if s.names c.sessionId c.armEpoch = false then s.answer f.seq reply .identity env
  else if s.loc.modeOutstanding then s.answer f.seq reply .busy env
  else if s.loc.commitWaiting then
    -- the same operation again: only the correlation moves
    if s.loc.commitFrame.body = f.body then
      { s with loc := { s.loc with commitFrame := { s.loc.commitFrame with seq := f.seq } }, pc := .top }
    else s.answer f.seq reply .busy env
  else if s.loc.haveCommitReply = true ∧ s.loc.commitFrame.body = f.body then
    s.answer f.seq s.loc.commitReply
      (if s.loc.pending.cancelGeneration = s.pub.referenceCancelGeneration then
        s.loc.commitReply.result else .retired) env
  else
    match u.admitted with
    | none => s.answer f.seq reply .notAdmitted env
    | some a =>
      if a.identity.uploadId ≠ c.uploadId then s.answer f.seq reply .notAdmitted env
      else s.publishCommit f c a reply

/-- the reference a CANCEL names is selected, staged or waiting -/
def cancelTarget (s : Server) (u : ReferenceUpload) (c : ReferenceRetirePayload) : Bool :=
  let sel := s.loc.selection
  let selected := sel.sessionId == s.loc.session && sel.armEpoch == c.armEpoch &&
    c.id == sel.referenceId && c.revision == sel.revision
  let staged := u.candidateIdentity.any fun b => c.id == b.referenceId && c.revision == b.revision
  let waiting := s.loc.commitWaiting && c.id == s.loc.pending.request.referenceId &&
    c.revision == s.loc.pending.request.revision
  selected || staged || waiting

def onCancel (s : Server) (u : ReferenceUpload) (seq : ℕ) (c : ReferenceRetirePayload)
    (env : CtlEnv) : Server :=
  let reply : ReferenceReplyPayload := { operation := 37, referenceId := c.id, revision := c.revision }
  if s.names c.sessionId c.armEpoch = false then s.answer seq reply .identity env
  else if c = s.loc.lastCancel then s.answer seq reply .ok env
  else if s.cancelTarget u c = false then s.answer seq reply .revision env
  else
    let s := (s.publishCancel (s.retireId c.id) c.armEpoch c.revision).discardUpload
    { s with loc := { s.loc with lastCancel := c } }.answer seq reply .ok env

def onGroupJoin (cfg : ServerConfig) (s : Server) (seq : ℕ) (g : GroupMemberPayload) (env : CtlEnv) :
    Server :=
  let grp := s.loc.grp
  let res : ReferenceResult :=
    if s.names g.sessionId g.armEpoch = false then .identity
    else if s.sh.fault then .groupRefused
    else if g.memberIndex ≠ cfg.groupMember ∨ g.memberCount ≠ cfg.groupMembers then .groupRefused
    else if grp.joined = true ∧ grp.id ≠ g.groupId then .groupRefused
    else .ok
  let staged : GroupSlot :=
    { state := .staged, groupId := g.groupId, sessionId := s.loc.session, armEpoch := g.armEpoch }
  let s :=
    if res = .ok ∧ grp.joined = false then
      { s with
        loc := { s.loc with grp :=
          { joined := true, id := g.groupId, epoch := g.armEpoch, count := g.memberCount
            index := g.memberIndex } }
        pub := { s.pub with
          groupId := g.groupId, groupSession := s.loc.session, groupEpoch := g.armEpoch
          groupActive := true }
        sh := { s.sh with
          groupEvent := 0, slot := s.sh.slot.write staged anyState, slotBusy := false
          heartbeatNs := env.now }
        joinedIds := s.joinedIds ++ [g.groupId] }
    else s
  (s.groupReply cfg g.groupId 39 res 0 seq env).goOn .top env.sendOk

def onGroupCancel (cfg : ServerConfig) (s : Server) (seq : ℕ) (g : GroupMemberPayload)
    (env : CtlEnv) : Server :=
  let grp := s.loc.grp
  if s.names g.sessionId g.armEpoch = false then
    (s.groupReply cfg g.groupId 41 .identity 0 seq env).goOn .top env.sendOk
  else if grp.joined = true ∧ grp.id = g.groupId then
    let finished := env.ownOk && s.sh.slot.groupId == grp.id && s.sh.slot.state == .done
    let s' := (if finished then s else s.groupRetire).groupLeave
    let s' := if grp.hold then
        s'.groupReply cfg g.groupId groupCommitOp .groupPeer 0 s.loc.commitFrame.seq env else s'
    -- the second reply is not tried when the first one failed
    (s'.groupReply cfg g.groupId 41 .ok 0 seq env).goOn .top env.sendOk
  else
    (s.groupReply cfg g.groupId 41
      (if grp.lastCancelled = g.groupId then .ok else .groupRefused) 0 seq env).goOn .top env.sendOk

/-- the checks of a GROUP_COMMIT: result, peer verdict and the group deadline -/
def groupCommitCheck (cfg : ServerConfig) (s : Server) (u : ReferenceUpload) (g : GroupCommitPayload)
    (env : CtlEnv) : ReferenceResult × ℕ × ℕ :=
  let grp := s.loc.grp
  if s.names g.sessionId g.armEpoch = false then (.identity, 0, 0)
  else if grp.joined = false ∨ grp.id ≠ g.groupId ∨ g.memberIndex ≠ grp.index then
    (.groupRefused, 0, 0)
  else if s.sh.fault then (.groupRefused, 0, 0)
  else if s.loc.modeOutstanding = true ∨ s.loc.commitWaiting = true then (.busy, 0, 0)
  else
    let admitted := u.admitted.any fun a =>
      a.identity.uploadId == g.uploadId && a.identity.referenceId == g.referenceId &&
        a.identity.revision == 1 && a.identity.expectedRevision == 0
    if admitted = false then (.notAdmitted, 0, 0)
    else
      match firstBadPeer env.peers grp.count grp.index grp.id env.now cfg.groupMaxAgeNs with
      | some v => (.groupPeer, v.code, 0)
      | none =>
        let deadline :=
          groupDeadline env.peers cfg.groupMembers grp.index grp.id (env.now + g.budgetNs)
        if deadline ≤ env.now ∨ deadline - env.now < cfg.groupMinLeadNs then (.late, 0, 0)
        else (.ok, 0, deadline)

/-- an accepted GROUP_COMMIT is held until every peer is committed -/
def holdCommit (s : Server) (u : ReferenceUpload) (f : ControlPacket) (g : GroupCommitPayload)
    (deadline now : ℕ) : Server :=
  let pending : ReferenceCommit :=
    { admitted := u.candidate
      request :=
        { sessionId := g.sessionId, uploadId := g.uploadId, referenceId := g.referenceId
          armEpoch := g.armEpoch, revision := 1 }
      ticket := s.pub.referencePublished + 1
      cancelGeneration := s.pub.referenceCancelGeneration }
  { s with
    loc := { s.loc with
      pending := pending, commitFrame := f, commitWaiting := true, haveCommitReply := false
      grp := { s.loc.grp with
        hold := true, isCommit := true, myDeadline := now + g.budgetNs, deadlineNs := deadline } }
    groupPending := pending
    pc := .commitWrite }

def onGroupCommit (cfg : ServerConfig) (s : Server) (u : ReferenceUpload) (f : ControlPacket)
    (g : GroupCommitPayload) (env : CtlEnv) : Server :=
  let same := s.loc.gcommitReq.body == f.body
  if same && s.loc.commitWaiting && s.loc.grp.isCommit then
    { s with
      loc := { s.loc with
        commitFrame := { s.loc.commitFrame with seq := f.seq }
        gcommitReq := { s.loc.gcommitReq with seq := f.seq } }
      pc := .top }
  else if same && !s.loc.commitWaiting && s.loc.haveGcommitStatus then
    -- lost reply: answer again, unless a cancel has happened since
    let st := s.loc.gcommitStatus
    let stale := st.result == .ok && (!s.loc.grp.joined ||
      s.loc.pending.cancelGeneration != s.pub.referenceCancelGeneration)
    (s.send (.group { st with result := if stale then .retired else st.result } f.seq)
      env.sendOk).goOn .top env.sendOk
  else
    let s := { s with loc := { s.loc with gcommitReq := f, haveGcommitStatus := false } }
    let (res, verdict, deadline) := s.groupCommitCheck cfg u g env
    if res = .ok then s.holdCommit u f g deadline env.now
    else
      let s := if s.loc.grp.joined = true ∧ s.loc.grp.id = g.groupId ∧ res = .late then s.groupLeave
        else s
      (s.groupReply cfg g.groupId groupCommitOp res verdict f.seq env).goOn .top env.sendOk

/-- a v7 frame after the decoder -/
def referenceFrame (cfg : ServerConfig) (s : Server) (u : ReferenceUpload) (f : ControlPacket)
    (env : CtlEnv) : Server :=
  match f.body with
  | .referenceBegin b => s.onBegin u f.seq b env
  | .referenceChunk c =>
    let (result, u) := u.chunk c
    (s.setUpload u).answer f.seq { operation := 33, uploadId := c.uploadId } result env
  | .referenceSeal c =>
    let (result, u) := u.seal cfg.sha256 c env.now
    (s.setUpload u).answer f.seq { operation := 34, uploadId := c.uploadId } result env
  | .referenceAbort a =>
    let reply : ReferenceReplyPayload := { operation := 36, uploadId := a.id }
    if s.names a.sessionId a.armEpoch = false then s.answer f.seq reply .identity env
    else if s.loc.commitWaiting then s.answer f.seq reply .busy env
    else
      let (result, u) := u.abort a.id
      (s.setUpload u).answer f.seq reply result env
  | .referenceCommit c => s.onCommit u f c env
  | .cancelReference c => s.onCancel u f.seq c env
  | .groupJoin g =>
    if cfg.groupEnabled then s.onGroupJoin cfg f.seq g env
    else s.answer f.seq { operation := 39 } .notAdmitted env
  | .groupCancel g =>
    if cfg.groupEnabled then s.onGroupCancel cfg f.seq g env
    else s.answer f.seq { operation := 41 } .notAdmitted env
  | .groupCommit g =>
    if cfg.groupEnabled then s.onGroupCommit cfg u f g env
    else s.answer f.seq { operation := 40 } .notAdmitted env
  -- the decoder lets the server's own status frames through
  | .referenceStatus _ => s.answer f.seq { operation := 38 } .notAdmitted env
  | .groupStatus _ => s.answer f.seq { operation := 42 } .notAdmitted env
  | _ => { s with pc := .top }

/-! ## session frames (v5) -/

/-- replies whose failed send does not end the session -/
def status (s : Server) (text : String) (seq : ℕ) (env : CtlEnv) : Server :=
  { s.send (.status s.flags text seq) env.sendOk with pc := .top }

def onReferenceMode (cfg : ServerConfig) (s : Server) (f : ControlPacket) (want : ReferenceModePayload)
    (env : CtlEnv) : Server :=
  if cfg.supportsReference = false then
    s.status "reference refused: capability unavailable" f.seq env
  else if f.arg ≠ 0 ∨ want.valid = false ∨ s.pub.claimOk = false ∨
      want.sessionId ≠ s.loc.session ∨ want.jointOrderHash ≠ cfg.jointOrderHash then
    s.status "reference refused: identity/malformed mode" f.seq env
  else if s.pub.armed then s.status "reference refused: negotiate while disarmed" f.seq env
  else if s.loc.upload.isSome = true ∧ want ≠ s.loc.bound then
    s.status "reference refused: reconnect to change model binding" f.seq env
  else
    let s :=
      if s.loc.upload.isSome then s
      else
        { s with
          loc := { s.loc with
            bound := want
            upload := some
              { session := s.loc.session, joints := cfg.jointOrderHash, n := cfg.n % 2^16
                model := want.modelDigest } }
          pub := { s.pub with referenceSession := s.loc.session } }
    s.status "reference mode accepted" f.seq env

/-- the checks before ordering -/
def modeCheck (cfg : ServerConfig) (s : Server) (f : ControlPacket) (want : ModeSelectPayload) :
    ModeSelectResult :=
  if cfg.supportsReference = false then .unsupported
  else if f.arg ≠ 0 ∨ want.valid = false ∨ s.pub.claimOk = false ∨
      want.sessionId ≠ s.loc.session then .malformed
  else if s.pub.armed = false ∨ s.sh.fault = true ∨ want.armEpoch ≠ s.pub.armGen then .refused
  else if want.desiredMode = ModeId.reference.code ∧
      (s.pub.referenceSession ≠ s.loc.session ∨ s.loc.upload.isSome = false) then .unsupported
  else if want.desiredMode = ModeId.reference.code ∧ want.modelDigest ≠ s.loc.bound.modelDigest then
    .identity
  else .ok

def modeStatus (s : Server) (r : ModeSelectReplyPayload) (seq : ℕ) (env : CtlEnv) : Server :=
  { s.send (.mode r seq) env.sendOk with pc := .top }

/-- the fence: retire the outgoing law, then publish the request -/
def fenceMode (s : Server) (f : ControlPacket) (want : ModeSelectPayload) (now : ℕ) : Server :=
  let sel := s.loc.selection
  let base := if sel.sessionId = s.loc.session then sel.referenceId else 0
  let staged := (s.loc.upload.bind ReferenceUpload.candidateIdentity).elim 0 (·.referenceId)
  let s := s.discardUpload.publishCancel (max base staged) want.armEpoch 0
  let ticket := s.pub.modePublished + 1
  { s with
    loc := { s.loc with
      modeRequest := want, modeFrame := f, modeTicket := ticket
      modeOutstanding := true, modePendingSent := false, modeDeadlineNs := now + 250000000 }
    pub := { s.pub with modeIn := ⟨want, ticket⟩, modePublished := ticket }
    pc := .top }

def onModeSelect (cfg : ServerConfig) (s : Server) (f : ControlPacket) (want : ModeSelectPayload)
    (env : CtlEnv) : Server :=
  let confirmedGen := s.rt.modeGeneration
  let confirmedMode := s.rt.modeEffective
  let r : ModeSelectReplyPayload :=
    { sessionId := s.loc.session, generation := want.generation, armEpoch := want.armEpoch
      requestedMode := want.desiredMode, selectedMode := confirmedMode
      predecessor := confirmedGen }
  if s.loc.modeOutstanding then
    -- an unresolved request owns the generation
    if want = s.loc.modeRequest then s.modeStatus { r with result := .pending } f.seq env
    else
      s.modeStatus { r with generation := s.loc.modeRequest.generation, result := .busy } f.seq env
  else if s.modeCheck cfg f want ≠ .ok then
    s.modeStatus { r with result := s.modeCheck cfg f want } f.seq env
  else if want.generation = confirmedGen ∧ want.desiredMode = confirmedMode.code then
    s.modeStatus { r with result := .ok } f.seq env
  else if want.generation ≠ confirmedGen + 1 ∨ want.expectedPredecessor ≠ confirmedGen then
    s.modeStatus { r with result := .order } f.seq env
  else s.fenceMode f want env.now

def claimMismatch (cfg : ServerConfig) (s : Server) (want : IdentityPayload) : Option String :=
  if want.sessionId ≠ s.loc.session then some "claim refused: wrong session"
  else if want.instanceId ≠ cfg.instanceId then some "claim refused: instance id mismatch"
  else if want.n ≠ cfg.n then some "claim refused: joint count mismatch"
  else if want.jointOrderHash ≠ cfg.jointOrderHash then some "claim refused: joint order mismatch"
  else if want.modelId ≠ "" ∧ want.modelId ≠ cfg.modelId then
    some "claim refused: task model mismatch"
  else if want.capabilities ||| cfg.capabilities ≠ cfg.capabilities then
    some "claim refused: required capability not offered"
  else none

def onClaim (cfg : ServerConfig) (s : Server) (want : IdentityPayload) (env : CtlEnv) : Server :=
  match s.claimMismatch cfg want with
  | some why => s.status why 0 env
  | none => { s with pub := { s.pub with claimOk := true } }.status "claim accepted" 0 env

def onArm (cfg : ServerConfig) (s : Server) (env : CtlEnv) : Server :=
  if s.pub.claimOk = false then s.status "refused: no accepted CLAIM on this session" 0 env
  else if s.pub.armed = true ∧ s.sh.fault = false then
    s.status "already armed" (low32 s.pub.armGen) env
  else
    match cfg.setupFailed, s.sh.latch with
    | some names, _ =>
      s.status ("refused: RT process setup failed (" ++ names ++ "); fix limits, restart") 0 env
    | none, some l => s.status l.text 0 env
    | none, none =>
      let gen := s.pub.armGen + 1
      { s with pub := { s.pub with
          armGen := gen, armStart := ⟨gen, env.now⟩, armed := true } }.status "armed" (low32 gen) env

def onDisarm (s : Server) (env : CtlEnv) : Server :=
  let s := { s with
    pub := { s.pub with armed := false, disarmGen := s.pub.disarmGen + 1 }
    loc := { s.loc with upload := s.loc.upload.map (fun u => ReferenceUpload.observeEpoch u 0) }
    sh := { s.sh with latch := none } }
  s.status "disarm requested" (low32 s.pub.disarmGen) env

/-- one received frame -/
def frame (cfg : ServerConfig) (s : Server) (f : ControlPacket) (env : CtlEnv) : Server :=
  match f.body with
  | .arm => s.onArm cfg env
  | .disarm => s.onDisarm env
  | .ping => { s.send .pong env.sendOk with pc := .top }
  | .status => s.status "status" 0 env
  | .setActive | .unknown => { s with pc := .top }
  | .claim want => s.onClaim cfg want env
  | .referenceMode want => s.onReferenceMode cfg f want env
  | .modeSelect want => s.onModeSelect cfg f want env
  | _ =>
    let s := s.readSelection
    match s.loc.upload with
    | none => { s with pc := .top }
    | some u =>
      if f.arg ≠ 0 ∨ f.body.valid = false then { s with pc := .top }
      else
        let u := u.observeEpoch (if s.pub.armed then low32 s.pub.armGen else 0)
        (s.setUpload u).referenceFrame cfg u f env

/-! ## the thread -/

/-- the slot write of an accepted GROUP_COMMIT -/
def commitWrite (s : Server) : Server :=
  let grp := s.loc.grp
  let committed : GroupSlot :=
    { state := .committed, groupId := grp.id, sessionId := s.loc.session, armEpoch := grp.epoch
      deadlineNs := grp.myDeadline }
  { s with
    pub := { s.pub with groupMyDeadline := grp.myDeadline, groupCommitted := true }
    sh := { s.sh with slot := s.sh.slot.write committed anyState, slotBusy := false }
    pc := .top }

/-- the end of `serve_client`: losing the session while armed latches -/
def ending (s : Server) : Server :=
  { s with
    sh := if s.pub.armed then s.sh.latchFault .ctlLost "control session lost while armed" s.pub.armGen
      else s.sh
    pub := { s.pub with claimOk := false, referenceSession := 0, sessionId := 0 }
    pc := .groupEnd }

/-- the session's group ends with it -/
def groupEnd (cfg : ServerConfig) (s : Server) : Server :=
  if cfg.groupEnabled = false then { s with pc := .closed }
  else
    let gone : GroupSlot :=
      { state := .cancelled, groupId := s.pub.groupId, sessionId := s.pub.groupSession
        armEpoch := s.pub.groupEpoch }
    { s with
      pub := { s.pub with groupCommitted := false, groupActive := false, groupId := 0 }
      sh :=
        if s.pub.groupId = 0 then s.sh
        else { s.sh with slot := s.sh.slot.write gone anyState, slotBusy := false }
      pc := .closed }

def accept (ids : SessionIds) (s : Server) (env : CtlEnv) : Server :=
  if s.pub.armed = true ∧ s.ctlPeerIp ≠ 0 ∧ env.ip ≠ s.ctlPeerIp then s
  else
    let session := ids.id s.opened
    { s with
      ctlPeerIp := env.ip, opened := s.opened + 1
      pub := { s.pub with claimOk := false, sessionId := session }
      loc := { session := session }
      pc := .top }

def controlStep (cfg : ServerConfig) (ids : SessionIds) (s : Server) (env : CtlEnv) : Server :=
  match s.pc with
  | .closed => s.accept ids env
  | .top => s.top cfg env
  | .poll m gnow release bad => s.poll cfg m gnow release bad env
  | .modeAck => s.modeAck env
  | .commitAck => s.commitAck cfg env
  | .recv =>
    if env.hangup then { s with pc := .ending }
    else
      match env.frame with
      | none => { s with pc := .top }
      | some f => s.frame cfg f env
  | .commitWrite => s.commitWrite
  | .ending => s.ending
  | .groupEnd => s.groupEnd cfg

/-! ## the server -/

inductive Event where
  | control (env : CtlEnv)
  /-- the control thread enters the slot's sequence lock: its next step is a slot write -/
  | enterSlot
  | servo (env : RtEnv)
  /-- a publication of `udp_rx` -/
  | datagram (e : CommandEnvelope)

def step (cfg : ServerConfig) (ids : SessionIds) (s : Server) : Event → Server
  | .control env =>
    let s' := s.controlStep cfg ids env
    -- inside the sequence lock only the write is left to do
    if s'.sh.slotBusy then s else s'
  | .enterSlot => { s with sh := { s.sh with slotBusy := true } }
  | .servo env =>
    let (rt, sh) := s.rt.step cfg s.sh s.pub env
    { s with rt := rt, sh := sh }
  | .datagram e => { s with sh := { s.sh with cmdIn := s.sh.cmdIn.write e } }

end Server

end ArmControl.Rt
