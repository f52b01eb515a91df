import ArmControl.Rt.GroupRecord

/-!
# The servo tick (`rt_loop.cpp`)

One tick of the servo thread, from its loads to the decision which command it tracks (the torque
law itself is not part of this model).  `Published` is what the control thread publishes and the
tick loads; `Shared` is what both threads write.  The tick is cut where its group section touches
the shared slot, so that the control thread can move in between:

* `front`    loads, mode authority, cancel, evaluation, commit and selection stamp, heartbeat;
* `doneWrite`, `faultMirror`, `peerCheck`   the rest of the group section, one slot write each;
* `servo`    envelope admission, expiry, authority, the tracked command and the latches.

Every function follows the source's order; `RtEnv` holds what the world decides in a step (clock,
plant, peer snapshots).
-/

namespace ArmControl.Rt

structure ServerConfig where
  n : ℕ
  holdNs : ℚ
  faultNs : ℚ
  supportsReference : Bool
  groupEnabled : Bool
  groupMember : ℕ
  groupMembers : ℕ
  groupMaxAgeNs : ℕ
  groupMinLeadNs : ℕ
  jointOrderHash : ℕ
  instanceId : String
  modelId : String
  capabilities : ℕ
  /-- the failed parts of the RT process setup, when they gate ARM -/
  setupFailed : Option String
  sha256 : List (BitVec 8) → Digest

/-- written by the control thread, loaded by the tick -/
structure Published where
  sessionId : ℕ := 0
  claimOk : Bool := false
  referenceSession : ℕ := 0
  armed : Bool := false
  armGen : ℕ := 0
  armStart : ArmStart := {}
  disarmGen : ℕ := 0
  referenceIn : ReferenceCommit := {}
  referencePublished : ℕ := 0
  referenceCancel : ReferenceCancel := {}
  referenceCancelGeneration : ℕ := 0
  groupActive : Bool := false
  groupCommitted : Bool := false
  groupId : ℕ := 0
  groupSession : ℕ := 0
  groupEpoch : ℕ := 0
  groupMyDeadline : ℕ := 0
  modeIn : ModeSelectRequest := {}
  modePublished : ℕ := 0
  deriving Inhabited

inductive FaultCode where
  | cmdLost | ctlLost | plant
  deriving DecidableEq, Inhabited

structure LatchRecord where
  code : FaultCode
  text : String
  gen : ℕ
  deriving DecidableEq, Inhabited

/-- written by both threads; the latch is taken and cleared in one step here.  `slotBusy`: the
control thread is inside the slot's sequence lock (its number is odd), so that an attempt of the
tick is contended. -/
structure Shared where
  slot : GroupSlot := {}
  slotBusy : Bool := false
  heartbeatNs : ℕ := 0
  groupEvent : ℕ := 0
  latch : Option LatchRecord := none
  cmdIn : Mailbox CommandEnvelope := ⟨{}, 0⟩
  deriving Inhabited

def Shared.fault (x : Shared) : Bool := x.latch.isSome

def FaultCode.code : FaultCode → ℕ
  | .cmdLost => 1
  | .ctlLost => 2
  | .plant => 3

/-- first cause wins -/
def Shared.latchFault (x : Shared) (code : FaultCode) (text : String) (gen : ℕ) : Shared :=
  match x.latch with
  | none => { x with latch := some ⟨code, text, gen⟩ }
  | some _ => x

inductive RtPc where
  | front | done | mirror | peers | servo
  deriving DecidableEq, Inhabited

structure RtLoop where
  pc : RtPc := .front
  -- loads of the tick in progress
  pub : Published := {}
  now : ℕ := 0
  faulted : Bool := false
  cmdV : ℕ := 0
  envelope : CommandEnvelope := {}
  -- published to the control thread
  referenceDone : ℕ := 0
  referenceResult : ReferenceResult := .notAdmitted
  referenceFeedback : ReferenceSelectionInfo := {}
  modeDone : ℕ := 0
  modeFeedback : ModeSelectReplyPayload := {}
  modeGeneration : ℕ := 0
  modeEffective : ModeId := .unselected
  -- the loop's own state
  reference : ReferenceSelection := {}
  referenceCommit : ReferenceCommit := {}
  referenceSeen : ℕ := 0
  cancelSeen : ℕ := 0
  groupStampPending : Bool := false
  groupTripped : Bool := false
  groupFaultMirrored : Bool := false
  groupDone : Bool := false
  groupStampNs : ℕ := 0
  groupTickId : ℕ := 0
  mode : ArmMode := {}
  modeSeen : ℕ := 0
  authority : CommandAuthority := {}
  plantOk : Bool := true
  seenGen : ℕ := 0
  -- what the tick did with the commands
  admitted : Option CommandEnvelope := none
  tracked : Option CommandEnvelope := none
  deriving Inhabited

/-- what the world decides in one step of the servo thread -/
structure RtEnv where
  now : ℕ := 0
  readOk : Bool := true
  peers : ℕ → GroupSnapshot := fun _ => {}
  finite : Bool := true
  lawOk : Bool := true
  wrote : Bool := true
  /-- the backend's own fault text -/
  faultText : String := ""
  deriving Inhabited

namespace RtLoop

/-! ## mode authority -/

/-- ARM seeds the epoch's mode, DISARM discards it.  The 64-bit generation is compared with the
32-bit epoch, as in the source. -/
def seedMode (cfg : ServerConfig) (r : RtLoop) (p : Published) : RtLoop :=
  if p.armed = true ∧ (p.armGen ≠ r.mode.epoch ∨ p.sessionId ≠ r.mode.sessionId) then
    let seed : ModeId :=
      if p.sessionId ≠ 0 ∧ cfg.supportsReference = true ∧ p.referenceSession = p.sessionId then
        .reference
      else .streamed
    { r with
      mode := ArmMode.arm p.sessionId (low32 p.armGen) seed
      modeGeneration := 0, modeEffective := seed }
  else if p.armed = false ∧ r.mode.mode ≠ .unselected then
    { r with mode := ArmMode.disarm, modeGeneration := 0, modeEffective := .unselected }
  else r

/-- RT's answer to a request, and whether it confirms a new generation -/
def modeVerdict (mode : ArmMode) (p : Published) (faulted : Bool) (m : ModeSelectPayload) :
    ModeSelectResult × Bool :=
  if p.armed = false ∨ faulted = true then (.refused, false)
  else if mode.belongs p.sessionId (low32 p.armGen) = false ∨ m.sessionId ≠ p.sessionId ∨
      m.armEpoch ≠ p.armGen then (.refused, false)
  else if m.desiredMode = ModeId.reference.code ∧ p.referenceSession ≠ p.sessionId then
    (.unsupported, false)
  else if m.generation = mode.generation ∧ m.desiredMode = mode.mode.code then (.ok, false)
  else if m.generation = mode.generation + 1 ∧ m.expectedPredecessor = mode.generation then
    (.ok, true)
  else (.order, false)

/-- the outgoing law is retired before the new one becomes authoritative -/
def confirmMode (r : RtLoop) (m : ModeSelectPayload) (now : ℕ) : RtLoop :=
  let mode := r.mode.confirm m now
  { r with
    reference := r.reference.retire 0 false
    mode := mode, modeGeneration := mode.generation, modeEffective := mode.mode }

def answerMode (r : RtLoop) (p : Published) (now : ℕ) (faulted : Bool) : RtLoop :=
  if p.modePublished = r.modeSeen ∨ p.modeIn.ticket ≠ p.modePublished then r
  else
    let m := p.modeIn.request
    let (result, confirms) := modeVerdict r.mode p faulted m
    let predecessor := r.mode.generation
    let r := if confirms then r.confirmMode m now else r
    { r with
      modeFeedback :=
        { sessionId := m.sessionId, generation := m.generation, predecessor := predecessor
          armEpoch := m.armEpoch, result := result, selectedMode := r.mode.mode
          requestedMode := m.desiredMode }
      modeDone := p.modePublished, modeSeen := p.modePublished }

/-! ## the reference before and after admission -/

/-- a published cancel generation retires the reference once, in the epoch it names -/
def applyCancel (r : RtLoop) (p : Published) : RtLoop :=
  if p.referenceCancelGeneration = r.cancelSeen ∨
      p.referenceCancel.generation ≠ p.referenceCancelGeneration then r
  else
    { r with
      cancelSeen := p.referenceCancelGeneration
      reference :=
        if p.referenceCancel.sessionId = p.sessionId ∧ p.referenceCancel.armEpoch = p.armGen then
          r.reference.retire p.referenceCancel.referenceId false
        else r.reference }

/-- reset, read the pending commit, cancel, retire while not in authority, classify exhaustion -/
def prepareReference (r : RtLoop) (p : Published) (now : ℕ) (faulted : Bool) : RtLoop :=
  let r := { r with reference := r.reference.reset p.sessionId (low32 p.armGen) }
  let r :=
    if p.referencePublished ≠ r.referenceSeen then { r with referenceCommit := p.referenceIn } else r
  let r := r.applyCancel p
  let r :=
    if p.armed = false ∨ faulted = true then { r with reference := r.reference.retire 0 false } else r
  { r with reference := (r.reference.evaluate now).1 }

/-- the pending commit is answered in this tick -/
def inFlight (r : RtLoop) (p : Published) : Bool :=
  p.referencePublished != r.referenceSeen && r.referenceCommit.ticket == p.referencePublished

def admitCommit (r : RtLoop) (p : Published) (now : ℕ) (faulted : Bool) :
    ReferenceResult × ReferenceSelection :=
  if p.armed = true ∧ faulted = false ∧ p.referenceSession = p.sessionId then
    if r.mode.mode ≠ .reference then (.notAdmitted, r.reference)
    else r.reference.commit r.referenceCommit now p.referenceCancelGeneration
  else (.identity, r.reference)

/-- the slot value of this member in this tick -/
def groupValue (p : Published) (state : GroupState) (faultCode selectedNs : ℕ) : GroupSlot :=
  { state := state, armEpoch := low32 p.armGen, faultCode := faultCode, groupId := p.groupId
    sessionId := p.sessionId, selectedNs := selectedNs, deadlineNs := p.groupMyDeadline }

/-- a selection made while this member is committed stamps its slot -/
def stamps (p : Published) (result : ReferenceResult) : Bool :=
  result == .ok && p.groupActive && p.groupCommitted && p.groupEpoch == low32 p.armGen

def commitStep (r : RtLoop) (slot : GroupSlot) (p : Published) (now : ℕ) (faulted contended : Bool) :
    RtLoop × GroupSlot :=
  if r.inFlight p = false then (r, slot)
  else
    let (result, reference) := r.admitCommit p now faulted
    let r := { r with
      reference := reference, referenceResult := result
      referenceSeen := p.referencePublished, referenceDone := p.referencePublished }
    if stamps p result then
      let (w, slot) :=
        slot.tryWrite contended (groupValue p .running 0 now) (onlyState .committed)
      ({ r with groupStampNs := now, groupStampPending := w == .contended }, slot)
    else (r, slot)

/-- evaluate again and publish the selection to the control thread -/
def publishReference (r : RtLoop) (now : ℕ) : RtLoop :=
  let reference := (r.reference.evaluate now).1
  { r with reference := reference, referenceFeedback := reference.info }

/-! ## the group section -/

/-- this tick heartbeats and enforces the group rules -/
def inGroup (cfg : ServerConfig) (p : Published) : Bool :=
  cfg.groupEnabled && p.groupActive && p.armed && p.groupSession == p.sessionId &&
    p.groupEpoch == low32 p.armGen

def clearGroup (r : RtLoop) : RtLoop :=
  { r with
    groupTripped := false, groupFaultMirrored := false
    groupStampPending := false, groupDone := false }

/-- a new group id: nothing of the previous group carries over -/
def scopeGroup (r : RtLoop) (p : Published) : RtLoop :=
  if p.groupId ≠ r.groupTickId then { r.clearGroup with groupTickId := p.groupId } else r

/-- a contended stamp is retried -/
def retryStamp (r : RtLoop) (slot : GroupSlot) (p : Published) (contended : Bool) : RtLoop × GroupSlot :=
  if r.groupStampPending = false then (r, slot)
  else
    let (w, slot) :=
      slot.tryWrite contended (groupValue p .running 0 r.groupStampNs) (onlyState .committed)
    ({ r with groupStampPending := w == .contended }, slot)

def groupHead (cfg : ServerConfig) (r : RtLoop) (slot : GroupSlot) (p : Published)
    (contended : Bool) : RtLoop × GroupSlot :=
  if cfg.groupEnabled = true ∧ p.groupActive = false then (r.clearGroup, slot)
  else if inGroup cfg p = true then (r.scopeGroup p).retryStamp slot p contended
  else (r, slot)

/-- the loads of one tick -/
def load (r : RtLoop) (sh : Shared) (p : Published) (now : ℕ) : RtLoop :=
  { r with
    pub := p, now := now, faulted := sh.fault, cmdV := sh.cmdIn.version
    envelope := sh.cmdIn.value, admitted := none, tracked := none }

/-- the state in which the pending commit is considered -/
def prepared (cfg : ServerConfig) (r : RtLoop) (sh : Shared) (p : Published) (now : ℕ) : RtLoop :=
  (((r.load sh p now).seedMode cfg p).answerMode p now sh.fault).prepareReference p now sh.fault

/-- loads, mode authority, reference selection and the head of the group section -/
def front (cfg : ServerConfig) (r : RtLoop) (sh : Shared) (p : Published) (env : RtEnv) :
    RtLoop × Shared :=
  if env.readOk = false then
    -- latched only while armed; nothing is written to a dead plant
    ({ r with plantOk := false, admitted := none, tracked := none },
      if p.armed then sh.latchFault .plant env.faultText p.armGen else sh)
  else
    let r := r.prepared cfg sh p env.now
    let (r, slot) := r.commitStep sh.slot p env.now sh.fault sh.slotBusy
    let r := r.publishReference env.now
    let (r, slot) := r.groupHead cfg slot p sh.slotBusy
    ({ r with pc := if inGroup cfg p then .done else .servo },
      { sh with
        slot := slot
        heartbeatNs := if inGroup cfg p then env.now else sh.heartbeatNs })

/-- the reference ran to its end: final -/
def doneWrite (r : RtLoop) (slot : GroupSlot) (committed contended : Bool) : RtLoop × GroupSlot :=
  if r.groupDone = false ∧ r.groupTripped = false ∧ committed = true ∧
      r.reference.info.status = .ended then
    let (w, slot) :=
      slot.tryWrite contended (groupValue r.pub .done 0 r.groupStampNs) (onlyState .running)
    ({ r with groupDone := w == .written }, slot)
  else (r, slot)

/-- the slot mirrors the wire latch, once -/
def faultMirror (r : RtLoop) (sh : Shared) : RtLoop × GroupSlot :=
  if r.faulted = true ∧ r.groupFaultMirrored = false then
    let code := (sh.latch.map fun l => l.code.code).getD 0
    let (w, slot) :=
      sh.slot.tryWrite sh.slotBusy (groupValue r.pub .faulted code 0) (exceptState .done)
    ({ r with groupFaultMirrored := w != .contended }, slot)
  else (r, sh.slot)

/-- a bad peer retires the running reference and cancels this member's live slot -/
def tripPeer (r : RtLoop) (sh : Shared) (verdict : PeerVerdict) : RtLoop × Shared :=
  ({ r with
      groupTripped := true
      reference :=
        if r.reference.info.status = .running then r.reference.retire 0 false else r.reference },
    { sh with
      slot := (sh.slot.tryWrite sh.slotBusy (groupValue r.pub .cancelled 0 0) liveStates).2
      groupEvent := verdict.code + 1 })

def peerCheck (cfg : ServerConfig) (r : RtLoop) (sh : Shared) (committed : Bool) (env : RtEnv) :
    RtLoop × Shared :=
  if committed = true ∧ r.groupTripped = false ∧ r.groupDone = false then
    match firstBadPeer env.peers cfg.groupMembers cfg.groupMember r.pub.groupId r.now
        cfg.groupMaxAgeNs with
    | none => (r, sh)
    | some verdict => r.tripPeer sh verdict
  else (r, sh)

/-! ## the servo decision -/

/-- the mailbox holds a native envelope of this tick's session and generation -/
def incomingNative (r : RtLoop) : Bool :=
  r.cmdV != 0 && r.envelope.armGen == r.pub.armGen && r.envelope.sessionId == r.pub.sessionId &&
    r.envelope.native

/-- the selected revision has admitted no envelope within the ceiling -/
def referenceGap (cfg : ServerConfig) (r : RtLoop) : Bool :=
  r.mode.mode == .reference && r.reference.info.status == .running &&
    r.reference.admittedAtNs != 0 && !r.reference.envelopeSeen &&
    decide (min cfg.holdNs referenceFirstEnvelopeNs < clampedAgeNs r.now r.reference.admittedAtNs)

def envelopeFresh (cfg : ServerConfig) (r : RtLoop) (e : CommandEnvelope) : Bool :=
  referenceEnvelopeFresh e.reference r.reference.info r.reference.protectedUntil r.now e.rxNs
    cfg.holdNs

def envelopeBound (r : RtLoop) (e : CommandEnvelope) : Bool :=
  referenceEnvelopeRevisionOk e.reference r.reference.info r.reference.protectedUntil

def admitEnvelope (cfg : ServerConfig) (r : RtLoop) : Bool :=
  if r.incomingNative then
    !r.reference.retiredByExpiry && !r.referenceGap cfg && r.envelopeFresh cfg r.envelope
  else !(r.reference.info.referenceId != 0 && r.mode.mode != .streamed)

/-- admission of the mailbox's envelope, its mark on the reference, and the observation -/
def observeCommand (cfg : ServerConfig) (r : RtLoop) : RtLoop :=
  let accepts := r.admitEnvelope cfg
  let marks := r.incomingNative && accepts && r.envelopeBound r.envelope && r.reference.active
  { r with
    reference := if marks then r.reference.markEnvelope else r.reference
    admitted :=
      if accepts && r.cmdV != 0 && r.envelope.armGen == r.pub.armGen then some r.envelope else none
    authority :=
      r.authority.observe r.pub.armGen r.pub.armStart (if accepts then r.cmdV else 0) r.envelope }

/-- a RUNNING reference whose envelope has expired; `gap` is the test made before admission -/
def expired (cfg : ServerConfig) (r : RtLoop) (gap : Bool) : Bool :=
  r.mode.mode == .reference && r.reference.info.status == .running &&
    (gap ||
      if r.incomingNative && r.envelopeBound r.envelope then !r.envelopeFresh cfg r.envelope
      else
        let held := r.authority.current
        r.authority.have_ && held.armGen == r.pub.armGen && held.native && r.envelopeBound held &&
          !r.envelopeFresh cfg held)

def retireExpired (cfg : ServerConfig) (r : RtLoop) (gap : Bool) : RtLoop :=
  if r.expired cfg gap then { r with reference := r.reference.retire 0 true } else r

/-- tracking authority: the current session (loaded again), and the mode's own gate -/
def fresh (cfg : ServerConfig) (r : RtLoop) (session : ℕ) : Bool :=
  let e := r.authority.current
  r.authority.fresh session cfg.n r.now cfg.holdNs &&
    r.mode.admits e.native e.rxNs r.pub.sessionId (low32 r.pub.armGen) &&
    (!e.native || (r.reference.active && r.envelopeFresh cfg e))

/-- the ARM edge is an explicit plant retry -/
def armEdge (r : RtLoop) : RtLoop :=
  if r.pub.armGen ≠ r.seenGen then { r with seenGen := r.pub.armGen, plantOk := true } else r

def lawText : Version → String
  | .poseHold => "pose hold requires valid measured pose/J/model state"
  | _ => "cartesian law requires valid measured pose/J and FK(q_des)"

/-- the authority ladder: no plant, track, or hold (latching a lost stream), then the write -/
def actuate (cfg : ServerConfig) (r : RtLoop) (sh : Shared) (fresh : Bool) (env : RtEnv) :
    RtLoop × Shared :=
  if r.pub.armed = false then (r, sh)
  else
    let sh := if env.finite then sh else
      sh.latchFault .plant "non-finite measured joint state; torque writes suppressed" r.seenGen
    let r := if env.finite then r else { r with plantOk := false }
    if r.plantOk = false then (r, sh)
    else
      let track := !r.faulted && fresh
      let version := r.authority.current.packet.version
      -- the pose and Cartesian laws need a valid measured state, else they latch and hold
      let lawFailed := track && !env.lawOk && (version == .poseHold || version == .cartesian)
      let r := { r with tracked := if track && !lawFailed then some r.authority.current else none }
      let sh := if lawFailed then sh.latchFault .plant (lawText version) r.seenGen else sh
      let base := r.authority.deadmanBase
      let lost := !r.faulted && !fresh && base != 0 &&
        decide (cfg.faultNs < clampedAgeNs r.now base)
      let sh := if lost then
          sh.latchFault .cmdLost "command stream lost (staleness > fault-ms)" r.seenGen else sh
      if env.wrote then (r, sh)
      else ({ r with plantOk := false }, sh.latchFault .plant env.faultText r.seenGen)

def servo (cfg : ServerConfig) (r : RtLoop) (sh : Shared) (session : ℕ) (env : RtEnv) : RtLoop × Shared :=
  let gap := r.referenceGap cfg
  let r := (r.observeCommand cfg).retireExpired cfg gap
  let fresh := r.fresh cfg session
  let (r, sh) := r.armEdge.actuate cfg sh fresh env
  ({ r with pc := .front }, sh)

/-! ## one step -/

def step (cfg : ServerConfig) (r : RtLoop) (sh : Shared) (p : Published) (env : RtEnv) : RtLoop × Shared :=
  match r.pc with
  | .front => r.front cfg sh p env
  | .done =>
    let (r, slot) := r.doneWrite sh.slot p.groupCommitted sh.slotBusy
    ({ r with pc := .mirror }, { sh with slot := slot })
  | .mirror =>
    let (r, slot) := r.faultMirror sh
    ({ r with pc := .peers }, { sh with slot := slot })
  | .peers =>
    let (r, sh) := r.peerCheck cfg sh p.groupCommitted env
    ({ r with pc := .servo }, sh)
  | .servo => r.servo cfg sh p.sessionId env

/-! ## what each part can touch -/

section
variable (cfg : ServerConfig) (r : RtLoop) (p : Published) (now : ℕ) (faulted : Bool)

theorem seedMode_frame : ∃ m g e,
    r.seedMode cfg p = { r with mode := m, modeGeneration := g, modeEffective := e } := by
  unfold seedMode
  split_ifs <;> exact ⟨_, _, _, rfl⟩

theorem answerMode_frame : ∃ ref m g e fb d s,
    r.answerMode p now faulted =
      { r with reference := ref, mode := m, modeGeneration := g, modeEffective := e
               modeFeedback := fb, modeDone := d, modeSeen := s } ∧
    (ref = r.reference ∨ ref = r.reference.retire 0 false) := by
  unfold answerMode
  split_ifs
  · exact ⟨r.reference, r.mode, r.modeGeneration, r.modeEffective, r.modeFeedback, r.modeDone,
      r.modeSeen, rfl, .inl rfl⟩
  · dsimp only
    cases (modeVerdict r.mode p faulted p.modeIn.request).2
    · exact ⟨_, _, _, _, _, _, _, rfl, .inl rfl⟩
    · exact ⟨_, _, _, _, _, _, _, rfl, .inr rfl⟩

theorem prepareReference_frame : ∃ ref c s,
    r.prepareReference p now faulted =
      { r with reference := ref, referenceCommit := c, cancelSeen := s } := by
  unfold prepareReference applyCancel
  dsimp only
  split_ifs <;> exact ⟨_, _, _, rfl⟩

/-- everything the commit step reads but mode, reference and commit is as loaded -/
theorem prepared_frame (sh : Shared) : ∃ m g e fb d q ref c k,
    r.prepared cfg sh p now =
      { r.load sh p now with
        mode := m, modeGeneration := g, modeEffective := e, modeFeedback := fb, modeDone := d
        modeSeen := q, reference := ref, referenceCommit := c, cancelSeen := k } := by
  unfold prepared
  obtain ⟨m, g, e, h1⟩ := seedMode_frame cfg (r.load sh p now) p
  obtain ⟨ref, m', g', e', fb, d, q, h2, -⟩ :=
    answerMode_frame ((r.load sh p now).seedMode cfg p) p now sh.fault
  obtain ⟨ref3, c3, q3, h3⟩ := prepareReference_frame
    (((r.load sh p now).seedMode cfg p).answerMode p now sh.fault) p now sh.fault
  rw [h3, h2, h1]
  exact ⟨_, _, _, _, _, _, _, _, _, rfl⟩

theorem commitStep_frame (slot : GroupSlot) (contended : Bool) : ∃ ref res s d n w,
    (r.commitStep slot p now faulted contended).1 =
      { r with reference := ref, referenceResult := res, referenceSeen := s, referenceDone := d
               groupStampNs := n, groupStampPending := w } := by
  unfold commitStep
  split_ifs
  · exact ⟨r.reference, r.referenceResult, r.referenceSeen, r.referenceDone, r.groupStampNs,
      r.groupStampPending, rfl⟩
  · dsimp only
    split_ifs <;> exact ⟨_, _, _, _, _, _, rfl⟩

theorem groupHead_frame (slot : GroupSlot) (contended : Bool) : ∃ t f w d i,
    (r.groupHead cfg slot p contended).1 =
      { r with groupTripped := t, groupFaultMirrored := f, groupStampPending := w, groupDone := d
               groupTickId := i } := by
  unfold groupHead
  split_ifs
  · exact ⟨_, _, _, _, r.groupTickId, rfl⟩
  · unfold retryStamp scopeGroup
    dsimp only
    split_ifs <;> exact ⟨_, _, _, _, _, rfl⟩
  · exact ⟨r.groupTripped, r.groupFaultMirrored, r.groupStampPending, r.groupDone, r.groupTickId,
      rfl⟩

theorem peerCheck_cases (sh : Shared) (committed : Bool) (env : RtEnv) :
    r.peerCheck cfg sh committed env = (r, sh) ∨
      (committed = true ∧ ∃ v, r.peerCheck cfg sh committed env = r.tripPeer sh v) := by
  unfold peerCheck
  by_cases h : committed = true ∧ r.groupTripped = false ∧ r.groupDone = false
  · rw [if_pos h]
    split
    · exact .inl rfl
    · rename_i v _
      exact .inr ⟨h.1, v, rfl⟩
  · rw [if_neg h]
    exact .inl rfl

theorem armEdge_frame : ∃ g k, r.armEdge = { r with seenGen := g, plantOk := k } := by
  unfold armEdge
  split_ifs <;> exact ⟨_, _, rfl⟩

/-- a command is tracked only when it is fresh, and then it is the authority's -/
theorem actuate_frame (sh : Shared) (fresh : Bool) (env : RtEnv) : ∃ k t,
    (r.actuate cfg sh fresh env).1 = { r with plantOk := k, tracked := t } ∧
      (t = r.tracked ∨ t = none ∨ (t = some r.authority.current ∧ fresh = true ∧
        r.faulted = false ∧ r.pub.armed = true)) := by
  unfold actuate
  by_cases ha : r.pub.armed = false
  · rw [if_pos ha]
    exact ⟨_, _, rfl, .inl rfl⟩
  rw [if_neg ha]
  dsimp only
  have harmed : r.pub.armed = true := by simpa using ha
  cases hf : env.finite
  · exact ⟨_, _, rfl, .inl rfl⟩
  simp only [if_true]
  by_cases hk : r.plantOk = false
  · rw [if_pos hk]
    exact ⟨_, _, rfl, .inl rfl⟩
  rw [if_neg hk]
  have htrack : ∀ b : Bool,
      (if (!r.faulted && fresh && !b) = true then some r.authority.current else none) = none ∨
      ((if (!r.faulted && fresh && !b) = true then some r.authority.current else none) =
        some r.authority.current ∧ fresh = true ∧ r.faulted = false) := by
    intro b
    cases hr : r.faulted <;> cases hfr : fresh <;> cases b <;> simp
  cases env.wrote <;>
    exact ⟨_, _, rfl, .inr ((htrack _).imp id fun h => ⟨h.1, h.2.1, h.2.2, harmed⟩)⟩

end

end RtLoop

end ArmControl.Rt
