import ArmControl.Rt.UploadSteps
import ArmControl.RemoteRt.UploadRows

/-!
# Uploads over one connection (`RtBackend.upload_reference`, `commit_reference`)

One exchange at a time: a frame, its reply or one exact retry.  An interrupt flag is shared by all the
calls, and the frames of other threads go over the same connection.  The server's control thread takes
the frames in turn, and its replies may be late.

* `Exchange`      the server, the frames and replies of the connection, and the client;
* `Upload`        one `upload_reference`, its trajectory checked;
* `step`          a call, a step of the exchange, a delivery, a step of any of the server's threads;
* `Holds`         the server holds the sealed candidate of an upload, bit for bit;
* `upload_exact`  what a returned upload id and a cancelled COMMIT mean.

`newest` and the list of results are history.
-/

namespace ArmControl.RemoteRt
open ArmControl.Rt Run

/-! ## what the calls send -/

structure UploadArgs where
  trajectory : Trajectory
  referenceId : ℕ
  revision : ℕ := 1
  expectedRevision : ℕ := 0
  terminal : Bool := true
  deriving DecidableEq, Inhabited

/-- an upload in progress, or past -/
structure Upload where
  args : UploadArgs
  id : ℕ
  sessionId : ℕ
  armEpoch : ℕ
  n : ℕ
  jointOrderHash : ℕ
  modelDigest : Digest
  /-- `_reference_seq` when it began -/
  startSeq : ℕ
  admissible : args.trajectory.admissible n = true

namespace Upload

variable (u : Upload)

def body : List Bytes.Byte := u.args.trajectory.body

/-- `REFERENCE_HERMITE | REFERENCE_TERMINAL` -/
def flags : ℕ := (if u.args.trajectory.velocities.isSome then 1 else 0) + if u.args.terminal then 2 else 0

def opening : ReferenceBeginPayload where
  sessionId := u.sessionId
  uploadId := u.id
  referenceId := u.args.referenceId
  jointOrderHash := u.jointOrderHash
  modelDigest := u.modelDigest
  armEpoch := u.armEpoch
  expectedRevision := u.args.expectedRevision
  revision := u.args.revision
  byteCount := u.body.length
  knots := u.args.trajectory.knots
  n := u.n
  flags := u.flags

/-- the chunk number `i` -/
def piece (i : ℕ) : ReferenceChunkPayload :=
  let data := Bytes.slice u.body (referenceChunkBytes * i) referenceChunkBytes
  { uploadId := u.id, offset := referenceChunkBytes * i, length := data.length, data := data }

def pieces : ℕ := (u.body.length + referenceChunkBytes - 1) / referenceChunkBytes

/-- BEGIN, the CHUNKs in order, SEAL -/
def frames (sha256 : List (BitVec 8) → Digest) : List Body :=
  .referenceBegin u.opening :: (List.range u.pieces).map (fun i => .referenceChunk (u.piece i)) ++
    [.referenceSeal { uploadId := u.id, sha256 := sha256 u.body }]

end Upload

/-- the calls that exchange frames of the upload path -/
inductive Operation where
  | upload (a : UploadArgs)
  | commit (uploadId referenceId revision expectedRevision : ℕ) (protectedUntil latestPhase : F64)
      (selectionBudgetNs : ℕ)
  | groupJoin (groupId memberIndex memberCount : ℕ)
  | groupCommit (uploadId referenceId groupId memberIndex budgetNs : ℕ)
  | groupCancel (groupId memberIndex memberCount : ℕ)
  | cancel (referenceId revision : ℕ)
  | abort (uploadId : Option ℕ)

namespace Operation

def isGroup : Operation → Bool
  | .groupJoin .. | .groupCommit .. | .groupCancel .. => true
  | _ => false

/-- a COMMIT and a COMMIT_GROUP keep the flag that their upload has cleared -/
def clears : Operation → Bool
  | .commit .. | .groupCommit .. => false
  | _ => true

/-- the calls that interrupt the exchange in progress -/
def interrupts (groupCommitting : Bool) : Operation → Bool
  | .cancel .. | .abort _ => true
  | .groupCancel .. => groupCommitting
  | _ => false

/-- the one frame of a call that is no upload; `lastUpload` is `_upload_id` -/
def frame (lastUpload session epoch : ℕ) : Operation → Option Body
  | .upload _ => none
  | .commit uploadId referenceId revision expectedRevision protectedUntil latestPhase budget =>
    some (.referenceCommit
      { sessionId := session, uploadId := uploadId, referenceId := referenceId, armEpoch := epoch
        expectedRevision := expectedRevision, revision := revision, protectedUntil := protectedUntil
        latestPhase := latestPhase, selectionBudgetNs := budget })
  | .groupJoin groupId index count =>
    some (.groupJoin
      { sessionId := session, groupId := groupId, armEpoch := epoch, memberIndex := index, memberCount := count })
  | .groupCommit uploadId referenceId groupId index budget =>
    some (.groupCommit
      { sessionId := session, groupId := groupId, uploadId := uploadId, referenceId := referenceId
        budgetNs := budget, armEpoch := epoch, memberIndex := index })
  | .groupCancel groupId index count =>
    some (.groupCancel
      { sessionId := session, groupId := groupId, armEpoch := epoch, memberIndex := index, memberCount := count })
  | .cancel referenceId revision =>
    some (.cancelReference { sessionId := session, id := referenceId, armEpoch := epoch, revision := revision })
  | .abort uploadId =>
    let candidate := uploadId.getD lastUpload
    if candidate = 0 then none
    else some (.referenceAbort { sessionId := session, id := candidate, armEpoch := epoch, revision := 0 })

end Operation

/-- the widths of `struct.pack` -/
def packs : Body → Bool
  | .referenceBegin p =>
    [p.sessionId, p.uploadId, p.referenceId, p.jointOrderHash].all (· < 2 ^ 64) &&
      [p.armEpoch, p.expectedRevision, p.revision, p.byteCount].all (· < 2 ^ 32)
  | .referenceChunk p => p.uploadId < 2 ^ 64
  | .referenceSeal p => p.uploadId < 2 ^ 64
  | .referenceCommit p =>
    [p.sessionId, p.uploadId, p.referenceId, p.selectionBudgetNs].all (· < 2 ^ 64) &&
      [p.armEpoch, p.expectedRevision, p.revision].all (· < 2 ^ 32)
  | .referenceAbort p | .cancelReference p =>
    [p.sessionId, p.id].all (· < 2 ^ 64) && [p.armEpoch, p.revision].all (· < 2 ^ 32)
  | .groupJoin p | .groupCancel p => [p.sessionId, p.groupId].all (· < 2 ^ 64) && p.armEpoch < 2 ^ 32
  | .groupCommit p =>
    [p.sessionId, p.groupId, p.uploadId, p.referenceId, p.budgetNs].all (· < 2 ^ 64) && p.armEpoch < 2 ^ 32
  | _ => true

/-! ## the client -/

inductive LinkError where
  /-- reference session/ARM epoch is no longer current -/
  | notCurrent
  /-- one reference upload is already in progress -/
  | inProgress
  /-- server was not started with a group record -/
  | noGroup
  /-- a `ValueError` of the checks or of `pack_reference_control` -/
  | malformed
  /-- reference request sequence exhausted; reconnect -/
  | exhausted
  /-- `ReferenceCancelledBeforeDispatch` of the request `seq` -/
  | cancelledBeforeDispatch (seq : ℕ)
  /-- reference upload interrupted by lifecycle -/
  | interrupted
  /-- control link down -/
  | down
  /-- `ReferenceRefused` -/
  | refused (operation : ℕ) (result : ReferenceResult)
  /-- no reference acknowledgement after exact retry -/
  | noAcknowledgement
  deriving DecidableEq, Inhabited

/-- where `_reference_exchange` stands; `seq` is its request's sequence number -/
inductive Stage where
  | start
  | flag (attempt seq : ℕ)
  | scope (attempt seq : ℕ)
  | send (attempt seq : ℕ)
  | wait (attempt seq : ℕ)
  deriving DecidableEq, Inhabited

/-- the caller that has the lock, and the frames it has still to exchange, the current one first -/
structure Call where
  operation : Operation
  sessionId : ℕ
  armEpoch : ℕ
  upload : Option Upload
  frames : List Body
  stage : Stage

inductive Outcome where
  | uploaded (u : Upload)
  | answered (op : Operation)
  | raised (op : Operation) (e : LinkError)

structure Exchange where
  srv : Server := {}
  -- the connection
  requests : List ControlPacket := []
  served : ℕ := 0
  replies : List Reply := []
  received : ℕ := 0
  -- the client
  n : ℕ := 0
  jointOrderHash : ℕ := 0
  groupCapable : Bool := false
  sessionId : ℕ := 0
  armEpoch : ℕ := 0
  referenceMode : Bool := false
  modelDigest : Digest := 0
  referenceSeq : ℕ := 0
  uploadId : ℕ := 0
  uploadCancel : Bool := true
  stop : Bool := false
  groupCommitting : Bool := false
  waitSeq : Option ℕ := none
  /-- operation and result of the reply that has come -/
  reply : Option (ℕ × ReferenceResult) := none
  call : Option Call := none
  /-- callers that wait for the lock, with their scope -/
  waiting : List (Operation × ℕ × ℕ) := []
  /-- frames that other threads are about to send -/
  sending : List Body := []
  newest : Option Upload := none
  results : List Outcome := []

namespace Exchange

/-- `_reference_scope` -/
def current (s : Exchange) (session epoch : ℕ) : Bool :=
  s.referenceMode && epoch != 0 && session == s.sessionId && epoch == s.armEpoch

def ends (s : Exchange) (r : Outcome) : Exchange := { s with results := s.results ++ [r] }

/-- `_reference_exchange` has raised, and with it the call -/
def fail (s : Exchange) (c : Call) (e : LinkError) : Exchange :=
  { s with
    call := none, waitSeq := none, reply := none
    groupCommitting := match c.operation with
      | .groupCommit .. => false
      | _ => s.groupCommitting }.ends (.raised c.operation e)

/-- `upload_reference` up to its first exchange -/
def beginUpload (cfg : ServerConfig) (s : Exchange) (a : UploadArgs) (session epoch : ℕ) : Exchange :=
  if h : a.trajectory.admissible s.n = true then
    let u : Upload :=
      { args := a, id := s.uploadId + 1, sessionId := session, armEpoch := epoch, n := s.n
        jointOrderHash := s.jointOrderHash, modelDigest := s.modelDigest, startSeq := s.referenceSeq
        admissible := h }
    let c : Call :=
      { operation := .upload a, sessionId := session, armEpoch := epoch, upload := some u
        frames := u.frames cfg.sha256, stage := .start }
    { s with uploadCancel := false, uploadId := s.uploadId + 1, newest := some u, call := some c }
  else { s with uploadCancel := false }.ends (.raised (.upload a) .malformed)

/-- a call, up to the lock -/
def enter (cfg : ServerConfig) (s : Exchange) (op : Operation) (session epoch : Option ℕ) : Exchange :=
  let session := session.getD s.sessionId
  let epoch := epoch.getD s.armEpoch
  if op.isGroup = true ∧ s.groupCapable = false then s.ends (.raised op .noGroup)
  else if s.current session epoch = false then s.ends (.raised op .notCurrent)
  else
    match op with
    | .upload a =>
      if s.call.isSome then s.ends (.raised op .inProgress) else s.beginUpload cfg a session epoch
    | _ =>
      { s with
        uploadCancel := s.uploadCancel || op.interrupts s.groupCommitting
        groupCommitting := match op with
          | .groupCommit .. => true
          | _ => s.groupCommitting
        waiting := s.waiting ++ [(op, session, epoch)] }

/-- the lock is free, and a caller gets it -/
def acquire (s : Exchange) (i : ℕ) : Exchange :=
  match s.call, s.waiting[i]? with
  | none, some (op, session, epoch) =>
    let s := { s with waiting := s.waiting.eraseIdx i, uploadCancel := if op.clears then false else s.uploadCancel }
    match op.frame s.uploadId session epoch with
    | none => s.ends (.answered op)
    | some body =>
      { s with
        call := some
          { operation := op, sessionId := session, armEpoch := epoch, upload := none, frames := [body]
            stage := .start } }
  | _, _ => s

/-- the reply is there -/
def finish (s : Exchange) (c : Call) (rest : List Body) : Exchange :=
  let s := { s with waitSeq := none, reply := none }
  match rest with
  | _ :: _ => { s with call := some { c with frames := rest, stage := .start } }
  | [] =>
    { s with
      call := none
      groupCommitting := match c.operation with
        | .groupCommit .. => false
        | _ => s.groupCommitting }.ends
      (match c.upload with
        | some u => .uploaded u
        | none => .answered c.operation)

def isCommit : Body → Bool
  | .referenceCommit _ => true
  | _ => false

/-- one step of the caller that has the lock: `ok`, the frame could be sent; `expired`, the deadline of the
wait has passed -/
def advance (s : Exchange) (ok expired : Bool) : Exchange :=
  match s.call with
  | none => s
  | some c =>
    match c.frames with
    | [] => s
    | body :: rest =>
      match c.stage with
      | .start =>
        let seq := s.referenceSeq + 1
        if s.current c.sessionId c.armEpoch = false then s.fail c .notCurrent
        else
          let s := { s with referenceSeq := seq }
          if 2 ^ 32 ≤ seq then s.fail c .exhausted
          else if (s.referenceMode && body.valid && packs body) = false then s.fail c .malformed
          else { s with waitSeq := some seq, reply := none, call := some { c with stage := .flag 0 seq } }
      | .flag attempt seq =>
        if s.uploadCancel || s.stop then
          s.fail c (if attempt = 0 ∧ isCommit body = true then .cancelledBeforeDispatch seq else .interrupted)
        else { s with call := some { c with stage := .scope attempt seq } }
      | .scope attempt seq =>
        if s.current c.sessionId c.armEpoch = false then s.fail c .notCurrent
        else { s with call := some { c with stage := .send attempt seq } }
      | .send attempt seq =>
        if ok then
          { s with
            requests := s.requests ++ [{ seq := seq, body := body }]
            call := some { c with stage := .wait attempt seq } }
        else s.fail c .down
      | .wait attempt seq =>
        match s.reply with
        | some (operation, result) =>
          if operation ≠ body.opcode ∨ result ≠ .ok then s.fail c (.refused body.opcode result)
          else s.finish c rest
        | none =>
          if s.uploadCancel || s.stop then s.fail c .interrupted
          else if expired = false then s
          else if attempt = 0 then { s with call := some { c with stage := .flag 1 seq } }
          else s.fail c .noAcknowledgement

/-! ## the other threads -/

/-- the frames that are not `_reference_exchange`'s -/
def otherFrame : Body → Bool
  | .arm | .disarm | .ping | .status | .setActive | .claim _ | .referenceMode _ | .modeSelect _ | .unknown => true
  | _ => false

/-- `_send_control` up to its send: an ARM or a DISARM raises the flag -/
def prepare (s : Exchange) (b : Body) : Exchange :=
  if otherFrame b then
    { s with sending := s.sending ++ [b], uploadCancel := s.uploadCancel || b == .arm || b == .disarm }
  else s

def transmit (s : Exchange) (i : ℕ) (ok : Bool) : Exchange :=
  match s.sending[i]? with
  | none => s
  | some b =>
    let s := { s with sending := s.sending.eraseIdx i }
    if ok then { s with requests := s.requests ++ [{ body := b }] } else s

/-- what the client's reader takes for a reply to an exchange: `unpack_reference_control` lets it through -/
def heard : Reply → Option (ℕ × ℕ × ReferenceResult)
  | .reference r seq =>
    if r.result ≠ .groupRefused ∧ r.result ≠ .groupPeer ∧ 32 ≤ r.operation ∧ r.operation ≤ 37 then
      some (seq, r.operation, r.result)
    else none
  | .group r seq =>
    if r.groupId ≠ 0 ∧ 39 ≤ r.operation ∧ r.operation ≤ 41 ∧ r.peerVerdict ≤ 4 then
      some (seq, r.operation, r.result)
    else none
  | _ => none

/-- `_ctl_loop` reads the next reply -/
def deliver (s : Exchange) : Exchange :=
  match s.replies[s.received]? with
  | none => s
  | some r =>
    let s := { s with received := s.received + 1 }
    match (if s.referenceMode then heard r else none) with
    | none => s
    | some (seq, operation, result) =>
      if s.waitSeq = some seq then { s with reply := some (operation, result) } else s

/-- the control thread; a frame has arrived when `env.frame` is there -/
def control (cfg : ServerConfig) (ids : SessionIds) (s : Exchange) (env : CtlEnv) : Exchange :=
  if s.srv.pc = .closed then s
  else
    let frame := if s.srv.pc = .recv ∧ env.hangup = false ∧ env.frame.isSome then s.requests[s.served]? else none
    let srv := s.srv.controlStep cfg ids { env with frame := frame }
    { s with
      srv := srv
      served := if frame.isSome then s.served + 1 else s.served
      replies := s.replies ++ srv.sent.drop s.srv.sent.length }

end Exchange

inductive ExchangeEvent where
  | call (op : Operation) (session epoch : Option ℕ)
  | acquire (i : ℕ)
  | advance (ok expired : Bool)
  /-- `interrupt_reference_upload` -/
  | interrupt
  /-- `close` -/
  | stop
  | prepare (b : Body)
  | transmit (i : ℕ) (ok : Bool)
  | deliver
  /-- what `negotiate_reference`, `enable_all` and `safe_stop` leave -/
  | negotiated (digest : Digest)
  | epoch (armEpoch : ℕ)
  | control (env : CtlEnv)
  | servo (env : RtEnv)
  | datagram (e : CommandEnvelope)

namespace Exchange

def step (cfg : ServerConfig) (ids : SessionIds) (s : Exchange) : ExchangeEvent → Exchange
  | .call op session epoch => s.enter cfg op session epoch
  | .acquire i => s.acquire i
  | .advance ok expired => s.advance ok expired
  | .interrupt => { s with uploadCancel := true }
  | .stop => { s with stop := true }
  | .prepare b => s.prepare b
  | .transmit i ok => s.transmit i ok
  | .deliver => s.deliver
  | .negotiated digest => { s with modelDigest := digest, referenceMode := true }
  | .epoch armEpoch => { s with armEpoch := armEpoch }
  | .control env => s.control cfg ids env
  | .servo env => { s with srv := s.srv.step cfg ids (.servo env) }
  | .datagram e => { s with srv := s.srv.step cfg ids (.datagram e) }

/-- a new connection: nothing is on its way, and the server has no candidate -/
structure Opened (s : Exchange) : Prop where
  requests : s.requests = []
  replies : s.replies = []
  results : s.results = []
  reply : s.reply = none
  call : s.call = none
  newest : s.newest = none
  sending : s.sending = []
  candidate : ∀ r ∈ s.srv.loc.upload, r.present = false
  commitReply : s.srv.loc.commitReply.operation ≠ sealOp

/-- the server holds the sealed candidate of the upload -/
def Holds (s : Exchange) (u : Upload) : Prop :=
  ∃ r ∈ s.srv.loc.upload, r.present = true ∧ r.isSealed = true ∧ r.candidate.identity = u.opening ∧
    r.candidate.curve = u.args.trajectory.native u.n

/-! ## the candidate and one upload -/

/-- the upload that a frame adds to -/
def named : Body → ℕ
  | .referenceBegin b => b.uploadId
  | .referenceChunk c => c.uploadId
  | .referenceSeal p => p.uploadId
  | _ => 0

/-- a frame that adds to the upload is one of its own -/
def Own (u : Upload) : Body → Prop
  | .referenceBegin b => b.uploadId = u.id → b = u.opening
  | .referenceChunk c => c.uploadId = u.id → c.data = Bytes.slice u.body c.offset c.length
  | _ => True

/-- a part of the upload, in order -/
structure Part (u : Upload) (r : ReferenceUpload) : Prop where
  identity : r.candidate.identity = u.opening
  bytes : r.bytes = u.body.take r.bytes.length
  curve : r.isSealed = true → r.candidate.curve = u.args.trajectory.native u.n

/-- a candidate with the id of the upload is a part of it -/
def Matches (u : Upload) (r : ReferenceUpload) : Prop :=
  r.present = true → r.candidate.identity.uploadId = u.id → Part u r

/-- the id is used up, and a candidate with it is sealed -/
def Past (id : ℕ) (o : Option ReferenceUpload) : Prop :=
  ∃ r ∈ o, id ≤ r.lastUpload ∧ (r.present = true → r.candidate.identity.uploadId = id → r.isSealed = true)

theorem opening_hermite (u : Upload) : u.opening.hermite = u.args.trajectory.velocities.isSome := by
  show u.flags.testBit 0 = _
  unfold Upload.flags
  cases u.args.trajectory.velocities.isSome <;> cases u.args.terminal <;> rfl

/-- the parse of the whole body -/
theorem decodeCurve_upload (u : Upload) :
    ReferenceUpload.decodeCurve u.opening u.body = u.args.trajectory.native u.n :=
  decodeCurve_body (shape_of_admissible u.admissible) rfl rfl (opening_hermite u)

section
variable {cfg : ServerConfig} {env : CtlEnv} {u : Upload} {r r' : ReferenceUpload} {f : ControlPacket}
  {oks : List (ℕ × ℕ)}

theorem matches_begin (h : Matches u r) {b : ReferenceBeginPayload} (hb : Own u (.referenceBegin b))
    (id revision : ℕ) : Matches u (r.begin b id revision).2 := by
  have hmove := @Upload.move_begin (fun _ => 0) r b id revision
  generalize (r.begin b id revision).2 = r' at hmove
  generalize (r.begin b id revision).1 = result at hmove
  cases hmove with
  | refuse => exact h
  | retryBegin => exact h
  | openBegin =>
    intro _ hid
    exact ⟨hb hid, rfl, nofun⟩

theorem matches_chunk (h : Matches u r) {c : ReferenceChunkPayload} (hc : Own u (.referenceChunk c)) :
    Matches u (r.chunk c).2 := by
  have hmove := @Upload.move_chunk (fun _ => 0) r c
  generalize (r.chunk c).2 = r' at hmove
  generalize (r.chunk c).1 = result at hmove
  cases hmove with
  | refuse => exact h
  | retryChunk => exact h
  | nextChunk _ hp hs hpiece hoff =>
    intro _ hid
    have hpart := h hp hid
    refine ⟨hpart.identity, ?_, fun hsealed => absurd (hs.symm.trans hsealed) Bool.false_ne_true⟩
    have hdata := hc (hpiece.upload.trans hid)
    rw [hoff, Bytes.slice] at hdata
    show r.bytes ++ c.data = u.body.take (r.bytes ++ c.data).length
    rw [List.length_append, hpiece.data, List.take_add, ← hpart.bytes, ← hdata]

theorem matches_seal (h : Matches u r) (p : ReferenceSealPayload) (now : ℕ) :
    Matches u (r.seal cfg.sha256 p now).2 := by
  have hmove := @Upload.move_seal cfg.sha256 r p now
  generalize (r.seal cfg.sha256 p now).2 = r' at hmove
  generalize (r.seal cfg.sha256 p now).1 = result at hmove
  cases hmove with
  | refuse => exact h
  | retrySeal => exact h
  | badCurve _ _ hs =>
    intro hp hid
    have hpart := h hp hid
    exact ⟨hpart.identity, hpart.bytes, fun hsealed => absurd (hs.symm.trans hsealed) Bool.false_ne_true⟩
  | firstSeal _ _ hp hs hlen =>
    intro _ hid
    have hpart := h hp hid
    have hbytes : r.bytes = u.body := by
      rw [hpart.bytes, hlen, hpart.identity]
      exact List.take_length
    refine ⟨hpart.identity, hpart.bytes, fun _ => ?_⟩
    show ReferenceUpload.decodeCurve r.candidate.identity r.bytes = _
    rw [hpart.identity, hbytes]
    exact decodeCurve_upload u

theorem matches_call (h : Matches u r) (hf : Own u f.body) (hc : Server.UploadCall cfg env r f r' oks) :
    Matches u r' := by
  cases hc with
  | «begin» b id revision hb =>
    rw [hb] at hf
    exact matches_begin h hf id revision
  | chunk c hb =>
    rw [hb] at hf
    exact matches_chunk h hf
  | «seal» p hb => exact matches_seal h p env.now

theorem matches_fades {o o' : Option ReferenceUpload} (h : ∀ r ∈ o, Matches u r) (hfades : Fades o o') :
    ∀ r ∈ o', Matches u r := by
  intro r' hr' hp hid
  obtain ⟨r, hr, hrp, hcand, hseal, hbytes⟩ := hfades.candidate r' hr' hp
  have hpart := h r hr hrp (hcand ▸ hid)
  exact ⟨hcand ▸ hpart.identity, hbytes ▸ hpart.bytes, fun hs => hcand ▸ hpart.curve (hseal ▸ hs)⟩

/-- a SEAL answered OK leaves the sealed candidate that it names -/
theorem seal_ok {sha256 : List (BitVec 8) → Digest} {p : ReferenceSealPayload} {now : ℕ}
    (h : (r.seal sha256 p now).1 = .ok) : (r.seal sha256 p now).2.present = true ∧
      (r.seal sha256 p now).2.isSealed = true ∧ (r.seal sha256 p now).2.candidate.identity.uploadId = p.uploadId := by
  revert h
  unfold ReferenceUpload.seal
  dsimp only
  split
  · exact nofun
  · split
    · exact nofun
    · rename_i hp
      push Not at hp
      rw [ne_eq, Bool.not_eq_false] at hp
      split
      · exact nofun
      · split
        · exact nofun
        · split
          · rename_i hs
            exact fun _ => ⟨hp.1, hs, hp.2.symm⟩
          · split
            · exact nofun
            · exact fun _ => ⟨hp.1, rfl, hp.2.symm⟩

theorem call_oks (hc : Server.UploadCall cfg env r f r' oks) {x : ℕ × ℕ} (hx : x ∈ oks) :
    x.2 = f.seq ∧ (∃ p, f.body = .referenceSeal p ∧ p.uploadId = x.1) ∧ r'.present = true ∧ r'.isSealed = true ∧
      r'.candidate.identity.uploadId = x.1 := by
  cases hc with
  | «begin» => cases hx
  | chunk => cases hx
  | «seal» p hb =>
    split at hx
    · rename_i hok
      obtain rfl := List.mem_singleton.mp hx
      obtain ⟨hp, hs, hid⟩ := seal_ok hok.1
      exact ⟨rfl, ⟨p, hb, rfl⟩, hp, hs, hid⟩
    · cases hx

/-- the ids of candidates are used up -/
def Used (r : ReferenceUpload) : Prop := r.present = true → r.candidate.identity.uploadId ≤ r.lastUpload

/-- what a call does to the id of the candidate -/
theorem call_id (hc : Server.UploadCall cfg env r f r' oks) :
    (r'.lastUpload = r.lastUpload ∧ r'.present = r.present ∧ r'.candidate.identity = r.candidate.identity ∧
      (r.isSealed = true → r'.isSealed = true)) ∨
    (∃ b, f.body = .referenceBegin b ∧ r.lastUpload < b.uploadId ∧ r'.lastUpload = b.uploadId ∧
      r'.candidate.identity = b) := by
  cases hc with
  | «begin» b id revision hb =>
    have hmove := @Upload.move_begin (fun _ => 0) r b id revision
    generalize (r.begin b id revision).2 = r' at hmove ⊢
    generalize (r.begin b id revision).1 = result at hmove
    cases hmove with
    | refuse => exact .inl ⟨rfl, rfl, rfl, fun hs => hs⟩
    | retryBegin => exact .inl ⟨rfl, rfl, rfl, fun hs => hs⟩
    | openBegin _ _ _ hp hbound hv hid => exact .inr ⟨b, hb, hid, rfl, rfl⟩
  | chunk c hb =>
    have hmove := @Upload.move_chunk (fun _ => 0) r c
    generalize (r.chunk c).2 = r' at hmove ⊢
    generalize (r.chunk c).1 = result at hmove
    cases hmove <;> exact .inl ⟨rfl, rfl, rfl, fun hs => hs⟩
  | «seal» p hb =>
    have hmove := @Upload.move_seal cfg.sha256 r p env.now
    generalize (r.seal cfg.sha256 p env.now).2 = r' at hmove ⊢
    generalize (r.seal cfg.sha256 p env.now).1 = result at hmove
    cases hmove with
    | firstSeal => exact .inl ⟨rfl, rfl, rfl, fun _ => rfl⟩
    | _ => exact .inl ⟨rfl, rfl, rfl, fun hs => hs⟩

theorem used_call (h : Used r) (hc : Server.UploadCall cfg env r f r' oks) : Used r' := by
  rcases call_id hc with ⟨hlast, hp, hid, -⟩ | ⟨b, -, -, hlast, hid⟩
  · intro hp'
    rw [hid, hlast]
    exact h (hp ▸ hp')
  · intro _
    rw [hid, hlast]

theorem past_call {id : ℕ} (h : Past id (some r)) (hc : Server.UploadCall cfg env r f r' oks) :
    Past id (some r') := by
  obtain ⟨v, hv, hlt, hsealed⟩ := h
  obtain rfl := Option.mem_some_iff.mp hv
  refine ⟨r', rfl, ?_⟩
  rcases call_id hc with ⟨hlast, hp, hid, hs⟩ | ⟨b, -, hb, hlast, hid⟩
  · rw [hlast, hp, hid]
    exact ⟨hlt, fun hp' hid' => hs (hsealed hp' hid')⟩
  · rw [hlast, hid]
    exact ⟨by omega, fun _ hid' => by omega⟩

end

section
variable {o o' : Option ReferenceUpload}

theorem used_fades (h : ∀ r ∈ o, Used r) (hfades : Fades o o') : ∀ r ∈ o', Used r := by
  intro r' hr' hp
  obtain ⟨r, hr, hrp, hcand, -⟩ := hfades.candidate r' hr' hp
  obtain ⟨v, hv, hlast⟩ := hfades.last r hr
  obtain rfl := Option.mem_unique hr' hv
  rw [hcand, hlast]
  exact h r hr hrp

theorem past_fades {id : ℕ} (h : Past id o) (hfades : Fades o o') : Past id o' := by
  obtain ⟨r, hr, hlt, hsealed⟩ := h
  obtain ⟨r', hr', hlast⟩ := hfades.last r hr
  refine ⟨r', hr', hlast ▸ hlt, fun hp hid => ?_⟩
  obtain ⟨v, hv, hvp, hcand, hs, -⟩ := hfades.candidate r' hr' hp
  obtain rfl := Option.mem_unique hr hv
  rw [hs]
  exact hsealed hvp (hcand ▸ hid)

end

end Exchange
end ArmControl.RemoteRt
