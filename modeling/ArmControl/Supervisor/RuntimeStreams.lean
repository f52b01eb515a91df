import ArmControl.Supervisor.RuntimeLedger

/-!
# Streams (`stream/1` of `RobotRuntime` in `supervisor/runtime.py`)

* `streamFactsError`, `streamCheck`      why a candidate does not fit, found before the admission worker is asked;
* `openStream`, `streamAnchor`, `reviseStream`, `abortStreamRevision`   what a client calls;
* `streamFail`                           the end of an attempt that was not selected;
* `streamStep`                           what a tick does for the live stream.

The checks on curves come from outside, as do the spliced curve and the knot that an anchor names.  An anchor's random
name is the number of the question that was asked for it.
-/

namespace ArmControl.Supervisor.RobotRuntime
open ArmControl.Execution ArmControl.Control ArmControl.RemoteRt

/-- `a or b or …` -/
def firstReason (reasons : List String) : String := (reasons.find? fun r => r != "").getD ""

def refuseIf (c : Prop) [Decidable c] (text : String) : Call Unit := if c then refuse text else pure ()

/-! ## who may ask -/

def owns (session : String) : Call Unit := do
  let s ← read
  if session ∈ s.closedSessions then refuse "this client session is closed"
  else if s.owner = some session then pure ()
  else
    refuse (if s.owner.isSome then s.cfg.instanceId ++ " is owned by another client"
      else "claim " ++ s.cfg.instanceId ++ " first")

/-- `_get` -/
def getExecution (e : ExecutionId) : Call Execution := do
  let s ← read
  match s.executions e with
  | some ex => return ex
  | none => throw (.refused ("unknown execution " ++ toString e))

/-- `_stream_get` -/
def getStream (session : String) (e : ExecutionId) : Call (Execution × Stream) := do
  let ex ← getExecution e
  match ex.stream.filter fun st => st.owner == session with
  | some st => return (ex, st)
  | none => throw (.refused "stream is not owned by this service session")

/-! ## the trusted facts -/

/-- why the stream no longer fits its composition; `""` fits -/
def streamFactsError (s : RobotRuntime) (st : Stream) (a : Answer) : String :=
  if s.controller.soft then "stream requires joint-impedance mode"
  else if s.payloadMass ≠ 0 ∨ st.payloadRevision ≠ s.payloadRevision then
    "transient PC compensation payload must be zero for stream/1"
  else if a.facts ≠ st.facts then "model/scene/policy snapshot changed"
  else if s.controller.modelToken ≠ some a.facts.modelToken ∨ a.facts.modelToken ≠ st.opened.modelToken then
    "stream model differs from bound execution model"
  else if a.facts.sceneToken ≠ st.opened.sceneToken ∨
      a.facts.policy.streamPolicyId ≠ st.opened.streamPolicyId then
    "stream scene/policy differs from trusted composition"
  else if s.owner ≠ some st.epoch.1 ∨ st.epoch.2 ≠ (a.session, s.authority.armEpoch) then
    "stream owner/session/ARM epoch changed"
  else if a.gainsKept = false then "stream gains changed"
  else ""

/-- the checks before the worker is asked -/
def streamCheck (s : RobotRuntime) (ex : Execution) (st : Stream) (q : StreamRequest) (a : Answer) : String :=
  firstReason
    [ s.streamFactsError st a,
      admissionRefusal { ex.request with admitBy := q.admitBy } s.cfg.identity s.cfg.capabilities s.authority
        (s.stamp a.now) s.controller.modelToken,
      if q.strayScene st.facts.sceneToken then "revision scene differs from stream" else "",
      if q.admitBy.any fun by_ => by_.domain != s.cfg.domain then "deadline belongs to another PC clock" else "",
      if s.validity ≠ .valid then "fresh finite position/velocity required" else "",
      a.check ]

/-! ## attempts -/

def deadlineOf (q : StreamRequest) (now maxAgeNs : ℕ) : ℕ :=
  match q.admitBy with
  | none => now + maxAgeNs
  | some by_ => min (now + maxAgeNs) by_.ns

def newAttempt (owner : String) (q : StreamRequest) (e : ExecutionId) (facts : StreamFacts) (curve : JointTrajectory)
    (now : ℕ) : Attempt :=
  { owner := owner, request := q, executionId := e
    expectedRevision := match q with
      | .opening _ => none
      | .revision r => some r.expectedRevision
    revision := match q with
      | .opening _ => 1
      | .revision r => r.expectedRevision + 1
    curve := curve, facts := facts, deadlineNs := deadlineOf q now facts.policy.maxCandidateAgeNs }

/-- `_stream_attempts[owner, rid] = attempt`; the key is new -/
def putAttempt (s : RobotRuntime) (a : Attempt) : RobotRuntime := { s with streamAttempts := s.streamAttempts ++ [a] }

def streamRetry (session : String) (q : StreamRequest) : Call (Option Attempt) := do
  owns session
  let s ← read
  if s.cfg.native = false ∨ s.cfg.streamAdmission = false then
    throw (.refused "stream/1 requires native reference and trusted admission")
  else
    match s.attempt session q.requestId with
    | none => return none
    | some old =>
      if old.request ≠ q then throw (.refused "request_id already used with different content") else return some old

def streamSlot (session : String) (sequence : ℕ) (kind : (ℕ × ℕ) → ℕ) : Call Unit := do
  let s ← read
  refuseIf (sequence ≤ kind (s.streamMarks session)) "stale sequence or evicted history"
  refuseIf (s.streamJob.isSome) "admission worker busy; no queued intents"

def markOpen (s : RobotRuntime) (session : String) (seq : ℕ) : RobotRuntime :=
  { s with streamMarks := Function.update s.streamMarks session (seq, (s.streamMarks session).2) }

def markProposal (s : RobotRuntime) (session : String) (seq : ℕ) : RobotRuntime :=
  { s with streamMarks := Function.update s.streamMarks session ((s.streamMarks session).1, seq) }

/-- even a refusal found at once is completed by the worker -/
def queueStreamCheck (e : ExecutionId) (st : Stream) (q : StreamRequest) : Call Unit := do
  let a ← ask
  beside fun s =>
    match s.executions e with
    | none => s
    | some ex => { s with streamJob := some (e, q.requestId, s.streamCheck ex st q a) }

/-! ## what ends an attempt -/

def streamFail (e : ExecutionId) (owner rid reason : String) (refused expired : Bool) : Call Unit := do
  let s ← read
  match s.executions e, s.attempt owner rid with
  | some ex, some a => do
    let phase : Phase := if expired ∧ a.phase = .admitted then .expired else .rejected
    let selected := ex.stream.bind Stream.selected
    if a.uploadStarted ∧ selected.isSome then do
      -- a refused COMMIT can leave the sealed upload in the slot
      let h ← link s.native.abortCandidate
      beside fun s => { s with native := h }
    else pure ()
    beside fun s => s.updateAttempt owner rid fun a =>
      { a with
        phase := phase, reason := reason
        selectionState := if refused then .refused else a.selectionState }
    markStream e fun st => { st with pending := none }
    beside fun s => { s with nativePending := none }
    if selected = none ∧ ex.live then do
      receipt e phase reason []
      let s ← read
      if s.controller.plan = some e then dropStaged e reason else pure ()
    else pure ()
  | _, _ => pure ()

def abortStreamRevision (session : String) (e : ExecutionId) (rid : String) : Call Attempt := do
  owns session
  let (ex, st) ← getStream session e
  let s ← read
  match (s.attempt session rid).filter fun a => a.executionId == e with
  | none => throw (.refused "revision history unavailable")
  | some a =>
    -- a pending selection is uncertain: nothing changes
    if a.selectionState ≠ .notRequested ∨ st.pending ≠ some rid then return a
    else do
      if a.uploadStarted then do
        let h ← link s.native.abortCandidate
        beside fun s => { s with native := h }
      else pure ()
      let phase : Phase := if a.phase = .requested then .rejected else .cancelled
      beside fun s => s.updateAttempt session rid fun a => { a with phase := phase, reason := "candidate aborted" }
      markStream e fun st => { st with pending := none }
      if st.selected = none ∧ ex.live then do
        receipt e phase "candidate aborted" []
        dropStaged e "candidate aborted"
      else pure ()
      return { a with phase := phase, reason := "candidate aborted" }

/-! ## what a client calls -/

/-- the status of the stream that was opened, or that the request had opened before -/
def openStream (session : String) (o : StreamOpen) : Call ExecutionStatus := do
  match ← streamRetry session (.opening o) with
  | some old => do
    let ex ← getExecution old.executionId
    return ex.status
  | none => do
    streamSlot session o.openSeq Prod.fst
    let s ← read
    refuseIf (s.current.isSome) "execution busy; cancel explicitly before opening another stream"
    let a ← ask
    let s ← read
    let st : Stream :=
      { owner := session, opened := o, facts := a.facts, epoch := (session, a.session, s.authority.armEpoch)
        payloadRevision := s.payloadRevision, pending := some o.requestId }
    .attempt (opening o st a.now)
    beside fun t => (t.putAttempt (newAttempt session (.opening o) s.ids a.facts o.initial a.now)).markOpen session o.openSeq
    queueStreamCheck s.ids st (.opening o)
    let ex ← getExecution s.ids
    return ex.status

def streamAnchor (session : String) (e : ExecutionId) : Call SpliceAnchor := do
  owns session
  let (ex, st) ← getStream session e
  let a ← ask
  let s ← read
  let h := s.native
  refuseIf (ex.live = false ∨ ex.drop.isSome ∨ st.pending.isSome ∨ h.busy ∨ h.key ≠ some e) "stream candidate slot unavailable"
  refuseIf (h.selected = false ∨ h.terminal ∨ s.validity ≠ .valid) "stream is stale, unselected or terminal"
  match st.anchor.filter fun anchor => decide (a.now < anchor.expiresNs) with
  | some anchor => return anchor
  | none => do
    refuseIf (a.check ≠ "") "no eligible whole-segment cut in selected reference"
    let anchor : SpliceAnchor :=
      { anchorId := s.reads, expectedRevision := h.revision, cutPhase := a.cut
        expiresNs := a.now + st.facts.policy.maxCandidateAgeNs }
    markStream e fun st => { st with anchor := some anchor }
    return anchor

/-- the anchor that a revision consumes -/
def eligibleAnchor (s : RobotRuntime) (st : Stream) (r : StreamRevision) (now : ℕ) : Option SpliceAnchor :=
  st.anchor.filter fun anchor =>
    anchor.anchorId == r.anchorId && decide (now < anchor.expiresNs) && r.expectedRevision == anchor.expectedRevision &&
      s.native.revision == r.expectedRevision

def reviseStream (session : String) (r : StreamRevision) : Call Attempt := do
  match ← streamRetry session (.revision r) with
  | some old => return old
  | none => do
    let (ex, st) ← getStream session r.executionId
    streamSlot session r.proposalSeq Prod.snd
    let a ← ask
    let s ← read
    refuseIf (ex.live = false ∨ ex.drop.isSome ∨ st.pending.isSome ∨ s.native.busy ∨ s.native.key ≠ some r.executionId)
      "stream candidate slot unavailable"
    match s.eligibleAnchor st r a.now with
    | none => throw (.refused "anchor is missing, consumed, expired or belongs to another revision")
    | some anchor => do
      -- an accepted intent consumes its challenge and its sequence
      let fresh := newAttempt session (.revision r) r.executionId st.facts r.suffix a.now
      let fresh : Attempt :=
        { fresh with deadlineNs := min fresh.deadlineNs anchor.expiresNs, cut := anchor.cutPhase, terminal := r.terminal }
      beside fun s => (s.putAttempt fresh).markProposal session r.proposalSeq
      markStream r.executionId fun st => { st with anchor := none, pending := some r.requestId }
      let b ← ask
      if b.check ≠ "" then streamFail r.executionId session r.requestId b.check false false
      else do
        beside fun s => s.updateAttempt session r.requestId fun a => { a with curve := b.curve }
        queueStreamCheck r.executionId st (.revision r)
      let s ← read
      match s.attempt session r.requestId with
      | some a => return a
      | none => return fresh

/-! ## a tick -/

/-- the admission worker answered -/
def finishCheck (e : ExecutionId) (rid reason : String) : Call Bool := do
  let a ← ask
  let s ← read
  match s.liveExecution e with
  | none => return false
  | some ex =>
    match ex.stream.filter fun st => st.pending == some rid with
    | none => return false
    | some st =>
      match s.attempt st.owner rid with
      | none => throw (.value "KeyError")
      | some attempt => do
        let reason := firstReason [reason, a.check, s.streamFactsError st a]
        if reason ≠ "" ∨ attempt.deadlineNs ≤ a.now then do
          streamFail e st.owner rid (orElse reason "admission deadline expired") false false
          return false
        else do
          if attempt.request.isOpen then do
            drive fun c =>
              c.onPlan { planId := e, trajectory := attempt.curve, modelToken := ex.request.modelToken } a.reading
            pumpController none true
          else pure ()
          let s ← read
          match s.executions e with
          | none => throw (.value "KeyError")
          | some ex' =>
            if attempt.request.isOpen ∧ ex'.phase ≠ .admitted then do
              streamFail e st.owner rid (orElse ex'.status.reason "controller refused") false false
              return true
            else do
              beside fun s => s.updateAttempt st.owner rid fun a => { a with phase := .admitted }
              if attempt.request.isOpen = false ∨ ex'.request.start = .onAdmit then
                beside fun s => { s with nativePending := some e }
              else pure ()
              return false

/-- the RT ended the reference: the attempts of the stream end with it -/
def failAttempts (s : RobotRuntime) (owner : String) (rids : List String) (revision : ℕ) (reason : String) : RobotRuntime :=
  rids.foldl (fun s rid => s.updateAttempt owner rid fun a =>
    if a.revision = revision then { a with phase := .faulted, selectionState := .selected, reason := reason }
    else { a with phase := .expired, selectionState := .refused, reason := reason }) s

def referenceEnded (h : Horizon) : Bool := h.error == referenceUnderflow || h.error == referenceExpired

def streamReferenceEnded (e : ExecutionId) (ex : Execution) (st : Stream) : Call Unit := do
  let s ← read
  let h := s.native
  if ex.phase = .admitted then
    receipt e .selected "" [.referenceId h.id, .referenceRevision h.revision]
  else pure ()
  receipt e .faulted h.error []
  beside fun s => { s.failAttempts st.owner (st.selected.toList ++ st.pending.toList) h.revision h.error with nativeFailed := true }
  dropStaged e h.error
  markStream e fun st => { st with pending := none, anchor := none }

/-- an admitted candidate gets the slot of the horizon, once it is free -/
def streamUpload (e : ExecutionId) (st : Stream) (attempt : Attempt) (rid : String) : Call Bool := do
  let a ← ask
  let s ← read
  let h := s.native
  if h.busy then do
    if h.key ≠ some e then beside fun s => { s with native := s.native.cancel } else pure ()
    return true
  else do
    let staged :=
      if st.selected = none then
        h.stage (some e) attempt.curve (some attempt.deadlineNs) true false a.session a.armEpoch
      else h.stageSuffix attempt.curve attempt.cut (attempt.expectedRevision.getD 0) attempt.terminal attempt.deadlineNs
    match staged with
    | .error text => streamFail e st.owner rid text false false
    | .ok h =>
      beside fun s =>
        { s with native := h, nativeFailed := false }.updateAttempt st.owner rid fun a => { a with uploadStarted := true }
    return false

def streamApprove (e : ExecutionId) (st : Stream) (rid : String) : Call Unit := do
  let a ← ask
  let s ← read
  let reason := firstReason
    [ selectionRefusal s.authority, s.streamFactsError st a,
      if s.validity ≠ .valid then "observation became stale before selection" else "",
      if st.selected = none then s.controller.releaseError e a.reading else "",
      if st.selected = none then a.check else "" ]
  if reason ≠ "" then streamFail e st.owner rid reason false false
  else do
    beside fun s => s.updateAttempt st.owner rid fun a => { a with selectionState := .pending }
    let h ← link (s.native.approve a.now)
    beside fun s => { s with native := h }

def streamSelected (e : ExecutionId) (ex : Execution) (st : Stream) (rid : String) : Call Unit := do
  beside fun s => s.updateAttempt st.owner rid fun a => { a with phase := .selected, selectionState := .selected }
  markStream e fun st => { st with selected := some rid, pending := none }
  beside fun s => { s with nativePending := none }
  let s ← read
  if ex.phase = .admitted then do
    receipt e .selected "" [.referenceId s.native.id, .referenceRevision s.native.revision]
    let a ← ask
    drive fun c => c.release e a.reading
    pumpController none true
  else pure ()
  let s ← read
  match s.controller.selectReferenceWindow e s.native.terminal with
  | .error text => throw (.value text)
  | .ok c => beside fun s => { s with controller := c }

/-- the pending attempt of the live stream; whether it waits for the slot -/
def streamCandidate (e : ExecutionId) (ex : Execution) (st : Stream) (attempt : Attempt) (rid : String) : Call Bool := do
  let s ← read
  let h := s.native
  if attempt.phase = .admitted ∧ s.nativePending = some e then
    if attempt.uploadStarted = false then streamUpload e st attempt rid
    else do
      if h.candidateSelection = .refused then
        streamFail e st.owner rid h.candidateError true (h.candidateResult == some .late)
      else if h.candidateError ≠ "" ∧ h.candidateSelection = .notRequested then
        streamFail e st.owner rid h.candidateError false false
      else if h.ready then streamApprove e st rid
      else if h.candidateSelection = .selected ∧ h.key = some e ∧ h.revision = attempt.revision then
        streamSelected e ex st rid
      else pure ()
      return false
  else return false

/-- the selected attempt of the stream was applied -/
def streamApplied (e : ExecutionId) : Call Unit := beside fun s =>
  match (s.executions e).bind Execution.stream with
  | none => s
  | some st =>
    match st.selected with
    | none => s
    | some rid =>
      s.updateAttempt st.owner rid fun a =>
        match a.sentSeq, s.tracker.confirmed s.native.epoch with
        | some seq, some confirmed =>
          if a.phase = .sent ∧ epochReached confirmed seq then { a with phase := .applied } else a
        | _, _ => a

def streamLive (e : ExecutionId) (ex : Execution) (st : Stream) : Call Unit := do
  let a ← ask
  let s ← read
  let h := s.native
  if st.anchor.any fun anchor => decide (anchor.expiresNs ≤ a.now) then
    markStream e fun st => { st with anchor := none }
  else pure ()
  if s.streamFactsError st a ≠ "" then cancelExecution e (s.streamFactsError st a)
  else if h.key = some e ∧ referenceEnded h then streamReferenceEnded e ex st
  else do
    match s.attemptAt st.owner st.pending, st.pending with
    | some attempt, some rid =>
      if attempt.selectionState ≠ .pending ∧ attempt.deadlineNs ≤ a.now then
        streamFail e st.owner rid "candidate deadline expired" false true
      else if ← streamCandidate e ex st attempt rid then pure ()
      else streamApplied e
    | _, _ => streamApplied e

/-- whether a stream is live: then the planned path of the tick is not taken -/
def streamStep : Call Bool := do
  let a ← ask
  let s ← read
  let refused ←
    match s.streamJob with
    | some (e, rid, reason) =>
      if a.flag then do
        beside fun s => { s with streamJob := none }
        finishCheck e rid reason
      else pure false
    | none => pure false
  if refused then return true
  else do
    let s ← read
    match (s.current.map ExecutionStatus.executionId).bind fun e => (s.executions e).map fun ex => (e, ex) with
    | none => return false
    | some (e, ex) =>
      match ex.stream with
      | none => return false
      | some st => do
        streamLive e ex st
        return true

end ArmControl.Supervisor.RobotRuntime
