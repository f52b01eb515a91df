import ArmControl.Clients.Session

/-!
# An action-chunk policy client (`clients/chunks.py`, `ActionSpec` of `clients/common.py`)

* `ActionSpec`          what a policy's numbers mean, as its `__post_init__` accepts it, with `toRadians`;
* `Chunk`, `knots`      one answer of the policy, and the positions it asks for;
* `Entry`               what became of each submission, in order;
* `ActionChunkClient`   the state, with `start`, `cancel`, `submit`, `pump`;
* `Input`, `step`       one call; what it raises goes to its caller.
-/

namespace ArmControl.Clients.Chunks

open Execution.Values

inductive Mode where
  | absolute
  | delta
  | other (text : String)
  deriving DecidableEq

inductive Units where
  | rad
  | normalized
  | other (text : String)
  deriving DecidableEq

/-- the map of a normalized spec -/
inductive Normalization where
  | none
  | affine (offset scale : List ℚ)
  deriving DecidableEq

structure ActionSpec where
  joints : List String
  composition : Mode
  units : Units
  horizonS : Option ℚ
  controlProfile : Option String
  normalization : Normalization
  named : joints ≠ []
  stated : composition = .absolute ∨ composition = .delta
  positive : ∀ h ∈ horizonS, 0 < h
  mapped : match units, normalization with
    | .rad, .none => True
    | .normalized, .affine offset scale => offset.length = joints.length ∧ scale.length = joints.length ∧ ∀ s ∈ scale, 0 < s
    | _, _ => False

structure Chunk where
  chunkId : String
  joints : List String
  /-- a row for each knot -/
  values : List (List Value)
  dtS : Value
  observedAt : Checked Stamp
  generation : ℤ
  mode : Mode
  baseQ : Option (List Value)
  units : Units

namespace Chunk

def observedNs (k : Chunk) : ℤ := k.observedAt.val.ns

end Chunk

namespace ActionSpec

variable (p : ActionSpec)

/-- a column-wise map of the rows -/
def scaled (values : List (List Value)) (delta : Bool) : List (List Value) :=
  match p.normalization with
  | .none => values
  | .affine offset scale =>
    values.map fun r =>
      if delta then (Vec.ofRat scale).zipWith (· * ·) r
      else Vec.add (Vec.ofRat offset) ((Vec.ofRat scale).zipWith (· * ·) r)

/-- the values in radians; the composition is the chunk's and must be the spec's -/
def toRadians (values : List (List Value)) (composition : Mode) : Except String (List (List Value)) :=
  if composition ≠ p.composition then .error "chunk composition differs from the spec"
  else if values.any fun r => decide (r.length ≠ p.joints.length) then
    .error "values must be (T, joints): a shape is never broadcast"
  else .ok (p.scaled values (decide (composition = .delta)))

end ActionSpec

structure Config (σ : Type) where
  arm : Arm σ
  ctx : StreamContext
  maxAgeS : ℚ
  holdS : ℚ
  spec : Option ActionSpec
  positive : 0 < maxAgeS
  sameJoints : ∀ p ∈ spec, p.joints = ctx.joints

section
variable {σ : Type} (c : Config σ)

/-- the declared units -/
def inRadians (k : Chunk) : Except String (List (List Value)) :=
  match c.spec with
  | none => .ok k.values
  | some p => p.toRadians k.values k.mode

def finite (rows : List (List Value)) (text : String) : Except String (List (List Value)) :=
  if rows.all Vec.isFinite then .ok rows else .error text

/-- absolute positions, or deltas on `base_q` -/
def composed (k : Chunk) (values : List (List Value)) : Except String (List (List Value)) :=
  match k.mode with
  | .absolute => finite values "the chunk is not finite"
  | .delta =>
    match k.baseQ with
    | none => .error "a delta chunk composes on base_q, the joint position at observation time"
    | some base =>
      if base.length ≠ c.ctx.joints.length then .error "base_q must have one entry per joint (it is never broadcast)"
      else finite (values.map (Vec.add base)) "the composed chunk is not finite"
  | .other _ => .error "unknown composition"

/-- `_knots` -/
def knots (k : Chunk) : Except String (List (List Value)) :=
  if k.values = [] ∨ (k.values.any fun r => decide (r.length ≠ c.ctx.joints.length)) then .error "chunk must be (T, joints)"
  else if maxKnots < k.values.length then .error "a chunk has 1..127 knots"
  else do
    let values ← inRadians c k
    composed c k values

end

/-! ## the client -/

/-- a submission is known by its number -/
inductive Entry where
  | submitted (k : ℕ) (chunk : Chunk)
  | late (k : ℕ) (chunk : Chunk)
  /-- refused before it was sent, or by the supervisor at once -/
  | refused (k : ℕ) (chunk : Chunk)
  | replaced (k : ℕ) (chunk : Chunk) (by_ : Chunk)
  | requested (k : ℕ) (chunk : Chunk)
  /-- a revision was sent; the age was checked at `now` -/
  | revised (k : ℕ) (chunk : Chunk) (session : ℕ) (now : ℤ) (revision : StreamRevision)
  | settled (k : ℕ) (fate : Fate)
  /-- a new generation -/
  | renewed
  | opened (session : ℕ)
  | cancelling (session : ℕ)
  /-- a session is over: its cancel was confirmed, or the supervisor ended it -/
  | gone (session : ℕ)

/-- a chunk, numbered as it was submitted -/
structure Submission where
  number : ℕ
  chunk : Chunk

/-- the revision that is in flight -/
structure Inflight where
  submission : Submission
  requestId : String

structure ActionChunkClient (σ : Type) where
  link : Link σ Entry
  generation : ℤ := 0
  session : Option StreamSession := none
  report : Report := {}
  inflight : Option Inflight := none
  waiting : Option Submission := none
  /-- the newest observation that the RT selected -/
  sentObsNs : ℤ := -1
  cancelPending : Bool := false
  /-- how many chunks were submitted -/
  submissions : ℕ := 0

inductive Answer where
  | sent
  | waiting
  | late
  | refused
  deriving DecidableEq

namespace ActionChunkClient

variable {σ : Type} (c : Config σ)

abbrev Act (σ α : Type) := EStateM Failure (ActionChunkClient σ) α

section
variable (s : ActionChunkClient σ)

def setLink (l : Link σ Entry) : ActionChunkClient σ := { s with link := l }
def setSession (session : Option StreamSession) : ActionChunkClient σ := { s with session := session }
def setReport (r : Report) : ActionChunkClient σ := { s with report := r }
def setInflight (f : Option Inflight) : ActionChunkClient σ := { s with inflight := f }
def setWaiting (w : Option Submission) : ActionChunkClient σ := { s with waiting := w }
def add (e : Entry) : ActionChunkClient σ := { s with link := s.link.add e }
def nextGeneration : ActionChunkClient σ := { s.add .renewed with generation := s.generation + 1 }

end

def linked {α : Type} (m : Clients.Act σ Entry α) : Act σ α := Effect.zoom ActionChunkClient.link (fun l s => s.setLink l) m

/-! ## start and cancel -/

/-- what the expected profile says of the selected one -/
def profileAsExpected (expected profile : Option String) : Act σ (Option String) :=
  match expected with
  | none => pure profile
  | some e =>
    if c.arm.controller = false then
      throw (.needsOperator ("the run expects control profile " ++ e ++ " but the supervisor cannot report its profile"))
    else if profile ≠ some e then
      throw (.needsOperator ("another control profile is selected, the run expects " ++ e))
    else pure profile

/-- the profile cannot be read: an asserted one stops the start -/
def profileUnread (expected : Option String) (e : CallError) : Act σ (Option String) :=
  match expected with
  | some p => throw (.needsOperator ("the run expects control profile " ++ p ++ " but reading the profile failed: " ++ e.text))
  | none => do
    modify fun s => s.setReport (s.report.say ("control profile not recorded: " ++ e.text))
    pure none

/-- `_check_profile` -/
def checkProfile : Act σ (Option String) :=
  let expected := c.spec.bind ActionSpec.controlProfile
  if c.arm.controller = false then profileAsExpected c expected none
  else do
    let r ← linked (attempt c.arm.controllerState)
    match r with
    | .ok state => profileAsExpected c expected state.presetId
    | .error e => profileUnread expected e

/-- a response to anything requested before now can no longer land -/
def renewed (s : ActionChunkClient σ) : ActionChunkClient σ :=
  { s.nextGeneration with inflight := none, waiting := none }

def cancelConfirmed (ss : Option StreamSession) (s : ActionChunkClient σ) : ActionChunkClient σ :=
  match ss with
  | none => { s with session := none, cancelPending := false }
  | some ss => { s.add (.gone ss.serial) with session := none, cancelPending := false }

def cancelUnconfirmed (ss : StreamSession) (s : ActionChunkClient σ) : ActionChunkClient σ :=
  { s with
    session := some ss, cancelPending := true
    report := s.report.say ("CANCEL NOT CONFIRMED: " ++ ss.lastError.getD "None" ++ "; retry cancel()") }

/-- whether the stream cancel was confirmed, or there was none -/
def cancel (reason : String) : Act σ Bool := do
  modify renewed
  let s ← get
  match s.session with
  | none => do
    modify (cancelConfirmed none)
    pure true
  | some ss => do
    let r ← linked (close c.arm (.cancelling ss.serial) ss reason)
    if r.1 then
      modify (cancelConfirmed (some r.2))
      pure true
    else
      modify (cancelUnconfirmed r.2)
      pure false

def opened (ss : StreamSession) (profile : Option String) (s : ActionChunkClient σ) : ActionChunkClient σ :=
  { s.add (.opened ss.serial) with
    session := some ss
    report := { s.report with profileAtStart := profile }
    inflight := none, waiting := none, sentObsNs := -1 }

/-- a stream; chunks produced before this call are late forever -/
def openNew (profile : Option String) : Act σ PUnit := do
  modify nextGeneration
  let ss ← linked (openSession c.arm c.ctx c.holdS)
  modify (opened ss profile)

def start : Act σ PUnit := do
  let profile ← checkProfile c
  let confirmed ← cancel c "restart"
  if confirmed then openNew c profile
  else throw (.needsOperator "previous stream not confirmed cancelled; not opening a second one")

/-! ## the checks of a chunk -/

inductive Verdict where
  | late (reason : String)
  | refused (reason : String)
  deriving DecidableEq

/-- the checks before the clock is read -/
def shapeVerdict (s : ActionChunkClient σ) (k : Chunk) : Option Verdict :=
  if s.cancelPending then some (.late "a cancel is outstanding (not confirmed): the stream is being stopped")
  else if s.session.all StreamSession.closed then some (.late "no open session (a late response does not restart one)")
  else if k.generation ≠ s.generation then some (.late "requested before the last start/cancel")
  else if k.joints ≠ c.ctx.joints then some (.refused "joint names or order differ from the stream context")
  else if (k.dtS.isFinite && (Value.fin 0).lt k.dtS) = false then some (.refused "dt_s must be a positive finite number")
  else if k.units ≠ (c.spec.map ActionSpec.units).getD .rad then some (.refused "this run declared other units")
  else if (c.spec.bind ActionSpec.horizonS).any fun h =>
      (Value.fin (h + 1 / 10 ^ 9)).lt (.fin k.values.length * k.dtS) then
    some (.refused "chunk horizon exceeds the declared one")
  else
    match knots c k with
    | .error reason => some (.refused reason)
    | .ok _ => none

/-- nothing older than this may be sent -/
def newest (s : ActionChunkClient σ) : ℤ := max s.sentObsNs ((s.inflight.map fun f => f.submission.chunk.observedNs).getD (-1))

/-- the checks against the supervisor's clock -/
def ageVerdict (s : ActionChunkClient σ) (k : Chunk) (now : Checked Stamp) : Option Verdict :=
  if now.val.clock ≠ k.observedAt.val.clock ∨ now.val.domain ≠ k.observedAt.val.domain then
    some (.refused "observation stamp is not on the supervisor clock")
  else if c.maxAgeS < ((now.val.ns - k.observedNs : ℤ) : ℚ) / 10 ^ 9 then some (.late "observation older than the deadline")
  else if k.observedNs < s.newest then some (.late "older than the observation of what was already sent")
  else none

/-- `_check`: what speaks against the chunk, or the reading of the clock it passed at -/
def check (k : Chunk) : Act σ (Except Verdict ℤ) := do
  let s ← get
  match s.shapeVerdict c k with
  | some v => pure (.error v)
  | none => do
    let r ← linked (attempt c.arm.now)
    match r with
    | .error e => pure (.error (.refused ("cannot age the observation: " ++ e.text)))
    | .ok now =>
      match s.ageVerdict c k now with
      | some v => pure (.error v)
      | none => pure (.ok now.val.ns)

/-! ## sending -/

def refuse (w : Submission) (reason : String) (s : ActionChunkClient σ) : ActionChunkClient σ :=
  (s.setReport (s.report.refuse w.chunk.chunkId reason)).add (.refused w.number w.chunk)

def drop (w : Submission) (v : Verdict) (s : ActionChunkClient σ) : ActionChunkClient σ :=
  match v with
  | .late reason =>
    (s.setReport { s.report with late := s.report.late ++ [(w.chunk.chunkId, reason)] }).add (.late w.number w.chunk)
  | .refused reason => s.refuse w reason

/-- no usable reply: it stays in flight, and its fate is unknown until `pump` learns it -/
def unanswered (w : Submission) (rid text : String) (s : ActionChunkClient σ) : ActionChunkClient σ :=
  ((s.setReport (((s.report.request w.chunk.chunkId).markUnknown w.chunk.chunkId).say
    (w.chunk.chunkId ++ ": no reply to the revision (" ++ text ++ "); fate unknown"))).add
      (.requested w.number w.chunk)).setInflight (some ⟨w, rid⟩)

def answered (w : Submission) (rid : String) (status : RevisionStatus) (s : ActionChunkClient σ) : ActionChunkClient σ :=
  let s := (s.setReport ((s.report.request w.chunk.chunkId).noteOutcome w.chunk.chunkId status)).add
    (.requested w.number w.chunk)
  if classify status = .refused then s.add (.settled w.number .refused) else s.setInflight (some ⟨w, rid⟩)

/-- what `revise` raised -/
def failed (w : Submission) (rid : String) (e : Failure) : Act σ PUnit :=
  match e with
  | .value text | .call (.refused text) => modify (refuse w text)
  | .call e => modify (unanswered w rid e.text)
  | e => throw e

/-- what came back of a revision -/
def reviseKnots (w : Submission) (now : ℤ) (rid : String) (ss : StreamSession) (q : List (List Value)) :
    Act σ (Except Failure RevisionStatus) :=
  tryCatch
    (do
      let status ← linked (revise c.arm c.ctx (.revised w.number w.chunk ss.serial now) ss rid q w.chunk.dtS false)
      pure (.ok status))
    fun e => pure (.error e)

/-- `_send`, on the session `ss` -/
def sendOn (w : Submission) (now : ℤ) (ss : StreamSession) : Act σ PUnit := do
  let rid ← linked (requestId w.chunk.chunkId)
  match knots c w.chunk with
  | .error reason => modify (refuse w reason)
  | .ok q => do
    let r ← reviseKnots c w now rid ss q
    match r with
    | .ok status => modify (answered w rid status)
    | .error e => failed w rid e

def send (w : Submission) (now : ℤ) : Act σ PUnit := do
  let s ← get
  match s.session with
  | none => throw (.other "'NoneType' object has no attribute 'revise'")
  | some ss => sendOn c w now ss

/-! ## submit and pump -/

def arrived (k : Chunk) (s : ActionChunkClient σ) : ActionChunkClient σ :=
  { s.add (.submitted s.submissions k) with submissions := s.submissions + 1 }

/-- wait behind the revision in flight; what waits already is replaced -/
def wait (w : Submission) (s : ActionChunkClient σ) : ActionChunkClient σ :=
  match s.waiting with
  | none => s.setWaiting (some w)
  | some old =>
    ((s.setReport { s.report with replaced := s.report.replaced ++ [old.chunk.chunkId] }).add
      (.replaced old.number old.chunk w.chunk)).setWaiting (some w)

/-- a chunk that passed at `now` -/
def submitPassed (w : Submission) (now : ℤ) : Act σ Answer := do
  let s ← get
  if s.inflight.isSome then
    modify (wait w)
    pure .waiting
  else do
    send c w now
    let s ← get
    pure (if s.inflight.isSome then .sent else .refused)

def submit (k : Chunk) : Act σ Answer := do
  let s ← get
  set (s.arrived k)
  let r ← check c k
  match r with
  | .error v => do
    modify (drop ⟨s.submissions, k⟩ v)
    pure (match v with
      | .late _ => .late
      | .refused _ => .refused)
  | .ok now => submitPassed c ⟨s.submissions, k⟩ now

/-- the stream ended: it is not restarted from here -/
def ended (ss : StreamSession) (phase : Execution.Phase) (s : ActionChunkClient σ) : ActionChunkClient σ :=
  ({ s with
    session := some { ss with closed := true }, inflight := none, waiting := none
    report := s.report.say ("stream ended: " ++ phase.value) } : ActionChunkClient σ).add (.gone ss.serial)

/-- only what the RT selected is "sent" -/
def landed (f : Inflight) (fate : Fate) (s : ActionChunkClient σ) : ActionChunkClient σ :=
  { s.add (.settled f.submission.number fate) with
    inflight := none
    sentObsNs := if fate = .selected then max s.sentObsNs f.submission.chunk.observedNs else s.sentObsNs }

/-- the waiting chunk, if it is still valid -/
def sendWaiting : Act σ PUnit := do
  let s ← get
  match s.inflight, s.waiting with
  | none, some w => do
    modify (setWaiting · none)
    let r ← check c w.chunk
    match r with
    | .error v => modify (drop w v)
    | .ok now => send c w now
  | _, _ => pure ⟨⟩

/-- the status of the revision in flight: whether it has landed -/
def resolveStatus (f : Inflight) (status : RevisionStatus) : Act σ Bool := do
  modify fun s => s.setReport (s.report.noteOutcome f.submission.chunk.chunkId status)
  match classify status with
  | .refused => do
    modify (landed f .refused)
    pure true
  | .ended => do
    modify (landed f .ended)
    pure true
  | .selected => do
    modify (landed f .selected)
    pure true
  | _ => pure false

/-- its status cannot be read: it may have been selected -/
def resolveUnread (f : Inflight) (e : CallError) : Act σ Bool :=
  match e with
  | .timeout _ => pure false
  | e => do
    modify fun s => (s.setReport ((s.report.say (f.submission.chunk.chunkId ++ ": revision status unavailable (" ++ e.text ++
      "); fate unknown")).markUnknown f.submission.chunk.chunkId)).landed f .selected
    pure true

/-- whether nothing is in flight afterwards -/
def resolve (ss : StreamSession) : Act σ Bool := do
  let s ← get
  match s.inflight with
  | none => pure true
  | some f => do
    let r ← linked (attempt (c.arm.streamRevision ss.executionId f.requestId))
    match r with
    | .ok status => resolveStatus f status
    | .error e => resolveUnread f e

/-- the stream runs -/
def pumpOpen (ss : StreamSession) : Act σ PUnit := do
  let landed ← resolve c ss
  if landed then sendWaiting c else pure ⟨⟩

def viewed (revision : Option ℤ) (s : ActionChunkClient σ) : ActionChunkClient σ :=
  s.setReport { s.report with selectedRevision := revision }

def pump : Act σ PUnit := do
  let s ← get
  match s.session with
  | none => pure ⟨⟩
  | some ss =>
    if ss.closed then pure ⟨⟩
    else do
      let r ← linked (attempt (c.arm.streamState ss.executionId))
      match r with
      | .error e => modify fun s => s.setReport (s.report.say ("stream unreadable: " ++ e.text))
      | .ok view => do
        modify (viewed view.selectedRevision)
        if view.execution.phase.terminal then modify (ended ss view.execution.phase) else pumpOpen c ss

/-! ## runs -/

def initial (world : σ) : ActionChunkClient σ := { link := { world := world } }

inductive Input where
  | start
  | cancel (reason : String)
  | submit (chunk : Chunk)
  | pump

def input : Input → Act σ PUnit
  | .start => start c
  | .cancel reason => do
    let _ ← cancel c reason
    pure ⟨⟩
  | .submit chunk => do
    let _ ← submit c chunk
    pure ⟨⟩
  | .pump => pump c

/-- what a call raises goes to its caller -/
def step (s : ActionChunkClient σ) (i : Input) : ActionChunkClient σ := Effect.leaves (input c i) s

end ActionChunkClient

end ArmControl.Clients.Chunks
