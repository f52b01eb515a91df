import ArmControl.Rt.Protocol
import ArmControl.RemoteRt.Protocol
import ArmControl.Execution.Contract

/-!
# The native horizon (`plants/remote_rt/reference.py`)

One worker thread uploads, commits and retires; the supervisor looks at its jobs once a tick.

* `Horizon`                  the fields of `ReferenceHorizon`;
* `JobResult`, `RetireReply` how the worker's jobs end;
* `stage`, `stageSuffix`, `abortCandidate`, `approve`, `cancel`   what the supervisor calls;
* `pollJob`, `pollCancel`, `observe`, `unresolved`, `refill`      the parts of `poll`, in order.

The envelope sender and the diagnostics are left out.  A worker job is over when `poll` sees it: what
the RT answered comes with the poll.
-/

namespace ArmControl.RemoteRt
open ArmControl.Rt ArmControl.Execution

/-- `State.reference` -/
structure RtReference where
  referenceId : ℕ
  revision : ℕ
  status : ReferenceStatus
  phase : ℚ
  deriving DecidableEq, Inhabited

/-- what the supervisor reads of a state packet -/
structure RtState where
  sessionId : ℕ := 0
  armEpoch : ℕ := 0
  stateSeq : ℕ := 0
  lastCmdSeq : ℕ := 0
  armed : Bool := false
  faulted : Bool := false
  reference : Option RtReference := none
  deriving DecidableEq, Inhabited

def ReferenceResult.code : ReferenceResult → ℕ
  | .ok => 0
  | .malformed => 1
  | .identity => 2
  | .busy => 3
  | .revision => 4
  | .integrity => 5
  | .prefixMismatch => 6
  | .late => 7
  | .retired => 8
  | .notAdmitted => 9
  | .groupRefused => 10
  | .groupPeer => 11

/-! ## the worker -/

inductive Job where
  | stage
  | commit
  | abort
  deriving DecidableEq, Inhabited

/-- how a job of the worker ends -/
inductive JobResult where
  /-- `selectedNs` says whether a COMMIT_GROUP reply carried its stamps -/
  | done (selectedNs : Bool)
  /-- `ReferenceRefused` -/
  | refused (operation : ℕ) (result : ReferenceResult)
  /-- `_NotDispatched`; `late` when the selection deadline had passed -/
  | notDispatched (late : Bool)
  /-- `ReferenceCancelledBeforeDispatch` -/
  | cancelledBeforeDispatch
  /-- any other exception -/
  | failed (text : String)
  deriving DecidableEq, Inhabited

def refusedText (operation : ℕ) (result : ReferenceResult) : String :=
  "reference operation " ++ toString operation ++ " refused: " ++ toString (ReferenceResult.code result)

/-- `str(exc)` -/
def JobResult.text : JobResult → String
  | .done _ => ""
  | .refused operation result => refusedText operation result
  | .notDispatched late =>
    if late then "selection deadline expired before COMMIT" else "no selected phase for revision deadline"
  | .cancelledBeforeDispatch => "COMMIT cancelled before dispatch"
  | .failed text => text

/-- the RT's answer to one CANCEL or ABORT -/
inductive LinkReply where
  | ok
  | refused (result : ReferenceResult)
  /-- any other `RtLinkError` -/
  | failed (text : String)
  deriving DecidableEq, Inhabited

def LinkReply.text (operation : ℕ) : LinkReply → String
  | .ok => ""
  | .refused result => refusedText operation result
  | .failed text => text

/-- the answers of a retirement -/
structure RetireReply where
  /-- the worker found that COMMIT was never dispatched -/
  undispatched : Bool := false
  abort : LinkReply := .ok
  cancel : LinkReply := .ok
  /-- to the CANCEL of the selected older revision -/
  older : LinkReply := .ok
  deriving DecidableEq, Inhabited

/-- how `retire` returned -/
inductive Retired where
  /-- a CANCEL or an ABORT was acknowledged -/
  | acked
  /-- COMMIT was never dispatched, and no revision was selected before -/
  | neverSent
  /-- every CANCEL and ABORT was answered REVISION or RETIRED -/
  | gone
  deriving DecidableEq, Inhabited

/-- what the retirement captured when it was queued -/
structure CancelJob where
  key : Option ExecutionId
  id : ℕ
  revision : ℕ
  selectedRevision : ℕ
  unselected : Bool
  deriving DecidableEq, Inhabited

/-- `retire` -/
def CancelJob.retire (j : CancelJob) (r : RetireReply) : Except String Retired :=
  if j.unselected ∨ r.undispatched then
    -- only a sealed upload can exist
    if r.abort ≠ .ok ∧ r.abort ≠ .refused .retired then .error (r.abort.text 36)
    else if j.unselected = false ∧ j.selectedRevision ≠ 0 then
      if r.older = .ok then .ok .acked
      else if r.older = .refused .revision ∨ r.older = .refused .retired then
        .ok (if r.abort = .ok then .acked else .gone)
      else .error (r.older.text 37)
    else .ok (if r.abort = .ok then .acked else .neverSent)
  else if r.cancel = .ok then .ok .acked
  else if r.cancel ≠ .refused .revision then .error (r.cancel.text 37)
  -- BEGIN of a replacement may not have arrived
  else if j.selectedRevision ≠ 0 ∧ j.selectedRevision ≠ j.revision then
    if r.older = .ok then .ok .acked else .error (r.older.text 37)
  else .ok .gone

/-! ## the horizon -/

inductive CandidateSelection where
  | notRequested
  | pending
  | selected
  | refused
  | unresolved
  deriving DecidableEq, Inhabited

/-- a group COMMIT: group id, member index, budget -/
structure GroupShare where
  groupId : ℕ
  memberIndex : ℕ
  budgetNs : ℕ
  deriving DecidableEq, Inhabited

structure GroupReply where
  key : Option ExecutionId
  groupId : ℕ
  error : String := ""
  deriving DecidableEq, Inhabited

structure Horizon where
  job : Option Job := none
  cancelJob : Option CancelJob := none
  nextId : ℕ := 0
  id : ℕ := 0
  key : Option ExecutionId := none
  times : List ℚ := []
  window : ℕ × ℕ := (0, 0)
  revision_ : ℕ := 0
  cut : ℚ := 0
  stageReady : Bool := false
  selectionRequested : Bool := false
  dropped : List (ExecutionId × DropProof) := []
  error : String := ""
  feedback : Option RtReference := none
  observed : Option RtReference := none
  session : ℕ := 0
  epoch : ℕ := 0
  stream : Bool := false
  terminal : Bool := true
  protectedUntil : ℚ := 0
  candidateSelection : CandidateSelection := .notRequested
  pendingSince : Option ℕ := none
  candidateError : String := ""
  candidateResult : Option ReferenceResult := none
  candidateCurve : Option (List ℚ) := none
  candidateTerminal : Bool := true
  selectionDeadlineNs : Option ℕ := none
  interrupt : Bool := false
  group : Option GroupShare := none
  groupReply : Option GroupReply := none
  groupUsed : Option GroupShare := none
  deriving DecidableEq, Inhabited

/-- `SELECTION_UNRESOLVED_S` -/
def selectionUnresolvedNs : ℕ := 250000000

def referenceUnderflow : String := "REFERENCE_UNDERFLOW"

def referenceExpired : String := "REFERENCE_EXPIRED"

/-- RUNNING or END -/
def RtReference.live (r : RtReference) : Bool := r.status == .running || r.status == .ended

namespace Horizon

def ready (h : Horizon) : Bool := h.stageReady && h.cancelJob.isNone

def busy (h : Horizon) : Bool :=
  if h.stream then
    h.job.isSome || h.cancelJob.isSome || h.stageReady || h.candidateSelection == .pending
  else
    h.job.isSome || h.cancelJob.isSome || h.stageReady ||
      (h.selectionRequested && h.feedback.isNone && !h.interrupt && h.error == "")

def selected (h : Horizon) : Bool := h.feedback.any RtReference.live

/-- the selected revision -/
def revision (h : Horizon) : ℕ := (h.feedback.map RtReference.revision).getD 0

/-- `point` is set exactly when the selected reference runs or rests at its end -/
def point (h : Horizon) : Option ℚ := (h.feedback.filter RtReference.live).map RtReference.phase

def observedPoint (h : Horizon) : Option ℚ := (h.observed.filter RtReference.live).map RtReference.phase

def stageWindow (h : Horizon) (first : ℕ) : Horizon :=
  { h with
    window := (first, min (first + maxReferenceKnots) h.times.length)
    revision_ := h.revision_ + 1
    cut := if h.revision_ = 0 then 0 else h.times.getD (h.window.2 - 2) 0
    stageReady := false, job := some .stage }

def stage (h : Horizon) (key : Option ExecutionId) (trajectory : JointTrajectory) (deadline : Option ℕ)
    (stream terminal : Bool) (session epoch : ℕ) : Except String Horizon :=
  if h.busy then .error "reference transfer already pending"
  else if trajectory.times.head? ≠ some 0 ∨ trajectory.velocities.isNone then
    .error "native execution requires zero-origin Hermite knots"
  else .ok
    (stageWindow
      { h with
        nextId := h.nextId + 1, stream := stream, terminal := terminal, protectedUntil := 0
        candidateSelection := .notRequested, candidateError := "", candidateResult := none
        candidateCurve := none, id := h.nextId + 1, key := key, times := trajectory.times
        selectionRequested := false, selectionDeadlineNs := deadline, session := session
        epoch := epoch, interrupt := false, error := "", feedback := none, groupReply := none
        groupUsed := none, window := (0, 0), revision_ := 0 } 0)

def stageSuffix (h : Horizon) (curve : JointTrajectory) (cut : ℚ) (expectedRevision : ℕ)
    (terminal : Bool) (deadline : ℕ) : Except String Horizon :=
  if h.busy ∨ h.stream = false ∨ h.selected = false ∨ h.terminal then
    .error "stream candidate slot is unavailable"
  else if expectedRevision ≠ h.revision then .error "selected revision changed before upload"
  else .ok
    { h with
      candidateCurve := some curve.times, candidateTerminal := terminal
      revision_ := expectedRevision + 1, cut := cut, selectionDeadlineNs := some deadline
      candidateSelection := .notRequested, candidateError := "", candidateResult := none
      job := some .stage }

/-- only an unselected attempt; never retires the selected stream -/
def abortCandidate (h : Horizon) : Except String Horizon :=
  if h.candidateSelection = .pending then
    .error "selection pending; reconcile RT feedback before abort"
  else .ok { h with job := some .abort, stageReady := false, candidateCurve := none }

def approve (h : Horizon) (now : ℕ) : Except String Horizon :=
  if h.ready = false then .error "reference candidate is not admitted"
  else .ok
    { h with
      group := none, groupReply := none, groupUsed := h.group, stageReady := false
      selectionRequested := true, candidateSelection := .pending, pendingSince := some now
      job := some .commit }

def cancel (h : Horizon) : Horizon :=
  if h.id = 0 ∨ h.interrupt then h
  else
    { h with
      interrupt := true, stageReady := false
      cancelJob := some
        { key := h.key, id := h.id, revision := h.revision_, selectedRevision := h.revision
          unselected := !h.selectionRequested } }

/-! ## the map of drops -/

def droppedHow (h : Horizon) (key : ExecutionId) : Option DropProof := h.dropped.lookup key

/-- a proof is never downgraded to `unconfirmed`; the newest 16 are kept -/
def recordDrop (h : Horizon) (key : Option ExecutionId) (how : DropProof) : Horizon :=
  match key with
  | none => h
  | some key =>
    if how = .unconfirmed ∧ h.droppedHow key ≠ none ∧ h.droppedHow key ≠ some .unconfirmed then h
    else
      let dropped :=
        if h.dropped.any (·.1 == key) then h.dropped.map fun d => if d.1 = key then (key, how) else d
        else h.dropped ++ [(key, how)]
      { h with dropped := dropped.drop (dropped.length - 16) }

/-- a first-revision COMMIT that provably never selected -/
def noteDrop (h : Horizon) (how : DropProof) : Horizon :=
  if h.revision_ = 1 then h.recordDrop h.key how else h

def popDropped (h : Horizon) (key : ExecutionId) : Horizon :=
  { h with dropped := h.dropped.filter (·.1 != key) }

/-! ## poll -/

/-- what an exception of a job does to a stream's candidate -/
def candidateFailed (h : Horizon) (kind : Job) (r : JobResult) : Horizon :=
  let h := { h with candidateError := r.text }
  match kind, r with
  | .commit, .refused _ result =>
    { h with candidateSelection := .refused, candidateResult := some result }.noteDrop .refused
  | .commit, .notDispatched _ =>
    { h with candidateSelection := .refused, candidateResult := some .late }.noteDrop .refused
  | .commit, .cancelledBeforeDispatch =>
    { h with candidateSelection := .notRequested }.noteDrop .undispatched
  -- a timeout after COMMIT never proves nonselection
  | .commit, _ => h
  | .abort, _ => h
  | .stage, _ => { h with candidateSelection := .notRequested }

def jobFailed (h : Horizon) (kind : Job) (r : JobResult) : Horizon :=
  let h := if h.stream then h.candidateFailed kind r else h
  let h :=
    match kind, r with
    -- the RT proved that it did not select
    | .commit, .refused _ _ =>
      if h.revision_ = 1 then { h with selectionRequested := false } else h
    | _, _ => h
  let h :=
    match kind, h.groupUsed with
    | .commit, some g =>
      { h with groupReply := some { key := h.key, groupId := g.groupId, error := r.text } }
    | _, _ => h
  if h.interrupt = false ∧ h.stream = false then { h with error := r.text } else h

def jobDone (h : Horizon) (kind : Job) (selectedNs : Bool) : Horizon :=
  let h := if kind = .stage ∧ h.interrupt = false then { h with stageReady := true } else h
  match kind, h.groupUsed with
  | .commit, some g =>
    if selectedNs then { h with groupReply := some { key := h.key, groupId := g.groupId } } else h
  | _, _ => h

/-- the job, when it is over -/
def pollJob (h : Horizon) (result : Option JobResult) : Horizon :=
  match h.job, result with
  | some kind, some (.done selectedNs) => { h with job := none }.jobDone kind selectedNs
  | some kind, some r => { h with job := none }.jobFailed kind r
  | _, _ => h

/-- the retirement, when it is over -/
def pollCancel (h : Horizon) (reply : Option RetireReply) : Horizon :=
  match h.cancelJob, reply with
  | some j, some r =>
    let h : Horizon :=
      match j.retire r with
      | .error text => { h with error := text }.recordDrop j.key .unconfirmed
      | .ok _ =>
        let h : Horizon := h.recordDrop j.key .ack
        -- the one worker runs CANCEL after any COMMIT: its ack settles a selection nobody observed
        if h.candidateSelection = .pending then { h with candidateSelection := .notRequested } else h
    { h with cancelJob := none, stageReady := false }
  | _, _ => h

/-- the reference of a packet of this session and ARM epoch -/
def bound (h : Horizon) (state : Option RtState) : Option RtReference :=
  state.bind fun st =>
    if st.sessionId = h.session ∧ st.armEpoch = h.epoch then st.reference else none

/-- the selected candidate becomes the trajectory -/
def adopt (h : Horizon) : Horizon :=
  match h.candidateCurve with
  | some times =>
    { h with
      times := times, candidateCurve := none, terminal := h.candidateTerminal
      protectedUntil := h.cut }
  | none => h

/-- one immutable feedback sample -/
def observe (h : Horizon) (state : Option RtState) : Horizon :=
  let ref := h.bound state
  let valid := ref.filter (·.referenceId == h.id)
  let h := { h with observed := ref, feedback := valid }
  match valid with
  | none => h
  | some ref =>
    let h :=
      if h.stream ∧ ref.revision = h.revision_ ∧ (ref.live ∨ ref.status = .underflow) then
        { h with candidateSelection := .selected }.adopt
      else h
    let h := if ref.status = .underflow then { h with error := referenceUnderflow } else h
    -- the RT retired it: its dynamics envelope expired
    if ref.status = .cancelled ∧ h.interrupt = false ∧ h.error = "" then
      { h with error := referenceExpired }
    else h

/-- a stream's COMMIT outcome stayed unknown for too long -/
def unresolved (h : Horizon) (now : ℕ) : Bool :=
  h.stream && h.candidateSelection == .pending && h.error != referenceUnderflow &&
    h.error != referenceExpired && h.pendingSince.any fun since => decide (selectionUnresolvedNs < now - since)

def giveUp (h : Horizon) : Horizon :=
  { h with candidateSelection := .unresolved, candidateError := "selection unresolved" }

/-- `searchsorted(times, t, side='right')` -/
def searchRight (times : List ℚ) (t : ℚ) : ℕ := (times.takeWhile (· ≤ t)).length

/-- the next window of an admitted trajectory -/
def refill (h : Horizon) (now : ℕ) : Horizon :=
  if h.stream ∨ h.interrupt ∨ h.error ≠ "" ∨ h.selected = false then h
  else if h.ready ∧ 1 < h.revision_ then (h.approve now).toOption.getD h
  else
    match h.feedback with
    | none => h
    | some ref =>
      if h.busy = false ∧ ref.revision = h.revision_ ∧ h.window.2 < h.times.length ∧
          h.times.getD (h.window.1 + (h.window.2 - h.window.1) / 2) 0 ≤ ref.phase then
        let start := searchRight h.times ref.phase - 1
        if h.window.2 - 2 ≤ start then { h with error := "reference refill missed protected prefix" }
        else h.stageWindow (max h.window.1 start)
      else h

/-! ## the scope of a horizon: only `stage`, and `cancel` for the interrupt, change it -/

/-- the candidate, its session and ARM epoch, and whether it was cancelled -/
structure Scope where
  nextId : ℕ
  id : ℕ
  session : ℕ
  epoch : ℕ
  interrupt : Bool

def scope (h : Horizon) : Scope := ⟨h.nextId, h.id, h.session, h.epoch, h.interrupt⟩

variable {h : Horizon}

theorem scope_recordDrop {key : Option ExecutionId} {how : DropProof} :
    (h.recordDrop key how).scope = h.scope := by
  unfold recordDrop
  cases key with
  | none => rfl
  | some key =>
    dsimp only
    split_ifs <;> rfl

theorem scope_noteDrop {how : DropProof} : (h.noteDrop how).scope = h.scope := by
  unfold noteDrop
  split_ifs
  · exact scope_recordDrop
  · rfl

theorem scope_stageWindow {first : ℕ} : (h.stageWindow first).scope = h.scope := rfl

theorem scope_approve {now : ℕ} : ((h.approve now).toOption.getD h).scope = h.scope := by
  unfold approve
  split_ifs <;> rfl

theorem scope_candidateFailed {kind : Job} {r : JobResult} : (h.candidateFailed kind r).scope = h.scope := by
  cases kind <;> cases r <;> first | rfl | exact scope_noteDrop

theorem scope_jobFailed {kind : Job} {r : JobResult} : (h.jobFailed kind r).scope = h.scope := by
  have hcand : (if h.stream then h.candidateFailed kind r else h).scope = h.scope := by
    split_ifs
    · exact scope_candidateFailed
    · rfl
  unfold jobFailed
  generalize (if h.stream then h.candidateFailed kind r else h) = g at hcand ⊢
  rw [← hcand]
  dsimp only
  split_ifs <;> split <;> split <;> rfl

theorem scope_jobDone {kind : Job} {selectedNs : Bool} : (h.jobDone kind selectedNs).scope = h.scope := by
  unfold jobDone
  dsimp only
  split_ifs <;> split <;> rfl

theorem scope_pollJob {r : Option JobResult} : (h.pollJob r).scope = h.scope := by
  unfold pollJob
  split
  · exact scope_jobDone
  · exact scope_jobFailed
  · rfl

theorem scope_pollCancel {reply : Option RetireReply} : (h.pollCancel reply).scope = h.scope := by
  unfold pollCancel
  split
  · dsimp only
    split
    · rename_i text _
      exact scope_recordDrop (h := { h with error := text })
    · split_ifs
      · exact scope_recordDrop (h := h)
      · exact scope_recordDrop (h := h)
  · rfl

theorem scope_adopt : h.adopt.scope = h.scope := by
  unfold adopt
  split <;> rfl

theorem scope_observe {state : Option RtState} : (h.observe state).scope = h.scope := by
  unfold observe
  dsimp only
  cases (h.bound state).filter (·.referenceId == h.id) with
  | none => rfl
  | some ref =>
    dsimp only
    split_ifs <;> first | rfl | exact scope_adopt

theorem scope_refill {now : ℕ} : (h.refill now).scope = h.scope := by
  unfold refill
  split_ifs
  · rfl
  · exact scope_approve
  · split
    · rfl
    · dsimp only
      split_ifs <;> rfl

theorem scope_cancel (hid : h.id ≠ 0) : h.cancel.scope = { h.scope with interrupt := true } := by
  unfold cancel
  by_cases hi : h.interrupt = true
  · rw [if_pos (.inr hi)]
    unfold scope
    rw [hi]
  · rw [if_neg (not_or.mpr ⟨hid, hi⟩)]
    rfl

/-- what `stage` makes -/
theorem stage_ok {key : Option ExecutionId} {trajectory : JointTrajectory} {deadline : Option ℕ}
    {stream terminal : Bool} {session epoch : ℕ} {h' : Horizon}
    (hs : h.stage key trajectory deadline stream terminal session epoch = .ok h') :
    h'.scope = ⟨h.nextId + 1, h.nextId + 1, session, epoch, false⟩ := by
  unfold stage at hs
  split_ifs at hs
  cases hs
  rfl

end Horizon

end ArmControl.RemoteRt
