import ArmControl.Supervisor.RuntimeSteps

/-!
# Receipts, events and the pump (`RobotRuntime` in `supervisor/runtime.py`)

* `requestAuthority`, `drive`     what the controller sends; its ARM requests go to the runtime at once;
* `sendCommand`                   one motor command, streamed or on the native reference;
* `onEvent`, `reconcileOne`       the two places where the controller's word becomes a receipt;
* `pumpController`                commands out, events in;
* `cancelExecution`, `confirmDrops`, `dropStaged`, `expire`, `select`   what ends an execution.

The numbers of a command, the mode reports and the ready event are left out.  `link.apply_command` raises only for a
tail that the link never advertised: the controller sends none.
-/

namespace ArmControl.Supervisor.RobotRuntime
open ArmControl.Execution ArmControl.Control ArmControl.RemoteRt

/-- `reason or default` -/
def orElse (reason default : String) : String := if reason = "" then default else reason

/-- a `RtLinkError` or a `ValueError` of the horizon -/
def link {α : Type} (r : Except String α) : Call α :=
  match r with
  | .ok a => pure a
  | .error text => throw (.link text)

/-- `self.now()` -/
def stamp (s : RobotRuntime) (now : ℕ) : Stamp := { ns := now, domain := s.cfg.domain }

/-! ## authority RPCs -/

def queueAuthority (s : RobotRuntime) (want : Bool) : RobotRuntime :=
  { s with
    authorityGen := s.authorityGen + 1
    pending := s.pending ++ [{ want := want, gen := s.authorityGen + 1 }] }

def cancelNative (s : RobotRuntime) : RobotRuntime :=
  if s.cfg.native then { s with native := s.native.cancel } else s

/-- a DISARM drops the queued ARMs; a worker that has begun one cannot be stopped -/
def dropArms (s : RobotRuntime) : RobotRuntime :=
  { s with pending := s.pending.map fun c => if c.want then { c with cancelled := true } else c }

/-- from the controller's `arm` output; `flag`: the DISARM in flight is not done -/
def requestAuthority (armed : Bool) : Call Unit :=
  if armed then beside fun s => s.queueAuthority true
  else do
    beside fun s => ({ s with nativePending := none, tracker := s.tracker.disarmSent } : RobotRuntime).cancelNative
    let a ← ask
    beside fun s =>
      if (s.pending.any fun c => !c.want) && a.flag then s
      else s.dropArms.queueAuthority false

def armRequest : Output → Option Bool
  | .arm armed => some armed
  | _ => none

/-- what waits for the pump -/
def waiting (c : ArmController) : ArmController := { c with sent := c.sent.filter fun o => (armRequest o).isNone }

/-- the controller acts; what it sends waits for the pump, but for ARM and DISARM -/
def drive (f : ArmController → ArmController) : Call Unit := do
  let s ← read
  let c := f s.controller
  beside fun s => { s with controller := waiting c }
  .each requestAuthority (c.sent.filterMap armRequest)

/-- the calls that are done, oldest first; each can queue one more -/
def drainAuthority : ℕ → Call Unit
  | 0 => pure ()
  | fuel + 1 => do
    let s ← read
    match s.pending with
    | [] => pure ()
    | call :: rest => do
      let done ← ask
      if done.flag = false then pure ()
      else do
        beside fun s => { s with pending := rest }
        let result ← ask
        if call.cancelled && result.flag then drainAuthority fuel
        else do
          beside fun s =>
            { s with
              authorityDone := call.gen, authorityFault := result.check
              authorityFailed := if result.check = "" then s.authorityFailed else (call.gen, result.check) }
          let s ← read
          if call.want ∧ result.check ≠ "" ∧ s.controller.armed then drive fun c => c.setArm false
          else pure ()
          drainAuthority fuel

/-! ## the native slot -/

/-- `_retire_native` -/
def retireNative (e : ExecutionId) : Call Unit := beside fun s =>
  let s : RobotRuntime := if s.nativePending = some e then { s with nativePending := none } else s
  if s.native.key = some e then s.cancelNative else s

/-- `JointTrajectory([0, period], [q, q], 0)` -/
def measuredHold : JointTrajectory := { times := [0, 1 / 100], positions := [], velocities := some [] }

def stageNative (key : Option ExecutionId) (trajectory : JointTrajectory) (deadline : Option ℕ)
    (stream terminal : Bool) : Call Unit := do
  let a ← ask
  let s ← read
  let h ← link (s.native.stage key trajectory deadline stream terminal a.session a.armEpoch)
  beside fun s => { s with native := h }

/-- a command that does not track the selected reference: hold where the arm is -/
def holdMeasured (now : ℕ) (ref : Option RtReference) : Call (Option ℕ) := do
  let s ← read
  if s.nativeFailed ∨ s.nativePending.isSome ∨ s.controller.running ∨ s.native.busy ∨ now < s.groupCancelling then
    return none
  else if (ref.any fun r => r.status == .underflow) = true then
    beside fun s => { s with nativeFailed := true }
    return none
  else if (ref.any fun r => r.status == .running) = true then
    beside fun s => { s with native := s.native.cancel }
    return none
  else
    stageNative none measuredHold none false true
    return none

/-- the sequence that left, if one did; `flag`: the command is the selected reference's point -/
def sendCommand : Call (Option ℕ) := do
  let a ← ask
  let s ← read
  if s.cfg.native = false then return a.seq
  else
    match a.latest with
    | none => return none
    | some state =>
      if state.armed = false then return none
      else
        let own := decide (state.sessionId = s.native.session) && decide (state.armEpoch = s.native.epoch)
        let ref := if own then s.native.observed else none
        let point := if own then s.native.observedPoint else none
        -- the candidate has no authority over the selected old endpoint
        if (ref.any fun r => r.status == .ended && r.referenceId != s.native.id) = true then return none
        -- no reference was selected in this ARM epoch: the streamed idle hold
        else if (state.reference.all fun r => r.referenceId == 0) = true then return a.seq
        else if ref.isSome ∧ point.isSome ∧ a.flag then return a.seq
        else holdMeasured a.now ref

/-- the motor commands among what was sent, in order -/
def sendCommands : List Output → Call (List ℕ)
  | [] => pure []
  | .motorCommand :: os => do
    let seq ← sendCommand
    let seqs ← sendCommands os
    return seq.toList ++ seqs
  | _ :: os => sendCommands os

/-! ## events -/

/-- a new execution takes the slot of the one it supersedes -/
def supersede (e : ExecutionId) (old : Option ExecutionId) : Call Unit := do
  let s ← read
  match old with
  | none => pure ()
  | some old =>
    if s.isLive old then do
      retireNative old
      receipt old .superseded ("superseded by " ++ toString e) [.supersededBy e]
    else pure ()

def onStaged (e : ExecutionId) (ex : Execution) (ok : Bool) (reason : String) : Call Unit :=
  if ok = false then receipt e .rejected (orElse reason "controller refused") []
  else do
    receipt e .admitted "" []
    -- asynchronous stream admission owns release
    if ex.stream.isSome then pure () else supersede e ex.request.supersedes

def onLegResult (e : ExecutionId) (ex : Execution) (ok : Bool) (reason : String) : Call Unit :=
  if ok then do
    let a ← ask
    mark e fun ex => { ex with completedAt := some a.now }
  -- the controller's own cancel is not the RT's confirmation
  else if ex.drop.isSome then pure ()
  else
    match ex.cancelReason with
    | some reason => receipt e .cancelled reason []
    | none =>
      if ex.phase = .admitted then receipt e .rejected (orElse reason "refused at selection") []
      else receipt e .faulted (orElse reason "controller ended the leg") []

/-- the live execution that an event names -/
def liveExecution (s : RobotRuntime) (e : ExecutionId) : Option Execution := (s.executions e).filter Execution.live

def onEvent (event : ControllerEvent) : Call Unit := do
  let s ← read
  match event with
  | .planStaged e ok reason =>
    match s.liveExecution e with
    | none => pure ()
    | some ex => onStaged e ex ok reason
  | .legResult e ok reason =>
    match s.liveExecution e with
    | none => pure ()
    | some ex => onLegResult e ex ok reason
  | .planCleared _ _ => pure ()
  | .fault _ => pure ()

def controllerEvent : Output → Option ControllerEvent
  | .controllerEvent e => some e
  | _ => none

/-! ## reconciliation -/

/-- the acceptance evidence of a completion -/
def appliedForCompletion (s : RobotRuntime) (ex : Execution) : Bool :=
  ex.phase == .applied &&
    match ex.stream with
    | none => true
    | some st => (s.attemptAt st.owner st.selected).any fun a => a.terminal && a.phase == .applied

def reconcileOne (now : ℕ) (current : Option ExecutionId) (e : ExecutionId) : Call Unit := do
  let s ← read
  match s.liveExecution e with
  | none => pure ()
  | some ex =>
    match ex.completedAt with
    | some done =>
      if s.appliedForCompletion ex then receipt e .completed "" []
      else if s.cfg.appliedGraceNs < now - done then
        receipt e .faulted "completed on feedback without plant acceptance evidence" []
      else pure ()
    | none =>
      if ex.phase = .requested ∨ current = some e ∨ ex.drop.isSome then pure ()
      else
        match ex.cancelReason with
        | some reason => receipt e .cancelled reason []
        | none =>
          if ex.phase = .admitted then
            receipt e .cancelled "discarded by the controller (disarm, fault or stale observation)" []
          else receipt e .faulted "the controller dropped the running execution" []

/-- executions that the controller no longer holds, with no event to say why -/
def reconcile : Call Unit := do
  let a ← ask
  let s ← read
  .each (reconcileOne a.now s.controller.plan) s.known

/-! ## the pump -/

/-- a streamed plan is selected when it runs -/
def selectRunning : Call Unit := do
  let s ← read
  match s.controller.plan with
  | none => pure ()
  | some e =>
    if s.controller.running ∧ s.cfg.native = false ∧ (s.executions e).any (fun ex => ex.phase == .admitted) then
      receipt e .selected "" [.armEpoch s.authority.armEpoch]
    else pure ()

/-- the first command of an execution left -/
def markSent (e : ExecutionId) (seq : ℕ) : Call Unit := do
  let s ← read
  match s.executions e with
  | none => pure ()
  | some ex =>
    if ex.phase = .selected ∧ ex.firstSeq = none then do
      let a ← ask
      mark e fun ex => { ex with firstSeq := some seq, epoch := a.armEpoch }
      receipt e .sent "" [.commandSeq seq, .armEpoch a.armEpoch]
    else pure ()

/-- the first command of a stream's selected attempt left -/
def markAttemptSent (e : ExecutionId) (seq : ℕ) : Call Unit := beside fun s =>
  match (s.executions e).bind Execution.stream with
  | none => s
  | some st =>
    match st.selected with
    | none => s
    | some rid =>
      s.updateAttempt st.owner rid fun a =>
        if a.phase = .selected then { a with sentSeq := some seq, phase := .sent } else a

/-- commands out, events in; `sentFor` is the execution that the commands were stepped from -/
def pumpController (sentFor : Option ExecutionId) (reconciling : Bool) : Call Unit := do
  let s ← read
  let sent := s.controller.sent
  let seqs ← sendCommands sent
  beside fun s => { s with controller := { s.controller with sent := [] } }
  .each onEvent (sent.filterMap controllerEvent)
  selectRunning
  match sentFor, seqs with
  | some e, seq :: _ => do
    markSent e seq
    markAttemptSent e seq
  | _, _ => pure ()
  if reconciling then reconcile else pure ()

/-! ## ends of an execution -/

/-- `on_control(cancel, cancel_plan_id)`, when the controller holds this plan -/
def cancelPlan (e : ExecutionId) (reason : String) : Call Unit := do
  let s ← read
  if s.controller.plan = some e then drive fun c => c.onControlCancel (some e) (orElse reason "cancelled") else pure ()

def dropStaged (e : ExecutionId) (reason : String) : Call Unit := do
  retireNative e
  let s ← read
  if s.controller.plan = some e then do
    cancelPlan e reason
    pumpController none false
  else pure ()

/-- the RT may hold this reference: the receipt waits for its confirmation -/
def deferCancel (e : ExecutionId) (reason : String) : Call Unit := do
  let s ← read
  let d : Drop := { reason := reason, refId := s.native.id, session := s.native.session, epoch := s.native.epoch }
  mark e fun ex => { ex with drop := some d }
  remark (.dropping e d) trivial

/-- the RT may have the COMMIT of this execution's reference -/
def committing (s : RobotRuntime) (e : ExecutionId) : Bool :=
  s.cfg.native && s.native.key == some e && s.native.selectionRequested

def cancelStream (e : ExecutionId) (ex : Execution) (owner reason : String) : Call Unit := do
  markStream e fun st => { st with anchor := none }
  let s ← read
  if ex.phase = .requested then do
    receipt e .rejected reason []
    beside fun s => s.settleStreamAttempts e owner reason
  else if ex.live = false then pure ()
  else if s.committing e then deferCancel e reason
  else do
    receipt e .cancelled reason []
    beside fun s => s.settleStreamAttempts e owner reason
  markStream e fun st => { st with pending := none }

def cancelPlanned (e : ExecutionId) (ex : Execution) (reason : String) : Call Unit := do
  let s ← read
  if ex.live ∧ ex.phase ≠ .requested ∧ s.committing e then deferCancel e reason else pure ()

def cancelExecution (e : ExecutionId) (reason : String) : Call Unit := do
  let s ← read
  match s.executions e with
  | none => pure ()
  | some ex =>
    -- already cancelled, waiting for the RT to confirm the drop
    if ex.drop.isSome then pure ()
    else do
      mark e fun ex => { ex with cancelReason := some reason, completedAt := none }
      match ex.stream with
      | some st => cancelStream e ex st.owner reason
      | none => cancelPlanned e ex reason
      retireNative e
      cancelPlan e reason
      pumpController none true

/-- what the RT's own state says of a reference that was cancelled -/
def rtProof (d : Drop) (state : RtState) : Option DropProof :=
  if state.sessionId ≠ d.session ∨ state.armEpoch ≠ d.epoch then some .rtEpoch
  else if state.armed = false then some .rtDisarmed
  else
    match state.reference with
    | none => none
    | some ref =>
      if ref.referenceId ≠ 0 ∧ (d.refId < ref.referenceId ∨ ref.referenceId = d.refId ∧ ref.live = false) then
        some .rtObserved
      else none

/-- how a drop is confirmed, if it is -/
def dropProof (s : RobotRuntime) (e : ExecutionId) (d : Drop) (state : Option RtState) : Option DropProof :=
  match (if s.cfg.native then s.native.droppedHow e else none), state with
  | none, some state | some .unconfirmed, some state => rtProof d state
  | some .unconfirmed, none => none
  | how, _ => how

def confirmDrop (state : Option RtState) (e : ExecutionId) : Call Unit := do
  let s ← read
  match s.liveExecution e with
  | none => pure ()
  | some ex =>
    match ex.drop with
    | none => pure ()
    | some d =>
      match s.dropProof e d state with
      | none => pure ()
      | some how => do
        mark e fun ex => { ex with drop := none }
        beside fun s => if s.cfg.native then { s with native := s.native.popDropped e } else s
        receipt e .cancelled d.reason [.dropConfirmed how]
        match ex.stream with
        | none => pure ()
        | some st => beside fun s => s.settleStreamAttempts e st.owner d.reason

def confirmDrops (state : Option RtState) : Call Unit := do
  let s ← read
  .each (confirmDrop state) s.known

/-- once COMMIT was sent, selection or refusal is for the RT to show -/
def expire (e : ExecutionId) : Call Bool := do
  let s ← read
  match s.executions e with
  | none => return false
  | some ex =>
    if ex.stream.isSome then return false
    else if ex.phase = .admitted ∧ s.committing e = false then do
      let a ← ask
      if ex.request.expired (s.stamp a.now) then do
        receipt e .expired "admit_by passed before selection" []
        dropStaged e "expired"
        return true
      else return false
    else return false

/-- expiry, then ARM, then the controller's own release checks -/
def select (e : ExecutionId) : Call Unit := do
  if ← expire e then pure ()
  else do
    let s ← read
    if selectionRefusal s.authority ≠ "" then do
      receipt e .rejected (selectionRefusal s.authority) []
      dropStaged e (selectionRefusal s.authority)
    else if s.cfg.native then
      if s.nativePending = some e then pure ()
      else do
        let a ← ask
        if s.controller.releaseError e a.reading ≠ "" then do
          receipt e .rejected (s.controller.releaseError e a.reading) []
          dropStaged e (s.controller.releaseError e a.reading)
        -- upload and selection are observed on ticks
        else beside fun s => { s with nativePending := some e }
    else do
      let a ← ask
      drive fun c => c.release e a.reading
      pumpController none true

end ArmControl.Supervisor.RobotRuntime
