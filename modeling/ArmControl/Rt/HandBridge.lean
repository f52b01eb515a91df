import ArmControl.Rt.HandAdmission

/-!
# The Hand bridge (`hand_bridge.cpp`)

Three threads over one mutex: the actor owns reads and actions, the stop worker calls `stop()` next to
it, and `serve` talks to the one client.  A step is what a thread does between two points where it
gives the mutex away (a blocking call of the SDK, a wait, a socket).

* `Obs`           what a step did, for the log;
* `ActorPc`, `StopPc`   where the two workers are;
* `HandBridge`    the shared variables, the threads' locals and the log;
* `actorStep`, `stopperStep`, `serveStep`, `step`;
* `replies`       the lines that a step sends to the client.

The synthesised width and the lines that report it (LIMITS, STATE, CAPS and META) are left out, and so is
the pause before a reconnect: the world decides when a connection attempt is made.
-/

namespace ArmControl.Rt

structure GripperState where
  time : ℕ
  width : F64
  isGrasped : Bool
  deriving DecidableEq

/-- what happened, in the order in which it happened -/
inductive Obs where
  | admitted (a : HandAction)
  | taken (a : HandAction)
  /-- `begin_action` returned true -/
  | dispatched (a : HandAction)
  | dropped (a : HandAction)
  | ended (a : HandAction)
  | done (a : HandAction) (ok : Bool)
  | cancelled
  | clientConnected
  | clientLost
  | sessionOpened
  | sessionLost
  | stopRequested
  | stopBegan
  /-- a stop call returned; the last one of its request ends the stopping -/
  | stopEnded (ok last : Bool)
  | readBegan
  | observed
  /-- lines to the client -/
  | doneLine (token : ℕ) (ok : Bool)
  | graspLine (ok : Bool)
  deriving DecidableEq

inductive ActorPc where
  | wait
  | connect
  | take
  /-- an action was taken from the mailbox -/
  | carry (a : HandAction)
  /-- inside `move`, `homing` or `grasp` -/
  | acting (a : HandAction)
  | read
  /-- inside `readOnce`, with what was loaded before it -/
  | reading (serial : ℕ) (duringStop : Bool)
  deriving DecidableEq, Inhabited

inductive StopPc where
  | wait
  /-- inside `stop()`; `hand` says whether there was a session to stop -/
  | calling (serial : ℕ) (wasActing hand : Bool)
  deriving DecidableEq, Inhabited

structure HandBridge where
  admission : HandAdmission := {}
  handSession : Bool := false
  graspSeq : ℕ := 0
  doneSeq : ℕ := 0
  doneToken : ℕ := 0
  sampleSeq : ℕ := 0
  doneOk : Bool := false
  graspOk : Bool := false
  haveReal : Bool := false
  realT : ℚ := 0
  robotSampleTime : ℕ := 0
  seenRobotSample : Bool := false
  realW : F64 := .zero
  realGrasped : Bool := false
  /-- the actor's own pointer -/
  hand : Bool := false
  actor : ActorPc := .wait
  stopper : StopPc := .wait
  serving : Bool := false
  seenGrasp : ℕ := 0
  seenDone : ℕ := 0
  log : List Obs := []
  deriving Inhabited

/-- how `move`, `homing` or `grasp` ended -/
inductive ActionEnd where
  | returned (ok : Bool)
  /-- a command exception: the session is fine -/
  | failed
  /-- a network exception, or anything else -/
  | lost
  deriving DecidableEq, Inhabited

structure ActorEnv where
  connects : Bool := true
  action : ActionEnd := .returned true
  /-- `none` when `readOnce` throws -/
  state : Option GripperState := none
  now : ℚ := 0

inductive ServeStep where
  | connect
  | gstop
  /-- a CMD line that parsed, and the clock -/
  | command (a : HandAction) (now : ℚ)
  | pollGrasp
  | pollDone
  | disconnect

namespace HandBridge

def note (s : HandBridge) (o : Obs) : HandBridge := { s with log := s.log ++ [o] }

def cancel (s : HandBridge) : HandBridge :=
  { s with admission := s.admission.cancel }.note .cancelled

def requestStop (s : HandBridge) : HandBridge :=
  { s with admission := s.admission.requestStop }.note .stopRequested

/-! ## measured samples -/

/-- `-width_measurement_tolerance_m` -/
def widthLow : F64 := ⟨0xBEE4F8B588E368F1⟩

/-- `franka_hand.width_max_m + width_open_tolerance_m` -/
def widthHigh : F64 := ⟨0x3FB4FDF3B645A1CB⟩

/-- `franka_hand.width_max_m` -/
def widthMax : F64 := ⟨0x3FB47AE147AE147B⟩

def usable (w : F64) : Bool :=
  w.isFinite && !Value.lt w.value widthLow.value && !Value.lt widthHigh.value w.value

/-- `std::clamp(w, 0.0, width_max_m)` -/
def clampWidth (w : F64) : F64 :=
  if Value.lt w.value (.fin 0) then .zero
  else if Value.lt widthMax.value w.value then widthMax else w

/-- only a new device timestamp refreshes measured freshness -/
def observeState (s : HandBridge) (st : GripperState) (now : ℚ) : HandBridge :=
  if s.admission.stopping then s
  else if s.seenRobotSample && decide (st.time ≤ s.robotSampleTime) then s
  else if usable st.width = false then { s with haveReal := false }
  else
    { s with
      seenRobotSample := true, robotSampleTime := st.time, haveReal := true, realT := now
      sampleSeq := s.sampleSeq + 1, admission := s.admission.sampled
      realW := clampWidth st.width, realGrasped := st.isGrasped }.note .observed

/-! ## the actor -/

/-- the device session is gone: nothing that was admitted may run any more -/
def loseSession (s : HandBridge) : HandBridge :=
  { s with
    hand := false, handSession := false
    admission := { s.admission with connected := false } }.cancel.note .sessionLost

def openSession (s : HandBridge) : HandBridge :=
  let s := { s with hand := true, handSession := true, seenRobotSample := false, actor := .take }
  let retries := s.admission.stopFault
  let s := { s with admission := s.admission.sessionOpened }.note .sessionOpened
  if retries then s.note .stopRequested else s

/-- the SDK call is over -/
def finishAction (s : HandBridge) (a : HandAction) (out : ActionEnd) : HandBridge :=
  let ok := out == .returned true
  let s := { s with
    admission := s.admission.endAction, haveReal := false, actor := .wait }.note (.ended a)
  let s := if out = .lost then s.loseSession else s
  let current := s.admission.current a
  let s := if current then
      { s with doneToken := a.token, doneOk := ok, doneSeq := s.doneSeq + 1 }.note (.done a ok) else s
  if a.kind == .grasp && current then { s with graspOk := ok, graspSeq := s.graspSeq + 1 } else s

/-- never replace a session until concurrent stop calls have drained -/
def wake (s : HandBridge) : HandBridge :=
  if s.hand then { s with actor := .take }
  else if s.admission.stopping then s
  else { s with actor := .connect }

def takeAction (s : HandBridge) : HandBridge :=
  let (a, h) := s.admission.take
  let s' := { s with admission := h, actor := if a.kind = .none then .read else .carry a }
  if h.acting && !s.admission.acting then s'.note (.taken a) else s'

/-- checked again under the lock immediately before executing -/
def dispatch (s : HandBridge) (a : HandAction) : HandBridge :=
  let (begun, h) := s.admission.beginAction a
  if begun then { s with admission := h, actor := .acting a }.note (.dispatched a)
  else { s with admission := s.admission.endAction, actor := .wait }.note (.dropped a)

def beginRead (s : HandBridge) : HandBridge :=
  { s with actor := .reading s.admission.stopSerial s.admission.stopping }.note .readBegan

def finishRead (s : HandBridge) (serial : ℕ) (duringStop : Bool) (env : ActorEnv) : HandBridge :=
  let s := { s with actor := .wait }
  match env.state with
  | none => { s with haveReal := false }.loseSession
  | some st =>
    if duringStop = false ∧ serial = s.admission.stopSerial then s.observeState st env.now else s

def actorStep (s : HandBridge) (env : ActorEnv) : HandBridge :=
  match s.actor with
  | .wait => s.wake
  | .connect =>
    if env.connects then s.openSession else { s with actor := .wait }
  | .take => s.takeAction
  | .carry a => s.dispatch a
  | .acting a => s.finishAction a env.action
  | .read => s.beginRead
  | .reading serial duringStop => s.finishRead serial duringStop env

/-! ## the stop worker -/

def beginStop (s : HandBridge) : HandBridge :=
  if s.admission.stopping then
    { s with stopper := .calling s.admission.stopSerial s.admission.acting s.handSession }.note .stopBegan
  else s

def finishStop (s : HandBridge) (serial : ℕ) (wasActing ok : Bool) : HandBridge :=
  let h := s.admission.finishStop serial wasActing ok
  { s with admission := h, haveReal := false, stopper := .wait }.note
    (.stopEnded ok (s.admission.stopping && !h.stopping))

def stopperStep (s : HandBridge) (ok : Bool) : HandBridge :=
  match s.stopper with
  | .wait => s.beginStop
  | .calling serial wasActing hand => s.finishStop serial wasActing (hand && ok)

/-! ## the client's session -/

def connect (s : HandBridge) : HandBridge :=
  let s := s.cancel
  { s with
    seenGrasp := s.graspSeq, seenDone := s.doneSeq, serving := true
    admission := { s.admission with client := true } }.note .clientConnected

def gstop (s : HandBridge) : HandBridge := { s.requestStop with haveReal := false }

/-- a sample younger than 0.6 s -/
def fresh (s : HandBridge) (now : ℚ) : Bool := s.haveReal && decide (now - s.realT < 3 / 5)

def command (s : HandBridge) (a : HandAction) (now : ℚ) : HandBridge :=
  match s.admission.admitAction a (s.fresh now) with
  | (.ok action, h) => { s with admission := h }.note (.admitted action)
  | (.error _, _) => s

def pollGrasp (s : HandBridge) : HandBridge :=
  if s.graspSeq = s.seenGrasp then s
  else { s with seenGrasp := s.graspSeq }.note (.graspLine s.graspOk)

def pollDone (s : HandBridge) : HandBridge :=
  if s.doneSeq = s.seenDone then s
  else { s with seenDone := s.doneSeq }.note (.doneLine s.doneToken s.doneOk)

/-- an action that has entered the SDK is interrupted, an admitted one only invalidated -/
def disconnect (s : HandBridge) : HandBridge :=
  let s := { s with serving := false, admission := { s.admission with client := false } }
  (if s.admission.dispatchCommitted || s.admission.stopping then s.gstop else s.cancel).note .clientLost

def serveStep (s : HandBridge) (c : ServeStep) : HandBridge :=
  match c with
  | .connect => if s.serving then s else s.connect
  | .gstop => if s.serving then s.gstop else s
  | .command a now => if s.serving then s.command a now else s
  | .pollGrasp => if s.serving then s.pollGrasp else s
  | .pollDone => if s.serving then s.pollDone else s
  | .disconnect => if s.serving then s.disconnect else s

inductive Event where
  | actor (env : ActorEnv)
  | stopper (ok : Bool)
  | serve (c : ServeStep)

def step (s : HandBridge) : Event → HandBridge
  | .actor env => s.actorStep env
  | .stopper ok => s.stopperStep ok
  | .serve c => s.serveStep c

end HandBridge

/-! ## what the client reads -/

inductive HandReply where
  | accept (token : ℕ)
  | reject (token : ℕ) (reason : Refusal)
  | stopping (epoch : ℕ)
  | done (token : ℕ) (ok : Bool)
  | graspDone (ok : Bool)
  deriving DecidableEq

/-- the answer to a CMD line -/
def HandReply.ofAdmission (token : ℕ) : Except Refusal HandAction → HandReply
  | .ok _ => .accept token
  | .error reason => .reject token reason

namespace HandBridge

def serveReplies (s : HandBridge) : ServeStep → List HandReply
  | .gstop => [.stopping s.gstop.admission.epoch]
  | .command a now => [.ofAdmission a.token (s.admission.admitAction a (s.fresh now)).1]
  | .pollGrasp => if s.graspSeq = s.seenGrasp then [] else [.graspDone s.graspOk]
  | .pollDone => if s.doneSeq = s.seenDone then [] else [.done s.doneToken s.doneOk]
  | .connect | .disconnect => []

def replies (s : HandBridge) : Event → List HandReply
  | .serve c => if s.serving then s.serveReplies c else []
  | .actor _ | .stopper _ => []

end HandBridge

end ArmControl.Rt
