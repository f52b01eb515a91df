import ArmControl.EndEffectors.HandLanguage
import ArmControl.Rt.HandBridge

/-!
# The simulated Hand (`sim_hand_bridge.py`)

The protocol of the Hand bridge over the fingers of a simulated world.  The plant thread gives one sample a tick; the server thread
parses, admits and reports.  Every step below is what one of them does under the lock.

* `SimAdmission`        `_Admission`: the bridge's admission without the device session and the failed stop;
* `Fingers`             the fingers: the ramp of a commanded width, and the verdict once they hold still;
* `SimHandBridge`       the server's variables, and the log;
* `onSample`            one tick of the plant;
* `step`, `replies`     the session, and the lines that a step sends.

A command is what `parse_command` accepted.  The lines LIMITS, STATE, CAPS and META are left out.
-/

namespace ArmControl.EndEffectors

open Rt

/-! ## admission -/

structure SimAdmission where
  pending : Option HandAction := none
  epoch : ℕ := 1
  client : Bool := false
  acting : Bool := false
  dispatchCommitted : Bool := false
  stopping : Bool := false

namespace SimAdmission

def cancel (h : SimAdmission) : SimAdmission := { h with pending := none, epoch := h.epoch + 1 }

def requestStop (h : SimAdmission) : SimAdmission := { h.cancel with stopping := true }

def current (h : SimAdmission) (a : HandAction) : Bool := h.client && a.generation == h.epoch

/-- the reason of a refusal, or the admitted action -/
def admitAction (h : SimAdmission) (action : HandAction) (fresh : Bool) : Except Refusal HandAction × SimAdmission :=
  if !h.client then (.error .offline, h)
  else if h.stopping then (.error .stopping, h)
  else if action.token ≠ h.epoch then (.error .staleEpoch, h)
  else if h.acting || h.pending.isSome then (.error .busy, h)
  else if !fresh then (.error .staleState, h)
  else
    let action := { action with generation := h.epoch + 1 }
    (.ok action, { h with pending := some action, epoch := h.epoch + 1 })

/-- the simulation dispatches in the tick that takes -/
def take (h : SimAdmission) : Option HandAction × SimAdmission :=
  match h.pending with
  | none => (none, h)
  | some action =>
    if !h.client || h.acting || h.stopping then (none, h)
    else
      let h := { h with pending := none }
      if h.current action then (some action, { h with acting := true, dispatchCommitted := true }) else (none, h)

end SimAdmission

/-! ## the fingers -/

/-- an action's operands; a homing goes to the full width at its own speed -/
structure Goal where
  w : Value
  s : Value
  f : Value
  ei : Value
  eo : Value

/-- `HOME_SPEED_MPS` -/
def homeSpeed : ℚ := 5 / 100

def goalOf (widthMax : ℚ) (a : HandAction) : Goal :=
  if a.kind = .home then ⟨.fin widthMax, .fin homeSpeed, a.f.value, a.ei.value, a.eo.value⟩
  else ⟨a.w.value, a.s.value, a.f.value, a.ei.value, a.eo.value⟩

/-- inside the band that a grasp allows around its width -/
def Goal.holds (g : Goal) (width : Value) : Bool := (g.w - g.ei).le width && width.le (g.w + g.eo)

inductive FingerMode where
  | idle
  | move (goal : Goal)
  | grasp (goal : Goal)
  | holding (goal : Goal)

structure Fingers where
  widthMax : ℚ
  mode : FingerMode := .idle
  cmdW : Option Value := none
  /-- above zero the plant closes under this cap -/
  forceN : Value := .fin 0
  lastT : Option ℚ := none
  hist : List (ℚ × Value) := []

namespace Fingers

def start (f : Fingers) (a : HandAction) (width : Value) (now : ℚ) : Fingers :=
  let goal := goalOf f.widthMax a
  { f with
    mode := if a.kind = .grasp then .grasp goal else .move goal
    cmdW := some width, forceN := .fin 0, lastT := some now, hist := [] }

/-- the action ends where the fingers are, and a held grasp lets go -/
def stop (f : Fingers) (width : Value) : Fingers := { f with mode := .idle, cmdW := some width, forceN := .fin 0 }

def total (xs : List Value) : Value := xs.foldl (· + ·) (.fin 0)

/-- `EFFORT_FLOOR_N` is 2 -/
def grasped (f : Fingers) (width : Value) (efforts : List Value) : Bool :=
  match f.mode with
  | .holding goal => goal.holds width && (Value.fin 2).lt (total (efforts.map Value.abs))
  | _ => false

/-- the commanded width after a step towards the target -/
def ramp (cmd target step : Value) : Value :=
  if target.lt cmd then target.pyMax (cmd - step) else target.pyMin (cmd + step)

/-- at least half of the window of 0.2 s was measured, and the widths in it are within 0.5 mm -/
def settled : List (ℚ × Value) → Bool
  | [] => false
  | (t₀, w₀) :: rest =>
    match rest.getLast? with
    | none => false
    | some (t₁, _) =>
      decide (1 / 10 ≤ t₁ - t₀) &&
        ((rest.map Prod.snd).foldl Value.pyMax w₀ - (rest.map Prod.snd).foldl Value.pyMin w₀).lt (.fin (1 / 2000))

/-- one step of the ramp, and whether the fingers hold still at its end -/
def advance (f : Fingers) (goal : Goal) (width : Value) (now : ℚ) : Bool × Fingers :=
  let dt := max 0 (now - f.lastT.getD now)
  -- the commanded width was set when the action started
  let cmd := ramp (f.cmdW.getD width) goal.w (goal.s * .fin dt)
  let f := { f with lastT := some now, cmdW := some cmd }
  if !cmd.eq goal.w then (false, f)
  else
    let hist := (f.hist ++ [(now, width)]).filter fun m => decide (now - m.1 ≤ 1 / 5)
    (settled hist, { f with hist := hist })

/-- the verdict of an action, once the fingers hold still -/
def tick (f : Fingers) (width : Value) (now : ℚ) : Option Bool × Fingers :=
  match f.mode with
  | .move goal =>
    let (still, f) := f.advance goal width now
    if !still then (none, f)
    else if (width - goal.w).abs.le (.fin (1 / 1000)) then (some true, { f with mode := .idle })
    else (some false, { f with mode := .idle, cmdW := some width })
  | .grasp goal =>
    let (still, f) := f.advance goal width now
    if !still then (none, f)
    else if goal.holds width && (goal.w + .fin (3 / 1000)).lt width then
      (some true, { f with mode := .holding goal, cmdW := some (.fin 0), forceN := goal.f })
    else (some false, { f with mode := .idle })
  | .idle | .holding _ => (none, f)

/-- the targets of the two fingers and the force cap, nothing before any action -/
def command (f : Fingers) : Option (List Value × Value) :=
  f.cmdW.map fun w => ([w * .fin (1 / 2), w * .fin (1 / 2)], f.forceN)

end Fingers

/-! ## the bridge -/

structure SimHandBridge where
  limits : HandLimits
  adm : SimAdmission := {}
  fingers : Fingers
  acting : Option HandAction := none
  haveReal : Bool := false
  realT : ℚ := 0
  realW : Value := .fin 0
  realGrasped : Bool := false
  sampleSeq : ℕ := 0
  graspSeq : ℕ := 0
  graspOk : Bool := false
  doneSeq : ℕ := 0
  doneToken : ℕ := 0
  doneOk : Bool := false
  serving : Bool := false
  seenGrasp : ℕ := 0
  seenDone : ℕ := 0
  log : List Obs := []

namespace SimHandBridge

/-- `SimHandBridge(port, limits=...)` -/
def new (limits : HandLimits) : SimHandBridge := { limits := limits, fingers := { widthMax := limits.widthMax } }

/-- what happens to the session; a command is one that was parsed -/
inductive Event where
  | connect
  | gstop
  | command (a : HandAction) (parsed : a.kind ≠ .none) (now : ℚ)
  /-- the results that are new since the last look -/
  | poll
  | disconnect
  | sample (positions efforts : List Value) (now : ℚ)

def note (s : SimHandBridge) (o : Obs) : SimHandBridge := { s with log := s.log ++ [o] }

/-! ### the plant thread -/

/-- the opening of the fingers, from the joints -/
def measured (positions : List Value) : Value :=
  Fingers.total (positions.map fun p => .fin 2 * p) * .fin (1 / (max positions.length 1 : ℕ))

/-- `CLOSED_TOL_M` and `OPEN_TOL_M` -/
def usable (limits : HandLimits) (width : Value) : Bool :=
  width.isFinite && !width.lt (.fin (-1 / 100000)) && !(Value.fin (limits.widthMax + 2 / 1000)).lt width

/-- the measured sample -/
def observe (s : SimHandBridge) (width : Value) (efforts : List Value) (now : ℚ) : SimHandBridge :=
  if usable s.limits width then
    { s with
      haveReal := true, realT := now, realW := (width.pyMax (.fin 0)).pyMin (.fin s.limits.widthMax)
      realGrasped := s.fingers.grasped width efforts, sampleSeq := s.sampleSeq + 1 }.note .observed
  else { s with haveReal := false }

/-- a stop ends the action where the fingers are; its epoch is gone, so nothing is reported -/
def endStop (s : SimHandBridge) (width : Value) : SimHandBridge :=
  { s with
    fingers := s.fingers.stop width
    adm := { s.adm with acting := false, dispatchCommitted := false, stopping := false }
    acting := none, haveReal := false }.note (.stopEnded true true)

/-- the running action has settled -/
def finish (s : SimHandBridge) (a : HandAction) (ok : Bool) : SimHandBridge :=
  let s := { s with
    acting := none, adm := { s.adm with acting := false, dispatchCommitted := false }, haveReal := false }.note (.ended a)
  if s.adm.current a then
    let s := { s with doneToken := a.token, doneOk := ok, doneSeq := s.doneSeq + 1 }.note (.done a ok)
    if a.kind = .grasp then { s with graspOk := ok, graspSeq := s.graspSeq + 1 } else s
  else s

/-- the running action, one tick on -/
def advance (s : SimHandBridge) (a : HandAction) (width : Value) (now : ℚ) : SimHandBridge :=
  let (ok, fingers) := s.fingers.tick width now
  let s := { s with fingers := fingers }
  match ok with
  | some ok => s.finish a ok
  | none => s

/-- the admitted action, if there is one -/
def startPending (s : SimHandBridge) (width : Value) (now : ℚ) : SimHandBridge :=
  let (action, adm) := s.adm.take
  let s := { s with adm := adm }
  match action with
  | some a => { s with acting := some a, fingers := ((s.fingers.start a width now).tick width now).2 }.note (.dispatched a)
  | none => s

/-- one measured sample after a step of the plant; what the fingers are to do -/
def onSample (s : SimHandBridge) (positions efforts : List Value) (now : ℚ) : Option (List Value × Value) × SimHandBridge :=
  let width := measured positions
  let s :=
    if s.adm.stopping then s.endStop width
    else
      let s := s.observe width efforts now
      match s.acting with
      | some a => s.advance a width now
      | none => s.startPending width now
  (s.fingers.command, s)

/-! ### the server -/

/-- results from before this client are nobody's to consume -/
def connect (s : SimHandBridge) : SimHandBridge :=
  { s with
    seenGrasp := s.graspSeq, seenDone := s.doneSeq, serving := true
    adm := { s.adm.cancel with client := true } }.note .clientConnected

def gstop (s : SimHandBridge) : SimHandBridge :=
  { s with adm := s.adm.requestStop, haveReal := false }.note .stopRequested

/-- a sample younger than 0.6 s -/
def fresh (s : SimHandBridge) (now : ℚ) : Bool := s.haveReal && decide (now - s.realT < 3 / 5)

def command (s : SimHandBridge) (a : HandAction) (now : ℚ) : SimHandBridge :=
  match s.adm.admitAction a (s.fresh now) with
  | (.ok action, h) => { s with adm := h }.note (.admitted action)
  | (.error _, _) => s

def pollGrasp (s : SimHandBridge) : SimHandBridge :=
  if s.graspSeq = s.seenGrasp then s else { s with seenGrasp := s.graspSeq }.note (.graspLine s.graspOk)

def pollDone (s : SimHandBridge) : SimHandBridge :=
  if s.doneSeq = s.seenDone then s else { s with seenDone := s.doneSeq }.note (.doneLine s.doneToken s.doneOk)

/-- a disconnect interrupts outstanding work, not a completed grasp -/
def disconnect (s : SimHandBridge) : SimHandBridge :=
  let s := { s with serving := false, adm := { s.adm with client := false } }.note .clientLost
  if s.adm.dispatchCommitted || s.adm.stopping then s.gstop else { s with adm := s.adm.cancel }

def step (s : SimHandBridge) : Event → SimHandBridge
  | .connect => if s.serving then s else s.connect
  | .gstop => if s.serving then s.gstop else s
  | .command a _ now => if s.serving then s.command a now else s
  | .poll => if s.serving then s.pollGrasp.pollDone else s
  | .disconnect => if s.serving then s.disconnect else s
  | .sample positions efforts now => (s.onSample positions efforts now).2

/-- the lines that a step sends -/
def replies (s : SimHandBridge) : Event → List HandReply
  | .gstop => if s.serving then [.stopping s.adm.requestStop.epoch] else []
  | .command a _ now => if s.serving then [.ofAdmission a.token (s.adm.admitAction a (s.fresh now)).1] else []
  | .poll =>
    if s.serving then
      (if s.graspSeq = s.seenGrasp then [] else [.graspDone s.graspOk]) ++
        (if s.doneSeq = s.seenDone then [] else [.done s.doneToken s.doneOk])
    else []
  | .connect | .disconnect | .sample .. => []

end SimHandBridge

end ArmControl.EndEffectors
