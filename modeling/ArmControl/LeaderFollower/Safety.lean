import ArmControl.Lib.Effect
import ArmControl.Lib.ValueArith

/-!
# The safety layer of the teleoperation (`leader_follower/safety.py`)

A call into the deployment (leader, follower, feedback, collision guard) is a program over a world `σ` that
nothing is known about: it may return any value and raise any exception.

* `SafetyLimits`, `SafetyGates`   the numbers, and what the constructors accept;
* `SafetyMonitor`                 `checkLeader`, `targetRefusal`, `checkAndClampTarget`, `checkFeedback`;
* `CollisionGuard`                the interface, `NoCollisionGuard` and `SphereCollisionGuard`;
* `Guarded`                       a monitor with its world and what its guard has answered so far.

Numbers are exact, with the infinities and NaN; a reason keeps the numbers that its text shows.
-/

namespace ArmControl.LeaderFollower

/-- the reason of a refusal, with the numbers of its text -/
inductive Reason where
  | leaderIllegal
  | leaderGap (gap limit : Value)
  | targetIllegal (size : ℕ)
  | jointLimit (joint : ℕ) (target : List Value) (lower upper : List Value)
  | targetJump (joint : ℕ) (step : List Value) (limit : Value)
  | collision (distance limit : Value)
  | noFeedback
  | staleFeedback (gap : Value)
  | staleSample (gap limit : Value)
  | feedbackIllegal
  | controllerFault (text : String)
  | disarmed
  | velocity (joint : ℕ) (speed limit : Value)
  | tracking (joint : ℕ) (error limit : Value) (since hold : Value)
  | noTarget
  deriving DecidableEq

inductive Source where
  | leader
  | retarget
  | target
  | feedback
  deriving DecidableEq

/-- what a call raises -/
inductive Exn where
  /-- `SafetyStop` -/
  | safetyStop (reason : Reason) (source : Source)
  /-- any other `Exception` -/
  | error (text : String)
  | keyboardInterrupt
  /-- any other exception that `except Exception` lets through -/
  | exit
  deriving DecidableEq

/-- `isinstance(e, Exception)` -/
def Exn.isException : Exn → Bool
  | .safetyStop _ _ | .error _ => true
  | .keyboardInterrupt | .exit => false

/-- the text of an error; a `SafetyStop` has its reason -/
def Exn.text : Exn → String
  | .error text => text
  | _ => ""

/-! ## limits and verdicts -/

structure SafetyLimits where
  jointMarginRad : Value := .fin (5 / 100)
  maxStepRad : Value := .fin (30 / 100)
  maxTargetVelRadS : Value := .fin 2
  gripperMaxStepM : Value := .fin (2 / 100)
  feedbackRequired : Bool := true
  feedbackTimeoutS : Value := .fin (30 / 100)
  trackErrRad : Value := .fin (15 / 100)
  trackErrHoldS : Value := .fin (30 / 100)
  trackVelRadS : Value := .fin 3
  leaderTimeoutS : Value := .fin (30 / 100)
  collisionStopM : Value := .fin (10 / 1000)
  collisionWarnM : Value := .fin (50 / 1000)
  collisionEveryN : ℕ := 1
  collisionSlowScale : Value := .fin (25 / 100)
  deriving DecidableEq

namespace SafetyLimits

def negative (name : String) (v : Value) : Option String :=
  if v.lt (.fin 0) then some ("safety." ++ name ++ " 不能为负") else none

def notPositive (name : String) (v : Value) : Option String :=
  if !(Value.lt (.fin 0) v) then some ("safety." ++ name ++ " 必须为正") else none

/-- `__post_init__`: the first `ValueError` -/
def refusal (l : SafetyLimits) : Option String :=
  [negative "joint_margin_rad" l.jointMarginRad,
    negative "collision_stop_m" l.collisionStopM,
    negative "collision_warn_m" l.collisionWarnM,
    notPositive "max_step_rad" l.maxStepRad,
    notPositive "max_target_vel_rad_s" l.maxTargetVelRadS,
    notPositive "feedback_timeout_s" l.feedbackTimeoutS,
    notPositive "track_err_rad" l.trackErrRad,
    notPositive "track_err_hold_s" l.trackErrHoldS,
    notPositive "leader_timeout_s" l.leaderTimeoutS,
    if l.collisionWarnM.lt l.collisionStopM then some "collision_warn_m 必须 >= collision_stop_m" else none,
    if l.collisionEveryN < 1 then some "collision_every_n 必须 >= 1" else none].findSome? id

end SafetyLimits

/-- what a `SafetyMonitor` is made of -/
structure SafetyGates where
  limits : SafetyLimits
  accepted : limits.refusal = none
  jointLower : List Value
  jointUpper : List Value
  sameSize : jointLower.length = jointUpper.length
  nonempty : jointLower ≠ []
  ordered : ∀ p ∈ jointLower.zip jointUpper, p.1.le p.2 = true

inductive SafetyVerdict where
  | ok (speedScale : Value)
  | refused (reason : Reason)
  deriving DecidableEq

structure FeedbackSample where
  armQ : List Value
  armDq : Option (List Value) := none
  gripperWidthM : Option Value := none
  timestamp : Value := .fin 0
  fault : Bool := false
  faultReason : String := ""
  armed : Option Bool := none

/-! ## collision guards -/

structure CollisionGuard (σ : Type) where
  setOtherState : List Value → EStateM Exn σ PUnit
  minDistance : List Value → EStateM Exn σ Value
  close : EStateM Exn σ PUnit

/-- collision checks switched off -/
def NoCollisionGuard (σ : Type) : CollisionGuard σ where
  setOtherState _ := pure ⟨⟩
  minDistance _ := pure (.inf false)
  close := pure ⟨⟩

/-- a deployment's answer: a distance, or whether it collides -/
def CallableCollisionGuard {σ : Type} (onOther : List Value → EStateM Exn σ PUnit)
    (fn : List Value → EStateM Exn σ (Value ⊕ Bool)) : CollisionGuard σ where
  setOtherState := onOther
  minDistance q := do
    match ← fn q with
    | .inl d => pure d
    | .inr true => pure (.fin (-1))
    | .inr false => pure (.inf false)
  close := pure ⟨⟩

/-- an `Except` in the program -/
def raising {σ α : Type} : Except Exn α → EStateM Exn σ α
  | .ok a => pure a
  | .error e => throw e

structure SafetyMonitor where
  prevTarget : Option (List Value) := none
  prevLeaderT : ℚ := 0
  trackSince : Option ℚ := none
  lastFeedbackT : Value := .fin 0
  tick : ℕ := 0
  lastDistance : Value := .inf false
  seenFeedback : Bool := false

/-- the greatest element and its first place -/
def peak (xs : List Value) : ℕ × Value :=
  let m := xs.foldl Value.maximum (.fin 0)
  (xs.findIdx (· == m), m)

namespace SafetyMonitor

def checkLeader (g : SafetyGates) (m : SafetyMonitor) (leader : List Value) (now : ℚ) :
    SafetyVerdict × SafetyMonitor :=
  if leader.isEmpty || !leader.all Value.isFinite then (.refused .leaderIllegal, m)
  else if 0 < m.prevLeaderT ∧ g.limits.leaderTimeoutS.lt (.fin (now - m.prevLeaderT)) then
    (.refused (.leaderGap (.fin (now - m.prevLeaderT)) g.limits.leaderTimeoutS), m)
  else (.ok (.fin 1), { m with prevLeaderT := now })

/-- the limits with their margin -/
def lower (g : SafetyGates) : List Value := g.jointLower.map (· + g.limits.jointMarginRad)

def upper (g : SafetyGates) : List Value := g.jointUpper.map (· - g.limits.jointMarginRad)

/-- `(tgt < lo) | (tgt > hi)`: the first joint -/
def beyond (tgt lower upper : List Value) : Option ℕ :=
  (tgt.zip (lower.zip upper)).findIdx? fun p => p.1.lt p.2.1 || p.2.2.lt p.1

/-- `step > max_step_rad`: the first joint -/
def jumps (step : List Value) (limit : Value) : Option ℕ := step.findIdx? fun d => limit.lt d

def steps (tgt prev : List Value) : List Value := tgt.zipWith (fun a b => (a - b).abs) prev

/-- the gates before the collision check -/
def targetRefusal (g : SafetyGates) (m : SafetyMonitor) (tgt : List Value) : Option Reason :=
  if tgt.length ≠ g.jointLower.length ∨ tgt.all Value.isFinite = false then some (.targetIllegal tgt.length)
  else
    match beyond tgt (lower g) (upper g) with
    | some i => some (.jointLimit i tgt (lower g) (upper g))
    | none =>
      match m.prevTarget with
      | none => none
      | some prev => (jumps (steps tgt prev) g.limits.maxStepRad).map fun i =>
          .targetJump i (steps tgt prev) g.limits.maxStepRad

/-- the tracking error has to last -/
def checkTracking (g : SafetyGates) (m : SafetyMonitor) (prev armQ : List Value) (now : ℚ) :
    SafetyVerdict × SafetyMonitor :=
  let err := peak (steps prev armQ)
  if g.limits.trackErrRad.lt err.2 then
    match m.trackSince with
    | none => (.ok (.fin 1), { m with trackSince := some now })
    | some since =>
      if g.limits.trackErrHoldS.lt (.fin (now - since)) then
        (.refused (.tracking err.1 err.2 g.limits.trackErrRad (.fin (now - since)) g.limits.trackErrHoldS), m)
      else (.ok (.fin 1), m)
  else (.ok (.fin 1), { m with trackSince := none })

/-- a joint that moves too fast; speeds that are no numbers are not looked at -/
def overspeed (g : SafetyGates) (armDq : Option (List Value)) : Option Reason :=
  match armDq with
  | none => none
  | some dq =>
    let dq := dq.map Value.abs
    if dq.length = g.jointLower.length ∧ dq.all Value.isFinite ∧ g.limits.trackVelRadS.lt (peak dq).2 then
      some (.velocity (peak dq).1 (peak dq).2 g.limits.trackVelRadS)
    else none

def checkFeedback (g : SafetyGates) (m : SafetyMonitor) (sample : Option FeedbackSample) (now : ℚ) :
    SafetyVerdict × SafetyMonitor :=
  match sample with
  | none =>
    if g.limits.feedbackRequired = false then (.ok (.fin 1), m)
    else if m.seenFeedback = false then (.refused .noFeedback, m)
    else if g.limits.feedbackTimeoutS.lt (.fin now - m.lastFeedbackT) then
      (.refused (.staleFeedback (.fin now - m.lastFeedbackT)), m)
    else (.ok (.fin 1), m)
  | some f =>
    -- the sample's own arrival time; `0.0` is no time
    let t := if f.timestamp = .fin 0 then .fin now else f.timestamp
    let m := { m with seenFeedback := true, lastFeedbackT := t }
    if g.limits.feedbackTimeoutS.lt (.fin now - t) then
      (.refused (.staleSample (.fin now - t) g.limits.feedbackTimeoutS), m)
    else if f.armQ.length ≠ g.jointLower.length ∨ f.armQ.all Value.isFinite = false then
      (.refused .feedbackIllegal, m)
    else if f.fault then
      (.refused (.controllerFault (if f.faultReason = "" then "unknown" else f.faultReason)), m)
    else if f.armed = some false then (.refused .disarmed, m)
    else
      match overspeed g f.armDq with
      | some reason => (.refused reason, m)
      | none =>
        match m.prevTarget with
        | none => (.ok (.fin 1), m)
        | some prev => m.checkTracking g prev f.armQ now

end SafetyMonitor

/-- a monitor in its world; `checks` counts the calls of `checkAndClampTarget`, `evaluations` holds the
call and the answer of every `min_distance` -/
structure Guarded (σ : Type) where
  monitor : SafetyMonitor := {}
  world : σ
  checks : ℕ := 0
  evaluations : List (ℕ × Value) := []

namespace Guarded

variable {σ α : Type}

/-- a call into the world -/
def outside (m : EStateM Exn σ α) : EStateM Exn (Guarded σ) α :=
  Effect.zoom Guarded.world (fun w s => { s with world := w }) m

/-- the collision query, every `collision_every_n` ticks -/
def measure (g : SafetyGates) (guard : CollisionGuard σ) (tgt : List Value) : EStateM Exn (Guarded σ) PUnit := do
  modify fun s => { s with monitor := { s.monitor with tick := s.monitor.tick + 1 } }
  let s ← get
  if s.monitor.tick % g.limits.collisionEveryN = 0 then
    let d ← outside (guard.minDistance tgt)
    modify fun s =>
      { s with
        monitor := { s.monitor with lastDistance := d }
        evaluations := s.evaluations ++ [(s.checks, d)] }

/-- joint limits, jumps and collision; the target is returned as it is -/
def checkAndClampTarget (g : SafetyGates) (guard : CollisionGuard σ) (tgt : List Value) :
    EStateM Exn (Guarded σ) (SafetyVerdict × List Value) := do
  modify fun s => { s with checks := s.checks + 1 }
  let s ← get
  match s.monitor.targetRefusal g tgt with
  | some reason => pure (.refused reason, tgt)
  | none =>
    measure g guard tgt
    let s ← get
    let d := s.monitor.lastDistance
    if d.le g.limits.collisionStopM then pure (.refused (.collision d g.limits.collisionStopM), tgt)
    else
      set { s with monitor := { s.monitor with prevTarget := some tgt } }
      pure (.ok (if d.le g.limits.collisionWarnM then g.limits.collisionSlowScale else .fin 1), tgt)

end Guarded

end ArmControl.LeaderFollower
