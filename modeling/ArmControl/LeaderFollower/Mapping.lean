import Mathlib.Algebra.Order.Field.Rat
import ArmControl.LeaderFollower.Safety

/-!
# From the small arm to the big one (`leader_follower/mapping.py`)

* `JointMapping`, `GripperMapping`   one joint, and the gripper;
* `Retargeter`                       `autoAlign`, `reset` and `map`.

`_prev_arm` and `_prev_grip` are set together, and so are the two start values.
-/

namespace ArmControl.LeaderFollower

/-- `xs[i]`, from the end where `i` is negative -/
def pyIndex {α : Type} (xs : List α) (i : ℤ) : Except Exn α :=
  match xs[(if i < 0 then i + xs.length else i).toNat]? with
  | some x => if i + xs.length < 0 then .error (.error "IndexError") else .ok x
  | none => .error (.error "IndexError")

/-- an operation on two arrays of one dimension -/
def broadcast (f : Value → Value → Value) (xs ys : List Value) : Except Exn (List Value) :=
  match xs, ys with
  | [x], ys => .ok (ys.map (f x))
  | xs, [y] => .ok (xs.map (f · y))
  | xs, ys => if xs.length = ys.length then .ok (xs.zipWith f ys) else .error (.error "ValueError")

structure JointMapping where
  srcIndex : ℤ
  sign : Value := .fin 1
  offset : Value := .fin 0
  scale : Value := .fin 1
  lower : Value := .inf true
  upper : Value := .inf false
  maxRate : Value := .inf false

namespace JointMapping

def apply (j : JointMapping) (leader : List Value) (extraOffset : Value) : Except Exn Value :=
  (pyIndex leader j.srcIndex).map fun raw => j.offset + extraOffset + j.scale * j.sign * raw

def clamp (j : JointMapping) (v : Value) : Value := v.clip j.lower j.upper

end JointMapping

structure GripperMapping where
  srcIndex : ℤ := -1
  openFingerM : Value := .fin (4 / 100)
  closedFingerM : Value := .fin 0
  maxRateMS : Value := .inf false

/-- leader `1` is open, `0` closed -/
def GripperMapping.apply (g : GripperMapping) (leader : List Value) : Except Exn Value :=
  (pyIndex leader g.srcIndex).map fun raw =>
    let w := g.closedFingerM + raw.clip (.fin 0) (.fin 1) * (g.openFingerM - g.closedFingerM)
    w.clip (if g.closedFingerM.lt g.openFingerM then g.closedFingerM else g.openFingerM)
      (if g.openFingerM.lt g.closedFingerM then g.closedFingerM else g.openFingerM)

structure Retargeter where
  joints : List JointMapping
  nonempty : joints ≠ []
  gripper : Option GripperMapping := none
  alpha : Value := .fin (9 / 10)
  rampS : Value := .fin 0
  holdLastOnStale : Bool := true
  align : Option (List Value) := none
  prev : Option (List Value × Value) := none
  start : Option (List Value × Value) := none
  rampElapsed : ℚ := 0
  lastT : Option ℚ := none
  lastOk : Option (List Value × Value) := none

namespace Retargeter

/-- the leader's posture now is the follower's posture now -/
def autoAlign (leader follower : List Value) : EStateM Exn Retargeter PUnit := do
  let r ← get
  if follower.length ≠ r.joints.length then throw (.error "大臂状态长度不符")
  let applied ← raising (r.joints.mapM fun j => j.apply leader (.fin 0))
  set { r with align := some (follower.zipWith (· - ·) applied) }

/-- the motion starts from the follower's posture -/
def reset (arm : List Value) (grip : Value) : EStateM Exn Retargeter PUnit :=
  modify fun r => { r with start := some (arm, grip), prev := some (arm, grip), rampElapsed := 0, lastT := none }

/-- `a * (1.0 - w) + b * w` -/
def mix (w a b : Value) : Value := a * (.fin 1 - w) + b * w

/-- `a + w * (b - a)` -/
def blend (w a b : Value) : Value := a + w * (b - a)

/-- `min(elapsed / ramp_s, 1.0)` -/
def ramp (elapsed : ℚ) : Value → Value
  | .fin s => .fin (min (elapsed / s) 1)
  | .inf _ => .fin 0
  | .nan => .nan

def smooth (r : Retargeter) (arm : List Value) (grip : Value) : Except Exn (List Value × Value) :=
  match r.prev with
  | some (prevArm, prevGrip) =>
    if r.alpha.lt (.fin 1) then
      (broadcast (mix r.alpha) prevArm arm).map fun arm =>
        (arm, if r.gripper.isSome then mix r.alpha prevGrip grip else grip)
    else .ok (arm, grip)
  | none => .ok (arm, grip)

def softStart (r : Retargeter) (arm : List Value) (grip : Value) : Except Exn (List Value × Value) :=
  match r.start with
  | some (startArm, startGrip) =>
    if Value.lt (.fin 0) r.rampS then
      (broadcast (blend (ramp r.rampElapsed r.rampS)) startArm arm).map fun arm =>
        (arm, if r.gripper.isSome then blend (ramp r.rampElapsed r.rampS) startGrip grip else grip)
    else .ok (arm, grip)
  | none => .ok (arm, grip)

/-- at most `rate * dt` away from the previous value -/
def limitRate (rate : Value) (dt : ℚ) (prev v : Value) : Value :=
  if rate.isFinite then v.clip (prev - rate * .fin dt) (prev + rate * .fin dt) else v

def rateLimit (r : Retargeter) (dt : ℚ) (arm : List Value) (grip : Value) : Except Exn (List Value × Value) :=
  match r.prev with
  | some (prevArm, prevGrip) =>
    if 1 / 1000000000 < dt then
      if prevArm.length < r.joints.length then .error (.error "IndexError")
      else .ok (r.joints.zipWith (fun j p => limitRate j.maxRate dt p.1 p.2) (prevArm.zip arm) ++
          arm.drop r.joints.length,
        (r.gripper.map fun g => limitRate g.maxRateMS dt prevGrip grip).getD grip)
    else .ok (arm, grip)
  | none => .ok (arm, grip)

/-- a frame; a leader that is no number gives the last target, or none -/
def map (leader : List Value) (now : ℚ) : EStateM Exn Retargeter (Option (List Value × Value)) := do
  let r ← get
  if leader.all Value.isFinite = false then
    return if r.holdLastOnStale then r.lastOk else none
  let align := r.align.getD (r.joints.map fun _ => .fin 0)
  let desired ← raising ((r.joints.zip align).mapM fun p => p.1.apply leader p.2)
  let grip ← raising (match r.gripper with
    | some g => g.apply leader
    | none => .ok (.fin 0))
  let dt := match r.lastT with
    | none => 0
    | some t => max (now - t) 0
  modify fun r => { r with lastT := some now }
  let (desired, grip) ← raising (r.smooth desired grip)
  modify fun r =>
    { r with
      rampElapsed := if Value.lt (.fin 0) r.rampS ∧ r.start.isSome then r.rampElapsed + dt else r.rampElapsed }
  let r ← get
  let (desired, grip) ← raising (r.softStart desired grip)
  let (desired, grip) ← raising (r.rateLimit dt desired grip)
  let desired := r.joints.zipWith JointMapping.clamp desired
  modify fun r => { r with prev := some (desired, grip), lastOk := some (desired, grip) }
  return some (desired, grip)

end Retargeter

end ArmControl.LeaderFollower
