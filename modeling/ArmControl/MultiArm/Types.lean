import ArmControl.Lib.Effect
import ArmControl.Lib.ValueArith

/-!
# Values of a pair of arms (`multi_arm/types.py`)

* `Side`             which of the two coordinated arms;
* `PairLifecycle`    the pair's state machine;
* `ArmControlState`  what an arm reports, with `withObservation`;
* `ArmPlan`, `BimanualPlan`, `Event`   plans and what the controllers answer;
* `validateMember`   a member plan against its arm's state.

A dictionary over the two arms is a function of the side.
-/

namespace ArmControl.MultiArm

/-- the first or the second arm of the registry -/
inductive Side where
  | first
  | second
  deriving DecidableEq

/-- what a call raises -/
inductive Failure where
  | valueError (text : String)
  /-- any other `Exception` -/
  | other (text : String)
  deriving DecidableEq

def Failure.text : Failure → String
  | .valueError text => text
  | .other text => text

inductive PairLifecycle where
  | idle
  | staging
  | ready
  | executing
  | complete
  | cancelled
  | faulted
  | rejected
  deriving DecidableEq

namespace PairLifecycle

def value : PairLifecycle → String
  | .idle => "idle"
  | .staging => "staging"
  | .ready => "ready"
  | .executing => "executing"
  | .complete => "complete"
  | .cancelled => "cancelled"
  | .faulted => "faulted"
  | .rejected => "rejected"

/-- a pair is in flight -/
def active : PairLifecycle → Bool
  | .staging | .ready | .executing => true
  | _ => false

/-- ended before it was complete -/
def aborted : PairLifecycle → Bool
  | .cancelled | .faulted | .rejected => true
  | _ => false

end PairLifecycle

/-- what is unknown is `none` -/
structure ArmControlState where
  armId : String
  position : Option (List Value) := none
  velocity : Option (List Value) := none
  armed : Option Bool := none
  ready : Option Bool := none
  executing : Option Bool := none
  runningPlanId : Option String := none
  modeLaw : Option String := none
  stopped : Option Bool := none
  frozen : Option Bool := none
  faultReason : Option String := none
  sessionId : Option String := none
  modelToken : Option String := none
  observedAt : Option Value := none
  stateAgeSec : Option Value := none
  deriving DecidableEq

/-- a text that is there and not empty -/
def given (text : Option String) : Bool := text ≠ none ∧ text ≠ some ""

/-- the age of the sample at `now` -/
def ArmControlState.withObservation (s : ArmControlState) (now : ℚ) : ArmControlState :=
  { s with stateAgeSec := s.observedAt.map fun t => if Value.lt (.fin 0) (.fin now - t) then .fin now - t else .fin 0 }

/-- what `unpack_plan` reads of a payload -/
structure PlanBody where
  planId : Option String
  /-- `gated is True` -/
  gated : Bool
  modelToken : Option String
  times : List Value
  positions : List (List Value)
  velocities : List (List Value)

structure ArmPlan where
  armId : String
  planId : String
  /-- what `unpack_plan` gives on the payload -/
  payload : Except Failure PlanBody

structure BimanualPlan where
  pairId : String
  left : ArmPlan
  right : ArmPlan
  arms : left.armId ≠ right.armId
  plans : left.planId ≠ right.planId

inductive EventKind where
  | planStaged
  | planCleared
  | legResult
  | fault
  | other
  deriving DecidableEq

structure Event where
  kind : EventKind
  /-- the `session_id` of a `runtime_state` that is not empty -/
  session : Option (Option String) := none
  planId : Option String := none
  /-- `ok is True` -/
  ok : Bool := false
  reason : Option String := none
  deriving DecidableEq

/-- a field of an event in a text -/
def shown (text : Option String) : String := text.getD "None"

/-- an array of `n` columns -/
def columns (n : ℕ) (rows : List (List Value)) : Bool := rows.all fun r => decide (r.length = n)

/-- what `JointTrajectory` refuses is refused here already -/
def malformed (b : PlanBody) (joints : ℕ) : Bool :=
  decide (b.times.length < 2) || b.times.head? != some (.fin 0) ||
    (b.times.zipWith (fun x y => !(Value.lt (.fin 0) (y - x))) b.times.tail).any id ||
    !((b.positions ++ b.velocities ++ [b.times]).all fun r => r.all Value.isFinite) ||
    decide (b.positions.length ≠ b.times.length) || decide (b.velocities.length ≠ b.times.length) ||
    !columns joints b.positions || !columns joints b.velocities

def validateMember (member : ArmPlan) (state : ArmControlState) : Except Failure PUnit := do
  let body ← member.payload
  if body.planId ≠ some member.planId ∨ body.gated = false then
    throw (.valueError (member.armId ++ ": member identity/gated payload mismatch"))
  if body.modelToken ≠ state.modelToken then
    throw (.valueError (member.armId ++ ": plan model token changed"))
  match state.position with
  | none => throw (.other "object of type 'NoneType' has no len()")
  | some q =>
    if malformed body q.length then throw (.valueError (member.armId ++ ": malformed trajectory"))

end ArmControl.MultiArm
