import Mathlib.Algebra.Order.Field.Basic
import ArmControl.Lib.Numerals

/-!
# Settling (`control/leg_settling.py`)

* `LegSettling`     one leg's settle clocks: dwell to accept, timeout to give up;
* `begins`, `poll`  arm the clocks, ask them;
* `asks`            whether a poll consults `done`;
* `poll_eq`         a poll in three steps: the end, the sample, the verdict;
* `verdict_settled`, `verdict_late`   what an acceptance has, and that time runs out.
-/

set_option linter.unusedSectionVars false

namespace ArmControl.Control

section
variable {K : Type} [Field K] [LinearOrder K]

inductive SettleState where
  | settling
  | settled
  | timedOut
  deriving DecidableEq

/-- where the leg stands, and how long it has been standing there -/
structure SettleVerdict (K : Type) where
  state : SettleState
  elapsed : K
  remaining : K
  deriving DecidableEq

structure LegSettling (K : Type) [Field K] [LinearOrder K] where
  timeoutS : K
  dwellS : K
  ordered : 0 ≤ dwellS ∧ dwellS < timeoutS
  /-- `none` waits for the observed end of a native reference -/
  legEnd : Option K := some 0
  settledSince : Option K := none
  reportAt : Option K := none

/-- how often a settling leg reports progress -/
def reportPeriodS : K := 1 / 4

namespace LegSettling

/-- arm the clocks for a leg whose reference ends at `legEnd` -/
def begins (s : LegSettling K) (legEnd : Option K) : LegSettling K :=
  { s with legEnd := legEnd, settledSince := none, reportAt := none }

/-- an end that is observed now -/
def observed (s : LegSettling K) (now : K) (referenceEnded : Bool) : LegSettling K :=
  match s.legEnd with
  | some _ => s
  | none => if referenceEnded then { s with legEnd := some now } else s

/-- the reference has ended -/
def isOver (s : LegSettling K) (now : K) : Bool := s.legEnd.any (· ≤ now)

/-- a fresh sample moves the start of the dwell -/
def judged (s : LegSettling K) (now : K) (done : Bool) : LegSettling K :=
  { s with settledSince := if done then some (s.settledSince.getD now) else none }

def verdict (s : LegSettling K) (now legEnd : K) (fresh : Bool) : SettleVerdict K :=
  let elapsed := max 0 (now - legEnd)
  let remaining := max 0 (s.timeoutS - elapsed)
  if fresh ∧ (∃ since ∈ s.settledSince, s.dwellS ≤ now - since) ∧ elapsed ≤ s.timeoutS then
    ⟨.settled, elapsed, remaining⟩
  else if s.timeoutS ≤ elapsed then ⟨.timedOut, elapsed, remaining⟩
  else ⟨.settling, elapsed, remaining⟩

/-- a poll consults `done`: on a fresh sample, after the end -/
def asks (s : LegSettling K) (now : K) (fresh referenceEnded : Bool) : Bool :=
  fresh && (s.observed now referenceEnded).isOver now

/-- no verdict before the reference ends -/
def poll (s : LegSettling K) (now : K) (fresh : Bool) (done : Bool) (referenceEnded : Bool) :
    Option (SettleVerdict K) × LegSettling K :=
  let s := s.observed now referenceEnded
  match s.legEnd with
  | none => (none, s)
  | some legEnd =>
    if now < legEnd then (none, s)
    else
      let s := if fresh then s.judged now done else s
      (some (s.verdict now legEnd fresh), s)

/-- progress messages, at most one a period -/
def dueToReport (s : LegSettling K) (now : K) : Bool × LegSettling K :=
  if s.reportAt.any (now - · < reportPeriodS) then (false, s) else (true, { s with reportAt := some now })

variable (s : LegSettling K) (now legEnd : K) (fresh done referenceEnded : Bool)

theorem poll_eq :
    s.poll now fresh done referenceEnded =
      ((s.observed now referenceEnded).legEnd.bind fun e =>
        if e ≤ now then
          some ((if fresh then (s.observed now referenceEnded).judged now done else s.observed now referenceEnded).verdict
            now e fresh)
        else none,
        if s.asks now fresh referenceEnded then (s.observed now referenceEnded).judged now done
        else s.observed now referenceEnded) := by
  unfold poll asks isOver
  dsimp only
  cases h : (s.observed now referenceEnded).legEnd with
  | none => simp
  | some e =>
    by_cases hlt : now < e
    · simp [hlt, not_le.mpr hlt]
    · simp [hlt, not_lt.mp hlt]

variable {s now legEnd fresh}

/-- what an acceptance has -/
theorem verdict_settled (h : (s.verdict now legEnd fresh).state = .settled) :
    fresh = true ∧ (∃ since ∈ s.settledSince, s.dwellS ≤ now - since) ∧ now - legEnd ≤ s.timeoutS := by
  unfold verdict at h
  dsimp only at h
  split_ifs at h with haccept
  obtain ⟨hfresh, hdwell, helapsed⟩ := haccept
  exact ⟨hfresh, hdwell, le_trans (le_max_right _ _) helapsed⟩

/-- once the time has run out, a poll does not go on settling -/
theorem verdict_late (h : s.timeoutS ≤ now - legEnd) : (s.verdict now legEnd fresh).state ≠ .settling := by
  have helapsed : s.timeoutS ≤ max 0 (now - legEnd) := le_trans h (le_max_right _ _)
  unfold verdict
  dsimp only
  split_ifs
  · exact nofun
  · exact nofun

end LegSettling

end

end ArmControl.Control
