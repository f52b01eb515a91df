import ArmControl.Execution.Contract
import ArmControl.MultiArm.Coordinator

/-!
# The release of a pair over two supervisors (`multi_arm/supervised_hardware.py`, `release_context`)

* `Future`, `outcome`   the answer to a release on its thread, and what the pair runtime makes of it;
* `Sent`, `Hardware`    what the supervisors are asked, and a world that collects releases;
* `Supervisors`         what the supervisors answer;
* `releaseTogether`     both releases with one start stamp, or none is left to play;
* `handles`             the coordinator's arms over them.

Times are seconds of the PC's monotonic clock.  An execution id names its supervisor, so the two differ and a
dictionary over the members' ids is a function of the side.
-/

namespace ArmControl.MultiArm.PairHardware

open Execution (Phase)

/-- `GROUP_BUDGET_S` -/
def groupBudgetS : ℚ := 150 / 1000

/-- `GROUP_MIN_LEAD_MS / 1e3` -/
def groupMinLeadS : ℚ := 10 / 1000

/-! ## the answer to a release -/

/-- what the RPC returns, or the text of what it raises -/
inductive ReleaseReply where
  | status (phase : Phase) (reason : String)
  | raised (text : String)
  deriving DecidableEq

structure Future where
  /-- when the RPC was over, and with what -/
  answer : Option (ℚ × ReleaseReply)
  /-- when `done()` is asked, after the wait -/
  readAt : ℚ
  deriving DecidableEq

namespace Future

/-- `None` is accepted for the stamp -/
def outcome (f : Future) : Option String :=
  match f.answer with
  | none => some "not confirmed before the scheduled start"
  | some (t, reply) =>
    if f.readAt < t then some "not confirmed before the scheduled start"
    else
      match reply with
      | .raised text => some text
      | .status phase reason =>
        if phase.terminal ∨ phase = .admitted then
          some (phase.value ++ ": " ++ if reason = "" then "not selected" else reason)
        else none

/-- the truth value of the outcome -/
def failed (f : Future) : Bool := given f.outcome

/-- answered before the latest time with a phase that plays -/
def Confirmed (f : Future) (stamp : ℚ) : Prop :=
  ∃ t phase reason, f.answer = some (t, .status phase reason) ∧ t < stamp - groupMinLeadS ∧ phase.begun = true

end Future

/-! ## the world of the pair -/

/-- what a supervisor is asked -/
inductive Sent where
  /-- with the start stamp and the answer, if it is scheduled -/
  | release (a : Side) (executionId : String) (scheduled : Option (ℚ × Future))
  | cancel (a : Side)

def Sent.isRelease : Sent → Bool
  | .release .. => true
  | .cancel _ => false

structure Hardware (σ : Type) where
  rest : σ
  /-- the list that a release is deferred to -/
  deferred : Option (List (Side × String)) := none
  sent : List Sent := []

structure Supervisors (σ : Type) where
  state : Side → EStateM Failure σ ArmControlState
  pollEvents : Side → EStateM Failure σ (List Event)
  stage : Side → ArmPlan → σ → Reply × σ
  cancel : Side → String → String → σ → Reply × σ
  /-- the execution of a staged plan -/
  execution : Side → String → σ → Option String
  /-- `record['released'] = True` -/
  setReleased : Side → String → σ → σ
  /-- an RPC without a start stamp -/
  release : Side → String → EStateM Failure σ PUnit
  /-- the RPCs of the pool, and what their futures say after the wait -/
  submit : List (Side × String) → ℚ → σ → (Side → Future) × σ
  /-- `arm.cancel` of an accepted member -/
  withdraw : Side → String → EStateM Failure σ PUnit
  /-- `now()` of the first client -/
  now : EStateM Failure σ ℚ
  clock : σ → ℚ × σ
  admission : BimanualPlan → (Side → ArmControlState) → EStateM Failure σ PUnit
  onPairResult : PairLifecycle → EStateM Failure σ PUnit

namespace Supervisors

variable {σ α : Type} (v : Supervisors σ)

def inside (m : EStateM Failure σ α) : EStateM Failure (Hardware σ) α :=
  Effect.zoom Hardware.rest (fun r w => { w with rest := r }) m

/-- `SdkArmHandle.execute` -/
def execute (a : Side) (planId : String) (w : Hardware σ) : Reply × Hardware σ :=
  match v.execution a planId w.rest with
  | none => ({ raised := some (.valueError (planId ++ ": no such staged plan")) }, w)
  | some executionId =>
    match w.deferred with
    | some deferred =>
      ({}, { w with rest := v.setReleased a planId w.rest, deferred := some (deferred ++ [(a, executionId)]) })
    | none =>
      match v.release a executionId w.rest with
      | .ok _ r => ({}, { w with rest := v.setReleased a planId r, sent := w.sent ++ [.release a executionId none] })
      | .error e r => ({ raised := some e }, { w with rest := r, sent := w.sent ++ [.release a executionId none] })

def answer : HandleCall → Hardware σ → Reply × Hardware σ
  | .stage a plan, w => ((v.stage a plan w.rest).1, { w with rest := (v.stage a plan w.rest).2 })
  | .execute a planId, w => v.execute a planId w
  | .cancel a reason planId, w =>
    ((v.cancel a reason planId w.rest).1,
      { w with rest := (v.cancel a reason planId w.rest).2, sent := w.sent ++ [.cancel a] })

/-- an accepted member is cancelled before it can move -/
def withdrawOne (x : Side × String) : EStateM Failure (Hardware σ) PUnit := do
  modify fun w => { w with sent := w.sent ++ [.cancel x.1] }
  inside (v.withdraw x.1 x.2)

/-- `'; '.join(...)` over the releases that failed -/
def failures (releases : List (Side × String)) (futures : Side → Future) : String :=
  String.intercalate "; " ((releases.filter fun x => (futures x.1).failed).map fun x =>
    x.2 ++ ": " ++ (futures x.1).outcome.getD "")

/-- `_release_together`, from the answers on -/
def settleReleases (releases : List (Side × String)) (futures : Side → Future) : EStateM Failure (Hardware σ) PUnit :=
  if releases.any fun x => (futures x.1).failed then do
    Effect.each (releases.filter fun x => (futures x.1).outcome.isNone) v.withdrawOne
    throw (.valueError ("pair release failed: " ++ failures releases futures))
  else pure ⟨⟩

/-- what the pool sends -/
def scheduled (releases : List (Side × String)) (stamp : ℚ) (futures : Side → Future) : List Sent :=
  releases.map fun x => .release x.1 x.2 (some (stamp, futures x.1))

def releaseTogether (releases : List (Side × String)) (stamp : ℚ) : EStateM Failure (Hardware σ) PUnit := do
  let w ← get
  let submitted := v.submit releases stamp w.rest
  set { w with
    rest := submitted.2
    sent := w.sent ++ scheduled releases stamp submitted.1 }
  v.settleReleases releases submitted.1

/-- an abort in the loop leaves fewer: a lone member never starts a pair leg -/
def sendDeferred (raised : Option Failure) (deferred : List (Side × String)) : EStateM Failure (Hardware σ) PUnit :=
  if raised.isNone ∧ deferred.length = 2 then do
    let now ← inside v.now
    v.releaseTogether deferred (now + groupBudgetS)
  else pure ⟨⟩

def enterRelease : EStateM Failure (Hardware σ) PUnit := modify fun w => { w with deferred := some [] }

def leaveRelease (raised : Option Failure) : EStateM Failure (Hardware σ) Bool := do
  let w ← get
  set { w with deferred := none }
  v.sendDeferred raised (w.deferred.getD [])
  pure false

def handles : Handles (Hardware σ) where
  state a := inside (v.state a)
  pollEvents a := inside (v.pollEvents a)
  answer := v.answer
  clock w := ((v.clock w.rest).1, { w with rest := (v.clock w.rest).2 })
  admission plan both := inside (v.admission plan both)
  enterRelease := enterRelease
  leaveRelease := v.leaveRelease
  onPairResult l := inside (v.onPairResult l)

end Supervisors

end ArmControl.MultiArm.PairHardware
