import ArmControl.MultiArm.Types

/-!
# The coordinator of a pair (`multi_arm/coordinator.py`)

The arms, the clock, the admission and the release context are programs over a world `σ` that nothing is
known about.  A call of a handle may deliver events before it returns or raises; `handler` takes them.

* `Group`, `Handles`     what a coordinator is built with;
* `PairRun`              the pair that owns the group;
* `Coordinator`          its state, with the log of what it did;
* `onMemberEvent`        at most `n` deliveries inside each other;
* `stagePair`, `executePair`, `cancelPair`, `pump`, `checkTimeouts`.
-/

namespace ArmControl.MultiArm

inductive HandleCall where
  | stage (a : Side) (plan : ArmPlan)
  | execute (a : Side) (planId : String)
  | cancel (a : Side) (reason planId : String)

/-- what a call delivers, and what it raises then -/
structure Reply where
  events : List (String × Event) := []
  raised : Option Failure := none

structure Handles (σ : Type) where
  state : Side → EStateM Failure σ ArmControlState
  pollEvents : Side → EStateM Failure σ (List Event)
  answer : HandleCall → σ → Reply × σ
  clock : σ → ℚ × σ
  admission : BimanualPlan → (Side → ArmControlState) → EStateM Failure σ PUnit
  enterRelease : EStateM Failure σ PUnit
  /-- the context's end, and whether it swallows the exception -/
  leaveRelease : Option Failure → EStateM Failure σ Bool
  onPairResult : PairLifecycle → EStateM Failure σ PUnit

structure Group where
  name : Side → String
  distinct : name .first ≠ name .second
  named : ∀ a, name a ≠ ""
  stagingTimeoutS : ℚ
  stateTimeoutS : ℚ
  positive : 0 < stagingTimeoutS ∧ 0 < stateTimeoutS
  /-- how a set of the two arms is iterated -/
  setReversed : Bool := false

structure PairRun where
  plan : BimanualPlan
  stagedAt : ℚ
  sessions : Side → Option String
  models : Side → Option String
  lifecycle : PairLifecycle := .staging
  stageAcks : Side → Option (Bool × String) := fun _ => none
  ackTimes : Side → Option ℚ := fun _ => none
  results : Side → Option (Bool × String) := fun _ => none
  releases : Side → Option ℚ := fun _ => none
  pendingCancels : Side → Bool := fun _ => false
  cancelErrors : Side → Option String := fun _ => none
  cancellationRequested : Bool := false
  readyAt : Option ℚ := none
  completedAt : Option ℚ := none
  faultedArm : Option Side := none
  reason : String := ""

/-- what the coordinator did -/
inductive Entry where
  | called (c : HandleCall)
  | event (a : Side) (e : Event)
  /-- `_states` returned -/
  | checked (now : ℚ) (states : Side → ArmControlState)
  /-- the pair of `plan` entered `next` -/
  | moved (plan : BimanualPlan) (next : PairLifecycle)

structure Coordinator (σ : Type) where
  world : σ
  run : Option PairRun := none
  consumedPairIds : List String := []
  consumedPlanIds : List String := []
  /-- the loop variable of `execute_pair` -/
  releasing : Option Side := none
  log : List Entry := []

namespace Group

variable (g : Group)

def sideOf (armId : String) : Option Side :=
  if armId = g.name .first then some .first else if armId = g.name .second then some .second else none

/-- `members()[a]` -/
def member (p : BimanualPlan) (a : Side) : ArmPlan := if p.left.armId = g.name a then p.left else p.right

/-- the order of `members()` -/
def order (p : BimanualPlan) : List Side := if p.left.armId = g.name .first then [.first, .second] else [.second, .first]

/-- `set(members) == set(self.arms)` -/
def covers (p : BimanualPlan) : Bool :=
  (p.left.armId = g.name .first ∧ p.right.armId = g.name .second) ∨
    (p.left.armId = g.name .second ∧ p.right.armId = g.name .first)

def setOrder : List Side := if g.setReversed then [.second, .first] else [.first, .second]

end Group

namespace Coordinator

variable {σ α : Type}

abbrev M (σ : Type) := EStateM Failure (Coordinator σ)

def add (e : Entry) (s : Coordinator σ) : Coordinator σ := { s with log := s.log ++ [e] }

def note (e : Entry) : M σ PUnit := modify (add e)

def onWorld (m : EStateM Failure σ α) : M σ α := Effect.zoom Coordinator.world (fun w s => { s with world := w }) m

def now (h : Handles σ) : M σ ℚ := fun s => .ok (h.clock s.world).1 { s with world := (h.clock s.world).2 }

def updateRun (f : PairRun → PairRun) : M σ PUnit := modify fun s => { s with run := s.run.map f }

/-- the run enters `next` -/
def enter (next : PairLifecycle) (f : PairRun → PairRun) (s : Coordinator σ) : Coordinator σ :=
  { s with
    run := s.run.map fun r => { f r with lifecycle := next }
    log := s.log ++ (s.run.map fun r => Entry.moved r.plan next).toList }

def move (next : PairLifecycle) (f : PairRun → PairRun) : M σ PUnit := modify (enter next f)

def lifecycle (s : Coordinator σ) : PairLifecycle := (s.run.map PairRun.lifecycle).getD .idle

def refuse : Option String → M σ PUnit
  | some text => throw (.valueError text)
  | none => pure ⟨⟩

/-! ## states -/

def ofBoth (x y : α) : Side → α
  | .first => x
  | .second => y

/-- no sample, or one of the future or too old -/
def stale (g : Group) (now : ℚ) (s : ArmControlState) : Bool :=
  match s.observedAt, s.stateAgeSec with
  | some t, some age => !t.isFinite || Value.lt (.fin now) t || !age.isFinite || Value.lt (.fin g.stateTimeoutS) age
  | _, _ => true

/-- why `_states` refuses an arm at `now` -/
def stateRefusal (g : Group) (name : String) (now : ℚ) (s : ArmControlState) : Option String :=
  if given s.sessionId = false then some (name ++ ": controller session unknown")
  else if stale g now s then some (name ++ ": measured state missing or stale")
  else if s.position = none ∨ s.velocity = none then some (name ++ ": measured position/velocity unknown")
  else if s.armed ≠ some true ∨ s.ready ≠ some true then some (name ++ ": not armed and ready")
  else if s.executing = none ∨ s.stopped = none ∨ s.frozen = none then
    some (name ++ ": controller execution state unknown")
  else if s.stopped = some true ∨ s.frozen = some true ∨ given s.faultReason ∨ s.modeLaw ≠ some "joint" then
    some (name ++ ": controller faulted, frozen or outside joint mode")
  else none

/-- `arm_states` of one arm -/
def armState (h : Handles σ) (a : Side) : M σ ArmControlState := do
  let s ← onWorld (h.state a)
  let t ← now h
  pure (s.withObservation t)

/-- both arms first, then `now`: one age basis for every arm -/
def states (g : Group) (h : Handles σ) : M σ (Side → ArmControlState) := do
  let x ← armState h .first
  let y ← armState h .second
  let t ← now h
  let x := x.withObservation t
  let y := y.withObservation t
  refuse (stateRefusal g (g.name .first) t x)
  refuse (stateRefusal g (g.name .second) t y)
  note (.checked t (ofBoth x y))
  pure (ofBoth x y)

/-- why `_check_run` refuses an arm -/
def runRefusal (g : Group) (run : PairRun) (both : Side → ArmControlState) (a : Side) : Option String :=
  if (both a).sessionId ≠ run.sessions a then some (g.name a ++ ": controller restarted")
  else if (both a).modelToken ≠ run.models a then some (g.name a ++ ": model changed")
  else none

def checkRun (g : Group) (h : Handles σ) (run : PairRun) : M σ PUnit := do
  let both ← states g h
  refuse (runRefusal g run both .first)
  refuse (runRefusal g run both .second)

def raising : Except Failure α → M σ α
  | .ok a => pure a
  | .error e => throw e

/-! ## calls, cancels and events -/

section
variable (g : Group) (h : Handles σ) (handler : String → Event → M σ PUnit)

/-- what the handler raises stays with the handle -/
def deliver (events : List (String × Event)) : M σ PUnit :=
  Effect.each events fun x => tryCatch (handler x.1 x.2) fun _ => pure ⟨⟩

def call (c : HandleCall) : M σ PUnit := do
  note (.called c)
  let s ← get
  set { s with world := (h.answer c s.world).2 }
  deliver handler (h.answer c s.world).1.events
  match (h.answer c s.world).1.raised with
  | none => pure ⟨⟩
  | some e => throw e

/-- a cancel of the run's own plan; what it raises is kept -/
def sendCancel (run : PairRun) (a : Side) : M σ PUnit :=
  tryCatch (do
    call h handler (.cancel a run.reason (g.member run.plan a).planId)
    updateRun fun r => { r with cancelErrors := Function.update r.cancelErrors a none }) fun e =>
    updateRun fun r => { r with cancelErrors := Function.update r.cancelErrors a (some e.text) }

def sendCancels : M σ PUnit := do
  let s ← get
  match s.run with
  | none => pure ⟨⟩
  | some run => Effect.each (g.setOrder.filter fun a => run.pendingCancels a) (sendCancel g h handler run)

def finish : M σ PUnit := do
  let s ← get
  onWorld (h.onPairResult s.lifecycle)

/-- the fields that an early end sets -/
def ending (reason : String) (arm : Option Side) (t : ℚ) (r : PairRun) : PairRun :=
  { r with
    reason := reason
    faultedArm := arm
    completedAt := some t
    cancellationRequested := true
    pendingCancels := fun _ => true }

/-- an active pair ends, and both cancels are attempted -/
def abort (next : PairLifecycle) (reason : String) (arm : Option Side) : M σ PUnit := do
  let s ← get
  if s.lifecycle.active then
    let t ← now h
    move next (ending reason arm t)
    sendCancels g h handler
    finish h

def onCleared (run : PairRun) (a : Side) (e : Event) : M σ PUnit :=
  if run.cancellationRequested then
    if e.ok then
      updateRun fun r =>
        { r with
          pendingCancels := Function.update r.pendingCancels a false
          cancelErrors := Function.update r.cancelErrors a none }
    else
      updateRun fun r => { r with cancelErrors := Function.update r.cancelErrors a (some (e.reason.getD "clear refused")) }
  else pure ⟨⟩

def onStaged (run : PairRun) (a : Side) (e : Event) : M σ PUnit :=
  if run.lifecycle = .staging ∧ run.stageAcks a = none then do
    let t ← now h
    let acks := Function.update run.stageAcks a (some (e.ok, e.reason.getD ""))
    updateRun fun r => { r with stageAcks := acks, ackTimes := Function.update r.ackTimes a (some t) }
    if e.ok = false then abort g h handler .rejected (g.name a ++ ": " ++ shown e.reason) (some a)
    else if (acks .first).isSome ∧ (acks .second).isSome then
      let t ← now h
      move .ready fun r => { r with readyAt := some t }
  else pure ⟨⟩

def onResult (run : PairRun) (a : Side) (e : Event) : M σ PUnit :=
  if run.lifecycle.active ∧ e.ok = false then do
    updateRun fun r => { r with results := Function.update run.results a (some (false, e.reason.getD "")) }
    abort g h handler .faulted (e.reason.getD "member failed") (some a)
  else if run.lifecycle = .executing ∧ run.results a = none then do
    let results := Function.update run.results a (some (true, e.reason.getD ""))
    updateRun fun r => { r with results := results }
    if (results .first).isSome ∧ (results .second).isSome then
      let t ← now h
      move .complete fun r => { r with completedAt := some t }
      finish h
  else pure ⟨⟩

/-- an event of the pair that owns the group -/
def onEvent (run : PairRun) (a : Side) (e : Event) : M σ PUnit :=
  if (e.kind = .planStaged ∨ e.kind = .planCleared) ∧ e.session = none then pure ⟨⟩
  else if e.session.isSome ∧ e.session ≠ some (run.sessions a) then
    abort g h handler .faulted (g.name a ++ ": controller restarted") (some a)
  else if e.kind = .fault then abort g h handler .faulted (e.reason.getD "member fault") (some a)
  else if e.planId ≠ some (g.member run.plan a).planId then pure ⟨⟩
  else
    match e.kind with
    | .planCleared => onCleared run a e
    | .planStaged => onStaged g h handler run a e
    | .legResult => onResult g h handler run a e
    | _ => pure ⟨⟩

def onMemberEventWith (armId : String) (e : Event) : M σ PUnit :=
  match g.sideOf armId with
  | none => throw (.other armId)
  | some a => do
    let s ← get
    match s.run with
    | none => pure ⟨⟩
    | some run =>
      note (.event a e)
      onEvent g h handler run a e

end

section
variable (g : Group) (h : Handles σ)

/-- with at most `n` deliveries inside each other -/
def onMemberEvent : ℕ → String → Event → M σ PUnit
  | 0 => onMemberEventWith g h fun _ _ => pure ⟨⟩
  | n + 1 => onMemberEventWith g h (onMemberEvent n)

variable (n : ℕ)

def poll (a : Side) : M σ PUnit := do
  let events ← onWorld (h.pollEvents a)
  Effect.each events (onMemberEvent g h n (g.name a))

def checkTimeouts : M σ PUnit := do
  let s ← get
  match s.run with
  | none => pure ⟨⟩
  | some run =>
    if run.lifecycle.active then
      let ok ← tryCatch (do checkRun g h run; pure true) fun e =>
        match e with
        | .valueError text => do
          abort g h (onMemberEvent g h n) .faulted text none
          pure false
        | e => throw e
      if ok then
        if run.lifecycle = .staging then
          let t ← now h
          if g.stagingTimeoutS < t - run.stagedAt then
            abort g h (onMemberEvent g h n) .rejected "staging ACK timeout" none

def pump : M σ PUnit := do
  poll g h n .first
  poll g h n .second
  checkTimeouts g h n

def cancelPair (reason : String) : M σ PUnit := do
  let s ← get
  match s.run with
  | none => pure ⟨⟩
  | some run =>
    if run.lifecycle.active then abort g h (onMemberEvent g h n) .cancelled reason none
    else sendCancels g h (onMemberEvent g h n)

/-! ## staging -/

/-- the member plans go out until one is refused -/
def stageMembers (plan : BimanualPlan) : List Side → M σ PUnit
  | [] => pure ⟨⟩
  | a :: rest => do
    let ok ← tryCatch (do call h (onMemberEvent g h n) (.stage a (g.member plan a)); pure true) fun e => do
      abort g h (onMemberEvent g h n) .rejected (g.name a ++ ": staging failed: " ++ e.text) (some a)
      pure false
    if ok then
      let s ← get
      if s.lifecycle.active then stageMembers plan rest

/-- a member plan against its arm: nothing else is loaded there -/
def admitMember (plan : BimanualPlan) (both : Side → ArmControlState) (a : Side) : M σ PUnit := do
  if (both a).executing = some true ∨ given (both a).runningPlanId then
    throw (.valueError (g.name a ++ ": another plan owns the controller"))
  raising (validateMember (g.member plan a) (both a))

def stageRefusal (s : Coordinator σ) (plan : BimanualPlan) : Option String :=
  if ∃ run ∈ s.run, run.lifecycle.active ∨ run.pendingCancels .first ∨ run.pendingCancels .second then
    some "previous pair is active or cancellation is unconfirmed"
  else if g.covers plan = false then some "pair members differ from coordinated arms"
  else if plan.pairId ∈ s.consumedPairIds then some "pair id already consumed"
  else if plan.left.planId ∈ s.consumedPlanIds ∨ plan.right.planId ∈ s.consumedPlanIds then
    some "member plan id already consumed"
  else none

/-- the pair owns the group from here on -/
def own (plan : BimanualPlan) (both : Side → ArmControlState) (t : ℚ) (s : Coordinator σ) : Coordinator σ :=
  { s with
    consumedPairIds := plan.pairId :: s.consumedPairIds
    consumedPlanIds := plan.left.planId :: plan.right.planId :: s.consumedPlanIds
    run := some
      { plan := plan
        stagedAt := t
        sessions := fun a => (both a).sessionId
        models := fun a => (both a).modelToken }
    log := s.log ++ [.moved plan .staging] }

def stagePair (plan : BimanualPlan) : M σ PUnit := do
  let s ← get
  refuse (stageRefusal g s plan)
  let both ← states g h
  Effect.each (g.order plan) (admitMember g plan both)
  onWorld (h.admission plan both)
  let t ← now h
  modify (own plan both t)
  stageMembers g h n plan (g.order plan)

/-! ## release -/

/-- the staged plan is still loaded and does not run -/
def loadedMember (plan : BimanualPlan) (both : Side → ArmControlState) (a : Side) : M σ PUnit := do
  if (both a).runningPlanId ≠ some (g.member plan a).planId ∨ (both a).executing = some true then
    throw (.valueError (g.name a ++ ": staged plan is no longer loaded"))
  raising (validateMember (g.member plan a) (both a))

def checkRelease (run : PairRun) : M σ PUnit := do
  checkRun g h run
  let both ← states g h
  Effect.each (g.order run.plan) (loadedMember g run.plan both)
  onWorld (h.admission run.plan both)

/-- a refusal seen in the poll stops the release of the partner -/
def releaseMembers (plan : BimanualPlan) : List Side → M σ PUnit
  | [] => pure ⟨⟩
  | a :: rest => do
    modify fun s => { s with releasing := some a }
    call h (onMemberEvent g h n) (.execute a (g.member plan a).planId)
    let t ← now h
    updateRun fun r => { r with releases := Function.update r.releases a (some t) }
    poll g h n a
    let s ← get
    if s.lifecycle = .executing then releaseMembers plan rest

/-- `with self._release_context(): body` -/
def withRelease (body : M σ PUnit) : M σ PUnit := do
  onWorld h.enterRelease
  let raised ← tryCatch (do body; pure none) fun e => pure (some e)
  let swallowed ← onWorld (h.leaveRelease raised)
  match raised with
  | some e => if swallowed then pure ⟨⟩ else throw e
  | none => pure ⟨⟩

def release (run : PairRun) : M σ PUnit := do
  move .executing fun r => r
  modify fun s => { s with releasing := none }
  tryCatch (withRelease h (releaseMembers g h n run.plan (g.order run.plan))) fun e => do
    let s ← get
    abort g h (onMemberEvent g h n) .faulted
      ((s.releasing.map g.name).getD "None" ++ ": release failed: " ++ e.text) s.releasing

def executePair (pairId : String) : M σ PUnit := do
  let s ← get
  match s.run with
  | none => throw (.valueError "no active pair")
  | some run =>
    if run.plan.pairId ≠ pairId then throw (.valueError "no active pair")
    else if run.lifecycle = .executing then pure ⟨⟩
    else if run.lifecycle ≠ .ready then
      throw (.valueError ("pair " ++ pairId ++ ": " ++ run.lifecycle.value ++ ", not ready"))
    else
      let ok ← tryCatch (do checkRelease g h run; pure true) fun e => do
        abort g h (onMemberEvent g h n) .rejected e.text none
        pure false
      if ok then release g h n run

end

/-! ## runs -/

inductive Op where
  | stagePair (plan : BimanualPlan)
  | executePair (pairId : String)
  | cancelPair (reason : String)
  | pump
  | checkTimeouts
  | onMemberEvent (armId : String) (e : Event)

def op (g : Group) (h : Handles σ) (n : ℕ) : Op → M σ PUnit
  | .stagePair plan => stagePair g h n plan
  | .executePair pairId => executePair g h n pairId
  | .cancelPair reason => cancelPair g h n reason
  | .pump => pump g h n
  | .checkTimeouts => checkTimeouts g h n
  | .onMemberEvent armId e => onMemberEvent g h n armId e

/-- what an operation raises goes to its caller -/
def step (g : Group) (h : Handles σ) (n : ℕ) (s : Coordinator σ) (o : Op) : Coordinator σ := Effect.leaves (op g h n o) s

end Coordinator

end ArmControl.MultiArm
