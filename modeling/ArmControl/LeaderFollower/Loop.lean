import ArmControl.LeaderFollower.Mapping

/-!
# The teleoperation loop (`leader_follower/loop.py`)

The deployment is a record of programs over a world `σ`; what the loop calls, and whether the call raised,
is kept in `entries`.

* `Parties`       leader, follower, feedback and collision guard;
* `TeleopLoop`    the loop's state;
* `startupAlign`, `once`, `run`.

The loop's list of clock readings ends where `_stop` is set or the duration is over.
-/

namespace ArmControl.LeaderFollower

structure Parties (σ : Type) where
  getJointState : EStateM Exn σ (List Value)
  leaderClose : EStateM Exn σ PUnit
  numArmJoints : ℕ
  followerOpen : EStateM Exn σ PUnit
  readState : EStateM Exn σ (List Value × Value)
  followerSend : List Value → Value → EStateM Exn σ PUnit
  safeStop : EStateM Exn σ PUnit
  followerClose : EStateM Exn σ PUnit
  feedback : Option (EStateM Exn σ (Option FeedbackSample))
  collision : CollisionGuard σ
  /-- the log, the clock and the sleep; they raise an interrupt -/
  pause : EStateM Exn σ PUnit

inductive Call where
  | getJointState
  | followerOpen
  | readState
  | setOtherState
  | checkTarget
  | send (arm : List Value) (grip : Value) (now : ℚ)
  | feedback
  | pause
  | safeStop
  | followerClose
  | leaderClose
  | guardClose
  deriving DecidableEq

inductive Entry where
  | called (c : Call) (raised : Option Exn)
  /-- a gate of `once` did not pass -/
  | gateFailed (reason : Reason) (source : Source)
  deriving DecidableEq

structure TeleopLoop (σ : Type) where
  gate : Guarded σ
  retargeter : Retargeter
  ticks : ℕ := 0
  sends : ℕ := 0
  safetyStops : ℕ := 0
  entries : List Entry := []

namespace TeleopLoop

variable {σ α : Type}

def add (e : Entry) (s : TeleopLoop σ) : TeleopLoop σ := { s with entries := s.entries ++ [e] }

def setWorld (w : σ) (s : TeleopLoop σ) : TeleopLoop σ := { s with gate := { s.gate with world := w } }

def note (e : Entry) : EStateM Exn (TeleopLoop σ) PUnit := modify (add e)

/-- a call, noted when it has ended -/
def noted (c : Call) (m : EStateM Exn (TeleopLoop σ) α) : EStateM Exn (TeleopLoop σ) α := do
  let a ← tryCatch m fun e => do
    note (.called c (some e))
    throw e
  note (.called c none)
  pure a

def onGate (m : EStateM Exn (Guarded σ) α) : EStateM Exn (TeleopLoop σ) α :=
  Effect.zoom TeleopLoop.gate (fun g s => { s with gate := g }) m

def called (c : Call) (m : EStateM Exn σ α) : EStateM Exn (TeleopLoop σ) α := noted c (onGate (Guarded.outside m))

def onRetargeter (m : EStateM Exn Retargeter α) : EStateM Exn (TeleopLoop σ) α :=
  Effect.zoom TeleopLoop.retargeter (fun r s => { s with retargeter := r }) m

/-- `raise SafetyStop(reason, source)` -/
def raiseStop (reason : Reason) (source : Source) : EStateM Exn (TeleopLoop σ) α := do
  note (.gateFailed reason source)
  throw (.safetyStop reason source)

/-- a gate of the monitor that asks nothing of the world -/
def judge (source : Source) (verdict : SafetyMonitor → SafetyVerdict × SafetyMonitor) :
    EStateM Exn (TeleopLoop σ) PUnit := do
  let s ← get
  set { s with gate := { s.gate with monitor := (verdict s.gate.monitor).2 } }
  match (verdict s.gate.monitor).1 with
  | .ok _ => pure ⟨⟩
  | .refused reason => raiseStop reason source

/-- an exception of the feedback is a faulted sample -/
def readFeedback (p : Parties σ) (now : ℚ) : EStateM Exn (TeleopLoop σ) (Option FeedbackSample) :=
  match p.feedback with
  | none => pure none
  | some fb => tryCatch (called .feedback fb) fun e =>
      if e.isException then
        pure (some
          { armQ := List.replicate p.numArmJoints .nan
            timestamp := .fin now
            fault := true
            faultReason := "反馈读取异常：" ++ e.text })
      else throw e

def startupAlign (p : Parties σ) (autoAlign : Bool) : EStateM Exn (TeleopLoop σ) PUnit := do
  let leader ← called .getJointState p.getJointState
  let pose ← called .readState p.readState
  if autoAlign then onRetargeter (Retargeter.autoAlign leader pose.1)
  onRetargeter (Retargeter.reset pose.1 pose.2)

/-- in the warning zone the step shrinks towards `_prev_arm` -/
def slowDown (speedScale : Value) (target : List Value) : EStateM Exn (TeleopLoop σ) (List Value) := do
  let s ← get
  match s.retargeter.prev with
  | some (prevArm, prevGrip) =>
    if speedScale.lt (.fin 1) then
      let arm := prevArm.zipWith (fun x y => x + (y - x) * speedScale) target
      set { s with retargeter := { s.retargeter with prev := some (arm, prevGrip) } }
      pure arm
    else pure target
  | none => pure target

/-- the mapped target through the target gate to the follower -/
def command (p : Parties σ) (g : SafetyGates) (leader target : List Value) (grip : Value) (now : ℚ) :
    EStateM Exn (TeleopLoop σ) PUnit := do
  called .setOtherState (p.collision.setOtherState leader)
  let checked ← noted .checkTarget (onGate (Guarded.checkAndClampTarget g p.collision target))
  match checked.1 with
  | .refused reason => raiseStop reason .target
  | .ok speedScale =>
    let arm ← slowDown speedScale checked.2
    called (.send arm grip now) (p.followerSend arm grip)
    modify fun s => { s with sends := s.sends + 1 }

def once (p : Parties σ) (g : SafetyGates) (now : ℚ) : EStateM Exn (TeleopLoop σ) PUnit := do
  let leader ← called .getJointState p.getJointState
  judge .leader fun m => m.checkLeader g leader now
  match ← onRetargeter (Retargeter.map leader now) with
  | none => raiseStop .noTarget .retarget
  | some (target, grip) =>
    command p g leader target grip now
    let sample ← readFeedback p now
    judge .feedback fun m => m.checkFeedback g sample now
    modify fun s => { s with ticks := s.ticks + 1 }

/-- one turn of the loop; `false` after a safety stop -/
def turn (p : Parties σ) (g : SafetyGates) (now : ℚ) : EStateM Exn (TeleopLoop σ) Bool := do
  let ok ← tryCatch (do once p g now; pure true) fun e =>
    match e with
    | .safetyStop _ _ => do
      modify fun s => { s with safetyStops := s.safetyStops + 1 }
      called .safeStop p.safeStop
      pure false
    | e => throw e
  if ok then called .pause p.pause
  pure ok

def turns (p : Parties σ) (g : SafetyGates) : List ℚ → EStateM Exn (TeleopLoop σ) PUnit
  | [] => pure ⟨⟩
  | now :: nows => do
    if ← turn p g now then turns p g nows

/-- the `finally` block -/
def release (p : Parties σ) : EStateM Exn (TeleopLoop σ) PUnit := do
  called .followerClose p.followerClose
  called .leaderClose p.leaderClose
  called .guardClose p.collision.close

/-- the `try` block with its `except KeyboardInterrupt` -/
def interruptible (p : Parties σ) (g : SafetyGates) (nows : List ℚ) : EStateM Exn (TeleopLoop σ) PUnit :=
  tryCatch (turns p g nows) fun e =>
    match e with
    | .keyboardInterrupt => called .safeStop p.safeStop
    | e => throw e

/-- what comes between `open` and the `try` statement -/
def prepare (p : Parties σ) (autoAlign : Bool) : EStateM Exn (TeleopLoop σ) PUnit := do
  startupAlign p autoAlign
  called .pause p.pause

def run (p : Parties σ) (g : SafetyGates) (autoAlign : Bool) (nows : List ℚ) : EStateM Exn (TeleopLoop σ) PUnit := do
  called .followerOpen p.followerOpen
  prepare p autoAlign
  Effect.andFinally (interruptible p g nows) (release p)

/-! ## the rules of the calls -/

section
variable {Q : α → TeleopLoop σ → Prop} {E : Exn → TeleopLoop σ → Prop} {s : TeleopLoop σ}

@[simp] theorem ends_noted {c : Call} {m : EStateM Exn (TeleopLoop σ) α} :
    Effect.Ends Q E (noted c m) s ↔
      Effect.Ends (fun a t => Q a (t.add (.called c none))) (fun e t => E e (t.add (.called c (some e)))) m s := by
  unfold noted note
  rw [Effect.ends_bind, Effect.ends_tryCatch]
  exact Iff.rfl

@[simp] theorem ends_called {c : Call} {m : EStateM Exn σ α} :
    Effect.Ends Q E (called c m) s ↔
      Effect.Ends (fun a w => Q a ((s.setWorld w).add (.called c none)))
        (fun e w => E e ((s.setWorld w).add (.called c (some e)))) m s.gate.world := by
  unfold called onGate Guarded.outside
  rw [ends_noted, Effect.ends_zoom, Effect.ends_zoom]
  exact Iff.rfl

@[simp] theorem ends_raiseStop {reason : Reason} {source : Source} :
    Effect.Ends Q E (raiseStop reason source) s ↔
      E (.safetyStop reason source) (s.add (.gateFailed reason source)) := Iff.rfl

end

/-! ## what every call keeps -/

/-- nothing in a turn breaks `P`, which speaks about the world and the retargeter -/
structure Preserves (p : Parties σ) (P : σ → Retargeter → Prop) : Prop where
  getJointState : ∀ r, Effect.Keeps (P · r) p.getJointState
  setOtherState : ∀ r x, Effect.Keeps (P · r) (p.collision.setOtherState x)
  minDistance : ∀ r q, Effect.Keeps (P · r) (p.collision.minDistance q)
  send : ∀ r arm grip, Effect.Keeps (P · r) (p.followerSend arm grip)
  feedback : ∀ r, ∀ fb ∈ p.feedback, Effect.Keeps (P · r) fb
  pause : ∀ r, Effect.Keeps (P · r) p.pause
  safeStop : ∀ r, Effect.Keeps (P · r) p.safeStop
  map : ∀ w leader now, Effect.Keeps (P w) (Retargeter.map leader now)
  slowDown : ∀ w r x, P w r → P w { r with prev := x }

section
variable {p : Parties σ} {g : SafetyGates} {P : σ → Retargeter → Prop} {now : ℚ}

/-- the world and the retargeter of the loop satisfy `P` -/
def World (P : σ → Retargeter → Prop) (s : TeleopLoop σ) : Prop := P s.gate.world s.retargeter

theorem noted_keeps {J : TeleopLoop σ → Prop} {c : Call} {m : EStateM Exn (TeleopLoop σ) α} (hm : Effect.Keeps J m)
    (hadd : ∀ s e, J s → J (s.add e)) : Effect.Keeps J (noted c m) := by
  intro s h
  unfold Effect.Holds
  rw [ends_noted]
  exact (hm s h).mono (fun _ t ht => hadd t _ ht) fun _ t ht => hadd t _ ht

theorem called_keeps {c : Call} {m : EStateM Exn σ α} (hm : ∀ r, Effect.Keeps (P · r) m) :
    Effect.Keeps (World P) (called c m) := by
  intro s h
  unfold Effect.Holds
  rw [ends_called]
  exact hm s.retargeter _ h

theorem judge_keeps {source : Source} {verdict : SafetyMonitor → SafetyVerdict × SafetyMonitor} :
    Effect.Keeps (World P) (judge source verdict) := by
  refine Effect.keeps_get fun s h => ?_
  unfold Effect.Holds
  rw [Effect.ends_bind, Effect.ends_set]
  split <;> exact h

theorem onRetargeter_keeps {m : EStateM Exn Retargeter α} (hm : ∀ w, Effect.Keeps (P w) m) :
    Effect.Keeps (World P) (onRetargeter m) := by
  intro s h
  unfold onRetargeter Effect.Holds
  rw [Effect.ends_zoom]
  exact (hm s.gate.world _ h).mono (fun _ _ h => h) fun _ _ h => h

theorem check_keeps (hp : Preserves p P) (tgt : List Value) :
    Effect.Keeps (World P) (noted .checkTarget (onGate (Guarded.checkAndClampTarget g p.collision tgt))) := by
  have hcheck : ∀ r, Effect.Keeps (fun u : Guarded σ => P u.world r)
      (Guarded.checkAndClampTarget g p.collision tgt) := by
    intro r
    have houtside : Effect.Keeps (fun u : Guarded σ => P u.world r) (Guarded.outside (p.collision.minDistance tgt)) :=
      (hp.minDistance r tgt).zoom (fun _ h => h) fun _ _ _ h => h
    have hmeasure : Effect.Keeps (fun u : Guarded σ => P u.world r) (Guarded.measure g p.collision tgt) := by
      refine .bind (Effect.keeps_modify fun _ h => h) fun _ => Effect.keeps_get fun u hu => ?_
      refine Effect.ends_ite (fun _ => ?_) fun _ => hu
      rw [Effect.ends_bind]
      exact (houtside u hu).mono (fun _ _ h => h) fun _ _ h => h
    refine .bind (Effect.keeps_modify fun _ h => h) fun _ => Effect.keeps_get fun u hu => ?_
    split
    · exact hu
    · refine Effect.Keeps.bind hmeasure (fun _ => Effect.keeps_get fun v hv => ?_) u hu
      exact Effect.ends_ite (fun _ => hv) fun _ => hv
  refine noted_keeps (fun s h => ?_) fun _ _ h => h
  unfold onGate Effect.Holds
  rw [Effect.ends_zoom]
  exact (hcheck s.retargeter _ h).mono (fun _ _ h => h) fun _ _ h => h

theorem slowDown_keeps (hp : Preserves p P) (v : Value) (target : List Value) :
    Effect.Keeps (World P) (slowDown v target) := by
  refine Effect.keeps_get fun s h => ?_
  split
  · exact Effect.ends_ite (fun _ => hp.slowDown _ _ _ h) fun _ => h
  · exact h

theorem readFeedback_keeps (hp : Preserves p P) : Effect.Keeps (World P) (readFeedback p now) := by
  unfold readFeedback
  cases hfb : p.feedback with
  | none => exact Effect.keeps_pure _
  | some fb =>
    exact .tryCatch (called_keeps fun r => hp.feedback r fb hfb) fun e =>
      .ite (Effect.keeps_pure _) (Effect.keeps_throw e)

theorem command_keeps (hp : Preserves p P) (leader target : List Value) (grip : Value) :
    Effect.Keeps (World P) (command p g leader target grip now) := by
  refine .bind (called_keeps fun r => hp.setOtherState r leader) fun _ => .bind (check_keeps hp target) fun checked => ?_
  cases checked.1 with
  | refused reason => exact fun _ h => h
  | ok v =>
    refine .bind (slowDown_keeps hp v checked.2) fun arm => .bind (called_keeps fun r => hp.send r arm grip) fun _ => ?_
    exact Effect.keeps_modify fun _ h => h

theorem once_keeps (hp : Preserves p P) : Effect.Keeps (World P) (once p g now) := by
  refine .bind (called_keeps hp.getJointState) fun leader => .bind judge_keeps fun _ =>
    .bind (onRetargeter_keeps fun w => hp.map w leader now) fun mapped => ?_
  cases mapped with
  | none => exact fun _ h => h
  | some x =>
    refine .bind (command_keeps hp leader x.1 x.2) fun _ => .bind (readFeedback_keeps hp) fun sample =>
      .bind judge_keeps fun _ => ?_
    exact Effect.keeps_modify fun _ h => h

theorem turn_keeps (hp : Preserves p P) : Effect.Keeps (World P) (turn p g now) := by
  refine .bind (.tryCatch (.bind (once_keeps hp) fun _ => Effect.keeps_pure _) fun e => ?_) fun ok => ?_
  · cases e with
    | safetyStop reason source =>
      exact .bind (Effect.keeps_modify fun _ h => h) fun _ =>
        .bind (called_keeps hp.safeStop) fun _ => Effect.keeps_pure _
    | error text => exact Effect.keeps_throw _
    | keyboardInterrupt => exact Effect.keeps_throw _
    | exit => exact Effect.keeps_throw _
  · exact .ite (.bind (called_keeps hp.pause) fun _ => Effect.keeps_pure _) (Effect.keeps_pure _)

theorem turns_keeps (hp : Preserves p P) (nows : List ℚ) : Effect.Keeps (World P) (turns p g nows) := by
  induction nows with
  | nil => exact Effect.keeps_pure _
  | cons now nows ih => exact .bind (turn_keeps hp) fun ok => .ite ih (Effect.keeps_pure _)

theorem interruptible_keeps (hp : Preserves p P) (nows : List ℚ) :
    Effect.Keeps (World P) (interruptible p g nows) := by
  refine .tryCatch (turns_keeps hp nows) fun e => ?_
  cases e with
  | safetyStop reason source => exact Effect.keeps_throw _
  | error text => exact Effect.keeps_throw _
  | keyboardInterrupt => exact called_keeps hp.safeStop
  | exit => exact Effect.keeps_throw _

/-- where the alignment itself is nothing to `P` -/
theorem prepare_keeps (hp : Preserves p P) (hread : ∀ r, Effect.Keeps (P · r) p.readState)
    (hP : ∀ w r r', P w r → P w r') (autoAlign : Bool) : Effect.Keeps (World P) (prepare p autoAlign) := by
  have hon : ∀ m : EStateM Exn Retargeter PUnit, Effect.Keeps (World P) (onRetargeter m) := fun m =>
    onRetargeter_keeps fun w r h => Effect.ends_of (fun _ r' _ => hP w r r' h) fun _ r' _ => hP w r r' h
  refine .bind (.bind (called_keeps hp.getJointState) fun leader => .bind (called_keeps hread) fun pose => ?_)
    fun _ => called_keeps hp.pause
  exact .ite (.bind (hon _) fun _ => hon _) (hon _)

end

end TeleopLoop

end ArmControl.LeaderFollower
