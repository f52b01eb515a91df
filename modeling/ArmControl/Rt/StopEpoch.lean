import ArmControl.Lib.Since
import ArmControl.Rt.Latch
import ArmControl.Rt.Server

/-!
# Stop epochs (`rt_loop.cpp`, `control_session.cpp`)

DISARM clears `armed` and then advances `disarm_gen`; the tick loads `disarm_gen` and then `armed`.  Each load and each store is a
step of its own here, as are the latch operations of both threads (`Rt/Latch.lean`).

* `State`               what the two threads share, where each of them stands, and the log of what has happened;
* `step`                one atomic operation of either thread, or a request that reaches the control thread;
* `Settles`, `Covers`   what a published stop epoch stands for;
* `Inv`                 the invariant, one lemma for each thread;
* `stop_epoch_covers`   **every stop epoch that is published covers its request.**
-/

namespace ArmControl.Rt
namespace StopEpoch
open Run History

inductive Note where
  /-- DISARM cleared `armed` -/
  | cleared
  /-- the tick loaded `armed` -/
  | sampled (armed : Bool)
  /-- `write_command` returned -/
  | wrote
  /-- `stop` returned -/
  | stopped
  /-- the tick set its stop epoch, from this DISARM generation -/
  | settled (disarmGen : ℕ)
  /-- a `StatePacket` was published with this `stop_epoch` -/
  | published (stopEpoch : ℕ)
  deriving DecidableEq

/-- where the control thread stands in `CTL_DISARM`; at rest it may be inside an operation of the latch -/
inductive ControlPc where
  | rest | clearArmed | clearLatch | bumpGen
  deriving DecidableEq

/-- where the tick stands: the next operation -/
inductive TickPc where
  | seed | read | loadDisarmGen | loadArmed | loadGen | edge | edgeStop | ladder | write | stop | settle | publish | done
  deriving DecidableEq

/-- the locals of `rt_loop` -/
structure Loop where
  pc : TickPc := .seed
  readFailStreak : ℕ := 0
  plantOk : Bool := true
  seenGen : ℕ := 0
  prevArmed : Bool := false
  stopEpoch : ℕ := 0
  -- the loads of this tick
  disarmGen : ℕ := 0
  armed : Bool := false
  gen : ℕ := 0

structure State where
  /-- `armed`, `arm_gen`, the latch, and where both threads stand in its operations -/
  latch : Latch.St := {}
  disarmGen : ℕ := 0
  control : ControlPc := .rest
  loop : Loop := {}
  log : List Note := []

/-- what the world decides in one operation of the tick -/
structure TickEnv where
  shutdown : Bool := false
  readOk : Bool := true
  finite : Bool := true
  wrote : Bool := true

inductive Event where
  | disarm
  | arm (claimOk ready : Bool)
  /-- `latch()`, by either thread -/
  | fault (t : Latch.Tid) (c : Latch.LatchCall)
  /-- the poll of the fault notices -/
  | notice
  /-- the next operation of a thread inside the latch -/
  | latchGo (t : Latch.Tid) (outcome : Bool) (now : ℕ)
  /-- the next operation of `CTL_DISARM` -/
  | control
  /-- the next operation of the tick -/
  | tick (env : TickEnv)

def State.note (s : State) (o : Note) : State := { s with log := s.log ++ [o] }

/-- the control thread is between two requests -/
def State.atRest (s : State) : Bool := s.control == .rest && s.latch.pc .control == .idle

/-! ## the control thread -/

/-- `CTL_DISARM` -/
def controlGo (s : State) : State :=
  match s.control with
  | .rest => s
  | .clearArmed => { s with latch := { s.latch with armed := false }, control := .clearLatch }.note .cleared
  | .clearLatch => { s with latch := Latch.start s.latch .control .clear, control := .bumpGen }
  | .bumpGen => { s with disarmGen := s.disarmGen + 1, control := .rest }

/-- `CTL_ARM`: refused without a claim, acknowledged when armed already, else `begin_arm` -/
def arm (s : State) (claimOk ready : Bool) : State :=
  if claimOk && !(s.latch.armed && !s.latch.fault) && ready then { s with latch := Latch.start s.latch .control .arm } else s

/-! ## the tick -/

def Loop.goto (r : Loop) (pc : TickPc) : Loop := { r with pc := pc }

/-- a failed read is paced, and given up after fifty -/
def readFailed (s : State) : State :=
  let streak := s.loop.readFailStreak + 1
  { s with loop := { s.loop with plantOk := false, readFailStreak := streak, pc := if 50 ≤ streak then .done else .read } }

/-- the generation edge: the stop of the DISARM that was never sampled, and a plant retry -/
def edge (s : State) : State :=
  if s.loop.gen ≠ s.loop.seenGen then
    { s with loop := { s.loop with seenGen := s.loop.gen, plantOk := true, pc := if s.loop.prevArmed then .edgeStop else .ladder } }
  else { s with loop := s.loop.goto .ladder }

/-- armed: write unless the plant is down; disarmed: stop what was armed, then settle -/
def ladder (s : State) (finite : Bool) : State :=
  if s.loop.armed then
    let plantOk := s.loop.plantOk && finite
    { s with loop := { s.loop with plantOk := plantOk, pc := if plantOk then .write else .publish } }
  else { s with loop := s.loop.goto (if s.loop.prevArmed then .stop else .settle) }

def tick (s : State) (env : TickEnv) : State :=
  match s.loop.pc with
  | .seed => { s with loop := { s.loop with seenGen := s.latch.armGen, pc := .read } }
  | .read =>
    if env.shutdown then { s with loop := s.loop.goto .done }
    else if env.readOk then { s with loop := { s.loop with readFailStreak := 0, pc := .loadDisarmGen } }
    else readFailed s
  | .loadDisarmGen => { s with loop := { s.loop with disarmGen := s.disarmGen, pc := .loadArmed } }
  | .loadArmed => { s with loop := { s.loop with armed := s.latch.armed, pc := .loadGen } }.note (.sampled s.latch.armed)
  | .loadGen => { s with loop := { s.loop with gen := s.latch.armGen, pc := .edge } }
  | .edge => edge s
  | .edgeStop => { s with loop := s.loop.goto .ladder }.note .stopped
  | .ladder => ladder s env.finite
  | .write => { s with loop := { s.loop with plantOk := env.wrote, pc := .publish } }.note .wrote
  | .stop => { s with loop := s.loop.goto .settle }.note .stopped
  | .settle =>
    { s with loop := { s.loop with stopEpoch := low32 s.loop.disarmGen, pc := .publish } }.note (.settled s.loop.disarmGen)
  | .publish => { s with loop := { s.loop with prevArmed := s.loop.armed, pc := .read } }.note (.published s.loop.stopEpoch)
  | .done => s

def step (s : State) : Event → State
  | .disarm => if s.atRest then { s with control := .clearArmed } else s
  | .arm claimOk ready => if s.atRest then arm s claimOk ready else s
  | .fault .control c => if s.atRest then { s with latch := Latch.start s.latch .control (.latch c) } else s
  | .fault .rt c => { s with latch := Latch.start s.latch .rt (.latch c) }
  | .notice => if s.atRest then { s with latch := Latch.start s.latch .control .notice } else s
  | .latchGo t outcome now => { s with latch := Latch.go s.latch t outcome now }
  | .control => if s.latch.pc .control = .idle then controlGo s else s
  | .tick env => if s.latch.pc .rt = .idle then tick s env else s

/-! ## what a stop epoch stands for -/

/-- authority was exercised: a tick found the arm armed, or wrote a command -/
def Exercised (o : Note) : Prop := o = .sampled true ∨ o = .wrote

/-- neither a sample nor a write -/
def Quiet (o : Note) : Prop := o ≠ .wrote ∧ ∀ armed, o ≠ .sampled armed

/-- the arm was found disarmed after that many DISARMs had cleared `armed` -/
def Disarmed (disarmGen : ℕ) (before : List Note) (o : Note) : Prop := o = .sampled false ∧ disarmGen ≤ before.count .cleared

/-- a tick settles the stop epoch: it found the arm disarmed after that many DISARMs had cleared `armed`, it wrote nothing, and a stop
has returned behind every authority that was exercised before -/
def Settles (stopEpoch : ℕ) (before : List Note) (o : Note) : Prop :=
  ∃ disarmGen, o = .settled disarmGen ∧ low32 disarmGen = stopEpoch ∧
    Since (Disarmed disarmGen) Quiet before ∧ Answered Exercised (fun _ o' => o' = .stopped) before

/-- the latest settled epoch is this one; before the first it is `0` -/
def Stands (stopEpoch : ℕ) (log : List Note) : Prop :=
  (stopEpoch = 0 ∧ ∀ g, .settled g ∉ log) ∨ Since (Settles stopEpoch) (fun o => ∀ g, o ≠ .settled g) log

/-- every stop epoch that is published stands -/
def Covers (before : List Note) : Note → Prop
  | .published stopEpoch => Stands stopEpoch before
  | _ => True

/-! ## the invariant -/

/-- a DISARM has cleared `armed` and not advanced the generation yet -/
def ControlPc.pending : ControlPc → ℕ
  | .clearLatch | .bumpGen => 1
  | .rest | .clearArmed => 0

/-- authority may have been exercised that no stop has answered yet -/
def Loop.exercised (r : Loop) : Bool :=
  match r.pc with
  | .seed | .read | .loadDisarmGen | .loadArmed => r.prevArmed
  | .loadGen | .edge | .edgeStop | .ladder | .stop => r.prevArmed || r.armed
  | .settle | .publish => r.armed
  | .write | .done => true

/-- what the tick knows about its loads -/
def Sampled (r : Loop) (log : List Note) : Prop :=
  match r.pc with
  | .loadArmed => r.disarmGen ≤ log.count .cleared
  | .loadGen | .edge | .edgeStop | .ladder => r.armed = false → Since (Disarmed r.disarmGen) Quiet log
  | .stop | .settle => r.armed = false ∧ Since (Disarmed r.disarmGen) Quiet log
  | .write => r.armed = true
  | _ => True

structure Inv (s : State) : Prop where
  requests : s.disarmGen + s.control.pending = s.log.count .cleared
  sampled : Sampled s.loop s.log
  answered : s.loop.exercised = false → Answered Exercised (fun _ o' => o' = .stopped) s.log
  stands : Stands s.loop.stopEpoch s.log
  covers : Justified Covers s.log

variable {s : State} {log : List Note} {o : Note} {e : ℕ} {r r' : Loop}

theorem inv_init : Inv {} where
  requests := rfl
  sampled := trivial
  answered := fun _ => answered_nil
  stands := .inl ⟨rfl, by simp⟩
  covers := justified_nil

theorem Stands.snoc (h : Stands e log) (ho : ∀ g, o ≠ .settled g) : Stands e (log ++ [o]) := by
  rcases h with ⟨rfl, hno⟩ | h
  · refine .inl ⟨rfl, fun g hg => ?_⟩
    rcases List.mem_append.mp hg with hg | hg
    · exact hno g hg
    · exact ho g (List.mem_singleton.mp hg).symm
  · exact .inr (h.snoc ho)

/-- a DISARM clears `armed`: what the tick has loaded stays behind the count -/
theorem Sampled.cleared (h : Sampled r log) : Sampled r (log ++ [Note.cleared]) := by
  have hsince : Since (Disarmed r.disarmGen) Quiet log → Since (Disarmed r.disarmGen) Quiet (log ++ [Note.cleared]) :=
    fun h => h.snoc ⟨Note.noConfusion, fun _ => Note.noConfusion⟩
  unfold Sampled at h ⊢
  cases hpc : r.pc <;> rw [hpc] at h
  case loadArmed =>
    show _ ≤ (log ++ [Note.cleared]).count Note.cleared
    rw [List.count_append]
    exact Nat.le_add_right_of_le h
  case loadGen => exact fun ha => hsince (h ha)
  case edge => exact fun ha => hsince (h ha)
  case edgeStop => exact fun ha => hsince (h ha)
  case ladder => exact fun ha => hsince (h ha)
  case stop => exact ⟨h.1, hsince h.2⟩
  case settle => exact ⟨h.1, hsince h.2⟩
  all_goals exact h

/-- the control thread in the latch, or advancing the generation -/
theorem Inv.control (h : Inv s) {s' : State} (hlog : s'.log = s.log) (hloop : s'.loop = s.loop)
    (hreq : s'.disarmGen + s'.control.pending = s.disarmGen + s.control.pending) : Inv s' := by
  refine ⟨?_, ?_, ?_, ?_, ?_⟩
  · rw [hlog, hreq]
    exact h.requests
  · rw [hlog, hloop]
    exact h.sampled
  · rw [hlog, hloop]
    exact h.answered
  · rw [hlog, hloop]
    exact h.stands
  · rw [hlog]
    exact h.covers

theorem controlGo_inv (h : Inv s) : Inv (controlGo s) := by
  unfold controlGo
  cases hc : s.control with
  | rest => exact h
  | clearArmed =>
    refine ⟨?_, h.sampled.cleared, fun he => ?_, h.stands.snoc fun _ => Note.noConfusion, h.covers.snoc trivial⟩
    · have hreq := h.requests
      rw [hc] at hreq
      show s.disarmGen + 1 = (s.log ++ [Note.cleared]).count Note.cleared
      rw [List.count_append]
      exact congrArg (· + 1) hreq
    · exact (h.answered he).snoc fun hx => hx.elim Note.noConfusion Note.noConfusion
  | clearLatch => exact h.control rfl rfl (by rw [hc]; rfl)
  | bumpGen => exact h.control rfl rfl (by rw [hc]; rfl)

theorem arm_inv (h : Inv s) (claimOk ready : Bool) : Inv (arm s claimOk ready) := by
  unfold arm
  split_ifs
  · exact h.control rfl rfl rfl
  · exact h

/-! ## the tick -/

/-- an operation of the tick that leaves no note -/
theorem Inv.silent (h : Inv s) (hsampled : Sampled r s.log) (hexercised : r.exercised = false → s.loop.exercised = false)
    (hepoch : r.stopEpoch = s.loop.stopEpoch) : Inv { s with loop := r } where
  requests := h.requests
  sampled := hsampled
  answered := fun he => h.answered (hexercised he)
  stands := by
    show Stands r.stopEpoch s.log
    rw [hepoch]
    exact h.stands
  covers := h.covers

/-- the tick moves on between its load of `armed` and the ladder's verdict -/
theorem Inv.between (h : Inv s) (hafter : s.loop.armed = false → Since (Disarmed s.loop.disarmGen) Quiet s.log)
    (he : s.loop.exercised = (s.loop.prevArmed || s.loop.armed)) (hdisarm : r.disarmGen = s.loop.disarmGen)
    (harmed : r.armed = s.loop.armed) (hprev : r.prevArmed = s.loop.prevArmed) (hepoch : r.stopEpoch = s.loop.stopEpoch)
    (hpc : r.pc = .edge ∨ r.pc = .edgeStop ∨ r.pc = .ladder) : Inv { s with loop := r } := by
  refine h.silent ?_ (fun hr => ?_) hepoch
  · unfold Sampled
    rcases hpc with hpc | hpc | hpc <;> rw [hpc, hdisarm, harmed] <;> exact hafter
  · unfold Loop.exercised at hr
    rw [he, ← harmed, ← hprev]
    rcases hpc with hpc | hpc | hpc <;> rw [hpc] at hr <;> exact hr

theorem edge_inv (h : Inv s) (hpc : s.loop.pc = .edge) : Inv (edge s) := by
  have hafter : s.loop.armed = false → Since (Disarmed s.loop.disarmGen) Quiet s.log := by
    have := h.sampled
    unfold Sampled at this
    rw [hpc] at this
    exact this
  have he : s.loop.exercised = (s.loop.prevArmed || s.loop.armed) := by
    unfold Loop.exercised
    rw [hpc]
  unfold edge
  split_ifs with hgen hprev
  · exact h.between hafter he rfl rfl rfl rfl (.inr (.inl rfl))
  · exact h.between hafter he rfl rfl rfl rfl (.inr (.inr rfl))
  · exact h.between hafter he rfl rfl rfl rfl (.inr (.inr rfl))

theorem ladder_inv (h : Inv s) (hpc : s.loop.pc = .ladder) (finite : Bool) : Inv (ladder s finite) := by
  have hafter := h.sampled
  have he : s.loop.exercised = (s.loop.prevArmed || s.loop.armed) := by
    unfold Loop.exercised
    rw [hpc]
  unfold Sampled at hafter
  rw [hpc] at hafter
  dsimp only at hafter
  unfold ladder
  cases ha : s.loop.armed with
  | true =>
    rw [if_pos rfl]
    cases hplant : s.loop.plantOk && finite with
    | true => exact h.silent ha (fun hr => Bool.noConfusion hr) rfl
    | false => exact h.silent trivial (fun hr => Bool.noConfusion (ha.symm.trans hr)) rfl
  | false =>
    rw [if_neg Bool.false_ne_true]
    cases hprev : s.loop.prevArmed with
    | true => exact h.silent ⟨ha, hafter ha⟩ (fun hr => by rw [he]; exact hr) rfl
    | false => exact h.silent ⟨ha, hafter ha⟩ (fun _ => by rw [he, hprev, ha]; rfl) rfl

/-- a stop that returns answers whatever was exercised -/
theorem answered_stopped (h : Answered Exercised (fun _ o' => o' = .stopped) log ∨ o = .stopped) (ho : ¬ Exercised o) :
    Answered Exercised (fun _ o' => o' = .stopped) (log ++ [o]) := by
  rcases h with h | rfl
  · exact h.snoc ho
  · refine Answered.close (fun p a q _ ha => absurd rfl ha.2) ho

theorem tick_inv (h : Inv s) (env : TickEnv) : Inv (tick s env) := by
  have hsampled := h.sampled
  have hanswered := h.answered
  have hunsettled : ∀ {o : Note}, (∀ g, o ≠ .settled g) → Stands s.loop.stopEpoch (s.log ++ [o]) := fun ho => h.stands.snoc ho
  unfold Sampled at hsampled
  unfold Loop.exercised at hanswered
  unfold tick
  cases hpc : s.loop.pc <;> rw [hpc] at hsampled hanswered <;> dsimp only at hsampled hanswered ⊢
  case seed => exact h.silent trivial (fun hr => by unfold Loop.exercised; rw [hpc]; exact hr) rfl
  case read =>
    have hr : ∀ {b : Bool}, b = false → s.loop.prevArmed = b → s.loop.exercised = false := by
      intro b hb hprev
      unfold Loop.exercised
      rw [hpc]
      exact hprev.trans hb
    split_ifs
    · exact h.silent trivial (fun hr => Bool.noConfusion hr) rfl
    · exact h.silent trivial (fun he => hr he rfl) rfl
    · unfold readFailed
      dsimp only
      split_ifs
      · exact h.silent trivial (fun hr => Bool.noConfusion hr) rfl
      · exact h.silent trivial (fun he => hr he rfl) rfl
  case loadDisarmGen =>
    refine h.silent ?_ (fun hr => by unfold Loop.exercised; rw [hpc]; exact hr) rfl
    show s.disarmGen ≤ s.log.count .cleared
    rw [← h.requests]
    exact Nat.le_add_right _ _
  case loadArmed =>
    refine ⟨?_, fun ha => ?_, fun he => ?_, hunsettled fun _ => Note.noConfusion, h.covers.snoc trivial⟩
    · show _ = (s.log ++ [Note.sampled s.latch.armed]).count Note.cleared
      rw [List.count_append]
      exact h.requests
    · have ha : s.latch.armed = false := ha
      show Since (Disarmed s.loop.disarmGen) Quiet (s.log ++ [Note.sampled s.latch.armed])
      rw [ha]
      exact Since.now ⟨rfl, hsampled⟩
    · have he : (s.loop.prevArmed || s.latch.armed) = false := he
      obtain ⟨hprev, ha⟩ := Bool.or_eq_false_iff.mp he
      refine (hanswered hprev).snoc fun hx => ?_
      rw [ha] at hx
      exact hx.elim (fun hx => by cases hx) Note.noConfusion
  case loadGen =>
    refine h.between hsampled ?_ rfl rfl rfl rfl (.inl rfl)
    unfold Loop.exercised
    rw [hpc]
  case edge => exact edge_inv h hpc
  case edgeStop =>
    refine ⟨?_, fun ha => (hsampled ha).snoc ⟨Note.noConfusion, fun _ => Note.noConfusion⟩, fun _ => ?_,
      hunsettled fun _ => Note.noConfusion, h.covers.snoc trivial⟩
    · show _ = (s.log ++ [Note.stopped]).count Note.cleared
      rw [List.count_append]
      exact h.requests
    · exact answered_stopped (.inr rfl) fun hx => hx.elim Note.noConfusion Note.noConfusion
  case ladder => exact ladder_inv h hpc env.finite
  case write =>
    refine ⟨?_, trivial, fun he => Bool.noConfusion (hsampled.symm.trans he), hunsettled fun _ => Note.noConfusion,
      h.covers.snoc trivial⟩
    show _ = (s.log ++ [Note.wrote]).count Note.cleared
    rw [List.count_append]
    exact h.requests
  case stop =>
    refine ⟨?_, ⟨hsampled.1, hsampled.2.snoc ⟨Note.noConfusion, fun _ => Note.noConfusion⟩⟩, fun _ => ?_,
      hunsettled fun _ => Note.noConfusion, h.covers.snoc trivial⟩
    · show _ = (s.log ++ [Note.stopped]).count Note.cleared
      rw [List.count_append]
      exact h.requests
    · exact answered_stopped (.inr rfl) fun hx => hx.elim Note.noConfusion Note.noConfusion
  case settle =>
    have hbefore := hanswered hsampled.1
    refine ⟨?_, trivial, fun _ => ?_, .inr (Since.now ⟨_, rfl, rfl, hsampled.2, hbefore⟩), h.covers.snoc trivial⟩
    · show _ = (s.log ++ [Note.settled _]).count Note.cleared
      rw [List.count_append]
      exact h.requests
    · exact answered_stopped (.inl hbefore) fun hx => hx.elim Note.noConfusion Note.noConfusion
  case publish =>
    refine ⟨?_, trivial, fun he => ?_, hunsettled fun _ => Note.noConfusion, h.covers.snoc h.stands⟩
    · show _ = (s.log ++ [Note.published _]).count Note.cleared
      rw [List.count_append]
      exact h.requests
    · exact answered_stopped (.inl (hanswered he)) fun hx => hx.elim Note.noConfusion Note.noConfusion
  case done => exact h

/-! ## every run -/

theorem step_inv (h : Inv s) (e : Event) : Inv (step s e) := by
  cases e with
  | disarm =>
    show Inv (if s.atRest then { s with control := .clearArmed } else s)
    split_ifs with hrest
    · have hc : s.control = .rest := by
        have := (Bool.and_eq_true_iff.mp hrest).1
        exact eq_of_beq this
      exact h.control rfl rfl (by rw [hc]; rfl)
    · exact h
  | arm claimOk ready =>
    show Inv (if s.atRest then _ else s)
    split_ifs
    · exact arm_inv h claimOk ready
    · exact h
  | fault t c =>
    cases t with
    | control =>
      show Inv (if s.atRest then _ else s)
      split_ifs
      · exact h.control rfl rfl rfl
      · exact h
    | rt => exact h.control rfl rfl rfl
  | notice =>
    show Inv (if s.atRest then _ else s)
    split_ifs
    · exact h.control rfl rfl rfl
    · exact h
  | latchGo t outcome now => exact h.control rfl rfl rfl
  | control =>
    show Inv (if s.latch.pc .control = .idle then _ else s)
    split_ifs
    · exact controlGo_inv h
    · exact h
  | tick env =>
    show Inv (if s.latch.pc .rt = .idle then _ else s)
    split_ifs
    · exact tick_inv h env
    · exact h

/-- **Every stop epoch that is published covers its request.**  The tick that set it found the arm disarmed after that many DISARMs
had cleared `armed`, it wrote no command, and a stop had returned behind every authority exercised before its sample. -/
theorem stop_epoch_covers (es : List Event) : Justified Covers (run step {} es).log :=
  (invariant inv_init (fun _ e _ h => step_inv h e) (along_of_forall (fun _ _ => trivial) es)).covers

/-- an armed tick, a DISARM, and the tick that settles it -/
def disarmedOnce : List Event :=
  [.tick {}, .arm true true] ++ List.replicate 8 (.latchGo .control false 0) ++ List.replicate 8 (.tick {}) ++
    [.disarm, .control, .control] ++ List.replicate 9 (.latchGo .control false 0) ++ [.control] ++ List.replicate 9 (.tick {})

example : (run step {} disarmedOnce).log =
    [.sampled true, .wrote, .published 0, .cleared, .sampled false, .stopped, .settled 1, .published 1] := by
  decide +kernel

end StopEpoch

end ArmControl.Rt
