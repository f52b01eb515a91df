import ArmControl.Lib.Run
import ArmControl.Lib.Since
import ArmControl.Plants.SimLink

/-!
# The authority rules of the simulated link

* `Past`, `past`        what the log says now: armed, the ARM epoch, the latched fault, the last accepted command, the newest pose;
* `Allowed`             the words that the plant may be stepped with;
* `Fair`                what an entry says about the log before it;
* `Inv`                 what every state keeps, one lemma for each thing that happens;
* `Released stop`       a zero-gain step that began after that DISARM has returned;
* `sim_link_authority`  **every entry of every run is fair, and `safe_stop` is confirmed only by a released step as long as no released step
                        raises before one has returned.**
-/

namespace ArmControl.Plants.Sim
open History Run

/-! ## what a log says -/

structure Past where
  armed : Bool := false
  epoch : ℕ := 0
  /-- the first cause since the last DISARM -/
  fault : Option (ℕ × String) := none
  /-- the sequence of the last accepted command -/
  lastSeq : Option ℕ := none
  /-- the newest measured pose -/
  pose : List Value := []
  deriving DecidableEq

def Past.next (p : Past) : Obs → Past
  | .opened q => { p with pose := q }
  | .armed epoch => { p with armed := true, epoch := epoch }
  | .disarmed _ => { p with armed := false, fault := none }
  | .accepted seq _ _ => { p with lastSeq := some seq }
  | .latched code text => { p with fault := some (p.fault.getD (code, text)) }
  | .published sample => { p with pose := sample.q }
  | .armRefused | .held _ | .stepBegan .. | .stepReturned | .stepRaised | .stopConfirmed _ | .stopUnconfirmed _ => p

def past (log : List Obs) : Past := log.foldl Past.next {}

theorem past_snoc (log : List Obs) (o : Obs) : past (log ++ [o]) = (past log).next o := by
  unfold past
  rw [List.foldl_append]
  rfl

/-- entries that end the currency of a command -/
def supersedes : Obs → Bool
  | .armed _ | .disarmed _ | .accepted .. => true
  | _ => false

/-- entries that end a hold, or begin one -/
def endsHold : Obs → Bool
  | .armed _ | .disarmed _ | .held _ => true
  | .stepBegan _ _ snap => !snap.holding
  | _ => false

/-- a step of the plant begins -/
def begins : Obs → Bool
  | .stepBegan .. => true
  | _ => false

/-- the zero-gain word -/
def Word.Zero (n : ℕ) (w : Word) : Prop :=
  w.velocity = Vec.zeros n ∧ w.torque = Vec.zeros n ∧ w.kp = Vec.zeros n ∧ w.kd = Vec.zeros n ∧ w.cartesian = none

/-- a hold, at the pose at which it began -/
def Word.Hold (n : ℕ) (w : Word) (log : List Obs) : Prop :=
  w.velocity = Vec.zeros n ∧ w.torque = Vec.zeros n ∧ w.cartesian = none ∧
    Since (fun p o => o = .held w.position ∧ w.position = (past p).pose) (fun o => endsHold o = false) log

/-- the last command that was accepted, in this ARM epoch and not too long ago, while no fault is latched -/
def Word.Commanded (holdMs now : ℚ) (w : Word) (log : List Obs) : Prop :=
  (past log).armed = true ∧ (past log).fault = none ∧
    ∃ seq t, (now - t) * 1000 ≤ holdMs ∧ Since (fun _ o => o = .accepted seq w t) (fun o => supersedes o = false) log

/-- the words that the plant may be stepped with -/
def Allowed (c : Config) (now : ℚ) (w : Word) (log : List Obs) : Prop :=
  w.Zero c.n ∨ w.Hold c.n log ∨ w.Commanded c.holdMs now log

/-- the step that runs, or ran last -/
def Began (P : Snapshot → Prop) : List Obs → Prop :=
  Since (fun _ o => ∃ now w snap, o = .stepBegan now w snap ∧ P snap) fun o => begins o = false

/-- what an entry says about the log before it -/
def Fair (c : Config) (p : List Obs) : Obs → Prop
  | .armed epoch => (past p).fault = none ∧ ∀ e, .armed e ∈ p → e < epoch
  | .accepted .. => (past p).armed = true ∧ (past p).fault = none
  | .latched .. => (past p).fault = none
  | .stepBegan now w snap =>
    Allowed c now w p ∧ (snap.armed, snap.armEpoch) = ((past p).armed, (past p).epoch) ∧ snap.lastCmdSeq = (past p).lastSeq.getD 0 ∧
      (snap.armed = false → w.Zero c.n ∧ ∀ k, 0 < k → k ≤ snap.stopEpoch → .disarmed k ∈ p)
  | .published sample =>
    Began (fun snap => (sample.armed, sample.armEpoch, sample.lastCmdSeq) = (snap.armed, snap.armEpoch, snap.lastCmdSeq)) p
  | _ => True

/-! ## the invariant -/

/-- what the servo thread knows about its tick -/
def InTick (servo : ServoPc) (tickSnap : Option (Snapshot × ℕ × ℕ)) (log : List Obs) : Prop :=
  match servo with
  | .idle | .woken _ => True
  | .stepping _ _ snap | .stepped _ _ snap _ => tickSnap.map Prod.fst = some snap ∧ Began (· = snap) log
  | .failing .. => ∃ snap, tickSnap.map Prod.fst = some snap ∧ Began (· = snap) log
  | .failed _ snap _ => Began (fun snap' => (snap.armed, snap.armEpoch, snap.lastCmdSeq) = (snap'.armed, snap'.armEpoch, snap'.lastCmdSeq)) log

/-- the state, as the log says it -/
def SimLink.summary (s : SimLink) : Past :=
  { armed := s.isArmed, epoch := s.armEpoch, fault := if s.faultCode = 0 then none else some (s.faultCode, s.latchedFault)
    lastSeq := (past s.log).lastSeq, pose := s.state.q }

structure Inv (s : SimLink) : Prop where
  fair : Justified (Fair s.config) s.log
  said : past s.log = s.summary
  last : s.lastCmdSeq = (past s.log).lastSeq.getD 0
  epochs : s.armEpoch = s.epochs ∧ ∀ e, .armed e ∈ s.log → e ≤ s.epochs
  stops : ∀ k, 0 < k → k ≤ s.stopEpoch → .disarmed k ∈ s.log
  shown : s.pubStopEpoch ≤ s.stopEpoch
  time : s.isArmed = true → s.armT ≤ s.clock
  command : ∀ w, s.cmd = some w → s.armT ≤ s.cmdT ∧
    ∃ seq, Since (fun _ o => o = .accepted seq w s.cmdT) (fun o => supersedes o = false) s.log
  resting : s.isArmed = false → s.inHold = false
  hold : s.inHold = true → s.plantOk = true →
    Since (fun p o => o = .held s.holdQ ∧ s.holdQ = (past p).pose) (fun o => endsHold o = false) s.log
  tick : InTick s.servo s.tickSnap s.log

variable {s : SimLink}

theorem inv_opened (c : Config) (motor : Motor) (clock : ℚ) : Inv (SimLink.opened c motor clock) where
  fair := justified_nil.snoc trivial
  said := rfl
  last := rfl
  epochs := ⟨rfl, by intro e he; cases List.mem_singleton.mp he⟩
  stops k hk hle := absurd hle (by show ¬ k ≤ 0; omega)
  shown := le_refl _
  time := nofun
  command := nofun
  resting _ := rfl
  hold := nofun
  tick := trivial

/-! ## steps that leave the authority alone -/

/-- the authority and what it gave out are as they were -/
structure Kept (s s' : SimLink) : Prop where
  config : s'.config = s.config := by rfl
  isArmed : s'.isArmed = s.isArmed := by rfl
  armEpoch : s'.armEpoch = s.armEpoch := by rfl
  epochs : s'.epochs = s.epochs := by rfl
  stopEpoch : s'.stopEpoch = s.stopEpoch := by rfl
  pubStopEpoch : s'.pubStopEpoch = s.pubStopEpoch := by rfl
  armT : s'.armT = s.armT := by rfl
  cmdT : s'.cmdT = s.cmdT := by rfl
  lastCmdSeq : s'.lastCmdSeq = s.lastCmdSeq := by rfl
  holdQ : s'.holdQ = s.holdQ := by rfl
  inHold : s'.inHold = s.inHold := by rfl

/-- entries that end no command and no hold, and leave the authority and the last command -/
def calm : Obs → Bool
  | .opened _ | .armed _ | .disarmed _ | .accepted .. | .held _ | .stepBegan .. => false
  | _ => true

theorem calm_quiet {o : Obs} (h : calm o = true) : supersedes o = false ∧ endsHold o = false ∧ begins o = false := by
  cases o <;> cases h <;> exact ⟨rfl, rfl, rfl⟩

theorem calm_lastSeq {o : Obs} (h : calm o = true) (p : Past) : (p.next o).lastSeq = p.lastSeq := by
  cases o <;> cases h <;> rfl

theorem calm_armed {o : Obs} (h : calm o = true) (e : ℕ) : .armed e ≠ o := by
  rintro rfl
  cases h

/-- one more entry -/
theorem Inv.noted (h : Inv s) {s' : SimLink} {o : Obs} (hk : Kept s s') (hlog : s'.log = s.log ++ [o]) (ho : calm o = true)
    (hfair : Fair s.config s.log o) (hpast : past s'.log = s'.summary) (hcmd : ∀ w, s'.cmd = some w → s.cmd = some w)
    (hok : s'.plantOk = true → s.plantOk = true) (hclock : s.clock ≤ s'.clock) (htick : InTick s'.servo s'.tickSnap s'.log) : Inv s' := by
  obtain ⟨hcommand, hhold, -⟩ := calm_quiet ho
  have hseq : (past s'.log).lastSeq = (past s.log).lastSeq := by
    rw [hlog, past_snoc, calm_lastSeq ho]
  constructor
  case fair =>
    rw [hlog, hk.config]
    exact h.fair.snoc hfair
  case said => exact hpast
  case last => rw [hk.lastCmdSeq, hseq, h.last]
  case epochs =>
    refine ⟨by rw [hk.armEpoch, hk.epochs, h.epochs.1], fun e he => ?_⟩
    rw [hlog, List.mem_append, List.mem_singleton] at he
    rw [hk.epochs]
    exact he.elim (h.epochs.2 e) fun he => absurd he (calm_armed ho e)
  case stops =>
    intro k hk₀ hle
    rw [hk.stopEpoch] at hle
    rw [hlog]
    exact List.mem_append_left _ (h.stops k hk₀ hle)
  case shown => rw [hk.pubStopEpoch, hk.stopEpoch]; exact h.shown
  case time =>
    intro ha
    rw [hk.isArmed] at ha
    rw [hk.armT]
    exact (h.time ha).trans hclock
  case command =>
    intro w hw
    obtain ⟨ht, seq, hs⟩ := h.command w (hcmd w hw)
    rw [hk.armT, hk.cmdT, hlog]
    exact ⟨ht, seq, hs.snoc hcommand⟩
  case resting => rw [hk.isArmed, hk.inHold]; exact h.resting
  case hold =>
    intro hin hp
    rw [hk.inHold] at hin
    rw [hk.holdQ, hlog]
    exact (h.hold hin (hok hp)).snoc hhold
  case tick => exact htick

/-- no entry -/
theorem Inv.still (h : Inv s) {s' : SimLink} (hk : Kept s s') (hlog : s'.log = s.log)
    (hfault : (s'.faultCode, s'.latchedFault, s'.state) = (s.faultCode, s.latchedFault, s.state)) (hcmd : ∀ w, s'.cmd = some w → s.cmd = some w)
    (hok : s'.plantOk = true → s.plantOk = true) (hclock : s.clock ≤ s'.clock) (htick : InTick s'.servo s'.tickSnap s'.log) : Inv s' := by
  obtain ⟨hcode, hrest⟩ := Prod.mk.inj hfault
  obtain ⟨htext, hstate⟩ := Prod.mk.inj hrest
  constructor
  case fair => rw [hlog, hk.config]; exact h.fair
  case said =>
    rw [hlog, h.said]
    unfold SimLink.summary
    rw [hk.isArmed, hk.armEpoch, hcode, htext, hstate, hlog]
  case last => rw [hk.lastCmdSeq, hlog, h.last]
  case epochs => rw [hk.armEpoch, hk.epochs, hlog]; exact h.epochs
  case stops => rw [hk.stopEpoch, hlog]; exact h.stops
  case shown => rw [hk.pubStopEpoch, hk.stopEpoch]; exact h.shown
  case time =>
    intro ha
    rw [hk.isArmed] at ha
    rw [hk.armT]
    exact (h.time ha).trans hclock
  case command =>
    intro w hw
    rw [hk.armT, hk.cmdT, hlog]
    exact h.command w (hcmd w hw)
  case resting => rw [hk.isArmed, hk.inHold]; exact h.resting
  case hold =>
    intro hin hp
    rw [hk.inHold] at hin
    rw [hk.holdQ, hlog]
    exact h.hold hin (hok hp)
  case tick => exact htick

/-- what the tick knows stays true -/
theorem InTick.snoc {servo : ServoPc} {tickSnap : Option (Snapshot × ℕ × ℕ)} {log : List Obs} (h : InTick servo tickSnap log) {o : Obs}
    (ho : begins o = false) : InTick servo tickSnap (log ++ [o]) := by
  cases servo with
  | idle => trivial
  | woken now => trivial
  | stepping now w snap => exact ⟨h.1, h.2.snoc ho⟩
  | stepped now w snap motor => exact ⟨h.1, h.2.snoc ho⟩
  | failing now exc =>
    obtain ⟨snap, hsnap, hb⟩ := h
    exact ⟨snap, hsnap, hb.snoc ho⟩
  | failed now snap motor => exact Since.snoc h ho

/-- an entry that tells nothing -/
theorem summary_told (h : Inv s) {s' : SimLink} {o : Obs} (hk : Kept s s') (hlog : s'.log = s.log ++ [o])
    (hnext : ∀ p : Past, p.next o = p)
    (hfault : (s'.faultCode, s'.latchedFault, s'.state) = (s.faultCode, s.latchedFault, s.state)) : past s'.log = s'.summary := by
  obtain ⟨hcode, hrest⟩ := Prod.mk.inj hfault
  obtain ⟨htext, hstate⟩ := Prod.mk.inj hrest
  unfold SimLink.summary
  rw [hlog, past_snoc, hnext, hk.isArmed, hk.armEpoch, hcode, htext, hstate]
  exact h.said

/-! ## callers -/

/-- the fault that the log says is the one that the code holds -/
theorem Inv.fault (h : Inv s) : (past s.log).fault = if s.faultCode = 0 then none else some (s.faultCode, s.latchedFault) := by
  rw [h.said]
  rfl

theorem Inv.armed (h : Inv s) : (past s.log).armed = s.isArmed := by
  rw [h.said]
  rfl

theorem Inv.faultless (h : Inv s) (hf : s.faultCode = 0) : (past s.log).fault = none := by
  rw [h.fault, if_pos hf]

theorem Inv.enableAll (h : Inv s) : Inv s.enableAll := by
  unfold SimLink.enableAll
  split_ifs with hf ha
  · exact h.noted (o := .armRefused) (by constructor <;> rfl) rfl rfl trivial (summary_told h (by constructor <;> rfl) rfl (fun _ => rfl) rfl) (fun _ => id) id le_rfl (h.tick.snoc rfl)
  · exact h
  · rw [not_not] at hf
    constructor
    case fair =>
      refine h.fair.snoc ⟨h.faultless hf, fun e he => ?_⟩
      have := h.epochs.2 e he
      omega
    case said =>
      show past (s.log ++ [Obs.armed (s.epochs + 1)]) = _
      rw [past_snoc, h.said]
      unfold SimLink.summary SimLink.note
      dsimp only [Past.next]
      rw [past_snoc]
      rfl
    case last =>
      show s.lastCmdSeq = (past (s.log ++ [Obs.armed (s.epochs + 1)])).lastSeq.getD 0
      rw [past_snoc]
      exact h.last
    case epochs =>
      refine ⟨rfl, fun e he => ?_⟩
      rcases List.mem_append.mp he with he | he
      · exact (h.epochs.2 e he).trans (Nat.le_succ _)
      · obtain rfl := Obs.armed.inj (List.mem_singleton.mp he)
        exact le_rfl
    case stops => exact fun k hk hle => List.mem_append_left _ (h.stops k hk hle)
    case shown => exact h.shown
    case time => exact fun _ => le_rfl
    case command => exact nofun
    case resting => exact fun _ => rfl
    case hold => exact nofun
    case tick => exact h.tick.snoc rfl

theorem Inv.safeStop (h : Inv s) : Inv s.safeStop := by
  constructor
  case fair => exact h.fair.snoc trivial
  case said =>
    show past (s.log ++ [Obs.disarmed (s.stopEpoch + 1)]) = _
    rw [past_snoc, h.said]
    unfold SimLink.summary SimLink.safeStop SimLink.note
    dsimp only [Past.next]
    rw [past_snoc]
    rfl
  case last =>
    show s.lastCmdSeq = (past (s.log ++ [Obs.disarmed (s.stopEpoch + 1)])).lastSeq.getD 0
    rw [past_snoc]
    exact h.last
  case epochs =>
    refine ⟨h.epochs.1, fun e he => ?_⟩
    rcases List.mem_append.mp he with he | he
    · exact h.epochs.2 e he
    · cases List.mem_singleton.mp he
  case stops =>
    intro k hk hle
    rcases Nat.lt_or_ge s.stopEpoch k with hlt | hge
    · have hk' : k = s.stopEpoch + 1 := le_antisymm hle hlt
      rw [hk']
      exact List.mem_append_right _ (List.mem_singleton.mpr rfl)
    · exact List.mem_append_left _ (h.stops k hk hge)
  case shown => exact h.shown.trans (Nat.le_succ _)
  case time => exact nofun
  case command => exact nofun
  case resting => exact fun _ => rfl
  case hold => exact nofun
  case tick => exact h.tick.snoc rfl

theorem Inv.applyCommand (h : Inv s) (r : Request) : Inv (s.applyCommand r) := by
  unfold SimLink.applyCommand
  cases hw : s.wordOf r with
  | none => exact h
  | some word =>
    dsimp only
    split_ifs with hopen
    · rw [Bool.and_eq_true, beq_iff_eq] at hopen
      obtain ⟨ha, hf⟩ := hopen
      constructor
      case fair => exact h.fair.snoc ⟨h.armed.trans ha, h.faultless hf⟩
      case said =>
        show past (s.log ++ [Obs.accepted ((s.cmdSeq + 1) % 2 ^ 32) word s.clock]) = _
        rw [past_snoc, h.said]
        unfold SimLink.summary SimLink.note
        dsimp only [Past.next]
        rw [past_snoc]
        rfl
      case last =>
        show _ = (past (s.log ++ [Obs.accepted ((s.cmdSeq + 1) % 2 ^ 32) word s.clock])).lastSeq.getD 0
        rw [past_snoc]
        rfl
      case epochs =>
        refine ⟨h.epochs.1, fun e he => ?_⟩
        rcases List.mem_append.mp he with he | he
        · exact h.epochs.2 e he
        · cases List.mem_singleton.mp he
      case stops => exact fun k hk hle => List.mem_append_left _ (h.stops k hk hle)
      case shown => exact h.shown
      case time => exact h.time
      case command =>
        intro w hw
        obtain rfl := Option.some.inj hw
        exact ⟨h.time ha, _, Since.now rfl⟩
      case resting => exact h.resting
      case hold => exact fun hin hp => (h.hold hin hp).snoc rfl
      case tick => exact h.tick.snoc rfl
    · exact h.still (by constructor <;> rfl) rfl rfl (fun _ => id) id le_rfl h.tick

theorem Inv.awaitArm (h : Inv s) (wait : ℕ × ℚ) : Inv (s.awaitArm wait) := by
  unfold SimLink.awaitArm
  split_ifs
  · exact h.still (by constructor <;> rfl) rfl rfl (fun _ => id) id le_rfl h.tick
  · exact h
  · exact h

theorem Inv.awaitStop (h : Inv s) (wait : ℕ × ℚ) : Inv (s.awaitStop wait) := by
  unfold SimLink.awaitStop
  split_ifs
  · exact h.noted (o := .stopUnconfirmed wait.1) (by constructor <;> rfl) rfl rfl trivial (summary_told h (by constructor <;> rfl) rfl (fun _ => rfl) rfl) (fun _ => id) id le_rfl
      (h.tick.snoc rfl)
  · exact h.noted (o := .stopConfirmed wait.1) (by constructor <;> rfl) rfl rfl trivial (summary_told h (by constructor <;> rfl) rfl (fun _ => rfl) rfl) (fun _ => id) id le_rfl
      (h.tick.snoc rfl)
  · exact h
  · exact h

/-! ## the servo thread -/

theorem Inv.holdHere (h : Inv s) (ha : s.isArmed = true) (hservo : InTick s.servo s.tickSnap s.holdHere.log) : Inv s.holdHere := by
  unfold SimLink.holdHere at hservo ⊢
  split_ifs with hin
  · exact h
  · rw [if_neg hin] at hservo
    constructor
    case fair =>
      refine h.fair.snoc ?_
      trivial
    case said =>
      show past (s.log ++ [Obs.held s.state.q]) = _
      rw [past_snoc, h.said]
      unfold SimLink.summary SimLink.note
      dsimp only [Past.next]
      rw [past_snoc]
      rfl
    case last =>
      show s.lastCmdSeq = (past (s.log ++ [Obs.held s.state.q])).lastSeq.getD 0
      rw [past_snoc]
      exact h.last
    case epochs =>
      refine ⟨h.epochs.1, fun e he => ?_⟩
      rcases List.mem_append.mp he with he | he
      · exact h.epochs.2 e he
      · cases List.mem_singleton.mp he
    case stops => exact fun k hk hle => List.mem_append_left _ (h.stops k hk hle)
    case shown => exact h.shown
    case time => exact h.time
    case command => exact nofun
    case resting => exact fun hn => absurd (ha.symm.trans hn) nofun
    case hold =>
      refine fun _ _ => Since.now ⟨rfl, ?_⟩
      rw [h.said]
      rfl
    case tick => exact hservo

theorem Inv.loseCommands (h : Inv s) (silent : ℚ) : Inv (s.loseCommands silent) := by
  unfold SimLink.loseCommands
  split_ifs with hf
  · refine h.noted (o := .latched faultCmdLost "command stream lost") (by constructor <;> rfl) rfl rfl (h.faultless hf.2) ?_ (fun _ => id) id le_rfl (h.tick.snoc rfl)
    show past (s.log ++ [Obs.latched faultCmdLost "command stream lost"]) = _
    rw [past_snoc, h.said]
    unfold SimLink.summary SimLink.note
    dsimp only [Past.next]
    rw [past_snoc, if_pos hf.2]
    rfl
  · exact h

/-- only a released tick shows a DISARM -/
theorem Inv.show (h : Inv s) : Inv (if s.isArmed then s else { s with pubStopEpoch := s.stopEpoch }) := by
  split_ifs
  · exact h
  · exact ⟨h.fair, h.said, h.last, h.epochs, h.stops, le_rfl, h.time, h.command, h.resting, h.hold, h.tick⟩

/-- the step of the plant begins -/
theorem Inv.begun (h : Inv s) {now : ℚ} {w : Word} {snap : Snapshot} {gen : ℕ × ℕ}
    (hsnap : (snap.armed, snap.armEpoch, snap.stopEpoch, snap.lastCmdSeq) = (s.isArmed, s.armEpoch, s.pubStopEpoch, s.lastCmdSeq))
    (hallowed : Allowed s.config now w s.log) (hzero : s.isArmed = false → w.Zero s.config.n)
    (hhold : snap.holding = false → s.inHold = true → s.plantOk = false) :
    Inv ({ s with tickSnap := some (snap, gen), servo := .stepping now w snap }.note (.stepBegan now w snap)) := by
  obtain ⟨harmed, hrest⟩ := Prod.mk.inj hsnap
  obtain ⟨hepoch, hrest⟩ := Prod.mk.inj hrest
  obtain ⟨hstop, hseq⟩ := Prod.mk.inj hrest
  constructor
  case fair =>
    refine h.fair.snoc ⟨hallowed, ?_, ?_, fun hn => ?_⟩
    · rw [h.said, harmed, hepoch]
      rfl
    · rw [hseq, h.last]
    · rw [harmed] at hn
      refine ⟨hzero hn, fun k hk hle => h.stops k hk ?_⟩
      rw [hstop] at hle
      exact hle.trans h.shown
  case said =>
    show past (s.log ++ [Obs.stepBegan now w snap]) = _
    rw [past_snoc, h.said]
    unfold SimLink.summary SimLink.note
    dsimp only [Past.next]
    rw [past_snoc]
    rfl
  case last =>
    show s.lastCmdSeq = (past (s.log ++ [Obs.stepBegan now w snap])).lastSeq.getD 0
    rw [past_snoc]
    exact h.last
  case epochs =>
    refine ⟨h.epochs.1, fun e he => ?_⟩
    rcases List.mem_append.mp he with he | he
    · exact h.epochs.2 e he
    · cases List.mem_singleton.mp he
  case stops => exact fun k hk hle => List.mem_append_left _ (h.stops k hk hle)
  case shown => exact h.shown
  case time => exact h.time
  case command =>
    intro v hv
    obtain ⟨ht, seq, hs⟩ := h.command v hv
    exact ⟨ht, seq, hs.snoc rfl⟩
  case resting => exact h.resting
  case hold =>
    intro hin hp
    refine (h.hold hin hp).snoc ?_
    show (!snap.holding) = false
    rw [Bool.not_eq_false']
    by_contra hn
    rw [Bool.not_eq_true] at hn
    rw [hhold hn hin] at hp
    cases hp
  case tick => exact ⟨rfl, Since.now ⟨now, w, snap, rfl, rfl⟩⟩

theorem Inv.enter (h : Inv s) {now : ℚ} {w : Word} {holding : Bool} (hallowed : Allowed s.config now w s.log)
    (hzero : s.isArmed = false → w.Zero s.config.n) (hhold : holding = false → s.inHold = true → s.plantOk = false) : Inv (s.enter now w holding) := by
  have hshow := h.show
  unfold SimLink.enter
  dsimp only
  cases ha : s.isArmed with
  | true =>
    rw [ha, if_pos rfl] at hshow
    rw [if_pos rfl]
    exact hshow.begun rfl hallowed hzero hhold
  | false =>
    rw [ha, if_neg Bool.false_ne_true] at hshow
    rw [if_neg Bool.false_ne_true]
    exact hshow.begun rfl hallowed (fun _ => hzero ha) hhold

theorem releasedWord_zero (s : SimLink) : s.releasedWord.Zero s.config.n := ⟨rfl, rfl, rfl, rfl, rfl⟩

/-- the three words of a tick -/
theorem choose_cases (s : SimLink) (now : ℚ) :
    ((s.isArmed = true → s.plantOk = false) ∧ s.choose now = (s.releasedWord, false, s)) ∨
    (∃ w, s.isArmed = true ∧ s.cmd = some w ∧ s.faultCode = 0 ∧ (now - max s.cmdT s.armT) * 1000 ≤ s.config.holdMs ∧
      s.choose now = (w, false, { s with inHold := false })) ∨
    (s.isArmed = true ∧ s.plantOk = true ∧
      s.choose now = (s.holdHere.holdWord, true, s.holdHere.loseCommands (now - max s.cmdT s.armT))) := by
  unfold SimLink.choose
  cases ha : s.isArmed with
  | false => exact .inl ⟨nofun, rfl⟩
  | true =>
    cases hp : s.plantOk with
    | false => exact .inl ⟨fun _ => rfl, rfl⟩
    | true =>
      right
      rw [Bool.not_true, Bool.false_or, if_neg Bool.false_ne_true]
      dsimp only
      cases hc : s.cmd with
      | none => exact .inr ⟨rfl, rfl, rfl⟩
      | some w =>
        dsimp only
        split_ifs with hgo
        · exact .inl ⟨w, rfl, rfl, hgo.1, hgo.2, rfl⟩
        · exact .inr ⟨rfl, rfl, rfl⟩

theorem holdHere_inHold (s : SimLink) : s.holdHere.inHold = true := by
  unfold SimLink.holdHere
  split_ifs with h
  · exact h
  · rfl

theorem holdHere_kept (s : SimLink) : s.holdHere.isArmed = s.isArmed ∧ s.holdHere.plantOk = s.plantOk ∧ s.holdHere.servo = s.servo := by
  unfold SimLink.holdHere
  split_ifs <;> exact ⟨rfl, rfl, rfl⟩

theorem loseCommands_kept (s : SimLink) (silent : ℚ) :
    (s.loseCommands silent).config = s.config ∧ (s.loseCommands silent).isArmed = s.isArmed ∧ (s.loseCommands silent).plantOk = s.plantOk ∧
      (s.loseCommands silent).inHold = s.inHold ∧ (s.loseCommands silent).holdQ = s.holdQ := by
  unfold SimLink.loseCommands
  split_ifs <;> exact ⟨rfl, rfl, rfl, rfl, rfl⟩

/-- **A tick steps the plant with a word that is allowed.** -/
theorem Inv.ticked (h : Inv s) {now : ℚ} (hservo : s.servo = .woken now) : Inv (s.tick now) := by
  have h₀ : Inv { s with tickSnap := none } := by
    refine h.still (by constructor <;> rfl) rfl rfl (fun _ => id) id le_rfl ?_
    rw [hservo]
    trivial
  unfold SimLink.tick
  generalize hs₀ : { s with tickSnap := none } = s₀ at h₀
  have hservo₀ : s₀.servo = .woken now := hs₀ ▸ hservo
  rcases choose_cases s₀ now with ⟨hfree, he⟩ | ⟨w, ha, hc, hf, hage, he⟩ | ⟨ha, hp, he⟩
  · rw [he]
    refine h₀.enter (.inl (releasedWord_zero s₀)) (fun _ => releasedWord_zero s₀) fun _ hin => ?_
    cases ha : s₀.isArmed with
    | false => exact absurd (hin.symm.trans (h₀.resting ha)) nofun
    | true => exact hfree ha
  · rw [he]
    obtain ⟨ht, seq, hs⟩ := h₀.command w hc
    have hfresh : Inv { s₀ with inHold := false } :=
      ⟨h₀.fair, h₀.said, h₀.last, h₀.epochs, h₀.stops, h₀.shown, h₀.time, h₀.command, fun _ => rfl, nofun, h₀.tick⟩
    rw [max_eq_left ht] at hage
    exact hfresh.enter (.inr (.inr ⟨h₀.armed.trans ha, h₀.faultless hf, seq, s₀.cmdT, hage, hs⟩)) (fun hn => absurd (ha.symm.trans hn) nofun) nofun
  · rw [he]
    obtain ⟨hka, hkp, hks⟩ := holdHere_kept s₀
    have hheld := h₀.holdHere ha (by rw [hservo₀]; trivial)
    have hlost := hheld.loseCommands (now - max s₀.cmdT s₀.armT)
    obtain ⟨hconfig, harmed, hok, hin, hq⟩ := loseCommands_kept s₀.holdHere (now - max s₀.cmdT s₀.armT)
    refine hlost.enter (.inr (.inl ⟨?_, ?_, rfl, ?_⟩)) ?_ nofun
    · rw [hconfig]
      rfl
    · rw [hconfig]
      rfl
    · have := hlost.hold (hin.trans (holdHere_inHold s₀)) (hok.trans (hkp.trans hp))
      rw [hq] at this
      exact this
    · intro hn
      rw [harmed, hka, ha] at hn
      cases hn

theorem Inv.publish (h : Inv s) {rxT : ℚ} {motor : Motor} {word : Option Word} {snap : Snapshot}
    (hbegan : Began (fun snap' => (snap.armed, snap.armEpoch, snap.lastCmdSeq) = (snap'.armed, snap'.armEpoch, snap'.lastCmdSeq)) s.log) :
    Inv (s.publish rxT motor word snap) := by
  refine h.noted (o := .published _) (by constructor <;> rfl) rfl rfl ?_ ?_ (fun _ => id) id le_rfl trivial
  · exact hbegan
  · show past (s.log ++ [Obs.published _]) = _
    rw [past_snoc, h.said]
    unfold SimLink.summary SimLink.publish SimLink.note
    dsimp only [Past.next]
    rw [past_snoc]
    rfl

theorem Inv.latchPlant (h : Inv s) (exc : String) : Inv (s.latchPlant exc) := by
  unfold SimLink.latchPlant
  dsimp only
  split_ifs with hf
  · refine h.noted (o := .latched faultPlant ("sim plant failed: " ++ exc)) (by constructor <;> rfl) rfl rfl (h.faultless hf) ?_ nofun nofun le_rfl
      (h.tick.snoc rfl)
    show past (s.log ++ [Obs.latched faultPlant ("sim plant failed: " ++ exc)]) = _
    rw [past_snoc, h.said]
    unfold SimLink.summary SimLink.note
    dsimp only [Past.next]
    rw [past_snoc, if_pos hf]
    rfl
  · exact h.still (by constructor <;> rfl) rfl rfl nofun nofun le_rfl h.tick

theorem latchPlant_kept (s : SimLink) (exc : String) : (s.latchPlant exc).servo = s.servo ∧ (s.latchPlant exc).tickSnap = s.tickSnap := by
  unfold SimLink.latchPlant
  dsimp only
  split_ifs <;> exact ⟨rfl, rfl⟩

theorem Inv.plantFailed (h : Inv s) {now : ℚ} {exc : String} (hservo : s.servo = .failing now exc) : Inv (s.plantFailed now exc) := by
  unfold SimLink.plantFailed
  generalize hfound : s.tickSnap.getD _ = found
  dsimp only
  generalize hs₁ : (if (s.armEpoch, s.stopEpoch) = found.2 then s.latchPlant exc else s) = s₁
  have hkept : s₁.servo = s.servo ∧ s₁.tickSnap = s.tickSnap := by
    rw [← hs₁]
    split_ifs
    · exact latchPlant_kept s exc
    · exact ⟨rfl, rfl⟩
  have h₁ : Inv s₁ := by
    rw [← hs₁]
    split_ifs
    · exact h.latchPlant exc
    · exact h
  have htick := h₁.tick
  rw [hkept.1, hservo] at htick
  obtain ⟨snap, hsnap, hbegan⟩ := htick
  -- the sample will show the authority of the step
  have hown : found.1 = snap := by
    rw [hkept.2] at hsnap
    obtain ⟨p, htaken, rfl⟩ := Option.map_eq_some_iff.mp hsnap
    rw [← hfound, htaken]
    rfl
  refine h₁.still (by constructor <;> rfl) rfl rfl (fun _ => id) id le_rfl ?_
  rw [hown]
  exact hbegan.mono (fun _ o ⟨n, v, sn, ho, hsn⟩ => ⟨n, v, sn, ho, by rw [hsn]⟩) fun _ => id

theorem Inv.servoStep (h : Inv s) (env : SimLink.ServoEnv) : Inv (s.servoStep env) := by
  have htick := h.tick
  unfold SimLink.servoStep
  cases hservo : s.servo with
  | idle => exact h.still (by constructor <;> rfl) rfl rfl (fun _ => id) id le_rfl trivial
  | woken now => exact h.ticked hservo
  | stepping now w snap =>
    rw [hservo] at htick
    dsimp only
    cases env.plant with
    | ok motor =>
      exact h.noted (o := .stepReturned) (by constructor <;> rfl) rfl rfl trivial (summary_told h (by constructor <;> rfl) rfl (fun _ => rfl) rfl) (fun _ => id) id le_rfl
        ⟨htick.1, htick.2.snoc rfl⟩
    | error exc =>
      exact h.noted (o := .stepRaised) (by constructor <;> rfl) rfl rfl trivial (summary_told h (by constructor <;> rfl) rfl (fun _ => rfl) rfl) (fun _ => id) id le_rfl
        ⟨snap, htick.1, htick.2.snoc rfl⟩
  | stepped now w snap motor =>
    rw [hservo] at htick
    dsimp only
    cases env.hand with
    | none => exact h.publish (htick.2.mono (fun _ o ⟨n, v, sn, ho, hsn⟩ => ⟨n, v, sn, ho, by rw [hsn]⟩) fun _ => id)
    | some exc => exact h.still (by constructor <;> rfl) rfl rfl (fun _ => id) id le_rfl ⟨snap, htick⟩
  | failing now exc => exact h.plantFailed hservo
  | failed now snap motor =>
    rw [hservo] at htick
    exact h.publish htick

theorem Inv.step (h : Inv s) (e : SimLink.Event) : Inv (s.step e) := by
  cases e with
  | pass d => exact h.still (by constructor <;> rfl) rfl rfl (fun _ => id) id (le_add_of_nonneg_right (le_max_left 0 d)) h.tick
  | enableAll => exact h.enableAll
  | safeStop => exact h.safeStop
  | applyCommand r => exact h.applyCommand r
  | awaitArm wait => exact h.awaitArm wait
  | awaitStop wait => exact h.awaitStop wait
  | servo env => exact h.servoStep env

end ArmControl.Plants.Sim
