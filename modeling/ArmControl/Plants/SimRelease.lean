import ArmControl.Plants.SimAuthority
import Mathlib.Tactic.NormNum

/-!
# What a confirmed stop of the simulated link says

* `Released stop`       a zero-gain step that began after that DISARM has returned;
* `Steady`              no step of the disarmed servo raises before one has returned under the same stop epoch;
* `Shown`               what every state keeps in a run of steady steps;
* `sim_link_authority`  **every run keeps the authority rules, and a run of steady steps confirms a stop only when it is released.**
-/

namespace ArmControl.Plants.Sim
open History Run

/-! ## released steps -/

/-- the plant's step goes on -/
def running : Obs → Bool
  | .stepBegan .. | .stepReturned | .stepRaised => false
  | _ => true

/-- the step that has begun and has not ended -/
def Running (P : List Obs → Word → Snapshot → Prop) : List Obs → Prop :=
  Since (fun p o => ∃ now w snap, o = .stepBegan now w snap ∧ P p w snap) fun o => running o = true

/-- such a step has returned -/
def Returned (P : List Obs → Word → Snapshot → Prop) : List Obs → Prop :=
  Since (fun p o => o = .stepReturned ∧ Running P p) fun _ => True

/-- a zero-gain step that began after the DISARM has returned -/
def Released (c : Config) (stop : ℕ) : List Obs → Prop := Returned fun p w _ => w.Zero c.n ∧ .disarmed stop ∈ p

/-- a step of the disarmed servo that shows this stop epoch has returned -/
def Stood (stop : ℕ) : List Obs → Prop := Returned fun _ _ snap => snap.armed = false ∧ snap.stopEpoch = stop

/-- a stop is confirmed when it is released -/
def Confirmed (c : Config) (p : List Obs) (o : Obs) : Prop := ∀ stop, o = .stopConfirmed stop → Released c stop p

/-- the step of a disarmed servo was sent zero gains, after the DISARMs that it shows -/
theorem Stood.released {c : Config} {log : List Obs} {stop k : ℕ} (h : Stood k log) (hfair : Justified (Fair c) log) (hstop : 0 < stop)
    (hle : stop ≤ k) : Released c stop log := by
  obtain ⟨p, o, q, rfl, ⟨rfl, p₁, b, q₁, rfl, ⟨now, w, snap, rfl, harmed, rfl⟩, hrun⟩, -⟩ := h
  have hbegan : Fair c p₁ (.stepBegan now w snap) := hfair p₁ _ (q₁ ++ .stepReturned :: q) (by simp)
  obtain ⟨hzero, hdisarmed⟩ := hbegan.2.2.2 harmed
  exact ⟨_, _, q, rfl, ⟨rfl, p₁, _, q₁, rfl, ⟨now, w, snap, rfl, hzero, hdisarmed stop hstop hle⟩, hrun⟩, fun _ _ => trivial⟩

/-! ## the invariant -/

/-- what a sample or a tick of the disarmed servo shows has stood -/
def Seen (armed : Bool) (stop : ℕ) (log : List Obs) : Prop := armed = false → stop = 0 ∨ Stood stop log

theorem Seen.append {armed : Bool} {stop : ℕ} {log : List Obs} (h : Seen armed stop log) (new : List Obs) : Seen armed stop (log ++ new) :=
  fun ha => (h ha).imp id fun hs => hs.append fun _ _ => trivial

/-- what the servo thread's sample will show -/
def Shows (servo : ServoPc) (tickSnap : Option (Snapshot × ℕ × ℕ)) (log : List Obs) : Prop :=
  match servo with
  | .idle | .woken _ => True
  | .stepping _ _ snap => Running (fun _ _ snap' => snap' = snap) log
  | .stepped _ _ snap _ | .failed _ snap _ => Seen snap.armed snap.stopEpoch log
  | .failing .. => ∀ snap, tickSnap.map Prod.fst = some snap → Seen snap.armed snap.stopEpoch log

structure Shown (s : SimLink) : Prop where
  confirmed : Justified (Confirmed s.config) s.log
  sample : Seen s.state.armed s.state.stopEpoch s.log
  waits : ∀ wait ∈ s.stopWaits, 0 < wait.1
  tick : Shows s.servo s.tickSnap s.log

/-- no step of the disarmed servo raises before one has returned under the same stop epoch -/
def Steady (s : SimLink) (e : SimLink.Event) : Prop :=
  ∀ env exc now w snap, e = .servo env → env.plant = .error exc → s.servo = .stepping now w snap → Seen snap.armed snap.stopEpoch s.log

/-- entries that confirm nothing and leave the step as it is -/
def inert : Obs → Bool
  | .stepBegan .. | .stepReturned | .stepRaised | .stopConfirmed _ => false
  | _ => true

theorem confirmed_of_ne {c : Config} {p : List Obs} {o : Obs} (h : ∀ stop, o ≠ .stopConfirmed stop) : Confirmed c p o :=
  fun stop he => absurd he (h stop)

theorem inert_confirmed {c : Config} {o : Obs} (h : inert o = true) (p : List Obs) : Confirmed c p o := by
  refine confirmed_of_ne fun stop => ?_
  rintro rfl
  cases h

theorem inert_running {o : Obs} (h : inert o = true) : running o = true := by
  cases o <;> cases h <;> rfl

theorem Shows.append {servo : ServoPc} {tickSnap : Option (Snapshot × ℕ × ℕ)} {log : List Obs} (h : Shows servo tickSnap log) {new : List Obs}
    (hnew : ∀ o ∈ new, running o = true) : Shows servo tickSnap (log ++ new) := by
  cases servo with
  | idle => trivial
  | woken now => trivial
  | stepping now w snap => exact Since.append h hnew
  | stepped now w snap motor => exact Seen.append h new
  | failing now exc => exact fun snap hs => Seen.append (h snap hs) new
  | failed now snap motor => exact Seen.append h new

variable {s : SimLink}

theorem shown_opened (c : Config) (motor : Motor) (clock : ℚ) : Shown (SimLink.opened c motor clock) where
  confirmed := justified_nil.snoc (inert_confirmed rfl _)
  sample _ := .inl rfl
  waits := nofun
  tick := trivial

/-- what happens away from the servo thread -/
theorem Shown.aside (h : Shown s) {s' : SimLink} (new : List Obs) (hlog : s'.log = s.log ++ new) (hnew : ∀ o ∈ new, inert o = true)
    (hsame : (s'.config, s'.state, s'.servo, s'.tickSnap) = (s.config, s.state, s.servo, s.tickSnap))
    (hwaits : ∀ wait ∈ s'.stopWaits, 0 < wait.1) : Shown s' := by
  obtain ⟨hconfig, hrest⟩ := Prod.mk.inj hsame
  obtain ⟨hstate, hrest⟩ := Prod.mk.inj hrest
  obtain ⟨hservo, hsnap⟩ := Prod.mk.inj hrest
  constructor
  case confirmed =>
    rw [hlog, hconfig]
    exact h.confirmed.append fun o ho => inert_confirmed (hnew o ho)
  case sample =>
    rw [hlog, hstate]
    exact h.sample.append new
  case waits => exact hwaits
  case tick =>
    rw [hlog, hservo, hsnap]
    exact h.tick.append fun o ho => inert_running (hnew o ho)

/-- the servo thread goes on -/
theorem Shown.onward (h : Shown s) {s' : SimLink} (new : List Obs) (hlog : s'.log = s.log ++ new)
    (hnew : ∀ o ∈ new, ∀ stop, o ≠ .stopConfirmed stop) (hsame : (s'.config, s'.stopWaits) = (s.config, s.stopWaits))
    (hsample : Seen s'.state.armed s'.state.stopEpoch s'.log) (htick : Shows s'.servo s'.tickSnap s'.log) : Shown s' := by
  obtain ⟨hconfig, hwaits⟩ := Prod.mk.inj hsame
  constructor
  case confirmed =>
    rw [hlog, hconfig]
    exact h.confirmed.append fun o ho _ => confirmed_of_ne (hnew o ho)
  case sample => exact hsample
  case waits =>
    rw [hwaits]
    exact h.waits
  case tick => exact htick

/-! ## callers -/

theorem Shown.enableAll (h : Shown s) : Shown s.enableAll := by
  unfold SimLink.enableAll
  split_ifs
  · exact h.aside [.armRefused] rfl (by decide) rfl h.waits
  · exact h
  · exact h.aside [.armed (s.epochs + 1)] rfl (by simp [inert]) rfl h.waits

theorem Shown.safeStop (h : Shown s) : Shown s.safeStop := by
  refine h.aside [.disarmed (s.stopEpoch + 1)] rfl (by simp [inert]) rfl fun wait hw => ?_
  rcases List.mem_append.mp hw with hw | hw
  · exact h.waits wait hw
  · rw [List.mem_singleton.mp hw]
    exact Nat.succ_pos _

theorem Shown.applyCommand (h : Shown s) (r : Request) : Shown (s.applyCommand r) := by
  unfold SimLink.applyCommand
  cases s.wordOf r with
  | none => exact h
  | some word =>
    dsimp only
    split_ifs
    · exact h.aside [.accepted ((s.cmdSeq + 1) % 2 ^ 32) word s.clock] rfl (by simp [inert]) rfl h.waits
    · exact h.aside [] (List.append_nil _).symm nofun rfl h.waits

theorem Shown.awaitArm (h : Shown s) (wait : ℕ × ℚ) : Shown (s.awaitArm wait) := by
  unfold SimLink.awaitArm
  split_ifs
  · exact h.aside [] (List.append_nil _).symm nofun rfl h.waits
  · exact h
  · exact h

theorem Shown.awaitStop (h : Shown s) (hi : Inv s) (wait : ℕ × ℚ) : Shown (s.awaitStop wait) := by
  have hless : ∀ w ∈ s.stopWaits.erase wait, 0 < w.1 := fun w hw => h.waits w (List.mem_of_mem_erase hw)
  unfold SimLink.awaitStop
  split_ifs with hwaits hlate hseen
  · exact h.aside [.stopUnconfirmed wait.1] rfl (by simp [inert]) rfl hless
  · rw [Bool.and_eq_true, Bool.not_eq_true', decide_eq_true_eq] at hseen
    have hpos : 0 < wait.1 := h.waits wait (List.contains_iff_mem.mp hwaits)
    have hstood : Stood s.state.stopEpoch s.log := (h.sample hseen.1).resolve_left (by omega)
    constructor
    case confirmed =>
      refine h.confirmed.snoc fun stop he => ?_
      obtain rfl := Obs.stopConfirmed.inj he
      exact hstood.released hi.fair hpos hseen.2
    case sample => exact h.sample.append [_]
    case waits => exact hless
    case tick => exact h.tick.append (show ∀ o ∈ [Obs.stopConfirmed wait.1], running o = true by simp [running])
  · exact h
  · exact h

/-! ## the servo thread -/

/-- nothing but inert entries, and the state that callers see as it was -/
structure Apart (s s' : SimLink) : Prop where
  log : ∃ new, s'.log = s.log ++ new ∧ ∀ o ∈ new, inert o = true
  same : (s'.config, s'.state, s'.stopWaits) = (s.config, s.state, s.stopWaits)

theorem Apart.refl (s : SimLink) : Apart s s := ⟨⟨[], (List.append_nil _).symm, nofun⟩, rfl⟩

theorem Apart.trans {s' s'' : SimLink} (h : Apart s s') (h' : Apart s' s'') : Apart s s'' := by
  obtain ⟨new, hlog, hnew⟩ := h.log
  obtain ⟨new', hlog', hnew'⟩ := h'.log
  refine ⟨⟨new ++ new', by rw [hlog', hlog, List.append_assoc], fun o ho => ?_⟩, h'.same.trans h.same⟩
  rcases List.mem_append.mp ho with ho | ho
  · exact hnew o ho
  · exact hnew' o ho

theorem apart_holdHere (s : SimLink) : Apart s s.holdHere := by
  unfold SimLink.holdHere
  split_ifs
  · exact .refl s
  · exact ⟨⟨[.held s.state.q], rfl, by simp [inert]⟩, rfl⟩

theorem apart_loseCommands (s : SimLink) (silent : ℚ) : Apart s (s.loseCommands silent) := by
  unfold SimLink.loseCommands
  split_ifs
  · exact ⟨⟨[.latched faultCmdLost "command stream lost"], rfl, by simp [inert]⟩, rfl⟩
  · exact .refl s

theorem apart_latchPlant (s : SimLink) (exc : String) : Apart s (s.latchPlant exc) := by
  unfold SimLink.latchPlant
  dsimp only
  split_ifs
  · exact ⟨⟨[.latched faultPlant ("sim plant failed: " ++ exc)], rfl, by simp [inert]⟩, rfl⟩
  · exact ⟨⟨[], (List.append_nil _).symm, nofun⟩, rfl⟩

theorem apart_choose (s : SimLink) (now : ℚ) : Apart s (s.choose now).2.2 := by
  rcases choose_cases s now with ⟨-, he⟩ | ⟨w, -, -, -, -, he⟩ | ⟨-, -, he⟩
  · rw [he]
    exact .refl s
  · rw [he]
    exact ⟨⟨[], (List.append_nil _).symm, nofun⟩, rfl⟩
  · rw [he]
    exact (apart_holdHere s).trans (apart_loseCommands _ _)

theorem choose_servo (s : SimLink) (now : ℚ) : (s.choose now).2.2.servo = s.servo := by
  rcases choose_cases s now with ⟨-, he⟩ | ⟨w, -, -, -, -, he⟩ | ⟨-, -, he⟩
  · rw [he]
  · rw [he]
  · rw [he]
    have hlost : (s.holdHere.loseCommands (now - max s.cmdT s.armT)).servo = s.holdHere.servo := by
      unfold SimLink.loseCommands
      split_ifs <;> rfl
    exact hlost.trans (holdHere_kept s).2.2

/-- the servo thread's inert entries -/
theorem Shown.apart (h : Shown s) {s' : SimLink} (ha : Apart s s') (htick : Shows s'.servo s'.tickSnap s'.log) : Shown s' := by
  obtain ⟨new, hlog, hnew⟩ := ha.log
  obtain ⟨hconfig, hrest⟩ := Prod.mk.inj ha.same
  obtain ⟨hstate, hwaits⟩ := Prod.mk.inj hrest
  refine h.onward new hlog (fun o ho stop he => ?_) (by rw [hconfig, hwaits]) ?_ htick
  · have := hnew o ho
    rw [he] at this
    cases this
  · rw [hstate, hlog]
    exact h.sample.append new

/-- the step of the plant begins -/
theorem Shown.begun (h : Shown s) (now : ℚ) (w : Word) (holding : Bool) : Shown (s.enter now w holding) := by
  unfold SimLink.enter
  dsimp only
  generalize hs₁ : (if s.isArmed then s else { s with pubStopEpoch := s.stopEpoch }) = s₁
  have hsame : (s₁.config, s₁.stopWaits) = (s.config, s.stopWaits) ∧ s₁.state = s.state ∧ s₁.log = s.log := by
    rw [← hs₁]
    split_ifs <;> exact ⟨rfl, rfl, rfl⟩
  obtain ⟨hkept, hstate, hlog⟩ := hsame
  refine h.onward [.stepBegan now w _] (congrArg (· ++ _) hlog) (by simp) hkept ?_ (Since.now ⟨now, w, _, rfl, rfl⟩)
  show Seen s₁.state.armed s₁.state.stopEpoch (s₁.log ++ [_])
  rw [hstate, hlog]
  exact h.sample.append [_]

theorem Shown.ticked (h : Shown s) {now : ℚ} (hservo : s.servo = .woken now) : Shown (s.tick now) := by
  have h₀ : Shown { s with tickSnap := none } := by
    refine h.onward [] (List.append_nil _).symm nofun rfl h.sample ?_
    rw [hservo]
    trivial
  have h₁ := apart_choose { s with tickSnap := none } now
  have hservo₁ : ({ s with tickSnap := none }.choose now).2.2.servo = .woken now := (choose_servo _ now).trans hservo
  unfold SimLink.tick
  exact (h₀.apart h₁ (by rw [hservo₁]; trivial)).begun _ _ _

theorem Shown.plantFailed (h : Shown s) (hi : Inv s) {now : ℚ} {exc : String} (hservo : s.servo = .failing now exc) :
    Shown (s.plantFailed now exc) := by
  have htick := h.tick
  have hown := hi.tick
  rw [hservo] at htick hown
  obtain ⟨snap, hsnap, -⟩ := hown
  have hseen := htick snap hsnap
  obtain ⟨p, htaken, rfl⟩ := Option.map_eq_some_iff.mp hsnap
  unfold SimLink.plantFailed
  rw [htaken]
  dsimp only [Option.getD_some]
  generalize hs₁ : (if (s.armEpoch, s.stopEpoch) = p.2 then s.latchPlant exc else s) = s₁
  have hapart : Apart s s₁ := by
    rw [← hs₁]
    split_ifs
    · exact apart_latchPlant s exc
    · exact .refl s
  obtain ⟨new, hlog, -⟩ := hapart.log
  refine h.apart (hapart.trans ⟨⟨[], (List.append_nil _).symm, nofun⟩, rfl⟩) ?_
  show Seen p.1.armed p.1.stopEpoch s₁.log
  rw [hlog]
  exact hseen.append new

theorem Shown.servoStep (h : Shown s) (hi : Inv s) {env : SimLink.ServoEnv} (hsteady : Steady s (.servo env)) : Shown (s.servoStep env) := by
  have htick := h.tick
  have hown := hi.tick
  unfold SimLink.servoStep
  cases hservo : s.servo with
  | idle => exact h.onward [] (List.append_nil _).symm nofun rfl h.sample trivial
  | woken now => exact h.ticked hservo
  | stepping now w snap =>
    rw [hservo] at htick hown
    dsimp only
    cases hplant : env.plant with
    | ok motor =>
      refine h.onward [.stepReturned] rfl (by simp) rfl (h.sample.append [_]) fun harmed => .inr ?_
      refine Since.now ⟨rfl, htick.mono (fun p o ho => ?_) fun _ => id⟩
      obtain ⟨n, v, sn, ho, rfl⟩ := ho
      exact ⟨n, v, sn, ho, harmed, rfl⟩
    | error exc =>
      refine h.onward [.stepRaised] rfl (by simp) rfl (h.sample.append [_]) fun snap' hs => ?_
      obtain rfl := Option.some.inj (hown.1.symm.trans hs)
      exact (hsteady env exc now w snap rfl hplant hservo).append [_]
  | stepped now w snap motor =>
    rw [hservo] at htick hown
    dsimp only
    cases env.hand with
    | none => exact h.onward [.published _] rfl (by simp) rfl (Seen.append htick [_]) trivial
    | some exc =>
      refine h.onward [] (List.append_nil _).symm nofun rfl h.sample fun snap' hs => ?_
      obtain rfl := Option.some.inj (hown.1.symm.trans hs)
      exact htick
  | failing now exc => exact h.plantFailed hi hservo
  | failed now snap motor =>
    rw [hservo] at htick
    exact h.onward [.published _] rfl (by simp) rfl (Seen.append htick [_]) trivial

theorem Shown.step (h : Shown s) (hi : Inv s) {e : SimLink.Event} (hsteady : Steady s e) : Shown (s.step e) := by
  cases e with
  | pass d => exact h.aside [] (List.append_nil _).symm nofun rfl h.waits
  | enableAll => exact h.enableAll
  | safeStop => exact h.safeStop
  | applyCommand r => exact h.applyCommand r
  | awaitArm wait => exact h.awaitArm wait
  | awaitStop wait => exact h.awaitStop hi wait
  | servo env => exact h.servoStep hi hsteady

/-! ## runs -/

/-- the link after a run -/
def SimLink.after (c : Config) (motor : Motor) (clock : ℚ) (es : List SimLink.Event) : SimLink :=
  run SimLink.step (SimLink.opened c motor clock) es

/-- **The simulated link keeps the authority rules.**  In every run, every entry of the log is fair, and the latched fault is the first cause
since the last DISARM; and in a run of steady steps a stop is confirmed only after a zero-gain step that began after it has returned. -/
theorem sim_link_authority (c : Config) (motor : Motor) (clock : ℚ) (es : List SimLink.Event) :
    (Justified (Fair (SimLink.after c motor clock es).config) (SimLink.after c motor clock es).log ∧
      past (SimLink.after c motor clock es).log = (SimLink.after c motor clock es).summary) ∧
    (Along SimLink.step Steady (SimLink.opened c motor clock) es →
      Justified (Confirmed (SimLink.after c motor clock es).config) (SimLink.after c motor clock es).log) := by
  constructor
  · have hi : Inv (SimLink.after c motor clock es) :=
      invariant (C := fun _ _ => True) (I := Inv) (inv_opened c motor clock) (fun _ e _ h => h.step e) (along_of_forall (fun _ _ => trivial) es)
    exact ⟨hi.fair, hi.said⟩
  · intro hsteady
    exact (invariant (I := fun s => Inv s ∧ Shown s) ⟨inv_opened c motor clock, shown_opened c motor clock⟩
      (fun _ e hs h => ⟨h.1.step e, h.2.step h.1 hs⟩) hsteady).2.confirmed

/-- the launch values of a one-joint arm -/
def oneJoint : Config := ⟨1, 1 / 250, 100, 600, .fin 50, .fin 5, false, by norm_num⟩

/-- a DISARM, the tick after it and a look at its sample -/
def disarmRun (env : SimLink.ServoEnv) : List SimLink.Event := [.safeStop, .servo env, .servo env, .servo env, .servo env, .servo env, .awaitStop (1, 129 / 250)]

theorem along_of_ok {s : SimLink} {es : List SimLink.Event} (h : ∀ env, .servo env ∈ es → ∃ motor, env.plant = .ok motor) :
    Along SimLink.step Steady s es := by
  rintro pre e hpre env exc now w snap rfl hplant -
  obtain ⟨motor, hok⟩ := h env (hpre.subset (by simp))
  rw [hok] at hplant
  cases hplant

/-- a stop that the released step confirms -/
theorem sim_link_authority_released :
    Justified (Confirmed (SimLink.after oneJoint ⟨[.fin 0], [.fin 0]⟩ 0 (disarmRun ⟨.ok ⟨[.fin 0], [.fin 0]⟩, none⟩)).config)
      (SimLink.after oneJoint ⟨[.fin 0], [.fin 0]⟩ 0 (disarmRun ⟨.ok ⟨[.fin 0], [.fin 0]⟩, none⟩)).log ∧
    .stopConfirmed 1 ∈ (SimLink.after oneJoint ⟨[.fin 0], [.fin 0]⟩ 0 (disarmRun ⟨.ok ⟨[.fin 0], [.fin 0]⟩, none⟩)).log := by
  refine ⟨(sim_link_authority _ _ _ _).2 (along_of_ok fun env he => ?_), by decide +kernel⟩
  simp only [disarmRun, List.mem_cons, SimLink.Event.servo.injEq, reduceCtorEq, false_or, or_false, List.not_mem_nil] at he
  have hsame : env = ⟨.ok ⟨[.fin 0], [.fin 0]⟩, none⟩ := by tauto
  exact ⟨_, by rw [hsame]⟩

/-- a released step that raises confirms the stop all the same -/
theorem raised_step_confirms :
    ¬ ∀ (c : Config) (motor : Motor) (clock : ℚ) (es : List SimLink.Event),
      Justified (Confirmed (SimLink.after c motor clock es).config) (SimLink.after c motor clock es).log := by
  intro h
  have hconfirmed := h oneJoint ⟨[.fin 0], [.fin 0]⟩ 0 (disarmRun ⟨.error "boom", none⟩)
  generalize (SimLink.after oneJoint ⟨[.fin 0], [.fin 0]⟩ 0 (disarmRun ⟨.error "boom", none⟩)).config = c at hconfirmed
  have hlog : (SimLink.after oneJoint ⟨[.fin 0], [.fin 0]⟩ 0 (disarmRun ⟨.error "boom", none⟩)).log =
      (SimLink.after oneJoint ⟨[.fin 0], [.fin 0]⟩ 0 (disarmRun ⟨.error "boom", none⟩)).log.take 6 ++ .stopConfirmed 1 :: [] := by decide +kernel
  have hnever : .stepReturned ∉ (SimLink.after oneJoint ⟨[.fin 0], [.fin 0]⟩ 0 (disarmRun ⟨.error "boom", none⟩)).log.take 6 := by
    decide +kernel
  obtain ⟨p, o, q, he, ⟨rfl, -⟩, -⟩ := hconfirmed _ _ _ hlog 1 rfl
  apply hnever
  rw [he]
  simp

end ArmControl.Plants.Sim
