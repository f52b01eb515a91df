import ArmControl.Control.ServoMoves

/-!
# Gains over a run

* `wholeGains`        the callers' part: no call of `set_gains` installs the stiffness and refuses the damping;
* `GainsRule`         every call of `set_gains` leaves a damped law, and one that raises leaves the law that was there;
* `GainsInv.move`     every move keeps it;
* `no_undamped_spring`   **so it holds in every run.**
-/

set_option linter.unusedSectionVars false

namespace ArmControl.Control.Servo
open ArmControl.Motion History Effect

section
variable {K : Type} [Field K] [LinearOrder K] {n : ℕ}

/-- a pair that `gain_error` passes fits the executor, or its stiffness does not -/
def wholeGains : Promise K where
  gains x kp kd := ¬ x.Torn kp kd
  window _ := True

/-- what a call of `set_gains` leaves -/
def GainsRule : List (Obs K n) → Obs K n → Prop
  | _, .gains before after raised =>
    Gains.Damped n after.kp after.kd ∧ (raised → after.kp = before.kp ∧ after.kd = before.kd)
  | _, _ => True

structure GainsInv (c : ArmController K n) : Prop where
  executor : c.executor.Lawful n
  /-- the law that Soft goes back to fits -/
  track : c.trackKd.shape = [n]
  log : Justified GainsRule c.log

variable {g : Config K n} {c c' : ArmController K n}

theorem GainsInv.agree (h : GainsInv c) (ha : Agree c c') : GainsInv c' where
  executor := by rw [ha.executor]; exact h.executor
  track := by rw [ha.trackKd]; exact h.track
  log := by rw [ha.log]; exact h.log

/-- a call that is not torn -/
theorem GainsInv.install (h : GainsInv c) {kp kd : Option (Gains K)} (hwhole : ¬ c.executor.Torn kp kd) :
    GainsInv (c.installGains kp kd).1 := by
  have hends := h.executor.setGains hwhole
  unfold Ends at hends
  unfold ArmController.installGains
  cases hset : c.executor.setGains kp kd with
  | ok a x =>
    rw [hset] at hends
    exact ⟨hends, h.track, h.log.snoc ⟨hends.damped, nofun⟩⟩
  | error e x =>
    rw [hset] at hends
    obtain rfl : x = c.executor := hends
    exact ⟨h.executor, h.track, h.log.snoc ⟨h.executor.damped, fun _ => ⟨rfl, rfl⟩⟩⟩

/-- the law that Soft goes back to is never refused half way -/
theorem GainsInv.track_whole (h : GainsInv c) : ¬ c.executor.Torn (some c.trackKp) (some c.trackKd) := by
  rintro ⟨p, -, d, hd, -, -, -, hshape⟩
  rw [Option.mem_def, Option.some.injEq] at hd
  subst hd
  exact hshape (h.track.trans h.executor.kdShape.symm)

/-- **A step of the invariant.** -/
theorem GainsInv.move (hmove : Move g wholeGains c c') (h : GainsInv c) : GainsInv c' := by
  cases hmove with
  | quiet ha => exact h.agree ha
  | said o ho =>
    refine ⟨h.executor, h.track, h.log.snoc ?_⟩
    cases o with
    | gains => cases ho
    | _ => trivial
  | gains kp kd hwhole => exact h.install hwhole
  | trackGains => exact h.install h.track_whole
  | reported | anchored | asked | rampReset | restamped | taken => exact ⟨h.executor, h.track, h.log⟩
  | _ => exact ⟨h.executor, h.track, h.log.snoc trivial⟩

/-- **No undamped spring**: after every call every sprung joint is damped and both vectors have their length, and a call of `set_gains`
that raises leaves the law as it was. -/
theorem no_undamped_spring {x : JointTrajectoryExecutor K} {kp kd : Gains K} {pos vel : K} {pose : Option (K × K)}
    (hx : JointTrajectoryExecutor.new n kp kd pos vel pose = .ok x) (cfg : Config K n) (settling : LegSettling K)
    (jog : JogHold K (Option K) n) (ramp : Option (JogRamp K n)) (source : Bool) (es : List (Moment K n × Input K n))
    (hwhole : Run.Along (step cfg) (fun c e => wholeGains.Kept cfg c e.1 e.2) (initial cfg x settling jog ramp source) es) :
    Gains.Damped n (Run.run (step cfg) (initial cfg x settling jog ramp source) es).executor.kp
        (Run.run (step cfg) (initial cfg x settling jog ramp source) es).executor.kd ∧
      ∀ before after (raised : Bool),
        .gains before after raised ∈ (Run.run (step cfg) (initial cfg x settling jog ramp source) es).log →
        Gains.Damped n after.kp after.kd ∧ (raised → after.kp = before.kp ∧ after.kd = before.kd) := by
  have hlawful := JointTrajectoryExecutor.new_lawful hx
  have h0 : GainsInv (initial cfg x settling jog ramp source) := ⟨hlawful, hlawful.kdShape, justified_nil⟩
  have h := invariant rfl h0 (fun _ _ => GainsInv.move) hwhole
  refine ⟨h.executor.damped, fun before after raised hmem => ?_⟩
  obtain ⟨p, q, hlog⟩ := List.append_of_mem hmem
  exact h.log p _ q hlog

end

/-! ## on one joint -/

/-- nothing is configured -/
def bareConfig : Config ℚ 1 where
  policy := none
  sqrt := id
  handError _ _ := (0, 0)
  fixed _ := ""
  general _ := ""
  render _ := ""
  wallClock := nofun

def bareMoment : Moment ℚ 1 := ⟨0, 0, none, true, true⟩

def bareSettling : LegSettling ℚ := ⟨2, 1, by decide, some 0, none, none⟩

/-- a vector of gains -/
def law (l : List ℚ) : Gains ℚ := NdArray.vec (l.map some)

/-- `[[1]]` -/
def nested : Gains ℚ := ⟨[1, 1], [some 1], rfl⟩

def springy : JointTrajectoryExecutor ℚ := ⟨law [1], law [1], 1, 1, none⟩

/-- Float -/
def limp : JointTrajectoryExecutor ℚ := ⟨law [0], law [0], 1, 1, none⟩

def bareJog : JogHold ℚ (Option ℚ) 1 := ⟨1, one_pos, none, 0, false⟩

/-- a stiffer law is installed, one without damping is refused -/
theorem no_undamped_spring_one :
    JointTrajectoryExecutor.new 1 (law [1]) (law [1]) 1 1 none = .ok springy ∧
      Gains.Damped 1
        (Run.run (step bareConfig) (initial bareConfig springy bareSettling bareJog none false)
          [(bareMoment, .setGains (some (law [2])) (some (law [1]))), (bareMoment, .setGains none (some (law [0])))]).executor.kp
        (Run.run (step bareConfig) (initial bareConfig springy bareSettling bareJog none false)
          [(bareMoment, .setGains (some (law [2])) (some (law [1]))),
            (bareMoment, .setGains none (some (law [0])))]).executor.kd := by
  have hnew : JointTrajectoryExecutor.new 1 (law [1]) (law [1]) 1 1 none = .ok springy := by decide +kernel
  refine ⟨hnew, (no_undamped_spring hnew bareConfig bareSettling bareJog none false _ ?_).1⟩
  refine Run.along_cons.mpr ⟨?_, Run.along_cons.mpr ⟨?_, Run.along_nil⟩⟩
  · rintro ⟨p, -, d, hd, -, -, -, hshape⟩
    rw [Option.mem_def, Option.some.injEq] at hd
    subst hd
    exact hshape (by decide +kernel)
  · rintro ⟨p, hp, -⟩
    exact absurd hp (Option.not_mem_none p)

/-- a gains update is refused, and leaves the new stiffness with the old damping -/
theorem torn_gains :
    JointTrajectoryExecutor.new 1 (law [0]) (law [0]) 1 1 none = .ok limp ∧
      (Run.run (step bareConfig) (initial bareConfig limp bareSettling bareJog none false)
        [(bareMoment, .control { gains := some (some (law [1]), some nested) })]).log =
        [Obs.gains limp { limp with kp := law [1] } true] ∧
      (Run.run (step bareConfig) (initial bareConfig limp bareSettling bareJog none false)
        [(bareMoment, .control { gains := some (some (law [1]), some nested) })]).executor = { limp with kp := law [1] } ∧
      law [1] ≠ limp.kp ∧ ¬ Gains.Damped 1 (law [1]) limp.kd := by
  refine ⟨by decide +kernel, by rfl, by decide +kernel, by decide +kernel, fun h => ?_⟩
  obtain ⟨d, hd, hpos⟩ := h.damped 0 Nat.zero_lt_one 1 rfl one_pos
  obtain rfl : (0 : ℚ) = d := Option.some.inj hd
  exact lt_irrefl 0 hpos

end ArmControl.Control.Servo
