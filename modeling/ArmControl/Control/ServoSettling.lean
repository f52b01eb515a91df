import ArmControl.Control.ServoLaws
import ArmControl.Control.ServoGains

/-!
# Success needs a dwell of fresh samples (`control/leg_settling.py`, `ArmController._check_completion`)

* `inForce`, `endedAt`   the trajectory of the leg and the time its reference ended, read off the log;
* `Plan.meets`           the completion rule that arrives with the plan;
* `Accepted`             the end, the dwell of met samples after it, and the time that is left;
* `SettleRule`           what an end, a consulted sample and a success have behind them;
* `Settles.move`         every move keeps it;
* `late_poll`            a poll after the time has run out accepts the leg or freezes the arm;
* `servo_settling`       **both, in every run.**
-/

set_option linter.unusedSectionVars false

namespace ArmControl.Control.Servo
open ArmControl.Motion History

section
variable {K : Type} [Field K] [LinearOrder K] {n : ℕ}

/-- the trajectory that the released leg follows -/
def inForce (log : List (Obs K n)) : Option (JointTrajectory K n) :=
  log.foldl (fun t o =>
    match o with
    | .released _ trajectory _ => some trajectory
    | .window trajectory => some trajectory
    | _ => t) none

/-- what an entry does to the end of the reference: the PC's clock has it from the release, a native reference is observed -/
def Obs.ends (at_ : Option K) : Obs K n → Option K
  | .released _ trajectory start => start.map (· + trajectory.duration)
  | .ended now _ => some now
  | _ => at_

/-- when the reference of the released leg ended, or is to end -/
def endedAt (log : List (Obs K n)) : Option K := log.foldl Obs.ends none

/-- the point it ends at -/
def finish (trajectory : JointTrajectory K n) : Fin n → K := (trajectory.sampleAt (trajectory.times (Fin.last _))).position

/-- a sample meets the plan's rule: stopped and near enough to its own goal, or the hand at the pose of the end, or the joints at the end -/
def Plan.meets (g : Config K n) (x : JointTrajectoryExecutor K) (p : Plan K n) (goal q v : Fin n → K) : Prop :=
  match p.completion, p.cartesian with
  | some spec, _ => (∀ j, |v j| ≤ spec.velTol) ∧ ∀ own ∈ spec.goal, ∀ j, |q j - own.1 j| ≤ own.2
  | none, some _ =>
    (∀ j, |v j| ≤ x.doneVelTol) ∧
      ∃ tol ∈ x.donePoseTol, (g.handError goal q).1 ≤ tol.1 ∧ (g.handError goal q).2 ≤ tol.2
  | none, none => (∀ j, |q j - goal j| ≤ x.donePosTol) ∧ ∀ j, |v j| ≤ x.doneVelTol

/-- no other leg is released, and no sample fails the rule -/
def Obs.steady : Obs K n → Bool
  | .released .. => false
  | .consulted _ _ _ done => done
  | _ => true

/-- the reference ended at `e`, no more than the timeout ago; the sample consulted at `s` met the rule, and so did every one since, up to the
one consulted now, a dwell later -/
def Accepted (s : LegSettling K) (log : List (Obs K n)) : Prop :=
  ∃ e since now, endedAt log = some e ∧ now - e ≤ s.timeoutS ∧ e ≤ since ∧ since ≤ now - s.dwellS ∧
    (∃ p q v, log = p ++ [Obs.consulted now q v true]) ∧
    Since (fun _ o => ∃ q v, o = Obs.consulted since q v true) (fun o => o.steady) log

/-- what an entry about the leg's end has behind it -/
def SettleRule (g : Config K n) (x : JointTrajectoryExecutor K) (s : LegSettling K) (log : List (Obs K n)) : Obs K n → Prop
  | .ended _ phase => endedAt log = none ∧ ∃ trajectory ∈ inForce log, trajectory.times (Fin.last _) ≤ phase
  | .consulted now q v done =>
    (∃ e ∈ endedAt log, e ≤ now) ∧ unasked log ∧
      ∃ p trajectory, loaded log = ⟨some p, true⟩ ∧ inForce log = some trajectory ∧
        (done ↔ p.meets g x (finish trajectory) q v)
  | .legResult planId ok _ => ok → Accepted s log ∧ ∃ p, loaded log = ⟨some p, true⟩ ∧ planId = p.planId
  | _ => True

/-! ## entries -/

/-- entries about neither the reference nor a sample of it -/
def Obs.aside : Obs K n → Bool
  | .released .. => false
  | .window _ => false
  | .ended .. => false
  | .consulted .. => false
  | _ => true

variable {log : List (Obs K n)} {o : Obs K n}

theorem endedAt_snoc (log : List (Obs K n)) (o : Obs K n) : endedAt (log ++ [o]) = o.ends (endedAt log) := by
  unfold endedAt
  rw [List.foldl_append]
  rfl

theorem endedAt_same (h : ∀ at_, o.ends at_ = at_) : endedAt (log ++ [o]) = endedAt log := (endedAt_snoc log o).trans (h _)

theorem endedAt_aside (h : o.aside) : endedAt (log ++ [o]) = endedAt log := by
  refine endedAt_same fun at_ => ?_
  cases o with
  | released | window | ended | consulted => cases h
  | _ => rfl

theorem inForce_aside (h : o.aside) : inForce (log ++ [o]) = inForce log := by
  unfold inForce
  rw [List.foldl_append]
  cases o with
  | released | window | ended | consulted => cases h
  | _ => rfl

theorem steady_of_aside (h : o.aside) : o.steady := by
  cases o with
  | released | window | ended | consulted => cases h
  | _ => rfl

/-- only a question takes a measurement away -/
theorem unasked_snoc (h : ∀ now q v done, o ≠ .consulted now q v done) (hasked : unasked (log ++ [o]) = false) :
    unasked log = false := by
  unfold unasked at hasked ⊢
  rw [List.foldl_append] at hasked
  cases o with
  | consulted now q v done => exact absurd rfl (h now q v done)
  | measured | released => cases hasked
  | _ => exact hasked

/-! ## the invariant -/

/-- what the settle clocks know is in the log -/
structure Settles (g : Config K n) (x : JointTrajectoryExecutor K) (s : LegSettling K) (c : ArmController K n) : Prop where
  timeoutS : c.settling.timeoutS = s.timeoutS
  dwellS : c.settling.dwellS = s.dwellS
  donePosTol : c.executor.donePosTol = x.donePosTol
  doneVelTol : c.executor.doneVelTol = x.doneVelTol
  donePoseTol : c.executor.donePoseTol = x.donePoseTol
  ended : c.running → c.settling.legEnd = endedAt c.log
  /-- the dwell began at a sample that met the rule, after the end, and none has failed it since -/
  dwells : c.running → ∀ since ∈ c.settling.settledSince, (∃ e ∈ endedAt c.log, e ≤ since) ∧
    Since (fun _ o => ∃ q v, o = Obs.consulted since q v true) (fun o => o.steady) c.log
  follows : ∀ ref ∈ c.reference, inForce c.log = some ref.trajectory
  /-- under a policy a sample that was asked about is remembered by its stamp -/
  asked : g.policy.isSome → unasked c.log = false → c.completionSampleAt = c.lastStateAt
  log : Justified (SettleRule g x s) c.log

variable {g : Config K n} {P : Promise K} {x : JointTrajectoryExecutor K} {s : LegSettling K} {c c' : ArmController K n} {m : Moment K n}

/-- the clocks, the samples and the log are the same, and no leg has begun -/
theorem Settles.frame (h : Settles g x s c) (hexecutor : c'.executor = c.executor) (hsettling : c'.settling = c.settling)
    (hsample : c'.completionSampleAt = c.completionSampleAt) (hstate : c'.lastStateAt = c.lastStateAt)
    (hrun : c'.running → c.running) (href : ∀ ref ∈ c'.reference, ref ∈ c.reference) (hlog : c'.log = c.log) :
    Settles g x s c' where
  timeoutS := by rw [hsettling]; exact h.timeoutS
  dwellS := by rw [hsettling]; exact h.dwellS
  donePosTol := by rw [hexecutor]; exact h.donePosTol
  doneVelTol := by rw [hexecutor]; exact h.doneVelTol
  donePoseTol := by rw [hexecutor]; exact h.donePoseTol
  ended := by rw [hsettling, hlog]; exact fun hr => h.ended (hrun hr)
  dwells := by rw [hsettling, hlog]; exact fun hr => h.dwells (hrun hr)
  follows := by rw [hlog]; exact fun ref hr => h.follows ref (href ref hr)
  asked := by rw [hlog, hsample, hstate]; exact h.asked
  log := by rw [hlog]; exact h.log

theorem Settles.agree (h : Settles g x s c) (ha : Agree c c') : Settles g x s c' :=
  h.frame ha.executor ha.settling ha.completionSampleAt ha.lastStateAt (by rw [ha.running]; exact id)
    (by rw [ha.reference]; exact fun _ => id) ha.log

/-- an entry that the clocks do not see -/
theorem Settles.note (h : Settles g x s c) (ho : o.aside) (hrule : SettleRule g x s c.log o) : Settles g x s (c.note o) where
  timeoutS := h.timeoutS
  dwellS := h.dwellS
  donePosTol := h.donePosTol
  doneVelTol := h.doneVelTol
  donePoseTol := h.donePoseTol
  ended hr := (h.ended hr).trans (endedAt_aside ho).symm
  dwells hr since hsince := by
    obtain ⟨hend, hlook⟩ := h.dwells hr since hsince
    show (∃ e ∈ endedAt (c.log ++ [o]), e ≤ since) ∧ Since _ _ (c.log ++ [o])
    rw [endedAt_aside ho]
    exact ⟨hend, hlook.snoc (steady_of_aside ho)⟩
  follows ref href := (inForce_aside ho).trans (h.follows ref href)
  asked hp hasked := by
    refine h.asked hp (unasked_snoc ?_ hasked)
    rintro now q v done rfl
    cases ho
  log := h.log.snoc hrule

/-- the tolerances are not gains -/
theorem installGains_tolerances (c : ArmController K n) (kp kd : Option (Gains K)) :
    ∃ y : JointTrajectoryExecutor K, y.donePosTol = c.executor.donePosTol ∧ y.doneVelTol = c.executor.doneVelTol ∧
      y.donePoseTol = c.executor.donePoseTol ∧
      ∃ raised, (c.installGains kp kd).1 = { c with executor := y }.note (.gains c.executor y raised) := by
  have hends := JointTrajectoryExecutor.setGains_ends (x := c.executor) kp kd
  unfold ArmController.installGains
  unfold Effect.Ends at hends
  cases hset : c.executor.setGains kp kd with
  | ok a y =>
    rw [hset] at hends
    obtain ⟨hy, -⟩ := hends
    exact ⟨y, by rw [hy], by rw [hy], by rw [hy], false, rfl⟩
  | error e y =>
    rw [hset] at hends
    rcases hends with rfl | ⟨p, -, -, -, d, -, -, hy⟩
    · exact ⟨_, rfl, rfl, rfl, true, rfl⟩
    · exact ⟨y, by rw [hy], by rw [hy], by rw [hy], true, rfl⟩

theorem Settles.install (h : Settles g x s c) (kp kd : Option (Gains K)) : Settles g x s (c.installGains kp kd).1 := by
  obtain ⟨y, hpos, hvel, hpose, raised, heq⟩ := installGains_tolerances c kp kd
  rw [heq]
  have hy : Settles g x s { c with executor := y } :=
    ⟨h.timeoutS, h.dwellS, hpos.trans h.donePosTol, hvel.trans h.doneVelTol, hpose.trans h.donePoseTol, h.ended, h.dwells, h.follows,
      h.asked, h.log⟩
  exact hy.note rfl trivial

/-- the rule of the loaded plan, asked of a sample -/
theorem legDone_iff (h : Settles g x s c) (hlaw : LawInv c) {p : Plan K n} (hp : c.plan = some p) (goal q v : Fin n → K) :
    c.legDone g goal q v ↔ p.meets g x goal q v := by
  have hspec := hlaw.spec p hp
  unfold ArmController.legDone Plan.meets
  rw [hspec, hp, h.donePosTol, h.doneVelTol, h.donePoseTol]
  rw [Option.bind_some]
  cases p.completion with
  | some spec =>
    cases hgoal : spec.goal with
    | none => simp [hgoal]
    | some own => simp [hgoal]
  | none =>
    cases p.cartesian with
    | none => simp
    | some _ => cases x.donePoseTol <;> simp [and_assoc]

/-- the dwell after a sample was asked about -/
theorem Settles.judged (h : Settles g x s c) (hrun : c.running) {now e : K} (he : c.settling.legEnd = some e) (hlate : e ≤ now)
    (done : Bool) (q v : Fin n → K) {since : K} (hsince : since ∈ (c.settling.judged now done).settledSince) :
    done = true ∧ e ≤ since ∧
      Since (fun _ o => ∃ q v, o = Obs.consulted since q v true) (fun o => o.steady) (c.log ++ [Obs.consulted now q v done]) := by
  change since ∈ (if done then some (c.settling.settledSince.getD now) else none) at hsince
  cases done with
  | false => cases hsince
  | true =>
    refine ⟨rfl, ?_⟩
    cases hold : c.settling.settledSince with
    | none =>
      -- the dwell begins here
      rw [hold] at hsince
      obtain rfl : now = since := Option.some.inj hsince
      exact ⟨hlate, .now ⟨q, v, rfl⟩⟩
    | some first =>
      rw [hold] at hsince
      obtain rfl : first = since := Option.some.inj hsince
      obtain ⟨⟨e', he', hfirst⟩, hlook⟩ := h.dwells hrun first hold
      obtain rfl : e = e' := Option.some.inj (he.symm.trans ((h.ended hrun).trans he'))
      exact ⟨hfirst, hlook.snoc rfl⟩

/-- a sample is asked about -/
theorem Settles.consulted (h : Settles g x s c) (hlaw : LawInv c) (ref : TrajectoryReference K n) (now e : K) (q v : Fin n → K)
    (href : c.reference = some ref) (hrun : c.running) (he : c.settling.legEnd = some e) (hlate : e ≤ now)
    (hnew : unasked c.log) :
    Settles g x s
      ({ c with
        completionSampleAt := c.lastStateAt
        settling := c.settling.judged now (c.legDone g ref.end_ q v) }.note
        (.consulted now q v (c.legDone g ref.end_ q v))) where
  timeoutS := h.timeoutS
  dwellS := h.dwellS
  donePosTol := h.donePosTol
  doneVelTol := h.doneVelTol
  donePoseTol := h.donePoseTol
  ended _ := (h.ended hrun).trans (endedAt_same fun _ => rfl).symm
  dwells _ since hsince := by
    obtain ⟨-, hfirst, hlook⟩ := h.judged hrun he hlate _ q v hsince
    exact ⟨⟨e, (endedAt_same fun _ => rfl).trans ((h.ended hrun).symm.trans he), hfirst⟩, hlook⟩
  follows r hr := by
    show inForce (c.log ++ [Obs.consulted now q v (c.legDone g ref.end_ q v)]) = _
    unfold inForce
    rw [List.foldl_append]
    exact h.follows r hr
  asked _ _ := rfl
  log := by
    obtain ⟨p, hp⟩ := Option.isSome_iff_exists.mp (hlaw.runs hrun)
    refine h.log.snoc ⟨⟨e, (h.ended hrun).symm.trans he, hlate⟩, hnew, p, ref.trajectory, ?_, h.follows ref href, ?_⟩
    · rw [hlaw.loaded, hp, hrun]
    · exact legDone_iff h hlaw hp ref.end_ q v

variable [IsStrictOrderedRing K]

/-- **A step of the invariant.** -/
theorem Settles.move (hmove : Move g P c c') (hlaw : LawInv c) (h : Settles g x s c) : Settles g x s c' := by
  cases hmove with
  | quiet ha => exact h.agree ha
  | said o ho =>
    cases o with
    | ready | refused | planCleared | legProgress => exact h.note rfl trivial
    | _ => cases ho
  | reported =>
    exact ⟨h.timeoutS, h.dwellS, h.donePosTol, h.doneVelTol, h.donePoseTol, h.ended, h.dwells, h.follows, h.asked, h.log⟩
  | finished =>
    refine Settles.note (h.frame rfl rfl rfl rfl (fun hr => ?_) (fun _ hr => absurd hr (Option.not_mem_none _)) rfl) rfl fun hok => ?_
    · cases hr
    · cases hok
  | turnedAway =>
    refine Settles.note (h.frame rfl rfl rfl rfl id (fun _ hr => absurd hr (Option.not_mem_none _)) rfl) rfl fun hok => ?_
    cases hok
  | succeeded p now e since q v a spec hrun hlog he hsince hdwell hlate =>
    obtain ⟨plan, hp⟩ := Option.isSome_iff_exists.mp (hlaw.runs hrun)
    obtain ⟨⟨e', he', hfirst⟩, hlook⟩ := h.dwells hrun since hsince
    obtain rfl : e = e' := Option.some.inj (he.symm.trans ((h.ended hrun).trans he'))
    refine Settles.note (h.frame rfl rfl rfl rfl (fun hr => ?_) (fun _ hr => absurd hr (Option.not_mem_none _)) rfl) rfl
      fun _ => ⟨⟨e, since, now, he', ?_, hfirst, ?_, ⟨p, q, v, hlog⟩, hlook⟩, plan, ?_, ?_⟩
    · cases hr
    · rwa [h.timeoutS] at hlate
    · rw [h.dwellS] at hdwell
      exact le_sub_comm.mp hdwell
    · exact hlaw.loaded.trans (by rw [hp, hrun])
    · show (c.plan.map Plan.planId).getD "" = plan.planId
      rw [hp]
      rfl
  | cancelled | disarmed =>
    exact Settles.note (h.frame rfl rfl rfl rfl id (fun _ hr => absurd hr (Option.not_mem_none _)) rfl) rfl trivial
  | held =>
    refine Settles.note (h.frame rfl rfl rfl rfl (fun hr => ?_) (fun _ hr => absurd hr (Option.not_mem_none _)) rfl) rfl trivial
    cases hr
  | sampled | jogSent | holdSent | faulted => exact h.note rfl trivial
  | armed | paused | rtHeld | staged | soft | jogged | cleared | expired | ramped =>
    exact Settles.note (h.frame rfl rfl rfl rfl id (fun _ => id) rfl) rfl trivial
  | anchored | rampReset | taken => exact h.frame rfl rfl rfl rfl id (fun _ => id) rfl
  | released p trajectory start hp hrun =>
    refine ⟨h.timeoutS, h.dwellS, h.donePosTol, h.doneVelTol, h.donePoseTol, fun _ => (endedAt_snoc c.log (Obs.released p.planId trajectory start)).symm,
      fun _ since hsince => absurd hsince (Option.not_mem_none _), ?_, fun _ hasked => ?_, h.log.snoc trivial⟩
    · rintro ref href
      obtain rfl := Option.some.inj href
      show inForce (c.log ++ [Obs.released p.planId trajectory start]) = some trajectory
      unfold inForce
      rw [List.foldl_append]
      rfl
    · change unasked (c.log ++ [Obs.released p.planId trajectory start]) = false at hasked
      unfold unasked at hasked
      rw [List.foldl_append] at hasked
      cases hasked
  | window ref trajectory terminal href hok =>
    refine ⟨h.timeoutS, h.dwellS, h.donePosTol, h.doneVelTol, h.donePoseTol,
      fun hr => (h.ended hr).trans (endedAt_same fun _ => rfl).symm, fun hr since hsince => ?_, ?_,
      fun hp hasked => h.asked hp (unasked_snoc (fun _ _ _ _ he => by cases he) hasked), h.log.snoc trivial⟩
    · obtain ⟨⟨e, he, hfirst⟩, hlook⟩ := h.dwells hr since hsince
      exact ⟨⟨e, (endedAt_same fun _ => rfl).trans he, hfirst⟩, hlook.snoc rfl⟩
    · rintro r hr
      obtain rfl := Option.some.inj hr
      show inForce (c.log ++ [Obs.window trajectory]) = some trajectory
      unfold inForce
      rw [List.foldl_append]
      rfl
  | asked =>
    exact ⟨h.timeoutS, h.dwellS, h.donePosTol, h.doneVelTol, h.donePoseTol, h.ended, h.dwells, h.follows, fun _ _ => rfl, h.log⟩
  | ended ref now phase href hrun hnone hphase =>
    have hlog : endedAt c.log = none := (h.ended hrun).symm.trans hnone
    refine ⟨h.timeoutS, h.dwellS, h.donePosTol, h.doneVelTol, h.donePoseTol, fun _ => (endedAt_snoc c.log (Obs.ended now phase)).symm,
      fun _ since hsince => ?_, fun r hr => ?_, fun hp hasked => h.asked hp (unasked_snoc (fun _ _ _ _ he => by cases he) hasked),
      h.log.snoc ⟨hlog, ref.trajectory, h.follows ref href, hphase⟩⟩
    · obtain ⟨⟨e, he, -⟩, -⟩ := h.dwells hrun since hsince
      rw [hlog] at he
      cases he
    · show inForce (c.log ++ [Obs.ended now phase]) = _
      unfold inForce
      rw [List.foldl_append]
      exact h.follows r hr
  | consulted ref now e q v href hrun he hlate hfresh hunasked =>
    refine h.consulted hlaw ref now e q v href hrun he hlate ?_
    cases hp : g.policy with
    | none => exact hunasked hp
    | some p =>
      by_contra hno
      exact hfresh (h.asked (Option.isSome_of_eq_some hp) (Bool.eq_false_iff.mpr hno))
  | gains kp kd _ => exact h.install kp kd
  | trackGains => exact h.install _ _
  | measured at_ pose =>
    refine ⟨h.timeoutS, h.dwellS, h.donePosTol, h.doneVelTol, h.donePoseTol,
      fun hr => (h.ended hr).trans (endedAt_same fun _ => rfl).symm, fun hr since hsince => ?_, ?_, fun _ hasked => ?_, h.log.snoc trivial⟩
    · obtain ⟨⟨e, he, hfirst⟩, hlook⟩ := h.dwells hr since hsince
      exact ⟨⟨e, (endedAt_same fun _ => rfl).trans he, hfirst⟩, hlook.snoc rfl⟩
    · rintro ref href
      show inForce (c.log ++ [Obs.measured pose]) = _
      exact (inForce_aside rfl).trans (h.follows ref href)
    · change unasked (c.log ++ [Obs.measured pose]) = false at hasked
      unfold unasked at hasked
      rw [List.foldl_append] at hasked
      cases hasked
  | restamped at_ hnew =>
    refine ⟨h.timeoutS, h.dwellS, h.donePosTol, h.doneVelTol, h.donePoseTol, h.ended, h.dwells, h.follows, fun hp hasked => ?_, h.log⟩
    change unasked c.log = false at hasked
    rw [hnew hp] at hasked
    cases hasked

/-! ## a late poll -/

/-- the arm is held where it is measured, and nothing moves it -/
structure ArmController.FrozenAt (c : ArmController K n) (pose : Reading K n) : Prop where
  frozen : c.frozen
  running : c.running = false
  reference : c.reference = none
  pendingTraj : c.pendingTraj = none
  holds : ∃ a, c.holdAnchor = some a ∧ c.lastCommand = some a ∧ a.qDes = pose ∧ a.qdDes = some fun _ => 0

/-- how a poll ends the leg -/
def ArmController.EndsLeg (s : LegSettling K) (c c' : ArmController K n) : Prop :=
  ∃ log, c'.log = log ++ [Obs.legResult c.currentPlanId true ""] ∧ Accepted s log ∨
    c'.log = log ++ [Obs.legResult c.currentPlanId false "Completion timeout"] ∧ c'.FrozenAt c.lastState.position

/-- a verdict that does not wait -/
theorem settled_cases {w : SettleVerdict K} (hw : w.state ≠ .settling) (now : K) :
    w.state = .settled ∧ c.settled now (some w) = (c.finishLeg true "", true) ∨
      c.settled now (some w) = (c.freeze.finishLeg false "Completion timeout", true) := by
  unfold ArmController.settled
  dsimp only
  cases hstate : w.state with
  | settled => exact .inl ⟨rfl, rfl⟩
  | timedOut => exact .inr rfl
  | settling => exact absurd hstate hw

/-- **A late poll** accepts the leg or freezes the arm at the measured pose. -/
theorem late_poll (h : Settles g x s c) (hrun : c.running) {ref : TrajectoryReference K n} (hterminal : ref.terminal)
    {phase : Option K} (hphase : ref.nativePhase m = some phase) {e : K} (he : endedAt c.log = some e)
    (hlate : s.timeoutS ≤ c.execTime g m - e) (q v : Fin n → K) :
    (c.checkCompletion g m ref q v).2 = some true ∧ c.EndsLeg s (c.checkCompletion g m ref q v).1 := by
  have hend : c.settling.legEnd = some e := (h.ended hrun).trans he
  have hcheck : c.checkCompletion g m ref q v =
      ((judgedPoll g c ref (c.execTime g m) q v (decide (c.completionSampleAt ≠ c.lastStateAt))).1,
        some (judgedPoll g c ref (c.execTime g m) q v (decide (c.completionSampleAt ≠ c.lastStateAt))).2) := by
    have hobserved : c.observedEnd (c.execTime g m) ref phase = c := by
      unfold ArmController.observedEnd
      rw [hend]
      cases phase <;> rfl
    have hsettling : c.settling.observed (c.execTime g m) (phase.any fun y => decide (ref.endPhase ≤ y)) = c.settling := by
      unfold LegSettling.observed
      rw [hend]
    have hpoll := polled_eq (g := g) (c := c) ref (c.execTime g m) q v (decide (c.completionSampleAt ≠ c.lastStateAt)) phase
    rw [hobserved, hsettling] at hpoll
    unfold ArmController.checkCompletion
    rw [hterminal, hphase]
    show (((marked c _).polled g ((marked c _).execTime g m) ref q v _ phase).1,
      some ((marked c _).polled g ((marked c _).execTime g m) ref q v _ phase).2) = _
    rw [execTime_marked, hpoll]
  rw [hcheck]
  generalize hnow : c.execTime g m = now at hlate ⊢
  have hpast : e ≤ now := by
    have hpositive : 0 < s.timeoutS := s.ordered.1.trans_lt s.ordered.2
    exact (sub_pos.mp (hpositive.trans_le hlate)).le
  unfold judgedPoll LegSettling.isOver
  rw [hend, Option.bind_some, if_pos hpast, Option.any_some, decide_eq_true hpast, Bool.and_true]
  rw [← h.timeoutS] at hlate
  cases decide (c.completionSampleAt ≠ c.lastStateAt) with
  | false =>
    rw [if_neg Bool.false_ne_true, if_neg Bool.false_ne_true, if_neg Bool.false_ne_true]
    have hverdict : (c.settling.verdict now e false).state ≠ .settling := LegSettling.verdict_late hlate
    rcases settled_cases (c := c) hverdict now with ⟨hsettled, -⟩ | hfrozen
    · exact absurd (LegSettling.verdict_settled hsettled).1 Bool.false_ne_true
    · rw [hfrozen]
      exact ⟨rfl, c.log, .inr ⟨rfl, rfl, rfl, rfl, rfl, c.staticHold, rfl, rfl, rfl, rfl⟩⟩
  | true =>
    rw [if_pos rfl, if_pos rfl]
    generalize hdone : c.legDone g ref.end_ q v = done
    have hverdict : ((c.settling.judged now done).verdict now e true).state ≠ .settling := LegSettling.verdict_late hlate
    rcases settled_cases
        (c := { c with completionSampleAt := c.lastStateAt, settling := c.settling.judged now done }.note (.consulted now q v done))
        hverdict now with ⟨hsettled, heq⟩ | hfrozen
    · obtain ⟨-, ⟨since, hsince, hdwell⟩, hintime⟩ := LegSettling.verdict_settled hsettled
      obtain ⟨rfl, hfirst, hlook⟩ := h.judged hrun hend hpast done q v hsince
      rw [heq]
      refine ⟨rfl, c.log ++ [Obs.consulted now q v true], .inl ⟨rfl, e, since, now, ?_, ?_, hfirst, ?_, ⟨c.log, q, v, rfl⟩, hlook⟩⟩
      · exact (endedAt_same fun _ => rfl).trans he
      · rwa [← h.timeoutS]
      · rw [← h.dwellS]
        exact le_sub_comm.mp hdwell
    · rw [hfrozen]
      exact ⟨rfl, c.log ++ [Obs.consulted now q v done], .inr ⟨rfl, rfl, rfl, rfl, rfl, c.staticHold, rfl, rfl, rfl, rfl⟩⟩

/-! ## a tick -/

/-- the rest of a tick after its poll -/
theorem late_follow (h : Settles g x s c) {p : Policy K n} (hp : g.policy = some p) (hlatch : c.jog.expired = false) (hrun : c.running)
    {ref : TrajectoryReference K n} (href : c.reference = some ref) (hterminal : ref.terminal) {phase : Option K}
    (hphase : ref.nativePhase m = some phase) {e : K} (he : endedAt c.log = some e) (hlate : s.timeoutS ≤ c.execTime g m - e)
    (q v : Fin n → K) : ∃ c', c.EndsLeg s c' ∧ c'.log <+: (c.follow g m q v).log := by
  have hpolicy : g.policy ≠ none := by rw [hp]; exact Option.some_ne_none p
  obtain ⟨hended, hpoll⟩ := late_poll h hrun hterminal hphase he hlate q v
  refine ⟨_, hpoll, ?_⟩
  have hfirst : c.settleFirst g m q v = c.checkCompletion g m ref q v := by
    unfold ArmController.settleFirst
    rw [hp, hrun, href]
    rfl
  obtain ⟨-, hmoves⟩ := moves_checkCompletion (g := g) (P := Promise.free) (m := m) ref q v href hrun fun hno => absurd hno hpolicy
  unfold ArmController.follow
  dsimp only
  rw [hfirst, hended]
  generalize hgoal : (if (c.plan.bind Plan.completion).isNone then c.reference.map TrajectoryReference.end_ else none) = goal
  have hretained := moves_retained goal ((hmoves true hended).2 rfl)
  show (ArmController.retained (c.checkCompletion g m ref q v).1 goal).log <+: _
  generalize ArmController.retained (c.checkCompletion g m ref q v).1 goal = c₂ at hretained ⊢
  show c₂.log <+: (c₂.served g m q v).log
  unfold ArmController.served
  split
  · rename_i ref₂ hrun₂ href₂
    exact (moves_sampleTick (P := Promise.free) ref₂ q v href₂ hrun₂ fun hno => absurd hno hpolicy).grows
  · exact (moves_idle (P := Promise.free) q (hretained.latched hlatch) fun hno => absurd hno hpolicy).grows

/-- a stream that comes as far as the leg -/
theorem stream_follow (harmed : c.armed) (hready : c.readySent || c.bridgeArmed) {q v : Fin n → K} (hq : c.lastState.position = some q)
    (hv : c.lastState.velocity = some v) (hgap : c.gapExceeded m = false) :
    c.stream g m = (if c.readySent then c else { c with readySent := true }.note .ready).follow g m q v := by
  have hloud : ¬ (!c.readySent && !c.bridgeArmed) = true := by
    rw [← Bool.not_or, hready]
    exact Bool.false_ne_true
  unfold ArmController.stream
  rw [if_neg (by rw [harmed]; exact Bool.false_ne_true), if_neg hloud]
  have hstate : (if c.readySent then c else { c with readySent := true }.note .ready).lastState = c.lastState := by
    split <;> rfl
  have hsame : (if c.readySent then c else { c with readySent := true }.note .ready).gapExceeded m = c.gapExceeded m := by
    split <;> rfl
  generalize (if c.readySent then c else { c with readySent := true }.note .ready) = c₁ at hstate hsame ⊢
  dsimp only
  rw [hstate, hq, hv]
  show (if c₁.gapExceeded m then c₁.gapHold g m else c₁.follow g m q v) = _
  rw [hsame, hgap, if_neg Bool.false_ne_true]

/-- a tick that comes as far as the leg polls it: once the time has run out, the leg ends in this tick -/
theorem late_tick (h : Settles g x s c) {p : Policy K n} (hp : g.policy = some p) (hlatch : c.jog.expired = false)
    (hstop : c.stopped = false) (hobserved : c.observationError g m p = none) (harmed : c.armed) (hready : c.readySent || c.bridgeArmed)
    {q v : Fin n → K} (hq : c.lastState.position = some q) (hv : c.lastState.velocity = some v) (hgap : c.gapExceeded m = false)
    (hrun : c.running) {ref : TrajectoryReference K n} (href : c.reference = some ref) (hterminal : ref.terminal) {phase : Option K}
    (hphase : ref.nativePhase m = some phase) {e : K} (he : endedAt c.log = some e) (hlate : s.timeoutS ≤ c.execTime g m - e) :
    ∃ c', c.EndsLeg s c' ∧ c'.log <+: (c.tick g m).log := by
  have htick : c.tick g m = { c with observationPaused := false }.stream g m := by
    unfold ArmController.tick
    rw [hp]
    dsimp only
    rw [if_neg (by rw [hstop]; exact Bool.false_ne_true), hobserved]
  rw [htick, stream_follow (c := { c with observationPaused := false }) harmed hready hq hv hgap]
  split
  · have hseen : Settles g x s { c with observationPaused := false } := h.frame rfl rfl rfl rfl id (fun _ => id) rfl
    exact late_follow hseen hp hlatch hrun href hterminal hphase he hlate q v
  · have hnoted : Settles g x s ({ c with observationPaused := false, readySent := true }.note .ready) :=
      Settles.note (h.frame rfl rfl rfl rfl id (fun _ => id) rfl) rfl trivial
    have hended : endedAt (c.log ++ [Obs.ready]) = some e := (endedAt_same fun _ => rfl).trans he
    exact late_follow hnoted hp hlatch hrun href hterminal hphase hended hlate q v

/-! ## runs -/

/-- **Success needs a dwell of fresh samples**: in every run a success comes no later than the timeout after the end of the reference, with a
dwell behind it from a sample that met the plan's rule, every consulted sample since was a new one that met it, and in every state that a call
comes through, a poll after the timeout accepts the leg in this way or freezes the arm at the measured pose. -/
theorem servo_settling (cfg : Config K n) (x : JointTrajectoryExecutor K) (settling : LegSettling K) (jog : JogHold K (Option K) n)
    (ramp : Option (JogRamp K n)) (source : Bool) (es : List (Moment K n × Input K n)) :
    Justified (SettleRule cfg x settling) (Run.run (step cfg) (initial cfg x settling jog ramp source) es).log ∧
      ∀ (c : ArmController K n) (m : Moment K n) (ref : TrajectoryReference K n) (phase : Option K) (e : K) (q v : Fin n → K),
        Moves cfg Promise.free (Run.run (step cfg) (initial cfg x settling jog ramp source) es) c → c.running →
          c.reference = some ref → ref.terminal → ref.nativePhase m = some phase → endedAt c.log = some e →
            settling.timeoutS ≤ c.execTime cfg m - e →
              (c.checkCompletion cfg m ref q v).2 = some true ∧ c.EndsLeg settling (c.checkCompletion cfg m ref q v).1 := by
  have hkeeps : ∀ c c' : ArmController K n, Move cfg Promise.free c c' → LawInv c ∧ Settles cfg x settling c →
      LawInv c' ∧ Settles cfg x settling c' := fun c c' hmove h => ⟨h.1.move hmove, h.2.move hmove h.1⟩
  have h0 : LawInv (initial cfg x settling jog ramp source) ∧ Settles cfg x settling (initial cfg x settling jog ramp source) :=
    ⟨⟨rfl, rfl, fun h => absurd h Bool.false_ne_true, fun p h => absurd h (Option.not_mem_none p), fun h => absurd h Bool.false_ne_true,
        justified_nil⟩,
      ⟨rfl, rfl, rfl, rfl, rfl, fun h => absurd h Bool.false_ne_true, fun h => absurd h Bool.false_ne_true,
        fun ref h => absurd h (Option.not_mem_none ref), fun _ _ => rfl, justified_nil⟩⟩
  have hlatch : (initial cfg x settling jog ramp source).jog.expired = false := rfl
  have hrun : LawInv (Run.run (step cfg) (initial cfg x settling jog ramp source) es) ∧
      Settles cfg x settling (Run.run (step cfg) (initial cfg x settling jog ramp source) es) := by
    refine invariant (P := Promise.free) hlatch h0 hkeeps (Run.along_of_forall ?_ es)
    rintro c ⟨m, input⟩
    exact Promise.free_kept input
  refine ⟨hrun.2.log, fun c m ref phase e q v hmoves hrunning _ hterminal hphase he hlate => ?_⟩
  exact late_poll (hmoves.keeps hkeeps hrun).2 hrunning hterminal hphase he hlate q v

end

/-! ## on one joint -/

def momentAt (t : ℚ) : Moment ℚ 1 := ⟨t, t, none, true, true⟩

/-- from 0 to 1 in one second -/
def shortPlan : Plan ℚ 1 where
  planId := "leg"
  gated := false
  times := NdArray.vec [0, 1]
  positions := ⟨[2, 1], [0, 1], rfl⟩
  velocities := ⟨[2, 1], [0, 0], rfl⟩
  kp := law [1]
  kd := law [1]

/-- the arm is released at 0 and has come to rest at 2 -/
def arrives : List (Moment ℚ 1 × Input ℚ 1) :=
  [(momentAt 0, .control { arm := some true }), (momentAt 0, .motorHealth { armed := true }),
    (momentAt 0, .motorState ⟨some fun _ => 0, some fun _ => 0⟩ none), (momentAt 0, .plan (.plan shortPlan)),
    (momentAt (3 / 2), .motorState ⟨some fun _ => 1, some fun _ => 3⟩ none),
    (momentAt 2, .motorState ⟨some fun _ => 1, some fun _ => 0⟩ none)]

/-- it is still there at 3 -/
def stays : List (Moment ℚ 1 × Input ℚ 1) := arrives ++ [(momentAt 3, .motorState ⟨some fun _ => 1, some fun _ => 0⟩ none)]

/-- the last entry is a success -/
def succeeds (log : List (Obs ℚ 1)) : Bool :=
  log.getLast?.any fun o =>
    match o with
    | .legResult _ ok _ => ok
    | _ => false

/-- the leg succeeds at 3; a poll at 3 without a new sample freezes it -/
theorem servo_settling_stays :
    (∃ log planId reason, (Run.run (step bareConfig) (initial bareConfig springy bareSettling bareJog none false) stays).log =
        log ++ [Obs.legResult planId true reason] ∧ Accepted bareSettling log) ∧
      ∃ ref, (Run.run (step bareConfig) (initial bareConfig springy bareSettling bareJog none false) arrives).reference = some ref ∧
        ((Run.run (step bareConfig) (initial bareConfig springy bareSettling bareJog none false) arrives).checkCompletion bareConfig
          (momentAt 3) ref (fun _ => 1) (fun _ => 0)).2 = some true := by
  constructor
  · have hlast : succeeds (Run.run (step bareConfig) (initial bareConfig springy bareSettling bareJog none false) stays).log = true := by
      decide +kernel
    obtain ⟨o, ho, hok⟩ := (Option.any_eq_true _ _).mp hlast
    obtain ⟨log, hlog⟩ := List.getLast?_eq_some_iff.mp ho
    have hrule := (servo_settling bareConfig springy bareSettling bareJog none false stays).1 log o [] hlog
    cases o with
    | legResult planId ok reason =>
      obtain rfl : ok = true := hok
      exact ⟨log, planId, reason, hlog, (hrule rfl).1⟩
    | _ => cases hok
  · have hreference : (Run.run (step bareConfig) (initial bareConfig springy bareSettling bareJog none false) arrives).reference.any
        (fun ref => ref.terminal && decide (ref.nativePhase (momentAt 3) = some none)) = true := by decide +kernel
    obtain ⟨ref, href, hok⟩ := (Option.any_eq_true _ _).mp hreference
    obtain ⟨hterminal, hphase⟩ := (Bool.and_eq_true _ _).mp hok
    refine ⟨ref, href, ((servo_settling bareConfig springy bareSettling bareJog none false arrives).2 _ (momentAt 3) ref none 1 _ _
      (Moves.refl _) ?_ href hterminal (of_decide_eq_true hphase) ?_ ?_).1⟩
    · decide +kernel
    · decide +kernel
    · decide +kernel

end ArmControl.Control.Servo
