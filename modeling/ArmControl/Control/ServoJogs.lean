import ArmControl.Control.ServoGains

/-!
# Jogs over a run

* `JogPast`, `past`    what the log says of the jog: when it was accepted, where the arm has stood since it was cleared, whether the ramp
                       has moved since;
* `JogRule`            a jog is sent while it is live and is replaced by a hold at rest, and a new one starts where the arm is measured;
* `JogFacts`, `JogInv.move`   every move keeps it;
* `jog_stops`          **so it holds in every run.**
-/

set_option linter.unusedSectionVars false

namespace ArmControl.Control.Servo
open ArmControl.Motion History

section
variable {K : Type} [Field K] [LinearOrder K] {n : ℕ}

/-- what the log says of the jog -/
structure JogPast (K : Type) (n : ℕ) where
  /-- when the jog was accepted that nothing has ended since -/
  accepted : Option K := none
  /-- the jog has run out, and no command was sent, no state or jog taken and no plan released since -/
  ranOut : Bool := false
  /-- the poses measured, or held by the RT, at a `clear_jog` and since, until a command, a jog or a release -/
  standing : Option (List (Reading K n)) := none
  /-- the ramp has not moved since the last jog was ended -/
  restarted : Bool := true

namespace JogPast
variable (p : JogPast K n)

/-- the jog is ended, and a new one starts anew -/
def ended : JogPast K n := { p with accepted := none, restarted := true }

/-- the arm stands at one more pose -/
def stands (pose : Reading K n) : JogPast K n := { p with ranOut := false, standing := p.standing.map (pose :: ·) }

def sent : JogPast K n := { p with ranOut := false, standing := none }

def after : Obs K n → JogPast K n
  | .jogged clock => { p.sent with accepted := some clock }
  | .released .. => {}
  | .cancelled _ => p.ended
  | .disarmed => p.ended
  | .fault _ => p.ended
  | .paused _ => p.ended
  | .soft _ => p.ended
  | .cleared pose => { p.ended with standing := some [pose] }
  | .expired => { p.ended with ranOut := true }
  | .ramped .. => { p with restarted := false }
  | .measured pose => p.stands pose
  | .rtHeld pose => p.stands pose
  | .motorCommand .. => p.sent
  | _ => p

end JogPast

def past (log : List (Obs K n)) : JogPast K n := log.foldl JogPast.after {}

/-- **The rule**, `timeout` the jog's. -/
def JogRule (g : Config K n) (timeout : K) (log : List (Obs K n)) : Obs K n → Prop
  | .motorCommand origin command _ _ measured clock =>
    (origin = .jog → ∃ accepted ∈ (past log).accepted, clock - accepted ≤ timeout) ∧
    (origin ≠ .jog → (past log).accepted = none) ∧
    ((past log).ranOut → origin ≠ .jog ∧ command.qdDes = some (fun _ => 0) ∧ command.qDes = measured) ∧
    (g.policy.isSome → ∀ poses ∈ (past log).standing,
      origin ≠ .jog ∧ command.qdDes = some (fun _ => 0) ∧ command.qDes ∈ poses)
  | .ramped start speed measured => (past log).restarted → start = measured ∧ ∀ j, speed j = 0
  | _ => True

/-! ## the invariant -/

/-- the fields of the controller, by what the log says -/
structure JogFacts (g : Config K n) (timeout : K) (p : JogPast K n) (c : ArmController K n) : Prop where
  timeout : c.jog.timeoutS = timeout
  armed : c.jog.q ≠ none → c.armed
  idle : c.running → c.jog.q = none
  accepted : p.accepted = c.jog.q.map fun _ => c.jog.setAt
  spent : p.ranOut → c.jog.q = none ∧ c.running = false
  rested : p.ranOut → g.policy.isSome → ∀ a ∈ c.holdAnchor, a.qDes = c.lastState.position
  still : ∀ poses ∈ p.standing, c.jog.q = none ∧ c.running = false
  stood : g.policy.isSome → ∀ poses ∈ p.standing, c.lastState.position ∈ poses ∧ ∀ a ∈ c.holdAnchor, a.qDes ∈ poses
  ramp : p.restarted → c.jog.q ≠ none → ∀ r ∈ c.jogRamp, r.q = none

structure JogInv (g : Config K n) (timeout : K) (c : ArmController K n) : Prop where
  facts : JogFacts g timeout (past c.log) c
  log : Justified (JogRule g timeout) c.log

theorem past_snoc (log : List (Obs K n)) (o : Obs K n) : past (log ++ [o]) = (past log).after o := by
  unfold past
  rw [List.foldl_append]
  rfl

theorem past_ranOut (log : List (Obs K n)) : (past log).ranOut = expiring log := by
  induction log using List.reverseRecOn with
  | nil => rfl
  | append_singleton log o ih =>
    rw [past_snoc]
    unfold expiring at ih ⊢
    rw [List.foldl_append, ← ih]
    cases o <;> rfl

variable {g : Config K n} {P : Promise K} {timeout : K} {p : JogPast K n} {c c' : ArmController K n}

/-- a state was measured last: no jog has run out since, and the arm stands there -/
theorem TookPose.past {log : List (Obs K n)} {pose : Reading K n} (h : TookPose log pose) :
    (past log).ranOut = false ∧ ∀ poses ∈ (past log).standing, pose ∈ poses := by
  obtain ⟨before, _, q, rfl, rfl, hq⟩ := h
  induction q using List.reverseRecOn with
  | nil =>
    rw [past_snoc]
    refine ⟨rfl, fun poses hposes => ?_⟩
    obtain ⟨old, -, rfl⟩ := Option.map_eq_some_iff.mp hposes
    exact List.mem_cons_self
  | append_singleton q o ih =>
    have hprev := ih fun o' ho' => hq o' (List.mem_append_left _ ho')
    have ho := hq o (List.mem_append_right _ (List.mem_singleton_self o))
    rw [← List.cons_append, ← List.append_assoc, past_snoc]
    cases o with
    | legResult | cancelled | paused => exact hprev
    | _ => cases ho

/-- the fields that it is about -/
theorem JogFacts.same (h : JogFacts g timeout p c) (hjog : c'.jog = c.jog) (hramp : c'.jogRamp = c.jogRamp)
    (hstate : c'.lastState = c.lastState) (hanchor : c'.holdAnchor = c.holdAnchor) (harmed : c'.armed = c.armed)
    (hrun : c'.running = c.running) : JogFacts g timeout p c' where
  timeout := by rw [hjog]; exact h.timeout
  armed := by rw [hjog, harmed]; exact h.armed
  idle := by rw [hjog, hrun]; exact h.idle
  accepted := by rw [hjog]; exact h.accepted
  spent := by rw [hjog, hrun]; exact h.spent
  rested := by rw [hanchor, hstate]; exact h.rested
  still := by rw [hjog, hrun]; exact h.still
  stood := by rw [hstate, hanchor]; exact h.stood
  ramp := by rw [hjog, hramp]; exact h.ramp

/-- a leg ends: nobody stands or jogs during one -/
theorem JogFacts.stops (h : JogFacts g timeout p c) (hrun : c.running) (a : Option (JointServoCommand K n))
    (x : Option (CartesianSpec K)) : JogFacts g timeout p
      { c with reference := none, running := false, plan := none, holdAnchor := a, cartesianNow := x } where
  timeout := h.timeout
  armed := h.armed
  idle := fun h => absurd h Bool.false_ne_true
  accepted := h.accepted
  spent := fun hranOut => ⟨(h.spent hranOut).1, rfl⟩
  rested := fun hranOut => by
    have hidle := (h.spent hranOut).2
    rw [hrun] at hidle
    cases hidle
  still := fun poses hposes => ⟨(h.still poses hposes).1, rfl⟩
  stood := fun _ poses hposes => by
    have hidle := (h.still poses hposes).2
    rw [hrun] at hidle
    cases hidle
  ramp := h.ramp

/-- the jog is ended: the anchor stays, or is dropped -/
theorem JogFacts.ends (h : JogFacts g timeout p c) (hq : c'.jog.q = none) (htimeout : c'.jog.timeoutS = c.jog.timeoutS)
    (hrun : c'.running = c.running) (hstate : c'.lastState = c.lastState) (ha : ∀ a ∈ c'.holdAnchor, a ∈ c.holdAnchor) :
    JogFacts g timeout p.ended c' where
  timeout := htimeout.trans h.timeout
  armed := fun hne => absurd hq hne
  idle := fun _ => hq
  accepted := by rw [hq]; rfl
  spent := fun hr => ⟨hq, hrun.trans (h.spent hr).2⟩
  rested := fun hr hp a hmem => by
    rw [hstate]
    exact h.rested hr hp a (ha a hmem)
  still := fun poses hposes => ⟨hq, hrun.trans (h.still poses hposes).2⟩
  stood := fun hp poses hposes => by
    obtain ⟨hmem, hall⟩ := h.stood hp poses hposes
    rw [hstate]
    exact ⟨hmem, fun a hmem => hall a (ha a hmem)⟩
  ramp := fun _ hne => absurd hq hne

/-- the arm is anchored where it is measured -/
theorem JogFacts.anchored (h : JogFacts g timeout p c) (a : Option (JointServoCommand K n))
    (ha : g.policy.isSome → ∀ t ∈ a, t.qDes = c.lastState.position) : JogFacts g timeout p { c with holdAnchor := a } :=
  { h with
    rested := fun _ hp t ht => ha hp t ht
    stood := fun hp poses hposes => ⟨(h.stood hp poses hposes).1, fun t ht => by
      rw [ha hp t ht]
      exact (h.stood hp poses hposes).1⟩ }

/-- the arm stands at one more pose -/
theorem JogFacts.stands (h : JogFacts g timeout p c) (pose : Reading K n) : JogFacts g timeout (p.stands pose) c :=
  { h with
    spent := nofun
    rested := nofun
    still := fun poses hposes => by
      obtain ⟨old, hold, -⟩ := Option.map_eq_some_iff.mp hposes
      exact h.still old hold
    stood := fun hp poses hposes => by
      obtain ⟨old, hold, rfl⟩ := Option.map_eq_some_iff.mp hposes
      obtain ⟨hmem, hall⟩ := h.stood hp old hold
      exact ⟨List.mem_cons_of_mem pose hmem, fun a ha => List.mem_cons_of_mem pose (hall a ha)⟩ }

/-- a command is sent -/
theorem JogFacts.sent (h : JogFacts g timeout p c) : JogFacts g timeout p.sent c :=
  { h with
    spent := nofun
    rested := nofun
    still := nofun
    stood := fun _ => nofun }

/-! ## the moves -/

theorem JogInv.noted (h : JogInv g timeout c) {o : Obs K n} (hlog : c'.log = c.log ++ [o])
    (hf : JogFacts g timeout ((past c.log).after o) c') (ho : JogRule g timeout c.log o) : JogInv g timeout c' where
  facts := by rw [hlog, past_snoc]; exact hf
  log := by rw [hlog]; exact h.log.snoc ho

theorem JogInv.install (h : JogInv g timeout c) (kp kd : Option (Gains K)) : JogInv g timeout (c.installGains kp kd).1 := by
  unfold ArmController.installGains
  split
  · exact h.noted rfl (h.facts.same rfl rfl rfl rfl rfl rfl) trivial
  · exact h.noted rfl (h.facts.same rfl rfl rfl rfl rfl rfl) trivial

/-- a command that is no jog is sent when there is none -/
theorem JogInv.other (h : JogInv g timeout c) (m : Moment K n) {origin : Origin} (command : JointServoCommand K n)
    (cartesian : Option (CartesianSpec K)) (ho : origin ≠ .jog) (hq : c.jog.q = none)
    (hrest : (past c.log).ranOut → command.qdDes = some (fun _ => 0) ∧ command.qDes = c.lastState.position)
    (hstood : g.policy.isSome → ∀ poses ∈ (past c.log).standing,
      command.qdDes = some (fun _ => 0) ∧ command.qDes ∈ poses) :
    JogInv g timeout (c.note (.motorCommand origin command cartesian c.poseHold c.lastState.position m.clock)) := by
  have haccepted : (past c.log).accepted = none := by rw [h.facts.accepted, hq]; rfl
  exact h.noted rfl (h.facts.sent.same rfl rfl rfl rfl rfl rfl)
    ⟨fun hjog => absurd hjog ho, fun _ => haccepted, fun he => ⟨ho, hrest he⟩, fun hp poses hposes => ⟨ho, hstood hp poses hposes⟩⟩

/-- the keepalive, and what replaces a command -/
theorem JogInv.holdSent (h : JogInv g timeout c) (m : Moment K n) {origin : Origin} (command : JointServoCommand K n)
    (ho : origin = .hold ∨ origin = .gap ∨ origin = .abort) (hq : c.jog.q = none)
    (hrest : g.policy.isSome → command.qdDes = some (fun _ => 0) ∧
      (command.qDes = c.lastState.position ∨ ∃ a ∈ c.holdAnchor, command.qDes = a.qDes))
    (hfresh : g.policy = none → expiring c.log → command.qdDes = some (fun _ => 0) ∧ command.qDes = c.lastState.position) :
    JogInv g timeout (c.note (.motorCommand origin command none c.poseHold c.lastState.position m.clock)) := by
  refine h.other m command none ?_ hq (fun hranOut => ?_) fun hp poses hposes => ?_
  · rintro rfl
    rcases ho with ho | ho | ho <;> cases ho
  · cases hp : g.policy with
    | none => exact hfresh hp (past_ranOut c.log ▸ hranOut)
    | some p =>
      have hsome : g.policy.isSome := by rw [hp]; rfl
      obtain ⟨hspeed, htarget | ⟨a, ha, htarget⟩⟩ := hrest hsome
      · exact ⟨hspeed, htarget⟩
      · exact ⟨hspeed, htarget.trans (h.facts.rested hranOut hsome a ha)⟩
  · obtain ⟨hmem, hall⟩ := h.facts.stood hp poses hposes
    obtain ⟨hspeed, htarget | ⟨a, ha, htarget⟩⟩ := hrest hp
    · exact ⟨hspeed, htarget ▸ hmem⟩
    · exact ⟨hspeed, htarget ▸ hall a ha⟩

/-- **A step of the invariant.** -/
theorem JogInv.move (hmove : Move g P c c') (h : JogInv g timeout c) : JogInv g timeout c' := by
  have hf := h.facts
  have hlive : c.jog.q ≠ none → c.running = false := fun hq => Bool.eq_false_iff.mpr fun hrun => hq (hf.idle hrun)
  have hkept : ∀ a, a = none ∨ a = c.holdAnchor → ∀ t ∈ a, t ∈ c.holdAnchor := by
    rintro _ (rfl | rfl) t ht
    · cases ht
    · exact ht
  cases hmove with
  | quiet ha =>
    exact ⟨by rw [ha.log]; exact hf.same ha.jog ha.jogRamp ha.lastState ha.holdAnchor ha.armed ha.running,
      by rw [ha.log]; exact h.log⟩
  | said o ho =>
    cases o with
    | ready | refused | planCleared | legProgress =>
      exact h.noted rfl (hf.same rfl rfl rfl rfl rfl rfl) trivial
    | _ => cases ho
  | reported | asked | restamped => exact ⟨hf.same rfl rfl rfl rfl rfl rfl, h.log⟩
  -- how things end
  | finished reason a x hrun =>
    exact h.noted rfl ((hf.stops hrun a x).same rfl rfl rfl rfl rfl rfl) trivial
  | succeeded before now e s q v a x hrun =>
    exact h.noted rfl ((hf.stops hrun a x).same rfl rfl rfl rfl rfl rfl) trivial
  | turnedAway | staged | window | ended | consulted =>
    exact h.noted rfl (hf.same rfl rfl rfl rfl rfl rfl) trivial
  | cancelled reason x a hrun ha =>
    exact h.noted rfl (hf.ends rfl rfl rfl rfl (hkept a ha)) trivial
  | disarmed hrun =>
    exact h.noted rfl (hf.ends rfl rfl rfl rfl fun a ha => absurd ha (Option.not_mem_none a)) trivial
  | armed b hb =>
    refine h.noted rfl { hf with armed := fun hq => ?_ } trivial
    cases b with
    | true => rfl
    | false => exact absurd (hb rfl (hf.armed hq)) hq
  | faulted reason hdown =>
    have hq : c.jog.q = none := by
      by_contra hq
      rw [hf.armed hq] at hdown
      cases hdown
    exact h.noted rfl (hf.ends hq rfl rfl rfl fun _ ha => ha) trivial
  | paused reason a hq ha =>
    exact h.noted rfl (hf.ends hq rfl rfl rfl (hkept a ha)) trivial
  | soft spec x hrun hp hq =>
    exact h.noted rfl (hf.ends hq rfl rfl rfl fun _ ha => ha) trivial
  -- commands
  | sampled m command hrun _ =>
    refine h.other m command _ nofun (hf.idle hrun) (fun hranOut => ?_) fun _ poses hposes => ?_
    · rw [(hf.spent hranOut).2] at hrun
      cases hrun
    · rw [(hf.still poses hposes).2] at hrun
      cases hrun
  | jogSent m command hq hat =>
    refine h.noted rfl (hf.sent.same rfl rfl rfl rfl rfl rfl)
      ⟨fun _ => ⟨c.jog.setAt, ?_, ?_⟩, fun hno => absurd rfl hno, fun hranOut => absurd (hf.spent hranOut).1 hq,
        fun _ poses hposes => absurd (hf.still poses hposes).1 hq⟩
    · obtain ⟨q, hsome⟩ := Option.ne_none_iff_exists'.mp hq
      rw [hf.accepted, hsome]
      rfl
    · rw [← hf.timeout]
      exact hat
  | holdSent m origin command ho hq hrest hfresh => exact h.holdSent m command ho hq hrest hfresh
  | anchored a ha => exact ⟨hf.anchored a ha, h.log⟩
  | rtHeld q a ha =>
    refine h.noted rfl
      { hf.stands (some q) with
        rested := nofun
        stood := fun hp poses hposes => ⟨((hf.stands (some q)).stood hp poses hposes).1, fun t ht => ?_⟩ } trivial
    obtain ⟨old, -, rfl⟩ := Option.map_eq_some_iff.mp hposes
    rw [← Option.some.inj ht, ha]
    exact List.mem_cons_self
  -- legs
  | released p trajectory start hp hrun =>
    exact h.noted rfl
      ⟨hf.timeout, fun hq => absurd rfl hq, fun _ => rfl, rfl, nofun, nofun, nofun, fun _ => nofun, fun _ hq => absurd rfl hq⟩
      trivial
  | held =>
    exact h.noted rfl
      { hf with
        idle := fun hrun => absurd hrun Bool.false_ne_true
        spent := fun hranOut => ⟨(hf.spent hranOut).1, rfl⟩
        still := fun poses hposes => ⟨(hf.still poses hposes).1, rfl⟩ } trivial
  | gains kp kd _ => exact h.install kp kd
  | trackGains => exact h.install _ _
  -- jogs
  | jogged jog now ramp hrun harmed hset hq htimeout hexpired hramp =>
    refine h.noted rfl
      ⟨htimeout.trans hf.timeout, fun _ => harmed, fun hrun' => ?_, ?_, nofun, nofun, nofun, fun _ => nofun,
        fun hrestarted _ r hr => ?_⟩ trivial
    · have hrun'' : c.running = true := hrun'
      rw [hrun] at hrun''
      cases hrun''
    · obtain ⟨q, hsome⟩ := Option.ne_none_iff_exists'.mp hq
      show some now = jog.q.map fun _ => jog.setAt
      rw [hsome, hset]
      rfl
    · rcases hramp with ⟨rfl, hlive⟩ | rfl
      · exact hf.ramp hrestarted hlive r hr
      · obtain ⟨old, -, rfl⟩ := Option.map_eq_some_iff.mp hr
        rfl
  | cleared hq =>
    refine h.noted rfl
      ⟨hf.timeout, fun hq => absurd rfl hq, fun _ => rfl, rfl, fun hranOut => absurd (hf.spent hranOut).1 hq,
        fun hranOut => absurd (hf.spent hranOut).1 hq, fun _ _ => ⟨rfl, hlive hq⟩, fun _ poses hposes => ?_,
        fun _ hq => absurd rfl hq⟩ trivial
    obtain rfl : [c.lastState.position] = poses := Option.some.inj hposes
    refine ⟨List.mem_singleton_self _, fun a ha => ?_⟩
    rw [← Option.some.inj ha]
    exact List.mem_singleton_self _
  | expired hq =>
    refine h.noted rfl
      ⟨hf.timeout, fun hq => absurd rfl hq, fun _ => rfl, rfl, fun _ => ⟨rfl, hlive hq⟩, fun _ _ a ha => ?_,
        fun poses hposes => absurd (hf.still poses hposes).1 hq, fun _ poses hposes => absurd (hf.still poses hposes).1 hq,
        fun _ hq => absurd rfl hq⟩ trivial
    rw [← Option.some.inj ha]
    rfl
  | rampReset =>
    refine ⟨{ hf with ramp := fun _ _ r hr => ?_ }, h.log⟩
    obtain ⟨old, -, rfl⟩ := Option.map_eq_some_iff.mp hr
    rfl
  | ramped ramp next q hq hramp hnext =>
    refine h.noted rfl { hf with ramp := nofun } fun hrestarted => ?_
    have hanew := hf.ramp hrestarted hq ramp hramp
    unfold JogRamp.position JogRamp.velocity
    rw [hanew]
    exact ⟨rfl, fun _ => rfl⟩
  -- the plant
  | measured at_ pose =>
    exact h.noted rfl ((hf.stands pose).same rfl rfl rfl rfl rfl rfl) trivial
  | taken s hs =>
    obtain ⟨hfresh, hpose⟩ := hs.past
    refine ⟨{ hf with rested := fun hranOut => ?_, stood := fun hp poses hposes => ⟨hpose poses hposes, ?_⟩ }, h.log⟩
    · have hno : (past c.log).ranOut = true := hranOut
      rw [hfresh] at hno
      cases hno
    · exact (hf.stood hp poses hposes).2

end

/-! ## on one joint -/

end ArmControl.Control.Servo
