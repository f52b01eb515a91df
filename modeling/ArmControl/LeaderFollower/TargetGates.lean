import Mathlib.Data.List.Chain
import Mathlib.Data.List.Forall2
import ArmControl.Lib.Run
import ArmControl.LeaderFollower.Loop

/-!
# The gates that a sent target passed

The monitor checks the joint limits and, from the second target on, the step.  The target velocity and the
gripper step are numbers that no gate reads, and the start pose is compared with nothing.

* `Sent`, `sents`           what was sent, and when;
* `Inside`, `Near`          the configured gates, on a target and between two targets;
* `Gentle`                  the tick's aim respects the gates that are not there;
* `sent_within_gates`       in a run of gentle ticks every target sent passed every gate.
-/

namespace ArmControl.LeaderFollower
open Run

structure Sent where
  arm : List Value
  grip : Value
  time : ℚ
  deriving DecidableEq

/-- `|y - x| <= limit` -/
def close (limit x y : Value) : Prop := (y - x).abs.le limit = true

/-- finite, and within the joint limits less their margin -/
structure Inside (g : SafetyGates) (arm : List Value) : Prop where
  size : arm.length = g.jointLower.length
  finite : ∀ x ∈ arm, x.isFinite = true
  lower : List.Forall₂ (fun l x => l.le x = true) (SafetyMonitor.lower g) arm
  upper : List.Forall₂ (fun x u => x.le u = true) arm (SafetyMonitor.upper g)

/-- the step, the velocity and the gripper step from one target to the next -/
structure Near (g : SafetyGates) (a b : Sent) : Prop where
  step : List.Forall₂ (close g.limits.maxStepRad) a.arm b.arm
  velocity : List.Forall₂ (close (g.limits.maxTargetVelRadS * .fin (b.time - a.time))) a.arm b.arm
  grip : close g.limits.gripperMaxStepM a.grip b.grip

namespace TeleopLoop

variable {σ α : Type} {p : Parties σ} {g : SafetyGates} {s t : TeleopLoop σ} {now : ℚ} {start : Sent}

def Entry.sent? : Entry → Option Sent
  | .called (.send arm grip now) _ => some ⟨arm, grip, now⟩
  | _ => none

def sents (s : TeleopLoop σ) : List Sent := s.entries.filterMap Entry.sent?

/-- one call of `once`; an exception ends the call, not the run -/
def tick (p : Parties σ) (g : SafetyGates) (s : TeleopLoop σ) (now : ℚ) : TeleopLoop σ :=
  Effect.leaves (once p g now) s

/-- the last target sent, the start pose before the first -/
def reference (start : Sent) (s : TeleopLoop σ) : Sent := s.sents.getLast?.getD start

/-! ## what one tick can send -/

/-- the speed of the target gate's verdict -/
def speed (g : SafetyGates) (distance : Value) : Value :=
  if distance.le g.limits.collisionWarnM then g.limits.collisionSlowScale else .fin 1

/-- the target after the slow-down -/
def slowed (speed : Value) (target : List Value) : List Value :=
  if speed.lt (.fin 1) then target.zipWith (fun x y => x + (y - x) * speed) target else target

/-- nothing that the gates read or the follower got has changed -/
structure Kept (s t : TeleopLoop σ) : Prop where
  prev : t.gate.monitor.prevTarget = s.gate.monitor.prevTarget
  distance : t.gate.monitor.lastDistance = s.gate.monitor.lastDistance
  sents : t.sents = s.sents

theorem Kept.refl : Kept s s := ⟨rfl, rfl, rfl⟩

theorem Kept.trans {u : TeleopLoop σ} (h : Kept s t) (h' : Kept t u) : Kept s u :=
  ⟨h'.prev.trans h.prev, h'.distance.trans h.distance, h'.sents.trans h.sents⟩

theorem sents_add (e : Entry) : (s.add e).sents = s.sents ++ (Entry.sent? e).toList := by
  unfold sents add
  rw [List.filterMap_append]
  cases h : Entry.sent? e with
  | none => simp [h]
  | some x => simp [h]

theorem Kept.add {e : Entry} (h : Kept s t) (he : Entry.sent? e = none) : Kept s (t.add e) := by
  refine ⟨h.prev, h.distance, ?_⟩
  rw [sents_add, he, h.sents]
  exact List.append_nil _

theorem sents_quiet {e : Entry} (he : Entry.sent? e = none) : (s.add e).sents = s.sents := by
  rw [sents_add, he]
  exact List.append_nil _

/-- the follower got nothing, and the monitor's previous target is the same -/
structure Unsent (s t : TeleopLoop σ) : Prop where
  prev : t.gate.monitor.prevTarget = s.gate.monitor.prevTarget
  sents : t.sents = s.sents

theorem Unsent.add {e : Entry} (h : Unsent s t) (he : Entry.sent? e = none) : Unsent s (t.add e) :=
  ⟨h.prev, (sents_quiet he).trans h.sents⟩

theorem Kept.unsent (h : Kept s t) : Unsent s t := ⟨h.prev, h.sents⟩

theorem Unsent.trans {u : TeleopLoop σ} (h : Unsent s t) (h' : Unsent t u) : Unsent s u :=
  ⟨h'.prev.trans h.prev, h'.sents.trans h.sents⟩

theorem Kept.call {w : σ} {e : Entry} (he : Entry.sent? e = none) : Kept s ((s.setWorld w).add e) :=
  Kept.add ⟨rfl, rfl, rfl⟩ he

theorem checkLeader_prev (m : SafetyMonitor) (leader : List Value) :
    (m.checkLeader g leader now).2.prevTarget = m.prevTarget ∧
      (m.checkLeader g leader now).2.lastDistance = m.lastDistance := by
  unfold SafetyMonitor.checkLeader
  split_ifs <;> exact ⟨rfl, rfl⟩

theorem checkLeader_finite (m : SafetyMonitor) {leader : List Value} {v : Value}
    (h : (m.checkLeader g leader now).1 = .ok v) : leader.all Value.isFinite = true := by
  unfold SafetyMonitor.checkLeader at h
  split_ifs at h with hbad
  rw [Bool.or_eq_true, not_or, Bool.not_eq_true', Bool.not_eq_false] at hbad
  exact hbad.2

theorem checkTracking_prev (m : SafetyMonitor) (prev armQ : List Value) :
    (m.checkTracking g prev armQ now).2.prevTarget = m.prevTarget ∧
      (m.checkTracking g prev armQ now).2.lastDistance = m.lastDistance := by
  unfold SafetyMonitor.checkTracking
  dsimp only
  split_ifs
  · cases m.trackSince with
    | none => exact ⟨rfl, rfl⟩
    | some since =>
      dsimp only
      split_ifs <;> exact ⟨rfl, rfl⟩
  · exact ⟨rfl, rfl⟩

theorem checkFeedback_prev (m : SafetyMonitor) (sample : Option FeedbackSample) :
    (m.checkFeedback g sample now).2.prevTarget = m.prevTarget ∧
      (m.checkFeedback g sample now).2.lastDistance = m.lastDistance := by
  unfold SafetyMonitor.checkFeedback
  cases sample with
  | none =>
    dsimp only
    split_ifs <;> exact ⟨rfl, rfl⟩
  | some f =>
    dsimp only
    generalize (if f.timestamp = .fin 0 then Value.fin now else f.timestamp) = arrived
    split_ifs
    · exact ⟨rfl, rfl⟩
    · exact ⟨rfl, rfl⟩
    · exact ⟨rfl, rfl⟩
    · exact ⟨rfl, rfl⟩
    · exact ⟨rfl, rfl⟩
    · cases SafetyMonitor.overspeed g f.armDq with
      | some reason => exact ⟨rfl, rfl⟩
      | none =>
        dsimp only
        split
        · exact ⟨rfl, rfl⟩
        · exact checkTracking_prev _ _ _

/-- a gate that asks nothing of the world -/
theorem judge_spec {source : Source} {verdict : SafetyMonitor → SafetyVerdict × SafetyMonitor}
    (h : (verdict s.gate.monitor).2.prevTarget = s.gate.monitor.prevTarget ∧
      (verdict s.gate.monitor).2.lastDistance = s.gate.monitor.lastDistance) :
    Effect.Ends (fun _ t => Kept s t ∧ t.retargeter = s.retargeter ∧ t.gate.world = s.gate.world ∧
        ∃ v, (verdict s.gate.monitor).1 = .ok v)
      (fun _ t => Kept s t ∧ t.retargeter = s.retargeter) (judge source verdict) s := by
  unfold judge
  rw [Effect.ends_bind, Effect.ends_get, Effect.ends_bind, Effect.ends_set]
  have hkept : Kept s { s with gate := { s.gate with monitor := (verdict s.gate.monitor).2 } } := ⟨h.1, h.2, rfl⟩
  cases hv : (verdict s.gate.monitor).1 with
  | ok v => exact ⟨hkept, rfl, rfl, v, rfl⟩
  | refused reason =>
    dsimp only
    rw [ends_raiseStop]
    exact ⟨hkept.add rfl, rfl⟩

theorem readFeedback_spec :
    Effect.Holds (fun t => Kept s t ∧ t.retargeter = s.retargeter) (readFeedback p now) s := by
  unfold readFeedback Effect.Holds
  cases p.feedback with
  | none => exact ⟨Kept.refl, rfl⟩
  | some fb =>
    dsimp only
    rw [Effect.ends_tryCatch, ends_called]
    refine Effect.ends_of (fun _ _ _ => ⟨Kept.call rfl, rfl⟩) fun e w _ => ?_
    exact Effect.ends_ite (fun _ => ⟨Kept.call rfl, rfl⟩) fun _ => ⟨Kept.call rfl, rfl⟩

/-! ## the target gate -/

theorem measure_prev (guard : CollisionGuard σ) (tgt : List Value) (u : Guarded σ) :
    Effect.Holds (fun t => t.monitor.prevTarget = u.monitor.prevTarget) (Guarded.measure g guard tgt) u := by
  unfold Guarded.measure Effect.Holds
  rw [Effect.ends_bind, Effect.ends_modify, Effect.ends_bind, Effect.ends_get]
  refine Effect.ends_ite (fun _ => ?_) fun _ => rfl
  show Effect.Ends _ _ (Guarded.outside (guard.minDistance tgt) >>= _) _
  unfold Guarded.outside
  rw [Effect.ends_bind, Effect.ends_zoom]
  exact Effect.ends_of (fun _ _ _ => rfl) fun _ _ _ => rfl

/-- a target passes as it is, through the gates before the collision check, and becomes the previous one -/
theorem check_target (guard : CollisionGuard σ) (tgt : List Value) (u : Guarded σ) :
    Effect.Ends (fun r t =>
        ((∃ reason, r.1 = .refused reason) ∧ t.monitor.prevTarget = u.monitor.prevTarget) ∨
          (u.monitor.targetRefusal g tgt = none ∧ r = (.ok (speed g t.monitor.lastDistance), tgt) ∧
            t.monitor.prevTarget = some tgt))
      (fun _ t => t.monitor.prevTarget = u.monitor.prevTarget)
      (Guarded.checkAndClampTarget g guard tgt) u := by
  unfold Guarded.checkAndClampTarget
  rw [Effect.ends_bind, Effect.ends_modify, Effect.ends_bind, Effect.ends_get]
  dsimp only
  cases href : u.monitor.targetRefusal g tgt with
  | some reason => exact .inl ⟨⟨reason, rfl⟩, rfl⟩
  | none =>
    show Effect.Ends _ _ (Guarded.measure g guard tgt >>= _) _
    rw [Effect.ends_bind]
    refine (measure_prev guard tgt _).mono (fun _ t ht => ?_) fun _ _ h => h
    rw [Effect.ends_bind, Effect.ends_get]
    refine Effect.ends_ite (fun _ => ?_) fun _ => ?_
    · exact .inl ⟨⟨_, rfl⟩, ht⟩
    · exact .inr ⟨rfl, rfl, rfl⟩

/-- the one target that a tick may send -/
structure Sends (p : Parties σ) (g : SafetyGates) (s : TeleopLoop σ) (now : ℚ) (t : TeleopLoop σ)
    (target : List Value) (grip : Value) : Prop where
  passed : s.gate.monitor.targetRefusal g target = none
  prev : t.gate.monitor.prevTarget = some target
  sents : t.sents = s.sents ++ [⟨slowed (speed g t.gate.monitor.lastDistance) target, grip, now⟩]
  held : t.retargeter.prev = some (slowed (speed g t.gate.monitor.lastDistance) target, grip)

theorem Sends.kept {u : TeleopLoop σ} {target : List Value} {grip : Value} (h : Sends p g s now t target grip)
    (hk : Kept t u) (hr : u.retargeter = t.retargeter) : Sends p g s now u target grip :=
  ⟨h.passed, hk.prev.trans h.prev, by rw [hk.sents, h.sents, hk.distance], by rw [hr, h.held, hk.distance]⟩

theorem slowDown_spec {v grip : Value} {target : List Value}
    (hprev : s.retargeter.prev = some (target, grip)) :
    Effect.Ends (fun arm t => arm = slowed v target ∧ Kept s t ∧ t.retargeter.prev = some (arm, grip))
      (fun _ _ => False) (slowDown v target) s := by
  unfold slowDown
  rw [Effect.ends_bind, Effect.ends_get, hprev]
  refine Effect.ends_ite (fun hv => ?_) fun hv => ?_
  · refine ⟨?_, ⟨rfl, rfl, rfl⟩, rfl⟩
    unfold slowed
    rw [if_pos hv]
  · refine ⟨?_, Kept.refl, hprev⟩
    unfold slowed
    rw [if_neg hv]

theorem command_spec {leader target : List Value} {grip : Value}
    (hprev : s.retargeter.prev = some (target, grip)) :
    Effect.Ends (fun _ t => Sends p g s now t target grip)
      (fun _ t => Unsent s t ∨ Sends p g s now t target grip)
      (command p g leader target grip now) s := by
  unfold command
  rw [Effect.ends_bind, ends_called]
  refine Effect.ends_of (fun _ w _ => ?_) fun e w _ => ?_
  · rw [Effect.ends_bind, ends_noted]
    unfold onGate
    rw [Effect.ends_zoom]
    have hquiet : ∀ (gate : Guarded σ) (e : Option Exn), gate.monitor.prevTarget = s.gate.monitor.prevTarget →
        Unsent s (({ (s.setWorld w).add (.called .setOtherState none) with gate := gate }).add
          (.called .checkTarget e)) :=
      fun gate e h => ⟨h, (sents_quiet rfl).trans (sents_quiet rfl)⟩
    refine (check_target (g := g) p.collision target _).mono ?_ fun e u hu => .inl (hquiet u _ hu)
    rintro ⟨verdict, out⟩ u (⟨⟨reason, rfl⟩, hu⟩ | ⟨href, hr, hu⟩)
    · rw [ends_raiseStop]
      exact .inl ((hquiet u none hu).add rfl)
    · obtain ⟨rfl, rfl⟩ := Prod.mk.inj hr
      show Effect.Ends _ _ (slowDown (speed g u.monitor.lastDistance) out >>= _) _
      rw [Effect.ends_bind]
      have hprev' : (TeleopLoop.add (.called .checkTarget none)
          { (s.setWorld w).add (.called .setOtherState none) with gate := u }).retargeter.prev =
            some (out, grip) := hprev
      refine (slowDown_spec hprev').mono ?_ fun _ _ h => h.elim
      rintro arm t ⟨rfl, hk, hheld⟩
      have hsends : ∀ w' e, Sends p g s now ((t.setWorld w').add
          (.called (.send (slowed (speed g u.monitor.lastDistance) out) grip now) e)) out grip := by
        intro w' e
        have hdist : t.gate.monitor.lastDistance = u.monitor.lastDistance := hk.distance
        refine ⟨href, hk.prev.trans hu, ?_, ?_⟩
        · show ((t.setWorld w').add _).sents = _ ++ [⟨slowed (speed g t.gate.monitor.lastDistance) out, grip, now⟩]
          rw [sents_add, hdist]
          exact congrArg (· ++ [_]) (hk.sents.trans ((sents_quiet rfl).trans (sents_quiet rfl)))
        · show t.retargeter.prev = some (slowed (speed g t.gate.monitor.lastDistance) out, grip)
          rw [hdist]
          exact hheld
      rw [Effect.ends_bind, ends_called]
      exact Effect.ends_of (fun _ w' _ => (hsends w' none).kept ⟨rfl, rfl, rfl⟩ rfl) fun e w' _ => .inr (hsends w' (some e))
  · exact .inl ⟨rfl, sents_quiet rfl⟩

theorem targetRefusal_congr {m m' : SafetyMonitor} (h : m'.prevTarget = m.prevTarget) (tgt : List Value) :
    m'.targetRefusal g tgt = m.targetRefusal g tgt := by
  unfold SafetyMonitor.targetRefusal
  rw [h]

/-- a leader that is a number becomes the retargeter's previous target -/
theorem map_prev {leader : List Value} (hfin : leader.all Value.isFinite = true) (r : Retargeter) :
    Effect.Ends (fun a t => ∀ x, a = some x → t.prev = some x) (fun _ _ => True) (Retargeter.map leader now) r := by
  unfold Retargeter.map
  rw [Effect.ends_bind, Effect.ends_get]
  refine Effect.ends_ite (fun hbad => absurd (hfin.symm.trans hbad) Bool.true_eq_false.mp) fun _ => ?_
  rw [Effect.ends_bind]
  refine Effect.ends_of (fun desired t₁ _ => ?_) fun _ _ _ => trivial
  rw [Effect.ends_bind]
  refine Effect.ends_of (fun grip t₂ _ => ?_) fun _ _ _ => trivial
  rw [Effect.ends_bind, Effect.ends_modify, Effect.ends_bind]
  refine Effect.ends_of (fun smooth t₃ _ => ?_) fun _ _ _ => trivial
  rw [Effect.ends_bind, Effect.ends_modify, Effect.ends_bind, Effect.ends_get, Effect.ends_bind]
  refine Effect.ends_of (fun soft t₄ _ => ?_) fun _ _ _ => trivial
  rw [Effect.ends_bind]
  refine Effect.ends_of (fun limited t₅ _ => ?_) fun _ _ _ => trivial
  rw [Effect.ends_bind, Effect.ends_modify]
  intro x hx
  exact hx

/-- what one call of `once` does to the follower -/
inductive Tick (p : Parties σ) (g : SafetyGates) (s : TeleopLoop σ) (now : ℚ) (t : TeleopLoop σ) : Prop where
  | silent (h : Unsent s t)
  | sent (leader target : List Value) (grip : Value) (w : σ) (r : Retargeter)
      (hleader : p.getJointState s.gate.world = .ok leader w)
      (hmap : Retargeter.map leader now s.retargeter = .ok (some (target, grip)) r)
      (h : Sends p g s now t target grip)

theorem once_spec : Effect.Holds (Tick p g s now) (once p g now) s := by
  unfold once Effect.Holds
  rw [Effect.ends_bind, ends_called]
  refine Effect.ends_of (fun leader w hleader => ?_) fun e w _ => .silent (Kept.call rfl).unsent
  have hcall : Kept s ((s.setWorld w).add (.called .getJointState none)) := Kept.call rfl
  rw [Effect.ends_bind]
  refine (judge_spec (checkLeader_prev _ leader)).mono ?_ fun _ t hk => .silent (hcall.trans hk.1).unsent
  rintro - s₁ ⟨hk, hret, -, v, hv⟩
  have hk₁ := hcall.trans hk
  have hfin := checkLeader_finite _ hv
  rw [Effect.ends_bind]
  unfold onRetargeter
  rw [Effect.ends_zoom]
  have hk₂ : ∀ r, Kept s { s₁ with retargeter := r } := fun r => hk₁.trans ⟨rfl, rfl, rfl⟩
  refine Effect.ends_of (fun mapped r hmap => ?_) fun e r _ => .silent (hk₂ r).unsent
  have hprev := Effect.Ends.of_ok (map_prev hfin _) hmap
  cases mapped with
  | none =>
    show Effect.Ends _ _ (raiseStop .noTarget .retarget) _
    rw [ends_raiseStop]
    exact .silent ((hk₂ r).add rfl).unsent
  | some x =>
    obtain ⟨target, grip⟩ := x
    have hmap' : Retargeter.map leader now s.retargeter = .ok (some (target, grip)) r := hret ▸ hmap
    have hsent : ∀ u, Sends p g { s₁ with retargeter := r } now u target grip → Tick p g s now u := by
      intro u hu
      refine .sent leader target grip w r hleader hmap' ⟨?_, hu.prev, ?_, hu.held⟩
      · rw [← targetRefusal_congr hk₁.prev]
        exact hu.passed
      · rw [hu.sents]
        exact congrArg (· ++ [_]) hk₁.sents
    show Effect.Ends _ _ (command p g leader target grip now >>= _) _
    rw [Effect.ends_bind]
    refine (command_spec (p := p) (g := g) (hprev _ rfl)).mono ?_ ?_
    · intro _ u hu
      rw [Effect.ends_bind]
      refine readFeedback_spec.mono ?_ fun _ v hv => hsent v (hu.kept hv.1 hv.2)
      intro sample v hv
      rw [Effect.ends_bind]
      refine (judge_spec (checkFeedback_prev _ sample)).mono ?_ fun _ x hx =>
        hsent x (hu.kept (hv.1.trans hx.1) (hx.2.trans hv.2))
      rintro - x ⟨hx, hret, -⟩
      exact hsent _ (hu.kept (hv.1.trans (hx.trans ⟨rfl, rfl, rfl⟩)) (hret.trans hv.2))
    · rintro e u (hu | hu)
      · exact .silent ((hk₂ r).unsent.trans hu)
      · exact hsent u hu

/-! ## what the gates guarantee -/

/-- the slow-down leaves a target where it is -/
theorem slowed_eq {v : Value} {target : List Value} (hfin : ∀ x ∈ target, x.isFinite = true) (hv : v ≠ .inf true) :
    slowed v target = target := by
  unfold slowed
  split_ifs with hlt
  · have hfinv : v.isFinite = true := by
      cases v with
      | nan => cases hlt
      | inf neg =>
        cases neg with
        | true => exact absurd rfl hv
        | false => cases hlt
      | fin q => rfl
    rw [List.zipWith_self]
    exact (List.map_congr_left fun x hx => Value.slowed (hfin x hx) hfinv).trans (List.map_id _)
  · rfl

/-! ## runs -/

/-- the monitor's previous target is the last one sent -/
structure Passed (g : SafetyGates) (start : Sent) (s : TeleopLoop σ) : Prop where
  prev : s.gate.monitor.prevTarget = s.sents.getLast?.map Sent.arm
  inside : ∀ x ∈ s.sents, Inside g x.arm
  near : List.IsChain (Near g) (start :: s.sents)

theorem startupAlign_unsent (autoAlign : Bool) : Effect.Holds (Unsent s) (startupAlign p autoAlign) s := by
  unfold startupAlign onRetargeter Effect.Holds
  rw [Effect.ends_bind, ends_called]
  refine Effect.ends_of (fun leader w _ => ?_) fun _ _ _ => (Kept.call rfl).unsent
  rw [Effect.ends_bind, ends_called]
  have hread : ∀ (w' : σ) (e : Option Exn),
      Unsent s ((((s.setWorld w).add (.called .getJointState none)).setWorld w').add (.called .readState e)) :=
    fun w' e => (Kept.call rfl).unsent.trans (Kept.call rfl).unsent
  refine Effect.ends_of (fun pose w' _ => ?_) fun _ w' _ => hread w' _
  have hreset : ∀ r, Effect.Holds (Unsent s)
      (Effect.zoom TeleopLoop.retargeter (fun r s => { s with retargeter := r }) (Retargeter.reset pose.1 pose.2))
      { (((s.setWorld w).add (.called .getJointState none)).setWorld w').add (.called .readState none) with
        retargeter := r } := by
    intro r
    unfold Effect.Holds
    rw [Effect.ends_zoom]
    exact (hread w' none).trans ⟨rfl, rfl⟩
  refine Effect.ends_ite (fun _ => ?_) fun _ => hreset _
  rw [Effect.ends_bind, Effect.ends_zoom]
  exact Effect.ends_of (fun _ r _ => hreset r) fun _ r _ => (hread w' none).trans ⟨rfl, rfl⟩

/-- `s` is what `_startup_align` left of a new loop, and `start` the pose that it read -/
def Started (p : Parties σ) (autoAlign : Bool) (start : Sent) (s : TeleopLoop σ) : Prop :=
  ∃ s₀ : TeleopLoop σ, s₀.entries = [] ∧ s₀.gate.monitor.prevTarget = none ∧
    startupAlign p autoAlign s₀ = .ok ⟨⟩ s ∧ s.retargeter.start = some (start.arm, start.grip)

theorem Started.passed {autoAlign : Bool} (h : Started p autoAlign start s) : Passed g start s := by
  obtain ⟨s₀, hentries, hprev, hrun, -⟩ := h
  have hu := Effect.Ends.of_ok (startupAlign_unsent (p := p) (s := s₀) autoAlign) hrun
  have hsents : s.sents = [] := by
    rw [hu.sents, sents, hentries]
    rfl
  refine ⟨?_, ?_, ?_⟩
  · rw [hu.prev, hprev, hsents]
    rfl
  · rw [hsents]
    exact List.forall_mem_nil _
  · rw [hsents]
    exact List.isChain_singleton _

/-- one joint and a gripper; the leader's gripper is at `grip` -/
def still (grip : ℚ) : Parties Unit where
  getJointState := pure [.fin 0, .fin grip]
  leaderClose := pure ⟨⟩
  numArmJoints := 1
  followerOpen := pure ⟨⟩
  readState := pure ([.fin 0], .fin 0)
  followerSend _ _ := pure ⟨⟩
  safeStop := pure ⟨⟩
  followerClose := pure ⟨⟩
  feedback := none
  collision := NoCollisionGuard Unit
  pause := pure ⟨⟩

/-- the first joint of the leader drives the arm -/
theorem oneMapping : [({ srcIndex := 0 } : JointMapping)] ≠ [] := List.cons_ne_nil _ _

def fresh : TeleopLoop Unit where
  gate := { world := () }
  retargeter := { joints := [{ srcIndex := 0 }], nonempty := oneMapping, gripper := some {} }

/-- the state after the alignment -/
def aligned (grip : ℚ) : TeleopLoop Unit := Effect.leaves (startupAlign (still grip) true) fresh

def atRest : Sent := ⟨[.fin 0], .fin 0, 0⟩

theorem started (grip : ℚ) : Started (still grip) true atRest (aligned grip) := by
  refine ⟨fresh, rfl, rfl, ?_, ?_⟩
  · rfl
  · rfl

theorem wide_accepted : ({} : SafetyLimits).refusal = none := by decide +kernel

theorem wide_sameSize : [Value.fin (-1)].length = [Value.fin 1].length := rfl

theorem wide_nonempty : [Value.fin (-1)] ≠ [] := List.cons_ne_nil _ _

theorem wide_ordered : ∀ p ∈ [Value.fin (-1)].zip [Value.fin 1], p.1.le p.2 = true := by decide +kernel

/-- one joint and no joint limit in reach -/
def wide : SafetyGates where
  limits := {}
  accepted := wide_accepted
  jointLower := [.fin (-1)]
  jointUpper := [.fin 1]
  sameSize := wide_sameSize
  nonempty := wide_nonempty
  ordered := wide_ordered

def mapped (r : EStateM.Result Exn Retargeter (Option (List Value × Value))) : Option (List Value × Value) :=
  match r with
  | .ok a _ => a
  | .error _ _ => none

end TeleopLoop

end ArmControl.LeaderFollower
