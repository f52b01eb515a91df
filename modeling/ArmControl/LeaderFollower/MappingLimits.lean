import Mathlib.Tactic.Linarith
import Mathlib.Tactic.NormNum
import ArmControl.Lib.Effect
import ArmControl.Lib.Run
import ArmControl.LeaderFollower.Mapping

/-!
# The limits of the retargeter (`leader_follower/mapping.py`)

With finite numbers a frame of `Retargeter.map` is arithmetic on one joint at a time.

* `Driven`, `Track`     a joint with its own numbers, and the retargeter over them;
* `Track.next`          one frame of the track;
* `Tracks`              the retargeter is at the track, `map_tracks` keeps it there;
* `Track.Sound`         the previous targets are inside their limits;
* `Driven.Slow`         what keeps a joint within its rate: the frame comes late enough to be limited, or it asks for little;
* `retargeter_limits`   **takeover, limits, and the rate exactly where every joint is slow.**

Numbers are exact; a leader state is long enough for every index; an infinite rate is no limit.
-/

namespace ArmControl.LeaderFollower

/-- `leader[i]`, from the end where `i` is negative -/
def pick (leader : List ℚ) (i : ℤ) : ℚ := (leader[(if i < 0 then i + leader.length else i).toNat]?).getD 0

/-- the index is in range -/
def Reaches (leader : List ℚ) (i : ℤ) : Prop := -(leader.length : ℤ) ≤ i ∧ i < leader.length

/-- one value, smoothed and then brought in softly -/
def aim (alpha : ℚ) (blend : Option ℚ) (start prev asked : ℚ) : ℚ :=
  match blend with
  | some b => start + b * (prev + alpha * (asked - prev) - start)
  | none => prev + alpha * (asked - prev)

/-- no further than the rate allows, where the time is long enough to be looked at -/
def rateCut (rate : Value) (dt prev v : ℚ) : ℚ :=
  if rate.isFinite = true ∧ 1 / 1000000000 < dt then min (max v (prev - rate.rat * dt)) (prev + rate.rat * dt) else v

/-- a joint with its alignment, its start and its previous target -/
structure Driven where
  mapping : JointMapping
  align : ℚ
  start : ℚ
  prev : ℚ

namespace Driven

def asked (c : Driven) (leader : List ℚ) : ℚ :=
  c.mapping.offset.rat + c.align + c.mapping.scale.rat * c.mapping.sign.rat * pick leader c.mapping.srcIndex

def aimed (c : Driven) (alpha : ℚ) (blend : Option ℚ) (leader : List ℚ) : ℚ :=
  aim alpha blend c.start c.prev (c.asked leader)

def next (c : Driven) (alpha : ℚ) (blend : Option ℚ) (dt : ℚ) (leader : List ℚ) : ℚ :=
  Value.cut c.mapping.lower c.mapping.upper (rateCut c.mapping.maxRate dt c.prev (c.aimed alpha blend leader))

/-- its numbers are finite, its rate is positive and its previous target is inside its limits -/
structure Sound (c : Driven) : Prop where
  offset : c.mapping.offset.isFinite = true
  scale : c.mapping.scale.isFinite = true
  sign : c.mapping.sign.isFinite = true
  lower : c.mapping.lower.le (.fin c.prev) = true
  upper : Value.le (.fin c.prev) c.mapping.upper = true
  rate : Value.lt (.fin 0) c.mapping.maxRate = true

end Driven

namespace GripperMapping

def low (g : GripperMapping) : ℚ := min g.openFingerM.rat g.closedFingerM.rat

def high (g : GripperMapping) : ℚ := max g.closedFingerM.rat g.openFingerM.rat

def asked (g : GripperMapping) (leader : List ℚ) : ℚ :=
  min (max (g.closedFingerM.rat + min (max (pick leader g.srcIndex) 0) 1 * (g.openFingerM.rat - g.closedFingerM.rat)) g.low)
    g.high

/-- its ends are finite, its rate is positive -/
structure Sound (g : GripperMapping) : Prop where
  opened : g.openFingerM.isFinite = true
  closed : g.closedFingerM.isFinite = true
  rate : Value.lt (.fin 0) g.maxRateMS = true

end GripperMapping

/-- the retargeter over its joints' numbers -/
structure Track where
  joints : List Driven
  gripper : Option GripperMapping
  alpha : ℚ
  rampS : Value
  startGrip : ℚ
  prevGrip : ℚ
  elapsed : ℚ := 0
  lastT : Option ℚ := none

namespace Track

def dt (k : Track) (now : ℚ) : ℚ :=
  match k.lastT with
  | none => 0
  | some t => max (now - t) 0

def elapsedAt (k : Track) (now : ℚ) : ℚ := if Value.lt (.fin 0) k.rampS then k.elapsed + k.dt now else k.elapsed

/-- how far the soft start is -/
def blend (k : Track) (now : ℚ) : Option ℚ :=
  if Value.lt (.fin 0) k.rampS then some (Retargeter.ramp (k.elapsedAt now) k.rampS).rat else none

def aimedGrip (k : Track) (g : GripperMapping) (leader : List ℚ) (now : ℚ) : ℚ :=
  aim k.alpha (k.blend now) k.startGrip k.prevGrip (g.asked leader)

def nextGrip (k : Track) (leader : List ℚ) (now : ℚ) : ℚ :=
  match k.gripper with
  | some g => rateCut g.maxRateMS (k.dt now) k.prevGrip (k.aimedGrip g leader now)
  | none => 0

def next (k : Track) (leader : List ℚ) (now : ℚ) : Track :=
  { k with
    joints := k.joints.map fun c => { c with prev := c.next k.alpha (k.blend now) (k.dt now) leader }
    prevGrip := k.nextGrip leader now
    elapsed := k.elapsedAt now
    lastT := some now }

/-- the leader state has every index of the mapping -/
def Reached (k : Track) (leader : List ℚ) : Prop :=
  (∀ c ∈ k.joints, Reaches leader c.mapping.srcIndex) ∧ ∀ g ∈ k.gripper, Reaches leader g.srcIndex

/-- the previous targets are inside their limits -/
structure Sound (k : Track) : Prop where
  alpha : 0 ≤ k.alpha ∧ k.alpha ≤ 1
  joints : ∀ c ∈ k.joints, c.Sound
  gripper : ∀ g ∈ k.gripper, g.Sound ∧ (g.low ≤ k.startGrip ∧ k.startGrip ≤ g.high) ∧ g.low ≤ k.prevGrip ∧ k.prevGrip ≤ g.high
  elapsed : 0 ≤ k.elapsed

end Track

/-! ## the rate -/

/-- no further from the previous value than the rate allows in the time `tau`; an infinite rate allows all -/
def Within (rate : Value) (tau prev q : ℚ) : Prop := rate.isFinite = true → |q - prev| ≤ rate.rat * tau

/-- the frame comes late enough to be limited, or what it aims at, cut to the bounds, is within the rate -/
def Slow (rate lower upper : Value) (dt tau prev aimed : ℚ) : Prop :=
  rate.isFinite = true → 1 / 1000000000 < dt ∨
    upper.atMost aimed ≤ prev + rate.rat * tau ∧ prev - rate.rat * tau ≤ lower.atLeast aimed

/-- a frame keeps every joint and the gripper within their rates -/
def Track.Kept (k : Track) (tau : ℚ) (leader : List ℚ) (now : ℚ) : Prop :=
  (∀ c ∈ k.joints, Within c.mapping.maxRate tau c.prev (c.next k.alpha (k.blend now) (k.dt now) leader)) ∧
    ∀ g ∈ k.gripper, Within g.maxRateMS tau k.prevGrip (k.nextGrip leader now)

def Track.AllSlow (k : Track) (tau : ℚ) (leader : List ℚ) (now : ℚ) : Prop :=
  (∀ c ∈ k.joints, Slow c.mapping.maxRate c.mapping.lower c.mapping.upper (k.dt now) tau c.prev
      (c.aimed k.alpha (k.blend now) leader)) ∧
    ∀ g ∈ k.gripper, Slow g.maxRateMS (.inf true) (.inf false) (k.dt now) tau k.prevGrip (k.aimedGrip g leader now)

/-- the retargeter is at the track -/
structure Tracks (r : Retargeter) (k : Track) : Prop where
  joints : r.joints = k.joints.map (·.mapping)
  align : r.align = some (k.joints.map fun c => .fin c.align)
  start : r.start = some (k.joints.map fun c => .fin c.start, .fin k.startGrip)
  prev : r.prev = some (k.joints.map fun c => .fin c.prev, .fin k.prevGrip)
  gripper : r.gripper = k.gripper
  alpha : r.alpha = .fin k.alpha
  rampS : r.rampS = k.rampS
  elapsed : r.rampElapsed = k.elapsed
  lastT : r.lastT = k.lastT

/-! ## one value -/

section
variable {leader : List ℚ} {i : ℤ} {g : GripperMapping} {c : Driven}

theorem pyIndex_fin (h : Reaches leader i) : pyIndex (leader.map Value.fin) i = .ok (.fin (pick leader i)) := by
  have hlt : (if i < 0 then i + (leader.length : ℤ) else i).toNat < leader.length := by
    unfold Reaches at h
    split <;> omega
  have hget : (leader.map Value.fin)[(if i < 0 then i + (leader.length : ℤ) else i).toNat]? = some (.fin (pick leader i)) := by
    unfold pick
    rw [List.getElem?_map, List.getElem?_eq_getElem hlt]
    rfl
  unfold pyIndex
  rw [List.length_map, hget]
  exact if_neg (by unfold Reaches at h; omega)

theorem Driven.apply_eq (hc : c.Sound) (h : Reaches leader c.mapping.srcIndex) :
    c.mapping.apply (leader.map Value.fin) (.fin c.align) = .ok (.fin (c.asked leader)) := by
  unfold JointMapping.apply Driven.asked
  rw [pyIndex_fin h, Value.eq_rat hc.offset, Value.eq_rat hc.scale, Value.eq_rat hc.sign]
  rfl

theorem Value.pyMin_fin (a b : ℚ) : (if (Value.fin a).lt (.fin b) then Value.fin a else .fin b) = .fin (min b a) := by
  rw [Value.lt_fin]
  rcases lt_or_ge a b with h | h
  · rw [if_pos (decide_eq_true h), min_eq_right h.le]
  · rw [if_neg (by simpa using h), min_eq_left h]

theorem Value.pyMax_fin (a b : ℚ) : (if (Value.fin a).lt (.fin b) then Value.fin b else .fin a) = .fin (max b a) := by
  rw [Value.lt_fin]
  rcases lt_or_ge a b with h | h
  · rw [if_pos (decide_eq_true h), max_eq_left h.le]
  · rw [if_neg (by simpa using h), max_eq_right h]

theorem GripperMapping.apply_eq (hg : g.Sound) (h : Reaches leader g.srcIndex) :
    g.apply (leader.map Value.fin) = .ok (.fin (g.asked leader)) := by
  have hopened := Value.eq_rat hg.opened
  have hclosed := Value.eq_rat hg.closed
  have hunit : (Value.fin (pick leader g.srcIndex)).clip (.fin 0) (.fin 1) =
      .fin (min (max (pick leader g.srcIndex) 0) 1) := by
    unfold Value.clip
    rw [Value.maximum_fin, Value.minimum_fin]
  unfold GripperMapping.apply GripperMapping.asked GripperMapping.low GripperMapping.high
  rw [pyIndex_fin h, Except.map, hunit, hopened, hclosed]
  simp only [Value.fin_sub, Value.fin_mul, Value.fin_add, Value.pyMin_fin, Value.pyMax_fin]
  unfold Value.clip
  rw [Value.maximum_fin, Value.minimum_fin]
  rfl

theorem smooth_eq (alpha prev asked : ℚ) : prev * (1 - alpha) + asked * alpha = prev + alpha * (asked - prev) := by ring

theorem limitRate_eq (rate : Value) {dt : ℚ} (h : 1 / 1000000000 < dt) (prev v : ℚ) :
    Retargeter.limitRate rate dt (.fin prev) (.fin v) = .fin (rateCut rate dt prev v) := by
  unfold Retargeter.limitRate rateCut
  split
  next hfin =>
    rw [if_pos ⟨hfin, h⟩, Value.eq_rat hfin]
    unfold Value.clip
    simp only [Value.fin_mul, Value.fin_sub, Value.fin_add, Value.maximum_fin, Value.minimum_fin, Value.rat]
  next hinf => rw [if_neg (fun h => hinf h.1)]

theorem rateCut_early (rate : Value) {dt : ℚ} (h : ¬ 1 / 1000000000 < dt) (prev v : ℚ) : rateCut rate dt prev v = v :=
  if_neg fun h' => h h'.2

theorem ramp_eq {rampS : Value} (h : Value.lt (.fin 0) rampS = true) (elapsed : ℚ) :
    Retargeter.ramp elapsed rampS = .fin (Retargeter.ramp elapsed rampS).rat := by
  cases rampS with
  | nan => cases h
  | inf neg => rfl
  | fin s => rfl

/-! ## the arrays -/

section
variable {α β : Type} {cs : List α}

theorem mapM_fin {f : β → Except Exn Value} {x : α → β} {y : α → Value} (h : ∀ c ∈ cs, f (x c) = .ok (y c)) :
    (cs.map x).mapM f = .ok (cs.map y) := by
  induction cs with
  | nil => rfl
  | cons c cs ih =>
    rw [List.map_cons, List.mapM_cons, h c List.mem_cons_self, ih fun c' hc' => h c' (List.mem_cons_of_mem c hc')]
    rfl

theorem broadcast_map (f : Value → Value → Value) (x y : α → Value) :
    broadcast f (cs.map x) (cs.map y) = .ok (cs.map fun c => f (x c) (y c)) := by
  cases cs with
  | nil => rfl
  | cons c cs =>
    cases cs with
    | nil => rfl
    | cons c' cs =>
      show (if _ then Except.ok ((List.map x (c :: c' :: cs)).zipWith f (List.map y (c :: c' :: cs))) else _) = _
      rw [if_pos (by simp), List.zipWith_map, List.zipWith_self]

end

/-! ## one frame -/

variable {r : Retargeter} {k : Track} {now : ℚ}

theorem Tracks.smooth (h : Tracks r k) (hk : k.Sound) (asked : Driven → ℚ) (grip : ℚ) :
    r.smooth (k.joints.map fun c => .fin (asked c)) (.fin grip) =
      .ok (k.joints.map fun c => .fin (c.prev + k.alpha * (asked c - c.prev)),
        .fin (if k.gripper.isSome then k.prevGrip + k.alpha * (grip - k.prevGrip) else grip)) := by
  unfold Retargeter.smooth
  rw [h.prev, h.alpha, h.gripper]
  dsimp only
  by_cases hlt : k.alpha < 1
  · rw [if_pos (by rw [Value.lt_fin]; exact decide_eq_true hlt), broadcast_map]
    unfold Retargeter.mix
    simp only [Value.fin_sub, Value.fin_mul, Value.fin_add, smooth_eq, Except.map]
    congr 2
    split <;> rfl
  · have halpha : k.alpha = 1 := le_antisymm hk.alpha.2 (not_lt.mp hlt)
    rw [if_neg (by rw [Value.lt_fin, decide_eq_true_eq]; exact hlt)]
    simp only [halpha, one_mul, add_sub_cancel, ite_self]

theorem Tracks.softStart {s : Retargeter} (hstart : s.start = some (k.joints.map fun c => .fin c.start, .fin k.startGrip))
    (hramp : s.rampS = k.rampS) (hgripper : s.gripper = k.gripper) (helapsed : s.rampElapsed = k.elapsedAt now)
    (smooth : Driven → ℚ) (grip : ℚ) :
    s.softStart (k.joints.map fun c => .fin (smooth c)) (.fin grip) =
      .ok (k.joints.map fun c => .fin (((k.blend now).map fun b => c.start + b * (smooth c - c.start)).getD (smooth c)),
        .fin (if k.gripper.isSome then ((k.blend now).map fun b => k.startGrip + b * (grip - k.startGrip)).getD grip
          else grip)) := by
  unfold Retargeter.softStart Track.blend
  rw [hstart, hramp, hgripper, helapsed]
  dsimp only
  by_cases hlt : Value.lt (.fin 0) k.rampS = true
  · rw [if_pos hlt, if_pos hlt, ramp_eq hlt, broadcast_map]
    unfold Retargeter.blend
    simp only [Value.fin_sub, Value.fin_mul, Value.fin_add, Except.map, Option.map_some, Option.getD_some]
    congr 2
    split <;> rfl
  · rw [if_neg hlt, if_neg hlt]
    simp only [Option.map_none, Option.getD_none, ite_self]

theorem Tracks.rateLimit {s : Retargeter} (hjoints : s.joints = k.joints.map (·.mapping))
    (hprev : s.prev = some (k.joints.map fun c => .fin c.prev, .fin k.prevGrip)) (hgripper : s.gripper = k.gripper)
    (dt : ℚ) (soft : Driven → ℚ) (grip : ℚ) :
    s.rateLimit dt (k.joints.map fun c => .fin (soft c)) (.fin grip) =
      .ok (k.joints.map fun c => .fin (rateCut c.mapping.maxRate dt c.prev (soft c)),
        .fin ((k.gripper.map fun g => rateCut g.maxRateMS dt k.prevGrip grip).getD grip)) := by
  unfold Retargeter.rateLimit
  rw [hprev, hgripper, hjoints]
  dsimp only
  by_cases hdt : 1 / 1000000000 < dt
  · rw [if_pos hdt, if_neg (by rw [List.length_map, List.length_map]; exact lt_irrefl _)]
    rw [List.zip_map', List.zipWith_map, List.zipWith_self, List.length_map,
      List.drop_of_length_le (by rw [List.length_map]), List.append_nil]
    simp only [limitRate_eq _ hdt]
    congr 2
    cases k.gripper <;> rfl
  · rw [if_neg hdt]
    simp only [rateCut_early _ hdt]
    congr 2
    cases k.gripper <;> rfl

theorem ends_raised {σ α β : Type} {x : Except Exn β} {b : β} {f : β → EStateM Exn σ α} {s : σ} {Q : α → σ → Prop}
    {E : Exn → σ → Prop} (hx : x = .ok b) : Effect.Ends Q E (raising x >>= f) s ↔ Effect.Ends Q E (f b) s := by
  rw [hx]
  rfl

/-- the time since the last frame -/
def Retargeter.since (r : Retargeter) (now : ℚ) : ℚ :=
  match r.lastT with
  | none => 0
  | some t => max (now - t) 0

/-- the retargeter once the frame's time has been taken -/
def Retargeter.clocked (r : Retargeter) (now : ℚ) : Retargeter :=
  { r with
    lastT := some now
    rampElapsed := if Value.lt (.fin 0) r.rampS ∧ r.start.isSome then r.rampElapsed + r.since now else r.rampElapsed }

def Retargeter.gripAsked (r : Retargeter) (leader : List Value) : Except Exn Value :=
  match r.gripper with
  | some g => g.apply leader
  | none => .ok (.fin 0)

/-- a frame whose parts all return -/
theorem map_ends {leader desired : List Value} {grip : Value} {smooth soft limited : List Value × Value}
    {Q : Option (List Value × Value) → Retargeter → Prop} {E : Exn → Retargeter → Prop}
    (hfin : leader.all Value.isFinite = true)
    (hdesired : ((r.joints.zip (r.align.getD (r.joints.map fun _ => .fin 0))).mapM fun p => p.1.apply leader p.2) =
      .ok desired)
    (hgrip : r.gripAsked leader = .ok grip) (hsmooth : r.smooth desired grip = .ok smooth)
    (hsoft : (r.clocked now).softStart smooth.1 smooth.2 = .ok soft)
    (hlimited : (r.clocked now).rateLimit (r.since now) soft.1 soft.2 = .ok limited)
    (hQ : Q (some (r.joints.zipWith JointMapping.clamp limited.1, limited.2))
      { r.clocked now with
        prev := some (r.joints.zipWith JointMapping.clamp limited.1, limited.2)
        lastOk := some (r.joints.zipWith JointMapping.clamp limited.1, limited.2) }) :
    Effect.Ends Q E (Retargeter.map leader now) r := by
  unfold Retargeter.map
  rw [Effect.ends_bind, Effect.ends_get]
  refine Effect.ends_ite (fun hbad => absurd (hfin.symm.trans hbad) Bool.true_eq_false.mp) fun _ => ?_
  refine (ends_raised hdesired).mpr ((ends_raised hgrip).mpr ?_)
  rw [Effect.ends_bind, Effect.ends_modify]
  refine (ends_raised hsmooth).mpr ?_
  rw [Effect.ends_bind, Effect.ends_modify, Effect.ends_bind, Effect.ends_get]
  refine (ends_raised hsoft).mpr ((ends_raised hlimited).mpr ?_)
  rw [Effect.ends_bind, Effect.ends_modify]
  exact hQ

theorem Tracks.gripAsked (h : Tracks r k) (hk : k.Sound) {leader : List ℚ} (hreach : k.Reached leader) :
    r.gripAsked (leader.map Value.fin) = .ok (.fin ((k.gripper.map (·.asked leader)).getD 0)) := by
  unfold Retargeter.gripAsked
  rw [h.gripper]
  cases hgripper : k.gripper with
  | none => rfl
  | some g => exact GripperMapping.apply_eq (hk.gripper g hgripper).1 (hreach.2 g hgripper)

theorem Tracks.since (h : Tracks r k) (now : ℚ) : r.since now = k.dt now := by
  unfold Retargeter.since
  rw [h.lastT]
  rfl

theorem Tracks.elapsedAt (h : Tracks r k) (now : ℚ) : (r.clocked now).rampElapsed = k.elapsedAt now := by
  show (if _ then _ else _) = _
  rw [h.rampS, h.start, h.elapsed, h.since]
  unfold Track.elapsedAt
  simp only [Option.isSome_some, and_true]

/-- smoothing and the soft start aim as the track does -/
theorem Tracks.soft (h : Tracks r k) {leader : List ℚ} (now : ℚ) :
    (r.clocked now).softStart (k.joints.map fun c => .fin (c.prev + k.alpha * (c.asked leader - c.prev)))
        (.fin (if k.gripper.isSome then k.prevGrip + k.alpha * ((k.gripper.map (·.asked leader)).getD 0 - k.prevGrip)
          else (k.gripper.map (·.asked leader)).getD 0)) =
      .ok (k.joints.map fun c => .fin (c.aimed k.alpha (k.blend now) leader),
        .fin ((k.gripper.map (k.aimedGrip · leader now)).getD 0)) := by
  refine (Tracks.softStart (s := r.clocked now) h.start h.rampS h.gripper (h.elapsedAt now) _ _).trans ?_
  unfold Driven.aimed Track.aimedGrip
  cases k.blend now <;> cases k.gripper <;> rfl

/-- **The arithmetic of one frame.** -/
theorem map_tracks (h : Tracks r k) (hk : k.Sound) {leader : List ℚ} (hreach : k.Reached leader) (now : ℚ) :
    Effect.Ends (fun out r' =>
        out = some ((k.next leader now).joints.map fun c => .fin c.prev, .fin (k.next leader now).prevGrip) ∧
          Tracks r' (k.next leader now)) (fun _ _ => False)
      (Retargeter.map (leader.map Value.fin) now) r := by
  have hfin : (leader.map Value.fin).all Value.isFinite = true := by
    rw [List.all_map, List.all_eq_true]
    exact fun _ _ => rfl
  have hdesired : ((r.joints.zip (r.align.getD (r.joints.map fun _ => .fin 0))).mapM fun p =>
      p.1.apply (leader.map Value.fin) p.2) = .ok (k.joints.map fun c => .fin (c.asked leader)) := by
    rw [h.joints, h.align, Option.getD_some, List.zip_map']
    exact mapM_fin fun c hc => Driven.apply_eq (hk.joints c hc) (hreach.1 c hc)
  have hclamp : r.joints.zipWith JointMapping.clamp (k.joints.map fun c => .fin
      (rateCut c.mapping.maxRate (k.dt now) c.prev (c.aimed k.alpha (k.blend now) leader))) =
        (k.next leader now).joints.map fun c => .fin c.prev := by
    rw [h.joints, List.zipWith_map, List.zipWith_self]
    unfold Track.next
    rw [List.map_map]
    exact List.map_congr_left fun c hc => Value.clip_fin (hk.joints c hc).lower (hk.joints c hc).upper _
  have hlimited := Tracks.rateLimit (s := r.clocked now) h.joints h.prev h.gripper (k.dt now)
    (fun c => c.aimed k.alpha (k.blend now) leader) ((k.gripper.map (k.aimedGrip · leader now)).getD 0)
  have hgrip : ((k.gripper.map fun g => rateCut g.maxRateMS (k.dt now) k.prevGrip
      ((k.gripper.map (k.aimedGrip · leader now)).getD 0)).getD ((k.gripper.map (k.aimedGrip · leader now)).getD 0)) =
        k.nextGrip leader now := by
    unfold Track.nextGrip
    cases k.gripper <;> rfl
  rw [hgrip, ← h.since] at hlimited
  refine map_ends hfin hdesired (h.gripAsked hk hreach) (h.smooth hk _ _) (h.soft now) hlimited ?_
  rw [h.since]
  dsimp only
  rw [hclamp]
  refine ⟨rfl, ?_⟩
  have hmap : ∀ {α : Type} (f : Driven → α), (∀ c : Driven, ∀ q, f { c with prev := q } = f c) →
      (k.next leader now).joints.map f = k.joints.map f := by
    intro α f hf
    unfold Track.next
    rw [List.map_map]
    exact List.map_congr_left fun c _ => hf c _
  refine ⟨?_, ?_, ?_, rfl, h.gripper, h.alpha, h.rampS, h.elapsedAt now, rfl⟩
  · exact h.joints.trans (hmap _ fun _ _ => rfl).symm
  · exact h.align.trans (congrArg some (hmap _ fun _ _ => rfl).symm)
  · exact h.start.trans (congrArg (fun start => some (start, Value.fin k.startGrip)) (hmap _ fun _ _ => rfl).symm)

/-! ## the limits of one frame -/

theorem between_mix {lo hi a b w : ℚ} (ha : lo ≤ a ∧ a ≤ hi) (hb : lo ≤ b ∧ b ≤ hi) (hw : 0 ≤ w ∧ w ≤ 1) :
    lo ≤ a + w * (b - a) ∧ a + w * (b - a) ≤ hi := by
  have hsplit : a + w * (b - a) = (1 - w) * a + w * b := by ring
  have hrest : 0 ≤ 1 - w := sub_nonneg.mpr hw.2
  rw [hsplit]
  constructor
  · calc lo = (1 - w) * lo + w * lo := by ring
      _ ≤ (1 - w) * a + w * b := add_le_add (mul_le_mul_of_nonneg_left ha.1 hrest) (mul_le_mul_of_nonneg_left hb.1 hw.1)
  · calc (1 - w) * a + w * b ≤ (1 - w) * hi + w * hi :=
          add_le_add (mul_le_mul_of_nonneg_left ha.2 hrest) (mul_le_mul_of_nonneg_left hb.2 hw.1)
      _ = hi := by ring

theorem Track.Sound.elapsedAt (hk : k.Sound) (now : ℚ) : 0 ≤ k.elapsedAt now := by
  have hdt : 0 ≤ k.dt now := by
    unfold Track.dt
    cases k.lastT with
    | none => exact le_refl _
    | some t => exact le_max_right _ _
  unfold Track.elapsedAt
  split
  · exact add_nonneg hk.elapsed hdt
  · exact hk.elapsed

theorem Track.Sound.blend (hk : k.Sound) (now : ℚ) : ∀ b ∈ k.blend now, 0 ≤ b ∧ b ≤ 1 := by
  intro b hb
  unfold Track.blend at hb
  split at hb
  next hlt =>
    have helapsed := hk.elapsedAt now
    obtain rfl := Option.some.inj hb
    cases hramp : k.rampS with
    | nan => exact ⟨le_refl 0, zero_le_one⟩
    | inf neg => exact ⟨le_refl 0, zero_le_one⟩
    | fin s =>
      rw [hramp, Value.lt_fin, decide_eq_true_eq] at hlt
      exact ⟨le_min (div_nonneg helapsed hlt.le) zero_le_one, min_le_right _ _⟩
  next => cases hb

theorem GripperMapping.asked_mem (g : GripperMapping) (leader : List ℚ) : g.low ≤ g.asked leader ∧ g.asked leader ≤ g.high := by
  have hle : g.low ≤ g.high := (min_le_left _ _).trans (le_max_right _ _)
  exact ⟨le_min (le_max_right _ _) hle, min_le_right _ _⟩

theorem aim_between {lo hi alpha start prev asked : ℚ} {blend : Option ℚ} (halpha : 0 ≤ alpha ∧ alpha ≤ 1)
    (hblend : ∀ b ∈ blend, 0 ≤ b ∧ b ≤ 1) (hstart : lo ≤ start ∧ start ≤ hi) (hprev : lo ≤ prev ∧ prev ≤ hi)
    (hasked : lo ≤ asked ∧ asked ≤ hi) : lo ≤ aim alpha blend start prev asked ∧ aim alpha blend start prev asked ≤ hi := by
  have hsmooth := between_mix hprev hasked halpha
  cases blend with
  | none => exact hsmooth
  | some b => exact between_mix hstart hsmooth (hblend b rfl)

theorem rate_pos {rate : Value} (hrate : Value.lt (.fin 0) rate = true) (hfin : rate.isFinite = true) : 0 < rate.rat := by
  rw [Value.eq_rat hfin, Value.lt_fin, decide_eq_true_eq] at hrate
  exact hrate

/-- a rate brings a value no further than it asks -/
theorem rateCut_between {lo hi dt prev v : ℚ} {rate : Value} (hrate : Value.lt (.fin 0) rate = true)
    (hprev : lo ≤ prev ∧ prev ≤ hi) (hv : lo ≤ v ∧ v ≤ hi) : lo ≤ rateCut rate dt prev v ∧ rateCut rate dt prev v ≤ hi := by
  unfold rateCut
  split
  next h =>
    have hstep : 0 ≤ rate.rat * dt := mul_nonneg (rate_pos hrate h.1).le ((by norm_num : (0 : ℚ) ≤ 1 / 1000000000).trans h.2.le)
    exact ⟨le_min (hv.1.trans (le_max_left _ _)) (hprev.1.trans (le_add_of_nonneg_right hstep)),
      (min_le_left _ _).trans (max_le hv.2 ((sub_le_self _ hstep).trans hprev.2))⟩
  next => exact hv

theorem Track.Sound.next (hk : k.Sound) (leader : List ℚ) (now : ℚ) : (k.next leader now).Sound := by
  refine ⟨hk.alpha, ?_, fun g hg => ?_, hk.elapsedAt now⟩
  · intro c' hc'
    obtain ⟨c, hc, rfl⟩ := List.mem_map.mp hc'
    have hsound := hk.joints c hc
    obtain ⟨hlower, hupper⟩ := Value.cut_mem hsound.lower hsound.upper
      (rateCut c.mapping.maxRate (k.dt now) c.prev (c.aimed k.alpha (k.blend now) leader))
    exact ⟨hsound.offset, hsound.scale, hsound.sign, hlower, hupper, hsound.rate⟩
  · obtain ⟨hsound, hstart, hprev⟩ := hk.gripper g hg
    have hgrip : (k.next leader now).prevGrip = rateCut g.maxRateMS (k.dt now) k.prevGrip (k.aimedGrip g leader now) := by
      show k.nextGrip leader now = _
      unfold Track.nextGrip
      rw [show k.gripper = some g from hg]
    refine ⟨hsound, hstart, ?_⟩
    rw [hgrip]
    exact rateCut_between hsound.rate hprev
      (aim_between hk.alpha (hk.blend now) hstart hprev (g.asked_mem leader))

/-! ## the rate of one frame -/

/-- a limited value is within the rate, any other exactly where it is slow -/
theorem within_iff {rate lower upper : Value} {dt tau prev aimed : ℚ} (hrate : Value.lt (.fin 0) rate = true)
    (hlower : lower.le (.fin prev) = true) (hupper : Value.le (.fin prev) upper = true) (htau : 0 ≤ tau)
    (hdt : 1 / 1000000000 < dt → dt = tau) :
    Within rate tau prev (Value.cut lower upper (rateCut rate dt prev aimed)) ↔ Slow rate lower upper dt tau prev aimed := by
  unfold Within Slow
  refine forall_congr' fun hfin => ?_
  have hstep : 0 ≤ rate.rat * tau := mul_nonneg (rate_pos hrate hfin).le htau
  rw [Value.abs_cut_sub_le hlower hupper hstep]
  by_cases hlate : 1 / 1000000000 < dt
  · have hcut : rateCut rate dt prev aimed = min (max aimed (prev - rate.rat * tau)) (prev + rate.rat * tau) := by
      unfold rateCut
      rw [if_pos ⟨hfin, hlate⟩, hdt hlate]
    have hlow : prev - rate.rat * tau ≤ rateCut rate dt prev aimed := by
      rw [hcut]
      exact le_min (le_max_right _ _) ((sub_le_self _ hstep).trans (le_add_of_nonneg_right hstep))
    have hhigh : rateCut rate dt prev aimed ≤ prev + rate.rat * tau := by
      rw [hcut]
      exact min_le_right _ _
    exact ⟨fun _ => .inl hlate, fun _ =>
      ⟨(Value.atMost_le _ _).trans hhigh, hlow.trans (Value.le_atLeast _ _)⟩⟩
  · rw [rateCut_early rate hlate]
    exact ⟨.inr, fun h => h.resolve_left hlate⟩

theorem Track.Sound.kept_iff (hk : k.Sound) {tau : ℚ} (htau : 0 ≤ tau) (hdt : 1 / 1000000000 < k.dt now → k.dt now = tau)
    (leader : List ℚ) : k.Kept tau leader now ↔ k.AllSlow tau leader now := by
  refine and_congr (forall₂_congr fun c hc => ?_) (forall₂_congr fun g hg => ?_)
  · have hsound := hk.joints c hc
    exact within_iff hsound.rate hsound.lower hsound.upper htau hdt
  · have hgrip : k.nextGrip leader now =
        Value.cut (.inf true) (.inf false) (rateCut g.maxRateMS (k.dt now) k.prevGrip (k.aimedGrip g leader now)) := by
      unfold Track.nextGrip
      rw [show k.gripper = some g from hg]
      rfl
    rw [hgrip]
    exact within_iff (hk.gripper g hg).1.rate rfl rfl htau hdt

end

/-! ## runs from a takeover -/

structure Frame where
  leader : List ℚ
  now : ℚ

/-- one call, whatever it returns -/
def Retargeter.frame (r : Retargeter) (f : Frame) : Retargeter :=
  Effect.leaves (Retargeter.map (f.leader.map Value.fin) f.now) r

def Track.frame (k : Track) (f : Frame) : Track := k.next f.leader f.now

/-- a retargeter that takes over at `time`, with both postures -/
structure Takeover where
  retargeter : Retargeter
  leader : List ℚ
  arm : List ℚ
  grip : ℚ
  time : ℚ

namespace Takeover

/-- `auto_align`, then `reset` -/
def begin (t : Takeover) : EStateM Exn Retargeter PUnit := do
  Retargeter.autoAlign (t.leader.map Value.fin) (t.arm.map Value.fin)
  Retargeter.reset (t.arm.map Value.fin) (.fin t.grip)

/-- a joint that is not aligned yet -/
def placed (p : JointMapping × ℚ) : Driven := { mapping := p.1, align := 0, start := p.2, prev := p.2 }

def driven (t : Takeover) (p : JointMapping × ℚ) : Driven :=
  { placed p with align := p.2 - (placed p).asked t.leader }

def track (t : Takeover) : Track :=
  { joints := (t.retargeter.joints.zip t.arm).map t.driven
    gripper := t.retargeter.gripper
    alpha := t.retargeter.alpha.rat
    rampS := t.retargeter.rampS
    startGrip := t.grip
    prevGrip := t.grip }

/-- the time of the previous call, or of the takeover -/
def clock (t : Takeover) (k : Track) : ℚ := k.lastT.getD t.time

/-- finite numbers, the arm inside its limits and the finger between its ends -/
structure Fit (t : Takeover) : Prop where
  alpha : t.retargeter.alpha.isFinite = true
  length : t.arm.length = t.retargeter.joints.length
  reached : ∀ c ∈ t.track.joints, Reaches t.leader c.mapping.srcIndex
  sound : t.track.Sound

/-- the frames have every index, at times that do not decrease -/
structure Fed (t : Takeover) (frames : List Frame) : Prop where
  reached : ∀ f ∈ frames, t.track.Reached f.leader
  ordered : (t.time :: frames.map (·.now)).Pairwise (· ≤ ·)

end Takeover

section
variable {t : Takeover} {r : Retargeter} {k : Track} {leader : List ℚ}

theorem Takeover.Fit.begins (h : t.Fit) :
    Effect.Ends (fun _ r => Tracks r t.track) (fun _ _ => False) t.begin t.retargeter := by
  have hjoints : (t.retargeter.joints.zip t.arm).map (·.1) = t.retargeter.joints := List.map_fst_zip h.length.ge
  have harm : ((t.retargeter.joints.zip t.arm).map fun p => Value.fin p.2) = t.arm.map Value.fin := by
    conv_rhs => rw [← List.map_snd_zip h.length.le, List.map_map]
    rfl
  have happlied : (t.retargeter.joints.mapM fun j => j.apply (t.leader.map Value.fin) (.fin 0)) =
      .ok ((t.retargeter.joints.zip t.arm).map fun p => .fin ((Takeover.placed p).asked t.leader)) := by
    have hzip : (((t.retargeter.joints.zip t.arm).map (·.1)).mapM fun j => j.apply (t.leader.map Value.fin) (.fin 0)) =
        .ok ((t.retargeter.joints.zip t.arm).map fun p => .fin ((Takeover.placed p).asked t.leader)) := by
      refine mapM_fin fun p hp => ?_
      have hmem : t.driven p ∈ t.track.joints := List.mem_map_of_mem hp
      have hsound := h.sound.joints _ hmem
      exact Driven.apply_eq (c := Takeover.placed p)
        ⟨hsound.offset, hsound.scale, hsound.sign, hsound.lower, hsound.upper, hsound.rate⟩ (h.reached (t.driven p) hmem)
    rwa [hjoints] at hzip
  unfold Takeover.begin Retargeter.autoAlign
  rw [Effect.ends_bind, Effect.ends_bind, Effect.ends_get]
  refine Effect.ends_ite (fun hbad => absurd (by rw [List.length_map, h.length]) hbad) fun _ => ?_
  refine (ends_raised happlied).mpr ?_
  rw [Effect.ends_set, ← harm, List.zipWith_map, List.zipWith_self]
  have hmap : ∀ {α : Type} (f : Driven → α), t.track.joints.map f = (t.retargeter.joints.zip t.arm).map fun p => f (t.driven p) := by
    intro α f
    show (List.map t.driven _).map f = _
    rw [List.map_map]
    rfl
  refine ⟨?_, ?_, ?_, ?_, rfl, Value.eq_rat h.alpha, rfl, rfl, rfl⟩
  · exact hjoints.symm.trans (hmap (·.mapping)).symm
  · refine congrArg some ((hmap _).trans (List.map_congr_left fun p _ => ?_)).symm
    rw [Value.fin_sub]
    rfl
  · exact congrArg (fun arm => some (arm, Value.fin t.grip)) (hmap fun c => Value.fin c.start).symm
  · exact congrArg (fun arm => some (arm, Value.fin t.grip)) (hmap fun c => Value.fin c.prev).symm

/-- the first frame aims at the start where the leader has not moved -/
theorem Takeover.aimed_first (p : JointMapping × ℚ) (alpha : ℚ) (blend : Option ℚ) :
    (t.driven p).aimed alpha blend t.leader = p.2 := by
  have hasked : (t.driven p).asked t.leader = p.2 := by
    unfold Takeover.driven Driven.asked Takeover.placed
    ring
  unfold Driven.aimed
  rw [hasked]
  cases blend with
  | none =>
    show p.2 + alpha * (p.2 - p.2) = p.2
    ring
  | some b =>
    show p.2 + b * (p.2 + alpha * (p.2 - p.2) - p.2) = p.2
    ring

/-- the retargeter after the takeover -/
def Takeover.started (t : Takeover) : Retargeter := Effect.leaves t.begin t.retargeter

/-- the code and the track after the frames -/
structure Takeover.At (t : Takeover) (frames : List Frame) (r : Retargeter) (k : Track) : Prop where
  tracks : Tracks r k
  sound : k.Sound
  mapping : k.joints.map (·.mapping) = t.track.joints.map (·.mapping)
  gripper : k.gripper = t.track.gripper
  lastT : k.lastT = frames.getLast?.map (·.now)

theorem Track.Reached.congr {k' : Track} (h : k.Reached leader) (hmapping : k'.joints.map (·.mapping) = k.joints.map (·.mapping))
    (hgripper : k'.gripper = k.gripper) : k'.Reached leader := by
  refine ⟨fun c hc => ?_, fun g hg => h.2 g (hgripper ▸ hg)⟩
  have hmem : c.mapping ∈ k.joints.map (·.mapping) := hmapping ▸ List.mem_map_of_mem hc
  obtain ⟨c', hc', heq⟩ := List.mem_map.mp hmem
  rw [← heq]
  exact h.1 c' hc'

theorem Takeover.At.frame {frames : List Frame} (h : t.At frames r k) {f : Frame} (hreach : t.track.Reached f.leader) :
    Retargeter.map (f.leader.map Value.fin) f.now r =
        .ok (some ((k.frame f).joints.map fun c => .fin c.prev, .fin (k.frame f).prevGrip)) (r.frame f) ∧
      t.At (frames ++ [f]) (r.frame f) (k.frame f) := by
  have hends := map_tracks h.tracks h.sound (hreach.congr h.mapping h.gripper) f.now
  unfold Retargeter.frame Effect.leaves
  unfold Effect.Ends at hends
  cases hmap : Retargeter.map (f.leader.map Value.fin) f.now r with
  | error e r' =>
    rw [hmap] at hends
    exact hends.elim
  | ok out r' =>
    rw [hmap] at hends
    obtain ⟨rfl, htracks⟩ := hends
    refine ⟨rfl, htracks, h.sound.next _ _, ?_, h.gripper, by simp [Track.frame, Track.next]⟩
    rw [← h.mapping]
    show (List.map _ _).map _ = _
    rw [List.map_map]
    rfl

theorem Takeover.Fit.run (h : t.Fit) {frames : List Frame} (hfed : ∀ f ∈ frames, t.track.Reached f.leader) :
    t.At frames (Run.run Retargeter.frame t.started frames) (Run.run Track.frame t.track frames) := by
  induction frames using List.reverseRecOn with
  | nil =>
    refine ⟨?_, h.sound, rfl, rfl, rfl⟩
    have hbegins := h.begins
    show Tracks (Effect.leaves t.begin t.retargeter) t.track
    unfold Effect.Ends at hbegins
    unfold Effect.leaves
    cases hbegin : t.begin t.retargeter with
    | error e r' =>
      rw [hbegin] at hbegins
      exact hbegins.elim
    | ok out r' =>
      rw [hbegin] at hbegins
      exact hbegins
  | append_singleton frames f ih =>
    rw [Run.run_snoc, Run.run_snoc]
    exact ((ih fun f' hf' => hfed f' (List.mem_append_left _ hf')).frame (hfed f (by simp))).2

/-- the time that a call looks at is the time since the previous call, or nothing -/
theorem Takeover.At.dt {frames : List Frame} (h : t.At frames r k) {f : Frame} (hfed : t.Fed (frames ++ [f])) :
    0 ≤ f.now - t.clock k ∧ (1 / 1000000000 < k.dt f.now → k.dt f.now = f.now - t.clock k) := by
  have hordered := hfed.ordered
  rw [List.map_append, ← List.cons_append, List.pairwise_append] at hordered
  have hlast : ∀ x ∈ t.time :: frames.map (·.now), x ≤ f.now := fun x hx => hordered.2.2 x hx f.now (by simp)
  unfold Takeover.clock Track.dt
  rw [h.lastT]
  cases hcase : frames.getLast? with
  | none =>
    refine ⟨sub_nonneg.mpr (hlast t.time List.mem_cons_self), fun hlate => ?_⟩
    norm_num at hlate
  | some last =>
    have hle := hlast last.now (List.mem_cons_of_mem _ (List.mem_map_of_mem (List.mem_of_getLast? hcase)))
    exact ⟨sub_nonneg.mpr hle, fun _ => max_eq_left (sub_nonneg.mpr hle)⟩

/-- the first frame returns the arm where it is if the leader has not moved -/
theorem Takeover.Fit.first (h : t.Fit) (now : ℚ) : (t.track.next t.leader now).joints.map (·.prev) = t.arm := by
  have hstill : ∀ p ∈ t.retargeter.joints.zip t.arm,
      (t.driven p).next t.track.alpha (t.track.blend now) (t.track.dt now) t.leader = p.2 := by
    intro p hp
    have hsound := h.sound.joints (t.driven p) (List.mem_map_of_mem hp)
    unfold Driven.next
    rw [Takeover.aimed_first, rateCut_early _ (by show ¬ (1 / 1000000000 : ℚ) < 0; norm_num)]
    exact Value.cut_self hsound.lower hsound.upper
  show (List.map _ (List.map t.driven _)).map _ = _
  rw [List.map_map, List.map_map]
  exact (List.map_congr_left hstill).trans (List.map_snd_zip h.length.le)

/-- **The limits of the retargeter**: takeover without a jump, joints and finger inside their limits, and the rates exactly where
the frame is slow. -/
theorem retargeter_limits (t : Takeover) (h : t.Fit) {frames : List Frame} (hfed : t.Fed frames) :
    t.begin t.retargeter = .ok ⟨⟩ t.started ∧
      ∀ before f, before ++ [f] <+: frames →
        let r := Run.run Retargeter.frame t.started before
        let k := Run.run Track.frame t.track before
        Tracks r k ∧
          Retargeter.map (f.leader.map Value.fin) f.now r =
            .ok (some ((k.frame f).joints.map fun c => .fin c.prev, .fin (k.frame f).prevGrip)) (r.frame f) ∧
          (before = [] → f.leader = t.leader → (k.frame f).joints.map (·.prev) = t.arm) ∧
          (∀ c ∈ (k.frame f).joints, c.mapping.lower.le (.fin c.prev) = true ∧ Value.le (.fin c.prev) c.mapping.upper = true) ∧
          (∀ g ∈ t.retargeter.gripper, g.low ≤ (k.frame f).prevGrip ∧ (k.frame f).prevGrip ≤ g.high) ∧
          (k.Kept (f.now - t.clock k) f.leader f.now ↔ k.AllSlow (f.now - t.clock k) f.leader f.now) := by
  refine ⟨?_, fun before f hbefore => ?_⟩
  · have hbegins := h.begins
    unfold Takeover.started Effect.leaves
    unfold Effect.Ends at hbegins
    cases hbegin : t.begin t.retargeter with
    | error e r' =>
      rw [hbegin] at hbegins
      exact hbegins.elim
    | ok out r' => rfl
  · have hreached : ∀ f' ∈ before ++ [f], t.track.Reached f'.leader := fun f' hf' => hfed.reached f' (hbefore.subset hf')
    have hat := h.run fun f' hf' => hreached f' (List.mem_append_left _ hf')
    have hshort : t.Fed (before ++ [f]) :=
      ⟨hreached, hfed.ordered.sublist ((hbefore.map _).sublist.cons_cons _)⟩
    obtain ⟨hreturns, hnext⟩ := hat.frame (hreached f (by simp))
    obtain ⟨htau, hdt⟩ := hat.dt hshort
    refine ⟨hat.tracks, hreturns, ?_, fun c hc => ⟨(hnext.sound.joints c hc).lower, (hnext.sound.joints c hc).upper⟩, ?_,
      hat.sound.kept_iff htau hdt _⟩
    · rintro rfl hleader
      unfold Track.frame
      rw [hleader]
      exact h.first f.now
    · intro g hg
      rw [show t.retargeter.gripper = t.track.gripper from rfl, ← hnext.gripper] at hg
      exact (hnext.sound.gripper g hg).2.2

end

/-- one joint at most 1 rad/s, without smoothing or soft start, taken over at 0 -/
def oneJoint : Takeover :=
  { retargeter := { joints := [{ srcIndex := 0, maxRate := .fin 1 }], nonempty := by simp, alpha := .fin 1 }
    leader := [0]
    arm := [0]
    grip := 0
    time := 0 }

theorem oneJoint_fit : oneJoint.Fit := by
  have hmem : ∀ c ∈ oneJoint.track.joints, c = oneJoint.driven ({ srcIndex := 0, maxRate := .fin 1 }, 0) :=
    fun c hc => List.mem_singleton.mp hc
  refine ⟨rfl, rfl, ?_, ⟨by decide +kernel, by decide +kernel⟩, ?_, nofun, le_refl _⟩
  · intro c hc
    rw [hmem c hc]
    exact ⟨by decide, by decide⟩
  · intro c hc
    rw [hmem c hc]
    exact ⟨rfl, rfl, rfl, rfl, rfl, rfl⟩

/-- the takeover of one joint, and a frame with the leader where it was -/
theorem retargeter_limits_oneJoint :
    ∃ r, oneJoint.begin oneJoint.retargeter = .ok ⟨⟩ r ∧
      Retargeter.map [.fin 0] 1 r = .ok (some ([.fin 0], .fin 0)) (r.frame ⟨[0], 1⟩) := by
  have hfed : oneJoint.Fed [⟨[0], 1⟩] := by
    refine ⟨fun f hf => ?_, by decide +kernel⟩
    obtain rfl := List.mem_singleton.mp hf
    exact ⟨oneJoint_fit.reached, nofun⟩
  have hvalue : (((oneJoint.track.frame ⟨[0], 1⟩).joints.map fun c => Value.fin c.prev,
      Value.fin (oneJoint.track.frame ⟨[0], 1⟩).prevGrip)) = ([.fin 0], .fin 0) := by decide +kernel
  have h := retargeter_limits oneJoint oneJoint_fit hfed
  have hreturns := (h.2 [] ⟨[0], 1⟩ (List.prefix_refl _)).2.1
  rw [Run.run_nil, Run.run_nil, hvalue] at hreturns
  exact ⟨_, h.1, hreturns⟩

/-- what a call returned -/
def Retargeter.returned (r : Retargeter) (leader : List Value) (now : ℚ) : Option (List Value × Value) :=
  match Retargeter.map leader now r with
  | .ok out _ => out
  | .error _ _ => none

/-- a hundredth of a second after the takeover the joint jumps by 1 rad -/
theorem first_jump :
    oneJoint.started.returned [.fin 1] (1 / 100) = some ([.fin 1], .fin 0) ∧
      ¬ |(1 : ℚ) - 0| ≤ (1 : ℚ) * (1 / 100 - oneJoint.time) :=
  ⟨by decide +kernel, by decide +kernel⟩

end ArmControl.LeaderFollower
