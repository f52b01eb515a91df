import ArmControl.Control.JogHold
import ArmControl.Lib.Braking

/-!
# What the ramp respects, and that it arrives

In exact real arithmetic.

* `Inside`, `Steady`      the envelope, and what every tick leaves: a speed from which it can brake before a bound;
* `over_never`            the exact landing is never needed: the aim is no further than the target;
* `Closing`, `Returning`  towards the target within the braking law, and back from just past it;
* `reaches`               from every steady state a held target is reached in finitely many ticks;
* `jog_ramp_limits`       position, speed and acceleration along every stream, and the arrival.
-/

namespace ArmControl.Control
open Braking

namespace JointLimits

variable {l : JointLimits ℝ} {dt t q v e x lo hi : ℝ}

/-- positive limits, and a tick of some length -/
structure Proper (l : JointLimits ℝ) (dt : ℝ) : Prop where
  vMax : 0 < l.vMax
  aMax : 0 < l.aMax
  dt : 0 < dt

/-- what the speed may change in a tick -/
def slack (l : JointLimits ℝ) (dt : ℝ) : ℝ := l.aMax * dt

theorem Proper.slack (h : Proper l dt) : 0 < l.slack dt := mul_pos h.aMax h.dt

/-- within the bounds -/
def Inside (l : JointLimits ℝ) (x : ℝ) : Prop := ∀ b ∈ l.bounds, b.1 ≤ x ∧ x ≤ b.2

/-! ## clipping -/

theorem clip_neg (h : lo ≤ hi) : clip (-x) (-hi) (-lo) = -clip x lo hi := by
  unfold clip
  rw [max_neg_neg, min_neg_neg, neg_inj, max_comm, max_min_distrib_left, max_comm lo x, max_eq_right h]

theorem clip_of_mem (h : lo ≤ x) (h' : x ≤ hi) : clip x lo hi = x := by
  unfold clip
  rw [max_eq_left h, min_eq_left h']

theorem clip_of_le (h : x ≤ lo) (hle : lo ≤ hi) : clip x lo hi = lo := by
  unfold clip
  rw [max_eq_right h, min_eq_left hle]

theorem clip_of_ge (h : hi ≤ x) : clip x lo hi = hi := by
  unfold clip
  rw [min_eq_right (h.trans (le_max_left x lo))]

theorem le_clip (h : lo ≤ hi) : lo ≤ clip x lo hi := le_min (le_max_right _ _) h

theorem clip_le : clip x lo hi ≤ hi := min_le_right _ _

theorem clip_le_max : clip x lo hi ≤ max x lo := min_le_left _ _

theorem min_le_clip : min x hi ≤ clip x lo hi := min_le_min_right _ (le_max_left _ _)

/-! ## the speed that a tick wants -/

/-- towards the target, within the limits -/
noncomputable def aim (l : JointLimits ℝ) (dt e : ℝ) : ℝ :=
  clip (e / dt) (-l.cap Real.sqrt dt e) (l.cap Real.sqrt dt e)

theorem cap_eq : l.cap Real.sqrt dt e = min l.vMax (brake (l.slack dt) dt |e|) := rfl

theorem cap_nonneg (h : Proper l dt) : 0 ≤ l.cap Real.sqrt dt e := by
  rw [cap_eq]
  exact le_min h.vMax.le (brake_nonneg h.slack h.dt (abs_nonneg e))

theorem cap_neg : l.cap Real.sqrt dt (-e) = l.cap Real.sqrt dt e := by
  rw [cap_eq, cap_eq, abs_neg]

theorem aim_neg (h : Proper l dt) : l.aim dt (-e) = -l.aim dt e := by
  have hcap := cap_nonneg (e := e) h
  have hclip := clip_neg (x := e / dt) ((neg_nonpos.mpr hcap).trans hcap)
  rw [neg_neg] at hclip
  unfold aim
  rw [cap_neg, neg_div, hclip]

theorem aim_nonneg (h : Proper l dt) (he : 0 ≤ e) : 0 ≤ l.aim dt e :=
  (le_min (div_nonneg he h.dt.le) (cap_nonneg h)).trans min_le_clip

theorem aim_eq (h : Proper l dt) (he : 0 ≤ e) : l.aim dt e = min (e / dt) (l.cap Real.sqrt dt e) := by
  have hcap := cap_nonneg (e := e) h
  unfold aim clip
  rw [max_eq_left ((neg_nonpos.mpr hcap).trans (div_nonneg he h.dt.le))]

/-- the aim is no further than the target -/
theorem aim_le (h : Proper l dt) (he : 0 ≤ e) : l.aim dt e ≤ e / dt := (aim_eq h he).trans_le (min_le_left _ _)

theorem aim_le_brake (h : Proper l dt) (he : 0 ≤ e) : l.aim dt e ≤ brake (l.slack dt) dt e := by
  rw [aim_eq h he, cap_eq, abs_of_nonneg he]
  exact (min_le_right _ _).trans (min_le_right _ _)

/-- an aim below both limits is the target -/
theorem aim_last (h : Proper l dt) (he : 0 ≤ e) (hslow : l.aim dt e < min l.vMax (l.slack dt)) :
    l.aim dt e = e / dt := by
  rw [aim_eq h he, cap_eq, abs_of_nonneg he] at hslow ⊢
  refine min_eq_left (le_of_not_gt fun hfar => not_le_of_gt hslow ?_)
  rw [min_eq_right hfar.le]
  rcases le_or_gt e (l.slack dt * dt) with hnear | hbeyond
  · have hway := le_brake_near h.slack h.dt he hnear
    rcases min_lt_iff.mp hfar with hmax | hbrake
    · exact (min_le_left _ _).trans (le_min le_rfl (hmax.le.trans hway))
    · exact absurd (hbrake.trans_le hway) (lt_irrefl _)
  · exact min_le_min_left _ (le_brake_far h.slack h.dt hbeyond.le)

theorem abs_aim_le (h : Proper l dt) : |l.aim dt e| ≤ l.vMax := by
  have hcap := cap_nonneg (e := e) h
  have hle : l.cap Real.sqrt dt e ≤ l.vMax := min_le_left _ _
  rw [abs_le]
  exact ⟨(neg_le_neg hle).trans (le_clip ((neg_nonpos.mpr hcap).trans hcap)), clip_le.trans hle⟩

theorem demand_eq : l.demand Real.sqrt dt e v = clip (l.aim dt e) (v - l.slack dt) (v + l.slack dt) := rfl

theorem slack_le (h : Proper l dt) : v - l.slack dt ≤ v + l.slack dt := by
  have := h.slack
  linarith

theorem demand_neg (h : Proper l dt) : l.demand Real.sqrt dt (-e) (-v) = -l.demand Real.sqrt dt e v := by
  have hclip := clip_neg (x := l.aim dt e) (slack_le (v := v) h)
  rw [demand_eq, demand_eq, aim_neg h, ← hclip]
  congr 1 <;> ring

theorem abs_demand_sub_le (h : Proper l dt) : |l.demand Real.sqrt dt e v - v| ≤ l.slack dt := by
  rw [demand_eq, abs_le]
  have h₁ := le_clip (x := l.aim dt e) (slack_le (v := v) h)
  have h₂ : clip (l.aim dt e) (v - l.slack dt) (v + l.slack dt) ≤ v + l.slack dt := clip_le
  constructor <;> linarith

theorem abs_demand_le (h : Proper l dt) (hv : |v| ≤ l.vMax) : |l.demand Real.sqrt dt e v| ≤ l.vMax := by
  have haim := abs_le.mp (abs_aim_le (e := e) h)
  have hv' := abs_le.mp hv
  have hs := h.slack
  rw [demand_eq, abs_le]
  constructor
  · exact (le_min haim.1 (by linarith)).trans min_le_clip
  · exact clip_le_max.trans (max_le haim.2 (by linarith))

/-- **The exact landing is never needed**: only the bound on the acceleration carries past the target, and
then the stop is not within it. -/
theorem over_never (h : Proper l dt) :
    ¬ ((e - l.demand Real.sqrt dt e v * dt) * e < 0 ∧ |e / dt - v| ≤ l.aMax * dt) := by
  have hup : ∀ e v : ℝ, 0 < e → e - l.demand Real.sqrt dt e v * dt < 0 → l.slack dt < |e / dt - v| := by
    intro e v he hover
    have hlt : e / dt < l.demand Real.sqrt dt e v := (div_lt_iff₀ h.dt).mpr (sub_neg.mp hover)
    have hle : l.demand Real.sqrt dt e v ≤ max (l.aim dt e) (v - l.slack dt) := clip_le_max
    have haim := aim_le h he.le
    rcases le_max_iff.mp hle with hle | hle
    · exact absurd (hlt.trans_le (hle.trans haim)) (lt_irrefl _)
    · rw [lt_abs]
      right
      linarith
  rintro ⟨hover, hstop⟩
  rcases lt_trichotomy e 0 with he | rfl | he
  · have hneg : 0 < e - l.demand Real.sqrt dt e v * dt := pos_of_mul_neg_left hover he.le
    have := hup (-e) (-v) (neg_pos.mpr he) (by rw [demand_neg h]; linarith)
    rw [neg_div, neg_sub_neg, abs_sub_comm] at this
    exact absurd (this.trans_le hstop) (lt_irrefl _)
  · rw [mul_zero] at hover
    exact lt_irrefl _ hover
  · exact absurd ((hup e v he (neg_of_mul_neg_left hover he.le)).trans_le hstop) (lt_irrefl _)

theorem speed_eq (h : Proper l dt) : l.speed Real.sqrt dt e v = l.demand Real.sqrt dt e v := if_neg (over_never h)

/-! ## the mirrored joint -/

def mirror (l : JointLimits ℝ) : JointLimits ℝ := { l with bounds := l.bounds.map fun b => (-b.2, -b.1) }

theorem Proper.mirror (h : Proper l dt) : Proper l.mirror dt := ⟨h.vMax, h.aMax, h.dt⟩

theorem Inside.mirror (h : l.Inside x) : l.mirror.Inside (-x) := by
  intro b hb
  obtain ⟨b', hb', rfl⟩ := Option.mem_map.mp hb
  exact ⟨neg_le_neg (h b' hb').2, neg_le_neg (h b' hb').1⟩

/-- a target and a command within the bounds: the band is the bounds -/
theorem band_inside (ht : l.Inside t) (hq : l.Inside q) : l.band t q = l.bounds := by
  unfold band
  cases hb : l.bounds with
  | none => rfl
  | some b =>
    rw [Option.map_some, min_eq_left (le_min (ht b hb).1 (hq b hb).1), max_eq_left (max_le (ht b hb).2 (hq b hb).2)]

/-- the tick's speed, before a bound stops it -/
noncomputable def next (l : JointLimits ℝ) (dt t q v : ℝ) : ℝ := l.demand Real.sqrt dt (t - q) v

/-- the tick ends on a bound -/
noncomputable def stops (l : JointLimits ℝ) (dt t q v : ℝ) : Bool :=
  l.stopped t q (q + l.speed Real.sqrt dt (t - q) v * dt)

/-- a tick that no bound stops -/
theorem step_free (h : Proper l dt) (ht : l.Inside t) (hq : l.Inside q) (hin : l.Inside (q + l.next dt t q v * dt)) :
    l.step Real.sqrt dt t q v = (q + l.next dt t q v * dt, l.next dt t q v) ∧ l.stops dt t q v = false := by
  unfold step stops stopped
  rw [speed_eq h, band_inside ht hq]
  cases hb : l.bounds with
  | none => exact ⟨rfl, rfl⟩
  | some b =>
    have hclip := clip_of_mem (hin b hb).1 (hin b hb).2
    have hstop : ¬ (q + l.next dt t q v * dt < b.1 ∨ b.2 < q + l.next dt t q v * dt) :=
      not_or.mpr ⟨not_lt_of_ge (hin b hb).1, not_lt_of_ge (hin b hb).2⟩
    have hfalse := decide_eq_false hstop
    refine ⟨?_, hfalse⟩
    show (clip (q + l.next dt t q v * dt) b.1 b.2,
      if decide (q + l.next dt t q v * dt < b.1 ∨ b.2 < q + l.next dt t q v * dt) = true then 0 else l.next dt t q v) = _
    rw [hclip, hfalse, if_neg Bool.false_ne_true]

/-- a tick that the upper bound stops -/
theorem step_upper (h : Proper l dt) (ht : l.Inside t) (hq : l.Inside q) {b : ℝ × ℝ} (hb : l.bounds = some b)
    (hover : b.2 < q + l.next dt t q v * dt) :
    l.step Real.sqrt dt t q v = (b.2, 0) ∧ l.stops dt t q v = true := by
  unfold step stops stopped
  rw [speed_eq h, band_inside ht hq, hb]
  have htrue := decide_eq_true (Or.inr (a := q + l.next dt t q v * dt < b.1) hover)
  refine ⟨?_, htrue⟩
  show (clip (q + l.next dt t q v * dt) b.1 b.2,
    if decide (q + l.next dt t q v * dt < b.1 ∨ b.2 < q + l.next dt t q v * dt) = true then 0 else l.next dt t q v) = _
  rw [clip_of_ge hover.le, htrue, if_pos rfl]

/-- a tick that the lower bound stops -/
theorem step_lower (h : Proper l dt) (ht : l.Inside t) (hq : l.Inside q) {b : ℝ × ℝ} (hb : l.bounds = some b)
    (hunder : q + l.next dt t q v * dt < b.1) :
    l.step Real.sqrt dt t q v = (b.1, 0) ∧ l.stops dt t q v = true := by
  unfold step stops stopped
  rw [speed_eq h, band_inside ht hq, hb]
  have htrue := decide_eq_true (Or.inl (b := b.2 < q + l.next dt t q v * dt) hunder)
  have hle : b.1 ≤ b.2 := (hq b hb).1.trans (hq b hb).2
  refine ⟨?_, htrue⟩
  show (clip (q + l.next dt t q v * dt) b.1 b.2,
    if decide (q + l.next dt t q v * dt < b.1 ∨ b.2 < q + l.next dt t q v * dt) = true then 0 else l.next dt t q v) = _
  rw [clip_of_le hunder.le hle, htrue, if_pos rfl]

/-- no bound stops the tick, or the upper one, or the lower one -/
theorem tick_cases (l : JointLimits ℝ) (dt t q v : ℝ) :
    l.Inside (q + l.next dt t q v * dt) ∨ (∃ b, l.bounds = some b ∧ b.2 < q + l.next dt t q v * dt) ∨
      ∃ b, l.bounds = some b ∧ q + l.next dt t q v * dt < b.1 := by
  cases hb : l.bounds with
  | none =>
    left
    unfold Inside
    rw [hb]
    exact fun b hmem => absurd hmem nofun
  | some b =>
    rcases lt_or_ge b.2 (q + l.next dt t q v * dt) with hover | hin
    · exact .inr (.inl ⟨b, rfl, hover⟩)
    · rcases lt_or_ge (q + l.next dt t q v * dt) b.1 with hunder | hin'
      · exact .inr (.inr ⟨b, rfl, hunder⟩)
      · left
        intro b' hb'
        obtain rfl := Option.some.inj (hb.symm.trans hb')
        exact ⟨hin', hin⟩

theorem next_mirror (h : Proper l dt) : l.mirror.next dt (-t) (-q) (-v) = -l.next dt t q v := by
  unfold next
  rw [← demand_neg h, neg_sub_neg, neg_sub]
  rfl

theorem moved_mirror (h : Proper l dt) :
    -q + l.mirror.next dt (-t) (-q) (-v) * dt = -(q + l.next dt t q v * dt) := by
  rw [next_mirror h]
  ring

theorem step_mirror (h : Proper l dt) (ht : l.Inside t) (hq : l.Inside q) :
    l.mirror.step Real.sqrt dt (-t) (-q) (-v) =
        (-(l.step Real.sqrt dt t q v).1, -(l.step Real.sqrt dt t q v).2) ∧
      l.mirror.stops dt (-t) (-q) (-v) = l.stops dt t q v := by
  rcases tick_cases l dt t q v with hin | ⟨b, hb, hover⟩ | ⟨b, hb, hunder⟩
  · obtain ⟨hstep, hstop⟩ := step_free h ht hq hin
    obtain ⟨hstep', hstop'⟩ := step_free h.mirror ht.mirror hq.mirror (v := -v) (by rw [moved_mirror h]; exact hin.mirror)
    rw [hstep, hstop, hstep', hstop', moved_mirror h, next_mirror h]
    exact ⟨rfl, rfl⟩
  · obtain ⟨hstep, hstop⟩ := step_upper h ht hq hb hover
    have hb' : l.mirror.bounds = some (-b.2, -b.1) := congrArg (Option.map _) hb
    obtain ⟨hstep', hstop'⟩ := step_lower h.mirror ht.mirror hq.mirror (v := -v) hb'
      (by rw [moved_mirror h]; exact neg_lt_neg hover)
    rw [hstep, hstop, hstep', hstop', neg_zero]
    exact ⟨rfl, rfl⟩
  · obtain ⟨hstep, hstop⟩ := step_lower h ht hq hb hunder
    have hb' : l.mirror.bounds = some (-b.2, -b.1) := congrArg (Option.map _) hb
    obtain ⟨hstep', hstop'⟩ := step_upper h.mirror ht.mirror hq.mirror (v := -v) hb'
      (by rw [moved_mirror h]; exact neg_lt_neg hunder)
    rw [hstep, hstop, hstep', hstop', neg_zero]
    exact ⟨rfl, rfl⟩

/-! ## what a tick leaves -/

/-- within the limits, and able to brake before a bound -/
structure Steady (l : JointLimits ℝ) (dt q v : ℝ) : Prop where
  inside : l.Inside q
  speed : |v| ≤ l.vMax
  upper : ∀ b ∈ l.bounds, v - l.slack dt ≤ brake (l.slack dt) dt (b.2 - q)
  lower : ∀ b ∈ l.bounds, -v - l.slack dt ≤ brake (l.slack dt) dt (q - b.1)

theorem Steady.mirror (h : Steady l dt q v) : Steady l.mirror dt (-q) (-v) := by
  refine ⟨h.inside.mirror, by rw [abs_neg]; exact h.speed, fun b hb => ?_, fun b hb => ?_⟩
  · obtain ⟨b', hb', rfl⟩ := Option.mem_map.mp hb
    rw [neg_sub_neg]
    exact h.lower b' hb'
  · obtain ⟨b', hb', rfl⟩ := Option.mem_map.mp hb
    rw [neg_sub_neg, neg_neg]
    exact h.upper b' hb'

/-- at rest within the bounds -/
theorem steady_rest (h : Proper l dt) (hq : l.Inside q) : Steady l dt q 0 := by
  refine ⟨hq, by rw [abs_zero]; exact h.vMax.le, fun b hb => ?_, fun b hb => ?_⟩
  · have := brake_nonneg h.slack h.dt (sub_nonneg.mpr (hq b hb).2)
    have := h.slack
    linarith
  · have := brake_nonneg h.slack h.dt (sub_nonneg.mpr (hq b hb).1)
    have := h.slack
    linarith

/-- the tick's speed is within the braking law before the upper bound -/
theorem next_le_brake (h : Proper l dt) (hs : Steady l dt q v) (ht : l.Inside t) {b : ℝ × ℝ} (hb : b ∈ l.bounds) :
    l.next dt t q v ≤ brake (l.slack dt) dt (b.2 - q) := by
  have hroom := sub_nonneg.mpr (hs.inside b hb).2
  refine clip_le_max.trans (max_le ?_ (hs.upper b hb))
  rcases le_or_gt 0 (t - q) with he | he
  · exact (aim_le_brake h he).trans (brake_mono h.slack h.dt he (sub_le_sub_right (ht b hb).2 q))
  · have haim := aim_nonneg h (neg_nonneg.mpr he.le)
    rw [aim_neg h] at haim
    exact (neg_nonneg.mp haim).trans (brake_nonneg h.slack h.dt hroom)

theorem Steady.step (h : Proper l dt) (hs : Steady l dt q v) (ht : l.Inside t) :
    Steady l dt (l.step Real.sqrt dt t q v).1 (l.step Real.sqrt dt t q v).2 := by
  have hup : ∀ {l : JointLimits ℝ} {t q v : ℝ}, Proper l dt → Steady l dt q v → l.Inside t →
      l.Inside (q + l.next dt t q v * dt) → ∀ b ∈ l.bounds,
        l.next dt t q v - l.slack dt ≤ brake (l.slack dt) dt (b.2 - (q + l.next dt t q v * dt)) := by
    intro l t q v h hs ht hin b hb
    rw [← sub_sub]
    refine brake_after h.slack h.dt (sub_nonneg.mpr (hs.inside b hb).2) (next_le_brake h hs ht hb) ?_
    have := (hin b hb).2
    linarith
  rcases tick_cases l dt t q v with hin | ⟨b, hb, hover⟩ | ⟨b, hb, hunder⟩
  · rw [(step_free h ht hs.inside hin).1]
    refine ⟨hin, abs_demand_le h hs.speed, hup h hs ht hin, fun b hb => ?_⟩
    have hmir := hup h.mirror hs.mirror ht.mirror (by rw [moved_mirror h]; exact hin.mirror) (-b.2, -b.1)
      (Option.mem_map.mpr ⟨b, hb, rfl⟩)
    rw [moved_mirror h, next_mirror h, neg_sub_neg] at hmir
    exact hmir
  · rw [(step_upper h ht hs.inside hb hover).1]
    exact steady_rest h fun b' hb' => by
      obtain rfl := Option.some.inj (hb.symm.trans hb')
      exact ⟨(hs.inside b hb).1.trans (hs.inside b hb).2, le_rfl⟩
  · rw [(step_lower h ht hs.inside hb hunder).1]
    exact steady_rest h fun b' hb' => by
      obtain rfl := Option.some.inj (hb.symm.trans hb')
      exact ⟨le_rfl, (hs.inside b hb).1.trans (hs.inside b hb).2⟩

/-- passing the upper bound, a tick is slower than `slack` -/
theorem over_slow (h : Proper l dt) (hs : Steady l dt q v) (ht : l.Inside t) {b : ℝ × ℝ} (hb : b ∈ l.bounds)
    (hover : b.2 < q + l.next dt t q v * dt) : 0 < l.next dt t q v ∧ l.next dt t q v < l.slack dt :=
  overshoot_slow h.slack h.dt (sub_nonneg.mpr (hs.inside b hb).2) (next_le_brake h hs ht hb) (sub_lt_iff_lt_add'.mpr hover)

/-- the way of a tick, over its length -/
noncomputable def travel (l : JointLimits ℝ) (dt t q v : ℝ) : ℝ := ((l.step Real.sqrt dt t q v).1 - q) / dt

theorem travel_mirror (h : Proper l dt) (ht : l.Inside t) (hq : l.Inside q) :
    l.mirror.travel dt (-t) (-q) (-v) = -l.travel dt t q v := by
  unfold travel
  rw [(step_mirror h ht hq).1, ← neg_div]
  congr 1
  ring

/-- what a tick does: its own speed, or a stop within the speed that it wanted -/
structure Moves (l : JointLimits ℝ) (dt t q v : ℝ) : Prop where
  fast : |l.travel dt t q v| ≤ l.vMax
  free : l.stops dt t q v = false → l.travel dt t q v = (l.step Real.sqrt dt t q v).2 ∧
    |l.travel dt t q v - v| ≤ l.slack dt
  stop : l.stops dt t q v = true → (l.step Real.sqrt dt t q v).2 = 0 ∧ |l.travel dt t q v| ≤ l.slack dt ∧
    |l.travel dt t q v - v| ≤ 2 * l.slack dt

theorem Moves.of_mirror (h : Proper l dt) (ht : l.Inside t) (hq : l.Inside q)
    (hm : Moves l.mirror dt (-t) (-q) (-v)) : Moves l dt t q v := by
  obtain ⟨hstep, hstops⟩ := step_mirror (v := v) h ht hq
  obtain ⟨hfast, hfree, hstop⟩ := hm
  rw [travel_mirror h ht hq] at hfast hfree hstop
  rw [hstep, hstops, neg_sub_neg, abs_sub_comm] at hfree hstop
  rw [abs_neg] at hfast hstop
  exact ⟨hfast, fun hfalse => ⟨neg_inj.mp (hfree hfalse).1, (hfree hfalse).2⟩,
    fun htrue => ⟨neg_eq_zero.mp (hstop htrue).1, (hstop htrue).2⟩⟩

theorem Moves.upper (h : Proper l dt) (hs : Steady l dt q v) (ht : l.Inside t) {b : ℝ × ℝ} (hb : l.bounds = some b)
    (hover : b.2 < q + l.next dt t q v * dt) : Moves l dt t q v := by
  obtain ⟨hstep, hstops⟩ := step_upper h ht hs.inside hb hover
  obtain ⟨hpos, hslow⟩ := over_slow h hs ht hb hover
  have htravel : l.travel dt t q v = (b.2 - q) / dt := by unfold travel; rw [hstep]
  have hback : 0 ≤ (b.2 - q) / dt := div_nonneg (sub_nonneg.mpr (hs.inside b hb).2) h.dt.le
  have hless : (b.2 - q) / dt < l.next dt t q v := (div_lt_iff₀ h.dt).mpr (sub_lt_iff_lt_add'.mpr hover)
  have hnext := abs_le.mp (abs_demand_sub_le (e := t - q) (v := v) h)
  have hmax := (abs_le.mp (abs_demand_le (e := t - q) h hs.speed)).2
  change -l.slack dt ≤ l.next dt t q v - v ∧ l.next dt t q v - v ≤ l.slack dt at hnext
  change l.next dt t q v ≤ l.vMax at hmax
  refine ⟨?_, fun hfalse => absurd (hstops.symm.trans hfalse) nofun, fun _ => ⟨by rw [hstep], ?_, ?_⟩⟩
  · rw [htravel, abs_of_nonneg hback]
    linarith
  · rw [htravel, abs_of_nonneg hback]
    linarith
  · rw [htravel, abs_le]
    constructor <;> linarith

/-- **One tick** from a steady state -/
theorem moves (h : Proper l dt) (hs : Steady l dt q v) (ht : l.Inside t) : Moves l dt t q v := by
  rcases tick_cases l dt t q v with hin | ⟨b, hb, hover⟩ | ⟨b, hb, hunder⟩
  · obtain ⟨hstep, hstops⟩ := step_free h ht hs.inside hin
    have htravel : l.travel dt t q v = l.next dt t q v := by
      unfold travel
      rw [hstep, add_sub_cancel_left, mul_div_cancel_right₀ _ h.dt.ne']
    refine ⟨?_, fun _ => ⟨by rw [htravel, hstep], ?_⟩, fun htrue => absurd (hstops.symm.trans htrue) nofun⟩
    · rw [htravel]
      exact abs_demand_le h hs.speed
    · rw [htravel]
      exact abs_demand_sub_le h
  · exact Moves.upper h hs ht hb hover
  · refine Moves.of_mirror h ht hs.inside (Moves.upper h.mirror hs.mirror ht.mirror (b := (-b.2, -b.1)) ?_ ?_)
    · exact congrArg (Option.map _) hb
    · rw [moved_mirror h]
      exact neg_lt_neg hunder

/-! ## the arrival -/

/-- a held target is reached, and kept -/
def Reaches (l : JointLimits ℝ) (dt t q v : ℝ) : Prop :=
  ∃ T, ∀ m ≥ T, ((fun p : ℝ × ℝ => l.step Real.sqrt dt t p.1 p.2)^[m] (q, v)).1 = t

theorem Reaches.of_step (h : Reaches l dt t (l.step Real.sqrt dt t q v).1 (l.step Real.sqrt dt t q v).2) :
    Reaches l dt t q v := by
  obtain ⟨T, hT⟩ := h
  refine ⟨T + 1, fun m hm => ?_⟩
  obtain ⟨k, rfl⟩ := Nat.exists_eq_add_of_le' (Nat.one_le_of_lt hm)
  rw [Function.iterate_succ_apply]
  exact hT k (Nat.le_of_succ_le_succ hm)

/-- the ticks towards a held target -/
theorem steady_ticks (h : Proper l dt) (hs : Steady l dt q v) (ht : l.Inside t) (m : ℕ) :
    Steady l dt ((fun p : ℝ × ℝ => l.step Real.sqrt dt t p.1 p.2)^[m] (q, v)).1
      ((fun p : ℝ × ℝ => l.step Real.sqrt dt t p.1 p.2)^[m] (q, v)).2 := by
  induction m with
  | zero => exact hs
  | succ m ih =>
    rw [Function.iterate_succ_apply']
    exact ih.step h ht

theorem ticks_mirror (h : Proper l dt) (hs : Steady l dt q v) (ht : l.Inside t) (m : ℕ) :
    (fun p : ℝ × ℝ => l.mirror.step Real.sqrt dt (-t) p.1 p.2)^[m] (-q, -v) =
      (-((fun p : ℝ × ℝ => l.step Real.sqrt dt t p.1 p.2)^[m] (q, v)).1,
        -((fun p : ℝ × ℝ => l.step Real.sqrt dt t p.1 p.2)^[m] (q, v)).2) := by
  induction m with
  | zero => rfl
  | succ m ih =>
    rw [Function.iterate_succ_apply', Function.iterate_succ_apply', ih]
    exact (step_mirror h ht (steady_ticks h hs ht m).inside).1

theorem Reaches.of_mirror (h : Proper l dt) (hs : Steady l dt q v) (ht : l.Inside t)
    (hr : Reaches l.mirror dt (-t) (-q) (-v)) : Reaches l dt t q v := by
  obtain ⟨T, hT⟩ := hr
  refine ⟨T, fun m hm => neg_inj.mp ?_⟩
  rw [← hT m hm, ticks_mirror h hs ht m]

/-- on the target, and able to stop there -/
structure Landed (l : JointLimits ℝ) (dt t q v : ℝ) : Prop where
  there : q = t
  slow : |v| ≤ l.slack dt

theorem Landed.step (h : Proper l dt) (ht : l.Inside t) (hl : Landed l dt t q v) :
    l.step Real.sqrt dt t q v = (t, 0) := by
  obtain ⟨rfl, hslow⟩ := hl
  have hcap := cap_nonneg (l := l) (e := 0) h
  have hnext : l.next dt q q v = 0 := by
    unfold next
    rw [sub_self, demand_eq, aim_eq h le_rfl, zero_div, min_eq_left hcap]
    obtain ⟨h₁, h₂⟩ := abs_le.mp hslow
    exact clip_of_mem (by linarith) (by linarith)
  have hmoved : q + l.next dt q q v * dt = q := by rw [hnext, zero_mul, add_zero]
  rw [(step_free h ht ht (by rw [hmoved]; exact ht)).1, hmoved, hnext]

theorem Landed.reaches (h : Proper l dt) (ht : l.Inside t) (hl : Landed l dt t q v) : Reaches l dt t q v := by
  have hkept : ∀ m, Landed l dt t ((fun p : ℝ × ℝ => l.step Real.sqrt dt t p.1 p.2)^[m] (q, v)).1
      ((fun p : ℝ × ℝ => l.step Real.sqrt dt t p.1 p.2)^[m] (q, v)).2 := by
    intro m
    induction m with
    | zero => exact hl
    | succ m ih =>
      rw [Function.iterate_succ_apply', ih.step h ht]
      exact ⟨rfl, by rw [abs_zero]; exact h.slack.le⟩
  exact ⟨0, fun m _ => (hkept m).there⟩

/-- between the command and the target there is no bound -/
theorem inside_between (ht : l.Inside t) (hq : l.Inside q) (h₁ : q ≤ x) (h₂ : x ≤ t) : l.Inside x :=
  fun b hb => ⟨(hq b hb).1.trans h₁, h₂.trans (ht b hb).2⟩

/-- just past the target, from where one tick lands on it -/
structure Returning (l : JointLimits ℝ) (dt t q v : ℝ) : Prop where
  ahead : 0 ≤ t - q
  away : v ≤ 0
  short : (t - q) / dt ≤ l.vMax
  near : (t - q) / dt ≤ l.slack dt + v

theorem Returning.step (h : Proper l dt) (hs : Steady l dt q v) (ht : l.Inside t) (hr : Returning l dt t q v) :
    Landed l dt t (l.step Real.sqrt dt t q v).1 (l.step Real.sqrt dt t q v).2 := by
  have hway : 0 ≤ (t - q) / dt := div_nonneg hr.ahead h.dt.le
  have hslow : (t - q) / dt ≤ l.slack dt := by linarith [hr.near, hr.away]
  have hbrake := le_brake_near h.slack h.dt hr.ahead ((div_le_iff₀ h.dt).mp hslow)
  have haim : l.aim dt (t - q) = (t - q) / dt := by
    rw [aim_eq h hr.ahead, cap_eq, abs_of_nonneg hr.ahead]
    exact min_eq_left (le_min hr.short hbrake)
  have hnext : l.next dt t q v = (t - q) / dt := by
    unfold next
    rw [demand_eq, haim]
    refine clip_of_mem ?_ ?_
    · linarith [hr.away, h.slack]
    · linarith [hr.near]
  have hmoved : q + l.next dt t q v * dt = t := by
    rw [hnext, div_mul_cancel₀ _ h.dt.ne', add_sub_cancel]
  rw [(step_free h ht hs.inside (by rw [hmoved]; exact ht)).1, hmoved, hnext]
  exact ⟨rfl, by rw [abs_of_nonneg hway]; exact hslow⟩

/-- towards the target, and after one tick of braking within the law -/
structure Closing (l : JointLimits ℝ) (dt t q v : ℝ) : Prop where
  ahead : 0 ≤ t - q
  towards : 0 ≤ v
  law : v - l.slack dt ≤ brake (l.slack dt) dt (t - q)

/-- a tick that does not pass the target keeps closing -/
theorem closing_free (h : Proper l dt) (hs : Steady l dt q v) (ht : l.Inside t) (he : 0 ≤ t - q)
    (hpos : 0 ≤ l.next dt t q v) (haim : l.next dt t q v ≤ l.aim dt (t - q)) :
    l.step Real.sqrt dt t q v = (q + l.next dt t q v * dt, l.next dt t q v) ∧
      Closing l dt t (q + l.next dt t q v * dt) (l.next dt t q v) := by
  have hway : l.next dt t q v * dt ≤ t - q := (le_div_iff₀ h.dt).mp (haim.trans (aim_le h he))
  have hmove : 0 ≤ l.next dt t q v * dt := mul_nonneg hpos h.dt.le
  refine ⟨(step_free h ht hs.inside (inside_between ht hs.inside ?_ ?_)).1, ?_, hpos, ?_⟩
  · linarith
  · linarith
  · linarith
  · rw [← sub_sub]
    exact brake_after h.slack h.dt he (haim.trans (aim_le_brake h he)) (sub_nonneg.mpr hway)

/-- past the target, by a tick that was slower than `slack` -/
theorem passed (h : Proper l dt) (hs : Steady l dt q v) (ht : l.Inside t) (he : 0 ≤ t - q)
    (hlaw : l.next dt t q v ≤ brake (l.slack dt) dt (t - q)) (hover : t - q < l.next dt t q v * dt) :
    Returning l.mirror dt (-t) (-(l.step Real.sqrt dt t q v).1) (-(l.step Real.sqrt dt t q v).2) := by
  obtain ⟨hpos, hslow⟩ := overshoot_slow h.slack h.dt he hlaw hover
  have hfar : (t - q) / dt < l.next dt t q v := (div_lt_iff₀ h.dt).mpr hover
  have hway : 0 ≤ (t - q) / dt := div_nonneg he h.dt.le
  have hnear := brake_near_le h.slack h.dt he ((div_le_iff₀ h.dt).mp (hfar.trans hslow).le)
  have hmax : l.next dt t q v ≤ l.vMax := (abs_le.mp (abs_demand_le h hs.speed)).2
  have hfree : ∀ x : ℝ, t ≤ x → x ≤ q + l.next dt t q v * dt → (x - t) / dt ≤ l.next dt t q v - (t - q) / dt := by
    intro x _ hx
    rw [div_le_iff₀ h.dt, sub_mul, div_mul_cancel₀ _ h.dt.ne']
    linarith
  rcases tick_cases l dt t q v with hin | ⟨b, hb, hup⟩ | ⟨b, hb, hunder⟩
  · have hback := hfree _ (by linarith) le_rfl
    rw [(step_free h ht hs.inside hin).1]
    refine ⟨?_, neg_nonpos.mpr hpos.le, ?_, ?_⟩
    · rw [neg_sub_neg]
      linarith
    · rw [neg_sub_neg]
      show _ ≤ l.vMax
      linarith
    · rw [neg_sub_neg]
      show _ ≤ l.slack dt + _
      linarith
  · have hback := hfree b.2 (ht b hb).2 hup.le
    rw [(step_upper h ht hs.inside hb hup).1, neg_zero]
    refine ⟨?_, le_rfl, ?_, ?_⟩
    · rw [neg_sub_neg]
      exact sub_nonneg.mpr (ht b hb).2
    · rw [neg_sub_neg]
      show _ ≤ l.vMax
      linarith
    · rw [neg_sub_neg]
      show _ ≤ l.slack dt + _
      linarith
  · have hle := (hs.inside b hb).1
    have hmove : 0 < l.next dt t q v * dt := mul_pos hpos h.dt
    linarith

/-- what a closing tick does: it lands, or gets nearer, or passes the target by a little -/
theorem Closing.step (h : Proper l dt) (hs : Steady l dt q v) (ht : l.Inside t) (hc : Closing l dt t q v) :
    Landed l dt t (l.step Real.sqrt dt t q v).1 (l.step Real.sqrt dt t q v).2 ∨
      (Closing l dt t (l.step Real.sqrt dt t q v).1 (l.step Real.sqrt dt t q v).2 ∧
        t - (l.step Real.sqrt dt t q v).1 ≤ t - q - min l.vMax (l.slack dt) * dt) ∨
      Returning l.mirror dt (-t) (-(l.step Real.sqrt dt t q v).1) (-(l.step Real.sqrt dt t q v).2) := by
  have haim := aim_nonneg h hc.ahead
  have haim_eq := aim_eq h hc.ahead
  rw [cap_eq, abs_of_nonneg hc.ahead] at haim_eq
  have hnext : l.next dt t q v = clip (l.aim dt (t - q)) (v - l.slack dt) (v + l.slack dt) := rfl
  rcases lt_or_ge (l.aim dt (t - q)) (v - l.slack dt) with hfast | hbraked
  · -- it brakes as hard as it may, and still passes the target
    rw [clip_of_le hfast.le (slack_le h)] at hnext
    have hlaw : l.next dt t q v ≤ brake (l.slack dt) dt (t - q) := hnext.trans_le hc.law
    have hvmax := (abs_le.mp hs.speed).2
    have hshort : (t - q) / dt < l.next dt t q v := by
      rw [hnext]
      refine lt_of_not_ge fun hle => not_le_of_gt hfast ?_
      rw [haim_eq]
      exact le_min hle (le_min (by linarith [h.slack]) hc.law)
    exact .inr (.inr (passed h hs ht hc.ahead hlaw ((div_lt_iff₀ h.dt).mp hshort)))
  · rcases lt_or_ge (v + l.slack dt) (l.aim dt (t - q)) with hslow | hreach
    · -- it speeds up as hard as it may
      rw [clip_of_ge hslow.le] at hnext
      have hpos : 0 ≤ l.next dt t q v := by rw [hnext]; linarith [hc.towards, h.slack]
      obtain ⟨hstep, hclosing⟩ := closing_free h hs ht hc.ahead hpos (hnext.trans_le hslow.le)
      refine .inr (.inl ?_)
      rw [hstep]
      refine ⟨hclosing, ?_⟩
      have hfast : min l.vMax (l.slack dt) * dt ≤ l.next dt t q v * dt := by
        refine mul_le_mul_of_nonneg_right ((min_le_right _ _).trans ?_) h.dt.le
        linarith [hc.towards]
      linarith
    · -- it goes at the speed that it aims at
      rw [clip_of_mem hbraked hreach] at hnext
      obtain ⟨hstep, hclosing⟩ := closing_free h hs ht hc.ahead (haim.trans_eq hnext.symm) hnext.le
      rw [hstep]
      rcases le_or_gt (min l.vMax (l.slack dt)) (l.aim dt (t - q)) with hfast | hfew
      · refine .inr (.inl ⟨hclosing, ?_⟩)
        have hway := mul_le_mul_of_nonneg_right hfast h.dt.le
        rw [hnext]
        linarith
      · left
        have hlast := aim_last h hc.ahead hfew
        have hmoved : q + l.next dt t q v * dt = t := by
          rw [hnext, hlast, div_mul_cancel₀ _ h.dt.ne', add_sub_cancel]
        rw [hmoved, hnext]
        exact ⟨rfl, by rw [abs_of_nonneg haim]; exact hfew.le.trans (min_le_right _ _)⟩

/-- each closing tick covers a fixed distance, until one lands or passes -/
theorem Closing.reaches (h : Proper l dt) (ht : l.Inside t) (k : ℕ) :
    ∀ {q v}, Steady l dt q v → Closing l dt t q v → t - q ≤ k * (min l.vMax (l.slack dt) * dt) →
      Reaches l dt t q v := by
  induction k with
  | zero =>
    intro q v hs hc hleft
    rw [Nat.cast_zero, zero_mul] at hleft
    have hthere : q = t := by linarith [hc.ahead]
    have hlaw := hc.law
    rw [hthere, sub_self, brake_zero, sub_nonpos] at hlaw
    exact Landed.reaches h ht ⟨hthere, by rw [abs_of_nonneg hc.towards]; exact hlaw⟩
  | succ k ih =>
    intro q v hs hc hleft
    have hs' := hs.step h ht
    refine Reaches.of_step ?_
    rcases hc.step h hs ht with hland | ⟨hclose, hnear⟩ | hpast
    · exact hland.reaches h ht
    · refine ih hs' hclose (hnear.trans ?_)
      rw [Nat.cast_succ, add_one_mul] at hleft
      linarith
    · exact Reaches.of_mirror h hs' ht
        (Reaches.of_step ((hpast.step h.mirror hs'.mirror ht.mirror).reaches h.mirror ht.mirror))

theorem Closing.arrives (h : Proper l dt) (hs : Steady l dt q v) (ht : l.Inside t) (hc : Closing l dt t q v) :
    Reaches l dt t q v := by
  obtain ⟨k, hk⟩ := Archimedean.arch (t - q) (mul_pos (lt_min h.vMax h.slack) h.dt)
  rw [nsmul_eq_mul] at hk
  exact Closing.reaches h ht k hs hc hk

/-- a tick on the target's side: it closes, or it has slowed down by `slack` -/
theorem slowed (h : Proper l dt) (hs : Steady l dt q v) (ht : l.Inside t) (he : 0 ≤ t - q) :
    Closing l dt t q v ∨ Closing l dt t (l.step Real.sqrt dt t q v).1 (l.step Real.sqrt dt t q v).2 ∨
      |(l.step Real.sqrt dt t q v).2| ≤ max 0 (|v| - l.slack dt) := by
  have hslack := h.slack
  have hend : ∀ w : ℝ, l.next dt t q v = w → |w| ≤ |v| - l.slack dt →
      |(l.step Real.sqrt dt t q v).2| ≤ max 0 (|v| - l.slack dt) := by
    intro w hnext hw
    rcases tick_cases l dt t q v with hin | ⟨b, hb, hup⟩ | ⟨b, hb, hunder⟩
    · rw [(step_free h ht hs.inside hin).1, hnext]
      exact le_max_of_le_right hw
    · rw [(step_upper h ht hs.inside hb hup).1, abs_zero]
      exact le_max_left _ _
    · rw [(step_lower h ht hs.inside hb hunder).1, abs_zero]
      exact le_max_left _ _
  have haim := aim_nonneg h he
  have hnext : l.next dt t q v = clip (l.aim dt (t - q)) (v - l.slack dt) (v + l.slack dt) := rfl
  rcases le_or_gt 0 v with hv | hv
  · rcases le_or_gt (v - l.slack dt) (brake (l.slack dt) dt (t - q)) with hlaw | hlaw
    · exact .inl ⟨he, hv, hlaw⟩
    · -- faster than the law allows: it brakes as hard as it may
      have hpos := (brake_nonneg h.slack h.dt he).trans_lt hlaw
      rw [clip_of_le ((aim_le_brake h he).trans hlaw.le) (slack_le h)] at hnext
      refine .inr (.inr (hend _ hnext ?_))
      rw [abs_of_nonneg hv, abs_of_pos hpos]
  · right
    rcases lt_or_ge (v + l.slack dt) 0 with haway | hturn
    · -- still moving away
      rw [clip_of_ge (haway.le.trans haim)] at hnext
      refine .inr (hend _ hnext ?_)
      rw [abs_of_neg hv, abs_of_neg haway]
      linarith
    · -- it turns round
      left
      have hpos : 0 ≤ l.next dt t q v := (le_min haim hturn).trans min_le_clip
      have hlow : v - l.slack dt ≤ l.aim dt (t - q) := by linarith
      have hle : l.next dt t q v ≤ l.aim dt (t - q) := clip_le_max.trans (max_le le_rfl hlow)
      obtain ⟨hstep, hclosing⟩ := closing_free h hs ht he hpos hle
      rw [hstep]
      exact hclosing

/-- **The arrival**: from every steady state a held target is reached -/
theorem reaches (h : Proper l dt) (hs : Steady l dt q v) (ht : l.Inside t) : Reaches l dt t q v := by
  have hfrom : ∀ k : ℕ, ∀ {l : JointLimits ℝ} {t q v : ℝ}, Proper l dt → Steady l dt q v → l.Inside t → 0 ≤ t - q →
      |v| ≤ k * l.slack dt → Reaches l dt t q v := by
    intro k
    induction k with
    | zero =>
      intro l t q v h hs ht he hv
      rw [Nat.cast_zero, zero_mul] at hv
      have hrest : v = 0 := abs_nonpos_iff.mp hv
      have hbrake := brake_nonneg h.slack h.dt he
      exact Closing.arrives h hs ht ⟨he, hrest.ge, by linarith [h.slack]⟩
    | succ k ih =>
      intro l t q v h hs ht he hv
      rcases slowed h hs ht he with hc | hc | hslow
      · exact hc.arrives h hs ht
      · exact (hc.arrives h (hs.step h ht) ht).of_step
      · have hs' := hs.step h ht
        rw [Nat.cast_succ, add_one_mul] at hv
        have hk : (0 : ℝ) ≤ k * l.slack dt := mul_nonneg k.cast_nonneg h.slack.le
        have hleft := hslow.trans (max_le hk (by linarith))
        refine Reaches.of_step ?_
        rcases le_total 0 (t - (l.step Real.sqrt dt t q v).1) with he' | he'
        · exact ih h hs' ht he' hleft
        · exact Reaches.of_mirror h hs' ht
            (ih h.mirror hs'.mirror ht.mirror (by linarith) (by rw [abs_neg]; exact hleft))
  obtain ⟨k, hk⟩ := Archimedean.arch |v| h.slack
  rw [nsmul_eq_mul] at hk
  rcases le_total 0 (t - q) with he | he
  · exact hfrom k h hs ht he hk
  · exact Reaches.of_mirror h hs ht
      (hfrom k h.mirror hs.mirror ht.mirror (by linarith) (by rw [abs_neg]; exact hk))

end JointLimits

/-! ## the stream -/

namespace JogRamp
open JointLimits

variable {n : ℕ} {dt : ℝ}

theorem proper (r : JogRamp ℝ n) (hdt : 0 < dt) (j : Fin n) : Proper (r.limits j) dt :=
  ⟨(r.positive j).1, (r.positive j).2, hdt⟩

section
variable (r : JogRamp ℝ n) (targets measured : ℕ → Fin n → ℝ) (dt : ℝ)

theorem limits_run (j : Fin n) (k : ℕ) : (r.run Real.sqrt targets measured dt k).limits j = r.limits j := by
  induction k with
  | zero => rfl
  | succ k ih => exact ih

/-- one joint's tick -/
theorem ticked (k : ℕ) (j : Fin n) :
    (r.commanded Real.sqrt targets measured dt (k + 1) j, (r.run Real.sqrt targets measured dt (k + 1)).velocity j) =
      (r.limits j).step Real.sqrt dt (targets k j) (r.commanded Real.sqrt targets measured dt k j)
        ((r.run Real.sqrt targets measured dt k).velocity j) := by
  rw [← limits_run r targets measured dt j k]
  rfl

/-- only the targets so far have been read -/
theorem run_congr {targets' : ℕ → Fin n → ℝ} {k : ℕ} (h : ∀ i < k, targets' i = targets i) :
    r.run Real.sqrt targets' measured dt k = r.run Real.sqrt targets measured dt k := by
  induction k with
  | zero => rfl
  | succ k ih =>
    unfold run
    rw [ih fun i hi => h i (Nat.lt_succ_of_lt hi), h k (Nat.lt_succ_self k)]

theorem traveled_eq (k : ℕ) (j : Fin n) :
    r.traveled Real.sqrt targets measured dt k j =
      (r.limits j).travel dt (targets k j) (r.commanded Real.sqrt targets measured dt k j)
        ((r.run Real.sqrt targets measured dt k).velocity j) := by
  unfold traveled travel
  rw [← ticked r targets measured dt k j]

end

section
variable {r : JogRamp ℝ n} {targets measured : ℕ → Fin n → ℝ} {j : Fin n}

/-- every tick of a stream inside the envelope starts from a steady state -/
theorem steady (hdt : 0 < dt) (hrest : r.velocity j = 0) (hstart : (r.limits j).Inside (r.position (measured 0) j))
    (htargets : ∀ k, (r.limits j).Inside (targets k j)) (k : ℕ) :
    Steady (r.limits j) dt (r.commanded Real.sqrt targets measured dt k j)
      ((r.run Real.sqrt targets measured dt k).velocity j) := by
  induction k with
  | zero =>
    show Steady (r.limits j) dt (r.position (measured 0) j) (r.velocity j)
    rw [hrest]
    exact steady_rest (r.proper hdt j) hstart
  | succ k ih =>
    obtain ⟨hq, hv⟩ := Prod.ext_iff.mp (ticked r targets measured dt k j)
    have hnext := ih.step (r.proper hdt j) (htargets k)
    rw [← hq, ← hv] at hnext
    exact hnext

/-- the ramp's speed and the way of the tick before: the same, or rest after a stop -/
theorem traveled_before (hdt : 0 < dt) (hrest : r.velocity j = 0)
    (hstart : (r.limits j).Inside (r.position (measured 0) j)) (htargets : ∀ k, (r.limits j).Inside (targets k j))
    (k : ℕ) :
    (r.stoppedBefore Real.sqrt targets measured dt k j = false →
        r.traveledBefore Real.sqrt targets measured dt k j = (r.run Real.sqrt targets measured dt k).velocity j) ∧
      (r.stoppedBefore Real.sqrt targets measured dt k j = true →
        (r.run Real.sqrt targets measured dt k).velocity j = 0 ∧
          |r.traveledBefore Real.sqrt targets measured dt k j| ≤ (r.limits j).slack dt) := by
  cases k with
  | zero => exact ⟨fun _ => hrest.symm, nofun⟩
  | succ k =>
    have hv := congrArg Prod.snd (ticked r targets measured dt k j)
    change (r.run Real.sqrt targets measured dt (k + 1)).velocity j = _ at hv
    have hmoves := moves (r.proper hdt j) (steady hdt hrest hstart htargets k) (htargets k)
    show (r.stopsAt Real.sqrt targets measured dt k j = false → r.traveled Real.sqrt targets measured dt k j = _) ∧
      (r.stopsAt Real.sqrt targets measured dt k j = true → _ ∧ |r.traveled Real.sqrt targets measured dt k j| ≤ _)
    rw [traveled_eq, hv]
    exact ⟨fun hfree => (hmoves.free hfree).1, fun hstop => ⟨(hmoves.stop hstop).1, (hmoves.stop hstop).2.1⟩⟩

/-- the change of speed in a tick -/
theorem speed_change (hdt : 0 < dt) (hrest : r.velocity j = 0)
    (hstart : (r.limits j).Inside (r.position (measured 0) j)) (htargets : ∀ k, (r.limits j).Inside (targets k j))
    (k : ℕ) :
    (r.stopsAt Real.sqrt targets measured dt k j = false → r.stoppedBefore Real.sqrt targets measured dt k j = false →
        |r.traveled Real.sqrt targets measured dt k j - r.traveledBefore Real.sqrt targets measured dt k j| ≤
          r.aMax j * dt) ∧
      |r.traveled Real.sqrt targets measured dt k j - r.traveledBefore Real.sqrt targets measured dt k j| ≤
        2 * (r.aMax j * dt) := by
  obtain ⟨-, hfree, hstop⟩ := moves (r.proper hdt j) (steady hdt hrest hstart htargets k) (htargets k)
  obtain ⟨hsame, hrested⟩ := traveled_before hdt hrest hstart htargets k
  rw [← traveled_eq r targets measured dt k j] at hfree hstop
  have hslack : 0 < r.aMax j * dt := (r.proper hdt j).slack
  cases hnow : r.stopsAt Real.sqrt targets measured dt k j with
  | false =>
    obtain ⟨-, hchange⟩ := hfree hnow
    cases hbefore : r.stoppedBefore Real.sqrt targets measured dt k j with
    | false =>
      rw [hsame hbefore]
      exact ⟨fun _ _ => hchange, hchange.trans (by show r.aMax j * dt ≤ _; linarith)⟩
    | true =>
      obtain ⟨hzero, hslow⟩ := hrested hbefore
      rw [hzero, sub_zero] at hchange
      refine ⟨fun _ hfalse => absurd hfalse nofun, (abs_sub _ _).trans ?_⟩
      rw [two_mul]
      exact add_le_add hchange hslow
  | true =>
    obtain ⟨-, hslow, hchange⟩ := hstop hnow
    refine ⟨fun hfalse => absurd hfalse nofun, ?_⟩
    cases hbefore : r.stoppedBefore Real.sqrt targets measured dt k j with
    | false =>
      rw [hsame hbefore]
      exact hchange
    | true =>
      refine (abs_sub _ _).trans ?_
      rw [two_mul]
      exact add_le_add hslow (hrested hbefore).2

/-- while a target is held, the ramp goes on from where it was -/
theorem held (r : JogRamp ℝ n) (targets measured : ℕ → Fin n → ℝ) (j : Fin n) {t : Fin n → ℝ} {K m : ℕ}
    (hheld : ∀ i < m, targets (K + i) = t) :
    (r.commanded Real.sqrt targets measured dt (K + m) j, (r.run Real.sqrt targets measured dt (K + m)).velocity j) =
      (fun p : ℝ × ℝ => (r.limits j).step Real.sqrt dt (t j) p.1 p.2)^[m]
        (r.commanded Real.sqrt targets measured dt K j, (r.run Real.sqrt targets measured dt K).velocity j) := by
  induction m with
  | zero => rfl
  | succ m ih =>
    have hnow := hheld m (Nat.lt_succ_self m)
    have hone := ticked r targets measured dt (K + m) j
    rw [Function.iterate_succ_apply', ← ih fun i hi => hheld i (Nat.lt_succ_of_lt hi), ← hnow]
    exact hone

/-- **The ramp's limits.**  Every commanded position is inside the envelope, no tick is faster than `v_max`, no speed
changes by more than `a_max * dt` but at a stop on a bound and right after it, where it is at most twice that, and a
target that is held long enough is reached exactly and kept. -/
theorem jog_ramp_limits (r : JogRamp ℝ n) (targets measured : ℕ → Fin n → ℝ) (hdt : 0 < dt)
    (hrest : ∀ j, r.velocity j = 0) (hstart : ∀ j, (r.limits j).Inside (r.position (measured 0) j))
    (htargets : ∀ k j, (r.limits j).Inside (targets k j)) :
    (∀ k j, (r.limits j).Inside (r.commanded Real.sqrt targets measured dt k j)) ∧
    (∀ k j, |r.traveled Real.sqrt targets measured dt k j| ≤ r.vMax j) ∧
    (∀ k j,
      (r.stopsAt Real.sqrt targets measured dt k j = false → r.stoppedBefore Real.sqrt targets measured dt k j = false →
        |r.traveled Real.sqrt targets measured dt k j - r.traveledBefore Real.sqrt targets measured dt k j| ≤
          r.aMax j * dt) ∧
      |r.traveled Real.sqrt targets measured dt k j - r.traveledBefore Real.sqrt targets measured dt k j| ≤
        2 * (r.aMax j * dt)) ∧
    ∀ K t, (∀ j, (r.limits j).Inside (t j)) → ∃ T, ∀ targets' : ℕ → Fin n → ℝ,
      (∀ i < K, targets' i = targets i) → ∀ m ≥ T, (∀ i < m, targets' (K + i) = t) →
        r.commanded Real.sqrt targets' measured dt (K + m) = t := by
  have hsteady := fun j => steady hdt (hrest j) (hstart j) (fun k => htargets k j)
  refine ⟨fun k j => (hsteady j k).inside, fun k j => ?_, fun k j =>
    speed_change hdt (hrest j) (hstart j) (fun k => htargets k j) k, fun K t ht => ?_⟩
  · rw [traveled_eq]
    exact (moves (r.proper hdt j) (hsteady j k) (htargets k j)).fast
  · have hreach := fun j => reaches (r.proper hdt j) (hsteady j K) (ht j)
    choose T hT using hreach
    refine ⟨Finset.univ.sup T, fun targets' hbefore m hm hheld => funext fun j => ?_⟩
    have hlate : T j ≤ m := (Finset.le_sup (Finset.mem_univ j)).trans hm
    have hthere := hT j m hlate
    unfold commanded at hthere
    rw [← run_congr r targets measured dt hbefore] at hthere
    change ((fun p : ℝ × ℝ => (r.limits j).step Real.sqrt dt (t j) p.1 p.2)^[m]
      (r.commanded Real.sqrt targets' measured dt K j, (r.run Real.sqrt targets' measured dt K).velocity j)).1 = _ at hthere
    rw [← held r targets' measured j hheld] at hthere
    exact hthere

/-- one joint of `[0, 1]`, both limits `1` -/
noncomputable def unitRamp : JogRamp ℝ 1 where
  vMax := fun _ => 1
  aMax := fun _ => 1
  envelope := some (fun _ => 0, fun _ => 1)
  positive := fun _ => ⟨one_pos, one_pos⟩
  ordered := fun b hb _ => by
    obtain rfl := Option.some.inj hb
    exact zero_le_one

theorem unitRamp_inside {x : ℝ} (h₀ : 0 ≤ x) (h₁ : x ≤ 1) (j : Fin 1) : (unitRamp.limits j).Inside x := by
  intro b hb
  obtain rfl := Option.some.inj hb
  exact ⟨h₀, h₁⟩

/-- from rest at `0` it gets to the bound, and no further -/
theorem jog_ramp_limits_unit :
    (∀ k, unitRamp.commanded Real.sqrt (fun _ _ => 1) (fun _ _ => 0) (1 / 10) k 0 ≤ 1) ∧
      ∃ T, ∀ m ≥ T, unitRamp.commanded Real.sqrt (fun _ _ => 1) (fun _ _ => 0) (1 / 10) (0 + m) = fun _ => 1 := by
  have hdt : (0 : ℝ) < 1 / 10 := by norm_num
  obtain ⟨hinside, -, -, hreach⟩ := jog_ramp_limits unitRamp (fun _ _ => 1) (fun _ _ => 0) hdt
    (fun _ => rfl) (unitRamp_inside le_rfl zero_le_one) (fun _ => unitRamp_inside zero_le_one le_rfl)
  refine ⟨fun k => (hinside k 0 (0, 1) rfl).2, ?_⟩
  obtain ⟨T, hT⟩ := hreach 0 (fun _ => 1) (unitRamp_inside zero_le_one le_rfl)
  exact ⟨T, fun m hm => hT _ (fun _ _ => rfl) m hm fun _ _ => rfl⟩

end

end JogRamp

end ArmControl.Control
