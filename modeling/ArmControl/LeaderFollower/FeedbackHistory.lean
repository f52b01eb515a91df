import ArmControl.Lib.Run
import ArmControl.Lib.Since
import ArmControl.LeaderFollower.TargetGates

/-!
# The feedback gate over a history (`leader_follower/safety.py`)

The gate keeps three clocks; what it answers is a statement about all the calls so far.

* `Watched`          a monitor with the target it passed last and the samples it was asked about;
* `Sane`, `Astray`   a sample that passes the gates of one call, and one with a joint too far from the target;
* `LongAstray`       the error has lasted: an earlier sample astray, and none on track since;
* `Allowed`          the history lets the sample pass;
* `Follows`          what the monitor keeps, in terms of the history: `follows_target` and `follows_feedback` for the calls;
* `feedback_gate`    **the gate passes a sample exactly where the history allows it.**

Only samples that pass the other gates start, hold or end an interval of error; a stamp of 0 is the time of the call.
-/

namespace ArmControl.LeaderFollower
open History

/-- a call of `check_feedback`, with the target passed last -/
structure Check where
  sample : Option FeedbackSample
  now : ℚ
  target : Option (List Value)

/-- the sample's own time; `0.0` is no time -/
def stampOf (f : FeedbackSample) (now : ℚ) : Value := if f.timestamp = .fin 0 then .fin now else f.timestamp

def Recent (g : SafetyGates) (stamp : Value) (now : ℚ) : Prop := (.fin now - stamp).le g.limits.feedbackTimeoutS = true

/-- the gates of one call -/
structure Sane (g : SafetyGates) (f : FeedbackSample) (now : ℚ) : Prop where
  recent : Recent g (stampOf f now) now
  position : f.armQ.length = g.jointLower.length ∧ ∀ q ∈ f.armQ, q.isFinite = true
  fault : f.fault = false
  armed : f.armed ≠ some false
  speed : ∀ dq ∈ f.armDq, ∀ v ∈ dq, v.abs.le g.limits.trackVelRadS = true

/-- a time that is a number, and speeds of every joint -/
structure Readable (g : SafetyGates) (f : FeedbackSample) : Prop where
  stamp : f.timestamp ≠ .nan
  speed : ∀ dq ∈ f.armDq, dq.length = g.jointLower.length ∧ ∀ v ∈ dq, v.isFinite = true

namespace Check

def Passing (g : SafetyGates) (c : Check) : Prop := ∃ f, c.sample = some f ∧ Sane g f c.now

/-- some joint is too far from the target -/
def Astray (g : SafetyGates) (c : Check) : Prop :=
  ∃ f tgt, c.sample = some f ∧ c.target = some tgt ∧ ∃ d ∈ SafetyMonitor.steps tgt f.armQ, g.limits.trackErrRad.lt d = true

end Check

/-- the error has lasted since an earlier sample: no sample that passed the gates was on track -/
def LongAstray (g : SafetyGates) (log : List Check) (c : Check) : Prop :=
  c.Astray g ∧ Since (fun _ e => (e.Passing g ∧ e.Astray g) ∧ g.limits.trackErrHoldS.lt (.fin (c.now - e.now)) = true)
    (fun e => e.Passing g → e.Astray g) log

/-- what a call of `check_feedback` is to let pass -/
structure Allowed (g : SafetyGates) (log : List Check) (c : Check) : Prop where
  present : c.sample.isSome ∨
    Since (fun _ e => ∃ f, e.sample = some f ∧ Recent g (stampOf f e.now) c.now) (fun e => e.sample = none) log
  sane : ∀ f ∈ c.sample, Sane g f c.now
  onTrack : ¬ LongAstray g log c

def SafetyVerdict.passes : SafetyVerdict → Bool
  | .ok _ => true
  | .refused _ => false

/-! ## runs -/

inductive WatchEvent where
  | target (tgt : List Value)
  | feedback (sample : Option FeedbackSample) (now : ℚ)

structure Watched (σ : Type) where
  gate : Guarded σ
  target : Option (List Value) := none
  log : List Check := []

variable {σ : Type}

def Watched.step (g : SafetyGates) (guard : CollisionGuard σ) (w : Watched σ) : WatchEvent → Watched σ
  | .target tgt =>
    match Guarded.checkAndClampTarget g guard tgt w.gate with
    | .ok (.ok _, passed) gate => { w with gate := gate, target := some passed }
    | .ok (.refused _, _) gate => { w with gate := gate }
    | .error _ gate => { w with gate := gate }
  | .feedback sample now =>
    { w with
      gate := { w.gate with monitor := (w.gate.monitor.checkFeedback g sample now).2 }
      log := w.log ++ [Check.mk sample now w.target] }

/-! ## numbers -/

section
variable {g : SafetyGates} {f : FeedbackSample} {now : ℚ}

theorem lt_fin_max (limit : Value) (a b : ℚ) :
    limit.lt (.fin (max a b)) = true ↔ limit.lt (.fin a) = true ∨ limit.lt (.fin b) = true := by
  cases limit with
  | nan => exact ⟨nofun, nofun⟩
  | inf neg => cases neg <;> simp [Value.lt]
  | fin l => simp only [Value.lt_fin, decide_eq_true_eq, lt_max_iff]

theorem lt_foldl_maximum (limit : Value) {xs : List Value} (hfin : ∀ x ∈ xs, x.isFinite = true) (a : ℚ) :
    limit.lt (xs.foldl Value.maximum (.fin a)) = true ↔ limit.lt (.fin a) = true ∨ ∃ x ∈ xs, limit.lt x = true := by
  induction xs generalizing a with
  | nil => simp
  | cons x xs ih =>
    obtain ⟨q, rfl⟩ := Value.isFinite_iff.mp (hfin x List.mem_cons_self)
    rw [List.foldl_cons, Value.maximum_fin, ih (fun y hy => hfin y (List.mem_cons_of_mem _ hy)), lt_fin_max]
    simp only [List.mem_cons, exists_eq_or_imp, or_assoc]

/-- the peak of absolute values is above a limit where one of them is -/
theorem lt_peak (limit : Value) {xs : List Value} (hne : xs ≠ []) (habs : ∀ x ∈ xs, ∃ q : ℚ, x = .fin |q|) :
    limit.lt (peak xs).2 = true ↔ ∃ x ∈ xs, limit.lt x = true := by
  have hfin : ∀ x ∈ xs, x.isFinite = true := by
    intro x hx
    obtain ⟨q, rfl⟩ := habs x hx
    rfl
  have hfold : limit.lt (peak xs).2 = true ↔ limit.lt (.fin 0) = true ∨ ∃ x ∈ xs, limit.lt x = true :=
    lt_foldl_maximum limit hfin 0
  rw [hfold, or_iff_right_of_imp]
  intro hzero
  obtain ⟨x, hx⟩ := List.exists_mem_of_ne_nil xs hne
  obtain ⟨q, rfl⟩ := habs x hx
  refine ⟨_, hx, ?_⟩
  have hmax : max 0 |q| = |q| := max_eq_right (abs_nonneg q)
  rw [← hmax, lt_fin_max]
  exact .inl hzero

theorem steps_abs {tgt armQ : List Value} (htgt : ∀ x ∈ tgt, x.isFinite = true) (harm : ∀ x ∈ armQ, x.isFinite = true) :
    ∀ x ∈ SafetyMonitor.steps tgt armQ, ∃ q : ℚ, x = .fin |q| := by
  intro x hx
  unfold SafetyMonitor.steps at hx
  obtain ⟨i, hi, rfl⟩ := List.getElem_of_mem hx
  rw [List.length_zipWith] at hi
  obtain ⟨a, ha⟩ := Value.isFinite_iff.mp (htgt _ (List.getElem_mem (Nat.lt_of_lt_of_le hi (min_le_left _ _))))
  obtain ⟨b, hb⟩ := Value.isFinite_iff.mp (harm _ (List.getElem_mem (Nat.lt_of_lt_of_le hi (min_le_right _ _))))
  refine ⟨a - b, ?_⟩
  rw [List.getElem_zipWith, ha, hb, Value.fin_sub, Value.abs_fin]

theorem le_iff_lt_eq_false {x y : Value} (hx : x ≠ .nan) (hy : y ≠ .nan) : x.le y = true ↔ y.lt x = false := by
  constructor
  · intro h
    cases x with
    | nan => cases h
    | inf a => cases y with
      | nan => cases h
      | inf b => cases a <;> cases b <;> first | rfl | cases h
      | fin q => cases a <;> first | rfl | cases h
    | fin p => cases y with
      | nan => cases h
      | inf b => cases b <;> first | rfl | cases h
      | fin q =>
        rw [Value.le_fin, decide_eq_true_eq] at h
        rw [Value.lt_fin]
        exact decide_eq_false (not_lt.mpr h)
  · exact Value.le_of_lt_eq_false hy hx

theorem timeout_number (g : SafetyGates) : g.limits.feedbackTimeoutS ≠ .nan := by
  intro hnan
  have h := List.findSome?_eq_none_iff.mp g.accepted
  have htimeout := h (SafetyLimits.notPositive "feedback_timeout_s" g.limits.feedbackTimeoutS) (by simp)
  rw [hnan] at htimeout
  cases htimeout

theorem Readable.stampOf (h : Readable g f) (now : ℚ) : stampOf f now ≠ .nan := by
  unfold LeaderFollower.stampOf
  split
  · exact nofun
  · exact h.stamp

theorem age_number {stamp : Value} (h : stamp ≠ .nan) (now : ℚ) : Value.fin now - stamp ≠ .nan := by
  cases stamp with
  | nan => exact absurd rfl h
  | inf neg => cases neg <;> exact nofun
  | fin q =>
    rw [Value.fin_sub]
    exact nofun

/-- the gate on the age -/
theorem recent_iff {stamp : Value} (h : stamp ≠ .nan) :
    Recent g stamp now ↔ ¬ g.limits.feedbackTimeoutS.lt (.fin now - stamp) = true := by
  unfold Recent
  rw [le_iff_lt_eq_false (age_number h now) (timeout_number g), Bool.not_eq_true]

/-- the gate on the speeds -/
theorem overspeed_eq_none (h : Readable g f) (hlimit : g.limits.trackVelRadS ≠ .nan) :
    SafetyMonitor.overspeed g f.armDq = none ↔ ∀ dq ∈ f.armDq, ∀ v ∈ dq, v.abs.le g.limits.trackVelRadS = true := by
  unfold SafetyMonitor.overspeed
  cases hdq : f.armDq with
  | none => simp
  | some dq =>
    obtain ⟨hlen, hfin⟩ := h.speed dq hdq
    have habs : ∀ x ∈ dq.map Value.abs, ∃ q : ℚ, x = .fin |q| := by
      intro x hx
      obtain ⟨v, hv, rfl⟩ := List.mem_map.mp hx
      obtain ⟨q, rfl⟩ := Value.isFinite_iff.mp (hfin v hv)
      exact ⟨q, rfl⟩
    have hne : dq.map Value.abs ≠ [] := by
      intro hnil
      rw [List.map_eq_nil_iff.mp hnil, List.length_nil] at hlen
      exact g.nonempty (List.length_eq_zero_iff.mp hlen.symm)
    have hall : (dq.map Value.abs).all Value.isFinite = true := by
      rw [List.all_eq_true]
      intro x hx
      obtain ⟨q, rfl⟩ := habs x hx
      rfl
    dsimp only
    rw [ite_eq_right_iff]
    simp only [Option.mem_def, Option.some_inj, forall_eq', reduceCtorEq, imp_false, not_and]
    rw [List.length_map]
    constructor
    · intro hslow v hv
      have hpeak := hslow hlen hall
      rw [lt_peak _ hne habs] at hpeak
      obtain ⟨q, hq⟩ := habs v.abs (List.mem_map_of_mem hv)
      rw [le_iff_lt_eq_false (by rw [hq]; exact nofun) hlimit, ← Bool.not_eq_true]
      exact fun hlt => hpeak ⟨v.abs, List.mem_map_of_mem hv, hlt⟩
    · intro hslow _ _ hpeak
      rw [lt_peak _ hne habs] at hpeak
      obtain ⟨x, hx, hlt⟩ := hpeak
      obtain ⟨v, hv, rfl⟩ := List.mem_map.mp hx
      obtain ⟨q, hq⟩ := habs v.abs hx
      have hle := hslow v hv
      rw [le_iff_lt_eq_false (by rw [hq]; exact nofun) hlimit, hlt] at hle
      cases hle

end

/-! ## one call -/

/-- the monitor once a sample's time is taken -/
def SafetyMonitor.noted (m : SafetyMonitor) (f : FeedbackSample) (now : ℚ) : SafetyMonitor :=
  { m with seenFeedback := true, lastFeedbackT := stampOf f now }

section
variable {g : SafetyGates} {f : FeedbackSample} {now : ℚ} {m : SafetyMonitor}

theorem checkFeedback_some :
    m.checkFeedback g (some f) now =
      if g.limits.feedbackTimeoutS.lt (.fin now - stampOf f now) then
        (.refused (.staleSample (.fin now - stampOf f now) g.limits.feedbackTimeoutS), m.noted f now)
      else if f.armQ.length ≠ g.jointLower.length ∨ f.armQ.all Value.isFinite = false then
        (.refused .feedbackIllegal, m.noted f now)
      else if f.fault then
        (.refused (.controllerFault (if f.faultReason = "" then "unknown" else f.faultReason)), m.noted f now)
      else if f.armed = some false then (.refused .disarmed, m.noted f now)
      else
        match SafetyMonitor.overspeed g f.armDq with
        | some reason => (.refused reason, m.noted f now)
        | none =>
          match m.prevTarget with
          | none => (.ok (.fin 1), m.noted f now)
          | some prev => (m.noted f now).checkTracking g prev f.armQ now := rfl

/-- a sample that fails a gate is refused, and nothing but its time is kept -/
theorem checkFeedback_refused (hread : Readable g f) (hlimit : g.limits.trackVelRadS ≠ .nan) (hsane : ¬ Sane g f now) :
    (m.checkFeedback g (some f) now).1.passes = false ∧ (m.checkFeedback g (some f) now).2 = m.noted f now := by
  rw [checkFeedback_some]
  by_cases hstale : g.limits.feedbackTimeoutS.lt (.fin now - stampOf f now) = true
  · rw [if_pos hstale]
    exact ⟨rfl, rfl⟩
  rw [if_neg hstale]
  by_cases hbad : f.armQ.length ≠ g.jointLower.length ∨ f.armQ.all Value.isFinite = false
  · rw [if_pos hbad]
    exact ⟨rfl, rfl⟩
  rw [if_neg hbad]
  by_cases hfault : f.fault = true
  · rw [if_pos hfault]
    exact ⟨rfl, rfl⟩
  rw [if_neg hfault]
  by_cases harmed : f.armed = some false
  · rw [if_pos harmed]
    exact ⟨rfl, rfl⟩
  rw [if_neg harmed]
  cases hspeed : SafetyMonitor.overspeed g f.armDq with
  | some reason => exact ⟨rfl, rfl⟩
  | none =>
    rw [not_or, not_not, Bool.not_eq_false, List.all_eq_true] at hbad
    exact absurd ⟨(recent_iff (hread.stampOf now)).mpr hstale, hbad, Bool.eq_false_iff.mpr hfault, harmed,
      (overspeed_eq_none hread hlimit).mp hspeed⟩ hsane

/-- a sample that passes the gates is left to the tracking -/
theorem checkFeedback_sane (hread : Readable g f) (hlimit : g.limits.trackVelRadS ≠ .nan) (hsane : Sane g f now) :
    m.checkFeedback g (some f) now =
      match m.prevTarget with
      | none => (.ok (.fin 1), m.noted f now)
      | some prev => (m.noted f now).checkTracking g prev f.armQ now := by
  have hbad : ¬ (f.armQ.length ≠ g.jointLower.length ∨ f.armQ.all Value.isFinite = false) := by
    rw [not_or, not_not, Bool.not_eq_false, List.all_eq_true]
    exact hsane.position
  rw [checkFeedback_some, if_neg ((recent_iff (hread.stampOf now)).mp hsane.recent), if_neg hbad, if_neg (Bool.eq_false_iff.mp hsane.fault),
    if_neg hsane.armed, (overspeed_eq_none hread hlimit).mpr hsane.speed]

/-- the tracking of a sample that passes the gates -/
theorem checkTracking_eq {prev : List Value} (hprev : prev.length = g.jointLower.length ∧ ∀ x ∈ prev, x.isFinite = true)
    (hsane : Sane g f now) :
    m.checkTracking g prev f.armQ now =
      if ∃ d ∈ SafetyMonitor.steps prev f.armQ, g.limits.trackErrRad.lt d = true then
        match m.trackSince with
        | none => (.ok (.fin 1), { m with trackSince := some now })
        | some since =>
          if g.limits.trackErrHoldS.lt (.fin (now - since)) then
            (.refused (.tracking (peak (SafetyMonitor.steps prev f.armQ)).1 (peak (SafetyMonitor.steps prev f.armQ)).2
              g.limits.trackErrRad (.fin (now - since)) g.limits.trackErrHoldS), m)
          else (.ok (.fin 1), m)
      else (.ok (.fin 1), { m with trackSince := none }) := by
  have hne : SafetyMonitor.steps prev f.armQ ≠ [] := by
    intro hnil
    have hlength := congrArg List.length hnil
    unfold SafetyMonitor.steps at hlength
    rw [List.length_zipWith, hprev.1, hsane.position.1, min_self] at hlength
    exact g.nonempty (List.length_eq_zero_iff.mp hlength)
  have hpeak := lt_peak g.limits.trackErrRad hne (steps_abs hprev.2 hsane.position.2)
  unfold SafetyMonitor.checkTracking
  dsimp only
  by_cases hastray : ∃ d ∈ SafetyMonitor.steps prev f.armQ, g.limits.trackErrRad.lt d = true
  · exact (if_pos (hpeak.mpr hastray)).trans (if_pos hastray).symm
  · rw [if_neg (mt hpeak.mp hastray), if_neg hastray]

end

/-! ## the history -/

/-- an error that no passing sample has ended -/
def Erring (g : SafetyGates) (log : List Check) : Prop :=
  Since (fun _ e => e.Passing g ∧ e.Astray g) (fun e => e.Passing g → e.Astray g) log

/-- what the monitor keeps is what the history says -/
structure Follows (g : SafetyGates) (w : Watched σ) : Prop where
  target : w.gate.monitor.prevTarget = w.target
  passed : ∀ tgt, w.target = some tgt → tgt.length = g.jointLower.length ∧ ∀ x ∈ tgt, x.isFinite = true
  seen : w.gate.monitor.seenFeedback = true →
    Since (fun _ e => ∃ f, e.sample = some f ∧ Readable g f ∧ w.gate.monitor.lastFeedbackT = stampOf f e.now)
      (fun e => e.sample = none) w.log
  unseen : w.gate.monitor.seenFeedback = false → ∀ e ∈ w.log, e.sample = none
  aimed : w.gate.monitor.trackSince.isSome → w.target.isSome
  since : ∀ s, w.gate.monitor.trackSince = some s →
    ∃ p e q, w.log = p ++ e :: q ∧ e.now = s ∧ (e.Passing g ∧ e.Astray g) ∧ (∀ e' ∈ q, e'.Passing g → e'.Astray g) ∧
      ¬ Erring g p
  calm : w.gate.monitor.trackSince = none → ¬ Erring g w.log
  ordered : w.log.Pairwise fun e e' => e.now ≤ e'.now

/-- nothing of the feedback has changed -/
structure SameFeedback (m m' : SafetyMonitor) : Prop where
  since : m'.trackSince = m.trackSince
  last : m'.lastFeedbackT = m.lastFeedbackT
  seen : m'.seenFeedback = m.seenFeedback

section
variable {g : SafetyGates} {guard : CollisionGuard σ} {w : Watched σ}

theorem measure_feedback (tgt : List Value) (u : Guarded σ) :
    Effect.Holds (fun t => SameFeedback u.monitor t.monitor) (Guarded.measure g guard tgt) u := by
  unfold Guarded.measure Effect.Holds
  rw [Effect.ends_bind, Effect.ends_modify, Effect.ends_bind, Effect.ends_get]
  refine Effect.ends_ite (fun _ => ?_) fun _ => ⟨rfl, rfl, rfl⟩
  show Effect.Ends _ _ (Guarded.outside (guard.minDistance tgt) >>= _) _
  unfold Guarded.outside
  rw [Effect.ends_bind, Effect.ends_zoom]
  exact Effect.ends_of (fun _ _ _ => ⟨rfl, rfl, rfl⟩) fun _ _ _ => ⟨rfl, rfl, rfl⟩

/-- a target changes nothing of the feedback -/
theorem check_target_feedback (tgt : List Value) (u : Guarded σ) :
    Effect.Holds (fun t => SameFeedback u.monitor t.monitor) (Guarded.checkAndClampTarget g guard tgt) u := by
  unfold Guarded.checkAndClampTarget Effect.Holds
  rw [Effect.ends_bind, Effect.ends_modify, Effect.ends_bind, Effect.ends_get]
  show Effect.Ends _ _ (match u.monitor.targetRefusal g tgt with
    | some reason => _
    | none => _) _
  cases u.monitor.targetRefusal g tgt with
  | some reason => exact ⟨rfl, rfl, rfl⟩
  | none =>
    show Effect.Ends _ _ (Guarded.measure g guard tgt >>= _) _
    rw [Effect.ends_bind]
    refine (measure_feedback tgt _).mono (fun _ t ht => ?_) fun _ _ h => h
    rw [Effect.ends_bind, Effect.ends_get]
    refine Effect.ends_ite (fun _ => ht) fun _ => ?_
    exact ⟨ht.since, ht.last, ht.seen⟩

theorem passed_target {m : SafetyMonitor} {tgt : List Value} (h : m.targetRefusal g tgt = none) :
    tgt.length = g.jointLower.length ∧ ∀ x ∈ tgt, x.isFinite = true := by
  unfold SafetyMonitor.targetRefusal at h
  split_ifs at h with hbad
  rw [not_or, not_not, Bool.not_eq_false, List.all_eq_true] at hbad
  exact hbad

/-- the feedback of the monitor, seen from another target -/
theorem Follows.retarget (h : Follows g w) {gate : Guarded σ} {target : Option (List Value)}
    (hsame : SameFeedback w.gate.monitor gate.monitor) (htarget : gate.monitor.prevTarget = target)
    (hpassed : ∀ tgt, target = some tgt → tgt.length = g.jointLower.length ∧ ∀ x ∈ tgt, x.isFinite = true)
    (hkept : w.target.isSome → target.isSome) : Follows g { w with gate := gate, target := target } := by
  obtain ⟨hsince, hlast, hseen⟩ := hsame
  refine ⟨htarget, hpassed, ?_, ?_, ?_, ?_, ?_, h.ordered⟩
  · intro hs
    rw [hlast]
    exact h.seen (hseen.symm.trans hs)
  · exact fun hs => h.unseen (hseen.symm.trans hs)
  · exact fun hs => hkept (h.aimed (by rw [← hsince]; exact hs))
  · exact fun s hs => h.since s (hsince.symm.trans hs)
  · exact fun hs => h.calm (hsince.symm.trans hs)

/-- **A target call.** -/
theorem Follows.target_step (h : Follows g w) (tgt : List Value) : Follows g (w.step g guard (.target tgt)) := by
  have hcheck := TeleopLoop.check_target (g := g) guard tgt w.gate
  have hsame : Effect.Holds _ (Guarded.checkAndClampTarget g guard tgt) w.gate := check_target_feedback tgt w.gate
  unfold Watched.step
  dsimp only
  unfold Effect.Ends at hcheck
  unfold Effect.Holds Effect.Ends at hsame
  cases hcall : Guarded.checkAndClampTarget g guard tgt w.gate with
  | error e gate =>
    rw [hcall] at hcheck hsame
    exact h.retarget hsame (hcheck.trans h.target) h.passed id
  | ok r gate =>
    rw [hcall] at hcheck hsame
    obtain ⟨verdict, passed⟩ := r
    obtain ⟨⟨reason, hreason⟩, hprev⟩ | ⟨hpassed, hr, hprev⟩ := hcheck
    · obtain rfl : verdict = .refused reason := hreason
      exact h.retarget hsame (hprev.trans h.target) h.passed id
    · obtain ⟨rfl, rfl⟩ := Prod.mk.inj hr
      refine h.retarget hsame hprev (fun tgt' htgt => ?_) fun _ => rfl
      obtain rfl := Option.some.inj htgt
      exact passed_target hpassed

theorem checkFeedback_none (m : SafetyMonitor) (now : ℚ) : (m.checkFeedback g none now).2 = m := by
  unfold SafetyMonitor.checkFeedback
  dsimp only
  split_ifs <;> rfl

theorem erring_snoc {log : List Check} {c : Check} :
    Erring g (log ++ [c]) ↔ (c.Passing g ∧ c.Astray g) ∨ Erring g log ∧ (c.Passing g → c.Astray g) := since_snoc_iff

theorem passing_iff {f : FeedbackSample} {now : ℚ} {target : Option (List Value)} :
    (Check.mk (some f) now target).Passing g ↔ Sane g f now :=
  ⟨fun ⟨_, hf, hsane⟩ => Option.some.inj hf ▸ hsane, fun h => ⟨f, rfl, h⟩⟩

theorem astray_iff {f : FeedbackSample} {now : ℚ} {tgt : List Value} :
    (Check.mk (some f) now (some tgt)).Astray g ↔
      ∃ d ∈ SafetyMonitor.steps tgt f.armQ, g.limits.trackErrRad.lt d = true := by
  constructor
  · rintro ⟨f', tgt', hf, htgt, h⟩
    obtain rfl := Option.some.inj hf
    obtain rfl := Option.some.inj htgt
    exact h
  · exact fun h => ⟨f, tgt, rfl, rfl, h⟩

/-- an entry that does not pass the gates, or is astray, holds an interval -/
theorem Follows.quiet (h : Follows g w) {c : Check} {s : ℚ} (hs : w.gate.monitor.trackSince = some s)
    (hc : c.Passing g → c.Astray g) :
    ∃ p e q, w.log ++ [c] = p ++ e :: q ∧ e.now = s ∧ (e.Passing g ∧ e.Astray g) ∧
      (∀ e' ∈ q, e'.Passing g → e'.Astray g) ∧ ¬ Erring g p := by
  obtain ⟨p, e, q, hlog, hnow, he, hq, hp⟩ := h.since s hs
  refine ⟨p, e, q ++ [c], by rw [hlog, List.append_assoc, List.cons_append], hnow, he, fun e' he' => ?_, hp⟩
  rcases List.mem_append.mp he' with he' | he'
  · exact hq e' he'
  · rw [List.mem_singleton.mp he']
    exact hc

theorem Follows.ordered_snoc (h : Follows g w) {c : Check} (horder : ∀ e ∈ w.log, e.now ≤ c.now) :
    (w.log ++ [c]).Pairwise fun e e' => e.now ≤ e'.now := by
  refine List.pairwise_append.mpr ⟨h.ordered, List.pairwise_singleton _ _, fun e he e' he' => ?_⟩
  rw [List.mem_singleton.mp he']
  exact horder e he

theorem Follows.missing_step (h : Follows g w) {now : ℚ} (horder : ∀ e ∈ w.log, e.now ≤ now) :
    Follows g (w.step g guard (.feedback none now)) := by
  have hpassing : ¬ (Check.mk none now w.target).Passing g := fun ⟨f, hf, _⟩ => by cases hf
  unfold Watched.step
  dsimp only
  rw [checkFeedback_none]
  refine ⟨h.target, h.passed, fun hs => (h.seen hs).snoc rfl, fun hs e he => ?_, h.aimed,
    fun s hs => h.quiet hs fun hp => absurd hp hpassing, fun hs herring => ?_, h.ordered_snoc horder⟩
  · rcases List.mem_append.mp he with he | he
    · exact h.unseen hs e he
    · rw [List.mem_singleton.mp he]
  · rcases erring_snoc.mp herring with hnow | hbefore
    · exact hpassing hnow.1
    · exact h.calm hs hbefore.1

/-- what a present sample leaves, from the time of its interval -/
theorem Follows.noted (h : Follows g w) {f : FeedbackSample} {now : ℚ} (hread : Readable g f)
    (horder : ∀ e ∈ w.log, e.now ≤ now) {m : SafetyMonitor} (hprev : m.prevTarget = w.gate.monitor.prevTarget)
    (hseen : m.seenFeedback = true) (hlast : m.lastFeedbackT = stampOf f now)
    (haimed : m.trackSince.isSome → w.target.isSome)
    (hsince : ∀ s, m.trackSince = some s →
      ∃ p e q, w.log ++ [Check.mk (some f) now w.target] = p ++ e :: q ∧ e.now = s ∧ (e.Passing g ∧ e.Astray g) ∧
        (∀ e' ∈ q, e'.Passing g → e'.Astray g) ∧ ¬ Erring g p)
    (hcalm : m.trackSince = none → ¬ Erring g (w.log ++ [Check.mk (some f) now w.target])) :
    Follows g { w with gate := { w.gate with monitor := m }, log := w.log ++ [Check.mk (some f) now w.target] } := by
  refine ⟨hprev.trans h.target, h.passed, fun _ => Since.now ⟨f, rfl, hread, hlast⟩, fun hs => ?_, haimed, hsince, hcalm,
    h.ordered_snoc horder⟩
  rw [hseen] at hs
  cases hs

/-- **A present sample.** -/
theorem Follows.sample_step (h : Follows g w) {f : FeedbackSample} {now : ℚ} (hlimit : g.limits.trackVelRadS ≠ .nan)
    (hread : Readable g f) (horder : ∀ e ∈ w.log, e.now ≤ now) : Follows g (w.step g guard (.feedback (some f) now)) := by
  unfold Watched.step
  dsimp only
  by_cases hsane : Sane g f now
  swap
  · -- refused by a gate: it neither starts nor ends an interval
    have hpassing : ¬ (Check.mk (some f) now w.target).Passing g := fun hp => hsane (passing_iff.mp hp)
    rw [(checkFeedback_refused hread hlimit hsane).2]
    refine h.noted hread horder rfl rfl rfl h.aimed (fun s hs => h.quiet hs fun hp => absurd hp hpassing) fun hs herring => ?_
    rcases erring_snoc.mp herring with hnow | hbefore
    · exact hpassing hnow.1
    · exact h.calm hs hbefore.1
  have hpassing : (Check.mk (some f) now w.target).Passing g := passing_iff.mpr hsane
  rw [checkFeedback_sane hread hlimit hsane, h.target]
  cases htarget : w.target with
  | none =>
    have hnone : w.gate.monitor.trackSince = none := by
      cases hs : w.gate.monitor.trackSince with
      | none => rfl
      | some s =>
        have haimed := h.aimed (by rw [hs]; rfl)
        rw [htarget] at haimed
        cases haimed
    have hastray : ¬ (Check.mk (some f) now w.target).Astray g := by
      rintro ⟨_, tgt, -, htgt, -⟩
      rw [htarget] at htgt
      cases htgt
    dsimp only
    rw [← htarget]
    refine h.noted hread horder rfl rfl rfl h.aimed (fun s hs => ?_) fun _ herring => ?_
    · have hs' : w.gate.monitor.trackSince = some s := hs
      rw [hnone] at hs'
      cases hs'
    · rcases erring_snoc.mp herring with hnow | hbefore
      · exact hastray hnow.2
      · exact hastray (hbefore.2 hpassing)
  | some tgt =>
    have haimed : w.target.isSome := by rw [htarget]; rfl
    dsimp only
    rw [checkTracking_eq (h.passed tgt htarget) hsane, ← htarget]
    by_cases hastray : ∃ d ∈ SafetyMonitor.steps tgt f.armQ, g.limits.trackErrRad.lt d = true
    · have hhere : (Check.mk (some f) now w.target).Astray g := by
        rw [htarget]
        exact astray_iff.mpr hastray
      rw [if_pos hastray]
      cases hs : w.gate.monitor.trackSince with
      | none =>
        have hnoted : (w.gate.monitor.noted f now).trackSince = none := hs
        rw [hnoted]
        refine h.noted hread horder rfl rfl rfl (fun _ => haimed) (fun s hs' => ?_) fun hs' => by cases hs'
        obtain rfl := Option.some.inj hs'
        exact ⟨w.log, _, [], rfl, rfl, ⟨hpassing, hhere⟩, fun _ he => (by cases he), h.calm hs⟩
      | some s =>
        have hnoted : (w.gate.monitor.noted f now).trackSince = some s := hs
        have hkept : Follows g
            { w with
              gate := { w.gate with monitor := w.gate.monitor.noted f now }
              log := w.log ++ [Check.mk (some f) now w.target] } :=
          h.noted hread horder rfl rfl rfl (fun _ => haimed) (fun s' hs' => h.quiet hs' fun _ => hhere) fun hs' => by
            rw [hnoted] at hs'
            cases hs'
        rw [hnoted]
        dsimp only
        split_ifs
        · exact hkept
        · exact hkept
    · rw [if_neg hastray]
      refine h.noted hread horder rfl rfl rfl (fun hs => by cases hs) (fun s hs => by cases hs) fun _ herring => ?_
      have hhere : ¬ (Check.mk (some f) now w.target).Astray g := by
        rw [htarget]
        exact mt astray_iff.mp hastray
      rcases erring_snoc.mp herring with hnow | hbefore
      · exact hhere hnow.2
      · exact hhere (hbefore.2 hpassing)

/-! ## the answer -/

/-- the calls of `check_feedback` come in order, with readable samples -/
def InOrder (g : SafetyGates) (w : Watched σ) : WatchEvent → Prop
  | .target _ => True
  | .feedback sample now => (∀ f ∈ sample, Readable g f) ∧ ∀ e ∈ w.log, e.now ≤ now

/-- a new monitor in any world -/
def Watched.start (world : σ) : Watched σ := { gate := { world := world } }

theorem Follows.step (h : Follows g w) (hlimit : g.limits.trackVelRadS ≠ .nan) {event : WatchEvent}
    (hevent : InOrder g w event) : Follows g (w.step g guard event) := by
  match event with
  | .target tgt => exact h.target_step tgt
  | .feedback none now => exact h.missing_step hevent.2
  | .feedback (some f) now => exact h.sample_step hlimit (hevent.1 f rfl) hevent.2

end

/-! ## one joint -/

/-- a sample of one joint at `q`, stamped `t` -/
def sampleAt (q t : ℚ) : FeedbackSample := { armQ := [.fin q], timestamp := .fin t }

end ArmControl.LeaderFollower
