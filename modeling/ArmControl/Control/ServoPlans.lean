import ArmControl.Control.ServoSettling

/-!
# One named plan, one result

* `planIds`, `started`, `results`   the plan messages, the releases and the leg results, read off the log;
* `LegRule`                         what a release, a sample or a result says about the loaded plan;
* `Accounted`                       every started plan runs, or has its one result;
* `Accounted.snoc`                  an entry that keeps to the rule keeps it;
* `one_plan_one_result`             **so it holds in every run in which no `hold` meets a running leg.**
-/

set_option linter.unusedSectionVars false

namespace ArmControl.Control.Servo
open ArmControl.Motion History

section
variable {K : Type} [Field K] [LinearOrder K] {n : ℕ}

/-- the id of the plan message that an entry answers -/
def Obs.answers : Obs K n → Option String
  | .staged p => some p.planId
  | .refused planId _ _ => some planId
  | _ => none

/-- the ids of the plan messages, in order -/
def planIds (log : List (Obs K n)) : List String := log.filterMap Obs.answers

/-- an entry starts this plan -/
def Obs.starts (id : String) : Obs K n → Bool
  | .released planId _ _ => planId == id
  | _ => false

def started (id : String) (log : List (Obs K n)) : ℕ := log.countP (Obs.starts id)

/-- an entry sends a `leg_result` of this plan; a refusal may -/
def Obs.concludes (id : String) : Obs K n → Bool
  | .legResult planId _ _ => planId == id
  | .refused planId _ report => report && planId == id
  | _ => false

def results (id : String) (log : List (Obs K n)) : ℕ := log.countP (Obs.concludes id)

/-- a plan runs -/
def Runs (id : String) (log : List (Obs K n)) : Prop := ∃ p, loaded log = ⟨some p, true⟩ ∧ p.planId = id

/-- what an entry says about the loaded plan -/
def LegRule (log : List (Obs K n)) : Obs K n → Prop
  | .motorCommand (.sample id) _ _ _ _ _ => Runs id log
  | .staged _ => (loaded log).running = false
  | .released id _ _ => ∃ p, loaded log = ⟨some p, false⟩ ∧ p.planId = id
  | .legResult id _ _ => id = ((loaded log).plan.map Plan.planId).getD ""
  | .cancelled _ => (loaded log).running = false
  | .disarmed => (loaded log).running = false
  | _ => True

/-! ## every entry keeps to the rule -/

variable {g : Config K n} {P : Promise K} {c c' : ArmController K n}

variable {log : List (Obs K n)} {o : Obs K n} {id : String}

theorem started_snoc (id : String) (log : List (Obs K n)) (o : Obs K n) :
    started id (log ++ [o]) = started id log + if o.starts id then 1 else 0 := by
  unfold started
  rw [List.countP_append, List.countP_singleton]

theorem results_snoc (id : String) (log : List (Obs K n)) (o : Obs K n) :
    results id (log ++ [o]) = results id log + if o.concludes id then 1 else 0 := by
  unfold results
  rw [List.countP_append, List.countP_singleton]

theorem planIds_snoc (log : List (Obs K n)) (o : Obs K n) : planIds (log ++ [o]) = planIds log ++ o.answers.toList := by
  unfold planIds
  rw [List.filterMap_append]
  cases h : o.answers with
  | none => rw [List.filterMap_cons_none h]; rfl
  | some id => rw [List.filterMap_cons_some h]; rfl

/-- every plan that was started runs, or has its one result -/
structure Accounted (log : List (Obs K n)) : Prop where
  loaded : ∀ p, (loaded log).plan = some p → p.planId ∈ planIds log
  fresh : ∀ id, id ∉ planIds log → started id log = 0 ∧ (id ≠ "" → results id log = 0)
  waiting : ∀ p, Servo.loaded log = ⟨some p, false⟩ → started p.planId log = 0 ∧ results p.planId log = 0
  running : ∀ id, Runs id log → started id log = 1 ∧ results id log = 0
  finished : ∀ id, started id log ≠ 0 → Runs id log ∨ started id log = 1 ∧ results id log = 1

theorem accounted_nil : Accounted ([] : List (Obs K n)) where
  loaded := by
    intro p hp
    cases hp
  fresh := fun _ _ => ⟨rfl, fun _ => rfl⟩
  waiting := by
    intro p hp
    cases hp
  running := by
    rintro id ⟨p, hp, -⟩
    cases hp
  finished := fun _ h => absurd rfl h

theorem Loaded.eq_mk {l : Loaded K n} {p : Plan K n} {b : Bool} (hp : l.plan = some p) (hrun : l.running = b) : l = ⟨some p, b⟩ := by
  obtain ⟨plan, running⟩ := l
  obtain rfl : plan = some p := hp
  obtain rfl : running = b := hrun
  rfl

/-- an entry about no plan -/
theorem Accounted.quiet (h : Accounted log) (hanswers : o.answers = none) (hstarts : ∀ id, o.starts id = false)
    (hconcludes : ∀ id, o.concludes id = false) (hloaded : (Servo.loaded log).after o = Servo.loaded log) : Accounted (log ++ [o]) := by
  have hids : planIds (log ++ [o]) = planIds log := by rw [planIds_snoc, hanswers]; exact List.append_nil _
  have hstart : ∀ id, started id (log ++ [o]) = started id log := fun id => by
    rw [started_snoc, hstarts, if_neg Bool.false_ne_true, add_zero]
  have hresult : ∀ id, results id (log ++ [o]) = results id log := fun id => by
    rw [results_snoc, hconcludes, if_neg Bool.false_ne_true, add_zero]
  have hload : Servo.loaded (log ++ [o]) = Servo.loaded log := (loaded_snoc log o).trans hloaded
  have hruns : ∀ id, Runs id (log ++ [o]) ↔ Runs id log := fun id => by unfold Runs; rw [hload]
  refine ⟨?_, ?_, ?_, ?_, ?_⟩
  · rw [hload, hids]
    exact h.loaded
  · intro id
    rw [hids, hstart, hresult]
    exact h.fresh id
  · intro p
    rw [hload, hstart, hresult]
    exact h.waiting p
  · intro id
    rw [hruns, hstart, hresult]
    exact h.running id
  · intro id
    rw [hruns, hstart, hresult]
    exact h.finished id

/-- a plan that does not run is over -/
theorem Accounted.settled (h : Accounted log) (hidle : (Servo.loaded log).running = false) (hstarted : started id log ≠ 0) :
    started id log = 1 ∧ results id log = 1 := by
  rcases h.finished id hstarted with ⟨p, hp, -⟩ | hover
  · rw [hp] at hidle
    cases hidle
  · exact hover

/-- a plan message is accepted -/
theorem Accounted.staged (h : Accounted log) (p : Plan K n) (hidle : (Servo.loaded log).running = false)
    (hids : (planIds (log ++ [Obs.staged p])).Nodup) (hnamed : "" ∉ planIds (log ++ [Obs.staged p])) : Accounted (log ++ [Obs.staged p]) := by
  have hplan : planIds (log ++ [Obs.staged p]) = planIds log ++ [p.planId] := planIds_snoc log _
  have hload : Servo.loaded (log ++ [Obs.staged p]) = ⟨some p, false⟩ := loaded_snoc log _
  have hstart : ∀ id, started id (log ++ [Obs.staged p]) = started id log := fun id => started_snoc id log _
  have hresult : ∀ id, results id (log ++ [Obs.staged p]) = results id log := fun id => results_snoc id log _
  rw [hplan] at hids hnamed
  have hnew : p.planId ∉ planIds log := fun hmem => (List.nodup_append.mp hids).2.2 _ hmem _ (List.mem_singleton_self _) rfl
  have hname : p.planId ≠ "" := fun he => hnamed (he ▸ List.mem_append_right _ (List.mem_singleton_self _))
  refine ⟨?_, ?_, ?_, ?_, ?_⟩
  · rw [hload, hplan]
    rintro q hq
    obtain rfl := Option.some.inj hq
    exact List.mem_append_right _ (List.mem_singleton_self _)
  · intro id hid
    rw [hplan] at hid
    rw [hstart, hresult]
    exact h.fresh id fun hmem => hid (List.mem_append_left _ hmem)
  · intro q hq
    rw [hload] at hq
    obtain rfl := Option.some.inj (Loaded.mk.inj hq).1
    rw [hstart, hresult]
    obtain ⟨hstarted, hresults⟩ := h.fresh p.planId hnew
    exact ⟨hstarted, hresults hname⟩
  · rintro id ⟨q, hq, -⟩
    rw [hload] at hq
    cases hq
  · intro id hstarted
    rw [hstart] at hstarted ⊢
    rw [hresult]
    exact .inr (h.settled hidle hstarted)

/-- a plan message is refused -/
theorem Accounted.refused (h : Accounted log) (planId reason : String) (report : Bool)
    (hids : (planIds (log ++ [Obs.refused planId reason report])).Nodup) : Accounted (log ++ [Obs.refused planId reason report]) := by
  have hplan : planIds (log ++ [Obs.refused planId reason report]) = planIds log ++ [planId] := planIds_snoc log _
  have hload : Servo.loaded (log ++ [Obs.refused planId reason report]) = Servo.loaded log := loaded_snoc log _
  have hstart : ∀ id, started id (log ++ [Obs.refused planId reason report]) = started id log := fun id => started_snoc id log _
  have hresult : ∀ id, id ≠ planId → results id (log ++ [Obs.refused planId reason report]) = results id log := by
    intro id hne
    have hother : Obs.concludes id (.refused planId reason report : Obs K n) = false := by
      show (report && planId == id) = false
      rw [beq_false_of_ne (Ne.symm hne), Bool.and_false]
    rw [results_snoc, hother, if_neg Bool.false_ne_true, add_zero]
  have hruns : ∀ id, Runs id (log ++ [Obs.refused planId reason report]) ↔ Runs id log := fun id => by unfold Runs; rw [hload]
  rw [hplan] at hids
  have hnew : planId ∉ planIds log := fun hmem => (List.nodup_append.mp hids).2.2 _ hmem _ (List.mem_singleton_self _) rfl
  have hother : ∀ id ∈ planIds log, id ≠ planId := fun id hmem he => hnew (he ▸ hmem)
  refine ⟨?_, ?_, ?_, ?_, ?_⟩
  · rw [hload, hplan]
    exact fun p hp => List.mem_append_left _ (h.loaded p hp)
  · intro id hid
    rw [hplan] at hid
    have hne : id ≠ planId := fun he => hid (he ▸ List.mem_append_right _ (List.mem_singleton_self _))
    rw [hstart, hresult id hne]
    exact h.fresh id fun hmem => hid (List.mem_append_left _ hmem)
  · intro p hp
    rw [hload] at hp
    rw [hstart, hresult _ (hother _ (h.loaded p (by rw [hp])))]
    exact h.waiting p hp
  · intro id hid
    rw [hruns] at hid
    obtain ⟨p, hp, rfl⟩ := hid
    rw [hstart, hresult _ (hother _ (h.loaded p (by rw [hp])))]
    exact h.running p.planId ⟨p, hp, rfl⟩
  · intro id hstarted
    rw [hstart] at hstarted ⊢
    have hmem : id ∈ planIds log := by
      by_contra hno
      exact hstarted (h.fresh id hno).1
    rw [hruns, hresult _ (hother id hmem)]
    exact h.finished id hstarted

/-- the loaded plan starts -/
theorem Accounted.released (h : Accounted log) {p : Plan K n} (hp : Servo.loaded log = ⟨some p, false⟩)
    (trajectory : JointTrajectory K n) (start : Option K) : Accounted (log ++ [Obs.released p.planId trajectory start]) := by
  have hplan : planIds (log ++ [Obs.released p.planId trajectory start]) = planIds log := by
    rw [planIds_snoc]
    exact List.append_nil _
  have hload : Servo.loaded (log ++ [Obs.released p.planId trajectory start]) = ⟨some p, true⟩ := by
    rw [loaded_snoc, hp]
    rfl
  have hresult : ∀ id, results id (log ++ [Obs.released p.planId trajectory start]) = results id log := fun id => results_snoc id log _
  have hself : started p.planId (log ++ [Obs.released p.planId trajectory start]) = 1 := by
    rw [started_snoc, (h.waiting p hp).1]
    show 0 + (if (p.planId == p.planId) = true then 1 else 0) = 1
    rw [if_pos (beq_self_eq_true p.planId)]
  have hother : ∀ id, id ≠ p.planId → started id (log ++ [Obs.released p.planId trajectory start]) = started id log := by
    intro id hne
    have hno : Obs.starts id (.released p.planId trajectory start : Obs K n) = false := beq_false_of_ne (Ne.symm hne)
    rw [started_snoc, hno, if_neg Bool.false_ne_true, add_zero]
  have hidle : (Servo.loaded log).running = false := by rw [hp]
  refine ⟨?_, ?_, ?_, ?_, ?_⟩
  · rw [hload, hplan]
    exact fun q hq => h.loaded q (by rw [hp]; exact hq)
  · intro id hid
    rw [hplan] at hid
    have hne : id ≠ p.planId := fun he => hid (he ▸ h.loaded p (by rw [hp]))
    rw [hother id hne, hresult]
    exact h.fresh id hid
  · intro q hq
    rw [hload] at hq
    cases hq
  · rintro id ⟨q, hq, rfl⟩
    rw [hload] at hq
    obtain rfl := Option.some.inj (Loaded.mk.inj hq).1
    rw [hresult]
    exact ⟨hself, (h.waiting p hp).2⟩
  · intro id hstarted
    by_cases hid : id = p.planId
    · exact .inl ⟨p, hload, hid.symm⟩
    · rw [hother id hid] at hstarted ⊢
      rw [hresult]
      exact .inr (h.settled hidle hstarted)

/-- a plan that does not run is dropped -/
theorem Accounted.dropped (h : Accounted log) (hanswers : o.answers = none) (hstarts : ∀ id, o.starts id = false)
    (hconcludes : ∀ id, o.concludes id = false) (hidle : (Servo.loaded log).running = false)
    (hloaded : ∀ l : Loaded K n, l.after o = ⟨none, false⟩) : Accounted (log ++ [o]) := by
  have hids : planIds (log ++ [o]) = planIds log := by rw [planIds_snoc, hanswers]; exact List.append_nil _
  have hstart : ∀ id, started id (log ++ [o]) = started id log := fun id => by
    rw [started_snoc, hstarts, if_neg Bool.false_ne_true, add_zero]
  have hresult : ∀ id, results id (log ++ [o]) = results id log := fun id => by
    rw [results_snoc, hconcludes, if_neg Bool.false_ne_true, add_zero]
  have hload : Servo.loaded (log ++ [o]) = ⟨none, false⟩ := (loaded_snoc log o).trans (hloaded _)
  refine ⟨?_, ?_, ?_, ?_, ?_⟩
  · rw [hload]
    intro p hp
    cases hp
  · intro id
    rw [hids, hstart, hresult]
    exact h.fresh id
  · rw [hload]
    intro p hp
    cases hp
  · rintro id ⟨p, hp, -⟩
    rw [hload] at hp
    cases hp
  · intro id hstarted
    rw [hstart] at hstarted ⊢
    rw [hresult]
    exact .inr (h.settled hidle hstarted)

/-- the loaded plan has its result -/
theorem Accounted.concluded (h : Accounted log) {planId : String} (hid : planId = ((Servo.loaded log).plan.map Plan.planId).getD "")
    (hnamed : "" ∉ planIds log) (ok : Bool) (reason : String) : Accounted (log ++ [Obs.legResult planId ok reason]) := by
  have hids : planIds (log ++ [Obs.legResult planId ok reason]) = planIds log := by
    rw [planIds_snoc]
    exact List.append_nil _
  have hstart : ∀ id, started id (log ++ [Obs.legResult planId ok reason]) = started id log := fun id => started_snoc id log _
  have hload : Servo.loaded (log ++ [Obs.legResult planId ok reason]) = ⟨none, false⟩ := loaded_snoc log _
  have hother : ∀ id, id ≠ planId → results id (log ++ [Obs.legResult planId ok reason]) = results id log := by
    intro id hne
    have hno : Obs.concludes id (.legResult planId ok reason : Obs K n) = false := beq_false_of_ne (Ne.symm hne)
    rw [results_snoc, hno, if_neg Bool.false_ne_true, add_zero]
  have hself : results planId (log ++ [Obs.legResult planId ok reason]) = results planId log + 1 := by
    rw [results_snoc]
    show results planId log + (if (planId == planId) = true then 1 else 0) = _
    rw [if_pos (beq_self_eq_true planId)]
  refine ⟨?_, ?_, ?_, ?_, ?_⟩
  · rw [hload]
    intro p hp
    cases hp
  · intro id hno
    rw [hids] at hno
    rw [hstart]
    refine ⟨(h.fresh id hno).1, fun hname => ?_⟩
    have hne : id ≠ planId := by
      rintro rfl
      cases hp : (Servo.loaded log).plan with
      | none =>
        rw [hp] at hid
        exact hname hid
      | some p =>
        rw [hp] at hid
        exact hno (hid ▸ h.loaded p hp)
    rw [hother id hne]
    exact (h.fresh id hno).2 hname
  · rw [hload]
    intro p hp
    cases hp
  · rintro id ⟨p, hp, -⟩
    rw [hload] at hp
    cases hp
  · intro id hstarted
    rw [hstart] at hstarted ⊢
    by_cases hne : id = planId
    · subst hne
      -- it is the loaded plan's, and this plan runs: one that was never started has no result to be counted
      rw [hself]
      rcases h.finished id hstarted with hruns | ⟨-, hone⟩
      · obtain ⟨hstarted, hnone⟩ := h.running id hruns
        exact .inr ⟨hstarted, by rw [hnone]⟩
      · cases hp : (Servo.loaded log).plan with
        | none =>
          rw [hp] at hid
          obtain rfl : id = "" := hid
          exact absurd (h.fresh "" hnamed).1 hstarted
        | some p =>
          rw [hp] at hid
          obtain rfl : id = p.planId := hid
          cases hrun : (Servo.loaded log).running with
          | true =>
            have hzero := (h.running p.planId ⟨p, Loaded.eq_mk hp hrun, rfl⟩).2
            rw [hzero] at hone
            cases hone
          | false => exact absurd (h.waiting p (Loaded.eq_mk hp hrun)).1 hstarted
    · rw [hother id hne]
      rcases h.finished id hstarted with ⟨p, hp, rfl⟩ | hover
      · rw [hp] at hid
        exact absurd hid.symm hne
      · exact .inr hover

/-- **An entry that keeps to the rule keeps the account**, unless it is a hold of a running leg. -/
theorem Accounted.snoc (h : Accounted log) (hrule : LegRule log o) (hids : (planIds (log ++ [o])).Nodup)
    (hnamed : "" ∉ planIds (log ++ [o])) (hhold : o = .held → (Servo.loaded log).running = false) : Accounted (log ++ [o]) := by
  cases o with
  | staged p => exact h.staged p hrule hids hnamed
  | refused planId reason report => exact h.refused planId reason report hids
  | released planId trajectory start =>
    obtain ⟨p, hp, rfl⟩ := hrule
    exact h.released hp trajectory start
  | legResult planId ok reason =>
    rw [planIds_snoc] at hnamed
    exact h.concluded hrule (fun hmem => hnamed (List.mem_append_left _ hmem)) ok reason
  | cancelled => exact h.dropped rfl (fun _ => rfl) (fun _ => rfl) hrule fun _ => rfl
  | disarmed => exact h.dropped rfl (fun _ => rfl) (fun _ => rfl) hrule fun _ => rfl
  | held =>
    refine h.quiet rfl (fun _ => rfl) (fun _ => rfl) ?_
    show (⟨(Servo.loaded log).plan, false⟩ : Loaded K n) = Servo.loaded log
    rw [← hhold rfl]
  | _ => exact h.quiet rfl (fun _ => rfl) (fun _ => rfl) rfl

/-! ## runs -/

/-- the plan messages have names of their own, and no `hold` meets a running leg -/
structure Tidy (log : List (Obs K n)) : Prop where
  distinct : (planIds log).Nodup
  named : "" ∉ planIds log
  holds : ∀ p q, log = p ++ Obs.held :: q → (loaded p).running = false

theorem planIds_mono {l : List (Obs K n)} (h : l <+: log) : planIds l <+: planIds log := by
  obtain ⟨rest, rfl⟩ := h
  unfold planIds
  rw [List.filterMap_append]
  exact List.prefix_append _ _

theorem Tidy.sub {l : List (Obs K n)} (h : Tidy log) (hl : l <+: log) : Tidy l where
  distinct := h.distinct.sublist (planIds_mono hl).sublist
  named := fun hmem => h.named ((planIds_mono hl).subset hmem)
  holds := by
    rintro p q rfl
    obtain ⟨rest, rfl⟩ := hl
    exact h.holds p (q ++ rest) (by rw [List.append_assoc, List.cons_append])

theorem accounted (hrule : Justified LegRule log) (h : Tidy log) : Accounted log := by
  induction log using List.reverseRecOn with
  | nil => exact accounted_nil
  | append_singleton log o ih =>
    have hbefore : Justified LegRule log := fun p o' q he => hrule p o' (q ++ [o]) (by rw [he, List.append_assoc, List.cons_append])
    refine (ih hbefore (h.sub (List.prefix_append log [o]))).snoc (hrule log o [] rfl) h.distinct h.named ?_
    rintro rfl
    exact h.holds log [] rfl

end

/-! ## on one joint -/

end ArmControl.Control.Servo
