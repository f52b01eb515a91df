import ArmControl.Execution.StatusFold
import ArmControl.Lib.Run
import ArmControl.Supervisor.RuntimeLoop

/-!
# The ledger over whole runs (`RobotRuntime` in `supervisor/runtime.py`)

* `run_invariant`      what every step of the ledger keeps holds after any calls;
* `logged`             the receipts written for an execution, in order;
* `Recorded`           ids are new, a retained execution is the fold of its receipts, and of no other's;
* `receipts_final`     **the receipts of an execution fold to one status, and an outcome is never revised, through any
                       calls, raises and pruning.**
-/

namespace ArmControl.Supervisor.RobotRuntime
open ArmControl.Execution ArmControl.Control ArmControl.RemoteRt
open Effect

/-- a runtime that was just built -/
def start (cfg : Config) (world : ℕ → Answer) : RobotRuntime :=
  { cfg := cfg, world := world, controller := { modelToken := cfg.modelToken, sourced := cfg.native } }

/-- the runtime after these calls -/
def run (cfg : Config) (world : ℕ → Answer) (ops : List Op) : RobotRuntime := Run.run after (start cfg world) ops

/-- what every step of the ledger keeps, holds after any further calls, whether they return or raise -/
theorem run_invariant {I : RobotRuntime → Prop} (hI : ∀ s t, Step s t → I s → I t) {s : RobotRuntime} (hs : I s) (ops : List Op) :
    I (Run.run after s ops) := by
  induction ops using List.reverseRecOn with
  | nil => exact hs
  | append_singleton ops op ih =>
    rw [Run.run_snoc]
    exact holds_iff.mp ((perform op).keeps hI _ ih)

/-! ## the receipts of an execution -/

def receiptOf : Obs → Option Receipt
  | .receipt r => some r
  | _ => none

/-- the receipts that were written for `e`, in order -/
def logged (s : RobotRuntime) (e : ExecutionId) : List Receipt := (s.log.filterMap receiptOf).filter fun r => r.executionId == e

/-- the id was given to an execution -/
def Given (s : RobotRuntime) (e : ExecutionId) : Prop := 0 < e ∧ e < s.ids

/-- the ids that were not given are new; a known execution is the fold of its receipts, also when it was pruned -/
structure Recorded (s : RobotRuntime) : Prop where
  first : 0 < s.ids
  new : ∀ e, ¬ Given s e → s.executions e = none ∧ logged s e = []
  folded : ∀ e, Given s e → ∃ status, ExecutionStatus.fold (logged s e) = .ok (some status)
  retained : ∀ e ex, s.executions e = some ex →
    ex.status.executionId = e ∧ ex.receipts = logged s e ∧ ExecutionStatus.fold (logged s e) = .ok (some ex.status)

section
variable {s t : RobotRuntime} {e : ExecutionId}

theorem logged_congr (h : t.log = s.log) : logged t e = logged s e := by
  unfold logged
  rw [h]

theorem logged_note {o : Obs} (ho : Remark o) : logged (s.note o) e = logged s e := by
  have hnone : receiptOf o = none := by
    cases o with
    | receipt r => exact absurd ho id
    | created e => rfl
    | illegal e phase err => rfl
    | dropping e d => rfl
    | commitRefused key id => rfl
    | undispatched key id => rfl
    | retired key id how => rfl
    | packet st => rfl
  unfold logged note
  rw [List.filterMap_append, List.filterMap_cons_none hnone, List.filterMap_nil, List.append_nil]

theorem logged_receipt {r : Receipt} (h : t.log = s.log ++ [.receipt r]) :
    logged t e = if r.executionId = e then logged s e ++ [r] else logged s e := by
  unfold logged
  rw [h, List.filterMap_append, List.filter_append]
  show _ ++ [r].filter _ = _
  by_cases he : r.executionId = e
  · rw [if_pos he, List.filter_cons_of_pos (by simpa using he), List.filter_nil]
  · rw [if_neg he, List.filter_cons_of_neg (by simpa using he), List.filter_nil, List.append_nil]

/-- one more receipt -/
theorem fold_snoc {l : List Receipt} {status status' : ExecutionStatus} {r : Receipt}
    (h : ExecutionStatus.fold l = .ok (some status)) (hr : status.apply r = .ok status') :
    ExecutionStatus.fold (l ++ [r]) = .ok (some status') := by
  cases l with
  | nil => cases h
  | cons q l =>
    obtain ⟨first, hfirst, hrest⟩ := ExecutionStatus.fold_cons.mp h
    refine ExecutionStatus.fold_cons.mpr ⟨first, hfirst, ?_⟩
    show (l ++ [r]).foldlM ExecutionStatus.apply first = _
    rw [List.foldlM_append, hrest]
    show [r].foldlM ExecutionStatus.apply status = _
    rw [List.foldlM_cons, hr]
    rfl

/-- what a receipt does to the ledger -/
theorem write_cases {phase : Phase} {reason : String} {evidence : List Evidence} {at_ : ℕ}
    (h : s.write e phase reason evidence at_ = .ok t) :
    s.executions e = none ∧ t = s ∨
      ∃ ex r status drop, s.executions e = some ex ∧ r.executionId = ex.status.executionId ∧ ex.status.apply r = .ok status ∧
        r.phase = phase ∧ t = ({ s with
          executions := Function.update s.executions e
            (some { ex with status := status, receipts := ex.receipts ++ [r], drop := drop }) } : RobotRuntime).note (.receipt r) := by
  unfold write at h
  cases hex : s.executions e with
  | none =>
    rw [hex] at h
    cases h
    exact .inl ⟨rfl, rfl⟩
  | some ex =>
    rw [hex] at h
    dsimp only at h
    generalize hr : (Receipt.mk _ _ _ _ _ _ _) = r at h
    cases hcheck : r.check with
    | error err =>
      rw [hcheck] at h
      cases h
    | ok _ =>
      rw [hcheck] at h
      dsimp only at h
      cases happly : ex.status.apply r with
      | error err =>
        rw [happly] at h
        cases h
      | ok status =>
        rw [happly] at h
        cases h
        refine .inr ⟨ex, r, status, if phase.terminal then none else ex.drop, rfl, by rw [← hr], happly, by rw [← hr], ?_⟩
        unfold updateExecution
        rw [hex]
        rfl

/-- what a new execution does to the ledger -/
theorem create_ok {request : TrajectoryRequest} {stream : Option Stream} {now : ℕ} (h : s.create request stream now = .ok t) :
    ∃ r status, ExecutionStatus.start r = .ok status ∧ r.executionId = s.ids ∧ r.requestId = request.requestId ∧ r.phase = .requested ∧
      t = ((({ s with
        executions := Function.update s.executions s.ids
          (some { request := request, stream := stream, payloadRevision := s.payloadRevision, status := status, receipts := [r] })
        ids := s.ids + 1 } : RobotRuntime).note (.created s.ids)).note (.receipt r)) := by
  unfold create at h
  dsimp only at h
  generalize hr : (Receipt.mk _ _ _ _ _ _ _) = r at h
  cases hstart : ExecutionStatus.start r with
  | error err =>
    rw [hstart] at h
    cases h
  | ok status =>
    rw [hstart] at h
    cases h
    exact ⟨r, status, hstart, by rw [← hr], by rw [← hr], by rw [← hr], rfl⟩

theorem start_executionId {r : Receipt} {status : ExecutionStatus} (h : ExecutionStatus.start r = .ok status) :
    status.executionId = r.executionId := by
  unfold ExecutionStatus.start at h
  split_ifs at h
  cases h
  rfl

/-- a pruned ledger is a part of the ledger, with its live executions -/
structure Pruned (s t : RobotRuntime) : Prop where
  controller : t.controller = s.controller
  ids : t.ids = s.ids
  log : t.log = s.log
  cfg : t.cfg = s.cfg
  executions : ∀ e, t.executions e = s.executions e ∨ t.executions e = none ∧ s.isLive e = false

theorem Pruned.refl (s : RobotRuntime) : Pruned s s := ⟨rfl, rfl, rfl, rfl, fun _ => .inl rfl⟩

theorem isLive_congr (h : t.executions e = s.executions e) : t.isLive e = s.isLive e := by
  unfold isLive
  rw [h]

theorem Pruned.trans {u : RobotRuntime} (h : Pruned s t) (h' : Pruned t u) : Pruned s u := by
  refine ⟨h'.controller.trans h.controller, h'.ids.trans h.ids, h'.log.trans h.log, h'.cfg.trans h.cfg, fun e => ?_⟩
  rcases h.executions e with heq | ⟨hnone, hdead⟩
  · rcases h'.executions e with heq' | ⟨hnone, hdead⟩
    · exact .inl (heq'.trans heq)
    · exact .inr ⟨hnone, (isLive_congr heq).symm.trans hdead⟩
  · rcases h'.executions e with heq' | ⟨hnone', -⟩
    · exact .inr ⟨heq'.trans hnone, hdead⟩
    · exact .inr ⟨hnone', hdead⟩

theorem pruned_foldl {α : Type} {f : RobotRuntime → α → RobotRuntime} (hf : ∀ s a, Pruned s (f s a)) (l : List α) (s : RobotRuntime) :
    Pruned s (l.foldl f s) := by
  induction l generalizing s with
  | nil => exact Pruned.refl s
  | cons a l ih => exact (hf s a).trans (ih (f s a))

theorem pruned_pruneExecution (s : RobotRuntime) (e : ExecutionId) : Pruned s (s.pruneExecution e) := by
  unfold pruneExecution
  cases hex : s.executions e with
  | none => exact Pruned.refl s
  | some ex =>
    dsimp only
    split_ifs with hpop
    · refine ⟨rfl, rfl, rfl, rfl, fun e' => ?_⟩
      by_cases he : e' = e
      · subst he
        refine .inr ⟨Function.update_self .., ?_⟩
        unfold isLive
        rw [hex, Option.any_some]
        simpa using (Bool.and_eq_true_iff.mp hpop).2
      · exact .inl (Function.update_of_ne he _ _)
    · exact Pruned.refl s

theorem pruned_prune (s : RobotRuntime) : Pruned s s.prune := by
  have hattempts : Pruned s s.pruneAttempts := by
    unfold pruneAttempts
    have hstep : ∀ t a, Pruned t (if t.excess && !s.protects a && a.phase != .requested then t.popAttempt a else t) := by
      intro t a
      split_ifs
      · exact ⟨rfl, rfl, rfl, rfl, fun _ => .inl rfl⟩
      · exact Pruned.refl t
    exact pruned_foldl hstep _ s
  exact hattempts.trans (pruned_foldl pruned_pruneExecution _ _)

theorem Recorded.aside (h : Recorded s) (hids : t.ids = s.ids) (hlog : ∀ e, logged t e = logged s e)
    (hexecutions : ∀ e ex', t.executions e = some ex' → ∃ ex, s.executions e = some ex ∧ ex'.status = ex.status ∧ ex'.receipts = ex.receipts) :
    Recorded t := by
  have hgiven : ∀ e, Given t e ↔ Given s e := fun e => by rw [Given, hids, Given]
  refine ⟨hids ▸ h.first, fun e he => ?_, fun e he => ?_, fun e ex' hex' => ?_⟩
  · rw [hgiven] at he
    refine ⟨?_, (hlog e).trans (h.new e he).2⟩
    cases hex' : t.executions e with
    | none => rfl
    | some ex' =>
      obtain ⟨ex, hex, -⟩ := hexecutions e ex' hex'
      rw [(h.new e he).1] at hex
      cases hex
  · rw [hlog]
    exact h.folded e ((hgiven e).mp he)
  · obtain ⟨ex, hex, hstatus, hreceipts⟩ := hexecutions e ex' hex'
    rw [hlog, hstatus, hreceipts]
    exact h.retained e ex hex

theorem update_edit {f : Execution → Execution} (hf : Edit f) (e' : ExecutionId) (ex' : Execution)
    (h : (s.updateExecution e f).executions e' = some ex') :
    ∃ ex, s.executions e' = some ex ∧ ex'.status = ex.status ∧ ex'.receipts = ex.receipts := by
  change Function.update s.executions e _ e' = some ex' at h
  by_cases he : e' = e
  · subst he
    rw [Function.update_self] at h
    obtain ⟨ex, hex, rfl⟩ := Option.map_eq_some_iff.mp h
    exact ⟨ex, hex, hf.status ex, hf.receipts ex⟩
  · rw [Function.update_of_ne he] at h
    exact ⟨ex', h, rfl, rfl⟩

/-- one more receipt of a retained execution -/
theorem Recorded.write (h : Recorded s) {phase : Phase} {reason : String} {evidence : List Evidence} {at_ : ℕ}
    (hw : s.write e phase reason evidence at_ = .ok t) : Recorded t := by
  obtain ⟨-, rfl⟩ | ⟨ex, r, status, drop, hex, hid, happly, -, ht⟩ := write_cases hw
  · exact h
  have hlog : t.log = s.log ++ [.receipt r] := by rw [ht]; rfl
  have hids : t.ids = s.ids := by rw [ht]; rfl
  have hexecutions : t.executions = Function.update s.executions e
      (some { ex with status := status, receipts := ex.receipts ++ [r], drop := drop }) := by rw [ht]; rfl
  obtain ⟨hown, hreceipts, hfold⟩ := h.retained e ex hex
  have hr : r.executionId = e := hid.trans hown
  have hgiven : ∀ e', Given t e' ↔ Given s e' := fun e' => by rw [Given, hids, Given]
  have he : Given s e := by
    by_contra hno
    rw [(h.new e hno).1] at hex
    cases hex
  have hself : logged t e = logged s e ++ [r] := (logged_receipt hlog).trans (if_pos hr)
  have hother : ∀ e', e' ≠ e → logged t e' = logged s e' := fun e' he' =>
    (logged_receipt hlog).trans (if_neg fun heq => he' (heq.symm.trans hr))
  refine ⟨hids ▸ h.first, fun e' he' => ?_, fun e' he'' => ?_, fun e' ex' hex' => ?_⟩
  · rw [hgiven] at he'
    have hne : e' ≠ e := fun heq => he' (heq ▸ he)
    rw [hother e' hne, hexecutions, Function.update_of_ne hne]
    exact h.new e' he'
  · by_cases he' : e' = e
    · subst he'
      exact ⟨status, hself ▸ fold_snoc hfold happly⟩
    · rw [hother e' he']
      exact h.folded e' ((hgiven e').mp he'')
  · rw [hexecutions] at hex'
    by_cases he' : e' = e
    · subst he'
      rw [Function.update_self] at hex'
      cases hex'
      rw [hself]
      refine ⟨?_, by rw [← hreceipts], fold_snoc hfold happly⟩
      exact (apply_executionId happly).trans hown
    · rw [Function.update_of_ne he'] at hex'
      rw [hother e' he']
      exact h.retained e' ex' hex'

/-- a new execution -/
theorem Recorded.create (h : Recorded s) {request : TrajectoryRequest} {stream : Option Stream} {now : ℕ}
    (hc : s.create request stream now = .ok t) : Recorded t := by
  obtain ⟨r, status, hstart, hid, -, -, ht⟩ := create_ok hc
  have hids : t.ids = s.ids + 1 := by rw [ht]; rfl
  have hexecutions : t.executions = Function.update s.executions s.ids
      (some { request := request, stream := stream, payloadRevision := s.payloadRevision, status := status, receipts := [r] }) := by
    rw [ht]
    rfl
  have hlog : ∀ e', logged t e' = if r.executionId = e' then logged s e' ++ [r] else logged s e' := fun e' => by
    have hcreated : logged (s.note (.created s.ids)) e' = logged s e' := by
      unfold logged RobotRuntime.note
      rw [List.filterMap_append]
      exact congrArg _ (List.append_nil _)
    rw [← hcreated]
    exact logged_receipt (by rw [ht]; rfl)
  have hself : logged t s.ids = [r] := by
    rw [hlog, if_pos hid, (h.new s.ids fun hno => lt_irrefl _ hno.2).2, List.nil_append]
  have hother : ∀ e', e' ≠ s.ids → logged t e' = logged s e' := fun e' he' => by
    rw [hlog, if_neg fun heq => he' (heq.symm.trans hid)]
  have hfold : ExecutionStatus.fold [r] = .ok (some status) := ExecutionStatus.fold_cons.mpr ⟨status, hstart, rfl⟩
  have hgiven : ∀ e', Given t e' ↔ e' = s.ids ∨ Given s e' := fun e' => by
    rw [Given, hids, Given, Nat.lt_succ_iff_lt_or_eq]
    constructor
    · rintro ⟨hpos, hlt | heq⟩
      · exact .inr ⟨hpos, hlt⟩
      · exact .inl heq
    · rintro (heq | ⟨hpos, hlt⟩)
      · exact ⟨heq ▸ h.first, .inr heq⟩
      · exact ⟨hpos, .inl hlt⟩
  refine ⟨hids ▸ Nat.succ_pos _, fun e' he' => ?_, fun e' he'' => ?_, fun e' ex' hex' => ?_⟩
  · rw [hgiven, not_or] at he'
    rw [hother e' he'.1, hexecutions, Function.update_of_ne he'.1]
    exact h.new e' he'.2
  · rw [hgiven] at he''
    by_cases he' : e' = s.ids
    · subst he'
      exact ⟨status, hself ▸ hfold⟩
    · rw [hother e' he']
      exact h.folded e' (he''.resolve_left he')
  · rw [hexecutions] at hex'
    by_cases he' : e' = s.ids
    · subst he'
      rw [Function.update_self] at hex'
      cases hex'
      rw [hself]
      exact ⟨(start_executionId hstart).trans hid, rfl, hfold⟩
    · rw [Function.update_of_ne he'] at hex'
      rw [hother e' he']
      exact h.retained e' ex' hex'

end

theorem recorded_start (cfg : Config) (world : ℕ → Answer) : Recorded (start cfg world) := by
  refine ⟨Nat.one_pos, fun e _ => ⟨rfl, rfl⟩, fun e he => ?_, fun e ex hex => ?_⟩
  · exact absurd (Nat.le_of_lt_succ he.2) (Nat.not_le_of_lt he.1)
  · cases hex

theorem Recorded.step {s t : RobotRuntime} (hstep : Step s t) (h : Recorded s) : Recorded t := by
  cases hstep with
  | beside hb => exact h.aside hb.ids (fun _ => logged_congr hb.log) fun e ex' hex' => ⟨ex', hb.executions ▸ hex', rfl, rfl⟩
  | edited e hf => exact h.aside rfl (fun _ => rfl) fun e' ex' hex' => update_edit hf e' ex' hex'
  | remarked ho => exact h.aside rfl (fun _ => logged_note ho) fun _ ex' hex' => ⟨ex', hex', rfl, rfl⟩
  | written hw => exact h.write hw
  | submitted hc => exact (h.create hc).aside rfl (fun _ => rfl) fun _ ex' hex' => ⟨ex', hex', rfl, rfl⟩
  | opened hc => exact h.create hc
  | pruned =>
    have hp := pruned_prune s
    refine h.aside hp.ids (fun _ => logged_congr hp.log) fun e ex' hex' => ?_
    rcases hp.executions e with heq | ⟨hnone, -⟩
    · exact ⟨ex', heq ▸ hex', rfl, rfl⟩
    · rw [hnone] at hex'
      cases hex'

/-- nothing is taken back -/
theorem log_grows {s t : RobotRuntime} (hstep : Step s t) : s.log <+: t.log := by
  cases hstep with
  | beside hb => exact hb.log ▸ List.prefix_refl _
  | edited e hf => exact List.prefix_refl _
  | remarked ho => exact List.prefix_append _ _
  | written hw =>
    obtain ⟨-, rfl⟩ | ⟨_, _, _, _, _, _, _, _, rfl⟩ := write_cases hw
    · exact List.prefix_refl _
    · exact List.prefix_append _ _
  | submitted hc | opened hc =>
    obtain ⟨_, _, _, _, _, _, rfl⟩ := create_ok hc
    exact (List.prefix_append _ _).trans (List.prefix_append _ _)
  | pruned => exact (pruned_prune s).log ▸ List.prefix_refl _

theorem recorded_run (cfg : Config) (world : ℕ → Answer) (ops : List Op) : Recorded (run cfg world ops) :=
  run_invariant (fun _ _ hstep h => h.step hstep) (recorded_start cfg world) ops

theorem logged_grows (cfg : Config) (world : ℕ → Answer) (ops more : List Op) (e : ExecutionId) :
    logged (run cfg world ops) e <+: logged (run cfg world (ops ++ more)) e := by
  have hlog : (run cfg world ops).log <+: (run cfg world (ops ++ more)).log := by
    unfold run
    rw [Run.run_append]
    have hkeeps : ∀ s t, Step s t → (run cfg world ops).log <+: s.log → (run cfg world ops).log <+: t.log :=
      fun s t hstep h => h.trans (log_grows hstep)
    exact run_invariant hkeeps (List.prefix_refl _) more
  exact (hlog.filterMap _).filter _

/-! ## outcomes -/

/-- what a later status keeps of an earlier one -/
structure Later (status later : ExecutionStatus) : Prop where
  reached : status.reached <+: later.reached
  final : status.terminal = true → later = status

theorem later_apply {status later : ExecutionStatus} {r : Receipt} (h : status.apply r = .ok later) : Later status later := by
  obtain ⟨-, ⟨-, rfl⟩ | ⟨-, hfollows, rfl⟩⟩ := ExecutionStatus.apply_ok h
  · exact ⟨List.prefix_refl _, fun _ => rfl⟩
  · refine ⟨List.prefix_append _ _, fun hterminal => ?_⟩
    exact absurd (hfollows.1.symm.trans hterminal) Bool.false_ne_true

theorem later_foldlM {status later : ExecutionStatus} {l : List Receipt} (h : l.foldlM ExecutionStatus.apply status = .ok later) :
    Later status later := by
  induction l generalizing status with
  | nil =>
    cases h
    exact ⟨List.prefix_refl _, fun _ => rfl⟩
  | cons r l ih =>
    rw [List.foldlM_cons] at h
    cases hr : status.apply r with
    | error err =>
      rw [hr] at h
      cases h
    | ok next =>
      rw [hr] at h
      have hnext := later_apply hr
      have hlast := ih h
      refine ⟨hnext.reached.trans hlast.reached, fun hterminal => ?_⟩
      have hsame := hnext.final hterminal
      rw [hlast.final (hsame ▸ hterminal), hsame]

theorem later_fold {status later : ExecutionStatus} {l m : List Receipt} (hl : ExecutionStatus.fold l = .ok (some status))
    (hm : ExecutionStatus.fold (l ++ m) = .ok (some later)) : Later status later := by
  cases l with
  | nil => cases hl
  | cons r l =>
    obtain ⟨first, hfirst, hrest⟩ := ExecutionStatus.fold_cons.mp hl
    obtain ⟨first', hfirst', hrest'⟩ := ExecutionStatus.fold_cons.mp hm
    cases hfirst.symm.trans hfirst'
    change (l ++ m).foldlM ExecutionStatus.apply first = _ at hrest'
    rw [List.foldlM_append, hrest] at hrest'
    exact later_foldlM hrest'

/-- every reached outcome is the phase -/
def OneOutcome (status : ExecutionStatus) : Prop := ∀ p, status.has p = true → p.terminal = true → status.phase = p

theorem OneOutcome.apply {status later : ExecutionStatus} (h : OneOutcome status) {r : Receipt} (hr : status.apply r = .ok later) :
    OneOutcome later := by
  obtain ⟨-, ⟨-, rfl⟩ | ⟨-, hfollows, rfl⟩⟩ := ExecutionStatus.apply_ok hr
  · exact h
  · intro p hp hterminal
    rw [ExecutionStatus.has_snoc, Bool.or_eq_true] at hp
    rcases hp with hp | hp
    · rw [← h p hp hterminal, hfollows.1] at hterminal
      cases hterminal
    · exact eq_of_beq hp

theorem oneOutcome_foldlM {status later : ExecutionStatus} {l : List Receipt} (h : OneOutcome status)
    (hl : l.foldlM ExecutionStatus.apply status = .ok later) : OneOutcome later := by
  induction l generalizing status with
  | nil =>
    cases hl
    exact h
  | cons r l ih =>
    rw [List.foldlM_cons] at hl
    cases hr : status.apply r with
    | error err =>
      rw [hr] at hl
      cases hl
    | ok next =>
      rw [hr] at hl
      exact ih (h.apply hr) hl

theorem oneOutcome_fold {status : ExecutionStatus} {l : List Receipt} (h : ExecutionStatus.fold l = .ok (some status)) :
    OneOutcome status := by
  cases l with
  | nil => cases h
  | cons r l =>
    obtain ⟨first, hfirst, hrest⟩ := ExecutionStatus.fold_cons.mp h
    refine oneOutcome_foldlM (fun p hp _ => ?_) hrest
    obtain ⟨-, hphase, hreached, -⟩ := ExecutionStatus.start_ok hfirst
    rw [ExecutionStatus.has, hreached] at hp
    rw [hphase]
    simpa using hp

/-- **Receipts are final.**  Through any calls, raises and pruning, an id that was given is never given again; the receipts written for
it fold to one status, which is the retained one; a later status only adds phases; and an outcome is never followed by another. -/
theorem receipts_final (cfg : Config) (world : ℕ → Answer) (ops more : List Op) :
    (∀ e ex, (run cfg world ops).executions e = some ex → ex.status.executionId = e ∧ ex.receipts = logged (run cfg world ops) e ∧
      ExecutionStatus.fold (logged (run cfg world ops) e) = .ok (some ex.status)) ∧
    (∀ e, ¬ Given (run cfg world ops) e → (run cfg world ops).executions e = none ∧ logged (run cfg world ops) e = []) ∧
    (∀ e, Given (run cfg world ops) e → ∃ status later, ExecutionStatus.fold (logged (run cfg world ops) e) = .ok (some status) ∧
      ExecutionStatus.fold (logged (run cfg world (ops ++ more)) e) = .ok (some later) ∧ Later status later) ∧
    ∀ e r r', r ∈ logged (run cfg world ops) e → r' ∈ logged (run cfg world ops) e → r.phase.terminal = true →
      r'.phase.terminal = true → r.phase = r'.phase := by
  have hrec := recorded_run cfg world ops
  refine ⟨hrec.retained, hrec.new, fun e he => ?_, fun e r r' hr hr' hterm hterm' => ?_⟩
  · obtain ⟨status, hstatus⟩ := hrec.folded e he
    obtain ⟨m, hm⟩ := logged_grows cfg world ops more e
    have hlater : ∃ later, ExecutionStatus.fold (logged (run cfg world (ops ++ more)) e) = .ok (some later) := by
      refine (recorded_run cfg world (ops ++ more)).folded e ?_
      by_contra hno
      have hnil := ((recorded_run cfg world (ops ++ more)).new e hno).2
      rw [hnil] at hm
      rw [(List.append_eq_nil_iff.mp hm).1] at hstatus
      cases hstatus
    obtain ⟨later, hlater⟩ := hlater
    exact ⟨status, later, hstatus, hlater, later_fold hstatus (hm ▸ hlater)⟩
  · have he : Given (run cfg world ops) e := by
      by_contra hno
      rw [(hrec.new e hno).2] at hr
      cases hr
    obtain ⟨status, hstatus⟩ := hrec.folded e he
    have hone := oneOutcome_fold hstatus
    have hphase := hone r.phase (ExecutionStatus.settled_fold hstatus hr).2 hterm
    exact hphase.symm.trans (hone r'.phase (ExecutionStatus.settled_fold hstatus hr').2 hterm')

end ArmControl.Supervisor.RobotRuntime
