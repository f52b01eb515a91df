import Mathlib.Logic.Relation
import ArmControl.Lib.Run
import ArmControl.Clients.ChunkMoves

/-!
# Action chunks are never retroactive

* `view`, `Path`      the view of a state, and a chain of moves;
* `cancel_path`, `send_path`, `submit_path`, `pump_path`   one lemma for each call;
* `Loses`             the calls that lose or displace a waiting chunk;
* `chunk_discipline`  **the rules of every run in which none of them happens.**
-/

namespace ArmControl.Clients.Chunks

open Effect History Execution.Values

namespace ActionChunkClient

variable {σ : Type} {c : Config σ} {bad : Prop} {s t u : ActionChunkClient σ} {v v₀ : View} {w : Submission}

def view (s : ActionChunkClient σ) (hand : Option Submission) : View where
  log := s.link.log
  generation := s.generation
  session := s.session
  inflight := s.inflight
  waiting := s.waiting
  sentObsNs := s.sentObsNs
  cancelPending := s.cancelPending
  submissions := s.submissions
  nextOpen := s.link.nextOpen
  lists := Report.lists s.report
  hand := hand
  sent := none

abbrev Path (c : Config σ) (bad : Prop) : View → View → Prop := Relation.ReflTransGen (Move c bad)

/-- a part that only reads the world -/
theorem view_linked {l : Link σ Entry} (hlog : l.log = s.link.log) (hopen : l.nextOpen = s.link.nextOpen)
    (hand : Option Submission) : (s.setLink l).view hand = s.view hand := by
  show View.mk l.log _ _ _ _ _ _ _ l.nextOpen _ _ _ = _
  rw [hlog, hopen]
  rfl

/-! ## cancel and start -/

/-- nothing is open, waiting or in flight -/
structure Clear (s : ActionChunkClient σ) : Prop where
  session : s.session = none
  inflight : s.inflight = none
  waiting : s.waiting = none
  cancelPending : s.cancelPending = false

theorem cancel_path {reason : String} (hlost : s.waiting = none ∨ bad) :
    Ends (fun ok t => Path c bad (s.view none) (t.view none) ∧ (ok = true → Clear t)) (fun _ _ => False)
      (cancel c reason) s := by
  have hrenew : Path c bad (s.view none) { s.renewed.view none with cancelPending := true } :=
    .single (.renew hlost ⟨rfl, rfl⟩)
  unfold cancel
  rw [ends_bind, ends_modify, ends_bind, ends_get]
  cases hs : s.session with
  | none =>
    have hs' : s.renewed.session = none := hs
    rw [hs']
    refine ⟨hrenew.tail ?_, fun _ => ⟨rfl, rfl, rfl, rfl⟩⟩
    have hview : (cancelConfirmed none s.renewed).view none =
        { ({ s.renewed.view none with cancelPending := true } : View) with cancelPending := false } := by
      show View.mk _ _ none _ _ _ _ _ _ _ _ _ = View.mk _ _ s.session _ _ _ _ _ _ _ _ _
      rw [hs]
      rfl
    rw [hview]
    exact .confirm hs
  | some ss =>
    have hs' : s.renewed.session = some ss := hs
    rw [hs']
    show Ends _ _ (linked (close c.arm (.cancelling ss.serial) ss reason) >>= _) s.renewed
    unfold linked
    rw [ends_bind, ends_zoom]
    refine close_log.mono (fun r l hr => ?_) fun _ _ hf => hf
    -- the cancel is requested of an open session
    have hasked : Path c bad (s.view none) { (s.renewed.setLink l).view none with cancelPending := true } := by
      have hlog := hr.log
      have hview : ({ (s.renewed.setLink l).view none with cancelPending := true } : View) =
          { ({ s.renewed.view none with cancelPending := true } : View) with log := l.log } := by
        show View.mk _ _ _ _ _ _ _ _ l.nextOpen _ _ _ = View.mk _ _ _ _ _ _ _ _ s.renewed.link.nextOpen _ _ _
        rw [hr.nextOpen]
        rfl
      rw [hview, hlog]
      split_ifs
      · exact hrenew
      · exact hrenew.tail (.ask ss hs rfl)
    refine ends_ite (fun _ => ⟨hasked.tail ?_, fun _ => ⟨rfl, rfl, rfl, rfl⟩⟩) fun hno => ⟨hasked.tail ?_, nofun⟩
    · show Move c bad _ ((cancelConfirmed (some r.2) (s.renewed.setLink l)).view none)
      have hmove : Move c bad _ _ := Move.gone (v := { (s.renewed.setLink l).view none with cancelPending := true }) ss hs
      rw [← hr.serial] at hmove
      exact hmove
    · have hclosed : r.2.closed = ss.closed := by
        rw [hr.closed, hr.unconfirmed (Bool.eq_false_of_not_eq_true hno), Bool.eq_false_of_not_eq_true hno]
      exact Move.keep (v := { (s.renewed.setLink l).view none with cancelPending := true }) ss r.2 hs
        hr.serial hclosed

theorem checkProfile_view (hand : Option Submission) :
    Holds (fun t => t.view hand = s.view hand ∧ t.waiting = s.waiting) (checkProfile c) s := by
  have hexpect : ∀ (expected profile : Option String) (t : ActionChunkClient σ), t.view hand = s.view hand ∧ t.waiting = s.waiting →
      Holds (fun t => t.view hand = s.view hand ∧ t.waiting = s.waiting) (profileAsExpected c expected profile) t := by
    intro expected profile t ht
    unfold profileAsExpected
    cases expected with
    | none => exact ht
    | some e => exact ends_ite (fun _ => ht) fun _ => ends_ite (fun _ => ht) fun _ => ht
  unfold checkProfile Holds
  refine ends_ite (fun _ => hexpect _ _ s ⟨rfl, rfl⟩) fun _ => ?_
  unfold linked
  rw [ends_bind, ends_zoom]
  refine ends_attempt_of fun r w => ?_
  cases r with
  | ok state => exact hexpect _ _ _ ⟨rfl, rfl⟩
  | error e =>
    show Ends _ _ (profileUnread _ e) _
    unfold profileUnread
    cases c.spec.bind ActionSpec.controlProfile with
    | none => exact ⟨rfl, rfl⟩
    | some p => exact ⟨rfl, rfl⟩

theorem openNew_path (profile : Option String) (hclear : Clear s) :
    Holds (fun t => Path c bad (s.view none) (t.view none)) (openNew c profile) s := by
  have hbump : Path c bad (s.view none) (s.nextGeneration.view none) :=
    .single (.bump hclear.session ⟨rfl, rfl, hclear.inflight, hclear.waiting⟩)
  unfold openNew linked Holds
  rw [ends_bind, ends_modify, ends_bind, ends_zoom]
  refine openSession_log.mono (fun ss l hl => ?_) fun _ l hl => ?_
  · have hlog : l.log = s.nextGeneration.link.log := hl.1
    have hmove : Move c bad _ _ := Move.open_ (v := s.nextGeneration.view none) ss hclear.session hl.2.1 hl.2.2.1.ge
      ⟨rfl, rfl, hclear.inflight, hclear.waiting⟩ hclear.cancelPending ⟨s.link.log, rfl⟩
    have hview : (opened ss profile (s.nextGeneration.setLink l)).view none =
        { (s.nextGeneration.view none).add (.opened ss.serial) with
          session := some ss, nextOpen := ss.serial + 1, sentObsNs := -1 } := by
      show View.mk (l.log ++ [_]) _ _ none none _ _ _ l.nextOpen _ _ _ =
        View.mk (s.nextGeneration.link.log ++ [_]) _ _ s.inflight s.waiting _ _ _ _ _ _ _
      rw [hlog, hl.2.2.2, hl.2.2.1, hclear.inflight, hclear.waiting]
      rfl
    rw [ends_modify, hview]
    exact hbump.tail hmove
  · have hlog : l.log = s.nextGeneration.link.log := hl.1
    have hview : (s.nextGeneration.setLink l).view none = { s.nextGeneration.view none with nextOpen := l.nextOpen } := by
      show View.mk l.log _ _ _ _ _ _ _ _ _ _ _ = _
      rw [hlog]
      rfl
    rw [hview]
    exact hbump.tail (.draw l.nextOpen hl.2)

theorem start_path (hlost : s.waiting = none ∨ bad ∨ ∃ e t, checkProfile c s = .error e t) :
    Holds (fun t => Path c bad (s.view none) (t.view none)) (start c) s := by
  unfold start Holds
  rw [ends_bind]
  refine ends_of (fun profile t ht => ?_) fun e t ht => ?_
  · obtain ⟨hview, hwait⟩ := (checkProfile_view none).of_ok ht
    have hlost' : t.waiting = none ∨ bad := by
      rw [hwait]
      rcases hlost with h | h | ⟨e, u, h⟩
      · exact .inl h
      · exact .inr h
      · exact absurd (h.symm.trans ht) nofun
    rw [ends_bind, ← hview]
    refine (cancel_path hlost').mono (fun ok u hu => ?_) fun _ _ hf => hf.elim
    refine ends_ite (fun hok => ?_) fun _ => hu.1
    exact (openNew_path profile (hu.2 hok)).mono (fun _ _ h => hu.1.trans h) fun _ _ h => hu.1.trans h
  · rw [← ((checkProfile_view none).of_error ht).1]

/-! ## sending -/

/-- the chunk passed the checks at `now` -/
structure Passed (c : Config σ) (s : ActionChunkClient σ) (k : Chunk) (now : ℤ) : Prop where
  opened : ∃ ss, s.session = some ss ∧ ss.closed = false
  pending : s.cancelPending = false
  generation : k.generation = s.generation
  age : ((now - k.observedNs : ℤ) : ℚ) / 10 ^ 9 ≤ c.maxAgeS
  newest : s.newest ≤ k.observedNs

theorem passed_of {k : Chunk} {now : Checked Stamp} (hshape : s.shapeVerdict c k = none) (hage : s.ageVerdict c k now = none) :
    Passed c s k now.val.ns := by
  unfold shapeVerdict at hshape
  unfold ageVerdict at hage
  split_ifs at hshape with hpending hclosed hgen
  split_ifs at hage with _ hold hnew
  refine ⟨?_, Bool.eq_false_of_not_eq_true hpending, not_not.mp hgen, not_lt.mp hold, not_lt.mp hnew⟩
  cases hs : s.session with
  | none =>
    rw [hs] at hclosed
    exact absurd rfl hclosed
  | some ss =>
    rw [hs] at hclosed
    exact ⟨ss, rfl, Bool.eq_false_of_not_eq_true hclosed⟩

/-- what the check of a chunk finds in a state whose world answers -/
def verdictOf (c : Config σ) (s : ActionChunkClient σ) (k : Chunk) : Except Verdict ℤ :=
  match s.shapeVerdict c k with
  | some v => .error v
  | none =>
    match c.arm.now s.link.world with
    | .error e _ => .error (.refused ("cannot age the observation: " ++ e.text))
    | .ok now _ =>
      match s.ageVerdict c k now with
      | some v => .error v
      | none => .ok now.val.ns

theorem check_ends (k : Chunk) :
    Ends (fun r t => r = verdictOf c s k ∧ ∃ w, t = s.setLink (s.link.setWorld w)) (fun _ _ => False) (check c k) s := by
  unfold check verdictOf
  rw [ends_bind, ends_get]
  cases s.shapeVerdict c k with
  | some v => exact ⟨rfl, s.link.world, rfl⟩
  | none =>
    show Ends _ _ (linked (attempt c.arm.now) >>= _) s
    unfold linked
    rw [ends_bind, ends_zoom, ends_attempt]
    refine ends_of (fun now w hw => ?_) fun e w hw => ?_
    · rw [hw]
      show Ends _ _ (match s.ageVerdict c k now with
        | some v => (pure (Except.error v) : Act σ (Except Verdict ℤ))
        | none => pure (Except.ok now.val.ns)) _
      cases hage : s.ageVerdict c k now with
      | some v => exact ⟨by simp only [hage], w, rfl⟩
      | none => exact ⟨by simp only [hage], w, rfl⟩
    · rw [hw]
      exact ⟨rfl, w, rfl⟩

theorem passed_of_verdict {k : Chunk} {now : ℤ} (h : verdictOf c s k = .ok now) : Passed c s k now := by
  unfold verdictOf at h
  cases hshape : s.shapeVerdict c k with
  | some v =>
    rw [hshape] at h
    cases h
  | none =>
    rw [hshape] at h
    cases hw : c.arm.now s.link.world with
    | error e w =>
      simp only [hw] at h
      cases h
    | ok stamp w =>
      simp only [hw] at h
      cases hage : s.ageVerdict c k stamp with
      | some v =>
        rw [hage] at h
        cases h
      | none =>
        rw [hage] at h
        obtain rfl := Except.ok.inj h
        exact passed_of hshape hage

/-- the chunk is at hand, or its revision is being sent, in a view of `s` -/
def Busy (s : ActionChunkClient σ) (w : Submission) (v : View) : Prop :=
  v = s.view (some w) ∨ v = { s.view none with sent := some w }

theorem Busy.hands (h : Busy s w v) : v.hand = some w ∧ v.sent = none ∨ v.sent = some w ∧ v.hand = none := by
  rcases h with rfl | rfl
  · exact .inl ⟨rfl, rfl⟩
  · exact .inr ⟨rfl, rfl⟩

theorem Busy.refuse (h : Busy s w v) (hv : Path c bad v₀ v) (reason : String) :
    Path c bad v₀ ((s.refuse w reason).view none) := by
  have hview : (s.refuse w reason).view none = { v.add (.refused w.number w.chunk) with
      hand := none, sent := none, lists := { v.lists with refused := v.lists.refused ++ [w.chunk.chunkId] } } := by
    have hlists : Report.lists (s.report.refuse w.chunk.chunkId reason) =
        { Report.lists s.report with refused := (Report.lists s.report).refused ++ [w.chunk.chunkId] } := by
      show Lists.mk _ ((s.report.refused ++ [_]).map Prod.fst) _ _ = _
      rw [List.map_append]
      rfl
    rcases h with rfl | rfl <;> exact congrArg (View.mk _ _ _ _ _ _ _ _ _ · none none) hlists
  rw [hview]
  exact hv.tail (.refuse w h.hands)

/-- a status adds a refusal to the report at most -/
theorem noteOutcome_lists (r : Report) (id : String) (status : RevisionStatus) :
    ∃ l, (Report.lists r).refused.Sublist l ∧ Report.lists (r.noteOutcome id status) = { Report.lists r with refused := l } := by
  have hrefuse : ∀ reason, ∃ l, (Report.lists r).refused.Sublist l ∧
      Report.lists (r.refuseOnce id reason) = { Report.lists r with refused := l } := fun reason => by
    unfold Report.refuseOnce
    split_ifs
    · exact ⟨_, List.Sublist.refl _, rfl⟩
    · refine ⟨(Report.lists r).refused ++ [id], List.sublist_append_left _ _, ?_⟩
      show Lists.mk _ ((r.refused ++ [_]).map Prod.fst) _ _ = _
      rw [List.map_append]
      rfl
  have hadmit : Report.lists (r.admitOnce id) = Report.lists r := by
    unfold Report.admitOnce
    split_ifs <;> rfl
  have hselect : ∀ r : Report, Report.lists (r.select id) = Report.lists r := fun r => by
    unfold Report.select
    split_ifs <;> rfl
  unfold Report.noteOutcome
  cases classify status with
  | ended => exact hrefuse _
  | refused => exact hrefuse _
  | admitted => exact ⟨_, List.Sublist.refl _, hadmit⟩
  | selected => exact ⟨_, List.Sublist.refl _, (hselect _).trans hadmit⟩
  | pending => exact ⟨_, List.Sublist.refl _, rfl⟩

/-- a request, with a report that lists it -/
theorem Busy.request (h : Busy s w v) (hv : Path c bad v₀ v) (hf : s.inflight = none) (rid : String) {r : Report}
    (hr : ∃ l, (Report.lists s.report).refused.Sublist l ∧ Report.lists r =
      { Report.lists s.report with requested := s.report.requested ++ [w.chunk.chunkId], refused := l }) :
    Path c bad v₀ ((((s.setReport r).add (.requested w.number w.chunk)).setInflight (some ⟨w, rid⟩)).view none) := by
  obtain ⟨l, hl, hlists⟩ := hr
  have hmove : Path c bad v₀ { v.add (.requested w.number w.chunk) with
      hand := none, sent := none, inflight := some ⟨w, rid⟩
      lists := { v.lists with requested := v.lists.requested ++ [w.chunk.chunkId] } } := by
    refine hv.tail (.request w rid h.hands ?_)
    rcases h with rfl | rfl <;> exact hf
  have hview : (((s.setReport r).add (.requested w.number w.chunk)).setInflight (some ⟨w, rid⟩)).view none =
      { ({ v.add (.requested w.number w.chunk) with
          hand := none, sent := none, inflight := some ⟨w, rid⟩
          lists := { v.lists with requested := v.lists.requested ++ [w.chunk.chunkId] } } : View) with
        lists := { v.lists with requested := v.lists.requested ++ [w.chunk.chunkId], refused := l } } := by
    rcases h with rfl | rfl <;> exact congrArg (View.mk _ _ _ _ _ _ _ _ _ · none none) hlists
  rw [hview]
  refine hmove.tail (.list l ?_)
  rcases h with rfl | rfl <;> exact hl

theorem unanswered_path (h : Busy s w v) (hv : Path c bad v₀ v) (hf : s.inflight = none) (rid text : String) :
    Path c bad v₀ ((unanswered w rid text s).view none) := by
  refine h.request hv hf rid ⟨_, List.Sublist.refl _, ?_⟩
  unfold Report.markUnknown
  split_ifs <;> rfl

theorem answered_path (h : Busy s w v) (hv : Path c bad v₀ v) (hf : s.inflight = none) (rid : String)
    (status : RevisionStatus) : Path c bad v₀ ((answered w rid status s).view none) := by
  have hreq := h.request hv hf rid (r := (s.report.request w.chunk.chunkId).noteOutcome w.chunk.chunkId status) (by
    obtain ⟨l, hl, hlists⟩ := noteOutcome_lists (s.report.request w.chunk.chunkId) w.chunk.chunkId status
    exact ⟨l, hl, hlists⟩)
  unfold answered
  dsimp only
  split_ifs
  · have hland := hreq.tail (.land ⟨w, rid⟩ .refused rfl (.inl rfl))
    refine Eq.subst (motive := fun x => Path c bad v₀ x) ?_ hland
    show View.mk _ _ _ none _ _ _ _ _ _ _ _ = View.mk _ _ _ s.inflight _ _ _ _ _ _ _ _
    rw [hf]
    rfl
  · exact hreq

theorem send_path {now : ℤ} (hv : Path c bad v₀ (s.view (some w))) (hpass : Passed c s w.chunk now) (hf : s.inflight = none) :
    Holds (fun t => Path c bad v₀ (t.view none)) (send c w now) s := by
  obtain ⟨ss, hss, hopen⟩ := hpass.opened
  unfold send Holds
  rw [ends_bind, ends_get, hss]
  show Ends _ _ (sendOn c w now ss) s
  unfold sendOn linked
  rw [ends_bind, ends_zoom]
  show Ends _ _ _ (s.setLink s.link.drawRequest)
  have hview : (s.setLink s.link.drawRequest).view (some w) = s.view (some w) := rfl
  cases hk : knots c w.chunk with
  | error reason => exact Busy.refuse (.inl rfl) (hview ▸ hv) reason
  | ok q =>
    show Ends _ _ (reviseKnots c w now _ ss q >>= _) _
    unfold reviseKnots linked
    rw [ends_bind, ends_tryCatch, ends_bind, ends_zoom]
    -- the revision may have been sent
    have hbusy : ∀ (l : Link σ Entry) (rid : String), Revises (.revised w.number w.chunk ss.serial now) rid q w.chunk.dtS
        s.link.drawRequest l → ∃ v, Path c bad v₀ v ∧ Busy (s.setLink l) w v := by
      intro l rid hl
      rcases hl.log with hlog | ⟨rev, -, hlog⟩
      · exact ⟨_, hv, .inl (view_linked hlog hl.nextOpen (some w)).symm⟩
      · refine ⟨_, hv.tail (.revise w ss now rev rfl rfl hss hopen hpass.pending hf hpass.generation hpass.age ?_), .inr ?_⟩
        · exact (le_max_left _ _).trans hpass.newest
        · show View.mk _ _ _ _ _ _ _ _ s.link.nextOpen _ _ _ = View.mk l.log _ _ _ _ _ _ _ l.nextOpen _ _ _
          rw [hlog, hl.nextOpen]
          rfl
    refine revise_log.mono (fun status l hl => ?_) fun e l hl => ?_
    · obtain ⟨v, hpath, hb⟩ := hbusy l _ hl
      exact answered_path hb hpath hf _ status
    · obtain ⟨v, hpath, hb⟩ := hbusy l _ hl.1
      rcases hl.2 with ⟨text, rfl⟩ | ⟨e', rfl⟩
      · exact hb.refuse hpath text
      · cases e' with
        | refused text => exact hb.refuse hpath text
        | supervisor text => exact unanswered_path hb hpath hf _ text
        | timeout text => exact unanswered_path hb hpath hf _ text
        | os text => exact unanswered_path hb hpath hf _ text

theorem drop_path (hv : Path c bad v₀ (s.view (some w))) (r : Verdict) : Path c bad v₀ ((drop w r s).view none) := by
  cases r with
  | late reason =>
    have hlists : Report.lists { s.report with late := s.report.late ++ [(w.chunk.chunkId, reason)] } =
        { Report.lists s.report with late := (Report.lists s.report).late ++ [w.chunk.chunkId] } := by
      show Lists.mk ((s.report.late ++ [_]).map Prod.fst) _ _ _ = _
      rw [List.map_append]
      rfl
    have hmove := hv.tail (.late w rfl)
    rw [show (drop w (.late reason) s).view none = _ from congrArg (View.mk _ _ _ _ _ _ _ _ _ · none none) hlists]
    exact hmove
  | refused reason => exact Busy.refuse (.inl rfl) hv reason

/-- the world has answered -/
def answeredBy (s : ActionChunkClient σ) (world : σ) : ActionChunkClient σ := s.setLink (s.link.setWorld world)

theorem Passed.read {k : Chunk} {now : ℤ} (h : Passed c s k now) (world : σ) : Passed c (s.answeredBy world) k now :=
  ⟨h.opened, h.pending, h.generation, h.age, h.newest⟩

/-! ## submit and pump -/

theorem wait_path (hv : Path c bad v₀ (s.view (some w)))
    (horder : ∀ old, s.waiting = some old → old.chunk.observedNs ≤ w.chunk.observedNs ∨ bad) :
    Path c bad v₀ ((wait w s).view none) := by
  unfold wait
  cases hold : s.waiting with
  | none => exact hv.tail (.wait w rfl hold)
  | some old => exact hv.tail (.replace w old rfl hold (horder old hold))

theorem submit_path (k : Chunk)
    (horder : ∀ old, s.waiting = some old → old.chunk.observedNs ≤ k.observedNs ∨ (∃ v, verdictOf c (s.arrived k) k = .error v) ∨ bad) :
    Holds (fun t => Path c bad (s.view none) (t.view none)) (submit c k) s := by
  have harrive : Path c bad (s.view none) ((s.arrived k).view (some ⟨s.submissions, k⟩)) := .single (.arrive k rfl)
  unfold submit Holds
  rw [ends_bind, ends_get, ends_bind, ends_set, ends_bind]
  refine (check_ends k).mono (fun r t ht => ?_) fun _ _ hf => hf.elim
  obtain ⟨hr, world, rfl⟩ := ht
  have harrived : Path c bad (s.view none) (((s.arrived k).answeredBy world).view (some ⟨s.submissions, k⟩)) := harrive
  cases r with
  | error v => exact (drop_path harrived v : Path c bad _ ((drop _ v ((s.arrived k).answeredBy world)).view none))
  | ok now =>
    have hpass : Passed c ((s.arrived k).answeredBy world) k now := (passed_of_verdict hr.symm).read world
    show Ends _ _ (submitPassed c ⟨s.submissions, k⟩ now) ((s.arrived k).answeredBy world)
    unfold submitPassed
    rw [ends_bind, ends_get]
    refine ends_ite (fun _ => ?_) fun hfree => ?_
    · refine wait_path harrived fun old hold => ?_
      rcases horder old hold with h | ⟨v, hv⟩ | h
      · exact .inl h
      · exact absurd (hv.symm.trans hr.symm) nofun
      · exact .inr h
    · rw [ends_bind]
      have hf : s.inflight = none := Option.not_isSome_iff_eq_none.mp hfree
      exact (send_path harrived hpass hf).mono (fun _ _ h => h) fun _ _ h => h

theorem sendWaiting_path (hv : Path c bad v₀ (s.view none)) : Holds (fun t => Path c bad v₀ (t.view none)) (sendWaiting c) s := by
  unfold sendWaiting Holds
  rw [ends_bind, ends_get]
  cases hf : s.inflight with
  | some f => exact hv
  | none =>
    cases hw : s.waiting with
    | none => exact hv
    | some w =>
      have htake : Path c bad v₀ ((s.setWaiting none).view (some w)) := hv.tail (.take w rfl hf hw)
      show Ends _ _ (check c w.chunk >>= _) (s.setWaiting none)
      rw [ends_bind]
      refine (check_ends w.chunk).mono (fun r t ht => ?_) fun _ _ hf => hf.elim
      obtain ⟨hr, world, rfl⟩ := ht
      have htaken : Path c bad v₀ (((s.setWaiting none).answeredBy world).view (some w)) := htake
      cases r with
      | error v => exact (drop_path htaken v : Path c bad _ ((drop _ v ((s.setWaiting none).answeredBy world)).view none))
      | ok now => exact send_path htaken ((passed_of_verdict hr.symm).read world) hf

theorem land_path {f : Inflight} {fate : Fate} (hv : Path c bad v₀ (s.view none)) (hf : s.inflight = some f)
    (hfate : fate = .refused ∨ fate = .ended ∨ fate = .selected) : Path c bad v₀ ((landed f fate s).view none) :=
  hv.tail (.land f fate hf hfate)

/-- a report that lists a refusal at most -/
theorem list_path {r : Report} {l : List String} (hv : Path c bad v₀ (s.view none)) (hl : (Report.lists s.report).refused.Sublist l)
    (hr : Report.lists r = { Report.lists s.report with refused := l }) : Path c bad v₀ ((s.setReport r).view none) := by
  have hmove := hv.tail (.list l hl)
  rw [show (s.setReport r).view none = _ from congrArg (View.mk _ _ _ _ _ _ _ _ _ · none none) hr]
  exact hmove

theorem resolve_path (ss : StreamSession) (hv : Path c bad v₀ (s.view none)) :
    Ends (fun _ t => Path c bad v₀ (t.view none)) (fun _ _ => False) (resolve c ss) s := by
  unfold resolve
  rw [ends_bind, ends_get]
  cases hf : s.inflight with
  | none => exact hv
  | some f =>
    show Ends _ _ (linked (attempt _) >>= _) s
    unfold linked
    rw [ends_bind, ends_zoom]
    refine ends_attempt_of fun r w => ?_
    have hread : Path c bad v₀ ((s.setLink (s.link.setWorld w)).view none) := hv
    cases r with
    | ok status =>
      show Ends _ _ (resolveStatus f status) _
      unfold resolveStatus
      rw [ends_bind, ends_modify]
      obtain ⟨l, hl, hlists⟩ := noteOutcome_lists s.report f.submission.chunk.chunkId status
      have hlist := list_path (s := s.setLink (s.link.setWorld w)) hread hl hlists
      cases classify status with
      | refused => exact land_path hlist hf (.inl rfl)
      | ended => exact land_path hlist hf (.inr (.inl rfl))
      | selected => exact land_path hlist hf (.inr (.inr rfl))
      | admitted => exact hlist
      | pending => exact hlist
    | error e =>
      have hunread : ∀ text, Path c bad v₀ ((((s.setLink (s.link.setWorld w)).setReport ((s.report.say text).markUnknown
          f.submission.chunk.chunkId)).landed f .selected).view none) := by
        intro text
        refine land_path (list_path (s := s.setLink (s.link.setWorld w)) hread (List.Sublist.refl _) ?_) hf (.inr (.inr rfl))
        unfold Report.markUnknown
        split_ifs <;> rfl
      cases e with
      | refused text => exact hunread _
      | supervisor text => exact hunread _
      | timeout text => exact hread
      | os text => exact hunread _

/-- the supervisor says that the stream has ended -/
def StreamEnded (c : Config σ) (s : ActionChunkClient σ) : Prop :=
  ∃ ss view w, s.session = some ss ∧ ss.closed = false ∧ c.arm.streamState ss.executionId s.link.world = .ok view w ∧
    view.execution.phase.terminal = true

theorem pump_path (hlost : StreamEnded c s → s.waiting = none ∨ bad) :
    Holds (fun t => Path c bad (s.view none) (t.view none)) (pump c) s := by
  unfold pump Holds
  rw [ends_bind, ends_get]
  cases hs : s.session with
  | none => exact .refl
  | some ss =>
    refine ends_ite (fun _ => .refl) fun hopen => ?_
    unfold linked
    rw [ends_bind, ends_zoom, ends_attempt]
    refine ends_of (fun reply w hw => ?_) fun e w hw => .refl
    refine ends_ite (fun hend => ?_) fun _ => ?_
    · have hlost' := hlost ⟨ss, reply, w, hs, Bool.eq_false_of_not_eq_true hopen, hw, hend⟩
      exact .single (.finish (v := s.view none) ss hs hlost' ⟨rfl, rfl⟩)
    · show Ends _ _ (pumpOpen c ss) (viewed reply.selectedRevision (s.answeredBy w))
      have hread : Path c bad (s.view none) ((viewed reply.selectedRevision (s.answeredBy w)).view none) := .refl
      unfold pumpOpen
      rw [ends_bind]
      refine (resolve_path ss hread).mono (fun landed t ht => ?_) fun _ _ hf => hf.elim
      exact ends_ite (fun _ => sendWaiting_path ht) fun _ => ht

/-! ## runs -/

/-- the call forgets a waiting chunk, or puts an older one in its place -/
def Loses (c : Config σ) (s : ActionChunkClient σ) : Input → Prop
  | .start => s.waiting ≠ none ∧ ¬ ∃ e t, checkProfile c s = .error e t
  | .cancel _ => s.waiting ≠ none
  | .submit k => ∃ old now, s.waiting = some old ∧ k.observedNs < old.chunk.observedNs ∧ verdictOf c (s.arrived k) k = .ok now
  | .pump => s.waiting ≠ none ∧ StreamEnded c s

theorem step_path (s : ActionChunkClient σ) (i : Input) :
    Path c (Loses c s i) (s.view none) ((step c s i).view none) := by
  refine (holds_iff (I := fun t : ActionChunkClient σ => Path c (Loses c s i) (s.view none) (t.view none))).mp ?_
  cases i with
  | start =>
    refine start_path ?_
    by_cases hw : s.waiting = none
    · exact .inl hw
    · by_cases he : ∃ e t, checkProfile c s = .error e t
      · exact .inr (.inr he)
      · exact .inr (.inl ⟨hw, he⟩)
  | cancel reason =>
    show Holds _ (cancel c reason >>= _) s
    unfold Holds
    rw [ends_bind]
    refine (cancel_path ?_).mono (fun _ _ h => h.1) fun _ _ hf => hf.elim
    exact or_iff_not_imp_left.mpr fun hw => hw
  | submit k =>
    show Holds _ (submit c k >>= _) s
    unfold Holds
    rw [ends_bind]
    refine (submit_path k fun old hold => ?_).mono (fun _ _ h => h) fun _ _ h => h
    rcases le_or_gt old.chunk.observedNs k.observedNs with hle | hlt
    · exact .inl hle
    · cases hv : verdictOf c (s.arrived k) k with
      | error v => exact .inr (.inl ⟨v, rfl⟩)
      | ok now => exact .inr (.inr ⟨old, now, hold, hlt, hv⟩)
  | pump =>
    refine pump_path fun hend => ?_
    exact or_iff_not_imp_left.mpr fun hw => ⟨hw, hend⟩

theorem Path.sound (h : Path c bad v₀ v) (hs : Sound c v₀) : Sound c v := by
  induction h with
  | refl => exact hs
  | tail _ hmove ih => exact hmove.sound ih

theorem Path.good (h : Path c bad v₀ v) (hgood : ¬ bad) (hs : Sound c v₀) (hj : Justified InOrder v₀.log) (hk : v₀.Kept) :
    Justified InOrder v.log ∧ v.Kept := by
  induction h with
  | refl => exact ⟨hj, hk⟩
  | tail hpath hmove ih => exact ⟨hmove.inOrder hgood ih.1, hmove.kept (Path.sound hpath hs) hgood ih.2⟩

theorem sound_initial (world : σ) : Sound c ((initial world : ActionChunkClient σ).view none) where
  fit := justified_nil
  generation := rfl
  fate := answered_nil
  order := nofun
  stream := nofun
  numbers := by
    rintro n (h | h | h) <;> cases h
  counts k := ⟨Nat.zero_le _, fun _ => rfl⟩
  mirror := ⟨rfl, List.Sublist.refl _, rfl, rfl⟩

/-- what the client promises of its log and its report -/
structure Disciplined (c : Config σ) (s : ActionChunkClient σ) : Prop where
  /-- what is sent may be sent -/
  sent : Justified (Sent c) s.link.log
  /-- a newer observation displaces an older one -/
  order : Justified InOrder s.link.log
  /-- every submission is reported once, unless it still waits -/
  once : ∀ k < s.submissions, outcomes k s.link.log + holds k s.waiting = 1
  /-- the report lists what the log says -/
  report : (Report.lists s.report).Mirror s.link.log

/-- **Action chunks are never retroactive.** -/
theorem chunk_discipline (c : Config σ) (world : σ) (is : List Input)
    (h : Run.Along (step c) (fun s i => ¬ Loses c s i) (initial world) is) :
    Disciplined c (Run.run (step c) (initial world) is) := by
  have hrun := Run.invariant
    (I := fun s : ActionChunkClient σ => Sound c (s.view none) ∧ Justified InOrder s.link.log ∧ (s.view none).Kept)
    ⟨sound_initial world, justified_nil, fun k hk => absurd hk (Nat.not_lt_zero k)⟩
    (fun s i hgood hs => ⟨(step_path s i).sound hs.1, (step_path s i).good hgood hs.1 hs.2.1 hs.2.2⟩) h
  exact ⟨hrun.1.fit, hrun.2.1, hrun.2.2, hrun.1.mirror⟩

/-! ## a chunk that is lost -/

def restConfig : Config PUnit where
  arm := restArm true
  ctx := restContext
  maxAgeS := 1
  holdS := 1
  spec := none
  positive := by decide +kernel
  sameJoints := nofun

/-- a chunk of the first stream -/
def firstChunk (chunkId : String) : Chunk where
  chunkId := chunkId
  joints := ["j1"]
  values := [[.fin 0]]
  dtS := .fin (1 / 10)
  observedAt := hostStamp 0
  generation := 2
  mode := .absolute
  baseQ := none
  units := .rad

/-- the second chunk waits behind the first when the stream is cancelled -/
theorem chunk_lost_by_cancel :
    ¬ ∀ (c : Config PUnit) (world : PUnit) (is : List Input), Disciplined c (Run.run (step c) (initial world) is) := by
  intro h
  have honce := (h restConfig ⟨⟩ [.start, .submit (firstChunk "a"), .submit (firstChunk "b"), .cancel "stop"]).once 1
    (by decide +kernel)
  exact absurd honce (by decide +kernel)

theorem chunk_discipline_sends :
    Disciplined restConfig (Run.run (step restConfig) (initial ⟨⟩) [.start, .submit (firstChunk "a"), .pump]) := by
  refine chunk_discipline restConfig ⟨⟩ [.start, .submit (firstChunk "a"), .pump]
    (Run.along_cons.mpr ⟨?_, Run.along_cons.mpr ⟨?_, Run.along_cons.mpr ⟨?_, Run.along_nil⟩⟩⟩)
  · exact fun h => h.1 rfl
  · rintro ⟨old, now, hold, -⟩
    have hnone : (step restConfig (initial ⟨⟩) .start).waiting.isNone = true := by decide +kernel
    rw [hold] at hnone
    cases hnone
  · refine fun h => h.1 (Option.isNone_iff_eq_none.mp ?_)
    decide +kernel

end ActionChunkClient

end ArmControl.Clients.Chunks
