import ArmControl.Lib.Run
import ArmControl.Rt.RtLoop
import ArmControl.Rt.ReferenceHighWater

/-!
# The first envelope of a selected reference

A selected revision may be tracked only after an envelope bound to it was admitted within
`min(hold, 100 ms)` of its selection.  Here the servo thread runs alone: an event is a step of the
tick with ANY loads (`Published`, `Shared`) and any world (`RtEnv`).

* `Continues`      no new selection was made: the reference is the same one, or inactive;
* `Timely`         some admission of the run was bound to the selected revision and in time;
* `LateFirst`      the hole in the rule: a terminal reference that reached END before its first
                   envelope is no longer subject to the gap bound, and a first envelope is in the
                   mailbox past it;
* `tracked_timely`      every run without `LateFirst` keeps the rule;
* `late_first_tracked`  a run that breaks it.
-/

namespace ArmControl.Rt
open Run

namespace ReferenceSelection

/-- the selection did not change, or nothing is selected any more -/
def Continues (s s' : ReferenceSelection) : Prop :=
  s'.active = true → s.active = true ∧ s'.info.referenceId = s.info.referenceId ∧
    s'.info.revision = s.info.revision ∧ s'.admittedAtNs = s.admittedAtNs ∧
    s'.envelopeSeen = s.envelopeSeen ∧ s'.protectedUntil = s.protectedUntil

theorem Continues.refl (s : ReferenceSelection) : Continues s s :=
  fun h => ⟨h, rfl, rfl, rfl, rfl, rfl⟩

theorem Continues.trans {a b c : ReferenceSelection} (h : Continues a b) (k : Continues b c) :
    Continues a c := by
  intro hc
  obtain ⟨hb, k1, k2, k3, k4, k5⟩ := k hc
  obtain ⟨ha, h1, h2, h3, h4, h5⟩ := h hb
  exact ⟨ha, k1.trans h1, k2.trans h2, k3.trans h3, k4.trans h4, k5.trans h5⟩

theorem retire_continues (s : ReferenceSelection) (id : ℕ) (expired : Bool) :
    Continues s (s.retire id expired) := by
  intro h
  rw [retire_inactive] at h
  cases h

theorem reset_continues (s : ReferenceSelection) (session epoch : ℕ) :
    Continues s (s.reset session epoch) := by
  unfold reset
  split_ifs
  · exact Continues.refl s
  · intro h
    simp [active] at h

theorem evaluate_continues (s : ReferenceSelection) (now : ℕ) :
    Continues s (s.evaluate now).1 := by
  intro h
  refine ⟨evaluate_active h, ?_⟩
  unfold evaluate
  dsimp only
  split_ifs <;> exact ⟨rfl, rfl, rfl, rfl, rfl⟩

/-- a commit keeps the selection, or selects at `now` with no envelope seen -/
theorem commit_continues (s : ReferenceSelection) (c : ReferenceCommit) (now g : ℕ) :
    Continues s (s.commit c now g).2 ∨
      ((s.commit c now g).2.admittedAtNs = now ∧ (s.commit c now g).2.envelopeSeen = false ∧
        ((s.active = true → s.info.referenceId ≠ 0) →
          (s.commit c now g).2.info.referenceId ≠ 0)) := by
  by_cases hr : s.commitResult c now g = .ok
  · right
    have e : (s.commit c now g).2 = s.accept c now := by simp only [commit, if_pos hr]
    rw [e]
    refine ⟨rfl, rfl, fun h => ?_⟩
    obtain ⟨-, -, -, h1 | h1⟩ := commitResult_ok hr
    · exact Nat.ne_of_gt (Nat.zero_lt_of_lt h1.2.1)
    · show c.request.referenceId ≠ 0
      rw [h1.2.2.1]
      exact h h1.2.1
  · left
    rw [commit_not_ok hr]
    exact Continues.refl s

end ReferenceSelection

namespace RtLoop
open ReferenceSelection

/-! ## what a step does to the selection -/

/-- the selection continues, or a new one was made at `now` -/
def Selects (now : ℕ) (s s' : ReferenceSelection) : Prop :=
  Continues s s' ∨ (s'.active = true → s'.admittedAtNs = now ∧ s'.envelopeSeen = false ∧
    ((s.active = true → s.info.referenceId ≠ 0) → s'.info.referenceId ≠ 0))

theorem Selects.after {now : ℕ} {a b c : ReferenceSelection} (h : Continues a b)
    (k : Selects now b c) : Selects now a c := by
  rcases k with k | k
  · exact .inl (h.trans k)
  · refine .inr fun hc => ?_
    obtain ⟨k1, k2, k3⟩ := k hc
    exact ⟨k1, k2, fun ha => k3 fun hb => (h hb).2.1 ▸ ha (h hb).1⟩

theorem Selects.before {now : ℕ} {a b c : ReferenceSelection} (k : Selects now a b)
    (h : Continues b c) : Selects now a c := by
  rcases k with k | k
  · exact .inl (k.trans h)
  · refine .inr fun hc => ?_
    obtain ⟨hb, h1, -, h3, h4, -⟩ := h hc
    obtain ⟨k1, k2, k3⟩ := k hb
    exact ⟨h3.trans k1, h4.trans k2, fun ha => h1 ▸ k3 ha⟩

section
variable (cfg : ServerConfig) (r : RtLoop) (p : Published) (now : ℕ) (faulted : Bool)

theorem prepareReference_continues :
    Continues r.reference (r.prepareReference p now faulted).reference := by
  unfold prepareReference applyCancel
  dsimp only
  refine Continues.trans (reset_continues _ p.sessionId (low32 p.armGen))
    (Continues.trans ?_ (evaluate_continues _ now))
  split_ifs <;> first
    | exact Continues.refl _
    | exact retire_continues _ _ _
    | exact (retire_continues _ _ _).trans (retire_continues _ _ _)

theorem commitStep_selects (slot : GroupSlot) (contended : Bool) :
    Selects now r.reference (r.commitStep slot p now faulted contended).1.reference := by
  have h : Selects now r.reference (r.admitCommit p now faulted).2 := by
    unfold admitCommit
    split_ifs
    · exact .inl (Continues.refl _)
    · rcases commit_continues r.reference r.referenceCommit now p.referenceCancelGeneration
        with h | h
      · exact .inl h
      · exact .inr fun _ => h
    · exact .inl (Continues.refl _)
  unfold commitStep
  split_ifs
  · exact .inl (Continues.refl _)
  · dsimp only
    split_ifs <;> exact h

theorem prepared_continues (sh : Shared) :
    Continues r.reference (r.prepared cfg sh p now).reference := by
  obtain ⟨m, g, e, h1⟩ := seedMode_frame cfg (r.load sh p now) p
  obtain ⟨ref, m', g', e', fb, d, q, h2, href⟩ :=
    answerMode_frame ((r.load sh p now).seedMode cfg p) p now sh.fault
  refine Continues.trans ?_ (prepareReference_continues _ p now sh.fault)
  have e0 : ((r.load sh p now).seedMode cfg p).reference = r.reference := by rw [h1]; rfl
  rw [e0] at href
  rw [h2]
  rcases href with href | href
  · rw [href]
    exact Continues.refl _
  · rw [href]
    exact retire_continues _ _ _

/-- **The front of a tick** leaves the authority alone, clears what the last tick did, and makes at
most one selection, at its own time. -/
theorem front_spec (sh : Shared) (env : RtEnv) {r' : RtLoop} (hr : (r.front cfg sh p env).1 = r') :
    r'.authority = r.authority ∧ r'.admitted = none ∧ r'.tracked = none ∧
      ((r'.now = r.now ∧ r'.reference = r.reference) ∨
        (r'.now = env.now ∧ Selects env.now r.reference r'.reference)) := by
  subst hr
  unfold front
  by_cases hread : env.readOk = false
  · rw [if_pos hread]
    exact ⟨rfl, rfl, rfl, .inl ⟨rfl, rfl⟩⟩
  · rw [if_neg hread]
    dsimp only
    obtain ⟨m, g, e, fb, d, q, ref, c, k, h3⟩ := prepared_frame cfg r p env.now sh
    have s3 := prepared_continues cfg r p env.now sh
    generalize r.prepared cfg sh p env.now = r3 at h3 s3 ⊢
    obtain ⟨ref4, res, q4, d4, n4, w4, h4⟩ :=
      commitStep_frame r3 p env.now sh.fault sh.slot sh.slotBusy
    have s4 := commitStep_selects r3 p env.now sh.fault sh.slot sh.slotBusy
    generalize r3.commitStep sh.slot p env.now sh.fault sh.slotBusy = r4 at h4 s4 ⊢
    obtain ⟨t6, f6, w6, d6, i6, h6⟩ :=
      groupHead_frame cfg (r4.1.publishReference env.now) p r4.2 sh.slotBusy
    have s5 := evaluate_continues r4.1.reference env.now
    rw [h6]
    refine ⟨?_, ?_, ?_, .inr ⟨?_, (s4.before s5).after s3⟩⟩ <;>
      simp only [publishReference, h4, h3, load]

/-- the rest of the group section -/
theorem group_spec (sh : Shared) (env : RtEnv) {r' : RtLoop}
    (hpc : r.pc = .done ∨ r.pc = .mirror ∨ r.pc = .peers) (hr : (r.step cfg sh p env).1 = r') :
    r'.authority = r.authority ∧ r'.admitted = r.admitted ∧ r'.tracked = r.tracked ∧
      r'.now = r.now ∧ Continues r.reference r'.reference := by
  subst hr
  unfold step
  rcases hpc with hpc | hpc | hpc <;> rw [hpc] <;> dsimp only
  · unfold doneWrite
    split_ifs <;> exact ⟨rfl, rfl, rfl, rfl, Continues.refl _⟩
  · unfold faultMirror
    split_ifs <;> exact ⟨rfl, rfl, rfl, rfl, Continues.refl _⟩
  · rcases peerCheck_cases cfg r sh p.groupCommitted env with h | ⟨-, v, h⟩
    · rw [h]
      exact ⟨rfl, rfl, rfl, rfl, Continues.refl _⟩
    · rw [h]
      refine ⟨rfl, rfl, rfl, rfl, ?_⟩
      dsimp only [tripPeer]
      split_ifs
      · exact retire_continues _ _ _
      · exact Continues.refl _

/-- the reference after admission of this tick's envelope -/
def marked (r : RtLoop) : Bool :=
  r.incomingNative && r.admitEnvelope cfg && r.envelopeBound r.envelope && r.reference.active

/-- **The servo part of a tick**: the authority observes the envelope if it is admitted, the
reference is marked or retired, and a tracked command is the authority's, fresh by every rule. -/
theorem servo_spec (sh : Shared) (session : ℕ) (env : RtEnv) {r' : RtLoop}
    (hr : (r.servo cfg sh session env).1 = r') (hidle : r.tracked = none) :
    r'.now = r.now ∧
    r'.authority = r.authority.observe r.pub.armGen r.pub.armStart
      (if r.admitEnvelope cfg then r.cmdV else 0) r.envelope ∧
    r'.admitted = (if r.admitEnvelope cfg && r.cmdV != 0 && r.envelope.armGen == r.pub.armGen
      then some r.envelope else none) ∧
    Continues (if marked cfg r then r.reference.markEnvelope else r.reference) r'.reference ∧
    (∀ e, r'.tracked = some e → e = r'.authority.current ∧ r'.authority.have_ = true ∧
      0 ≤ cfg.holdNs ∧ (e.native = true → r'.reference.active = true ∧ r'.envelopeBound e = true)) := by
  subst hr
  unfold servo
  dsimp only
  generalize hr1 : r.observeCommand cfg = r1
  have href1 : r1.reference = if marked cfg r then r.reference.markEnvelope else r.reference := by
    rw [← hr1]
    rfl
  generalize hr2 : r1.retireExpired cfg (r.referenceGap cfg) = r2
  have h2 : ∃ ref, r2 = { r1 with reference := ref } ∧ Continues r1.reference ref := by
    rw [← hr2]
    unfold retireExpired
    split_ifs
    · exact ⟨_, rfl, retire_continues _ _ _⟩
    · exact ⟨_, rfl, Continues.refl _⟩
  obtain ⟨ref, h2, hcont⟩ := h2
  obtain ⟨g, k, h3⟩ := armEdge_frame r2
  obtain ⟨k', t, h4, ht⟩ := actuate_frame cfg r2.armEdge sh (r2.fresh cfg session) env
  rw [h4]
  have htr : r2.armEdge.tracked = none := by rw [h3, h2, ← hr1]; exact hidle
  refine ⟨by rw [h3, h2, ← hr1]; rfl, by rw [h3, h2, ← hr1]; rfl, by rw [h3, h2, ← hr1]; rfl,
    ?_, fun e he => ?_⟩
  · have e2 : r2.armEdge.reference = ref := by rw [h3, h2]
    show Continues _ r2.armEdge.reference
    rw [e2, ← href1]
    exact hcont
  · have he' : t = some e := he
    rw [he', htr] at ht
    rcases ht with ht | ht | ⟨ht, hf, -⟩
    · cases ht
    · cases ht
    · have ecur : e = r2.authority.current := by
        have := Option.some.inj ht
        rwa [h3] at this
      have eref : r2.armEdge.reference = r2.reference := by rw [h3]
      have eauth : r2.armEdge.authority = r2.authority := by rw [h3]
      simp only [fresh, CommandAuthority.fresh, Bool.and_eq_true, Bool.or_eq_true,
        decide_eq_true_eq] at hf
      obtain ⟨⟨⟨⟨⟨⟨hhave, -⟩, -⟩, -⟩, hage⟩, -⟩, hnat⟩ := hf
      refine ⟨?_, ?_, le_trans ?_ hage, fun hn => ?_⟩
      · rw [ecur]
        exact congrArg CommandAuthority.current eauth.symm
      · exact (congrArg CommandAuthority.have_ eauth).trans hhave
      · exact Nat.cast_nonneg _
      · rw [← ecur, hn] at hnat
        obtain ⟨hact, hfresh⟩ := hnat.resolve_left (by simp)
        show r2.armEdge.reference.active = true ∧
          referenceEnvelopeRevisionOk e.reference r2.armEdge.reference.info
            r2.armEdge.reference.protectedUntil = true
        rw [eref]
        exact ⟨hact, referenceEnvelopeFresh_revisionOk hfresh⟩

end

/-! ## runs of the servo thread -/

/-- a step with any loads and any world -/
structure TickEvent where
  sh : Shared
  pub : Published
  env : RtEnv

def soloStep (cfg : ServerConfig) (r : RtLoop) (e : TickEvent) : RtLoop :=
  (r.step cfg e.sh e.pub e.env).1

/-- the ceiling for the first envelope -/
def firstEnvelopeNs (cfg : ServerConfig) : ℚ := min cfg.holdNs referenceFirstEnvelopeNs

/-- some admission of the run was bound to the reference selected now, and made no later than the
ceiling after its selection -/
def Timely (cfg : ServerConfig) (r : RtLoop) (es : List TickEvent) : Prop :=
  Once (soloStep cfg) (fun r0 => ∃ e, r0.admitted = some e ∧ r.envelopeBound e = true ∧
    (r0.now : ℚ) ≤ r.reference.admittedAtNs + firstEnvelopeNs cfg) {} es

/-- END was reached with no envelope seen, the ceiling has passed, and a first envelope that is
fresh at the end point is in the mailbox -/
def LateFirst (cfg : ServerConfig) (r : RtLoop) : Prop :=
  r.reference.info.status = .ended ∧ r.reference.envelopeSeen = false ∧
    firstEnvelopeNs cfg < clampedAgeNs r.now r.reference.admittedAtNs ∧
    r.incomingNative = true ∧ r.envelopeFresh cfg r.envelope = true

/-- the server clock never steps back and does not read zero, and a live reference is evaluated in
MODE_REFERENCE -/
structure InReferenceMode (r : RtLoop) (e : TickEvent) : Prop where
  clock : r.pc = .front → r.now ≤ e.env.now ∧ e.env.now ≠ 0
  mode : r.pc = .servo → r.reference.active = true → r.mode.mode = .reference

structure Inv (cfg : ServerConfig) (es : List TickEvent) (r : RtLoop) : Prop where
  past : ∀ pre, pre <+: es → (run (soloStep cfg) {} pre).now ≤ r.now
  idle : r.pc ≠ .front → r.tracked = none
  id : r.reference.active = true → r.reference.info.referenceId ≠ 0
  selected : r.reference.active = true → r.reference.admittedAtNs ≠ 0
  seen : r.reference.active = true → r.reference.envelopeSeen = true → Timely cfg r es
  held : r.authority.have_ = true → ∃ pre, pre <+: es ∧
    (run (soloStep cfg) {} pre).admitted = some r.authority.current ∧
    (r.reference.active = true → r.reference.envelopeSeen = false →
      r.envelopeBound r.authority.current = true →
      (run (soloStep cfg) {} pre).now ≤ r.reference.admittedAtNs)

section
variable {cfg : ServerConfig} {r r' : RtLoop} {es : List TickEvent} {e : TickEvent}

theorem envelopeBound_continues (h : Continues r.reference r'.reference)
    (ha : r'.reference.active = true) (x : CommandEnvelope) :
    r'.envelopeBound x = r.envelopeBound x := by
  obtain ⟨-, h1, h2, -, -, h5⟩ := h ha
  unfold envelopeBound
  rw [h5]
  exact referenceEnvelopeRevisionOk_congr h1 h2

theorem Timely.continues (h : Timely cfg r es) (hc : Continues r.reference r'.reference)
    (ha : r'.reference.active = true) (e : TickEvent) : Timely cfg r' (es ++ [e]) := by
  obtain ⟨pre, hpre, x, hx, hb, hle⟩ := h
  obtain ⟨-, -, -, h3, -⟩ := hc ha
  refine ⟨pre, hpre.trans (List.prefix_append _ _), x, hx, ?_, ?_⟩
  · rw [envelopeBound_continues hc ha, hb]
  · rw [h3]
    exact hle

theorem past_snoc (h : Inv cfg es (run (soloStep cfg) {} es))
    (hle : (run (soloStep cfg) {} es).now ≤ (run (soloStep cfg) {} (es ++ [e])).now) :
    ∀ pre, pre <+: es ++ [e] →
      (run (soloStep cfg) {} pre).now ≤ (run (soloStep cfg) {} (es ++ [e])).now := by
  intro pre hpre
  rcases prefix_snoc_iff.mp hpre with hp | rfl
  · exact (h.past pre hp).trans hle
  · exact le_rfl

/-- a step that makes no new selection and leaves the authority alone -/
theorem Inv.keep (h : Inv cfg es r) (hpast : ∀ pre, pre <+: es ++ [e] →
      (run (soloStep cfg) {} pre).now ≤ r'.now)
    (hauth : r'.authority = r.authority) (hc : Continues r.reference r'.reference)
    (hidle : r'.pc ≠ .front → r'.tracked = none) : Inv cfg (es ++ [e]) r' where
  past := hpast
  idle := hidle
  id ha := by
    obtain ⟨h0, h1, -⟩ := hc ha
    rw [h1]
    exact h.id h0
  selected ha := by
    obtain ⟨h0, -, -, h3, -⟩ := hc ha
    rw [h3]
    exact h.selected h0
  seen ha hs := by
    obtain ⟨h0, -, -, -, h4, -⟩ := hc ha
    exact (h.seen h0 (h4 ▸ hs)).continues hc ha e
  held hv := by
    rw [hauth] at hv ⊢
    obtain ⟨pre, hpre, hadm, hle⟩ := h.held hv
    refine ⟨pre, hpre.trans (List.prefix_append _ _), hadm, fun ha hs hb => ?_⟩
    obtain ⟨h0, -, -, h3, h4, -⟩ := hc ha
    rw [h3]
    exact hle h0 (h4 ▸ hs) (envelopeBound_continues hc ha _ ▸ hb)

/-- a new selection: every admission so far was made before it -/
theorem Inv.select (h : Inv cfg es r) (hpast : ∀ pre, pre <+: es ++ [e] →
      (run (soloStep cfg) {} pre).now ≤ r'.now)
    (hauth : r'.authority = r.authority) (hnow : r'.now ≠ 0)
    (hs : r'.reference.active = true → r'.reference.admittedAtNs = r'.now ∧
      r'.reference.envelopeSeen = false ∧ r'.reference.info.referenceId ≠ 0)
    (hidle : r'.pc ≠ .front → r'.tracked = none) : Inv cfg (es ++ [e]) r' where
  past := hpast
  idle := hidle
  id ha := (hs ha).2.2
  selected ha := by
    rw [(hs ha).1]
    exact hnow
  seen ha hseen := by
    rw [(hs ha).2.1] at hseen
    cases hseen
  held hv := by
    rw [hauth] at hv ⊢
    obtain ⟨pre, hpre, hadm, -⟩ := h.held hv
    refine ⟨pre, hpre.trans (List.prefix_append _ _), hadm, fun ha _ _ => ?_⟩
    rw [(hs ha).1]
    exact hpast pre (hpre.trans (List.prefix_append _ _))

theorem incomingNative_spec (h : r.incomingNative = true) :
    r.cmdV ≠ 0 ∧ r.envelope.armGen = r.pub.armGen := by
  simp only [incomingNative, Bool.and_eq_true, bne_iff_ne, beq_iff_eq] at h
  exact ⟨h.1.1.1, h.1.1.2⟩

/-- an admitted envelope of a RUNNING reference is in time; at END, unless it is a late first one -/
theorem marked_in_time (hmode : r.reference.active = true → r.mode.mode = .reference)
    (hlate : ¬ LateFirst cfg r) (hsel : r.reference.admittedAtNs ≠ 0) (hm : marked cfg r = true)
    (hs : r.reference.envelopeSeen = false) :
    (r.now : ℚ) ≤ r.reference.admittedAtNs + firstEnvelopeNs cfg := by
  simp only [marked, Bool.and_eq_true] at hm
  obtain ⟨⟨⟨hin, hadm⟩, -⟩, hact⟩ := hm
  simp only [admitEnvelope, hin, if_true, Bool.and_eq_true, Bool.not_eq_true'] at hadm
  obtain ⟨⟨-, hgap⟩, hfresh⟩ := hadm
  have hage : clampedAgeNs r.now r.reference.admittedAtNs ≤ firstEnvelopeNs cfg := by
    rcases active_iff.mp hact with hrun | hend
    · by_contra hlt
      have : r.referenceGap cfg = true := by
        simp only [referenceGap, hmode hact, hrun, hs, Bool.and_eq_true, beq_self_eq_true,
          bne_iff_ne, Bool.not_false, decide_eq_true_eq, true_and, and_true]
        exact ⟨hsel, not_le.mp hlt⟩
      rw [this] at hgap
      cases hgap
    · by_contra hlt
      exact hlate ⟨hend, hs, not_le.mp hlt, hin, hfresh⟩
  have hsub : (r.now : ℚ) - r.reference.admittedAtNs ≤ clampedAgeNs r.now r.reference.admittedAtNs := by
    unfold clampedAgeNs
    have : (r.now : ℚ) ≤ ((r.now - r.reference.admittedAtNs : ℕ) : ℚ) + r.reference.admittedAtNs := by
      exact_mod_cast (le_tsub_add : r.now ≤ r.now - r.reference.admittedAtNs + _)
    linarith
  linarith

/-- while a reference is live, only a native envelope is admitted -/
theorem admit_native (hid : r.reference.info.referenceId ≠ 0) (hmode : r.mode.mode = .reference)
    (hadm : r.admitEnvelope cfg = true) : r.incomingNative = true := by
  by_contra hin
  rw [admitEnvelope, if_neg hin] at hadm
  simp [hid, hmode] at hadm

theorem inv_servo (h : Inv cfg es r) (hr : r = run (soloStep cfg) {} es) (hpc : r.pc = .servo)
    (hmode : r.reference.active = true → r.mode.mode = .reference) (hlate : ¬ LateFirst cfg r)
    (hr' : r' = run (soloStep cfg) {} (es ++ [e])) :
    Inv cfg (es ++ [e]) r' := by
  have hstep : (r.servo cfg e.sh e.pub.sessionId e.env).1 = r' := by
    rw [hr', run_snoc, ← hr]
    simp only [soloStep, step, hpc]
  obtain ⟨hnow, hauth, hadm, hcont, -⟩ :=
    servo_spec cfg r e.sh e.pub.sessionId e.env hstep (h.idle (by simp [hpc]))
  have hpast : ∀ pre, pre <+: es ++ [e] → (run (soloStep cfg) {} pre).now ≤ r'.now := by
    rw [hr']
    refine past_snoc (hr ▸ h) ?_
    rw [← hr, ← hr', hnow]
  -- the reference before retirement: the same selection, perhaps marked
  have hbase : r'.reference.active = true → r.reference.active = true ∧
      r'.reference.info.referenceId = r.reference.info.referenceId ∧
      r'.reference.info.revision = r.reference.info.revision ∧
      r'.reference.admittedAtNs = r.reference.admittedAtNs ∧
      r'.reference.envelopeSeen = (r.reference.envelopeSeen || marked cfg r) ∧
      r'.reference.protectedUntil = r.reference.protectedUntil := by
    intro ha
    have := hcont ha
    cases hm : marked cfg r <;> simp only [hm, if_true, if_false, Bool.false_eq_true] at this
    · simpa using this
    · exact ⟨this.1, this.2.1, this.2.2.1, this.2.2.2.1, by rw [this.2.2.2.2.1]; simp [markEnvelope],
        this.2.2.2.2.2⟩
  have hbound : r'.reference.active = true → ∀ x, r'.envelopeBound x = r.envelopeBound x := by
    intro ha x
    obtain ⟨-, h1, h2, -, -, h5⟩ := hbase ha
    unfold envelopeBound
    rw [h5]
    exact referenceEnvelopeRevisionOk_congr h1 h2
  refine ⟨hpast, fun hf => ?_, fun ha => ?_, fun ha => ?_, fun ha hs => ?_, fun hv => ?_⟩
  · refine absurd ?_ hf
    rw [← hstep]
    rfl
  · rw [(hbase ha).2.1]
    exact h.id (hbase ha).1
  · rw [(hbase ha).2.2.2.1]
    exact h.selected (hbase ha).1
  · obtain ⟨h0, -, -, h3, h4, -⟩ := hbase ha
    cases hold : r.reference.envelopeSeen with
    | true =>
      obtain ⟨pre, hpre, x, hx, hb, hle⟩ := h.seen h0 hold
      exact ⟨pre, hpre.trans (List.prefix_append _ _), x, hx, hbound ha x ▸ hb, h3 ▸ hle⟩
    | false =>
      -- marked in this very tick
      rw [hold, Bool.false_or, hs] at h4
      have hm := h4.symm
      have htime := marked_in_time hmode hlate (h.selected h0) hm hold
      simp only [marked, Bool.and_eq_true] at hm
      obtain ⟨⟨⟨hin, had⟩, hb⟩, -⟩ := hm
      obtain ⟨hv, hg⟩ := incomingNative_spec hin
      refine ⟨es ++ [e], List.prefix_refl _, r.envelope, ?_, hbound ha _ ▸ hb, ?_⟩
      · rw [← hr', hadm]
        simp [had, hv, hg]
      · rw [← hr', hnow, h3]
        exact htime
  · rcases CommandAuthority.observe_cases r.authority r.pub.armGen r.pub.armStart
      (if r.admitEnvelope cfg = true then r.cmdV else 0) r.envelope with ⟨hver, hg, -, e1⟩ | ⟨-, e1⟩
    · rw [← hauth] at e1
      have had : r.admitEnvelope cfg = true := by
        by_contra hc
        rw [if_neg hc] at hver
        exact hver rfl
      rw [if_pos had] at hver
      refine ⟨es ++ [e], List.prefix_refl _, ?_, fun ha hs hb => ?_⟩
      · rw [← hr', hadm, e1]
        simp [had, hver, hg]
      · -- a live reference would have been marked by it
        obtain ⟨h0, -, -, -, h4, -⟩ := hbase ha
        exfalso
        rw [hs] at h4
        have hin := admit_native (h.id h0) (hmode h0) had
        rw [hbound ha, e1] at hb
        have hm : marked cfg r = true := by
          simp [marked, hin, had, h0]
          exact hb
        rw [hm, Bool.or_true] at h4
        cases h4
    · rw [← hauth] at e1
      rw [e1, CommandAuthority.scoped_have] at hv
      obtain ⟨pre, hpre, hx, hle⟩ := h.held (Bool.and_eq_true_iff.mp hv).1
      rw [e1, CommandAuthority.scoped_current]
      refine ⟨pre, hpre.trans (List.prefix_append _ _), hx, fun ha hs hb => ?_⟩
      obtain ⟨h0, -, -, h3, h4, -⟩ := hbase ha
      rw [h3]
      rw [hs] at h4
      exact hle h0 (Bool.or_eq_false_iff.mp h4.symm).1 (hbound ha _ ▸ hb)

theorem inv_snoc (h : Inv cfg es (run (soloStep cfg) {} es))
    (hmode : InReferenceMode (run (soloStep cfg) {} es) e)
    (hlate : (run (soloStep cfg) {} es).pc = .servo → ¬ LateFirst cfg (run (soloStep cfg) {} es)) :
    Inv cfg (es ++ [e]) (run (soloStep cfg) {} (es ++ [e])) := by
  generalize hr : run (soloStep cfg) {} es = r at h hmode hlate
  generalize hr' : run (soloStep cfg) {} (es ++ [e]) = r'
  have hstep : (r.step cfg e.sh e.pub e.env).1 = r' := by
    rw [← hr', run_snoc, hr]
    rfl
  have hle : r.now ≤ r'.now → ∀ pre, pre <+: es ++ [e] →
      (run (soloStep cfg) {} pre).now ≤ r'.now := by
    intro hle
    rw [← hr']
    exact past_snoc (hr ▸ h) (by rw [hr, hr']; exact hle)
  cases hpc : r.pc with
  | front =>
    have hfront : (r.front cfg e.sh e.pub e.env).1 = r' := by
      rw [← hstep]
      simp only [step, hpc]
    obtain ⟨ha, -, ht, ⟨hn, href⟩ | ⟨hn, hsel⟩⟩ := front_spec cfg r e.pub e.sh e.env hfront
    · exact h.keep (hle hn.ge) ha (href ▸ Continues.refl _) fun _ => ht
    · obtain ⟨hclock, hzero⟩ := hmode.clock hpc
      rcases hsel with hsel | hsel
      · exact h.keep (hle (hn ▸ hclock)) ha hsel fun _ => ht
      · refine h.select (hle (hn ▸ hclock)) ha (hn ▸ hzero) (fun hact => ?_) fun _ => ht
        obtain ⟨h1, h2, h3⟩ := hsel hact
        exact ⟨h1.trans hn.symm, h2, h3 h.id⟩
  | servo => exact inv_servo h hr.symm hpc (hmode.mode hpc) (hlate hpc) hr'.symm
  | done | mirror | peers =>
    obtain ⟨ha, -, ht, hn, hc⟩ := group_spec cfg r e.pub e.sh e.env (by simp [hpc]) hstep
    refine h.keep (hle hn.ge) ha hc fun _ => ?_
    rw [ht]
    exact h.idle (by simp [hpc])

end

theorem inv_init (cfg : ServerConfig) : Inv cfg [] {} where
  past pre h := by
    rw [List.prefix_nil.mp h]
    exact le_rfl
  idle h := absurd rfl h
  id h := by cases h
  selected h := by cases h
  seen h := by cases h
  held h := by cases h

/-- **The first envelope is in time.**  In every run in MODE_REFERENCE whose servo steps never meet
a late first envelope at END, a tick that tracks a native command has had, in time, an admission
bound to the reference selected now. -/
theorem tracked_timely (cfg : ServerConfig) (es : List TickEvent)
    (hrun : Along (soloStep cfg) (fun r e => InReferenceMode r e ∧ (r.pc = .servo → ¬ LateFirst cfg r))
      {} es) (e : CommandEnvelope)
    (ht : (run (soloStep cfg) {} es).tracked = some e) (hn : e.native = true) :
    Timely cfg (run (soloStep cfg) {} es) es := by
  have hinv : ∀ es, Along (soloStep cfg)
      (fun r e => InReferenceMode r e ∧ (r.pc = .servo → ¬ LateFirst cfg r)) {} es →
      Inv cfg es (run (soloStep cfg) {} es) := fun es h =>
    invariant_hist (I := Inv cfg) (inv_init cfg)
      (fun es e _ hC hI => by
        have := inv_snoc hI hC.1 hC.2
        rwa [run_snoc] at this) h
  induction es using List.reverseRecOn with
  | nil => cases ht
  | append_singleton es ev _ =>
    have hI := hinv es hrun.init
    have hI' := hinv (es ++ [ev]) hrun
    generalize hr' : run (soloStep cfg) {} (es ++ [ev]) = r' at hI' ht ⊢
    have hstep : ((run (soloStep cfg) {} es).step cfg ev.sh ev.pub ev.env).1 = r' := by
      rw [← hr', run_snoc]
      rfl
    generalize run (soloStep cfg) {} es = r at hI hstep
    -- only the servo step of a tick tracks
    cases hpc : r.pc with
    | front =>
      have hfront : (r.front cfg ev.sh ev.pub ev.env).1 = r' := by
        rw [← hstep]
        simp only [step, hpc]
      rw [(front_spec cfg r ev.pub ev.sh ev.env hfront).2.2.1] at ht
      cases ht
    | done | mirror | peers =>
      obtain ⟨-, -, h, -⟩ := group_spec cfg r ev.pub ev.sh ev.env (by simp [hpc]) hstep
      rw [h, hI.idle (by simp [hpc])] at ht
      cases ht
    | servo =>
      have hservo : (r.servo cfg ev.sh ev.pub.sessionId ev.env).1 = r' := by
        rw [← hstep]
        simp only [step, hpc]
      obtain ⟨-, -, -, -, htr⟩ := servo_spec cfg r ev.sh ev.pub.sessionId ev.env hservo
        (hI.idle (by simp [hpc]))
      obtain ⟨hcur, hv, hhold, hnat⟩ := htr e ht
      obtain ⟨hact, hb⟩ := hnat hn
      cases hs : r'.reference.envelopeSeen with
      | true => exact hI'.seen hact hs
      | false =>
        obtain ⟨pre, hpre, hadm, hle⟩ := hI'.held hv
        rw [hcur] at hb
        refine ⟨pre, hpre, _, hadm, hb, ?_⟩
        have h1 : ((run (soloStep cfg) {} pre).now : ℚ) ≤ r'.reference.admittedAtNs := by
          exact_mod_cast hle hact hs hb
        have h2 : 0 ≤ firstEnvelopeNs cfg := le_min hhold (by norm_num [referenceFirstEnvelopeNs])
        linarith

/-! ## a short terminal reference -/

/-- one joint, hold 100 ms, no group -/
def soloConfig : ServerConfig where
  n := 1
  holdNs := 100000000
  faultNs := 1000000000
  supportsReference := true
  groupEnabled := false
  groupMember := 0
  groupMembers := 0
  groupMaxAgeNs := 0
  groupMinLeadNs := 0
  jointOrderHash := 0
  instanceId := ""
  modelId := ""
  capabilities := 0
  setupFailed := none
  sha256 _ := 0

/-- the double `2^-6`, about 15.6 ms -/
def shortEnd : F64 := ⟨0x3F90000000000000⟩

/-- reference 1, revision 1: at rest for `2^-6` seconds, terminal -/
def shortCommit : ReferenceCommit where
  admitted :=
    { identity := { sessionId := 1, uploadId := 1, referenceId := 1, armEpoch := 1, revision := 1
                    knots := 2, n := 1, flags := 3, byteCount := 48 }
      curve := { n := 1, k := 2, hermite := true, times := fun i => if i = 1 then shortEnd else .zero } }
  request := { sessionId := 1, uploadId := 1, referenceId := 1, armEpoch := 1, revision := 1 }
  ticket := 1

/-- session 1 armed as generation 1 in MODE_REFERENCE, with the commit published -/
def shortPublished : Published where
  sessionId := 1
  claimOk := true
  referenceSession := 1
  armed := true
  armGen := 1
  armStart := ⟨1, 1000000000⟩
  referenceIn := shortCommit
  referencePublished := 1

/-- an envelope for it at the given phase, received at `rxNs` -/
def shortEnvelope (phase : F64) (rxNs : ℕ) : CommandEnvelope where
  packet := { version := .reference, n := 1, armEpoch := 1, sessionId := 1 }
  rxNs := rxNs
  armGen := 1
  sessionId := 1
  reference := { referenceId := 1, revision := 1, phase := phase
                 validForUs := 100000, phaseWindowUs := 100000 }

def shortTick (cmdIn : Mailbox CommandEnvelope) (now : ℕ) : List TickEvent :=
  [⟨{ cmdIn := cmdIn }, shortPublished, { now := now }⟩,
    ⟨{ cmdIn := cmdIn }, shortPublished, { now := now }⟩]

/-- the first envelope arrives with the selection -/
theorem tracked_timely_short :
    let es := shortTick ⟨shortEnvelope .zero 1000000000, 1⟩ 1000000000
    (run (soloStep soloConfig) {} es).tracked = some (shortEnvelope .zero 1000000000) ∧
      Timely soloConfig (run (soloStep soloConfig) {} es) es := by
  have ht : (run (soloStep soloConfig) {}
      (shortTick ⟨shortEnvelope .zero 1000000000, 1⟩ 1000000000)).tracked =
      some (shortEnvelope .zero 1000000000) := by decide +kernel
  refine ⟨ht, tracked_timely soloConfig _ ?_ _ ht rfl⟩
  refine along_cons.mpr ⟨⟨⟨fun _ => by decide +kernel, fun h => ?_⟩, fun h => ?_⟩,
    along_cons.mpr ⟨⟨⟨fun h => ?_, fun _ _ => by decide +kernel⟩, fun _ h => ?_⟩, along_nil⟩⟩
  · cases h
  · cases h
  · exact absurd h (by decide +kernel)
  · exact absurd h.1 (by decide +kernel)

/-- **A late first envelope is tracked**: 300 ms after its selection, at END, the reference admits
its first envelope and the tick tracks it. -/
theorem late_first_tracked :
    ∃ (cfg : ServerConfig) (es : List TickEvent) (e : CommandEnvelope),
      Along (soloStep cfg) InReferenceMode {} es ∧
      (∀ ev ∈ es, ev.pub.referenceIn.admitted.curve.validReference = true) ∧
      (run (soloStep cfg) {} es).tracked = some e ∧ e.native = true ∧
      ¬ Timely cfg (run (soloStep cfg) {} es) es := by
  refine ⟨soloConfig, shortTick ⟨{}, 0⟩ 1000000000 ++
    shortTick ⟨shortEnvelope shortEnd 1300000000, 1⟩ 1300000000,
    shortEnvelope shortEnd 1300000000, ?_, ?_, by decide +kernel, rfl, ?_⟩
  · refine along_cons.mpr ⟨⟨fun _ => by decide +kernel, fun h => ?_⟩,
      along_cons.mpr ⟨⟨fun h => ?_, fun _ _ => by decide +kernel⟩,
      along_cons.mpr ⟨⟨fun _ => by decide +kernel, fun h => ?_⟩,
      along_cons.mpr ⟨⟨fun h => ?_, fun _ _ => by decide +kernel⟩, along_nil⟩⟩⟩⟩
    · cases h
    · exact absurd h (by decide +kernel)
    · exact absurd h (by decide +kernel)
    · exact absurd h (by decide +kernel)
  · have hv : shortPublished.referenceIn.admitted.curve.validReference = true := by decide +kernel
    intro ev hev
    simp only [shortTick, List.cons_append, List.nil_append, List.mem_cons, List.not_mem_nil,
      or_false] at hev
    rcases hev with rfl | rfl | rfl | rfl <;> exact hv
  · rintro ⟨pre, hpre, x, hx, -, hle⟩
    -- the only admission is the last tick's, 300 ms after the selection
    have hall : ∀ pre ∈ (shortTick ⟨{}, 0⟩ 1000000000 ++
        shortTick ⟨shortEnvelope shortEnd 1300000000, 1⟩ 1300000000).inits,
        (run (soloStep soloConfig) {} pre).admitted = none ∨
          1100000000 < (run (soloStep soloConfig) {} pre).now := by decide +kernel
    have hbound : ((run (soloStep soloConfig) {} (shortTick ⟨{}, 0⟩ 1000000000 ++
        shortTick ⟨shortEnvelope shortEnd 1300000000, 1⟩ 1300000000)).reference.admittedAtNs : ℚ) +
        firstEnvelopeNs soloConfig = (1100000000 : ℕ) := by decide +kernel
    rcases hall pre ((List.mem_inits ..).mpr hpre) with hnone | hlt
    · rw [hnone] at hx
      cases hx
    · rw [hbound, Nat.cast_le] at hle
      exact absurd hlt (not_lt.mpr hle)

end RtLoop

end ArmControl.Rt
