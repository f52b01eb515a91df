import ArmControl.Rt.ControlMoves

/-!
# What one step of the servo thread does to the group

The counterpart of `ControlMoves` for the tick.  The front of a tick is two moves in one step: the
pending commit is answered (`Answer`), then the head of the group section runs (`Head`).  The other
steps write the slot at most once.

* `Selects`      what a commit that stamps the slot has passed;
* `Answer`, `Head`, `Tick`   the kinds of moves;
* `servo_ticks`  every step of the tick is one of them.
-/

namespace ArmControl.Rt

/-- everything shared but the latch -/
def Shared.unlatched (x : Shared) : Shared := { x with latch := none }

namespace Server

/-- the tick's loads that the group section uses later -/
def loaded (s : Server) : Server :=
  { s with rt := { s.rt with pub := s.pub, faulted := s.sh.fault } }

/-- a published commit has not been answered yet -/
def inFlight (s : Server) : Prop :=
  s.pub.referencePublished ≠ s.rt.referenceSeen ∧
    s.pub.referenceIn.ticket = s.pub.referencePublished

/-- what a commit that was selected while this member is committed has passed -/
structure Selects (s : Server) : Prop where
  armed : s.pub.armed = true
  active : s.pub.groupActive = true
  committed : s.pub.groupCommitted = true
  epoch : s.pub.groupEpoch = low32 s.pub.armGen
  session : s.pub.referenceIn.request.sessionId = s.pub.sessionId
  nonzero : s.pub.sessionId ≠ 0
  generation : s.pub.referenceIn.cancelGeneration = s.pub.referenceCancelGeneration

/-- the commit is answered; `pend` and `ns` are the stamp -/
def answered (s : Server) (res : ReferenceResult) (pend : Bool) (ns : ℕ) : Server :=
  { s with rt := { s.rt with
      referenceSeen := s.pub.referencePublished, referenceDone := s.pub.referencePublished
      referenceResult := res, groupStampPending := pend, groupStampNs := ns } }

def withSlot (s : Server) (slot : GroupSlot) : Server := { s with sh := { s.sh with slot := slot } }

def runningSlot (s : Server) (ns : ℕ) : GroupSlot := RtLoop.groupValue s.pub .running 0 ns

/-- the pending commit in one tick -/
inductive Answer (s : Server) (now : ℕ) : Server → Prop
  | idle (h : ¬ s.inFlight) : Answer s now s
  | plain (res : ReferenceResult) (h : s.inFlight)
      (hres : res = .ok → s.pub.groupActive = true → s.pub.groupCommitted = true →
        s.pub.groupEpoch ≠ low32 s.pub.armGen) :
      Answer s now (s.answered res s.rt.groupStampPending s.rt.groupStampNs)
  | stamped (h : s.inFlight) (hsel : s.Selects) (hb : s.sh.slotBusy = false)
      (hs : s.sh.slot.state = .committed) :
      Answer s now ((s.answered .ok false now).withSlot (s.runningSlot now))
  | contended (h : s.inFlight) (hsel : s.Selects) (hb : s.sh.slotBusy = true) :
      Answer s now (s.answered .ok true now)
  | late (h : s.inFlight) (hsel : s.Selects) (hb : s.sh.slotBusy = false)
      (hs : s.sh.slot.state ≠ .committed) : Answer s now (s.answered .ok false now)

def withRt (s : Server) (r : RtLoop) (p : RtPc) : Server := { s with rt := { r with pc := p } }

/-- the head of the group section -/
inductive Head (cfg : ServerConfig) (s : Server) : Server → Prop
  | outside (hin : RtLoop.inGroup cfg s.pub = false)
      (h : cfg.groupEnabled = false ∨ s.pub.groupActive = true) : Head cfg s (s.withRt s.rt .servo)
  | inactive (h : s.pub.groupActive = false) : Head cfg s (s.withRt s.rt.clearGroup .servo)
  | settled (hin : RtLoop.inGroup cfg s.pub = true)
      (hp : (s.rt.scopeGroup s.pub).groupStampPending = false) :
      Head cfg s (s.withRt (s.rt.scopeGroup s.pub) .done)
  | retried (hin : RtLoop.inGroup cfg s.pub = true)
      (hp : (s.rt.scopeGroup s.pub).groupStampPending = true) (hb : s.sh.slotBusy = false)
      (hs : s.sh.slot.state = .committed) :
      Head cfg s ((s.withRt { s.rt.scopeGroup s.pub with groupStampPending := false } .done).withSlot
        (s.runningSlot (s.rt.scopeGroup s.pub).groupStampNs))
  | dropped (hin : RtLoop.inGroup cfg s.pub = true)
      (hp : (s.rt.scopeGroup s.pub).groupStampPending = true) (hb : s.sh.slotBusy = false)
      (hs : s.sh.slot.state ≠ .committed) :
      Head cfg s (s.withRt { s.rt.scopeGroup s.pub with groupStampPending := false } .done)
  | waits (hin : RtLoop.inGroup cfg s.pub = true)
      (hp : (s.rt.scopeGroup s.pub).groupStampPending = true) (hb : s.sh.slotBusy = true) :
      Head cfg s (s.withRt { s.rt.scopeGroup s.pub with groupStampPending := true } .done)

/-- one step of the servo thread -/
inductive Tick (cfg : ServerConfig) (s : Server) (env : RtEnv) : Server → Prop
  | unread (hpc : s.rt.pc = .front) : Tick cfg s env s
  | front (s₁ t : Server) (hpc : s.rt.pc = .front) (ha : Answer s.loaded env.now s₁)
      (hh : Head cfg s₁ t) : Tick cfg s env t
  | notDone (hpc : s.rt.pc = .done) : Tick cfg s env (s.withRt s.rt .mirror)
  | done (hpc : s.rt.pc = .done) (hb : s.sh.slotBusy = false) (hs : s.sh.slot.state = .running) :
      Tick cfg s env ((s.withRt { s.rt with groupDone := true } .mirror).withSlot
        (RtLoop.groupValue s.rt.pub .done 0 s.rt.groupStampNs))
  | notMirrored (m : Bool) (hpc : s.rt.pc = .mirror) :
      Tick cfg s env (s.withRt { s.rt with groupFaultMirrored := m } .peers)
  | mirrored (code : ℕ) (hpc : s.rt.pc = .mirror) (hf : s.rt.faulted = true)
      (hm : s.rt.groupFaultMirrored = false) (hb : s.sh.slotBusy = false)
      (hs : s.sh.slot.state ≠ .done) :
      Tick cfg s env ((s.withRt { s.rt with groupFaultMirrored := true } .peers).withSlot
        (RtLoop.groupValue s.rt.pub .faulted code 0))
  | checked (tripped : Bool) (hpc : s.rt.pc = .peers) :
      Tick cfg s env (s.withRt { s.rt with groupTripped := tripped } .servo)
  | tripped (hpc : s.rt.pc = .peers) (hb : s.sh.slotBusy = false)
      (hs : liveStates s.sh.slot.state = true) :
      Tick cfg s env ((s.withRt { s.rt with groupTripped := true } .servo).withSlot
        (RtLoop.groupValue s.rt.pub .cancelled 0 0))
  | servo (hpc : s.rt.pc = .servo) : Tick cfg s env (s.withRt s.rt .front)

/-- the step to `s'` is a move of the tick, as far as the core can tell -/
def Ticks (cfg : ServerConfig) (s : Server) (env : RtEnv) (s' : Server) : Prop :=
  ∃ t, s'.core = t.core ∧ Tick cfg s env t

/-! ## the front -/

section
variable (cfg : ServerConfig) (r : RtLoop) (p : Published) (now : ℕ) (faulted : Bool)

theorem prepareReference_session :
    (r.prepareReference p now faulted).reference.session = p.sessionId := by
  have hreset : ∀ ref : ReferenceSelection, (ref.reset p.sessionId (low32 p.armGen)).session =
      p.sessionId := by
    intro ref
    unfold ReferenceSelection.reset
    split_ifs with h
    · exact h.1
    · rfl
  have heval : ∀ ref : ReferenceSelection, (ref.evaluate now).1.session = ref.session := by
    intro ref
    unfold ReferenceSelection.evaluate
    dsimp only
    split_ifs <;> rfl
  unfold RtLoop.prepareReference RtLoop.applyCancel
  dsimp only
  rw [heval]
  split_ifs <;> exact hreset _

/-- the tick considers the commit as it is published -/
theorem prepareReference_commit (h : p.referencePublished ≠ r.referenceSeen) :
    (r.prepareReference p now faulted).referenceCommit = p.referenceIn := by
  unfold RtLoop.prepareReference RtLoop.applyCancel
  dsimp only
  rw [if_pos h]
  split_ifs <;> rfl

theorem prepared_session (sh : Shared) :
    (r.prepared cfg sh p now).reference.session = p.sessionId :=
  prepareReference_session _ _ _ _

theorem prepared_commit (sh : Shared) (h : p.referencePublished ≠ r.referenceSeen) :
    (r.prepared cfg sh p now).referenceCommit = p.referenceIn := by
  unfold RtLoop.prepared
  apply prepareReference_commit
  obtain ⟨m, g, e, h1⟩ := RtLoop.seedMode_frame cfg (r.load sh p now) p
  obtain ⟨ref, m', g', e', fb, d, q, h2, -⟩ :=
    RtLoop.answerMode_frame ((r.load sh p now).seedMode cfg p) p now sh.fault
  rw [h2, h1]
  exact h

/-- a commit that stamps was selected: it names the session and the cancel generation of the tick -/
theorem stamps_spec (hsess : r.reference.session = p.sessionId)
    (hcommit : r.referenceCommit = p.referenceIn)
    (h : RtLoop.stamps p (r.admitCommit p now faulted).1 = true) :
    (r.admitCommit p now faulted).1 = .ok ∧
      p.armed = true ∧ p.groupActive = true ∧ p.groupCommitted = true ∧
      p.groupEpoch = low32 p.armGen ∧ p.referenceIn.request.sessionId = p.sessionId ∧
      p.sessionId ≠ 0 ∧ p.referenceIn.cancelGeneration = p.referenceCancelGeneration := by
  simp only [RtLoop.stamps, Bool.and_eq_true, beq_iff_eq] at h
  obtain ⟨⟨⟨hok, hact⟩, hcom⟩, hep⟩ := h
  have hres := hok
  unfold RtLoop.admitCommit at hok
  split_ifs at hok with h1 h2
  rw [ReferenceSelection.commit_fst, hcommit] at hok
  obtain ⟨hid, hgen, -⟩ := ReferenceSelection.commitResult_ok hok
  simp only [ReferenceSelection.identityOk, Bool.and_eq_true, beq_iff_eq, bne_iff_ne, hsess] at hid
  exact ⟨hres, h1.1, hact, hcom, hep, by tauto, by tauto, hgen⟩

end

section
variable (cfg : ServerConfig) (s : Server)

/-- the tick's state and the slot after a part of the tick -/
def tick (r : RtLoop) (slot : GroupSlot) : Server :=
  { s with rt := r, sh := { s.sh with slot := slot } }

theorem core_tick {s : Server} {r r' : RtLoop} (h : r.groupPart = r'.groupPart) (slot : GroupSlot) :
    (s.tick r slot).core = (s.tick r' slot).core := by
  show { (s.tick r slot).core with rt := r.groupPart } = { (s.tick r' slot).core with rt := r'.groupPart }
  rw [h]
  rfl

theorem committing_answers (now : ℕ) {x : RtLoop × GroupSlot}
    (hx : (s.rt.prepared cfg s.sh s.pub now).commitStep s.sh.slot s.pub now s.sh.fault s.sh.slotBusy =
      x) :
    ∃ s₁, (s.tick (x.1.publishReference now) x.2).core = s₁.core ∧ Answer s.loaded now s₁ := by
  have hpart : (s.rt.prepared cfg s.sh s.pub now).groupPart = s.loaded.rt.groupPart := by
    obtain ⟨m, g, e, fb, d, q, ref, c, k, h⟩ := RtLoop.prepared_frame cfg s.rt s.pub now s.sh
    rw [h]
    rfl
  have hseen : (s.rt.prepared cfg s.sh s.pub now).groupPart.referenceSeen = s.rt.referenceSeen := by
    rw [hpart]
    rfl
  have hsess := prepared_session cfg s.rt s.pub now s.sh
  have hcommit := prepared_commit cfg s.rt s.pub now s.sh
  generalize s.rt.prepared cfg s.sh s.pub now = r at *
  have hseen' : r.referenceSeen = s.rt.referenceSeen := hseen
  unfold RtLoop.commitStep at hx
  by_cases hf : r.inFlight s.pub = false
  · rw [if_pos hf] at hx
    subst hx
    refine ⟨s.loaded, core_tick hpart _, .idle fun h => ?_⟩
    have hne : s.pub.referencePublished ≠ s.rt.referenceSeen := h.1
    have ht : s.pub.referenceIn.ticket = s.pub.referencePublished := h.2
    simp [RtLoop.inFlight, hseen', hcommit hne, hne, ht] at hf
  rw [if_neg hf] at hx
  have hin : s.loaded.inFlight := by
    rw [Bool.not_eq_false, RtLoop.inFlight, Bool.and_eq_true, bne_iff_ne, beq_iff_eq, hseen'] at hf
    rw [hcommit hf.1] at hf
    exact hf
  have hanswered : ∀ res pend ns, ({ r with
      referenceSeen := s.pub.referencePublished, referenceDone := s.pub.referencePublished
      referenceResult := res, groupStampPending := pend, groupStampNs := ns } : RtLoop).groupPart =
      (s.loaded.answered res pend ns).rt.groupPart := by
    intro res pend ns
    show ({ r.groupPart with
      referenceSeen := s.pub.referencePublished, referenceDone := s.pub.referencePublished
      referenceResult := res, groupStampPending := pend, groupStampNs := ns } : RtLoop) = _
    rw [hpart]
    rfl
  dsimp only at hx
  by_cases hst : RtLoop.stamps s.pub (r.admitCommit s.pub now s.sh.fault).1 = true
  · rw [if_pos hst] at hx
    obtain ⟨hok, h1, h2, h3, h4, h5, h6, h7⟩ := stamps_spec r s.pub now s.sh.fault hsess
      (hcommit hin.1) hst
    have hsel : s.loaded.Selects := ⟨h1, h2, h3, h4, h5, h6, h7⟩
    rw [hok] at hx
    rcases GroupSlot.tryWrite_cases s.sh.slot s.sh.slotBusy
      (RtLoop.groupValue s.pub .running 0 now) (onlyState .committed) with
      ⟨hw, hb⟩ | ⟨hw, hb, ha⟩ | ⟨hw, hb, ha⟩
    · rw [hw] at hx
      subst hx
      exact ⟨_, core_tick (hanswered .ok true now) _, .contended hin hsel hb⟩
    · rw [hw] at hx
      subst hx
      have hs : s.sh.slot.state = .committed := by simpa [onlyState] using ha
      exact ⟨_, core_tick (hanswered .ok false now) _, .stamped hin hsel hb hs⟩
    · rw [hw] at hx
      subst hx
      have hs : s.sh.slot.state ≠ .committed := by simpa [onlyState] using ha
      exact ⟨_, core_tick (hanswered .ok false now) _, .late hin hsel hb hs⟩
  · rw [if_neg hst] at hx
    subst hx
    refine ⟨_, core_tick ?_ _, .plain (r.admitCommit s.pub now s.sh.fault).1 hin ?_⟩
    swap
    · intro hok hact hcom hep
      have hact' : s.pub.groupActive = true := hact
      have hcom' : s.pub.groupCommitted = true := hcom
      have hep' : s.pub.groupEpoch = low32 s.pub.armGen := hep
      simp [RtLoop.stamps, hok, hact', hcom', hep'] at hst
    have hpend : r.groupStampPending = s.rt.groupStampPending :=
      show r.groupPart.groupStampPending = _ by rw [hpart]; rfl
    have hns : r.groupStampNs = s.rt.groupStampNs :=
      show r.groupPart.groupStampNs = _ by rw [hpart]; rfl
    refine (hanswered _ r.groupStampPending r.groupStampNs).trans ?_
    rw [hpend, hns]
    rfl

theorem groupHead_heads {x : RtLoop × GroupSlot}
    (hx : s.rt.groupHead cfg s.sh.slot s.pub s.sh.slotBusy = x) :
    ∃ t, (s.tick { x.1 with pc := if RtLoop.inGroup cfg s.pub then .done else .servo } x.2).core =
      t.core ∧ Head cfg s t := by
  unfold RtLoop.groupHead at hx
  by_cases h1 : cfg.groupEnabled = true ∧ s.pub.groupActive = false
  · rw [if_pos h1] at hx
    subst hx
    have hout : RtLoop.inGroup cfg s.pub = false := by simp [RtLoop.inGroup, h1.2]
    refine ⟨_, ?_, .inactive h1.2⟩
    simp only [hout]
    rfl
  rw [if_neg h1] at hx
  by_cases h2 : RtLoop.inGroup cfg s.pub = true
  swap
  · rw [if_neg h2] at hx
    subst hx
    have hout : RtLoop.inGroup cfg s.pub = false := by simpa using h2
    refine ⟨_, ?_, .outside hout ?_⟩
    · simp only [hout]
      rfl
    · rw [not_and_or] at h1
      simpa using h1
  rw [if_pos h2] at hx
  simp only [h2, if_true]
  unfold RtLoop.retryStamp at hx
  by_cases hp : (s.rt.scopeGroup s.pub).groupStampPending = false
  · rw [if_pos hp] at hx
    subst hx
    exact ⟨_, rfl, .settled h2 hp⟩
  rw [if_neg hp] at hx
  have hp' : (s.rt.scopeGroup s.pub).groupStampPending = true := by simpa using hp
  rcases GroupSlot.tryWrite_cases s.sh.slot s.sh.slotBusy
    (RtLoop.groupValue s.pub .running 0 (s.rt.scopeGroup s.pub).groupStampNs) (onlyState .committed) with
    ⟨hw, hb⟩ | ⟨hw, hb, ha⟩ | ⟨hw, hb, ha⟩
  · rw [hw] at hx
    subst hx
    refine ⟨_, ?_, .waits h2 hp' hb⟩
    rfl
  · rw [hw] at hx
    subst hx
    refine ⟨_, ?_, .retried h2 hp' hb (by simpa [onlyState] using ha)⟩
    rfl
  · rw [hw] at hx
    subst hx
    refine ⟨_, ?_, .dropped h2 hp' hb (by simpa [onlyState] using ha)⟩
    rfl

theorem core_withRt {s s' : Server} {r r' : RtLoop} (hc : s'.core = s.core)
    (hr : r'.groupPart = r.groupPart) (p : RtPc) :
    (s'.withRt r' p).core = (s.withRt r p).core := by
  show { s'.core with rt := { r'.groupPart with pc := p } } =
    { s.core with rt := { r.groupPart with pc := p } }
  rw [hc, hr]

theorem core_withSlot {s s' : Server} (hc : s'.core = s.core) (slot : GroupSlot) :
    (s'.withSlot slot).core = (s.withSlot slot).core := by
  show s'.core.withSlot slot = s.core.withSlot slot
  rw [hc]

theorem groupPart_clear {r r' : RtLoop} (h : r'.groupPart = r.groupPart) :
    r'.clearGroup.groupPart = r.clearGroup.groupPart := by
  show r'.groupPart.clearGroup = r.groupPart.clearGroup
  rw [h]

theorem groupPart_scope {r r' : RtLoop} {p p' : Published} (h : r'.groupPart = r.groupPart)
    (hid : p'.groupId = p.groupId) :
    (r'.scopeGroup p').groupPart = (r.scopeGroup p).groupPart := by
  have ht : r'.groupPart.groupTickId = r.groupPart.groupTickId := by rw [h]
  have ht' : r'.groupTickId = r.groupTickId := ht
  unfold RtLoop.scopeGroup
  rw [hid, ht']
  split_ifs
  · show { r'.groupPart.clearGroup with groupTickId := p.groupId } =
      { r.groupPart.clearGroup with groupTickId := p.groupId }
    rw [h]
  · exact h

/-- the head depends on the core only -/
theorem Head.congr {cfg : ServerConfig} {s s' t : Server} (hc : s'.core = s.core)
    (h : Head cfg s' t) : ∃ t', t.core = t'.core ∧ Head cfg s t' := by
  have hpub : s'.core.pub = s.core.pub := by rw [hc]
  have hsh : s'.core.sh = s.core.sh := by rw [hc]
  have hrt : s'.rt.groupPart = s.rt.groupPart := show s'.core.rt = s.core.rt by rw [hc]
  have hin : RtLoop.inGroup cfg s'.pub = RtLoop.inGroup cfg s.pub := by
    show RtLoop.inGroup cfg s'.core.pub = RtLoop.inGroup cfg s.core.pub
    rw [hpub]
  have hact : s'.pub.groupActive = s.pub.groupActive := by
    show s'.core.pub.groupActive = s.core.pub.groupActive
    rw [hc]
  have hbusy : s'.sh.slotBusy = s.sh.slotBusy := by
    show s'.core.sh.slotBusy = s.core.sh.slotBusy
    rw [hc]
  have hslot : s'.sh.slot = s.sh.slot := by
    show s'.core.sh.slot = s.core.sh.slot
    rw [hc]
  have hscope : (s'.rt.scopeGroup s'.pub).groupPart = (s.rt.scopeGroup s.pub).groupPart :=
    groupPart_scope hrt (show s'.core.pub.groupId = s.core.pub.groupId by rw [hc])
  have hpend : (s'.rt.scopeGroup s'.pub).groupStampPending =
      (s.rt.scopeGroup s.pub).groupStampPending := by
    show (s'.rt.scopeGroup s'.pub).groupPart.groupStampPending =
      (s.rt.scopeGroup s.pub).groupPart.groupStampPending
    rw [hscope]
  have hns : (s'.rt.scopeGroup s'.pub).groupStampNs = (s.rt.scopeGroup s.pub).groupStampNs := by
    show (s'.rt.scopeGroup s'.pub).groupPart.groupStampNs =
      (s.rt.scopeGroup s.pub).groupPart.groupStampNs
    rw [hscope]
  have hrun : ∀ ns, s'.runningSlot ns = s.runningSlot ns := by
    intro ns
    show s'.core.runningSlot ns = s.core.runningSlot ns
    rw [hc]
  have hwith : ∀ b, ({ s'.rt.scopeGroup s'.pub with groupStampPending := b } : RtLoop).groupPart =
      ({ s.rt.scopeGroup s.pub with groupStampPending := b } : RtLoop).groupPart := by
    intro b
    show { (s'.rt.scopeGroup s'.pub).groupPart with groupStampPending := b } =
      { (s.rt.scopeGroup s.pub).groupPart with groupStampPending := b }
    rw [hscope]
  cases h with
  | outside h1 h2 => exact ⟨_, core_withRt hc hrt _, .outside (hin ▸ h1) (hact ▸ h2)⟩
  | inactive h1 => exact ⟨_, core_withRt hc (groupPart_clear hrt) _, .inactive (hact ▸ h1)⟩
  | settled h1 h2 => exact ⟨_, core_withRt hc hscope _, .settled (hin ▸ h1) (hpend ▸ h2)⟩
  | retried h1 h2 h3 h4 =>
    rw [hrun, hns]
    exact ⟨_, core_withSlot (core_withRt hc (hwith _) _) _,
      .retried (hin ▸ h1) (hpend ▸ h2) (hbusy ▸ h3) (hslot ▸ h4)⟩
  | dropped h1 h2 h3 h4 =>
    exact ⟨_, core_withRt hc (hwith _) _,
      .dropped (hin ▸ h1) (hpend ▸ h2) (hbusy ▸ h3) (hslot ▸ h4)⟩
  | waits h1 h2 h3 =>
    exact ⟨_, core_withRt hc (hwith _) _, .waits (hin ▸ h1) (hpend ▸ h2) (hbusy ▸ h3)⟩

theorem front_ticks (env : RtEnv) (hpc : s.rt.pc = .front) {x : RtLoop × Shared}
    (hx : s.rt.front cfg s.sh s.pub env = x) : Ticks cfg s env { s with rt := x.1, sh := x.2 } := by
  unfold RtLoop.front at hx
  by_cases hr : env.readOk = false
  · rw [if_pos hr] at hx
    subst hx
    refine ⟨s, ?_, .unread hpc⟩
    dsimp only
    split_ifs
    · unfold Shared.latchFault
      split <;> rfl
    · rfl
  rw [if_neg hr] at hx
  obtain ⟨s₁, hc, ha⟩ := committing_answers cfg s env.now rfl
  obtain ⟨t, ht, hh⟩ := groupHead_heads cfg (s.tick _ _) rfl
  obtain ⟨t', ht', hh'⟩ := hh.congr hc
  refine ⟨t', ?_, .front s₁ t' hpc ha hh'⟩
  rw [← ht', ← ht, ← hx]
  rfl

/-! ## the rest of the tick -/

theorem doneWrite_ticks (env : RtEnv) (hpc : s.rt.pc = .done) {x : RtLoop × GroupSlot}
    (hx : s.rt.doneWrite s.sh.slot s.pub.groupCommitted s.sh.slotBusy = x) :
    Ticks cfg s env (s.tick { x.1 with pc := .mirror } x.2) := by
  unfold RtLoop.doneWrite at hx
  split_ifs at hx with h
  swap
  · subst hx
    exact ⟨_, rfl, .notDone hpc⟩
  have hskip : ({ s.rt with groupDone := false, pc := .mirror } : RtLoop).groupPart =
      ({ s.rt with pc := .mirror } : RtLoop).groupPart := by
    rw [← h.1]
  rcases GroupSlot.tryWrite_cases s.sh.slot s.sh.slotBusy
    (RtLoop.groupValue s.rt.pub .done 0 s.rt.groupStampNs) (onlyState .running) with
    ⟨hw, hb⟩ | ⟨hw, hb, ha⟩ | ⟨hw, hb, ha⟩
  · rw [hw] at hx
    subst hx
    exact ⟨_, core_tick hskip _, .notDone hpc⟩
  · rw [hw] at hx
    subst hx
    exact ⟨_, rfl, .done hpc hb (by simpa [onlyState] using ha)⟩
  · rw [hw] at hx
    subst hx
    exact ⟨_, core_tick hskip _, .notDone hpc⟩

theorem faultMirror_ticks (env : RtEnv) (hpc : s.rt.pc = .mirror) {x : RtLoop × GroupSlot}
    (hx : s.rt.faultMirror s.sh = x) :
    Ticks cfg s env (s.tick { x.1 with pc := .peers } x.2) := by
  unfold RtLoop.faultMirror at hx
  split_ifs at hx with h
  swap
  · subst hx
    exact ⟨_, rfl, .notMirrored s.rt.groupFaultMirrored hpc⟩
  dsimp only at hx
  rcases GroupSlot.tryWrite_cases s.sh.slot s.sh.slotBusy
    (RtLoop.groupValue s.rt.pub .faulted ((s.sh.latch.map fun l => l.code.code).getD 0) 0)
    (exceptState .done) with ⟨hw, hb⟩ | ⟨hw, hb, ha⟩ | ⟨hw, hb, ha⟩
  · rw [hw] at hx
    subst hx
    exact ⟨_, rfl, .notMirrored false hpc⟩
  · rw [hw] at hx
    subst hx
    exact ⟨_, rfl, .mirrored _ hpc h.1 h.2 hb (by simpa [exceptState] using ha)⟩
  · rw [hw] at hx
    subst hx
    exact ⟨_, rfl, .notMirrored true hpc⟩

theorem peerCheck_ticks (env : RtEnv) (hpc : s.rt.pc = .peers) {x : RtLoop × Shared}
    (hx : s.rt.peerCheck cfg s.sh s.pub.groupCommitted env = x) :
    Ticks cfg s env { s with rt := { x.1 with pc := .servo }, sh := x.2 } := by
  rcases RtLoop.peerCheck_cases cfg s.rt s.sh s.pub.groupCommitted env with h | ⟨-, v, h⟩
  · rw [← hx, h]
    exact ⟨_, rfl, .checked s.rt.groupTripped hpc⟩
  rw [← hx, h]
  unfold RtLoop.tripPeer
  rcases GroupSlot.tryWrite_cases s.sh.slot s.sh.slotBusy
    (RtLoop.groupValue s.rt.pub .cancelled 0 0) liveStates with
    ⟨hw, hb⟩ | ⟨hw, hb, ha⟩ | ⟨hw, hb, ha⟩
  · rw [hw]
    refine ⟨_, ?_, .checked true hpc⟩
    rfl
  · rw [hw]
    refine ⟨_, ?_, .tripped hpc hb ha⟩
    rfl
  · rw [hw]
    refine ⟨_, ?_, .checked true hpc⟩
    rfl

end

@[simp] theorem latchFault_unlatched (x : Shared) (code : FaultCode) (text : String) (gen : ℕ) :
    (x.latchFault code text gen).unlatched = x.unlatched := by
  unfold Shared.latchFault
  split <;> rfl

/-- the servo decision writes nothing shared but the latch -/
theorem actuate_unlatched (cfg : ServerConfig) (r : RtLoop) (sh : Shared) (fresh : Bool)
    (env : RtEnv) : (r.actuate cfg sh fresh env).2.unlatched = sh.unlatched := by
  unfold RtLoop.actuate
  by_cases ha : r.pub.armed = false
  · rw [if_pos ha]
  rw [if_neg ha]
  simp only [apply_ite Prod.snd, apply_ite Shared.unlatched, latchFault_unlatched, ite_self]

theorem servo_groupPart (cfg : ServerConfig) (r : RtLoop) (sh : Shared) (session : ℕ) (env : RtEnv) :
    (r.servo cfg sh session env).1.groupPart = { r with pc := .front }.groupPart ∧
      (r.servo cfg sh session env).2.unlatched = sh.unlatched := by
  unfold RtLoop.servo
  dsimp only
  refine ⟨?_, actuate_unlatched _ _ _ _ _⟩
  obtain ⟨k, t, h, -⟩ := RtLoop.actuate_frame cfg
    ((r.observeCommand cfg).retireExpired cfg (r.referenceGap cfg)).armEdge sh
    (((r.observeCommand cfg).retireExpired cfg (r.referenceGap cfg)).fresh cfg session) env
  rw [h]
  obtain ⟨g, k', h'⟩ := RtLoop.armEdge_frame
    ((r.observeCommand cfg).retireExpired cfg (r.referenceGap cfg))
  rw [h']
  unfold RtLoop.retireExpired
  split_ifs <;> rfl

/-- **Every step of the servo thread is one of the moves.** -/
theorem servo_ticks (cfg : ServerConfig) (s : Server) (env : RtEnv) {x : RtLoop × Shared}
    (hx : s.rt.step cfg s.sh s.pub env = x) : Ticks cfg s env { s with rt := x.1, sh := x.2 } := by
  unfold RtLoop.step at hx
  split at hx
  · rename_i hpc
    exact front_ticks cfg s env hpc hx
  · rename_i hpc
    rw [← hx]
    exact doneWrite_ticks cfg s env hpc rfl
  · rename_i hpc
    rw [← hx]
    exact faultMirror_ticks cfg s env hpc rfl
  · rename_i hpc
    rw [← hx]
    exact peerCheck_ticks cfg s env hpc rfl
  · rename_i hpc
    obtain ⟨h1, h2⟩ := servo_groupPart cfg s.rt s.sh s.pub.sessionId env
    rw [hx] at h1 h2
    refine ⟨_, ?_, .servo hpc⟩
    show { s.core with
        rt := x.1.groupPart
        sh := { x.2.unlatched with heartbeatNs := 0, groupEvent := 0, cmdIn := default } } = _
    rw [h1, h2]
    rfl

end Server

end ArmControl.Rt
