import Mathlib.Order.Bounds.Basic
import ArmControl.Rt.UdpLink

/-!
# Command authority is scoped to one session and one generation

Whatever the interleaving of the datagram handler with ARM, DISARM, reconnects and ticks:

* `Bound`       what a handler knows of a command after its checks: the packet names the session
                and the epoch it was checked against, and the session whose claim was read is not
                older than the one the packet names;
* `Base`        the servo's deadline base is the newest of the generation's start and the ingress
                stamps it has observed for it;
* `authority_scoped`   the run theorem.
-/

namespace ArmControl.Rt
namespace UdpLink
open Run

section
variable (ids : SessionIds)

/-- the session `session` was drawn no later than `claimed`, and both have been drawn -/
def Drawn (opened session claimed : ℕ) : Prop :=
  ∃ j k, j ≤ k ∧ k < opened ∧ session = ids.id j ∧ claimed = ids.id k

/-- the packet, the session it was admitted under, the session whose claim was read, and the
generation its epoch was checked against -/
def Bound (opened : ℕ) (p : CommandPacket) (session claimed gen : ℕ) : Prop :=
  p.sessionId = session ∧ p.armEpoch = low32 gen ∧ Drawn ids opened session claimed

def Admission.Ok (opened : ℕ) (a : Admission) : Prop :=
  Bound ids opened a.envelope.packet a.envelope.sessionId a.claimedSession a.envelope.armGen

/-- what the handler has established at its position -/
def PcOk (s : St) : RxPc → Prop
  | .loadClaim i session => i.packet.sessionId = session ∧ ∃ j < s.opened, session = ids.id j
  | .loadArmed i session claimed | .loadIp i session claimed | .loadGen i session claimed =>
    i.packet.sessionId = session ∧ Drawn ids s.opened session claimed
  | .loadOwner c | .pin c _ | .setPeer c | .publish c =>
    Bound ids s.opened c.ingress.packet c.session c.claimedSession c.gen
  | _ => True

structure Inv (s : St) : Prop where
  session : s.sessionId = 0 ∨ ∃ j, j + 1 = s.opened ∧ s.sessionId = ids.id j
  claim : s.claimOk = true → s.sessionId ≠ 0
  pc : PcOk ids s s.pc
  admitted : ∀ a ∈ s.admitted, a.Ok ids s.opened
  mailbox : s.cmdIn.version ≠ 0 → ∃ a ∈ s.admitted, a.envelope = s.cmdIn.value
  held : s.authority.have_ = true → ∃ a ∈ s.admitted, a.envelope = s.authority.current
  start : s.armStart.gen = s.armGen

end

section
variable {ids : SessionIds} {s : St}

theorem Drawn.mono {m n session claimed : ℕ} (h : Drawn ids m session claimed) (hmn : m ≤ n) :
    Drawn ids n session claimed := by
  obtain ⟨j, k, hjk, hk, hs, hc⟩ := h
  exact ⟨j, k, hjk, lt_of_lt_of_le hk hmn, hs, hc⟩

/-- if the packet's session is the newest one, it is the one that was claimed -/
theorem Drawn.newest {opened session claimed j : ℕ} (h : Drawn ids opened session claimed)
    (hj : j + 1 = opened) (hs : session = ids.id j) : claimed = session := by
  obtain ⟨i, k, hik, hk, hi, hc⟩ := h
  have e : i = j := ids.injective (hi.symm.trans hs)
  have e' : k = j := by omega
  rw [hc, hs, e']

theorem Bound.mono {m n : ℕ} {p : CommandPacket} {session claimed gen : ℕ}
    (h : Bound ids m p session claimed gen) (hmn : m ≤ n) : Bound ids n p session claimed gen :=
  ⟨h.1, h.2.1, h.2.2.mono hmn⟩

theorem PcOk.mono {s s' : St} (h : s.opened ≤ s'.opened) {p : RxPc} (hp : PcOk ids s p) :
    PcOk ids s' p := by
  cases p with
  | loadClaim i session =>
    obtain ⟨h1, j, hj, h2⟩ := hp
    exact ⟨h1, j, lt_of_lt_of_le hj h, h2⟩
  | loadArmed i session claimed => exact ⟨hp.1, hp.2.mono h⟩
  | loadIp i session claimed => exact ⟨hp.1, hp.2.mono h⟩
  | loadGen i session claimed => exact ⟨hp.1, hp.2.mono h⟩
  | loadOwner c => exact Bound.mono hp h
  | pin c owner => exact Bound.mono hp h
  | setPeer c => exact Bound.mono hp h
  | publish c => exact Bound.mono hp h
  | _ => trivial

/-- a step of the handler that publishes nothing -/
theorem Inv.move (h : Inv ids s) {s' : St} (h1 : s'.sessionId = s.sessionId)
    (h2 : s'.opened = s.opened) (h3 : s'.claimOk = s.claimOk) (h4 : s'.admitted = s.admitted)
    (h5 : s'.cmdIn = s.cmdIn) (h6 : s'.authority = s.authority)
    (h7 : s'.armStart.gen = s'.armGen) (hpc : PcOk ids s s'.pc) : Inv ids s' where
  session := by rw [h1, h2]; exact h.session
  claim := by rw [h1, h3]; exact h.claim
  pc := hpc.mono h2.ge
  admitted := by rw [h4, h2]; exact h.admitted
  mailbox := by rw [h4, h5]; exact h.mailbox
  held := by rw [h4, h6]; exact h.held
  start := h7

theorem inv_receive (cfg : Config) (h : Inv ids s) (d : Datagram) (src : Addr) (rxNs : ℕ) :
    Inv ids (receive cfg s d src rxNs) := by
  unfold receive
  split
  · exact h.move rfl rfl rfl rfl rfl rfl h.start trivial
  · split_ifs
    · exact h.move rfl rfl rfl rfl rfl rfl h.start trivial
    · exact h
  · exact h

theorem teach_eq (s : St) (src : Addr) (gen : ℕ) :
    teach s src gen = { s with peer := (teach s src gen).peer, peerGen := (teach s src gen).peerGen } := by
  unfold teach
  split_ifs <;> rfl

theorem inv_rxStep (cfg : Config) (h : Inv ids s) : Inv ids (rxStep cfg s) := by
  have hpc := h.pc
  unfold rxStep
  cases hp : s.pc with
  | idle => exact h
  | loadNegotiatedSession r src rxNs => exact h.move rfl rfl rfl rfl rfl rfl h.start trivial
  | loadReferenceSession r src rxNs session =>
    simp only
    split_ifs <;> exact h.move rfl rfl rfl rfl rfl rfl h.start trivial
  | loadN i =>
    simp only
    split_ifs <;> exact h.move rfl rfl rfl rfl rfl rfl h.start trivial
  | loadSession i =>
    simp only
    split_ifs with hs
    · exact h.move rfl rfl rfl rfl rfl rfl h.start trivial
    · rw [not_or, not_not] at hs
      refine h.move rfl rfl rfl rfl rfl rfl h.start ⟨hs.2, ?_⟩
      rcases h.session with h0 | ⟨j, hj, he⟩
      · exact absurd h0 hs.1
      · exact ⟨j, by omega, he⟩
  | loadClaim i session =>
    rw [hp] at hpc
    obtain ⟨hi, j, hj, he⟩ := hpc
    simp only
    split_ifs with hc
    · -- the session whose claim is read is the newest, hence not older than the packet's
      refine h.move rfl rfl rfl rfl rfl rfl h.start ⟨hi, ?_⟩
      rcases h.session with h0 | ⟨k, hk, hse⟩
      · exact absurd h0 (h.claim hc)
      · exact ⟨j, k, by omega, by omega, he, hse⟩
    · exact h.move rfl rfl rfl rfl rfl rfl h.start trivial
  | loadArmed i session claimed =>
    rw [hp] at hpc
    refine h.move rfl rfl rfl rfl rfl rfl h.start ?_
    cases s.armed
    · trivial
    · exact hpc
  | teachGen i => exact h.move rfl rfl rfl rfl rfl rfl h.start trivial
  | teachIp i gen =>
    refine h.move rfl rfl rfl rfl rfl rfl h.start ?_
    dsimp only
    split_ifs <;> trivial
  | teachPeer i gen =>
    simp only
    rw [teach_eq]
    exact h.move rfl rfl rfl rfl rfl rfl h.start trivial
  | loadIp i session claimed =>
    rw [hp] at hpc
    refine h.move rfl rfl rfl rfl rfl rfl h.start ?_
    dsimp only
    split_ifs
    · trivial
    · exact hpc
  | loadGen i session claimed =>
    rw [hp] at hpc
    refine h.move rfl rfl rfl rfl rfl rfl h.start ?_
    dsimp only
    split_ifs with hg
    · trivial
    · exact ⟨hpc.1, not_not.mp hg, hpc.2⟩
  | loadOwner c =>
    rw [hp] at hpc
    simp only
    split_ifs
    · exact h.move rfl rfl rfl rfl rfl rfl h.start trivial
    · exact h.move rfl rfl rfl rfl rfl rfl h.start trivial
    · exact h.move rfl rfl rfl rfl rfl rfl h.start hpc
    · exact h.move rfl rfl rfl rfl rfl rfl h.start hpc
  | pin c owner =>
    rw [hp] at hpc
    simp only
    split_ifs
    · exact h.move rfl rfl rfl rfl rfl rfl h.start trivial
    · exact h.move rfl rfl rfl rfl rfl rfl h.start hpc
  | setPeer c =>
    rw [hp] at hpc
    simp only
    rw [teach_eq]
    exact h.move rfl rfl rfl rfl rfl rfl h.start hpc
  | publish c =>
    rw [hp] at hpc
    refine ⟨h.session, h.claim, trivial, fun a ha => ?_, fun _ => ?_, fun hv => ?_, h.start⟩
    · rcases List.mem_append.mp ha with ha | ha
      · exact h.admitted a ha
      · rw [List.mem_singleton] at ha
        subst ha
        exact hpc
    · exact ⟨_, List.mem_append_right _ List.mem_cons_self, rfl⟩
    · obtain ⟨a, ha, he⟩ := h.held hv
      exact ⟨a, List.mem_append_left _ ha, he⟩

/-! ## the control thread and the tick -/

theorem inv_tick (cfg : Config) (h : Inv ids s) (now : ℕ) (accept : Bool) :
    Inv ids (tick cfg s now accept) := by
  refine ⟨h.session, h.claim, h.pc.mono le_rfl, h.admitted, h.mailbox, ?_, h.start⟩
  intro hv
  dsimp only [tick] at hv ⊢
  rcases CommandAuthority.observe_cases s.authority s.armGen s.armStart
      (if accept = true then s.cmdIn.version else 0) s.cmdIn.value with ⟨hver, -, -, e⟩ | ⟨-, e⟩
  · rw [e]
    refine h.mailbox ?_
    intro h0
    rw [h0, ite_self] at hver
    exact hver rfl
  · rw [e, CommandAuthority.scoped_have] at hv
    rw [e, CommandAuthority.scoped_current]
    exact h.held (Bool.and_eq_true_iff.mp hv).1

theorem inv_step (cfg : Config) (h : Inv ids s) (e : Event) : Inv ids (step cfg ids s e) := by
  cases e with
  | receive d src rxNs => exact inv_receive cfg h d src rxNs
  | rx => exact inv_rxStep cfg h
  | backendUp => exact h.move rfl rfl rfl rfl rfl rfl h.start h.pc
  | openSession ip =>
    simp only [step]
    split_ifs
    · exact h
    · exact ⟨.inr ⟨s.opened, rfl, rfl⟩, fun hc => (by cases hc), h.pc.mono (Nat.le_succ _),
        fun a ha => (h.admitted a ha).mono (Nat.le_succ _), h.mailbox, h.held, h.start⟩
  | claim =>
    simp only [step]
    split_ifs with h0
    · exact h
    · exact ⟨h.session, fun _ => h0, h.pc.mono le_rfl, h.admitted, h.mailbox, h.held, h.start⟩
  | referenceMode => exact h.move rfl rfl rfl rfl rfl rfl h.start h.pc
  | closeSession =>
    exact ⟨.inl rfl, fun hc => (by cases hc), h.pc.mono le_rfl, h.admitted, h.mailbox, h.held,
      h.start⟩
  | arm now =>
    simp only [step]
    split_ifs
    · exact h.move rfl rfl rfl rfl rfl rfl rfl h.pc
    · exact h
  | disarm => exact h.move rfl rfl rfl rfl rfl rfl h.start h.pc
  | tick now accept => exact inv_tick cfg h now accept

theorem inv_init : Inv ids {} :=
  ⟨.inl rfl, fun h => (by cases h), trivial, fun _ h => (by cases h), fun h => absurd rfl h,
    fun h => (by cases h), rfl⟩

/-! ## the deadline base -/

/-- the authority's command is the newest observation of its generation -/
structure Base (s : St) : Prop where
  gens : ∀ o ∈ s.observed, o.1 ≤ s.authority.gen
  gen : s.authority.gen ≤ s.armGen
  own : s.authority.have_ = true → s.authority.current.armGen = s.authority.gen
  newest : s.authority.have_ = true → (s.authority.gen, s.authority.current.rxNs) ∈ s.observed ∧
    ∀ r, (s.authority.gen, r) ∈ s.observed → r ≤ s.authority.current.rxNs
  none : s.authority.have_ = false → ∀ r, (s.authority.gen, r) ∉ s.observed

theorem Base.keep (h : Base s) {s' : St} (h1 : s'.observed = s.observed)
    (h2 : s'.authority = s.authority) (h3 : s.armGen ≤ s'.armGen) : Base s' := by
  refine ⟨?_, ?_, ?_, ?_, ?_⟩ <;> rw [h2]
  · rw [h1]
    exact h.gens
  · exact h.gen.trans h3
  · exact h.own
  · rw [h1]
    exact h.newest
  · rw [h1]
    exact h.none

theorem base_rxStep (cfg : Config) (h : Base s) : Base (rxStep cfg s) := by
  have e : (rxStep cfg s).observed = s.observed ∧ (rxStep cfg s).authority = s.authority ∧
      (rxStep cfg s).armGen = s.armGen := by
    unfold rxStep
    cases s.pc <;> dsimp only <;> try split_ifs
    all_goals first | exact ⟨rfl, rfl, rfl⟩ | (rw [teach_eq]; exact ⟨rfl, rfl, rfl⟩)
  exact h.keep e.1 e.2.1 e.2.2.ge

/-- the observations of the tick's own generation before the tick -/
theorem Base.current (h : Base s) (r : ℕ) (hr : (s.armGen, r) ∈ s.observed) :
    s.authority.gen = s.armGen ∧ s.authority.have_ = true ∧ r ≤ s.authority.current.rxNs := by
  have e : s.authority.gen = s.armGen := le_antisymm h.gen (h.gens _ hr)
  rw [← e] at hr
  cases hv : s.authority.have_ with
  | false => exact absurd hr (h.none hv r)
  | true => exact ⟨e, rfl, (h.newest hv).2 r hr⟩

theorem base_tick (cfg : Config) (h : Base s) (now : ℕ) (accept : Bool) :
    Base (tick cfg s now accept) := by
  have hle : ∀ o ∈ s.observed, o.1 ≤ s.armGen := fun o ho => (h.gens o ho).trans h.gen
  set version := if accept = true then s.cmdIn.version else 0 with hver
  have hobs : (tick cfg s now accept).observed =
      if version ≠ 0 ∧ s.cmdIn.value.armGen = s.armGen then
        s.observed ++ [(s.armGen, s.cmdIn.value.rxNs)] else s.observed := rfl
  have hauth : (tick cfg s now accept).authority =
      s.authority.observe s.armGen s.armStart version s.cmdIn.value := rfl
  have hgen : (tick cfg s now accept).authority.gen = s.armGen := by
    rw [hauth, CommandAuthority.observe_gen]
  have hmem : ∀ r, (s.armGen, r) ∈ (tick cfg s now accept).observed ↔
      (s.armGen, r) ∈ s.observed ∨
        (version ≠ 0 ∧ s.cmdIn.value.armGen = s.armGen ∧ r = s.cmdIn.value.rxNs) := by
    intro r
    rw [hobs]
    split_ifs with hc
    · simp [hc]
    · constructor
      · exact .inl
      · rintro (hr | ⟨h1, h2, -⟩)
        · exact hr
        · exact absurd ⟨h1, h2⟩ hc
  refine ⟨?_, hgen.le, ?_, ?_, ?_⟩
  · rw [hgen, hobs]
    intro o ho
    split_ifs at ho
    · rcases List.mem_append.mp ho with ho | ho
      · exact hle o ho
      · rw [List.mem_singleton] at ho
        rw [ho]
    · exact hle o ho
  · rw [hgen]
    intro hv
    rcases CommandAuthority.observe_cases s.authority s.armGen s.armStart version s.cmdIn.value
      with ⟨-, h2, -, e⟩ | ⟨-, e⟩
    · rw [hauth, e]
      exact h2
    · rw [hauth, e, CommandAuthority.scoped_have, Bool.and_eq_true_iff, beq_iff_eq] at hv
      rw [hauth, e, CommandAuthority.scoped_current, h.own hv.1, hv.2]
  · rw [hgen]
    intro hv
    simp only [hmem]
    rcases CommandAuthority.observe_cases s.authority s.armGen s.armStart version s.cmdIn.value
      with ⟨h1, h2, h3, e⟩ | ⟨h1, e⟩
    · rw [hauth, e]
      refine ⟨.inr ⟨h1, h2, rfl⟩, fun r hr => ?_⟩
      rcases hr with hr | ⟨-, -, rfl⟩
      · obtain ⟨hg, hh, hle⟩ := h.current r hr
        exact hle.trans (h3 hh hg)
      · exact le_rfl
    · rw [hauth, e, CommandAuthority.scoped_have, Bool.and_eq_true_iff, beq_iff_eq] at hv
      obtain ⟨hn1, hn2⟩ := h.newest hv.1
      rw [hv.2] at hn1 hn2
      rw [hauth, e, CommandAuthority.scoped_current]
      refine ⟨.inl hn1, fun r hr => ?_⟩
      rcases hr with hr | ⟨h2, h3, rfl⟩
      · exact hn2 r hr
      · exact (h1 h2 h3).2.2.le
  · rw [hgen]
    intro hv r
    rw [hmem]
    rcases CommandAuthority.observe_cases s.authority s.armGen s.armStart version s.cmdIn.value
      with ⟨-, -, -, e⟩ | ⟨h1, e⟩
    · rw [hauth, e] at hv
      cases hv
    · rw [hauth, e, CommandAuthority.scoped_have] at hv
      rintro (hr | ⟨h2, h3, -⟩)
      · obtain ⟨hg, hh, -⟩ := h.current r hr
        simp [hg, hh] at hv
      · obtain ⟨hh, hg, -⟩ := h1 h2 h3
        simp [hg, hh] at hv

theorem base_step (cfg : Config) (ids : SessionIds) (h : Base s) (e : Event) : Base (step cfg ids s e) := by
  cases e with
  | receive d src rxNs =>
    simp only [step, receive]
    split
    · exact h.keep rfl rfl le_rfl
    · split_ifs
      · exact h.keep rfl rfl le_rfl
      · exact h
    · exact h
  | rx => exact base_rxStep cfg h
  | openSession ip =>
    simp only [step]
    split_ifs
    · exact h
    · exact h.keep rfl rfl le_rfl
  | claim =>
    simp only [step]
    split_ifs
    · exact h
    · exact h.keep rfl rfl le_rfl
  | arm now =>
    simp only [step]
    split_ifs
    · exact h.keep rfl rfl (Nat.le_succ _)
    · exact h
  | tick now accept => exact base_tick cfg h now accept
  | backendUp | referenceMode | closeSession | disarm => exact h.keep rfl rfl le_rfl

theorem base_init : Base {} :=
  ⟨fun _ h => (by cases h), le_rfl, fun h => (by cases h), fun h => (by cases h),
    fun _ _ h => (by cases h)⟩

end

/-- the property of a tick from a reachable state -/
structure Scoped (cfg : Config) (s : St) (now : ℕ) (accept : Bool) : Prop where
  /-- a tracked command was admitted for the session that is current and was claimed, for this
  generation and this plant, and is not older than the hold time -/
  tracked : (tick cfg s now accept).tracked = true →
    ∃ a ∈ s.admitted, a.envelope = (tick cfg s now accept).authority.current ∧
      a.envelope.packet.sessionId = s.sessionId ∧ a.claimedSession = s.sessionId ∧
      a.envelope.packet.armEpoch = low32 s.armGen ∧ a.envelope.packet.n = cfg.backendN ∧
      clampedAgeNs now a.envelope.rxNs ≤ cfg.holdNs
  /-- a late publication of another generation is not observed: the tick ends as if the mailbox
  were empty -/
  retired : s.cmdIn.value.armGen ≠ s.armGen → (tick cfg s now accept).authority =
    s.authority.observe s.armGen s.armStart 0 s.cmdIn.value
  own : (tick cfg s now accept).authority.have_ = true →
    (tick cfg s now accept).authority.current.armGen = s.armGen
  /-- the deadline base is the newest of the generation's start and its observed ingress stamps -/
  base : s.armStart.gen = s.armGen ∧ IsGreatest
    { t | t = s.armStart.tNs ∨ (s.armGen, t) ∈ (tick cfg s now accept).observed }
    (tick cfg s now accept).authority.deadmanBase

/-- the base of an authority that has started its generation -/
theorem deadmanBase_isGreatest {s : St} (h : Base s) {start : ℕ}
    (hs : s.authority.armStartNs = start) :
    IsGreatest { t | t = start ∨ (s.authority.gen, t) ∈ s.observed }
      s.authority.deadmanBase := by
  subst hs
  unfold CommandAuthority.deadmanBase
  cases hv : s.authority.have_ with
  | false =>
    simp only [Bool.false_eq_true, if_false, Nat.not_lt_zero]
    refine ⟨.inl rfl, ?_⟩
    rintro t (rfl | ht)
    · exact le_rfl
    · exact absurd ht (h.none hv t)
  | true =>
    obtain ⟨hmem, hmax⟩ := h.newest hv
    simp only [if_true]
    split_ifs with hlt
    · refine ⟨.inr hmem, ?_⟩
      rintro t (rfl | ht)
      · exact hlt.le
      · exact hmax t ht
    · refine ⟨.inl rfl, ?_⟩
      rintro t (rfl | ht)
      · exact le_rfl
      · exact (hmax t ht).trans (not_lt.mp hlt)

/-- **Authority scoping.**  From every state any interleaving reaches, a tick tracks only commands
of the current session and generation, and nothing of another generation moves its deadline. -/
theorem authority_scoped (cfg : Config) (ids : SessionIds) (es : List Event) (now : ℕ)
    (accept : Bool) : Scoped cfg (run (step cfg ids) {} es) now accept := by
  have hinv : Inv ids (run (step cfg ids) {} es) :=
    invariant (C := fun _ _ => True) inv_init (fun _ e _ h => inv_step cfg h e)
      (along_of_forall (fun _ _ => trivial) es)
  have hbase : Base (run (step cfg ids) {} es) :=
    invariant (C := fun _ _ => True) base_init (fun _ e _ h => base_step cfg ids h e)
      (along_of_forall (fun _ _ => trivial) es)
  generalize run (step cfg ids) {} es = s at hinv hbase
  have hinv' := inv_tick cfg hinv now accept
  have hbase' := base_tick cfg hbase now accept
  have hgen : (tick cfg s now accept).authority.gen = s.armGen := CommandAuthority.observe_gen ..
  refine ⟨fun ht => ?_, fun hr => CommandAuthority.observe_foreign _ _ _ _ _ hr,
    fun hv => (hbase'.own hv).trans hgen, hinv.start, ?_⟩
  · have hf : (tick cfg s now accept).authority.fresh s.sessionId cfg.backendN now cfg.holdNs =
        true := ht
    simp only [CommandAuthority.fresh, Bool.and_eq_true, bne_iff_ne, beq_iff_eq,
      decide_eq_true_eq] at hf
    obtain ⟨⟨⟨⟨hv, h0⟩, hsess⟩, hn⟩, hage⟩ := hf
    obtain ⟨a, ha, he⟩ := hinv'.held hv
    obtain ⟨hp, hepoch, hdrawn⟩ := hinv.admitted a ha
    obtain ⟨j, hj, hcur⟩ := hinv.session.resolve_left h0
    have hsa : a.envelope.sessionId = s.sessionId := by rw [he, hsess]
    have hgena : a.envelope.armGen = s.armGen := by rw [he, hbase'.own hv, hgen]
    refine ⟨a, ha, he, hp.trans hsa, ?_, hgena ▸ hepoch, ?_, he ▸ hage⟩
    · rw [hdrawn.newest hj (hsa.trans hcur), hsa]
    · have hsmall : cfg.backendN < 2^16 := lt_of_le_of_lt cfg.joints (by decide)
      rw [he, hn, Nat.mod_eq_of_lt hsmall]
  · have hstart : (tick cfg s now accept).authority.armStartNs = s.armStart.tNs := by
      have e := CommandAuthority.observe_cases s.authority s.armGen s.armStart
        (if accept = true then s.cmdIn.version else 0) s.cmdIn.value
      show (s.authority.observe _ _ _ _).armStartNs = _
      rcases e with ⟨-, -, -, e⟩ | ⟨-, e⟩ <;>
      · rw [e]
        exact CommandAuthority.scoped_start _ _ _ hinv.start
    have hg := deadmanBase_isGreatest hbase' hstart
    rwa [hgen] at hg

/-- one joint, and a command that names session 1 and epoch 1 -/
example :
    let cfg : Config := ⟨1, 1, by decide, 100000000, false, false⟩
    let wire : CommandWire := ⟨true, { n := 1, seq := 7, armEpoch := 1, sessionId := 1 },
      fun _ => .zero, fun _ => .zero, fun _ => .zero, fun _ => .zero, fun _ => .zero, false⟩
    (tick cfg (run (step cfg default) {} ([.backendUp, .openSession 9, .claim, .arm 10,
      .receive (.command wire) ⟨9, 5000⟩ 20] ++ List.replicate 10 .rx)) 30 true).tracked = true := by
  decide +kernel

end UdpLink

end ArmControl.Rt
