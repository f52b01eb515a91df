import ArmControl.Rt.CommandFlow

/-!
# The command flow of a generation

The pin and the sequence memory, over every run in which no DISARM lands between the handler's load of `armed` and its pin.

* `Flowing`            the invariant: the commands published so far and the one on its way, the pin, the memory, and where `begin_arm`
                       stands;
* `rx_flowing`, `armGo_flowing`   the handler's and the control thread's steps keep it;
* `command_flow`       **a rejected datagram has no effect, and the commands of one generation are one flow;**
* `retired_handler_pins`   a DISARM, a reconnect and an ARM inside one call give a generation two hosts.
-/

namespace ArmControl.Rt
namespace FlowPin
open Run History UdpLink

/-- the command that the handler is about to pin or publish -/
def pending (link : St) (c : Call) : List Command :=
  match link.pc with
  | .pin k _ | .setPeer k | .publish k => [command k c.client]
  | _ => []

/-- the one that is past its pin -/
def pinnedOn (link : St) (c : Call) : List Command :=
  match link.pc with
  | .setPeer k | .publish k => [command k c.client]
  | _ => []

/-- the source of the datagram in progress -/
def source : RxPc → Option Addr
  | .idle => none
  | .loadNegotiatedSession _ src _ | .loadReferenceSession _ src _ _ => some src
  | .loadN i | .loadSession i | .loadClaim i _ | .loadArmed i _ _ | .teachGen i | .teachIp i _ | .teachPeer i _ | .loadIp i _ _
  | .loadGen i _ _ => some i.src
  | .loadOwner k | .pin k _ | .setPeer k | .publish k => some k.ingress.src

/-- the sequence memory is of this command -/
def Matches (f : CommandFlow) (a : Command) : Prop :=
  f.haveSeq = true ∧ f.seqGen = a.gen ∧ f.seqIp = a.src.ip ∧ f.seqPort = a.src.port ∧ f.lastSeq = a.seq

/-- what the checks have established of the address and the generation -/
def Checks (link : St) (c : Call) : Prop :=
  match link.pc with
  | .loadGen i _ _ => i.src.ip = link.ctlPeerIp ∧ c.client = true
  | .loadOwner k => k.ingress.src.ip = link.ctlPeerIp ∧ c.client = true ∧ k.gen = link.armGen
  | _ => True

/-- the memory is of the last command, but while the handler replaces it -/
def Remembers (link : St) (commands : List Command) : Prop :=
  match link.pc with
  | .pin _ _ | .setPeer _ => True
  | .publish k => Matches link.flow (command k true)
  | _ => ∀ a, commands.getLast? = some a → Matches link.flow a

/-- the generation that `begin_arm` prepares is the next one, and nothing has been published under it when `armed` rises -/
def Prepares (arm : ArmPc) (armGen : ℕ) (entries : List Command) : Prop :=
  match arm with
  | .rest => True
  | .start gen | .clearOwner gen | .raisePeer gen | .bump gen => gen = armGen + 1
  | .raiseArmed => 0 < armGen ∧ ∀ a ∈ entries, a.gen < armGen

/-- `begin_arm` has cleared the pin of the generation that ends -/
def ArmPc.cleared : ArmPc → Bool
  | .raisePeer _ | .bump _ => true
  | _ => false

structure Flowing (s : Sys) : Prop where
  ports : ∀ a, source s.link.pc = some a → a.port < 2^16
  generation : s.link.armed = true → 0 < s.link.armGen
  prepares : Prepares s.arm s.link.armGen (s.commands ++ pending s.link s.call)
  client : s.link.ctlPeerIp ≠ 0 ∨ (s.link.sessionId = 0 ∧ s.link.claimOk = false ∧ s.link.armed = false ∧ s.arm = .rest)
  checks : Checks s.link s.call
  flows : Justified Continues (s.commands ++ pending s.link s.call)
  sorted : (s.commands ++ pending s.link s.call).Pairwise fun a b => a.gen ≤ b.gen
  bound : ∀ a ∈ s.commands ++ pending s.link s.call, a.gen ≤ s.link.armGen
  host : s.link.armed = true → ∀ a ∈ s.commands ++ pending s.link s.call, a.gen = s.link.armGen → a.src.ip = s.link.ctlPeerIp
  pin : s.arm.cleared = false → ∀ a ∈ s.commands ++ pinnedOn s.link s.call, a.gen = s.link.armGen →
    a.src.port < 2^16 ∧ s.link.cmdOwner = flowPin a.gen a.src.port
  memory : Remembers s.link s.commands

variable {cfg : Config} {ids : SessionIds} {s : Sys} {link : St} {c : Call}

theorem flowing_init : Flowing {} where
  ports := fun _ h => by cases h
  generation := fun h => Bool.noConfusion h
  prepares := trivial
  client := .inr ⟨rfl, rfl, rfl, rfl⟩
  checks := trivial
  flows := justified_nil
  sorted := List.Pairwise.nil
  bound := fun _ h => absurd h List.not_mem_nil
  host := fun h => Bool.noConfusion h
  pin := fun _ _ h => absurd h List.not_mem_nil
  memory := fun _ h => by cases h

theorem mem_pending {a : Command} (h : a ∈ pinnedOn link c) : a ∈ pending link c := by
  unfold pinnedOn at h
  unfold pending
  cases hp : link.pc <;> rw [hp] at h <;> first | exact h | exact absurd h List.not_mem_nil

/-! ## the other threads -/

/-- another thread, which leaves the handler, the pin and the generation alone, and the client's address too while the arm is armed -/
theorem Flowing.aside (h : Flowing s) (hf : Framed s) (hpc : link.pc = s.link.pc) (hflow : link.flow = s.link.flow)
    (howner : link.cmdOwner = s.link.cmdOwner) (hgen : link.armGen = s.link.armGen)
    (harmed : link.armed = s.link.armed) (hhost : s.link.armed = true → link.ctlPeerIp = s.link.ctlPeerIp)
    (hclient : link.ctlPeerIp ≠ 0 ∨ (link.sessionId = 0 ∧ link.claimOk = false ∧ link.armed = false ∧ s.arm = .rest)) :
    Flowing { s with link := link } := by
  have hpending : pending link s.call = pending s.link s.call := by
    unfold pending
    rw [hpc]
  have hpinned : pinnedOn link s.call = pinnedOn s.link s.call := by
    unfold pinnedOn
    rw [hpc]
  refine ⟨?_, ?_, ?_, hclient, ?_, ?_, ?_, ?_, ?_, ?_, ?_⟩
  · show ∀ a, source link.pc = some a → _
    rw [hpc]
    exact h.ports
  · show link.armed = true → 0 < link.armGen
    rw [harmed, hgen]
    exact h.generation
  · show Prepares s.arm link.armGen (s.commands ++ pending link s.call)
    rw [hgen, hpending]
    exact h.prepares
  · have hchecks := h.checks
    have hfound := hf.found
    show Checks link s.call
    unfold Checks at hchecks ⊢
    unfold Found at hfound
    rw [hpc]
    cases hp : s.link.pc <;> rw [hp] at hchecks hfound
    case loadGen => exact ⟨hchecks.1.trans (hhost hfound.2).symm, hchecks.2⟩
    case loadOwner => exact ⟨hchecks.1.trans (hhost hfound.2).symm, hchecks.2.1, hchecks.2.2.trans hgen.symm⟩
    all_goals exact hchecks
  · show Justified Continues (s.commands ++ pending link s.call)
    rw [hpending]
    exact h.flows
  · show (s.commands ++ pending link s.call).Pairwise _
    rw [hpending]
    exact h.sorted
  · show ∀ a ∈ s.commands ++ pending link s.call, a.gen ≤ link.armGen
    rw [hpending, hgen]
    exact h.bound
  · show link.armed = true → ∀ a ∈ s.commands ++ pending link s.call, a.gen = link.armGen → a.src.ip = link.ctlPeerIp
    intro ha
    rw [hpending, hgen, hhost (harmed ▸ ha)]
    exact h.host (harmed ▸ ha)
  · show s.arm.cleared = false → ∀ a ∈ s.commands ++ pinnedOn link s.call, a.gen = link.armGen →
      a.src.port < 2^16 ∧ link.cmdOwner = flowPin a.gen a.src.port
    rw [hpinned, hgen, howner]
    exact h.pin
  · have hmemory := h.memory
    show Remembers link s.commands
    unfold Remembers at hmemory ⊢
    rw [hpc, hflow]
    exact hmemory

/-- `begin_arm` is reached with a claim only, and so with a client -/
theorem Flowing.known (h : Flowing s) (hclaim : s.link.claimOk = true) : s.link.ctlPeerIp ≠ 0 :=
  h.client.resolve_right fun hno => Bool.noConfusion (hno.2.1.symm.trans hclaim)

theorem Flowing.met (h : Flowing s) (harm : s.arm ≠ .rest) : s.link.ctlPeerIp ≠ 0 :=
  h.client.resolve_right fun hno => harm hno.2.2.2

theorem disarm_flowing (h : Flowing s) (hrest : s.arm = .rest) :
    Flowing { s with link := { s.link with armed := false } } := by
  refine ⟨h.ports, fun ha => Bool.noConfusion ha, h.prepares, ?_, ?_, h.flows, h.sorted, h.bound, fun ha => Bool.noConfusion ha,
    h.pin, h.memory⟩
  · exact h.client.imp_right fun hno => ⟨hno.1, hno.2.1, rfl, hrest⟩
  · exact h.checks

theorem beginArming_flowing (h : Flowing s) (hrest : s.arm = .rest) : Flowing (beginArming s) := by
  unfold beginArming
  split_ifs with hgo
  · exact ⟨h.ports, h.generation, rfl, .inl (h.known hgo.1), h.checks, h.flows, h.sorted, h.bound, h.host, fun _ => h.pin (by rw [hrest]; rfl), h.memory⟩
  · exact h

/-- **One store of `begin_arm`.** -/
theorem armGo_flowing (h : Flowing s) (hf : Framed s) (now : ℕ) : Flowing (armGo s now) := by
  have hdisarmed : s.arm ≠ .rest → s.link.armed = false := fun hne =>
    Bool.eq_false_iff.mpr fun ha => hne (hf.rest ha)
  have hprepares := h.prepares
  unfold armGo
  cases harm : s.arm with
  | rest => exact h
  | start gen =>
    rw [harm] at hprepares
    exact ⟨h.ports, h.generation, hprepares, .inl (h.met (by rw [harm]; exact ArmPc.noConfusion)), h.checks, h.flows, h.sorted, h.bound,
      h.host, fun _ => h.pin (by rw [harm]; rfl), h.memory⟩
  | clearOwner gen =>
    rw [harm] at hprepares
    exact ⟨h.ports, h.generation, hprepares, .inl (h.met (by rw [harm]; exact ArmPc.noConfusion)), h.checks, h.flows, h.sorted, h.bound,
      h.host, fun hc => Bool.noConfusion hc, h.memory⟩
  | raisePeer gen =>
    rw [harm] at hprepares
    exact ⟨h.ports, h.generation, hprepares, .inl (h.met (by rw [harm]; exact ArmPc.noConfusion)), h.checks, h.flows, h.sorted, h.bound,
      h.host, fun hc => Bool.noConfusion hc, h.memory⟩
  | bump gen =>
    rw [harm] at hprepares
    have ha : s.link.armed = false := hdisarmed (by rw [harm]; exact ArmPc.noConfusion)
    have hgen : gen = s.link.armGen + 1 := hprepares
    have hbelow : ∀ a ∈ s.commands ++ pending s.link s.call, a.gen < gen := fun a ha => by
      rw [hgen]
      exact Nat.lt_succ_of_le (h.bound a ha)
    have hnone : ∀ a ∈ s.commands ++ pinnedOn s.link s.call, a.gen ≠ gen := by
      intro a ha
      refine (hbelow a ?_).ne
      rcases List.mem_append.mp ha with ha | ha
      · exact List.mem_append_left _ ha
      · exact List.mem_append_right _ (mem_pending ha)
    refine ⟨h.ports, fun hb => Bool.noConfusion (ha.symm.trans hb), ⟨?_, hbelow⟩, .inl (h.met (by rw [harm]; exact ArmPc.noConfusion)), ?_,
      h.flows, h.sorted, fun a ha => (hbelow a ha).le, fun hb => Bool.noConfusion (ha.symm.trans hb), fun _ a ha he => absurd he (hnone a ha),
      h.memory⟩
    · show 0 < gen
      rw [hgen]
      exact Nat.succ_pos _
    · -- no handler is between its load of the generation and its pin: the server is disarmed
      have hchecks := h.checks
      have hfound := hf.found
      show Checks { s.link with armGen := gen } s.call
      unfold Checks at hchecks ⊢
      unfold Found at hfound
      cases hp : s.link.pc <;> rw [hp] at hchecks hfound
      case loadOwner => exact Bool.noConfusion (ha.symm.trans hfound.2)
      all_goals exact hchecks
  | raiseArmed =>
    rw [harm] at hprepares
    exact ⟨h.ports, fun _ => hprepares.1, trivial, .inl (h.met (by rw [harm]; exact ArmPc.noConfusion)), h.checks, h.flows, h.sorted, h.bound,
      fun _ a ha he => absurd he (hprepares.2 a ha).ne, fun _ => h.pin (by rw [harm]; rfl), h.memory⟩

/-! ## the handler -/

/-- the handler is before its pin, or at rest -/
def isQuiet : RxPc → Bool
  | .pin _ _ | .setPeer _ | .publish _ => false
  | _ => true

theorem pending_quiet (h : isQuiet link.pc = true) : pending link c = [] := by
  unfold pending
  cases hp : link.pc <;> rw [hp] at h <;> first | rfl | exact Bool.noConfusion h

theorem pinned_quiet (h : isQuiet link.pc = true) : pinnedOn link c = [] := by
  unfold pinnedOn
  cases hp : link.pc <;> rw [hp] at h <;> first | rfl | exact Bool.noConfusion h

theorem remembers_quiet {commands : List Command} (h : isQuiet link.pc = true) :
    Remembers link commands ↔ ∀ a, commands.getLast? = some a → Matches link.flow a := by
  unfold Remembers
  cases hp : link.pc <;> rw [hp] at h <;> first | rfl | exact Bool.noConfusion h

theorem publishing_quiet (h : isQuiet s.link.pc = true) : s.publishing = [] := by
  unfold Sys.publishing
  cases hp : s.link.pc with
  | publish k =>
    rw [hp] at h
    exact Bool.noConfusion h
  | _ => rfl

theorem quiet_of_idle {p : RxPc} (h : isIdle p = true) : isQuiet p = true := by
  cases p <;> first | rfl | exact Bool.noConfusion h

/-- the call goes on, or returns -/
theorem Flowing.handled (h : Flowing { s with link := link, call := c }) : Flowing (s.handled link c) := by
  unfold Sys.handled
  split_ifs with hidle
  · have hpending : pending link {} = pending link c := by
      rw [pending_quiet (quiet_of_idle hidle), pending_quiet (quiet_of_idle hidle)]
    have hpinned : pinnedOn link {} = pinnedOn link c := by
      rw [pinned_quiet (quiet_of_idle hidle), pinned_quiet (quiet_of_idle hidle)]
    have hentries : s.commands ++ pending link {} = s.commands ++ pending link c := congrArg _ hpending
    refine ⟨h.ports, h.generation, ?_, h.client, ?_, ?_, ?_, ?_, ?_, ?_, h.memory⟩
    · show Prepares s.arm link.armGen (s.commands ++ pending link {})
      rw [hentries]
      exact h.prepares
    · show Checks link {}
      unfold Checks
      cases hp : link.pc <;> rw [hp] at hidle <;> trivial
    · show Justified Continues (s.commands ++ pending link {})
      rw [hentries]
      exact h.flows
    · show (s.commands ++ pending link {}).Pairwise _
      rw [hentries]
      exact h.sorted
    · show ∀ a ∈ s.commands ++ pending link {}, _
      rw [hentries]
      exact h.bound
    · show link.armed = true → ∀ a ∈ s.commands ++ pending link {}, _
      rw [hentries]
      exact h.host
    · show s.arm.cleared = false → ∀ a ∈ s.commands ++ pinnedOn link {}, _
      rw [hpinned]
      exact h.pin
  · exact h

/-- what the invariant reads of the link -/
def Same (link link' : St) : Prop :=
  link'.flow = link.flow ∧ link'.cmdOwner = link.cmdOwner ∧ link'.armGen = link.armGen ∧ link'.armed = link.armed ∧
    link'.ctlPeerIp = link.ctlPeerIp ∧ link'.claimOk = link.claimOk ∧ link'.sessionId = link.sessionId

theorem teach_same (link : St) (src : Addr) (gen : ℕ) : Same link (teach link src gen) := by
  unfold teach
  split_ifs <;> exact ⟨rfl, rfl, rfl, rfl, rfl, rfl, rfl⟩

/-- from one quiet position to another -/
theorem Flowing.quiet (h : Flowing s) (hq : isQuiet s.link.pc = true) (hq' : isQuiet link.pc = true) (hsame : Same s.link link)
    (hports : ∀ a, source link.pc = some a → a.port < 2^16) (hchecks : Checks link c) :
    Flowing ({ s with commands := s.commands ++ s.publishing }.handled link c) := by
  obtain ⟨hflow, howner, hgen, harmed, hip, hclaim, hsession⟩ := hsame
  have hpending : pending link c = pending s.link s.call := by rw [pending_quiet hq, pending_quiet hq']
  have hpinned : pinnedOn link c = pinnedOn s.link s.call := by rw [pinned_quiet hq, pinned_quiet hq']
  rw [publishing_quiet hq, List.append_nil]
  refine Flowing.handled ⟨hports, ?_, ?_, ?_, hchecks, ?_, ?_, ?_, ?_, ?_, ?_⟩
  · show link.armed = true → 0 < link.armGen
    rw [harmed, hgen]
    exact h.generation
  · show Prepares s.arm link.armGen (s.commands ++ pending link c)
    rw [hgen, hpending]
    exact h.prepares
  · show link.ctlPeerIp ≠ 0 ∨ (link.sessionId = 0 ∧ link.claimOk = false ∧ link.armed = false ∧ s.arm = .rest)
    rw [hip, hclaim, harmed, hsession]
    exact h.client
  · show Justified Continues (s.commands ++ pending link c)
    rw [hpending]
    exact h.flows
  · show (s.commands ++ pending link c).Pairwise _
    rw [hpending]
    exact h.sorted
  · show ∀ a ∈ s.commands ++ pending link c, a.gen ≤ link.armGen
    rw [hpending, hgen]
    exact h.bound
  · show link.armed = true → ∀ a ∈ s.commands ++ pending link c, a.gen = link.armGen → a.src.ip = link.ctlPeerIp
    rw [hpending, hgen, hip, harmed]
    exact h.host
  · show s.arm.cleared = false → ∀ a ∈ s.commands ++ pinnedOn link c, a.gen = link.armGen →
      a.src.port < 2^16 ∧ link.cmdOwner = flowPin a.gen a.src.port
    rw [hpinned, hgen, howner]
    exact h.pin
  · have hmemory := (remembers_quiet hq).mp h.memory
    refine (remembers_quiet hq').mpr fun a ha => ?_
    rw [hflow]
    exact hmemory a ha

theorem owner_of_pin {gen port : ℕ} : flowPin gen port / 2^16 = gen ∧ flowPin gen port % 2^16 = port % 2^16 := by
  unfold flowPin
  omega

theorem addr_ext {a b : Addr} (hip : a.ip = b.ip) (hport : a.port = b.port) : a = b := by
  cases a
  cases b
  cases hip
  cases hport
  rfl

/-- **A command that is through its checks continues the flow of its generation.** -/
theorem continues_of_checks (h : Flowing s) (hf : Framed s) {k : Checked} (hpc : s.link.pc = .loadOwner k)
    (hport : ¬ ((s.link.cmdOwner != 0 && s.link.cmdOwner / 2^16 == k.gen) = true ∧ k.ingress.src.port ≠ s.link.cmdOwner % 2^16))
    (hseq : (s.link.flow.scope k.ingress k.gen).seqOk k.ingress = true) : Continues s.commands (command k s.call.client) := by
  have hchecks := h.checks
  have hfound := hf.found
  unfold Checks at hchecks
  unfold Found at hfound
  rw [hpc] at hchecks hfound
  obtain ⟨hip, hclient, hgen⟩ := hchecks
  have harmed : s.link.armed = true := hfound.2
  have hrest : s.arm.cleared = false := by rw [hf.rest harmed]; rfl
  have hquiet : isQuiet s.link.pc = true := by rw [hpc]; rfl
  have hbound : ∀ a ∈ s.commands, a.gen ≤ k.gen := fun a ha => hgen ▸ h.bound a (List.mem_append_left _ ha)
  -- the pin of this generation, once it is taken, is the source of all its commands
  have hsource : ∀ a ∈ s.commands, a.gen = k.gen → a.src = k.ingress.src := by
    intro a ha he
    obtain ⟨hlt, howner⟩ := h.pin hrest a (List.mem_append_left _ ha) (he.trans hgen)
    have hpos : 0 < a.gen := by
      rw [he, hgen]
      exact h.generation harmed
    obtain ⟨hdiv, hmod⟩ : flowPin a.gen a.src.port / 2^16 = a.gen ∧ flowPin a.gen a.src.port % 2^16 = a.src.port % 2^16 := owner_of_pin
    have hnonzero : s.link.cmdOwner ≠ 0 := by
      intro h0
      rw [← howner, h0] at hdiv
      exact hpos.ne hdiv
    have hpinned : (s.link.cmdOwner != 0 && s.link.cmdOwner / 2^16 == k.gen) = true := by
      rw [Bool.and_eq_true_iff, bne_iff_ne, beq_iff_eq]
      exact ⟨hnonzero, (congrArg (· / 2^16) howner).trans (hdiv.trans he)⟩
    have hsame : k.ingress.src.port = s.link.cmdOwner % 2^16 := by
      by_contra hne
      exact hport ⟨hpinned, hne⟩
    rw [howner, hmod, Nat.mod_eq_of_lt hlt] at hsame
    have hhost := h.host harmed a (List.mem_append_left _ ha) (he.trans hgen)
    exact addr_ext (hhost.trans hip.symm) hsame.symm
  refine ⟨hclient, hsource, fun p a q hsplit he hothers => ?_⟩
  have hmem : a ∈ s.commands := by
    rw [hsplit]
    exact List.mem_append_right _ List.mem_cons_self
  have hlast : q = [] := by
    refine List.eq_nil_iff_forall_not_mem.mpr fun o ho => hothers o ho (le_antisymm ?_ ?_)
    · refine hbound o ?_
      rw [hsplit]
      exact List.mem_append_right _ (List.mem_cons_of_mem _ ho)
    · have hsorted := (List.pairwise_append.mp h.sorted).1
      rw [hsplit] at hsorted
      rw [← he]
      exact List.rel_of_pairwise_cons (List.pairwise_append.mp hsorted).2.1 ho
  subst hlast
  obtain ⟨hhave, hseqGen, hseqIp, hseqPort, hlastSeq⟩ := (remembers_quiet hquiet).mp h.memory a (by rw [hsplit]; exact List.getLast?_concat)
  have hsrc := hsource a hmem he
  have hscope : s.link.flow.scope k.ingress k.gen = s.link.flow := by
    unfold CommandFlow.scope
    rw [if_neg]
    rintro (hne | hne | hne)
    · exact hne (hseqGen.trans he).symm
    · exact hne (by rw [hseqIp, hsrc])
    · exact hne (by rw [hseqPort, hsrc])
  rw [hscope] at hseq
  unfold CommandFlow.seqOk at hseq
  rw [hhave, hlastSeq, Bool.not_true, Bool.false_or, Bool.and_eq_true_iff, bne_iff_ne, decide_eq_true_eq] at hseq
  exact hseq

theorem mem_entries {commands : List Command} {k a : Command} {gen : ℕ} (hall : ∀ a ∈ commands, a.gen ≤ gen) (hk : k.gen ≤ gen)
    (ha : a ∈ commands ++ [k]) : a.gen ≤ gen := by
  rcases List.mem_append.mp ha with ha | ha
  · exact hall a ha
  · rw [List.mem_singleton.mp ha]
    exact hk

/-- the checks are passed: the command is on its way, past its pin already or before it -/
theorem Flowing.passed (h : Flowing s) (hf : Framed s) {k : Checked} (hpc : s.link.pc = .loadOwner k)
    (hcontinues : Continues s.commands (command k s.call.client)) {p : RxPc} {flow : CommandFlow}
    (hp : p = .pin k s.link.cmdOwner ∨ (p = .setPeer k ∧ s.link.cmdOwner = flowPin k.gen k.ingress.src.port))
    (hc : c.client = s.call.client) : Flowing { s with link := { s.link with flow := flow, pc := p }, call := c } := by
  have hchecks := h.checks
  have hfound := hf.found
  unfold Checks at hchecks
  unfold Found at hfound
  rw [hpc] at hchecks hfound
  obtain ⟨hip, hclient, hgen⟩ := hchecks
  have harmed : s.link.armed = true := hfound.2
  have hrest : s.arm = .rest := hf.rest harmed
  have hport : k.ingress.src.port < 2^16 := h.ports _ (by rw [hpc]; rfl)
  have hquiet : pending s.link s.call = [] := pending_quiet (by rw [hpc]; rfl)
  have hflows := h.flows
  have hsorted := h.sorted
  rw [hquiet, List.append_nil] at hflows hsorted
  have hbound : ∀ a ∈ s.commands, a.gen ≤ k.gen := fun a ha => hgen ▸ h.bound a (List.mem_append_left _ ha)
  have hpending : pending { s.link with flow := flow, pc := p } c = [command k s.call.client] := by
    rcases hp with rfl | ⟨rfl, -⟩ <;> exact congrArg (fun b => [command k b]) hc
  refine ⟨?_, h.generation, ?_, h.client, ?_, ?_, ?_, ?_, ?_, ?_, ?_⟩
  · rcases hp with rfl | ⟨rfl, -⟩ <;> exact fun a ha => Option.some.inj ha ▸ hport
  · show Prepares s.arm _ _
    rw [hrest]
    trivial
  · rcases hp with rfl | ⟨rfl, -⟩ <;> trivial
  · show Justified Continues (s.commands ++ pending { s.link with flow := flow, pc := p } c)
    rw [hpending]
    exact hflows.snoc hcontinues
  · show (s.commands ++ pending { s.link with flow := flow, pc := p } c).Pairwise _
    rw [hpending]
    refine List.pairwise_append.mpr ⟨hsorted, List.pairwise_singleton _ _, fun a ha b hb => ?_⟩
    rw [List.mem_singleton.mp hb]
    exact hbound a ha
  · show ∀ a ∈ s.commands ++ pending { s.link with flow := flow, pc := p } c, a.gen ≤ s.link.armGen
    rw [hpending, ← hgen]
    exact fun a ha => mem_entries hbound le_rfl ha
  · show s.link.armed = true → ∀ a ∈ s.commands ++ pending { s.link with flow := flow, pc := p } c, a.gen = s.link.armGen →
      a.src.ip = s.link.ctlPeerIp
    rw [hpending]
    intro _ a ha he
    rcases List.mem_append.mp ha with ha | ha
    · exact h.host harmed a (List.mem_append_left _ ha) he
    · rw [List.mem_singleton.mp ha]
      exact hip
  · intro hcleared a ha he
    rcases List.mem_append.mp ha with ha | ha
    · exact h.pin hcleared a (List.mem_append_left _ ha) he
    · rcases hp with rfl | ⟨rfl, howner⟩
      · exact absurd ha List.not_mem_nil
      · rw [List.mem_singleton.mp ha]
        exact ⟨hport, howner⟩
  · rcases hp with rfl | ⟨rfl, -⟩ <;> trivial

/-- a first pin is taken: nothing has been published under its generation -/
theorem Flowing.taken (h : Flowing s) {k : Checked} {owner : ℕ} (hpc : s.link.pc = .pin k owner) (hc : c.client = s.call.client) :
    Flowing { s with link := { s.link with cmdOwner := flowPin k.gen k.ingress.src.port, pc := .setPeer k }, call := c } := by
  have hpending : pending s.link s.call = [command k s.call.client] := by
    unfold pending
    rw [hpc]
  have hpending' : pending { s.link with cmdOwner := flowPin k.gen k.ingress.src.port, pc := .setPeer k } c =
      pending s.link s.call := by
    rw [hpending]
    exact congrArg (fun b => [command k b]) hc
  have hport : k.ingress.src.port < 2^16 := h.ports _ (by rw [hpc]; rfl)
  have hprepares := h.prepares
  have hflows := h.flows
  have hsorted := h.sorted
  have hbound := h.bound
  have hhost := h.host
  rw [hpending] at hflows hsorted hbound
  refine ⟨fun a ha => Option.some.inj ha ▸ hport, h.generation, ?_, h.client, trivial, ?_, ?_, ?_, ?_, ?_, trivial⟩
  · show Prepares s.arm s.link.armGen (s.commands ++ pending _ c)
    rw [hpending']
    exact hprepares
  · show Justified Continues (s.commands ++ pending _ c)
    rw [hpending', hpending]
    exact hflows
  · show (s.commands ++ pending _ c).Pairwise _
    rw [hpending', hpending]
    exact hsorted
  · show ∀ a ∈ s.commands ++ pending _ c, a.gen ≤ s.link.armGen
    rw [hpending', hpending]
    exact hbound
  · show s.link.armed = true → ∀ a ∈ s.commands ++ pending _ c, a.gen = s.link.armGen → a.src.ip = s.link.ctlPeerIp
    rw [hpending']
    exact hhost
  · intro _ a ha he
    have he : a.gen = s.link.armGen := he
    rcases List.mem_append.mp ha with ha | ha
    · -- a command of the same generation before it came from the same source
      have hle : a.gen ≤ k.gen := (List.pairwise_append.mp hsorted).2.2 a ha _ (List.mem_singleton.mpr rfl)
      have hk : k.gen ≤ s.link.armGen := hbound _ (List.mem_append_right _ (List.mem_singleton.mpr rfl))
      have hgen : a.gen = k.gen := le_antisymm hle (he ▸ hk)
      have hsrc : a.src = k.ingress.src := (hflows s.commands _ [] rfl).2.1 a ha hgen
      rw [hsrc, hgen]
      exact ⟨hport, rfl⟩
    · rw [List.mem_singleton.mp ha]
      exact ⟨hport, rfl⟩

/-- from the pin to the publication -/
theorem Flowing.onward (h : Flowing s) {k : Checked} (hpc : s.link.pc = .setPeer k) (hc : c.client = s.call.client)
    (hsame : Same { s.link with flow := link.flow } link) (hpc' : link.pc = .publish k) (hmemory : Matches link.flow (command k true)) :
    Flowing { s with link := link, call := c } := by
  obtain ⟨-, howner, hgen, harmed, hip, hclaim, hsession⟩ := hsame
  have hpending : pending link c = pending s.link s.call := by
    unfold pending
    rw [hpc, hpc', hc]
  have hpinned : pinnedOn link c = pinnedOn s.link s.call := by
    unfold pinnedOn
    rw [hpc, hpc', hc]
  have hport : k.ingress.src.port < 2^16 := h.ports _ (by rw [hpc]; rfl)
  refine ⟨?_, ?_, ?_, ?_, ?_, ?_, ?_, ?_, ?_, ?_, ?_⟩
  · intro a ha
    have ha : source link.pc = some a := ha
    rw [hpc'] at ha
    exact Option.some.inj ha ▸ hport
  · show link.armed = true → 0 < link.armGen
    rw [harmed, hgen]
    exact h.generation
  · show Prepares s.arm link.armGen (s.commands ++ pending link c)
    rw [hgen, hpending]
    exact h.prepares
  · show link.ctlPeerIp ≠ 0 ∨ (link.sessionId = 0 ∧ link.claimOk = false ∧ link.armed = false ∧ s.arm = .rest)
    rw [hip, hclaim, harmed, hsession]
    exact h.client
  · show Checks link c
    unfold Checks
    rw [hpc']
    trivial
  · show Justified Continues (s.commands ++ pending link c)
    rw [hpending]
    exact h.flows
  · show (s.commands ++ pending link c).Pairwise _
    rw [hpending]
    exact h.sorted
  · show ∀ a ∈ s.commands ++ pending link c, a.gen ≤ link.armGen
    rw [hpending, hgen]
    exact h.bound
  · show link.armed = true → ∀ a ∈ s.commands ++ pending link c, a.gen = link.armGen → a.src.ip = link.ctlPeerIp
    rw [hpending, hgen, hip, harmed]
    exact h.host
  · show s.arm.cleared = false → ∀ a ∈ s.commands ++ pinnedOn link c, a.gen = link.armGen →
      a.src.port < 2^16 ∧ link.cmdOwner = flowPin a.gen a.src.port
    rw [hpinned, hgen, howner]
    exact h.pin
  · show Remembers link s.commands
    unfold Remembers
    rw [hpc']
    exact hmemory

/-- the command is published -/
theorem Flowing.published (h : Flowing s) {k : Checked} (hpc : s.link.pc = .publish k)
    (hlink : Same s.link link) (hpc' : link.pc = .idle) :
    Flowing { s with commands := s.commands ++ s.publishing, link := link, call := c } := by
  obtain ⟨hflow, howner, hgen, harmed, hip, hclaim, hsession⟩ := hlink
  have hpublishing : s.publishing = pending s.link s.call := by
    unfold Sys.publishing pending
    rw [hpc]
  have hpinned : pinnedOn s.link s.call = pending s.link s.call := by
    unfold pinnedOn pending
    rw [hpc]
  have hquiet : isQuiet link.pc = true := by
    rw [hpc']
    rfl
  have hentries : (s.commands ++ s.publishing) ++ pending link c = s.commands ++ pending s.link s.call := by
    rw [hpublishing, pending_quiet hquiet, List.append_nil]
  have hentries' : (s.commands ++ s.publishing) ++ pinnedOn link c = s.commands ++ pinnedOn s.link s.call := by
    rw [hpublishing, hpinned, pinned_quiet hquiet, List.append_nil]
  have hlast : s.publishing = [command k s.call.client] := by
    unfold Sys.publishing
    rw [hpc]
  refine ⟨?_, ?_, ?_, ?_, ?_, ?_, ?_, ?_, ?_, ?_, ?_⟩
  · intro a ha
    have ha : source link.pc = some a := ha
    rw [hpc'] at ha
    cases ha
  · show link.armed = true → 0 < link.armGen
    rw [harmed, hgen]
    exact h.generation
  · show Prepares s.arm link.armGen ((s.commands ++ s.publishing) ++ pending link c)
    rw [hgen, hentries]
    exact h.prepares
  · show link.ctlPeerIp ≠ 0 ∨ (link.sessionId = 0 ∧ link.claimOk = false ∧ link.armed = false ∧ s.arm = .rest)
    rw [hip, hclaim, harmed, hsession]
    exact h.client
  · show Checks link c
    unfold Checks
    rw [hpc']
    trivial
  · show Justified Continues ((s.commands ++ s.publishing) ++ pending link c)
    rw [hentries]
    exact h.flows
  · show ((s.commands ++ s.publishing) ++ pending link c).Pairwise _
    rw [hentries]
    exact h.sorted
  · show ∀ a ∈ (s.commands ++ s.publishing) ++ pending link c, a.gen ≤ link.armGen
    rw [hentries, hgen]
    exact h.bound
  · show link.armed = true → ∀ a ∈ (s.commands ++ s.publishing) ++ pending link c, a.gen = link.armGen → a.src.ip = link.ctlPeerIp
    rw [hentries, hgen, hip, harmed]
    exact h.host
  · show s.arm.cleared = false → ∀ a ∈ (s.commands ++ s.publishing) ++ pinnedOn link c, a.gen = link.armGen →
      a.src.port < 2^16 ∧ link.cmdOwner = flowPin a.gen a.src.port
    rw [hentries', hgen, howner]
    exact h.pin
  · have hmemory := h.memory
    unfold Remembers at hmemory
    rw [hpc] at hmemory
    refine (remembers_quiet hquiet).mpr fun a ha => ?_
    have ha : (s.commands ++ s.publishing).getLast? = some a := ha
    rw [hlast, List.getLast?_concat] at ha
    rw [hflow, ← Option.some.inj ha]
    exact hmemory

/-- **The handler's next operation**, one case for each position. -/
theorem rx_flowing (h : Flowing s) (hf : Framed s) (cfg : Config) : Flowing (s.rx cfg) := by
  have hports := h.ports
  have hchecks := h.checks
  have hfound := hf.found
  have hat := fun (p : RxPc) (hp : s.link.pc = p) (hq : isQuiet p = true) => show isQuiet s.link.pc = true by rw [hp]; exact hq
  unfold Sys.rx rxStep
  unfold Checks at hchecks
  unfold Found at hfound
  cases hpc : s.link.pc <;> rw [hpc] at hports hchecks hfound <;> dsimp only at hchecks hfound ⊢ <;> unfold Call.look <;> rw [hpc] <;> dsimp only
  case idle => exact h.quiet (hat _ hpc rfl) (hat _ hpc rfl) ⟨rfl, rfl, rfl, rfl, rfl, rfl, rfl⟩ h.ports (by unfold Checks; rw [hpc]; trivial)
  case loadNegotiatedSession r src rxNs =>
    exact h.quiet (hat _ hpc rfl) rfl ⟨rfl, rfl, rfl, rfl, rfl, rfl, rfl⟩ hports trivial
  case loadReferenceSession r src rxNs session =>
    split_ifs
    · exact h.quiet (hat _ hpc rfl) rfl ⟨rfl, rfl, rfl, rfl, rfl, rfl, rfl⟩ hports trivial
    · exact h.quiet (hat _ hpc rfl) rfl ⟨rfl, rfl, rfl, rfl, rfl, rfl, rfl⟩ (fun _ ha => by cases ha) trivial
  case loadN i =>
    by_cases hn : i.packet.n ≠ (if s.link.backendReady then cfg.backendN else cfg.n) % 2^16
    · rw [if_pos hn]
      exact h.quiet (hat _ hpc rfl) rfl ⟨rfl, rfl, rfl, rfl, rfl, rfl, rfl⟩ (fun _ ha => by cases ha) trivial
    · rw [if_neg hn]
      exact h.quiet (hat _ hpc rfl) rfl ⟨rfl, rfl, rfl, rfl, rfl, rfl, rfl⟩ hports trivial
  case loadSession i =>
    split_ifs
    · exact h.quiet (hat _ hpc rfl) rfl ⟨rfl, rfl, rfl, rfl, rfl, rfl, rfl⟩ (fun _ ha => by cases ha) trivial
    · exact h.quiet (hat _ hpc rfl) rfl ⟨rfl, rfl, rfl, rfl, rfl, rfl, rfl⟩ hports trivial
  case loadClaim i session =>
    split_ifs
    · exact h.quiet (hat _ hpc rfl) rfl ⟨rfl, rfl, rfl, rfl, rfl, rfl, rfl⟩ hports trivial
    · exact h.quiet (hat _ hpc rfl) rfl ⟨rfl, rfl, rfl, rfl, rfl, rfl, rfl⟩ (fun _ ha => by cases ha) trivial
  case loadArmed i session claimed =>
    split_ifs
    · exact h.quiet (hat _ hpc rfl) rfl ⟨rfl, rfl, rfl, rfl, rfl, rfl, rfl⟩ hports trivial
    · exact h.quiet (hat _ hpc rfl) rfl ⟨rfl, rfl, rfl, rfl, rfl, rfl, rfl⟩ hports trivial
  case teachGen i => exact h.quiet (hat _ hpc rfl) rfl ⟨rfl, rfl, rfl, rfl, rfl, rfl, rfl⟩ hports trivial
  case teachIp i gen =>
    split_ifs
    · exact h.quiet (hat _ hpc rfl) rfl ⟨rfl, rfl, rfl, rfl, rfl, rfl, rfl⟩ hports trivial
    · exact h.quiet (hat _ hpc rfl) rfl ⟨rfl, rfl, rfl, rfl, rfl, rfl, rfl⟩ (fun _ ha => by cases ha) trivial
  case teachPeer i gen =>
    exact h.quiet (hat _ hpc rfl) rfl (teach_same _ _ _) (fun _ ha => by cases ha) trivial
  case loadIp i session claimed =>
    split_ifs with hip
    · exact h.quiet (hat _ hpc rfl) rfl ⟨rfl, rfl, rfl, rfl, rfl, rfl, rfl⟩ (fun _ ha => by cases ha) trivial
    · -- an armed server knows its client
      have hknown : s.link.ctlPeerIp ≠ 0 := h.client.resolve_right fun hno => Bool.noConfusion (hno.2.2.1.symm.trans hfound.2)
      have heq : i.src.ip = s.link.ctlPeerIp := by
        by_contra hne
        exact hip ⟨hknown, hne⟩
      exact h.quiet (hat _ hpc rfl) rfl ⟨rfl, rfl, rfl, rfl, rfl, rfl, rfl⟩ hports ⟨heq, beq_iff_eq.mpr heq⟩
  case loadGen i session claimed =>
    split_ifs
    · exact h.quiet (hat _ hpc rfl) rfl ⟨rfl, rfl, rfl, rfl, rfl, rfl, rfl⟩ (fun _ ha => by cases ha) trivial
    · exact h.quiet (hat _ hpc rfl) rfl ⟨rfl, rfl, rfl, rfl, rfl, rfl, rfl⟩ hports ⟨hchecks.1, hchecks.2, rfl⟩
  case loadOwner k =>
    split_ifs with hport hseq hpinned
    · exact h.quiet (hat _ hpc rfl) rfl ⟨rfl, rfl, rfl, rfl, rfl, rfl, rfl⟩ (fun _ ha => by cases ha) trivial
    · exact h.quiet (hat _ hpc rfl) rfl ⟨scope_of_rejected hseq, rfl, rfl, rfl, rfl, rfl, rfl⟩ (fun _ ha => by cases ha) trivial
    · rw [publishing_quiet (hat _ hpc rfl), List.append_nil]
      have hcontinues := continues_of_checks h hf hpc hport (Bool.eq_true_of_not_eq_false hseq)
      refine Flowing.handled (h.passed hf hpc hcontinues (.inr ⟨rfl, ?_⟩) rfl)
      have hsame : k.ingress.src.port = s.link.cmdOwner % 2^16 := by
        by_contra hne
        exact hport ⟨hpinned, hne⟩
      have hdiv : s.link.cmdOwner / 2^16 = k.gen := beq_iff_eq.mp (Bool.and_eq_true_iff.mp hpinned).2
      unfold flowPin
      rw [hsame, ← hdiv, Nat.mod_mod, Nat.div_add_mod']
    · rw [publishing_quiet (hat _ hpc rfl), List.append_nil]
      have hcontinues := continues_of_checks h hf hpc hport (Bool.eq_true_of_not_eq_false hseq)
      exact Flowing.handled (h.passed hf hpc hcontinues (.inl rfl) rfl)
  case pin k owner =>
    have hpublishing : s.publishing = [] := by
      unfold Sys.publishing
      rw [hpc]
    rw [if_neg (not_not_intro hfound.1), hpublishing, List.append_nil]
    exact Flowing.handled (h.taken hpc rfl)
  case setPeer k =>
    have hpublishing : s.publishing = [] := by
      unfold Sys.publishing
      rw [hpc]
    rw [hpublishing, List.append_nil]
    obtain ⟨-, howner, hgen, harmed, hip, hclaim, hsession⟩ := teach_same s.link k.ingress.src k.gen
    exact Flowing.handled (h.onward hpc rfl ⟨rfl, howner, hgen, harmed, hip, hclaim, hsession⟩ rfl ⟨rfl, rfl, rfl, rfl, rfl⟩)
  case publish k =>
    exact Flowing.handled (s := { s with commands := s.commands ++ s.publishing })
      (h.published hpc ⟨rfl, rfl, rfl, rfl, rfl, rfl, rfl⟩ rfl)

theorem receive_flowing (h : Flowing s) (cfg : Config) (d : Datagram) (src : Source) (rxNs : ℕ) (hidle : isIdle s.link.pc = true) :
    Flowing (s.receive cfg d src.1 rxNs) := by
  have hpc : s.link.pc = .idle := by
    cases hpc : s.link.pc <;> rw [hpc] at hidle <;> first | rfl | exact Bool.noConfusion hidle
  have hquiet : isQuiet s.link.pc = true := quiet_of_idle hidle
  have hsame : { s with commands := s.commands ++ s.publishing } = s := by
    rw [publishing_quiet hquiet, List.append_nil]
  have hstay : ∀ c, Flowing (s.handled s.link c) := by
    intro c
    have := h.quiet (c := c) hquiet hquiet ⟨rfl, rfl, rfl, rfl, rfl, rfl, rfl⟩ h.ports (by unfold Checks; rw [hpc]; trivial)
    rwa [hsame] at this
  unfold Sys.receive UdpLink.receive
  rw [hpc]
  cases d with
  | observe => exact hstay _
  | other => exact hstay _
  | reference r =>
    have hread : Flowing ({ s with commands := s.commands ++ s.publishing }.handled
        { s.link with pc := .loadNegotiatedSession r src.1 rxNs } {}) :=
      h.quiet hquiet rfl ⟨rfl, rfl, rfl, rfl, rfl, rfl, rfl⟩ (fun a ha => Option.some.inj ha ▸ src.2) trivial
    rwa [hsame] at hread
  | command w =>
    dsimp only
    split_ifs
    · have hread : Flowing ({ s with commands := s.commands ++ s.publishing }.handled
          { s.link with pc := .loadN ⟨w.packet, {}, src.1, rxNs⟩ } { wellFormed := decodeCommand cfg w }) :=
        h.quiet hquiet rfl ⟨rfl, rfl, rfl, rfl, rfl, rfl, rfl⟩ (fun a ha => Option.some.inj ha ▸ src.2) trivial
      rwa [hsame] at hread
    · exact hstay _

/-! ## every run -/

theorem Flowing.controlled (h : Flowing s) (cfg : Config) (ids : SessionIds) {e : UdpLink.Event}
    (hstep : s.arm = .rest → Flowing { s with link := UdpLink.step cfg ids s.link e }) : Flowing (s.control cfg ids e) := by
  unfold Sys.control
  split_ifs with hrest
  · exact hstep hrest
  · exact h

theorem step_flowing (h : Flowing s) (hf : Framed s) (e : Event) : Flowing (step cfg ids s e) := by
  have haside : ∀ {link : St}, link.pc = s.link.pc → Same s.link link → Flowing { s with link := link } := by
    rintro link hpc ⟨hflow, howner, hgen, harmed, hip, hclaim, hsession⟩
    refine h.aside hf hpc hflow howner hgen harmed (fun _ => hip) ?_
    rw [hip, hclaim, harmed, hsession]
    exact h.client
  cases e with
  | observe r src now =>
    show Flowing (if isIdle s.link.pc then _ else s)
    split_ifs
    · exact ⟨h.ports, h.generation, h.prepares, h.client, h.checks, h.flows, h.sorted, h.bound, h.host, h.pin, h.memory⟩
    · exact h
  | receive d src rxNs =>
    show Flowing (if isIdle s.link.pc then _ else s)
    split_ifs with hidle
    · exact receive_flowing h cfg d src rxNs hidle
    · exact h
  | rx =>
    show Flowing (if isIdle s.link.pc then s else _)
    split_ifs
    · exact h
    · exact rx_flowing h hf cfg
  | backendUp => exact haside rfl ⟨rfl, rfl, rfl, rfl, rfl, rfl, rfl⟩
  | openSession ip =>
    refine h.controlled cfg ids fun hrest => ?_
    unfold UdpLink.step
    dsimp only
    split_ifs with hno
    · exact h
    · -- while armed only the host that armed comes back
      refine h.aside hf rfl rfl rfl rfl rfl (fun ha => ?_) (.inl ip.2)
      have hknown : s.link.ctlPeerIp ≠ 0 := h.client.resolve_right fun hno' => Bool.noConfusion (hno'.2.2.1.symm.trans ha)
      by_contra hne
      exact hno (.inr ⟨ha, hknown, hne⟩)
  | claim =>
    refine h.controlled cfg ids fun hrest => ?_
    unfold UdpLink.step
    dsimp only
    split_ifs with hno
    · exact h
    · exact h.aside hf rfl rfl rfl rfl rfl (fun _ => rfl) (.inl (h.client.resolve_right fun hno' => hno hno'.1))
  | referenceMode => exact h.controlled cfg ids fun _ => haside rfl ⟨rfl, rfl, rfl, rfl, rfl, rfl, rfl⟩
  | closeSession =>
    refine h.controlled cfg ids fun _ => h.aside hf rfl rfl rfl rfl rfl (fun _ => rfl) ?_
    exact h.client.imp_right fun hno => ⟨rfl, rfl, hno.2.2⟩
  | arm =>
    show Flowing (if s.arm = .rest then beginArming s else s)
    split_ifs with hrest
    · exact beginArming_flowing h hrest
    · exact h
  | armGo now => exact armGo_flowing h hf now
  | disarm => exact h.controlled cfg ids fun hrest => disarm_flowing h hrest
  | tick now accept => exact haside rfl ⟨rfl, rfl, rfl, rfl, rfl, rfl, rfl⟩

instance (s : Sys) : ∀ e, Decidable (Undisturbed s e)
  | .disarm => by
    unfold Undisturbed
    dsimp only
    split <;> infer_instance
  | .observe _ _ _ | .receive _ _ _ | .rx | .backendUp | .openSession _ | .claim | .referenceMode | .closeSession | .arm | .armGo _
  | .tick _ _ => isTrue trivial

theorem flowing_run {es : List Event} (hes : Along (step cfg ids) Undisturbed {} es) :
    Framed (run (step cfg ids) {} es) ∧ Flowing (run (step cfg ids) {} es) := by
  have hinit : Framed {} := Fresh.framed ⟨rfl, fun h => Bool.noConfusion h, rfl, rfl⟩
  exact invariant (I := fun s => Framed s ∧ Flowing s) ⟨hinit, flowing_init⟩
    (fun _ e hu hi => ⟨step_framed hi.1 hu, step_flowing hi.2 hi.1 e⟩) hes

/-- a call that returned `false` was harmless, from any state between two datagrams -/
def RejectedUnchanged (cfg : Config) (ids : SessionIds) (s : Sys) (es : List Event) : Prop :=
  ∀ c ∈ (run (step cfg ids) s es).calls, c.Harmless

/-- every published command continues the flow of its generation -/
def OneFlow (cfg : Config) (ids : SessionIds) (es : List Event) : Prop :=
  Justified Continues (run (step cfg ids) {} es).commands

/-- **A rejected datagram has no effect, and the commands of one generation are one flow**, in every run in which no DISARM lands
between the handler's load of `armed` and its pin. -/
theorem command_flow (cfg : Config) (ids : SessionIds) (es : List Event) :
    (∀ s, Fresh s → Along (step cfg ids) Undisturbed s es → RejectedUnchanged cfg ids s es) ∧
      (Along (step cfg ids) Undisturbed {} es → OneFlow cfg ids es) := by
  refine ⟨fun s hs hes => (framed_run hs hes).calls, fun hes p o q hsplit => ?_⟩
  have hflows := (flowing_run hes).2.flows
  rw [hsplit, List.append_assoc] at hflows
  exact hflows p o _ rfl

/-! ## one session, and a handler that sleeps through a reconnect -/

def oneJoint : Config := ⟨1, 1, by decide, 1, false, false⟩

/-- a joint command -/
def jointCommand (session epoch seq : ℕ) : Datagram :=
  .command ⟨true, { n := 1, seq := seq, armEpoch := epoch, sessionId := session }, fun _ => .zero, fun _ => .zero, fun _ => .zero,
    fun _ => .zero, fun _ => .zero, false⟩

def hostA : Source := ⟨⟨1, 5000⟩, by decide⟩

def hostB : Source := ⟨⟨2, 5000⟩, by decide⟩

/-- a client connects, claims and arms -/
def connect (ip : PeerIp) : List Event := [.openSession ip, .claim, .arm] ++ List.replicate 5 (.armGo 0)

/-- a session that arms, commands, repeats a number, and disarms -/
def oneSession : List Event :=
  connect ⟨1, by decide⟩ ++ .receive (jointCommand 1 1 7) hostA 0 :: List.replicate 10 .rx ++
    .receive (jointCommand 1 1 7) hostA 0 :: List.replicate 8 .rx ++ .receive (jointCommand 1 1 8) hostA 0 :: List.replicate 9 .rx ++
    [.disarm, .closeSession]

theorem command_flow_session : RejectedUnchanged oneJoint default {} oneSession ∧ OneFlow oneJoint default oneSession :=
  have h : Along (step oneJoint default) Undisturbed {} oneSession := by decide +kernel
  ⟨(command_flow oneJoint default oneSession).1 {} ⟨rfl, fun h => Bool.noConfusion h, rfl, rfl⟩ h,
    (command_flow oneJoint default oneSession).2 h⟩

/-- a datagram of the first session is past the address check when the arm is disarmed and another host connects and arms -/
def asleep : List Event :=
  connect ⟨1, by decide⟩ ++ .receive (jointCommand 1 2 7) hostA 0 :: List.replicate 5 .rx ++ [.disarm, .closeSession] ++
    connect ⟨2, by decide⟩ ++ List.replicate 5 .rx ++ .receive (jointCommand 2 2 1) hostB 0 :: List.replicate 9 .rx

/-- **A retired handler pins the new generation**: the first session's host commands the second session's generation. -/
theorem retired_handler_pins : ¬ ∀ cfg ids es,
    (∀ s, Fresh s → RejectedUnchanged cfg ids s es) ∧ OneFlow cfg ids es := by
  intro hall
  have hflow : OneFlow oneJoint default asleep := (hall oneJoint default asleep).2
  have hcommands : (run (step oneJoint default) {} asleep).commands = [⟨2, ⟨1, 5000⟩, 7, true⟩, ⟨2, ⟨2, 5000⟩, 1, true⟩] := by
    decide +kernel
  have hsame := (hflow [_] _ [] hcommands).2.1 _ (List.mem_singleton.mpr rfl) rfl
  exact absurd (congrArg Addr.ip hsame) (by decide)

end FlowPin

end ArmControl.Rt
