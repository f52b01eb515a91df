import Mathlib.Data.List.Pairwise
import ArmControl.Lib.Since
import ArmControl.Rt.UdpLink

/-!
# What a datagram can change

`handle_datagram` again (`Rt/UdpLink.lean`), here beside a `begin_arm` that is cut at its own stores and with the observer table.  For
each call the model keeps what the handler found at its loads, what its own operations changed, and what it returned.

* `Sys`, `step`       the handler, the control thread and the servo tick;
* `Call.Harmless`     a call that returned `false` changed nothing but what its datagram is for;
* `Continues`         a command that is published continues the flow of its generation;
* `Undisturbed`       no DISARM lands between the handler's load of `armed` and its pin;
* `framed_run`        then every call that returned `false` was harmless.

What holds of the published commands is `Rt/FlowContinuity.lean`.
-/

namespace ArmControl.Rt
namespace FlowPin
open Run History UdpLink

/-- an IPv4 source as a socket reports it: the port has 16 bits -/
abbrev Source := {a : Addr // a.port < 2^16}

/-- the address of an accepted connection is not the unspecified one -/
abbrev PeerIp := {ip : ℕ // ip ≠ 0}

/-! ## observers -/

structure ObserveRequest where
  magicOk : Bool
  versionOk : Bool
  leaseMs : ℕ
  deriving DecidableEq

def ObserveRequest.valid (r : ObserveRequest) : Bool :=
  r.magicOk && r.versionOk && decide (100 ≤ r.leaseMs) && decide (r.leaseMs ≤ 5000)

structure Observer where
  addr : Addr := default
  /-- `0` is a free slot -/
  expiryNs : ℕ := 0
  deriving DecidableEq

def maxObservers : ℕ := 4

/-- a lease is renewed, or takes the first expired slot; a full table refuses newcomers -/
def lease (observers : List Observer) (r : ObserveRequest) (src : Addr) (now : ℕ) : List Observer :=
  if r.valid = false then observers
  else
    let slot : Observer := ⟨src, now + r.leaseMs * 1000000⟩
    match observers.findIdx? (fun o => decide (now < o.expiryNs) && o.addr == src) with
    | some i => observers.set i slot
    | none =>
      match observers.findIdx? (fun o => decide (o.expiryNs ≤ now)) with
      | some i => observers.set i slot
      | none => observers

/-! ## one call -/

/-- what the handler found at its loads, what its own operations changed, and what it returned -/
structure Call where
  -- found
  request : Bool := false
  wellFormed : Bool := false
  session : Bool := false
  claimed : Bool := false
  disarmed : Bool := false
  client : Bool := false
  -- changed
  pinned : Bool := false
  remembered : Bool := false
  published : Bool := false
  taught : Bool := false
  leased : Bool := false
  returned : Bool := false
  deriving DecidableEq

/-- what the next operation of the handler finds -/
def Call.look (c : Call) (s : St) : Call :=
  match s.pc with
  | .loadReferenceSession r _ _ session =>
    { c with wellFormed := decodeReferenceCommand (session != 0 && s.referenceSession == session) r }
  | .loadSession i => { c with session := s.sessionId != 0 && i.packet.sessionId == s.sessionId }
  | .loadClaim _ _ => { c with claimed := s.claimOk }
  | .loadArmed _ _ _ => { c with disarmed := !s.armed }
  | .teachIp i _ => { c with client := i.src.ip == s.ctlPeerIp }
  | .loadIp i _ _ => { c with client := i.src.ip == s.ctlPeerIp }
  | _ => c

/-- the memory that rejects replays -/
def memory (f : CommandFlow) : CommandFlow := { f with lastAcceptRx := 0 }

/-- what an operation of the handler has changed -/
def Call.changes (c : Call) (s s' : St) : Call :=
  { c with
    pinned := c.pinned || s'.cmdOwner != s.cmdOwner
    remembered := c.remembered || memory s'.flow != memory s.flow
    published := c.published || s'.cmdIn.version != s.cmdIn.version || s'.armStart != s.armStart
    taught := c.taught || s'.peer != s.peer || s'.peerGen != s.peerGen }

/-- **A call that returned `false`** left pin, sequence memory, mailbox and deadman as they were, moved the peer only for a well-formed
command of the current claimed session from the control client while disarmed, and the observer table only for a valid request. -/
def Call.Harmless (c : Call) : Prop :=
  c.returned = false →
    c.pinned = false ∧ c.remembered = false ∧ c.published = false ∧
      (c.taught = true → c.wellFormed = true ∧ c.session = true ∧ c.claimed = true ∧ c.disarmed = true ∧ c.client = true) ∧
      (c.leased = true → c.request = true)

/-- a command that was published: its generation, source and number, and whether it came from the control client's address -/
structure Command where
  gen : ℕ
  src : Addr
  seq : ℕ
  client : Bool
  deriving DecidableEq

/-- serial arithmetic: ahead by less than half of the 32-bit circle -/
def Ahead (last seq : ℕ) : Prop := (seq + 2^32 - last % 2^32) % 2^32 ≠ 0 ∧ (seq + 2^32 - last % 2^32) % 2^32 < 2^31

instance (last seq : ℕ) : Decidable (Ahead last seq) := inferInstanceAs (Decidable (_ ∧ _))

/-- a command continues the flow of its generation: the control client's address, the same source as every command before, and a number
ahead of the latest -/
def Continues (before : List Command) (c : Command) : Prop :=
  c.client = true ∧ (∀ a ∈ before, a.gen = c.gen → a.src = c.src) ∧
    ∀ p a q, before = p ++ a :: q → a.gen = c.gen → (∀ o ∈ q, o.gen ≠ c.gen) → Ahead a.seq c.seq

/-! ## the system -/

/-- where the control thread stands in `begin_arm` -/
inductive ArmPc where
  | rest
  | start (gen : ℕ)
  | clearOwner (gen : ℕ)
  | raisePeer (gen : ℕ)
  | bump (gen : ℕ)
  | raiseArmed
  deriving DecidableEq

structure Sys where
  link : St := {}
  arm : ArmPc := .rest
  observers : List Observer := List.replicate maxObservers {}
  /-- the call in progress -/
  call : Call := {}
  calls : List Call := []
  commands : List Command := []

inductive Event where
  | observe (r : ObserveRequest) (src : Source) (now : ℕ)
  | receive (d : Datagram) (src : Source) (rxNs : ℕ)
  | rx
  | backendUp
  | openSession (ip : PeerIp)
  | claim
  | referenceMode
  | closeSession
  | arm
  | armGo (now : ℕ)
  | disarm
  | tick (now : ℕ) (accept : Bool)

def isIdle : RxPc → Bool
  | .idle => true
  | _ => false

def publishes : RxPc → Bool
  | .publish _ => true
  | _ => false

/-- an operation of the handler: the call goes on, or returns -/
def Sys.handled (s : Sys) (link : St) (call : Call) : Sys :=
  if isIdle link.pc then
    { s with link := link, call := {}, calls := s.calls ++ [{ call with returned := publishes s.link.pc }] }
  else { s with link := link, call := call }

def command (c : Checked) (client : Bool) : Command := ⟨c.gen, c.ingress.src, c.ingress.packet.seq, client⟩

/-- the command that the next operation publishes -/
def Sys.publishing (s : Sys) : List Command :=
  match s.link.pc with
  | .publish c => [command c s.call.client]
  | _ => []

def observe (s : Sys) (r : ObserveRequest) (src : Addr) (now : ℕ) : Sys :=
  let observers := lease s.observers r src now
  { s with
    observers := observers
    calls := s.calls ++ [{ request := r.valid, leased := observers != s.observers }] }

/-- a datagram reaches the handler, and is decoded -/
def Sys.receive (cfg : Config) (s : Sys) (d : Datagram) (src : Addr) (rxNs : ℕ) : Sys :=
  let wellFormed := match d with
    | .command c => decodeCommand cfg c
    | _ => false
  s.handled (UdpLink.receive cfg s.link d src rxNs) { wellFormed := wellFormed }

/-- the next operation of the handler -/
def Sys.rx (cfg : Config) (s : Sys) : Sys :=
  let link := rxStep cfg s.link
  { s with commands := s.commands ++ s.publishing }.handled link ((s.call.look s.link).changes s.link link)

/-- `begin_arm`; an armed server acknowledges, or refuses while its latch is held -/
def beginArming (s : Sys) : Sys :=
  if s.link.claimOk = true ∧ s.link.armed = false then { s with arm := .start (s.link.armGen + 1) } else s

def armGo (s : Sys) (now : ℕ) : Sys :=
  match s.arm with
  | .rest => s
  | .start gen => { s with link := { s.link with armStart := ⟨gen, now⟩ }, arm := .clearOwner gen }
  | .clearOwner gen => { s with link := { s.link with cmdOwner := 0 }, arm := .raisePeer gen }
  | .raisePeer gen => { s with link := { s.link with peerGen := gen }, arm := .bump gen }
  | .bump gen => { s with link := { s.link with armGen := gen }, arm := .raiseArmed }
  | .raiseArmed => { s with link := { s.link with armed := true }, arm := .rest }

/-- the control thread serves one request at a time -/
def Sys.control (cfg : Config) (ids : SessionIds) (s : Sys) (e : UdpLink.Event) : Sys :=
  if s.arm = .rest then { s with link := UdpLink.step cfg ids s.link e } else s

def step (cfg : Config) (ids : SessionIds) (s : Sys) : Event → Sys
  | .observe r src now => if isIdle s.link.pc then observe s r src.1 now else s
  | .receive d src rxNs => if isIdle s.link.pc then s.receive cfg d src.1 rxNs else s
  | .rx => if isIdle s.link.pc then s else s.rx cfg
  | .backendUp => { s with link := UdpLink.step cfg ids s.link .backendUp }
  | .openSession ip => s.control cfg ids (.openSession ip.1)
  | .claim => s.control cfg ids .claim
  | .referenceMode => s.control cfg ids .referenceMode
  | .closeSession => s.control cfg ids .closeSession
  | .arm => if s.arm = .rest then beginArming s else s
  | .armGo now => armGo s now
  | .disarm => s.control cfg ids .disarm
  | .tick now accept => { s with link := UdpLink.step cfg ids s.link (.tick now accept) }

/-- no DISARM lands between the handler's load of `armed` and its pin: it is through its checks, or its pin is the first one -/
def Undisturbed (s : Sys) : Event → Prop
  | .disarm =>
    match s.link.pc with
    | .loadIp _ _ _ | .loadGen _ _ _ | .loadOwner _ => False
    | .pin _ owner => owner = 0
    | _ => True
  | _ => True

/-! ## a call that is rejected -/

variable {cfg : Config} {ids : SessionIds} {s : Sys} {link link' : St} {c : Call}

theorem changes_same (howner : link'.cmdOwner = link.cmdOwner) (hflow : link'.flow = link.flow)
    (hmail : link'.cmdIn = link.cmdIn) (hstart : link'.armStart = link.armStart) (hpeer : link'.peer = link.peer)
    (hpeerGen : link'.peerGen = link.peerGen) : c.changes link link' = c := by
  unfold Call.changes
  rw [howner, hflow, hmail, hstart, hpeer, hpeerGen]
  simp only [bne_self_eq_false, Bool.or_false]

theorem changes_pc (c : Call) (link : St) (p : RxPc) : c.changes link { link with pc := p } = c :=
  changes_same rfl rfl rfl rfl rfl rfl

/-- the call has changed nothing so far -/
def Unchanged (c : Call) : Prop :=
  c.pinned = false ∧ c.remembered = false ∧ c.published = false ∧ c.taught = false ∧ c.leased = false

/-- what the call has found at the handler's position; from its pin on it is going to publish -/
def Found (link : St) (c : Call) : Prop :=
  match link.pc with
  | .loadN _ | .loadSession _ => Unchanged c ∧ c.wellFormed = true
  | .loadClaim _ _ => Unchanged c ∧ c.wellFormed = true ∧ c.session = true
  | .loadArmed _ _ _ => Unchanged c ∧ c.wellFormed = true ∧ c.session = true ∧ c.claimed = true
  | .teachGen _ | .teachIp _ _ =>
    Unchanged c ∧ c.wellFormed = true ∧ c.session = true ∧ c.claimed = true ∧ c.disarmed = true
  | .teachPeer _ _ =>
    Unchanged c ∧ c.wellFormed = true ∧ c.session = true ∧ c.claimed = true ∧ c.disarmed = true ∧ c.client = true
  | .loadIp _ _ _ | .loadGen _ _ _ | .loadOwner _ => Unchanged c ∧ link.armed = true
  | .pin _ owner => link.cmdOwner = owner ∧ (owner = 0 ∨ link.armed = true)
  | .setPeer _ | .publish _ => True
  | .idle | .loadNegotiatedSession _ _ _ | .loadReferenceSession _ _ _ _ => Unchanged c

structure Framed (s : Sys) : Prop where
  rest : s.link.armed = true → s.arm = .rest
  found : Found s.link s.call
  calls : ∀ c ∈ s.calls, c.Harmless

theorem Unchanged.harmless (h : Unchanged c) : c.Harmless :=
  fun _ => ⟨h.1, h.2.1, h.2.2.1, fun ht => Bool.noConfusion (h.2.2.2.1.symm.trans ht),
    fun hl => Bool.noConfusion (h.2.2.2.2.symm.trans hl)⟩

theorem Framed.handled (h : Framed s) (harmed : link.armed = s.link.armed)
    (hreturn : isIdle link.pc = true → Call.Harmless { c with returned := publishes s.link.pc })
    (hgo : isIdle link.pc = false → Found link c) : Framed (s.handled link c) := by
  have hrest : link.armed = true → s.arm = .rest := fun ha => h.rest (harmed ▸ ha)
  unfold Sys.handled
  cases hidle : isIdle link.pc with
  | true =>
    rw [if_pos rfl]
    refine ⟨hrest, ?_, fun c' hc' => ?_⟩
    · show Found link {}
      unfold Found
      cases hpc : link.pc <;> rw [hpc] at hidle <;> first | exact ⟨rfl, rfl, rfl, rfl, rfl⟩ | exact Bool.noConfusion hidle
    · rcases List.mem_append.mp hc' with hc' | hc'
      · exact h.calls c' hc'
      · rw [List.mem_singleton.mp hc']
        exact hreturn hidle
  | false =>
    rw [if_neg Bool.false_ne_true]
    exact ⟨hrest, hgo hidle, h.calls⟩

/-- a rejection, or the next position, with nothing changed -/
theorem Framed.moved (h : Framed s) (hc : Unchanged c) {p : RxPc} (hgo : isIdle p = false → Found { s.link with pc := p } c) :
    Framed (s.handled { s.link with pc := p } (c.changes s.link { s.link with pc := p })) := by
  rw [changes_pc]
  exact h.handled rfl (fun _ => Unchanged.harmless hc) hgo

theorem receive_framed (h : Framed s) (cfg : Config) (d : Datagram) (src : Addr) (rxNs : ℕ) (hidle : isIdle s.link.pc = true) :
    Framed (s.receive cfg d src rxNs) := by
  have hunchanged : ∀ b, Unchanged { wellFormed := b } := fun _ => ⟨rfl, rfl, rfl, rfl, rfl⟩
  have hpc : s.link.pc = .idle := by
    cases hpc : s.link.pc <;> rw [hpc] at hidle <;> first | rfl | exact Bool.noConfusion hidle
  have hstay : ∀ b, Framed (s.handled s.link { wellFormed := b }) := fun b =>
    h.handled rfl (fun _ => Unchanged.harmless ⟨rfl, rfl, rfl, rfl, rfl⟩) fun hgo => Bool.noConfusion (hidle.symm.trans hgo)
  unfold Sys.receive
  cases d with
  | observe =>
    unfold UdpLink.receive
    rw [hpc]
    exact hstay _
  | other =>
    unfold UdpLink.receive
    rw [hpc]
    exact hstay _
  | reference r =>
    unfold UdpLink.receive
    rw [hpc]
    exact h.handled rfl (fun hi => Bool.noConfusion hi) fun _ => hunchanged _
  | command w =>
    unfold UdpLink.receive
    rw [hpc]
    dsimp only
    cases hdecode : decodeCommand cfg w with
    | true => exact h.handled rfl (fun hi => Bool.noConfusion hi) fun _ => ⟨hunchanged _, rfl⟩
    | false => exact hstay _

theorem scope_of_rejected {f : CommandFlow} {i : Ingress} {gen : ℕ} (h : (f.scope i gen).seqOk i = false) : f.scope i gen = f := by
  unfold CommandFlow.scope at h ⊢
  split_ifs with hother
  · rw [if_pos hother] at h
    exact Bool.noConfusion h
  · rfl

theorem teach_armed (link : St) (src : Addr) (gen : ℕ) : (teach link src gen).armed = link.armed := by
  unfold teach
  split_ifs <;> rfl

/-- a call that only taught the peer, after it found all that is asked for -/
theorem taught_harmless (hc : Unchanged c) (hall : c.wellFormed = true ∧ c.session = true ∧ c.claimed = true ∧ c.disarmed = true ∧ c.client = true)
    (src : Addr) (gen : ℕ) (b : Bool) :
    Call.Harmless { c.changes link { teach link src gen with pc := .idle } with returned := b } := by
  intro _
  have hsame : (teach link src gen).cmdOwner = link.cmdOwner ∧ (teach link src gen).flow = link.flow ∧
      (teach link src gen).cmdIn = link.cmdIn ∧ (teach link src gen).armStart = link.armStart := by
    unfold teach
    split_ifs <;> exact ⟨rfl, rfl, rfl, rfl⟩
  obtain ⟨howner, hflow, hmail, hstart⟩ := hsame
  refine ⟨?_, ?_, ?_, fun _ => hall, fun hl => Bool.noConfusion (hc.2.2.2.2.symm.trans hl)⟩
  · show (c.pinned || (teach link src gen).cmdOwner != link.cmdOwner) = false
    rw [howner, hc.1, bne_self_eq_false, Bool.or_false]
  · show (c.remembered || memory (teach link src gen).flow != memory link.flow) = false
    rw [hflow, hc.2.1, bne_self_eq_false, Bool.or_false]
  · show (c.published || (teach link src gen).cmdIn.version != link.cmdIn.version ||
      (teach link src gen).armStart != link.armStart) = false
    rw [hmail, hstart, hc.2.2.1, bne_self_eq_false, bne_self_eq_false, Bool.or_false, Bool.or_false]

/-- **The handler's next operation**, one case for each position. -/
theorem rx_framed (h : Framed s) (cfg : Config) : Framed (s.rx cfg) := by
  have hfound := h.found
  have hcommands : Framed { s with commands := s.commands ++ s.publishing } := ⟨h.rest, h.found, h.calls⟩
  unfold Sys.rx rxStep
  unfold Found at hfound
  cases hpc : s.link.pc <;> rw [hpc] at hfound <;> dsimp only at hfound ⊢ <;> unfold Call.look <;> rw [hpc] <;> dsimp only
  case idle =>
    refine hcommands.handled rfl (fun _ => ?_) fun hgo => ?_
    · rw [changes_same rfl rfl rfl rfl rfl rfl]
      exact Unchanged.harmless hfound
    · exact Bool.noConfusion ((congrArg isIdle hpc).symm.trans hgo)
  case loadNegotiatedSession r src rxNs =>
    refine hcommands.moved (by exact hfound) fun _ => ?_
    exact hfound
  case loadReferenceSession r src rxNs session =>
    split_ifs with hok
    · refine hcommands.moved (by exact hfound) fun _ => ?_
      exact ⟨hfound, hok⟩
    · refine hcommands.moved (by exact hfound) fun hgo => ?_
      exact Bool.noConfusion hgo
  case loadN i =>
    split_ifs <;> refine hcommands.moved (by exact hfound.1) fun hgo => ?_
    · exact Bool.noConfusion hgo
    · exact hfound
    · exact Bool.noConfusion hgo
    · exact hfound
  case loadSession i =>
    split_ifs with hsession
    · refine hcommands.moved (by exact hfound.1) fun hgo => ?_
      exact Bool.noConfusion hgo
    · refine hcommands.moved (by exact hfound.1) fun _ => ⟨hfound.1, hfound.2, ?_⟩
      rw [not_or, not_not] at hsession
      exact Bool.and_eq_true_iff.mpr ⟨bne_iff_ne.mpr hsession.1, beq_iff_eq.mpr hsession.2⟩
  case loadClaim i session =>
    split_ifs with hclaim
    · refine hcommands.moved (by exact hfound.1) fun _ => ?_
      exact ⟨hfound.1, hfound.2.1, hfound.2.2, hclaim⟩
    · refine hcommands.moved (by exact hfound.1) fun hgo => ?_
      exact Bool.noConfusion hgo
  case loadArmed i session claimed =>
    refine hcommands.moved (by exact hfound.1) fun _ => ?_
    cases harmed : s.link.armed with
    | true => exact ⟨hfound.1, harmed⟩
    | false => exact ⟨hfound.1, hfound.2.1, hfound.2.2.1, hfound.2.2.2, rfl⟩
  case teachGen i =>
    refine hcommands.moved (by exact hfound.1) fun _ => ?_
    exact hfound
  case teachIp i gen =>
    refine hcommands.moved (by exact hfound.1) fun hgo => ?_
    split_ifs at hgo ⊢ with hip
    · exact ⟨hfound.1, hfound.2.1, hfound.2.2.1, hfound.2.2.2.1, hfound.2.2.2.2, beq_iff_eq.mpr hip⟩
    · exact Bool.noConfusion hgo
  case teachPeer i gen =>
    exact hcommands.handled (teach_armed _ _ _) (fun _ => taught_harmless hfound.1 hfound.2 _ _ _)
      fun hgo => Bool.noConfusion hgo
  case loadIp i session claimed =>
    refine hcommands.moved (by exact hfound.1) fun hgo => ?_
    split_ifs at hgo ⊢
    · exact Bool.noConfusion hgo
    · exact hfound
  case loadGen i session claimed =>
    refine hcommands.moved (by exact hfound.1) fun hgo => ?_
    split_ifs at hgo ⊢
    · exact Bool.noConfusion hgo
    · exact hfound
  case loadOwner c =>
    split_ifs with hport hseq hpin
    · refine hcommands.moved (by exact hfound.1) fun hgo => ?_
      exact Bool.noConfusion hgo
    · -- a number that is not ahead: the memory was in scope, so nothing was forgotten
      rw [scope_of_rejected hseq]
      refine hcommands.moved (by exact hfound.1) fun hgo => ?_
      exact Bool.noConfusion hgo
    · exact hcommands.handled rfl (fun hi => Bool.noConfusion hi) fun _ => trivial
    · exact hcommands.handled rfl (fun hi => Bool.noConfusion hi) fun _ => ⟨rfl, .inr hfound.2⟩
  case pin c owner =>
    rw [if_neg (not_not_intro hfound.1)]
    exact hcommands.handled rfl (fun hi => Bool.noConfusion hi) fun _ => trivial
  case setPeer c =>
    exact hcommands.handled (teach_armed _ _ _) (fun hi => Bool.noConfusion hi) fun _ => trivial
  case publish c =>
    refine hcommands.handled rfl (fun _ hreturned => ?_) fun hgo => Bool.noConfusion hgo
    have hreturned : publishes s.link.pc = false := hreturned
    rw [hpc] at hreturned
    exact Bool.noConfusion hreturned

/-- another thread, which touches neither `armed` nor the pin -/
theorem Framed.aside (h : Framed s) (harmed : link.armed = s.link.armed) (howner : link.cmdOwner = s.link.cmdOwner)
    (hpc : link.pc = s.link.pc) : Framed { s with link := link } := by
  refine ⟨fun ha => h.rest (harmed ▸ ha), ?_, h.calls⟩
  have hfound := h.found
  show Found link s.call
  unfold Found at hfound ⊢
  rw [hpc]
  cases hp : s.link.pc <;> rw [hp] at hfound
  case loadIp => exact ⟨hfound.1, harmed.trans hfound.2⟩
  case loadGen => exact ⟨hfound.1, harmed.trans hfound.2⟩
  case loadOwner => exact ⟨hfound.1, harmed.trans hfound.2⟩
  case pin => exact ⟨howner.trans hfound.1, hfound.2.imp_right harmed.trans⟩
  all_goals exact hfound

theorem disarm_framed (h : Framed s) (hu : Undisturbed s .disarm) : Framed { s with link := { s.link with armed := false } } := by
  refine ⟨fun ha => Bool.noConfusion ha, ?_, h.calls⟩
  have hfound := h.found
  unfold Undisturbed at hu
  dsimp only at hu
  show Found { s.link with armed := false } s.call
  unfold Found at hfound ⊢
  cases hp : s.link.pc <;> rw [hp] at hfound hu
  case loadIp => exact hu.elim
  case loadGen => exact hu.elim
  case loadOwner => exact hu.elim
  case pin => exact ⟨hfound.1, .inl hu⟩
  all_goals exact hfound

theorem control_framed (h : Framed s) (cfg : Config) (ids : SessionIds) {e : UdpLink.Event}
    (hstep : Framed { s with link := UdpLink.step cfg ids s.link e }) : Framed (s.control cfg ids e) := by
  unfold Sys.control
  split_ifs
  · exact hstep
  · exact h

theorem armGo_framed (h : Framed s) (now : ℕ) : Framed (armGo s now) := by
  have hdisarmed : s.arm ≠ .rest → s.link.armed = false := fun hne =>
    Bool.eq_false_iff.mpr fun ha => hne (h.rest ha)
  unfold armGo
  cases harm : s.arm with
  | rest => exact h
  | start gen =>
    have ha := hdisarmed (by rw [harm]; exact ArmPc.noConfusion)
    have hkept : Framed { s with link := { s.link with armStart := ⟨gen, now⟩ } } := h.aside rfl rfl rfl
    exact ⟨fun hb => Bool.noConfusion (ha.symm.trans hb), hkept.found, h.calls⟩
  | clearOwner gen =>
    have ha := hdisarmed (by rw [harm]; exact ArmPc.noConfusion)
    refine ⟨fun hb => Bool.noConfusion (ha.symm.trans hb), ?_, h.calls⟩
    have hfound := h.found
    show Found { s.link with cmdOwner := 0 } s.call
    unfold Found at hfound ⊢
    cases hp : s.link.pc <;> rw [hp] at hfound
    case pin =>
      -- the server is disarmed: the handler found no pin, and finds none
      rcases hfound.2 with h0 | hb
      · exact ⟨h0.symm, .inl h0⟩
      · exact Bool.noConfusion (ha.symm.trans hb)
    all_goals exact hfound
  | raisePeer gen =>
    have ha := hdisarmed (by rw [harm]; exact ArmPc.noConfusion)
    have hkept : Framed { s with link := { s.link with peerGen := gen } } := h.aside rfl rfl rfl
    exact ⟨fun hb => Bool.noConfusion (ha.symm.trans hb), hkept.found, h.calls⟩
  | bump gen =>
    have ha := hdisarmed (by rw [harm]; exact ArmPc.noConfusion)
    have hkept : Framed { s with link := { s.link with armGen := gen } } := h.aside rfl rfl rfl
    exact ⟨fun hb => Bool.noConfusion (ha.symm.trans hb), hkept.found, h.calls⟩
  | raiseArmed =>
    refine ⟨fun _ => rfl, ?_, h.calls⟩
    have hfound := h.found
    show Found { s.link with armed := true } s.call
    unfold Found at hfound ⊢
    cases hp : s.link.pc <;> rw [hp] at hfound
    case loadIp => exact ⟨hfound.1, rfl⟩
    case loadGen => exact ⟨hfound.1, rfl⟩
    case loadOwner => exact ⟨hfound.1, rfl⟩
    case pin => exact ⟨hfound.1, .inr rfl⟩
    all_goals exact hfound

theorem observe_framed (h : Framed s) (r : ObserveRequest) (src : Addr) (now : ℕ) : Framed (observe s r src now) := by
  refine ⟨h.rest, h.found, fun c hc => ?_⟩
  rcases List.mem_append.mp hc with hc | hc
  · exact h.calls c hc
  · rw [List.mem_singleton.mp hc]
    intro _
    refine ⟨rfl, rfl, rfl, fun ht => Bool.noConfusion ht, fun hl => ?_⟩
    by_contra hvalid
    have hvalid : r.valid = false := Bool.eq_false_iff.mpr hvalid
    have hleased : (lease s.observers r src now != s.observers) = true := hl
    unfold lease at hleased
    rw [if_pos hvalid, bne_self_eq_false] at hleased
    exact Bool.noConfusion hleased

theorem step_framed (h : Framed s) {e : Event} (hu : Undisturbed s e) : Framed (step cfg ids s e) := by
  cases e with
  | observe r src now =>
    show Framed (if isIdle s.link.pc then _ else s)
    split_ifs
    · exact observe_framed h r src.1 now
    · exact h
  | receive d src rxNs =>
    show Framed (if isIdle s.link.pc then _ else s)
    split_ifs with hidle
    · exact receive_framed h cfg d src.1 rxNs hidle
    · exact h
  | rx =>
    show Framed (if isIdle s.link.pc then s else _)
    split_ifs
    · exact h
    · exact rx_framed h cfg
  | backendUp => exact h.aside rfl rfl rfl
  | openSession ip =>
    refine control_framed h cfg ids ?_
    unfold UdpLink.step
    dsimp only
    split_ifs
    · exact h
    · exact h.aside rfl rfl rfl
  | claim =>
    refine control_framed h cfg ids ?_
    unfold UdpLink.step
    dsimp only
    split_ifs
    · exact h
    · exact h.aside rfl rfl rfl
  | referenceMode => exact control_framed h cfg ids (h.aside rfl rfl rfl)
  | closeSession => exact control_framed h cfg ids (h.aside rfl rfl rfl)
  | arm =>
    show Framed (if s.arm = .rest then beginArming s else s)
    unfold beginArming
    split_ifs with hrest hgo
    · exact ⟨fun ha => Bool.noConfusion (hgo.2.symm.trans ha), h.found, h.calls⟩
    · exact h
    · exact h
  | armGo now => exact armGo_framed h now
  | disarm => exact control_framed h cfg ids (disarm_framed h hu)
  | tick now accept => exact h.aside rfl rfl rfl

/-- the handler is between two datagrams, and only a disarmed server is in `begin_arm` -/
structure Fresh (s : Sys) : Prop where
  idle : isIdle s.link.pc = true
  rest : s.link.armed = true → s.arm = .rest
  call : s.call = {}
  calls : s.calls = []

theorem Fresh.framed (h : Fresh s) : Framed s where
  rest := h.rest
  found := by
    have hidle := h.idle
    unfold Found
    rw [h.call]
    cases hpc : s.link.pc <;> rw [hpc] at hidle <;> first | exact ⟨rfl, rfl, rfl, rfl, rfl⟩ | exact Bool.noConfusion hidle
  calls := by
    rw [h.calls]
    exact fun c hc => absurd hc List.not_mem_nil

theorem framed_run (h : Fresh s) {es : List Event} (hes : Along (step cfg ids) Undisturbed s es) :
    Framed (run (step cfg ids) s es) :=
  invariant h.framed (fun _ _ hu hi => step_framed hi hu) hes

end FlowPin

end ArmControl.Rt
