import ArmControl.Lib.Run
import ArmControl.Rt.Server

/-!
# Command ingress (`udp_link.cpp`) beside ARM, DISARM and the servo tick

`handle_datagram` reads five facts that change under it (session, claim, armed, generation, flow
pin) and publishes at its end.  Here it is cut at its atomic operations: a position `RxPc` carries
what the handler has loaded so far, so that any number of ARMs, DISARMs and reconnects fit between
two of its loads.  The other steps are whole operations: session open and close, CLAIM, the
reference opt-in, `begin_arm`, DISARM, and one servo tick.

* `rxStep`        the handler's next operation;
* `step`          one step of the system;
* `SessionIds`    the ids the server draws for its sessions: nonzero and never repeated.

`claimedSession` (the session that was current when the handler read `claim_ok`), `admitted` and
`observed` are history.
-/

namespace ArmControl.Rt

/-- the ids of `fresh_session`, in order -/
structure SessionIds where
  id : ℕ → ℕ
  nonzero : ∀ k, id k ≠ 0
  injective : Function.Injective id

instance : Inhabited SessionIds := ⟨⟨fun k => k + 1, fun k => k.succ_ne_zero, fun _ _ h => by simpa using h⟩⟩

namespace UdpLink

structure Config where
  /-- `--n`, used before the backend is up -/
  n : ℕ
  backendN : ℕ
  joints : backendN ≤ maxJoints
  holdNs : ℚ
  supportsPoseHold : Bool
  supportsCartesian : Bool

/-- an IPv4 source address -/
structure Addr where
  ip : ℕ
  port : ℕ
  deriving DecidableEq, Inhabited

/-! ## datagrams -/

/-- a datagram of the size of a joint, pose-hold or Cartesian command; `tailOk` is the verdict of
`valid_pose_hold_spec` or `valid_cartesian_spec` on the tail -/
structure CommandWire where
  magicOk : Bool
  packet : CommandPacket
  qDes : ℕ → F64
  qdDes : ℕ → F64
  tauFf : ℕ → F64
  kp : ℕ → F64
  kd : ℕ → F64
  tailOk : Bool

structure ReferenceCommandPacket where
  magicOk : Bool
  packet : CommandPacket
  binding : ReferenceEnvelopeBinding
  tauFf : ℕ → F64
  kp : ℕ → F64
  kd : ℕ → F64

inductive Datagram where
  | observe
  | command (c : CommandWire)
  | reference (r : ReferenceCommandPacket)
  | other

def gain (x : F64) : Bool := x.isFinite && decide (0 ≤ x.rat)

/-- `decode_command` (each version has its own size) -/
def decodeCommand (cfg : Config) (c : CommandWire) : Bool :=
  c.magicOk && decide (1 ≤ c.packet.n) && decide (c.packet.n ≤ maxJoints) &&
    (match c.packet.version with
      | .joint => true
      | .poseHold => cfg.supportsPoseHold && c.tailOk
      | .cartesian => cfg.supportsCartesian && c.tailOk
      | .reference => false) &&
    (List.range c.packet.n).all fun j =>
      (c.qDes j).isFinite && (c.qdDes j).isFinite && (c.tauFf j).isFinite && gain (c.kp j) &&
        gain (c.kd j)

def decodeReferenceCommand (negotiated : Bool) (r : ReferenceCommandPacket) : Bool :=
  let p := r.packet
  let b := r.binding
  negotiated && r.magicOk && p.version == .reference && decide (1 ≤ p.n) &&
    decide (p.n ≤ maxJoints) && p.sessionId != 0 && p.armEpoch != 0 && b.referenceId != 0 &&
    b.revision != 0 && gain b.phase && b.validForUs != 0 && b.phaseWindowUs != 0 &&
    decide (b.ageUs ≤ b.validForUs) &&
    (List.range maxJoints).all fun j =>
      (r.tauFf j).isFinite && gain (r.kp j) && gain (r.kd j) &&
        (decide (j < p.n) || ((r.tauFf j).rat == 0 && (r.kp j).rat == 0 && (r.kd j).rat == 0))

/-! ## the handler -/

/-- a decoded command with its source and its ingress stamp -/
structure Ingress where
  packet : CommandPacket
  binding : ReferenceEnvelopeBinding
  src : Addr
  rxNs : ℕ
  deriving DecidableEq, Inhabited

/-- udp_rx's own admission memory -/
structure CommandFlow where
  seqGen : ℕ := 0
  seqIp : ℕ := 0
  seqPort : ℕ := 0
  lastSeq : ℕ := 0
  haveSeq : Bool := false
  lastAcceptRx : ℕ := 0
  deriving DecidableEq, Inhabited

/-- the facts a command has been checked against -/
structure Checked where
  ingress : Ingress
  session : ℕ
  claimedSession : ℕ
  gen : ℕ
  deriving DecidableEq, Inhabited

/-- position of the handler: the next atomic operation and what was loaded before it -/
inductive RxPc where
  | idle
  | loadNegotiatedSession (r : ReferenceCommandPacket) (src : Addr) (rxNs : ℕ)
  | loadReferenceSession (r : ReferenceCommandPacket) (src : Addr) (rxNs : ℕ) (session : ℕ)
  | loadN (i : Ingress)
  | loadSession (i : Ingress)
  | loadClaim (i : Ingress) (session : ℕ)
  | loadArmed (i : Ingress) (session claimedSession : ℕ)
  | teachGen (i : Ingress)
  | teachIp (i : Ingress) (gen : ℕ)
  | teachPeer (i : Ingress) (gen : ℕ)
  | loadIp (i : Ingress) (session claimedSession : ℕ)
  | loadGen (i : Ingress) (session claimedSession : ℕ)
  | loadOwner (c : Checked)
  | pin (c : Checked) (owner : ℕ)
  | setPeer (c : Checked)
  | publish (c : Checked)

/-- the history of one admission -/
structure Admission where
  envelope : CommandEnvelope
  claimedSession : ℕ
  deriving DecidableEq

structure St where
  -- control thread
  sessionId : ℕ := 0
  opened : ℕ := 0
  claimOk : Bool := false
  referenceSession : ℕ := 0
  armed : Bool := false
  armGen : ℕ := 0
  armStart : ArmStart := {}
  ctlPeerIp : ℕ := 0
  backendReady : Bool := false
  -- shared
  cmdOwner : ℕ := 0
  peer : Option Addr := none
  peerGen : ℕ := 0
  cmdIn : Mailbox CommandEnvelope := ⟨{}, 0⟩
  -- udp_rx
  flow : CommandFlow := {}
  pc : RxPc := .idle
  -- servo thread
  authority : CommandAuthority := {}
  tracked : Bool := false
  -- history
  admitted : List Admission := []
  observed : List (ℕ × ℕ) := []

def flowPin (gen port : ℕ) : ℕ := gen * 2^16 + port % 2^16

/-- another generation or source forgets the sequence -/
def CommandFlow.scope (f : CommandFlow) (i : Ingress) (gen : ℕ) : CommandFlow :=
  if gen ≠ f.seqGen ∨ i.src.ip ≠ f.seqIp ∨ i.src.port ≠ f.seqPort then { f with haveSeq := false }
  else f

/-- the sequence number is ahead of the last one, modulo `2^32` -/
def CommandFlow.seqOk (f : CommandFlow) (i : Ingress) : Bool :=
  let ahead := (i.packet.seq + 2^32 - f.lastSeq % 2^32) % 2^32
  !f.haveSeq || (ahead != 0 && decide (ahead < 2^31))

/-- the peer is scoped by generation: an older handler does not move it -/
def teach (s : St) (src : Addr) (gen : ℕ) : St :=
  if s.peerGen ≤ gen then { s with peer := some src, peerGen := gen } else s

def receive (cfg : Config) (s : St) (d : Datagram) (src : Addr) (rxNs : ℕ) : St :=
  match s.pc, d with
  | .idle, .reference r => { s with pc := .loadNegotiatedSession r src rxNs }
  | .idle, .command c =>
    if decodeCommand cfg c then { s with pc := .loadN ⟨c.packet, {}, src, rxNs⟩ } else s
  | _, _ => s

def rxStep (cfg : Config) (s : St) : St :=
  match s.pc with
  | .idle => s
  | .loadNegotiatedSession r src rxNs =>
    { s with pc := .loadReferenceSession r src rxNs s.sessionId }
  | .loadReferenceSession r src rxNs session =>
    if decodeReferenceCommand (session != 0 && s.referenceSession == session) r then
      { s with pc := .loadN ⟨r.packet, r.binding, src, rxNs⟩ }
    else { s with pc := .idle }
  | .loadN i =>
    let wantN := if s.backendReady then cfg.backendN else cfg.n
    if i.packet.n ≠ wantN % 2^16 then { s with pc := .idle } else { s with pc := .loadSession i }
  | .loadSession i =>
    if s.sessionId = 0 ∨ i.packet.sessionId ≠ s.sessionId then { s with pc := .idle }
    else { s with pc := .loadClaim i s.sessionId }
  | .loadClaim i session =>
    if s.claimOk then { s with pc := .loadArmed i session s.sessionId } else { s with pc := .idle }
  | .loadArmed i session claimed =>
    { s with pc := if s.armed then .loadIp i session claimed else .teachGen i }
  -- disarmed: the session may teach its state-stream address, nothing else
  | .teachGen i => { s with pc := .teachIp i s.armGen }
  | .teachIp i gen => { s with pc := if i.src.ip = s.ctlPeerIp then .teachPeer i gen else .idle }
  | .teachPeer i gen => { teach s i.src gen with pc := .idle }
  | .loadIp i session claimed =>
    { s with pc :=
        if s.ctlPeerIp ≠ 0 ∧ i.src.ip ≠ s.ctlPeerIp then .idle else .loadGen i session claimed }
  | .loadGen i session claimed =>
    { s with pc :=
        if i.packet.armEpoch ≠ low32 s.armGen then .idle
        else .loadOwner ⟨i, session, claimed, s.armGen⟩ }
  | .loadOwner c =>
    let pinned := s.cmdOwner != 0 && s.cmdOwner / 2^16 == c.gen
    if pinned = true ∧ c.ingress.src.port ≠ s.cmdOwner % 2^16 then { s with pc := .idle }
    else
      let flow := s.flow.scope c.ingress c.gen
      { s with
        flow := flow
        pc :=
          if flow.seqOk c.ingress = false then .idle
          else if pinned then .setPeer c else .pin c s.cmdOwner }
  | .pin c owner =>
    -- an ARM cleared it meanwhile: the next packet pins again
    if s.cmdOwner ≠ owner then { s with pc := .idle }
    else { s with cmdOwner := flowPin c.gen c.ingress.src.port, pc := .setPeer c }
  | .setPeer c =>
    let i := c.ingress
    { teach s i.src c.gen with
      flow := { seqGen := c.gen, seqIp := i.src.ip, seqPort := i.src.port
                lastSeq := i.packet.seq, haveSeq := true, lastAcceptRx := i.rxNs }
      pc := .publish c }
  | .publish c =>
    let e : CommandEnvelope :=
      { packet := c.ingress.packet, rxNs := c.ingress.rxNs, armGen := c.gen
        sessionId := c.session, reference := c.ingress.binding }
    { s with
      cmdIn := s.cmdIn.write e
      admitted := s.admitted ++ [⟨e, c.claimedSession⟩]
      pc := .idle }

/-! ## the system -/

inductive Event where
  | receive (d : Datagram) (src : Addr) (rxNs : ℕ)
  | rx
  | backendUp
  | openSession (ip : ℕ)
  | claim
  | referenceMode
  | closeSession
  | arm (now : ℕ)
  | disarm
  /-- `accept` is the tick's own verdict on the envelope in the mailbox -/
  | tick (now : ℕ) (accept : Bool)

/-- `begin_arm` once the latch word has admitted it -/
def beginArm (s : St) (now : ℕ) : St :=
  let gen := s.armGen + 1
  { s with armStart := ⟨gen, now⟩, cmdOwner := 0, peerGen := gen, armGen := gen, armed := true }

def tick (cfg : Config) (s : St) (now : ℕ) (accept : Bool) : St :=
  let e := s.cmdIn.value
  let version := if accept then s.cmdIn.version else 0
  let authority := s.authority.observe s.armGen s.armStart version e
  { s with
    authority := authority
    tracked := authority.fresh s.sessionId cfg.backendN now cfg.holdNs
    observed :=
      if version ≠ 0 ∧ e.armGen = s.armGen then s.observed ++ [(s.armGen, e.rxNs)]
      else s.observed }

def step (cfg : Config) (ids : SessionIds) (s : St) : Event → St
  | .receive d src rxNs => receive cfg s d src rxNs
  | .rx => rxStep cfg s
  | .backendUp => { s with backendReady := true }
  | .openSession ip =>
    if s.sessionId ≠ 0 ∨ (s.armed = true ∧ s.ctlPeerIp ≠ 0 ∧ ip ≠ s.ctlPeerIp) then s
    else
      { s with
        ctlPeerIp := ip, claimOk := false
        sessionId := ids.id s.opened, opened := s.opened + 1 }
  | .claim => if s.sessionId = 0 then s else { s with claimOk := true }
  | .referenceMode => { s with referenceSession := s.sessionId }
  | .closeSession => { s with claimOk := false, referenceSession := 0, sessionId := 0, peer := none }
  | .arm now => if s.claimOk then beginArm s now else s
  | .disarm => { s with armed := false }
  | .tick now accept => tick cfg s now accept

end UdpLink

end ArmControl.Rt
