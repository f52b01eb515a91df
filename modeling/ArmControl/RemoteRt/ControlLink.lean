import ArmControl.Lib.Run
import ArmControl.Rt.ArmStatus

/-!
# Control acknowledgements (`RtBackend.enable_all`, `safe_stop`, `set_active_mask`)

The client sends control requests over one connection and takes the next STATUS as the answer; the
control thread answers each request in turn, and its replies may be late.  A drain before each send
is the only correlation.

* `Link`        the server, the requests, the replies on their way and in the client's queue, the
                client's call in progress, the servo's stop epoch and its state samples;
* `step`        a call, a delivery, a timeout, a step of any of the server's threads;
* `Matched`     the reply that a call takes is the one that it waits for;
* `acks_matched`   then what a call reports is so.

`about` of a reply, `served`, `disarms` and the unwrapped stop generations are history.  The client calls
one method at a time.
-/

namespace ArmControl.RemoteRt
open ArmControl.Rt

/-- 32-bit generation comparison with wraparound: `value >= target` -/
def epochReached (value target : ℕ) : Bool :=
  decide ((value + 2 ^ 32 - target % 2 ^ 32) % 2 ^ 32 < 2 ^ 31)

inductive ControlRequest where
  | arm
  | disarm
  | setActive (mask : BitVec 32)
  deriving DecidableEq, Inhabited

/-- `FLAG_ARMED`, `FLAG_FAULTED` and `FLAG_CLAIMED` -/
def flagArmed : BitVec 32 := 1
def flagFaulted : BitVec 32 := 2
def flagClaimed : BitVec 32 := 16

def withOnlineMask (flags mask : BitVec 32) : BitVec 32 := (flags &&& 0xFFFF) ||| (mask &&& 0xFFFF) <<< 16

/-- the word of `flags_snapshot` -/
def flagsWord (f : Flags) (onlineMask : BitVec 32) : BitVec 32 :=
  withOnlineMask
    ((if f.armed then flagArmed else 0) ||| (if f.faulted then flagFaulted else 0) |||
      (if f.claimed then flagClaimed else 0))
    onlineMask

theorem flagsWord_armed (f : Flags) (m : BitVec 32) : flagsWord f m &&& flagArmed ≠ 0 ↔ f.armed = true := by
  obtain ⟨a, b, c⟩ := f
  cases a <;> cases b <;> cases c <;>
    simp [flagsWord, withOnlineMask, flagArmed, flagFaulted, flagClaimed, BitVec.eq_of_getLsbD_eq_iff]

/-- a STATUS frame, and the number of the request that it answers -/
structure StatusFrame where
  about : ℕ
  arg : BitVec 32
  seq : ℕ := 0
  text : String
  deriving DecidableEq, Inhabited

def StatusFrame.has (f : StatusFrame) (flag : BitVec 32) : Bool := f.arg &&& flag != 0

/-- what the servo publishes of itself; `stopGen` is the unwrapped `stop_epoch` -/
structure StateSample where
  stateSeq : ℕ
  armed : Bool
  stopGen : ℕ
  lastCmdSeq : ℕ
  deriving DecidableEq, Inhabited

def StateSample.stopEpoch (x : StateSample) : ℕ := low32 x.stopGen

/-- the call in progress; the numbers are those of the requests they have sent -/
inductive CallPc where
  | idle
  | enabling (request : ℕ)
  | stopping (request : ℕ)
  /-- acknowledged with the DISARM generation `seq`; waits for a sample that covers it -/
  | confirming (request seq : ℕ)
  | masking (request mask : ℕ)
  deriving DecidableEq, Inhabited

/-- how a call ended -/
inductive CallResult where
  | enabled (request : ℕ)
  | stopped (request : ℕ) (confirmed : Bool)
  | masked (request : ℕ)
  | raised (text : String)
  deriving DecidableEq, Inhabited

structure Link where
  srv : Server := {}
  -- the server's masks, and the SET_ACTIVE that its control thread waits for
  onlineMask : BitVec 32 := 0
  requestedMask : BitVec 32 := 0
  activeMask : BitVec 32 := 0
  masking : Option (ℕ × BitVec 32) := none
  -- the servo: the DISARM generation it has read, the newest it has completed, what it has published
  genRead : Option ℕ := none
  stopGen : ℕ := 0
  samples : List StateSample := []
  -- the connection
  requests : List ControlRequest := []
  served : ℕ := 0
  replies : List StatusFrame := []
  /-- requests served up to the newest DISARM -/
  lastDisarm : ℕ := 0
  /-- the generation of each DISARM that was served -/
  disarms : List (ℕ × ℕ) := []
  -- the client
  pc : CallPc := .idle
  statusQ : List StatusFrame := []
  armEpoch : ℕ := 0
  modeGeneration : ℕ := 0
  clientMask : ℕ := 0
  cmdSeq : ℕ := 0
  state : Option StateSample := none
  /-- a state with new content came after the acknowledgement -/
  stateAfterAck : Bool := false
  results : List CallResult := []
  deriving Inhabited

namespace Link

/-! ## the server -/

/-- STATUS replies of the control thread, on their way -/
def push (s : Link) (acks : List Server.Ack) : Link :=
  { s with replies := s.replies ++ acks.map fun a =>
      { about := s.served, arg := flagsWord a.flags s.onlineMask, seq := a.seq, text := a.text } }

/-- one frame that the server handles as it is -/
def serveFrame (cfg : ServerConfig) (s : Link) (body : Body) (env : CtlEnv) : Link :=
  let srv := s.srv.frame cfg { body := body } env
  { { s with srv := srv }.push (srv.acks.drop s.srv.acks.length) with served := s.served + 1 }

def reply (s : Link) (about : ℕ) (arg : BitVec 32) (text : String) (ok : Bool) : Link :=
  if ok then { s with replies := s.replies ++ [{ about := about, arg := arg, text := text }] } else s

/-- the slots of a server with `n` joints -/
def configuredMask (n : ℕ) : BitVec 32 := if 16 ≤ n then 0xFFFF else BitVec.ofNat 32 (2 ^ n - 1)

/-- CTL_SET_ACTIVE up to its wait -/
def onSetActive (cfg : ServerConfig) (s : Link) (desired : BitVec 32) (env : CtlEnv) : Link :=
  let s' := { s with srv := { s.srv with pc := .top }, served := s.served + 1 }
  if desired &&& ~~~configuredMask cfg.n ≠ 0 ∨ desired &&& ~~~s.onlineMask ≠ 0 then
    s'.reply s.served s.activeMask "active mask refused: slot offline or unconfigured" env.sendOk
  else if s.srv.pub.armed = true ∧ s.activeMask &&& ~~~desired ≠ 0 then
    s'.reply s.served s.activeMask "active mask refused: disarm before removal" env.sendOk
  else { s' with requestedMask := desired, masking := some (s.served, desired) }

/-- the wait is over: applied, or 500 ms later -/
def maskAnswer (s : Link) (ok : Bool) : Link :=
  match s.masking with
  | none => s
  | some (about, desired) =>
    let text := if s.activeMask = desired then "active mask applied" else "active mask refused by backend"
    { s with masking := none }.reply about s.activeMask text ok

/-- the control thread; a request has arrived when `env.frame` is there -/
def control (cfg : ServerConfig) (ids : SessionIds) (s : Link) (env : CtlEnv) : Link :=
  if s.masking.isSome = true ∨ s.srv.pc = .closed then s
  else
    match (if s.srv.pc = .recv ∧ env.hangup = false ∧ env.frame.isSome then s.requests[s.served]? else none) with
    | none => { s with srv := s.srv.controlStep cfg ids { env with frame := none } }
    | some .arm => s.serveFrame cfg .arm env
    | some .disarm =>
      let s' := s.serveFrame cfg .disarm env
      { s' with
        lastDisarm := s.served + 1
        disarms := s.disarms ++ [(s.served, s'.srv.pub.disarmGen)] }
    | some (.setActive mask) => s.onSetActive cfg mask env

/-- the servo has read the DISARM generation; it reads the level, completes the stop, publishes -/
def publish (s : Link) (lastCmdSeq : ℕ) : Link :=
  match s.genRead with
  | none => s
  | some gen =>
    let stopGen := if s.srv.pub.armed then s.stopGen else gen
    let sample : StateSample :=
      { stateSeq := s.samples.length + 1, armed := s.srv.pub.armed, stopGen := stopGen, lastCmdSeq := lastCmdSeq }
    { s with genRead := none, stopGen := stopGen, samples := s.samples ++ [sample] }

/-! ## the client -/

/-- `_control_roundtrip` up to its wait: drop what has arrived, send -/
def roundtrip (s : Link) (r : ControlRequest) (pc : CallPc) : Link :=
  { s with statusQ := [], requests := s.requests ++ [r], pc := pc }

def ends (s : Link) (r : CallResult) : Link := { s with pc := .idle, results := s.results ++ [r] }

/-- `_seed_command_seq` -/
def seedCommandSeq (s : Link) (x : StateSample) : Link :=
  if epochReached s.cmdSeq x.lastCmdSeq then s else { s with cmdSeq := x.lastCmdSeq }

def enableAll (s : Link) : Link :=
  match s.state with
  | none => s.ends (.raised "no state from server; refusing to arm without the state stream")
  | some x => (s.seedCommandSeq x).roundtrip .arm (.enabling s.requests.length)

def safeStop (s : Link) : Link := s.roundtrip .disarm (.stopping s.requests.length)

def setActiveMask (n : ℕ) (s : Link) (mask : ℕ) : Link :=
  if 2 ^ n ≤ mask then
    s.ends (.raised ("active mask must fit " ++ toString n ++ " configured slots"))
  else if (s.state.any (·.armed)) = true ∧ s.clientMask &&& mask ≠ s.clientMask then
    s.ends (.raised "cannot remove an active slot while armed")
  else s.roundtrip (.setActive (BitVec.ofNat 32 mask)) (.masking s.requests.length mask)

def orElse (text other : String) : String := if text = "" then other else text

/-- the ack of an ARM; FAULTED in it is a refusal -/
def onEnabled (s : Link) (request : ℕ) (status : StatusFrame) : Link :=
  if status.has flagFaulted = true ∨ status.has flagArmed = false then
    s.ends (.raised ("arm refused: " ++ orElse status.text "latched fault"))
  else if status.seq = 0 then s.ends (.raised "arm ack carries no ARM epoch (pre-v5 server?)")
  else { s with armEpoch := status.seq, modeGeneration := 0 }.ends (.enabled request)

/-- the ack of a DISARM -/
def onStopped (s : Link) (request : ℕ) (status : StatusFrame) : Link :=
  let s := { s with armEpoch := 0, modeGeneration := 0 }
  if status.has flagArmed then s.ends (.stopped request false)
  else { s with pc := .confirming request status.seq, stateAfterAck := false }

def onMasked (s : Link) (request mask : ℕ) (status : StatusFrame) : Link :=
  if status.arg.toNat ≠ mask then s.ends (.raised (orElse status.text "active mask refused"))
  else { s with clientMask := mask }.ends (.masked request)

/-- `_status_q.get` returns -/
def take (s : Link) : Link :=
  match s.statusQ with
  | [] => s
  | status :: rest =>
    let s' := { s with statusQ := rest }
    match s.pc with
    | .enabling request => s'.onEnabled request status
    | .stopping request => s'.onStopped request status
    | .masking request mask => s'.onMasked request mask status
    | .idle | .confirming _ _ => s

/-- `_status_q.get` raises -/
def timeout (s : Link) : Link :=
  if s.statusQ ≠ [] then s
  else
    match s.pc with
    | .enabling _ | .masking _ _ => s.ends (.raised "no STATUS ack from server")
    | .stopping request => s.ends (.stopped request false)
    | .idle | .confirming _ _ => s

/-- the sample shows the stop -/
def covers (s : Link) (seq : ℕ) : Bool :=
  s.state.any fun x => s.stateAfterAck && !x.armed && epochReached x.stopEpoch seq

/-- one look at the newest state while `safe_stop` waits -/
def look (s : Link) : Link :=
  match s.pc with
  | .confirming request seq => if s.covers seq then s.ends (.stopped request true) else s
  | _ => s

/-- half a second later -/
def giveUp (s : Link) : Link :=
  match s.pc with
  | .confirming request _ => s.ends (.stopped request false)
  | _ => s

/-- a state datagram, in any order -/
def arrive (s : Link) (k : ℕ) : Link :=
  match s.samples[k]? with
  | none => s
  | some x =>
    let new := decide (s.state.map (·.stateSeq) ≠ some x.stateSeq)
    { s with state := some x, stateAfterAck := s.stateAfterAck || new }

inductive Call where
  | enableAll
  | safeStop
  | setActiveMask (mask : ℕ)
  deriving DecidableEq, Inhabited

inductive LinkEvent where
  | call (c : Call)
  /-- the next reply reaches the client's queue -/
  | deliver
  | take
  | timeout
  | look
  | giveUp
  | arrive (k : ℕ)
  | control (env : CtlEnv)
  | maskAnswer (ok : Bool)
  /-- the servo thread's own step -/
  | servo (env : RtEnv)
  /-- the servo's step applies the requested mask -/
  | applyMask
  | online (mask : BitVec 32)
  | readStop
  | publish (lastCmdSeq : ℕ)

def call (cfg : ServerConfig) (s : Link) (c : Call) : Link :=
  if s.pc ≠ .idle then s
  else
    match c with
    | .enableAll => s.enableAll
    | .safeStop => s.safeStop
    | .setActiveMask mask => s.setActiveMask cfg.n mask

def deliver (s : Link) : Link :=
  match s.replies with
  | [] => s
  | r :: rest => { s with replies := rest, statusQ := s.statusQ ++ [r] }

def step (cfg : ServerConfig) (ids : SessionIds) (s : Link) : LinkEvent → Link
  | .call c => s.call cfg c
  | .deliver => s.deliver
  | .take => s.take
  | .timeout => s.timeout
  | .look => s.look
  | .giveUp => s.giveUp
  | .arrive k => s.arrive k
  | .control env => s.control cfg ids env
  | .maskAnswer ok => s.maskAnswer ok
  | .servo env => { s with srv := s.srv.step cfg ids (.servo env) }
  | .applyMask => { s with activeMask := s.requestedMask }
  | .online mask => { s with onlineMask := mask }
  | .readStop => { s with genRead := some s.srv.pub.disarmGen }
  | .publish lastCmdSeq => s.publish lastCmdSeq

/-! ## what the acknowledgements mean -/

/-- at the start of the calls nothing is on its way -/
structure Opened (s : Link) : Prop where
  requests : s.requests = []
  served : s.served = 0
  lastDisarm : s.lastDisarm = 0
  masking : s.masking = none
  replies : s.replies = []
  statusQ : s.statusQ = []
  pc : s.pc = .idle
  genRead : s.genRead = none
  stop : s.stopGen ≤ s.srv.pub.disarmGen
  samples : ∀ x ∈ s.samples, x.stopGen ≤ s.stopGen
  state : ∀ x ∈ s.state, x.stopGen ≤ s.stopGen

/-- an ack that names an ARM epoch, with no DISARM served since, names the one in force; the ack of a DISARM
names its generation -/
structure Right (s : Link) (r : StatusFrame) : Prop where
  about : r.about < s.served
  stop : s.requests[r.about]? = some .disarm → ∃ d, (r.about, d) ∈ s.disarms ∧ r.seq = low32 d
  arm : r.has flagArmed = true → r.seq ≠ 0 → s.lastDisarm ≤ r.about →
    s.srv.pub.armed = true ∧ r.seq = low32 s.srv.pub.armGen

/-- what the call in progress has sent, and what it has learned -/
def Waits (s : Link) : Prop :=
  match s.pc with
  | .stopping i => s.requests[i]? = some .disarm
  | .confirming i seq => ∃ d, s.requests[i]? = some .disarm ∧ (i, d) ∈ s.disarms ∧ seq = low32 d
  | _ => True

structure Inv (s : Link) : Prop where
  served : s.served ≤ s.requests.length
  lastDisarm : s.lastDisarm ≤ s.served
  stop : s.stopGen ≤ s.srv.pub.disarmGen
  read : ∀ g ∈ s.genRead, s.stopGen ≤ g ∧ g ≤ s.srv.pub.disarmGen
  samples : ∀ x ∈ s.samples, x.stopGen ≤ s.stopGen
  state : ∀ x ∈ s.state, x.stopGen ≤ s.stopGen
  replies : ∀ r ∈ s.replies, s.Right r
  statusQ : ∀ r ∈ s.statusQ, s.Right r
  masking : ∀ x ∈ s.masking, x.1 < s.served ∧ s.requests[x.1]? ≠ some .disarm
  waits : s.Waits

/-- the reply that `enable_all` accepts answers its own ARM, or an ARM that no DISARM has followed at the
server; the reply that `safe_stop` goes on with answers its own DISARM -/
def Answers (s : Link) (status : StatusFrame) : CallPc → Prop
  | .enabling _ =>
    status.has flagFaulted = false → status.has flagArmed = true → status.seq ≠ 0 → s.lastDisarm ≤ status.about
  | .stopping i => status.has flagArmed = false → status.about = i
  | _ => True

/-- the sample that `safe_stop` accepts is not `2^31` DISARMs old -/
def Recent (s : Link) (x : StateSample) : CallPc → Prop
  | .confirming i _ => ∀ y ∈ s.disarms, y.1 = i → y.2 < x.stopGen + 2 ^ 31
  | _ => True

def Matched (s : Link) : LinkEvent → Prop
  | .take => ∀ status ∈ s.statusQ.head?, s.Answers status s.pc
  | .look => ∀ x ∈ s.state, s.Recent x s.pc
  | _ => True

instance decidableAnswers (s : Link) (f : StatusFrame) : ∀ pc, Decidable (s.Answers f pc)
  | .enabling _ => inferInstanceAs (Decidable (f.has flagFaulted = false → f.has flagArmed = true → f.seq ≠ 0 →
      s.lastDisarm ≤ f.about))
  | .stopping i => inferInstanceAs (Decidable (f.has flagArmed = false → f.about = i))
  | .idle | .confirming _ _ | .masking _ _ => isTrue trivial

instance decidableRecent (s : Link) (x : StateSample) : ∀ pc, Decidable (s.Recent x pc)
  | .confirming i _ => inferInstanceAs (Decidable (∀ y ∈ s.disarms, y.1 = i → y.2 < x.stopGen + 2 ^ 31))
  | .idle | .enabling _ | .stopping _ | .masking _ _ => isTrue trivial

instance decidableMatched (s : Link) : ∀ e, Decidable (s.Matched e)
  | .take => inferInstanceAs (Decidable (∀ status ∈ s.statusQ.head?, s.Answers status s.pc))
  | .look => inferInstanceAs (Decidable (∀ x ∈ s.state, s.Recent x s.pc))
  | .call _ | .deliver | .timeout | .giveUp | .arrive _ | .control _ | .maskAnswer _ | .servo _ | .applyMask
  | .online _ | .readStop | .publish _ => isTrue trivial

/-! ## one step -/

/-- what every step keeps of the past -/
structure Later (s s' : Link) : Prop where
  served : s.served ≤ s'.served
  requests : s.requests <+: s'.requests
  disarms : ∀ x ∈ s.disarms, x ∈ s'.disarms
  lastDisarm : s.lastDisarm ≤ s'.lastDisarm
  arm : s'.lastDisarm ≤ s.served → s.srv.pub.armed = true →
    s'.srv.pub.armed = true ∧ s'.srv.pub.armGen = s.srv.pub.armGen

variable {cfg : ServerConfig} {ids : SessionIds} {s s' : Link} {r : StatusFrame}

theorem Later.get (h : Later s s') {i : ℕ} (hi : i < s.requests.length) : s'.requests[i]? = s.requests[i]? := by
  obtain ⟨t, ht⟩ := h.requests
  rw [← ht, List.getElem?_append_left hi]

theorem Right.later (hr : s.Right r) (h : Later s s') (hserved : s.served ≤ s.requests.length) : s'.Right r := by
  refine ⟨hr.about.trans_le h.served, fun hreq => ?_, fun ha hseq hlast => ?_⟩
  case refine_1 =>
    rw [h.get (hr.about.trans_le hserved)] at hreq
    obtain ⟨d, hd, hseq⟩ := hr.stop hreq
    exact ⟨d, h.disarms _ hd, hseq⟩
  case refine_2 =>
    obtain ⟨harmed, hgen⟩ := hr.arm ha hseq (h.lastDisarm.trans hlast)
    obtain ⟨harmed', hgen'⟩ := h.arm (hlast.trans hr.about.le) harmed
    exact ⟨harmed', by rw [hgen', hgen]⟩

theorem Waits.later (hw : s.Waits) (h : Later s s') (hpc : s'.pc = s.pc) : s'.Waits := by
  unfold Waits at hw ⊢
  rw [hpc]
  cases hs : s.pc with
  | stopping i =>
    rw [hs] at hw
    dsimp only at hw ⊢
    rw [h.get (List.getElem?_eq_some_iff.mp hw).1, hw]
  | confirming i seq =>
    rw [hs] at hw
    obtain ⟨d, hreq, hd, hseq⟩ := hw
    refine ⟨d, ?_, h.disarms _ hd, hseq⟩
    rw [h.get (List.getElem?_eq_some_iff.mp hreq).1, hreq]
  | _ => trivial

/-- a step of the client that sends nothing -/
theorem Later.client (hserved : s'.served = s.served) (hreq : s'.requests = s.requests)
    (hdis : s'.disarms = s.disarms) (hlast : s'.lastDisarm = s.lastDisarm) (hpub : s'.srv.pub = s.srv.pub) :
    Later s s' := by
  refine ⟨hserved.ge, hreq ▸ List.prefix_rfl, fun x hx => hdis ▸ hx, hlast.ge, fun _ ha => ?_⟩
  rw [hpub]
  exact ⟨ha, rfl⟩

/-! ## steps of the client -/

/-- the client's own fields change, but for what it has sent -/
theorem Inv.client (h : Inv s) (hl : Later s s') (hserved : s'.served ≤ s'.requests.length)
    (hlast : s'.lastDisarm = s.lastDisarm)
    (hserver : s'.served = s.served ∧ s'.masking = s.masking ∧ s'.genRead = s.genRead ∧ s'.stopGen = s.stopGen ∧
      s'.samples = s.samples ∧ s'.srv = s.srv)
    (hreplies : ∀ r, r ∈ s'.replies ∨ r ∈ s'.statusQ → r ∈ s.replies ∨ r ∈ s.statusQ)
    (hstate : ∀ x ∈ s'.state, x ∈ s.state ∨ x ∈ s.samples) (hwaits : s'.Waits) : Inv s' := by
  obtain ⟨h1, h2, h3, h4, h5, h6⟩ := hserver
  have hright : ∀ r, r ∈ s'.replies ∨ r ∈ s'.statusQ → s'.Right r := by
    intro r hr
    rcases hreplies r hr with hr | hr
    · exact (h.replies r hr).later hl h.served
    · exact (h.statusQ r hr).later hl h.served
  refine ⟨hserved, ?_, ?_, ?_, ?_, ?_, fun r hr => hright r (.inl hr), fun r hr => hright r (.inr hr), ?_, hwaits⟩
  · rw [hlast, h1]
    exact h.lastDisarm
  · rw [h4, h6]
    exact h.stop
  · rw [h3, h4, h6]
    exact h.read
  · rw [h4, h5]
    exact h.samples
  · intro x hx
    rw [h4]
    rcases hstate x hx with hx | hx
    · exact h.state x hx
    · exact h.samples x hx
  · intro x hx
    rw [h2] at hx
    obtain ⟨hlt, hne⟩ := h.masking x hx
    exact ⟨h1 ▸ hlt, by rwa [hl.get (hlt.trans_le h.served)]⟩

theorem Inv.quiet (h : Inv s)
    (hlink : s'.served = s.served ∧ s'.requests = s.requests ∧ s'.disarms = s.disarms ∧
      s'.lastDisarm = s.lastDisarm)
    (hserver : s'.masking = s.masking ∧ s'.genRead = s.genRead ∧ s'.stopGen = s.stopGen ∧
      s'.samples = s.samples ∧ s'.srv = s.srv)
    (hreplies : ∀ r, r ∈ s'.replies ∨ r ∈ s'.statusQ → r ∈ s.replies ∨ r ∈ s.statusQ)
    (hstate : ∀ x ∈ s'.state, x ∈ s.state ∨ x ∈ s.samples) (hwaits : s'.Waits) : Inv s' := by
  obtain ⟨h1, h2, h3, h4⟩ := hlink
  refine h.client (.client h1 h2 h3 h4 ?_) ?_ h4 ⟨h1, hserver⟩ hreplies hstate hwaits
  · rw [hserver.2.2.2.2]
  · rw [h1, h2]
    exact h.served

theorem Inv.ends (h : Inv s) (x : CallResult) : Inv (s.ends x) :=
  h.quiet ⟨rfl, rfl, rfl, rfl⟩ ⟨rfl, rfl, rfl, rfl, rfl⟩ (fun _ hr => hr) (fun _ hx => .inl hx) trivial

theorem Inv.roundtrip (h : Inv s) (r : ControlRequest) {pc : CallPc}
    (hpc : pc = .stopping s.requests.length → r = .disarm) (hp : ∀ i seq, pc ≠ .confirming i seq)
    (hi : ∀ i, pc = .stopping i → i = s.requests.length) : Inv (s.roundtrip r pc) := by
  have hl : Later s (s.roundtrip r pc) :=
    ⟨le_rfl, List.prefix_append _ _, fun _ hx => hx, le_rfl, fun _ ha => ⟨ha, rfl⟩⟩
  refine h.client hl ?_ rfl ⟨rfl, rfl, rfl, rfl, rfl, rfl⟩ ?_ (fun _ hx => .inl hx) ?_
  · exact h.served.trans hl.requests.length_le
  · rintro x (hx | hx)
    · exact .inl hx
    · exact absurd hx List.not_mem_nil
  · show Waits _
    unfold Waits
    cases hq : pc with
    | stopping i =>
      obtain rfl := hi i hq
      obtain rfl := hpc hq
      exact List.getElem?_concat_length
    | confirming i seq => exact absurd hq (hp i seq)
    | _ => trivial

theorem Inv.call (h : Inv s) (c : Call) : Inv (s.call cfg c) := by
  unfold Link.call
  split
  case isTrue => exact h
  case isFalse =>
    cases c with
    | enableAll =>
      show Inv s.enableAll
      unfold Link.enableAll
      split
      · exact h.ends _
      case h_2 x _ =>
        have hseed : Inv (s.seedCommandSeq x) := by
          unfold seedCommandSeq
          split
          · exact h
          · exact h.quiet ⟨rfl, rfl, rfl, rfl⟩ ⟨rfl, rfl, rfl, rfl, rfl⟩ (fun _ hr => hr) (fun _ hx => .inl hx)
              h.waits
        exact hseed.roundtrip .arm nofun nofun nofun
    | safeStop =>
      refine h.roundtrip .disarm (fun _ => rfl) nofun fun i hi => ?_
      cases hi
      rfl
    | setActiveMask mask =>
      show Inv (s.setActiveMask cfg.n mask)
      unfold Link.setActiveMask
      split
      · exact h.ends _
      · split
        · exact h.ends _
        · exact h.roundtrip _ nofun nofun nofun

theorem Inv.deliver (h : Inv s) : Inv s.deliver := by
  unfold Link.deliver
  split
  · exact h
  case h_2 r rest hr =>
    refine h.quiet ⟨rfl, rfl, rfl, rfl⟩ ⟨rfl, rfl, rfl, rfl, rfl⟩ ?_ (fun _ hx => .inl hx) (h.waits.later ?_ rfl)
    · intro x hx
      rw [hr, List.mem_cons]
      simp only [List.mem_append, List.mem_singleton] at hx
      tauto
    · exact .client rfl rfl rfl rfl rfl

theorem Inv.take (h : Inv s) (hm : s.Matched .take) : Inv s.take := by
  unfold Link.take
  split
  · exact h
  case h_2 status rest hq =>
    have hright : s.Right status := h.statusQ status (hq ▸ List.mem_cons_self)
    have hmatch := hm status (by rw [hq]; rfl)
    -- every way on has taken the status and is the same for the server
    have hafter : ∀ s' : Link, (s'.served = s.served ∧ s'.requests = s.requests ∧ s'.disarms = s.disarms ∧
        s'.lastDisarm = s.lastDisarm) → (s'.masking = s.masking ∧ s'.genRead = s.genRead ∧ s'.stopGen = s.stopGen ∧
        s'.samples = s.samples ∧ s'.srv = s.srv) → s'.replies = s.replies → s'.statusQ = rest →
        s'.state = s.state → s'.Waits → Inv s' := by
      intro s' hlink hserver hreplies hrest hstate hwaits
      refine h.quiet hlink hserver ?_ (fun x hx => .inl (hstate ▸ hx)) hwaits
      rintro x (hx | hx)
      · exact .inl (hreplies ▸ hx)
      · exact .inr (hq ▸ List.mem_cons_of_mem _ (hrest ▸ hx))
    have hidle : ∀ s' : Link, s'.pc = .idle → s'.Waits := by
      intro s' hpc
      unfold Waits
      rw [hpc]
      trivial
    dsimp only
    split
    case h_1 request hpc =>
      unfold onEnabled
      split
      · exact hafter _ ⟨rfl, rfl, rfl, rfl⟩ ⟨rfl, rfl, rfl, rfl, rfl⟩ rfl rfl rfl (hidle _ rfl)
      · split
        all_goals exact hafter _ ⟨rfl, rfl, rfl, rfl⟩ ⟨rfl, rfl, rfl, rfl, rfl⟩ rfl rfl rfl (hidle _ rfl)
    case h_2 request hpc =>
      unfold onStopped
      dsimp only
      split
      · exact hafter _ ⟨rfl, rfl, rfl, rfl⟩ ⟨rfl, rfl, rfl, rfl, rfl⟩ rfl rfl rfl (hidle _ rfl)
      case isFalse harmed =>
        refine hafter _ ⟨rfl, rfl, rfl, rfl⟩ ⟨rfl, rfl, rfl, rfl, rfl⟩ rfl rfl rfl ?_
        rw [hpc] at hmatch
        obtain rfl : status.about = request := hmatch (Bool.not_eq_true _ ▸ harmed)
        have hsent : s.requests[status.about]? = some .disarm := by
          have hw := h.waits
          unfold Waits at hw
          rw [hpc] at hw
          exact hw
        obtain ⟨d, hd, hseq⟩ := hright.stop hsent
        exact ⟨d, hsent, hd, hseq⟩
    case h_3 request mask hpc =>
      unfold onMasked
      split
      all_goals exact hafter _ ⟨rfl, rfl, rfl, rfl⟩ ⟨rfl, rfl, rfl, rfl, rfl⟩ rfl rfl rfl (hidle _ rfl)
    all_goals exact h

theorem Inv.timeout (h : Inv s) : Inv s.timeout := by
  unfold Link.timeout
  split
  · exact h
  · split
    any_goals exact h.ends _
    all_goals exact h

theorem Inv.look (h : Inv s) : Inv s.look := by
  unfold Link.look
  split
  · split
    · exact h.ends _
    · exact h
  · exact h

theorem Inv.giveUp (h : Inv s) : Inv s.giveUp := by
  unfold Link.giveUp
  split
  · exact h.ends _
  · exact h

theorem Inv.arrive (h : Inv s) (k : ℕ) : Inv (s.arrive k) := by
  unfold Link.arrive
  split
  · exact h
  case h_2 x hx =>
    refine h.quiet ⟨rfl, rfl, rfl, rfl⟩ ⟨rfl, rfl, rfl, rfl, rfl⟩ (fun _ hr => hr) ?_
      (h.waits.later (.client rfl rfl rfl rfl rfl) rfl)
    rintro y hy
    obtain rfl := Option.mem_some_iff.mp hy
    exact .inr (List.mem_of_getElem? hx)

/-! ## steps of the server -/

/-- a step of the server, with the replies that it adds -/
theorem Inv.server (h : Inv s) (hl : Later s s') (hreq : s'.requests = s.requests)
    (hserved : s'.served ≤ s.requests.length) (hlast : s'.lastDisarm ≤ s'.served)
    (hclient : s'.statusQ = s.statusQ ∧ s'.state = s.state ∧ s'.pc = s.pc)
    (hgen : s.stopGen ≤ s'.stopGen ∧ s'.stopGen ≤ s'.srv.pub.disarmGen)
    (hread : ∀ g ∈ s'.genRead, s'.stopGen ≤ g ∧ g ≤ s'.srv.pub.disarmGen)
    (hsamples : ∀ x ∈ s'.samples, x ∈ s.samples ∨ x.stopGen ≤ s'.stopGen)
    (hreplies : ∀ r ∈ s'.replies, r ∈ s.replies ∨ s'.Right r)
    (hmasking : ∀ x ∈ s'.masking, x ∈ s.masking ∨ (x.1 < s'.served ∧ s'.requests[x.1]? ≠ some .disarm)) :
    Inv s' := by
  obtain ⟨h1, h2, h3⟩ := hclient
  refine ⟨hreq ▸ hserved, hlast, hgen.2, hread, fun x hx => ?_, fun x hx => ?_, fun r hr => ?_, fun r hr => ?_,
    fun x hx => ?_, h.waits.later hl h3⟩
  · rcases hsamples x hx with hx | hx
    · exact (h.samples x hx).trans hgen.1
    · exact hx
  · exact (h.state x (h2 ▸ hx)).trans hgen.1
  · rcases hreplies r hr with hr | hr
    · exact (h.replies r hr).later hl h.served
    · exact hr
  · exact (h.statusQ r (h1 ▸ hr)).later hl h.served
  · rcases hmasking x hx with hx | hx
    · obtain ⟨hlt, hne⟩ := h.masking x hx
      exact ⟨hlt.trans_le hl.served, by rwa [hreq]⟩
    · exact hx

/-- a step of the server between two frames -/
theorem Inv.between (h : Inv s) {srv : Server} (hk : Server.KeepsArm s.srv srv) : Inv { s with srv := srv } := by
  have hdis : srv.pub.disarmGen = s.srv.pub.disarmGen := hk.disarmGen
  refine h.server ⟨le_rfl, List.prefix_rfl, fun _ hx => hx, le_rfl, fun _ ha => ?_⟩ rfl h.served h.lastDisarm
    ⟨rfl, rfl, rfl⟩ ⟨le_rfl, ?_⟩ ?_ (fun _ hx => .inl hx) (fun _ hr => .inl hr) (fun _ hx => .inl hx)
  · exact ⟨hk.armed.trans ha, hk.armGen⟩
  · show s.stopGen ≤ srv.pub.disarmGen
    rw [hdis]
    exact h.stop
  · intro g hg
    show s.stopGen ≤ g ∧ g ≤ srv.pub.disarmGen
    rw [hdis]
    exact h.read g hg

/-- the replies to the frame that is served now -/
theorem serveFrame_replies {body : Body} {env : CtlEnv} {new : List Server.Ack}
    (hnew : (s.srv.frame cfg { body := body } env).acks = s.srv.acks ++ new) :
    (s.serveFrame cfg body env).replies = s.replies ++ new.map fun a =>
      { about := s.served, arg := flagsWord a.flags s.onlineMask, seq := a.seq, text := a.text } := by
  show s.replies ++ _ = _
  rw [hnew, List.drop_left]

theorem mem_sent {ok : Bool} {a b : Server.Ack} (h : b ∈ if ok then [a] else []) : b = a := by
  cases ok with
  | false => cases h
  | true => exact List.mem_singleton.mp h

theorem has_flagArmed (f : Flags) (m : BitVec 32) {r : StatusFrame} (hr : r.arg = flagsWord f m) :
    r.has flagArmed = f.armed := by
  unfold StatusFrame.has
  rw [hr]
  cases hf : f.armed with
  | true => exact bne_iff_ne.mpr ((flagsWord_armed f m).mpr hf)
  | false =>
    have hne := (flagsWord_armed f m).not.mpr (by rw [hf]; exact Bool.false_ne_true)
    exact Bool.not_eq_true _ ▸ fun he => hne (bne_iff_ne.mp he)

theorem Inv.arm (h : Inv s) (env : CtlEnv) (hreq : s.requests[s.served]? = some .arm) :
    Inv (s.serveFrame cfg .arm env) := by
  obtain ⟨a, ha⟩ := s.srv.onArm_spec cfg env
  have hlt : s.served < s.requests.length := (List.getElem?_eq_some_iff.mp hreq).1
  have hreplies := @serveFrame_replies cfg s .arm env _ ha.acks
  refine h.server ⟨Nat.le_succ _, List.prefix_rfl, fun _ hx => hx, le_rfl, fun _ harmed => ha.stays harmed⟩ rfl hlt
    (h.lastDisarm.trans (Nat.le_succ _)) ⟨rfl, rfl, rfl⟩ ⟨le_rfl, ?_⟩ ?_ (fun _ hx => .inl hx) ?_ (fun _ hx => .inl hx)
  · show s.stopGen ≤ (s.srv.onArm cfg env).pub.disarmGen
    rw [ha.disarmGen]
    exact h.stop
  · intro g hg
    show s.stopGen ≤ g ∧ g ≤ (s.srv.onArm cfg env).pub.disarmGen
    rw [ha.disarmGen]
    exact h.read g hg
  · intro r hr
    rw [hreplies, List.mem_append] at hr
    refine hr.imp id fun hr => ?_
    obtain ⟨b, hb, rfl⟩ := List.mem_map.mp hr
    obtain rfl := mem_sent hb
    refine ⟨Nat.lt_succ_self _, fun hd => ?_, fun _ hseq _ => ha.names hseq⟩
    rw [show (s.serveFrame cfg .arm env).requests = s.requests from rfl, hreq] at hd
    cases hd

theorem Inv.disarm (h : Inv s) (env : CtlEnv) (hreq : s.requests[s.served]? = some .disarm) :
    Inv { s.serveFrame cfg .disarm env with
      lastDisarm := s.served + 1
      disarms := s.disarms ++ [(s.served, (s.serveFrame cfg .disarm env).srv.pub.disarmGen)] } := by
  obtain ⟨text, hacks, -, hgen⟩ := s.srv.onDisarm_spec env
  have hlt : s.served < s.requests.length := (List.getElem?_eq_some_iff.mp hreq).1
  have hreplies := @serveFrame_replies cfg s .disarm env _ hacks
  have hgen' : (s.serveFrame cfg .disarm env).srv.pub.disarmGen = s.srv.pub.disarmGen + 1 := hgen
  refine h.server ⟨Nat.le_succ _, List.prefix_rfl, fun _ hx => List.mem_append_left _ hx,
      h.lastDisarm.trans (Nat.le_succ _), fun hlast => ?_⟩ rfl hlt le_rfl ⟨rfl, rfl, rfl⟩ ⟨le_rfl, ?_⟩ ?_ (fun _ hx => .inl hx) ?_ (fun _ hx => .inl hx)
  · exact absurd hlast (Nat.not_succ_le_self _)
  · rw [hgen']
    exact h.stop.trans (Nat.le_succ _)
  · intro g hg
    rw [hgen']
    exact ⟨(h.read g hg).1, (h.read g hg).2.trans (Nat.le_succ _)⟩
  · intro r hr
    rw [show Link.replies _ = (s.serveFrame cfg .disarm env).replies from rfl, hreplies, List.mem_append] at hr
    refine hr.imp id fun hr => ?_
    obtain ⟨b, hb, rfl⟩ := List.mem_map.mp hr
    obtain rfl := mem_sent hb
    refine ⟨Nat.lt_succ_self _, fun _ => ⟨_, List.mem_append_right _ List.mem_cons_self, ?_⟩, fun harmed => ?_⟩
    · rw [hgen']
    · rw [has_flagArmed _ _ rfl] at harmed
      cases harmed

/-- a SET_ACTIVE has been read -/
theorem Inv.readMask (h : Inv s) {mask : BitVec 32} (hreq : s.requests[s.served]? = some (.setActive mask))
    (hl : Later s s') (hs : s'.requests = s.requests ∧ s'.served = s.served + 1 ∧ s'.lastDisarm = s.lastDisarm)
    (hclient : s'.statusQ = s.statusQ ∧ s'.state = s.state ∧ s'.pc = s.pc)
    (hgen : s'.stopGen = s.stopGen ∧ s'.genRead = s.genRead ∧ s'.samples = s.samples ∧
      s'.srv.pub = s.srv.pub)
    (hreplies : ∀ r ∈ s'.replies, r ∈ s.replies ∨ (r.about = s.served ∧ r.seq = 0))
    (hmasking : ∀ x ∈ s'.masking, x ∈ s.masking ∨ x.1 = s.served) : Inv s' := by
  obtain ⟨h1, h2, h3⟩ := hs
  obtain ⟨h4, h5, h6, h7⟩ := hgen
  have hlt : s.served < s.requests.length := (List.getElem?_eq_some_iff.mp hreq).1
  have hne : s'.requests[s.served]? ≠ some .disarm := by
    rw [h1, hreq]
    nofun
  refine h.server hl h1 (h2 ▸ hlt) ?_ hclient ⟨h4.ge, ?_⟩ ?_ (fun _ hx => .inl (h6 ▸ hx)) ?_ ?_
  · rw [h2, h3]
    exact h.lastDisarm.trans (Nat.le_succ _)
  · rw [h4, h7]
    exact h.stop
  · rw [h5, h4, h7]
    exact h.read
  · intro r hr
    refine (hreplies r hr).imp id fun ⟨habout, hseq⟩ => ?_
    rw [← habout] at hne
    exact ⟨by omega, fun hd => absurd hd hne, fun _ hz => absurd hseq hz⟩
  · intro x hx
    refine (hmasking x hx).imp id fun he => ?_
    rw [he]
    exact ⟨by omega, hne⟩

theorem Inv.setActive (h : Inv s) (env : CtlEnv) {mask : BitVec 32}
    (hreq : s.requests[s.served]? = some (.setActive mask)) : Inv (s.onSetActive cfg mask env) := by
  have hl : ∀ s' : Link, s'.served = s.served + 1 → s'.requests = s.requests → s'.disarms = s.disarms →
      s'.lastDisarm = s.lastDisarm → s'.srv.pub = s.srv.pub → Later s s' := by
    intro s' h1 h2 h3 h4 h5
    refine ⟨by omega, h2 ▸ List.prefix_rfl, fun x hx => h3 ▸ hx, h4.ge, fun _ ha => ?_⟩
    rw [h5]
    exact ⟨ha, rfl⟩
  have hreply (text : String) (ok : Bool) :
      Inv (({ s with srv := { s.srv with pc := .top }, served := s.served + 1 } : Link).reply s.served
        s.activeMask text ok) := by
    cases ok with
    | false =>
      exact h.readMask hreq (hl _ rfl rfl rfl rfl rfl) ⟨rfl, rfl, rfl⟩ ⟨rfl, rfl, rfl⟩ ⟨rfl, rfl, rfl, rfl⟩
        (fun _ hr => .inl hr) (fun _ hx => .inl hx)
    | true =>
      refine h.readMask hreq (hl _ rfl rfl rfl rfl rfl) ⟨rfl, rfl, rfl⟩ ⟨rfl, rfl, rfl⟩ ⟨rfl, rfl, rfl, rfl⟩
        (fun r hr => ?_) (fun _ hx => .inl hx)
      refine (List.mem_append.mp hr).imp id fun hr => ?_
      obtain rfl := List.mem_singleton.mp hr
      exact ⟨rfl, rfl⟩
  unfold onSetActive
  dsimp only
  split
  · exact hreply _ _
  · split
    · exact hreply _ _
    · refine h.readMask hreq (hl _ rfl rfl rfl rfl rfl) ⟨rfl, rfl, rfl⟩ ⟨rfl, rfl, rfl⟩ ⟨rfl, rfl, rfl, rfl⟩
        (fun _ hr => .inl hr) fun x hx => .inr ?_
      obtain rfl := Option.mem_some_iff.mp hx
      rfl

theorem Inv.maskAnswer (h : Inv s) (ok : Bool) : Inv (s.maskAnswer ok) := by
  unfold Link.maskAnswer
  split
  · exact h
  case h_2 about desired hm =>
    have hmask := h.masking _ (Option.mem_def.mpr hm)
    have hl (s' : Link) (h1 : s'.served = s.served) (h2 : s'.requests = s.requests) (h3 : s'.disarms = s.disarms)
        (h4 : s'.lastDisarm = s.lastDisarm) (h5 : s'.srv = s.srv) : Later s s' :=
      .client h1 h2 h3 h4 (by rw [h5])
    cases ok with
    | false =>
      exact h.server (hl _ rfl rfl rfl rfl rfl) rfl h.served h.lastDisarm ⟨rfl, rfl, rfl⟩ ⟨le_rfl, h.stop⟩ h.read
        (fun _ hx => .inl hx) (fun _ hr => .inl hr) nofun
    | true =>
      refine h.server (hl _ rfl rfl rfl rfl rfl) rfl h.served h.lastDisarm ⟨rfl, rfl, rfl⟩ ⟨le_rfl, h.stop⟩ h.read
        (fun _ hx => .inl hx) (fun r hr => ?_) nofun
      refine (List.mem_append.mp hr).imp id fun hr => ?_
      obtain rfl := List.mem_singleton.mp hr
      exact ⟨hmask.1, fun hd => absurd hd hmask.2, fun _ hz => absurd rfl hz⟩

theorem Inv.control (h : Inv s) (env : CtlEnv) : Inv (s.control cfg ids env) := by
  unfold Link.control
  split
  case isTrue => exact h
  case isFalse =>
    split
    · exact h.between (Server.controlStep_keepsArm cfg ids s.srv _ rfl)
    case h_2 hreq =>
      split at hreq
      · exact h.arm env hreq
      · cases hreq
    case h_3 hreq =>
      split at hreq
      · exact h.disarm env hreq
      · cases hreq
    case h_4 mask hreq =>
      split at hreq
      · exact h.setActive env hreq
      · cases hreq

theorem Inv.publish (h : Inv s) (lastCmdSeq : ℕ) : Inv (s.publish lastCmdSeq) := by
  unfold Link.publish
  split
  · exact h
  case h_2 gen hg =>
    obtain ⟨hlow, hhigh⟩ := h.read gen (Option.mem_def.mpr hg)
    have hstop : s.stopGen ≤ (if s.srv.pub.armed then s.stopGen else gen) ∧
        (if s.srv.pub.armed then s.stopGen else gen) ≤ s.srv.pub.disarmGen := by
      split
      · exact ⟨le_rfl, h.stop⟩
      · exact ⟨hlow, hhigh⟩
    refine h.server (.client rfl rfl rfl rfl rfl) rfl h.served h.lastDisarm ⟨rfl, rfl, rfl⟩ hstop nofun
      (fun x hx => ?_) (fun _ hr => .inl hr) (fun _ hx => .inl hx)
    refine (List.mem_append.mp hx).imp id fun hx => ?_
    obtain rfl := List.mem_singleton.mp hx
    exact le_rfl

theorem Inv.step (h : Inv s) {e : LinkEvent} (hm : s.Matched e) : Inv (s.step cfg ids e) := by
  have hown : ∀ s' : Link, Later s s' → s'.requests = s.requests → s'.served = s.served →
      s'.lastDisarm = s.lastDisarm → (s'.statusQ = s.statusQ ∧ s'.state = s.state ∧ s'.pc = s.pc) →
      s'.stopGen = s.stopGen → s'.srv.pub = s.srv.pub →
      (∀ g ∈ s'.genRead, g ∈ s.genRead ∨ g = s.srv.pub.disarmGen) → s'.samples = s.samples →
      s'.replies = s.replies → s'.masking = s.masking → Inv s' := by
    intro s' hl h1 h2 h3 hclient h4 h5 hgen h6 h7 h8
    refine h.server hl h1 (h2 ▸ h.served) (by rw [h2, h3]; exact h.lastDisarm) hclient ⟨h4.ge, ?_⟩ ?_
      (fun _ hx => .inl (h6 ▸ hx)) (fun _ hr => .inl (h7 ▸ hr)) (fun _ hx => .inl (h8 ▸ hx))
    · rw [h4, h5]
      exact h.stop
    · intro g hg
      rw [h4, h5]
      rcases hgen g hg with hg | rfl
      · exact h.read g hg
      · exact ⟨h.stop, le_rfl⟩
  cases e with
  | call c => exact h.call c
  | deliver => exact h.deliver
  | take => exact h.take hm
  | timeout => exact h.timeout
  | look => exact h.look
  | giveUp => exact h.giveUp
  | arrive k => exact h.arrive k
  | control env => exact h.control env
  | maskAnswer ok => exact h.maskAnswer ok
  | servo env => exact h.between (Server.servo_keepsArm cfg ids s.srv env)
  | applyMask =>
    exact hown _ (.client rfl rfl rfl rfl rfl) rfl rfl rfl ⟨rfl, rfl, rfl⟩ rfl rfl (fun _ hg => .inl hg) rfl rfl rfl
  | online mask =>
    exact hown _ (.client rfl rfl rfl rfl rfl) rfl rfl rfl ⟨rfl, rfl, rfl⟩ rfl rfl (fun _ hg => .inl hg) rfl rfl rfl
  | readStop =>
    refine hown _ (.client rfl rfl rfl rfl rfl) rfl rfl rfl ⟨rfl, rfl, rfl⟩ rfl rfl (fun g hg => ?_) rfl rfl rfl
    exact .inr (Option.mem_some_iff.mp hg).symm
  | publish lastCmdSeq => exact h.publish lastCmdSeq

theorem Opened.inv (h : Opened s) : Inv s := by
  have hq : ∀ r, r ∉ s.replies ∧ r ∉ s.statusQ := by
    intro r
    rw [h.replies, h.statusQ]
    exact ⟨List.not_mem_nil, List.not_mem_nil⟩
  refine ⟨by rw [h.served]; exact Nat.zero_le _, by rw [h.lastDisarm]; exact Nat.zero_le _, h.stop, ?_, h.samples, h.state,
    fun r hr => absurd hr (hq r).1, fun r hr => absurd hr (hq r).2, ?_, ?_⟩
  · rw [h.genRead]
    nofun
  · rw [h.masking]
    nofun
  · unfold Waits
    rw [h.pc]
    trivial

/-! ## the calls -/

/-- what a call reports when it ends -/
def Kept (s : Link) : CallResult → Prop
  | .enabled _ => s.srv.pub.armed = true ∧ s.armEpoch = low32 s.srv.pub.armGen
  | .stopped i true => ∃ d, s.requests[i]? = some .disarm ∧ (i, d) ∈ s.disarms ∧ d ≤ s.stopGen
  | .stopped _ false | .masked _ | .raised _ => True

/-- a server of one joint -/
def oneJoint : ServerConfig where
  n := 1
  holdNs := 100000000
  faultNs := 1000000000
  supportsReference := true
  groupEnabled := false
  groupMember := 0
  groupMembers := 1
  groupMaxAgeNs := 0
  groupMinLeadNs := 0
  jointOrderHash := 0
  instanceId := "arm"
  modelId := ""
  capabilities := 0
  setupFailed := none
  sha256 _ := 0

/-- a session after its CLAIM, with a first state -/
def claimed : Link :=
  { srv := { pub := { claimOk := true }, pc := .recv }, state := some ⟨0, false, 0, 0⟩ }

end Link

end ArmControl.RemoteRt
