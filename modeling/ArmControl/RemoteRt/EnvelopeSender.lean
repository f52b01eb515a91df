import ArmControl.Lib.Run
import ArmControl.Lib.Since
import ArmControl.RemoteRt.Horizon

/-!
# The envelope sender (`ReferenceHorizon._send_envelope`)

The supervisor publishes decisions; a thread of its own sends them at a fixed rate.  They share the
horizon's fields without a lock, except for the decision itself.

* `EnvelopeSender`      the horizon, the link's scope and newest state, the sender's position, the log;
* `supervise`, `send`   one access of either thread; `stage` writes its fields one by one;
* `KeepsFence`          what the supervisor must not do while the sender is at work;
* `Sound`               what an entry of the log promises;
* `envelopes_fenced`    then no envelope is re-stamped, and none is sent for a cancelled reference.

Times are in nanoseconds.  The sequence number is the sender's own count.
-/

namespace ArmControl.RemoteRt
open ArmControl.Rt ArmControl.Execution History

/-- what an envelope sends of a command -/
structure EnvelopeCommand where
  torque : List ℚ
  kp : List ℚ
  kd : List ℚ
  deriving DecidableEq, Inhabited

/-- one published decision -/
structure Decision where
  command : EnvelopeCommand
  referenceId : ℕ
  revision : ℕ
  phase : ℚ
  sampleReceivedAt : ℕ
  deriving DecidableEq, Inhabited

/-- `VALID_FOR_S` and `PHASE_WINDOW_S` -/
def validForNs : ℕ := 100000000
def validForUs : ℕ := 100000
def phaseWindowUs : ℕ := 100000

structure Envelope where
  command : EnvelopeCommand
  referenceId : ℕ
  revision : ℕ
  phase : ℚ
  ageUs : ℕ
  validForUs : ℕ
  phaseWindowUs : ℕ
  sessionId : ℕ
  armEpoch : ℕ
  seq : ℕ
  deriving DecidableEq, Inhabited

/-- one pass of the sender: the decision it took, the state it read, and that state's reference -/
structure Pass where
  decision : Decision
  state : RtState
  reference : RtReference
  deriving DecidableEq, Inhabited

/-- what the sender reads next -/
inductive SenderPc where
  | idle
  | age (d : Decision)
  | scope (d : Decision)
  | state (d : Decision)
  | session (p : Pass)
  | epoch (p : Pass)
  | interrupt (p : Pass)
  | error (p : Pass)
  | owner (p : Pass)
  | name (p : Pass)
  | send (p : Pass) (session : ℕ)
  | record (referenceId : ℕ) (seq : Option ℕ)
  deriving DecidableEq, Inhabited

namespace SenderPc

/-- the decision the sender holds -/
def held : SenderPc → Option Decision
  | age d | scope d | state d => some d
  | session p | epoch p | interrupt p | error p | owner p | name p | send p _ => some p.decision
  | idle | record _ _ => none

def pass : SenderPc → Option Pass
  | session p | epoch p | interrupt p | error p | owner p | name p | send p _ => some p
  | _ => none

/-- it found the state's session in the horizon, and has not named it yet -/
def comparedSession : SenderPc → Option Pass
  | epoch p | interrupt p | error p | owner p | name p => some p
  | _ => none

/-- it found the state's epoch in the horizon -/
def comparedEpoch : SenderPc → Option Pass
  | interrupt p | error p | owner p | name p | send p _ => some p
  | _ => none

/-- no interrupt was seen, or the envelope is for an older endpoint -/
def unfenced : SenderPc → Option Pass
  | error p | name p | send p _ => some p
  | _ => none

variable {pc : SenderPc} {p : Pass}

theorem held_of_pass (h : pc.pass = some p) : pc.held = some p.decision := by
  cases pc <;> cases h <;> rfl

theorem pass_of_comparedSession (h : pc.comparedSession = some p) : pc.pass = some p := by
  cases pc <;> cases h <;> rfl

theorem pass_of_comparedEpoch (h : pc.comparedEpoch = some p) : pc.pass = some p := by
  cases pc <;> cases h <;> rfl

theorem pass_of_unfenced (h : pc.unfenced = some p) : pc.pass = some p := by
  cases pc <;> cases h <;> rfl

end SenderPc

structure Sent where
  envelope : Envelope
  /-- the pass it came from, and when -/
  pass : Pass
  at_ : ℕ
  deriving DecidableEq, Inhabited

inductive SenderEntry where
  | published (d : Decision)
  | unpublished
  | received (st : RtState)
  | cancelled (referenceId : ℕ)
  | took (d : Decision)
  | read (st : RtState)
  | sent (x : Sent)
  deriving DecidableEq, Inhabited

structure EnvelopeSender where
  h : Horizon := {}
  /-- inside `stage`: the horizon it makes, and how many of the fields the sender reads are written -/
  staging : Option (Horizon × ℕ) := none
  decision : Option Decision := none
  closed : Bool := false
  /-- the link: its session, its ARM epoch (0 after a DISARM), the newest state, the command count -/
  sessionId : ℕ := 0
  armEpoch : ℕ := 0
  state : Option RtState := none
  seq : ℕ := 0
  now : ℕ := 0
  pc : SenderPc := .idle
  last : Option (ℕ × Option ℕ) := none
  log : List SenderEntry := []

/-- a call of the supervisor; the parts of `poll` are calls of their own -/
inductive SupervisorCall where
  | publish (d : Decision)
  | unpublish
  | stage (key : Option ExecutionId) (trajectory : JointTrajectory) (deadline : Option ℕ)
      (stream terminal : Bool)
  /-- the next write inside `stage` -/
  | proceed
  | approve
  | cancel
  | pollJob (r : Option JobResult)
  | pollCancel (r : Option RetireReply)
  | observe
  | giveUp
  | refill
  | close

inductive SenderEvent where
  | call (c : SupervisorCall)
  | send
  | receive (st : RtState)
  /-- the link: HELLO, ARM and DISARM on the other workers -/
  | link (sessionId armEpoch : ℕ)
  | time (now : ℕ)

namespace EnvelopeSender

def note (s : EnvelopeSender) (e : SenderEntry) : EnvelopeSender := { s with log := s.log ++ [e] }

/-- the supervisor, outside `stage` -/
def supervise (s : EnvelopeSender) : SupervisorCall → EnvelopeSender
  | .publish d => { s with decision := some d }.note (.published d)
  | .unpublish => { s with decision := none }.note .unpublished
  | .stage key trajectory deadline stream terminal =>
    match s.h.stage key trajectory deadline stream terminal s.sessionId s.armEpoch with
    | .error _ => s
    | .ok h => { s with h := { s.h with id := h.id }, staging := some (h, 0) }
  | .proceed => s
  | .approve => { s with h := (s.h.approve s.now).toOption.getD s.h }
  | .cancel =>
    if s.h.id = 0 then s else { s with h := s.h.cancel }.note (.cancelled s.h.id)
  | .pollJob r => { s with h := s.h.pollJob r }
  | .pollCancel r => { s with h := s.h.pollCancel r }
  | .observe => { s with h := s.h.observe s.state }
  | .giveUp => if s.h.unresolved s.now then { s with h := s.h.giveUp } else s
  | .refill => { s with h := s.h.refill s.now }
  | .close =>
    { s with h := { s.h with interrupt := true }, closed := true, decision := none }.note .unpublished

/-- `stage` goes on: session, epoch, a new interrupt event, then the rest -/
def proceed (s : EnvelopeSender) (h : Horizon) (written : ℕ) : EnvelopeSender :=
  match written with
  | 0 => { s with h := { s.h with session := h.session }, staging := some (h, 1) }
  | 1 => { s with h := { s.h with epoch := h.epoch }, staging := some (h, 2) }
  | 2 => { s with h := { s.h with interrupt := h.interrupt }, staging := some (h, 3) }
  | _ => { s with h := h, staging := none }

/-- `_reference_scope`; the link negotiated the reference mode -/
def inScope (s : EnvelopeSender) (session epoch : ℕ) : Bool :=
  decide (epoch ≠ 0 ∧ session = s.sessionId ∧ epoch = s.armEpoch)

/-- `apply_reference_envelope` -/
def applyEnvelope (s : EnvelopeSender) (p : Pass) (session : ℕ) : EnvelopeSender :=
  if s.inScope session s.h.epoch = false then { s with pc := .idle }
  else
    let seq := (s.seq + 1) % 2 ^ 32
    let ageUs := (s.now - p.decision.sampleReceivedAt) / 1000
    if validForUs < ageUs then { s with seq := seq, pc := .record p.decision.referenceId none }
    else
      { s with seq := seq, pc := .record p.decision.referenceId (some seq) }.note
        (.sent
          { envelope :=
              { command := p.decision.command, referenceId := p.decision.referenceId
                revision := p.decision.revision, phase := p.decision.phase, ageUs := ageUs
                validForUs := validForUs, phaseWindowUs := phaseWindowUs, sessionId := session
                armEpoch := s.h.epoch, seq := seq }
            pass := p, at_ := s.now })

/-- one access of the sender -/
def send (s : EnvelopeSender) : EnvelopeSender :=
  match s.pc with
  | .idle =>
    if s.closed then s
    else
      match s.decision with
      | none => s
      | some d => { s with pc := .age d }.note (.took d)
  | .age d =>
    -- the decision is older than the ceiling: the RT's freshness rule owns the hold
    if validForNs < s.now - d.sampleReceivedAt then { s with pc := .idle } else { s with pc := .scope d }
  | .scope d => { s with pc := if s.sessionId ≠ s.h.session then .idle else .state d }
  | .state d =>
    match s.state with
    | none => { s with pc := .idle }
    | some st =>
      match st.reference with
      | none => { s with pc := .idle }
      | some reference =>
        { s with pc := if st.armed then .session ⟨d, st, reference⟩ else .idle }.note (.read st)
  | .session p => { s with pc := if p.state.sessionId ≠ s.h.session then .idle else .epoch p }
  | .epoch p =>
    { s with
      pc :=
        if p.state.armEpoch ≠ s.h.epoch then .idle
        else if p.reference.referenceId ≠ p.decision.referenceId then .idle
        else if p.reference.live = false then .idle
        else .interrupt p }
  | .interrupt p => { s with pc := if s.h.interrupt then .owner p else .error p }
  | .error p => { s with pc := if s.h.error ≠ "" then .owner p else .name p }
  -- a fenced candidate cannot silence an older selected endpoint
  | .owner p =>
    { s with
      pc := if p.decision.referenceId = s.h.id ∨ p.reference.status ≠ .ended then .idle else .name p }
  | .name p => { s with pc := .send p s.h.session }
  | .send p session => s.applyEnvelope p session
  | .record referenceId seq => { s with last := some (referenceId, seq), pc := .idle }

/-- the sequence of the newest envelope of the published reference -/
def lastSeq (s : EnvelopeSender) : Option ℕ :=
  match s.last, s.decision with
  | some (referenceId, seq), some d => if referenceId = d.referenceId then seq else none
  | _, _ => none

def step (s : EnvelopeSender) : SenderEvent → EnvelopeSender
  | .call c =>
    match s.staging, c with
    | some (h, written), .proceed => s.proceed h written
    | some _, _ => s
    | none, c => s.supervise c
  | .send => s.send
  | .receive st => { s with state := some st }.note (.received st)
  | .link sessionId armEpoch => { s with sessionId := sessionId, armEpoch := armEpoch }
  | .time now => { s with now := max s.now now }

def run : EnvelopeSender → List SenderEvent → EnvelopeSender := Run.run step

/-! ## what is promised -/

/-- it says exactly what the decision says -/
def Envelope.carries (v : Envelope) (d : Decision) : Prop :=
  v.command = d.command ∧ v.referenceId = d.referenceId ∧ v.revision = d.revision ∧ v.phase = d.phase

/-- the decision was published, and neither replaced nor unpublished since -/
def Standing (d : Decision) : List SenderEntry → Prop :=
  Since (fun _ o => o = .published d) fun o => o ≠ .unpublished ∧ ∀ d', o ≠ .published d'

/-- the state was the newest -/
def Newest (st : RtState) : List SenderEntry → Prop :=
  Since (fun _ o => o = .received st) fun o => ∀ st', o ≠ .received st'

/-- the sender holds `d`, which stood when it was taken -/
def Taken (d : Decision) : List SenderEntry → Prop :=
  Since (fun p o => o = .took d ∧ Standing d p) fun o => ∀ d', o ≠ .took d'

/-- the sender read `st`, which was the newest then -/
def Read (st : RtState) : List SenderEntry → Prop :=
  Since (fun p o => o = .read st ∧ Newest st p) fun o => ∀ st', o ≠ .read st'

/-- what an envelope promises, by the log before it -/
structure Honest (log : List SenderEntry) (x : Sent) : Prop where
  carries : Envelope.carries x.envelope x.pass.decision
  taken : Taken x.pass.decision log
  /-- the sample's age is its own, and within the ceiling -/
  age : x.envelope.ageUs = (x.at_ - x.pass.decision.sampleReceivedAt) / 1000
  fresh : x.envelope.ageUs ≤ validForUs
  /-- the newest state showed the reference, armed, in the scope that is named -/
  read : Read x.pass.state log
  reference : x.pass.state.reference = some x.pass.reference
  shown : x.pass.reference.referenceId = x.envelope.referenceId ∧ x.pass.reference.live = true
  armed : x.pass.state.armed = true
  session : x.envelope.sessionId = x.pass.state.sessionId
  epoch : x.envelope.armEpoch = x.pass.state.armEpoch
  /-- the reference was never cancelled -/
  unrevoked : .cancelled x.envelope.referenceId ∉ log

/-- the supervisor stays out of the sender's way: it publishes nothing for a cancelled reference that is
not its own any more, stages nothing while a decision for a cancelled one is out, moves neither session
nor epoch between the sender's look at them and its send, and cancels nothing that the sender has just
found to be live -/
def KeepsFence (s : EnvelopeSender) : SenderEvent → Prop
  | .call (.publish d) => d.referenceId = s.h.id ∨ .cancelled d.referenceId ∉ s.log
  | .call (.stage ..) =>
    ∀ d ∈ s.decision.toList ++ s.pc.held.toList, .cancelled d.referenceId ∉ s.log
  | .call .proceed => ∀ w ∈ s.staging.toList,
    (w.2 = 0 → s.pc.comparedSession = none ∨ w.1.session = s.h.session) ∧
      (w.2 = 1 → s.pc.comparedEpoch = none ∨ w.1.epoch = s.h.epoch)
  | .call .cancel => ∀ p ∈ s.pc.unfenced.toList, p.decision.referenceId ≠ s.h.id
  | _ => True

instance decidableKeepsFence (s : EnvelopeSender) : ∀ e, Decidable (s.KeepsFence e)
  | .call (.publish d) =>
    inferInstanceAs (Decidable (d.referenceId = s.h.id ∨ .cancelled d.referenceId ∉ s.log))
  | .call (.stage ..) => inferInstanceAs
    (Decidable (∀ d ∈ s.decision.toList ++ s.pc.held.toList, .cancelled d.referenceId ∉ s.log))
  | .call .proceed => inferInstanceAs (Decidable (∀ w ∈ s.staging.toList,
    (w.2 = 0 → s.pc.comparedSession = none ∨ w.1.session = s.h.session) ∧
      (w.2 = 1 → s.pc.comparedEpoch = none ∨ w.1.epoch = s.h.epoch)))
  | .call .cancel =>
    inferInstanceAs (Decidable (∀ p ∈ s.pc.unfenced.toList, p.decision.referenceId ≠ s.h.id))
  | .call .unpublish | .call .approve | .call (.pollJob _) | .call (.pollCancel _) | .call .observe
  | .call .giveUp | .call .refill | .call .close | .send | .receive _ | .link _ _ | .time _ =>
    inferInstanceAs (Decidable True)

/-! ## the invariant -/

/-- an entry is right by the log before it -/
def Sound (log : List SenderEntry) : SenderEntry → Prop
  | .sent x => Honest log x
  | _ => True

/-- the supervisor's decision, or the one the sender holds -/
def Out (s : EnvelopeSender) (d : Decision) : Prop := s.decision = some d ∨ s.pc.held = some d

structure Inv (s : EnvelopeSender) : Prop where
  sound : Justified Sound s.log
  standing : ∀ d, s.decision = some d → Standing d s.log
  newest : ∀ st, s.state = some st → Newest st s.log
  taken : ∀ d, s.pc.held = some d → Taken d s.log
  read : ∀ p, s.pc.pass = some p →
    Read p.state s.log ∧ p.state.reference = some p.reference ∧ p.state.armed = true
  session : ∀ p, s.pc.comparedSession = some p → p.state.sessionId = s.h.session
  named : ∀ p session, s.pc = .send p session → p.state.sessionId = session
  epoch : ∀ p, s.pc.comparedEpoch = some p → p.state.armEpoch = s.h.epoch ∧
    p.reference.referenceId = p.decision.referenceId ∧ p.reference.live = true
  /-- ids are given out once -/
  old : ∀ a, .cancelled a ∈ s.log → a ≤ s.h.nextId
  fresh : s.staging = none → s.h.id ≤ s.h.nextId
  /-- the fence of the candidate itself -/
  own : s.staging = none → .cancelled s.h.id ∈ s.log → s.h.interrupt = true
  staged : ∀ h k, s.staging = some (h, k) → s.h.id = s.h.nextId + 1 ∧ h.id = s.h.id ∧ h.nextId = s.h.id ∧
    (0 < k → s.h.session = h.session) ∧ (1 < k → s.h.epoch = h.epoch)
  /-- a decision that is out for a cancelled reference is the candidate's -/
  fenced : ∀ d, s.Out d → .cancelled d.referenceId ∈ s.log → s.staging = none ∧ d.referenceId = s.h.id
  clear : ∀ p, s.pc.unfenced = some p → .cancelled p.decision.referenceId ∉ s.log

variable {s t : EnvelopeSender} {d : Decision} {e : SenderEntry} {log : List SenderEntry}

theorem Inv.unrevoked (h : Inv s) (hs : s.staging ≠ none) (hd : s.Out d) :
    .cancelled d.referenceId ∉ s.log := fun hc => hs (h.fenced d hd hc).1

/-- a call of the supervisor that leaves the horizon's scope alone -/
theorem Inv.scope (h : Inv s) {g : Horizon} (hg : g.scope = s.h.scope) (hst : s.staging = none) :
    Inv { s with h := g } := by
  obtain ⟨hn, hi, hse, hep, hin⟩ := Horizon.Scope.mk.inj hg
  refine ⟨h.sound, h.standing, h.newest, h.taken, h.read, ?_, h.named, ?_, ?_, ?_, ?_, ?_, ?_, h.clear⟩
  · intro p hp
    show _ = g.session
    rw [hse]
    exact h.session p hp
  · intro p hp
    show _ = g.epoch ∧ _
    rw [hep]
    exact h.epoch p hp
  · intro a ha
    show _ ≤ g.nextId
    rw [hn]
    exact h.old a ha
  · intro _
    show g.id ≤ g.nextId
    rw [hi, hn]
    exact h.fresh hst
  · intro _ hc
    change .cancelled g.id ∈ s.log at hc
    show g.interrupt = true
    rw [hi] at hc
    rw [hin]
    exact h.own hst hc
  · intro g' k hk
    rw [hst] at hk
    cases hk
  · intro d hd hc
    show _ ∧ _ = g.id
    rw [hi]
    exact h.fenced d hd hc

/-- the sender moves on: it holds nothing new -/
theorem Inv.goto (h : Inv s) {pc : SenderPc} (hheld : ∀ d, pc.held = some d → s.pc.held = some d)
    (hpass : ∀ p, pc.pass = some p → s.pc.pass = some p)
    (hses : ∀ p, pc.comparedSession = some p → p.state.sessionId = s.h.session)
    (hnamed : ∀ p session, pc = .send p session → p.state.sessionId = session)
    (hep : ∀ p, pc.comparedEpoch = some p → p.state.armEpoch = s.h.epoch ∧
      p.reference.referenceId = p.decision.referenceId ∧ p.reference.live = true)
    (hclear : ∀ p, pc.unfenced = some p → .cancelled p.decision.referenceId ∉ s.log) :
    Inv { s with pc := pc } := by
  refine ⟨h.sound, h.standing, h.newest, fun d hd => h.taken d (hheld d hd), fun p hp => h.read p (hpass p hp),
    hses, hnamed, hep, h.old, h.fresh, h.own, h.staged, ?_, hclear⟩
  rintro d (hd | hd) hc
  · exact h.fenced d (.inl hd) hc
  · exact h.fenced d (.inr (hheld d hd)) hc

/-- the sender moves on within its pass -/
theorem Inv.onward (h : Inv s) {p : Pass} {pc : SenderPc} (hp : s.pc.pass = some p) (hpc : pc.pass = some p)
    (hses : pc.comparedSession = some p → p.state.sessionId = s.h.session)
    (hnamed : ∀ session, pc = .send p session → p.state.sessionId = session)
    (hep : pc.comparedEpoch = some p → p.state.armEpoch = s.h.epoch ∧
      p.reference.referenceId = p.decision.referenceId ∧ p.reference.live = true)
    (hclear : pc.unfenced = some p → .cancelled p.decision.referenceId ∉ s.log) :
    Inv { s with pc := pc } := by
  refine h.goto ?_ ?_ ?_ ?_ ?_ ?_
  · intro d hd
    rw [SenderPc.held_of_pass hpc] at hd
    rw [SenderPc.held_of_pass hp, hd]
  · intro q hq
    rw [hp, ← hpc, hq]
  · intro q hq
    obtain rfl : p = q := Option.some.inj (hpc.symm.trans (SenderPc.pass_of_comparedSession hq))
    exact hses hq
  · rintro q session rfl
    cases hpc
    exact hnamed session rfl
  · intro q hq
    obtain rfl : p = q := Option.some.inj (hpc.symm.trans (SenderPc.pass_of_comparedEpoch hq))
    exact hep hq
  · intro q hq
    obtain rfl : p = q := Option.some.inj (hpc.symm.trans (SenderPc.pass_of_unfenced hq))
    exact hclear hq

theorem Inv.idle (h : Inv s) : Inv { s with pc := .idle } := by
  refine h.goto ?_ ?_ ?_ ?_ ?_ ?_ <;> intros <;> contradiction

/-! ## the log grows -/

/-- what an entry does not say -/
structure Quiet (e : SenderEntry) : Prop where
  published : e ≠ .unpublished ∧ ∀ d, e ≠ .published d
  received : ∀ st, e ≠ .received st
  took : ∀ d, e ≠ .took d
  read : ∀ st, e ≠ .read st
  cancelled : ∀ a, e ≠ .cancelled a

theorem Inv.note (h : Inv s) (hq : Quiet e) (he : Sound s.log e) : Inv (s.note e) := by
  have hc : ∀ a, .cancelled a ∈ s.log ++ [e] ↔ .cancelled a ∈ s.log := by
    intro a
    rw [List.mem_append, List.mem_singleton]
    exact or_iff_left fun ha => hq.cancelled a ha.symm
  refine ⟨h.sound.snoc he, fun d hd => (h.standing d hd).snoc hq.published,
    fun st hst => (h.newest st hst).snoc hq.received, fun d hd => (h.taken d hd).snoc hq.took,
    fun p hp => ⟨(h.read p hp).1.snoc hq.read, (h.read p hp).2⟩, h.session, h.named, h.epoch,
    fun a ha => h.old a ((hc a).mp ha), h.fresh, fun hs ha => h.own hs ((hc _).mp ha), h.staged,
    fun d hd ha => h.fenced d hd ((hc _).mp ha), fun p hp ha => h.clear p hp ((hc _).mp ha)⟩

/-! ## the supervisor -/

/-- another decision, or none, and the entry that says so -/
theorem Inv.decide (h : Inv s) {decision : Option Decision}
    (he : e = .unpublished ∨ ∃ d, e = .published d)
    (hs : ∀ d, decision = some d → Standing d (s.log ++ [e]))
    (hf : ∀ d, decision = some d → .cancelled d.referenceId ∈ s.log →
      s.staging = none ∧ d.referenceId = s.h.id) :
    Inv ({ s with decision := decision }.note e) := by
  have hquiet : (∀ st, e ≠ .received st) ∧ (∀ d, e ≠ .took d) ∧ (∀ st, e ≠ .read st) ∧
      (∀ a, e ≠ .cancelled a) ∧ Sound s.log e := by
    rcases he with rfl | ⟨d, rfl⟩ <;>
      exact ⟨fun _ h => (nomatch h), fun _ h => (nomatch h), fun _ h => (nomatch h), fun _ h => (nomatch h), trivial⟩
  obtain ⟨hrec, htook, hread, hcan, hsound⟩ := hquiet
  have hc : ∀ a, .cancelled a ∈ s.log ++ [e] ↔ .cancelled a ∈ s.log := by
    intro a
    rw [List.mem_append, List.mem_singleton]
    exact or_iff_left fun ha => hcan a ha.symm
  refine ⟨h.sound.snoc hsound, hs, fun st hst => (h.newest st hst).snoc hrec,
    fun d hd => (h.taken d hd).snoc htook, fun p hp => ⟨(h.read p hp).1.snoc hread, (h.read p hp).2⟩,
    h.session, h.named, h.epoch, fun a ha => h.old a ((hc a).mp ha), h.fresh,
    fun hs ha => h.own hs ((hc _).mp ha), h.staged, ?_, fun p hp ha => h.clear p hp ((hc _).mp ha)⟩
  rintro d (hd | hd) ha
  · exact hf d hd ((hc _).mp ha)
  · exact h.fenced d (.inr hd) ((hc _).mp ha)

theorem Inv.publish (h : Inv s) (hst : s.staging = none)
    (hd : d.referenceId = s.h.id ∨ .cancelled d.referenceId ∉ s.log) :
    Inv ({ s with decision := some d }.note (.published d)) := by
  refine h.decide (.inr ⟨d, rfl⟩) ?_ ?_
  · intro d' hd'
    cases hd'
    exact Since.now rfl
  · intro d' hd' hc
    cases hd'
    exact ⟨hst, hd.resolve_right fun hno => hno hc⟩

theorem Inv.unpublish (h : Inv s) : Inv ({ s with decision := none }.note .unpublished) := by
  refine h.decide (.inl rfl) ?_ ?_ <;> intros <;> contradiction

theorem Inv.close (h : Inv s) (hst : s.staging = none) :
    Inv { s with h := { s.h with interrupt := true }, closed := true } :=
  ⟨h.sound, h.standing, h.newest, h.taken, h.read, h.session, h.named, h.epoch, h.old, h.fresh,
    fun _ _ => rfl, fun _ _ hk => absurd (hst.symm.trans hk) (Option.some_ne_none _).symm, h.fenced, h.clear⟩

/-- the candidate is cancelled while the sender holds no envelope of it beyond its fence -/
theorem Inv.cancel (h : Inv s) (hst : s.staging = none) (hid : s.h.id ≠ 0)
    (hk : ∀ p, s.pc.unfenced = some p → p.decision.referenceId ≠ s.h.id) :
    Inv ({ s with h := s.h.cancel }.note (.cancelled s.h.id)) := by
  obtain ⟨hn, hi, hse, hep, hin⟩ := Horizon.Scope.mk.inj (Horizon.scope_cancel hid)
  have hc : ∀ a, .cancelled a ∈ s.log ++ [SenderEntry.cancelled s.h.id] → .cancelled a ∈ s.log ∨ a = s.h.id := by
    intro a ha
    rw [List.mem_append, List.mem_singleton] at ha
    exact ha.imp_right SenderEntry.cancelled.inj
  refine ⟨h.sound.snoc trivial, fun d hd => (h.standing d hd).snoc (by simp),
    fun st hst => (h.newest st hst).snoc (by simp), fun d hd => (h.taken d hd).snoc (by simp),
    fun p hp => ⟨(h.read p hp).1.snoc (by simp), (h.read p hp).2⟩, ?_, h.named, ?_, ?_, ?_, ?_, ?_, ?_, ?_⟩
  · intro p hp
    show _ = s.h.cancel.session
    rw [hse]
    exact h.session p hp
  · intro p hp
    show _ = s.h.cancel.epoch ∧ _
    rw [hep]
    exact h.epoch p hp
  · intro a ha
    show a ≤ s.h.cancel.nextId
    rw [hn]
    rcases hc a ha with ha | rfl
    · exact h.old a ha
    · exact h.fresh hst
  · intro _
    show s.h.cancel.id ≤ s.h.cancel.nextId
    rw [hi, hn]
    exact h.fresh hst
  · intro _ _
    exact hin
  · intro g k hk
    change s.staging = some (g, k) at hk
    rw [hst] at hk
    cases hk
  · intro d hd ha
    show _ ∧ d.referenceId = s.h.cancel.id
    rw [hi]
    rcases hc _ ha with ha | ha
    · exact h.fenced d hd ha
    · exact ⟨hst, ha⟩
  · intro p hp ha
    rcases hc _ ha with ha | ha
    · exact h.clear p hp ha
    · exact hk p hp ha

/-- a new candidate, while no decision for a cancelled one is out -/
theorem Inv.stage (h : Inv s) {g : Horizon}
    (hg : g.id = s.h.nextId + 1 ∧ g.nextId = s.h.nextId + 1)
    (hk : ∀ d, s.Out d → .cancelled d.referenceId ∉ s.log) :
    Inv { s with h := { s.h with id := g.id }, staging := some (g, 0) } := by
  refine ⟨h.sound, h.standing, h.newest, h.taken, h.read, h.session, h.named, h.epoch, h.old,
    fun hs => (nomatch hs), fun hs => (nomatch hs), ?_, fun d hd hc => absurd hc (hk d hd), h.clear⟩
  intro g' k hgk
  cases hgk
  refine ⟨hg.1, rfl, ?_, fun h0 => absurd h0 (Nat.lt_irrefl 0), fun h1 => absurd h1 (by omega)⟩
  rw [hg.2, ← hg.1]

/-- `stage` writes its next field -/
theorem Inv.proceed (h : Inv s) {g : Horizon} {k : ℕ} (hst : s.staging = some (g, k))
    (hses : k = 0 → s.pc.comparedSession = none ∨ g.session = s.h.session)
    (hep : k = 1 → s.pc.comparedEpoch = none ∨ g.epoch = s.h.epoch) : Inv (s.proceed g k) := by
  obtain ⟨hid, hgid, hgn, hks, hke⟩ := h.staged g k hst
  have hun := fun d hd => h.unrevoked (d := d) (by rw [hst]; exact Option.some_ne_none _) hd
  match k with
  | 0 =>
    refine ⟨h.sound, h.standing, h.newest, h.taken, h.read, ?_, h.named, h.epoch, h.old,
      fun hs => (nomatch hs), fun hs => (nomatch hs), ?_, fun d hd hc => absurd hc (hun d hd), h.clear⟩
    · intro p hp
      rcases hses rfl with hno | he
      · change s.pc.comparedSession = some p at hp
        rw [hno] at hp
        cases hp
      · exact (h.session p hp).trans he.symm
    · intro g' k' hgk
      cases hgk
      exact ⟨hid, hgid, hgn, fun _ => rfl, fun h1 => absurd h1 (by omega)⟩
  | 1 =>
    refine ⟨h.sound, h.standing, h.newest, h.taken, h.read, h.session, h.named, ?_, h.old,
      fun hs => (nomatch hs), fun hs => (nomatch hs), ?_, fun d hd hc => absurd hc (hun d hd), h.clear⟩
    · intro p hp
      rcases hep rfl with hno | he
      · change s.pc.comparedEpoch = some p at hp
        rw [hno] at hp
        cases hp
      · exact ⟨(h.epoch p hp).1.trans he.symm, (h.epoch p hp).2⟩
    · intro g' k' hgk
      cases hgk
      exact ⟨hid, hgid, hgn, fun _ => hks (by omega), fun _ => rfl⟩
  | 2 =>
    refine ⟨h.sound, h.standing, h.newest, h.taken, h.read, h.session, h.named, h.epoch, h.old,
      fun hs => (nomatch hs), fun hs => (nomatch hs), ?_, fun d hd hc => absurd hc (hun d hd), h.clear⟩
    intro g' k' hgk
    cases hgk
    exact ⟨hid, hgid, hgn, fun _ => hks (by omega), fun _ => hke (by omega)⟩
  | k + 3 =>
    have hnew : ∀ a, .cancelled a ∈ s.log → a < g.id := fun a ha => by
      have := h.old a ha
      omega
    refine ⟨h.sound, h.standing, h.newest, h.taken, h.read, ?_, h.named, ?_, ?_, ?_, ?_,
      fun _ _ hgk => (nomatch hgk), fun d hd hc => absurd hc (hun d hd), h.clear⟩
    · intro p hp
      exact (h.session p hp).trans (hks (by omega))
    · intro p hp
      exact ⟨(h.epoch p hp).1.trans (hke (by omega)), (h.epoch p hp).2⟩
    · intro a ha
      show a ≤ g.nextId
      rw [hgn, ← hgid]
      exact (hnew a ha).le
    · intro _
      show g.id ≤ g.nextId
      rw [hgn, hgid]
    · intro _ hc
      exact absurd (hnew _ hc) (Nat.lt_irrefl _)

theorem Inv.supervise (h : Inv s) (hst : s.staging = none) {c : SupervisorCall}
    (hk : s.KeepsFence (.call c)) : Inv (s.supervise c) := by
  cases c with
  | publish d => exact h.publish hst hk
  | unpublish => exact h.unpublish
  | stage key trajectory deadline stream terminal =>
    unfold EnvelopeSender.supervise
    dsimp only
    cases hs : s.h.stage key trajectory deadline stream terminal s.sessionId s.armEpoch with
    | error text => exact h
    | ok g =>
      obtain ⟨hn, hi, -⟩ := Horizon.Scope.mk.inj (Horizon.stage_ok hs)
      refine h.stage ⟨hi, hn⟩ fun d hd => hk d ?_
      rw [List.mem_append, Option.mem_toList, Option.mem_toList]
      exact hd
  | proceed => exact h
  | approve => exact h.scope Horizon.scope_approve hst
  | cancel =>
    unfold EnvelopeSender.supervise
    dsimp only
    by_cases hid : s.h.id = 0
    · rw [if_pos hid]
      exact h
    · rw [if_neg hid]
      exact h.cancel hst hid fun p hp => hk p (Option.mem_toList.mpr hp)
  | pollJob r => exact h.scope Horizon.scope_pollJob hst
  | pollCancel r => exact h.scope Horizon.scope_pollCancel hst
  | observe => exact h.scope Horizon.scope_observe hst
  | giveUp =>
    unfold EnvelopeSender.supervise
    dsimp only
    split_ifs
    · exact h.scope rfl hst
    · exact h
  | refill => exact h.scope Horizon.scope_refill hst
  | close => exact (h.close hst).unpublish

/-! ## the sender -/

theorem Inv.take (h : Inv s) (hd : s.decision = some d) :
    Inv ({ s with pc := .age d }.note (.took d)) := by
  have hc : ∀ a, .cancelled a ∈ s.log ++ [SenderEntry.took d] → .cancelled a ∈ s.log := by
    intro a ha
    simpa using ha
  refine ⟨h.sound.snoc trivial, fun d' hd' => (h.standing d' hd').snoc (by simp),
    fun st hst => (h.newest st hst).snoc (by simp), ?_, fun p hp => (nomatch hp), fun p hp => (nomatch hp),
    fun p ses hp => (nomatch hp), fun p hp => (nomatch hp), fun a ha => h.old a (hc a ha), h.fresh,
    fun hs ha => h.own hs (hc _ ha), h.staged, ?_, fun p hp => (nomatch hp)⟩
  · intro d' hd'
    cases hd'
    exact Since.now ⟨rfl, h.standing d hd⟩
  · rintro d' (hd' | hd') ha
    · exact h.fenced d' (.inl hd') (hc _ ha)
    · cases hd'
      exact h.fenced d (.inl hd) (hc _ ha)

theorem Inv.look (h : Inv s) {st : RtState} {reference : RtReference} (hpc : s.pc = .state d)
    (hst : s.state = some st) (href : st.reference = some reference) :
    Inv ({ s with pc := if st.armed then .session ⟨d, st, reference⟩ else .idle }.note (.read st)) := by
  have hc : ∀ a, .cancelled a ∈ s.log ++ [SenderEntry.read st] → .cancelled a ∈ s.log := by
    intro a ha
    simpa using ha
  have hbase : Inv ({ s with pc := .idle }.note (.read st)) := by
    have hi := h.idle
    refine ⟨hi.sound.snoc trivial, fun d' hd' => (hi.standing d' hd').snoc (by simp),
      fun st hst => (hi.newest st hst).snoc (by simp), fun d hd => (nomatch hd), fun p hp => (nomatch hp),
      fun p hp => (nomatch hp), fun p ses hp => (nomatch hp), fun p hp => (nomatch hp),
      fun a ha => hi.old a (hc a ha), hi.fresh, fun hs ha => hi.own hs (hc _ ha), hi.staged,
      fun d' hd' ha => hi.fenced d' hd' (hc _ ha), fun p hp => (nomatch hp)⟩
  by_cases harmed : st.armed = true
  · rw [if_pos harmed]
    have hheld : s.pc.held = some d := by
      rw [hpc]
      rfl
    refine ⟨hbase.sound, hbase.standing, hbase.newest, ?_, ?_, fun p hp => (nomatch hp),
      fun p ses hp => (nomatch hp), fun p hp => (nomatch hp), hbase.old, hbase.fresh, hbase.own, hbase.staged,
      ?_, fun p hp => (nomatch hp)⟩
    · intro d' hd'
      cases hd'
      exact (h.taken d hheld).snoc (by simp)
    · intro p hp
      cases hp
      exact ⟨Since.now ⟨rfl, h.newest st hst⟩, href, harmed⟩
    · rintro d' (hd' | hd') ha
      · exact h.fenced d' (.inl hd') (hc _ ha)
      · cases hd'
        exact h.fenced d (.inr hheld) (hc _ ha)
  · rw [if_neg harmed]
    exact hbase

theorem Inv.apply (h : Inv s) {p : Pass} {session : ℕ} (hpc : s.pc = .send p session) :
    Inv (s.applyEnvelope p session) := by
  have hgo : ∀ n seq, Inv { s with seq := n, pc := .record p.decision.referenceId seq } := by
    intro n seq
    have hi := h.idle
    exact ⟨hi.sound, hi.standing, hi.newest, fun d hd => (nomatch hd), fun p hp => (nomatch hp),
      fun p hp => (nomatch hp), fun p ses hp => (nomatch hp), fun p hp => (nomatch hp), hi.old, hi.fresh,
      hi.own, hi.staged, hi.fenced, fun p hp => (nomatch hp)⟩
  unfold applyEnvelope
  by_cases hsc : s.inScope session s.h.epoch = false
  · rw [if_pos hsc]
    exact h.idle
  rw [if_neg hsc]
  dsimp only
  by_cases hage : validForUs < (s.now - p.decision.sampleReceivedAt) / 1000
  · rw [if_pos hage]
    exact hgo _ _
  rw [if_neg hage]
  refine (hgo _ _).note ⟨by simp, by simp, by simp, by simp, by simp⟩ ?_
  obtain ⟨hep, hid, hlive⟩ := h.epoch p (by rw [hpc]; rfl)
  obtain ⟨hread, href, harmed⟩ := h.read p (by rw [hpc]; rfl)
  exact
    { carries := ⟨rfl, rfl, rfl, rfl⟩
      taken := h.taken _ (by rw [hpc]; rfl)
      age := rfl
      fresh := not_lt.mp hage
      read := hread
      reference := href
      shown := ⟨hid, hlive⟩
      armed := harmed
      session := (h.named p session hpc).symm
      epoch := hep.symm
      unrevoked := h.clear p (by rw [hpc]; rfl) }

theorem Inv.send (h : Inv s) : Inv s.send := by
  cases hpc : s.pc with
  | idle =>
    by_cases hcl : s.closed = true
    · rw [show s.send = s by simp only [EnvelopeSender.send, hpc, hcl, if_true]]
      exact h
    · cases hd : s.decision with
      | none =>
        rw [show s.send = s by simp only [EnvelopeSender.send, hpc, hd, ite_self]]
        exact h
      | some d =>
        rw [show s.send = { s with pc := .age d }.note (.took d) by
          simp only [EnvelopeSender.send, hpc, hd]
          rw [if_neg hcl]]
        exact h.take hd
  | age d =>
    rw [show s.send = if validForNs < s.now - d.sampleReceivedAt then { s with pc := .idle }
      else { s with pc := .scope d } by simp only [EnvelopeSender.send, hpc]]
    split_ifs
    · exact h.idle
    · refine h.goto ?_ ?_ ?_ ?_ ?_ ?_ <;> intros <;> first | contradiction | (rw [hpc]; assumption)
  | scope d =>
    rw [show s.send = { s with pc := if s.sessionId ≠ s.h.session then .idle else .state d } by
      simp only [EnvelopeSender.send, hpc]]
    split_ifs
    · exact h.idle
    · refine h.goto ?_ ?_ ?_ ?_ ?_ ?_ <;> intros <;> first | contradiction | (rw [hpc]; assumption)
  | state d =>
    cases hst : s.state with
    | none =>
      rw [show s.send = { s with pc := .idle } by simp only [EnvelopeSender.send, hpc, hst]]
      exact h.idle
    | some st =>
      cases href : st.reference with
      | none =>
        rw [show s.send = { s with pc := .idle } by simp only [EnvelopeSender.send, hpc, hst, href]]
        exact h.idle
      | some reference =>
        rw [show s.send = { s with
            pc := if st.armed then .session ⟨d, st, reference⟩ else .idle }.note (.read st) by
          simp only [EnvelopeSender.send, hpc, hst, href]]
        exact h.look hpc hst href
  | session p =>
    rw [show s.send = { s with pc := if p.state.sessionId ≠ s.h.session then .idle else .epoch p } by
      simp only [EnvelopeSender.send, hpc]]
    by_cases hs : p.state.sessionId = s.h.session
    · rw [if_neg (not_not.mpr hs)]
      exact h.onward (by rw [hpc]; rfl) rfl (fun _ => hs) (fun _ he => (nomatch he))
        (fun he => (nomatch he)) (fun he => (nomatch he))
    · rw [if_pos hs]
      exact h.idle
  | epoch p =>
    rw [show s.send = { s with
        pc :=
          if p.state.armEpoch ≠ s.h.epoch then .idle
          else if p.reference.referenceId ≠ p.decision.referenceId then .idle
          else if p.reference.live = false then .idle
          else .interrupt p } by simp only [EnvelopeSender.send, hpc]]
    split_ifs with he hid hlive
    · exact h.idle
    · exact h.idle
    · exact h.idle
    · refine h.onward (p := p) (by rw [hpc]; rfl) rfl (fun _ => h.session p (by rw [hpc]; rfl))
        (fun _ he => (nomatch he)) (fun _ => ⟨not_not.mp he, not_not.mp hid, ?_⟩) (fun he => (nomatch he))
      simpa using hlive
  | interrupt p =>
    rw [show s.send = { s with pc := if s.h.interrupt then .owner p else .error p } by
      simp only [EnvelopeSender.send, hpc]]
    have hses := h.session p (by rw [hpc]; rfl)
    have hep := h.epoch p (by rw [hpc]; rfl)
    by_cases hi : s.h.interrupt = true
    · rw [if_pos hi]
      exact h.onward (by rw [hpc]; rfl) rfl (fun _ => hses) (fun _ he => (nomatch he)) (fun _ => hep)
        (fun he => (nomatch he))
    · -- the fence of a cancelled candidate is up: this one was not cancelled
      rw [if_neg hi]
      refine h.onward (by rw [hpc]; rfl) rfl (fun _ => hses) (fun _ he => (nomatch he)) (fun _ => hep)
        fun _ hc => hi ?_
      obtain ⟨hst, hid⟩ := h.fenced p.decision (.inr (by rw [hpc]; rfl)) hc
      rw [hid] at hc
      exact h.own hst hc
  | error p =>
    rw [show s.send = { s with pc := if s.h.error ≠ "" then .owner p else .name p } by
      simp only [EnvelopeSender.send, hpc]]
    have hses := h.session p (by rw [hpc]; rfl)
    have hep := h.epoch p (by rw [hpc]; rfl)
    have hclear := h.clear p (by rw [hpc]; rfl)
    split_ifs
    · exact h.onward (by rw [hpc]; rfl) rfl (fun _ => hses) (fun _ he => (nomatch he)) (fun _ => hep)
        (fun he => (nomatch he))
    · exact h.onward (by rw [hpc]; rfl) rfl (fun _ => hses) (fun _ he => (nomatch he)) (fun _ => hep)
        (fun _ => hclear)
  | owner p =>
    rw [show s.send = { s with
        pc := if p.decision.referenceId = s.h.id ∨ p.reference.status ≠ .ended then .idle else .name p } by
      simp only [EnvelopeSender.send, hpc]]
    by_cases ho : p.decision.referenceId = s.h.id ∨ p.reference.status ≠ .ended
    · rw [if_pos ho]
      exact h.idle
    · -- not the candidate's: then it was not cancelled either
      rw [if_neg ho]
      refine h.onward (by rw [hpc]; rfl) rfl (fun _ => h.session p (by rw [hpc]; rfl))
        (fun _ he => (nomatch he)) (fun _ => h.epoch p (by rw [hpc]; rfl)) fun _ hc => ho (.inl ?_)
      exact (h.fenced p.decision (.inr (by rw [hpc]; rfl)) hc).2
  | name p =>
    rw [show s.send = { s with pc := .send p s.h.session } by simp only [EnvelopeSender.send, hpc]]
    refine h.onward (by rw [hpc]; rfl) rfl (fun he => (nomatch he)) ?_
      (fun _ => h.epoch p (by rw [hpc]; rfl)) (fun _ => h.clear p (by rw [hpc]; rfl))
    intro session he
    cases he
    exact h.session p (by rw [hpc]; rfl)
  | send p session =>
    rw [show s.send = s.applyEnvelope p session by simp only [EnvelopeSender.send, hpc]]
    exact h.apply hpc
  | record referenceId seq =>
    rw [show s.send = { s with last := some (referenceId, seq), pc := .idle } by
      simp only [EnvelopeSender.send, hpc]]
    have hi := h.idle
    exact ⟨hi.sound, hi.standing, hi.newest, hi.taken, hi.read, hi.session, hi.named, hi.epoch, hi.old, hi.fresh,
      hi.own, hi.staged, hi.fenced, hi.clear⟩

/-! ## the run -/

theorem inv_initial : Inv {} := by
  refine ⟨justified_nil, ?_, ?_, ?_, ?_, ?_, ?_, ?_, ?_, fun _ => le_rfl, ?_, ?_, ?_, ?_⟩
  case refine_12 => rintro d (hd | hd)
  all_goals intros; contradiction

theorem Inv.step (h : Inv s) {e : SenderEvent} (hk : s.KeepsFence e) : Inv (s.step e) := by
  cases e with
  | call c =>
    unfold EnvelopeSender.step
    dsimp only
    cases hst : s.staging with
    | none => exact h.supervise hst hk
    | some w =>
      obtain ⟨g, k⟩ := w
      cases c with
      | proceed =>
        have hw := hk (g, k) (Option.mem_toList.mpr hst)
        exact h.proceed hst hw.1 hw.2
      | _ => exact h
  | send => exact h.send
  | receive st =>
    have hc : ∀ a, .cancelled a ∈ s.log ++ [SenderEntry.received st] → .cancelled a ∈ s.log := by
      intro a ha
      simpa using ha
    refine ⟨h.sound.snoc trivial, fun d hd => (h.standing d hd).snoc (by simp), ?_,
      fun d hd => (h.taken d hd).snoc (by simp), fun p hp => ⟨(h.read p hp).1.snoc (by simp), (h.read p hp).2⟩,
      h.session, h.named, h.epoch, fun a ha => h.old a (hc a ha), h.fresh, fun hs ha => h.own hs (hc _ ha),
      h.staged, fun d hd ha => h.fenced d hd (hc _ ha), fun p hp ha => h.clear p hp (hc _ ha)⟩
    intro st' hst
    cases hst
    exact Since.now rfl
  | link sessionId armEpoch =>
    exact ⟨h.sound, h.standing, h.newest, h.taken, h.read, h.session, h.named, h.epoch, h.old, h.fresh, h.own,
      h.staged, h.fenced, h.clear⟩
  | time now =>
    exact ⟨h.sound, h.standing, h.newest, h.taken, h.read, h.session, h.named, h.epoch, h.old, h.fresh, h.own,
      h.staged, h.fenced, h.clear⟩

/-- **No envelope is re-stamped, none revives a cancelled reference.**  While the supervisor keeps the
fence, every envelope on the wire carries exactly one decision that stood when the sender took it, with a
sample within the ceiling; the newest state that the sender read showed that reference RUNNING or END,
armed, in the session and ARM epoch the envelope names; and its reference was never cancelled. -/
theorem envelopes_fenced (es : List SenderEvent) (h : Run.Along step KeepsFence {} es) :
    ∀ pre x post, (run {} es).log = pre ++ .sent x :: post → Honest pre x := by
  have hinv : Inv (run {} es) := Run.invariant inv_initial (fun _ _ hk h => h.step hk) h
  intro pre x post hlog
  exact hinv.sound pre _ post hlog

/-- reference 1 runs, and a decision for it is published -/
def tracking : List SenderEvent :=
  let curve : JointTrajectory := { times := [0, 1], positions := [[0], [1]], velocities := some [[0], [0]] }
  let running : RtState :=
    { sessionId := 7, armEpoch := 3, stateSeq := 1, armed := true
      reference := some { referenceId := 1, revision := 1, status := .running, phase := 0 } }
  [.link 7 3, .call (.stage (some 1) curve none false true)] ++ List.replicate 4 (.call .proceed) ++
    [.call (.pollJob (some (.done false))), .call .approve, .call (.pollJob (some (.done true))),
      .receive running, .call .observe,
      .call (.publish
        { command := { torque := [0], kp := [0], kd := [0] }, referenceId := 1, revision := 1, phase := 0
          sampleReceivedAt := 0 })]

/-- its envelope, as it leaves in session 7 and ARM epoch 3 -/
def tracked : Sent :=
  let d : Decision :=
    { command := { torque := [0], kp := [0], kd := [0] }, referenceId := 1, revision := 1, phase := 0
      sampleReceivedAt := 0 }
  let reference : RtReference := { referenceId := 1, revision := 1, status := .running, phase := 0 }
  { envelope :=
      { command := d.command, referenceId := 1, revision := 1, phase := 0, ageUs := 0
        validForUs := validForUs, phaseWindowUs := phaseWindowUs, sessionId := 7, armEpoch := 3, seq := 1 }
    pass :=
      { decision := d, reference := reference
        state :=
          { sessionId := 7, armEpoch := 3, stateSeq := 1, armed := true, reference := some reference } }
    at_ := 0 }

theorem envelopes_fenced_tracking :
    ∃ pre, (run {} (tracking ++ List.replicate 11 .send)).log = pre ++ [SenderEntry.sent tracked] ∧ Honest pre tracked :=
  have hlog : (run {} (tracking ++ List.replicate 11 .send)).log =
      [.received tracked.pass.state, .published tracked.pass.decision, .took tracked.pass.decision,
        .read tracked.pass.state] ++ [SenderEntry.sent tracked] := by decide +kernel
  ⟨_, hlog, envelopes_fenced _ (by decide +kernel) _ _ _ hlog⟩

/-- the interrupt of reference 1 is gone once reference 2 is staged: its decision is sent again -/
theorem cancelled_revived : ¬ ∀ es pre x post, (run {} es).log = pre ++ .sent x :: post → Honest pre x := by
  intro h
  have hlog : (run {} (tracking ++ [.call .cancel, .call (.pollCancel (some {})),
      .call (.stage (some 2)
        { times := [0, 1], positions := [[0], [1]], velocities := some [[0], [0]] } none false true)] ++
      List.replicate 4 (.call .proceed) ++ List.replicate 11 .send)).log =
      [.received tracked.pass.state, .published tracked.pass.decision, .cancelled 1,
        .took tracked.pass.decision, .read tracked.pass.state] ++ [SenderEntry.sent tracked] := by decide +kernel
  have hc := (h _ _ _ _ hlog).unrevoked
  simp [tracked] at hc

end EnvelopeSender
end ArmControl.RemoteRt
