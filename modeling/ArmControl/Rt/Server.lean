import ArmControl.Rt.ReferenceSelection

/-!
# Command authority (`server.hpp`, `mailbox.hpp`, `mode_selection.hpp`)

What the servo thread, the control thread and `udp_rx` exchange, and the servo thread's own view of
command authority:

* `Mailbox`             the latest value and its version (`mailbox.hpp`);
* `CommandEnvelope`     one accepted command with the facts that made it authority;
* `referenceEnvelopeRevisionOk`, `referenceEnvelopeFresh`   which envelopes may drive the selected
                        reference;
* `CommandAuthority`    the newest accepted envelope of ONE generation and its deadline base;
* `ArmMode`             which command law may actuate in this ARM epoch.

Times are nanoseconds on the server clock; computed ages are rational numbers.
-/

namespace ArmControl.Rt

/-- the `uint32_t` cast of a generation -/
def low32 (gen : ℕ) : ℕ := gen % 2^32

/-- single producer, single consumer, latest value; version `0` means nothing written yet -/
structure Mailbox (α : Type) where
  value : α
  version : ℕ := 0

def Mailbox.write {α : Type} (m : Mailbox α) (x : α) : Mailbox α := ⟨x, m.version + 1⟩

instance {α : Type} [Inhabited α] : Inhabited (Mailbox α) := ⟨⟨default, 0⟩⟩

/-! ## commands -/

/-- `VERSION`, `POSE_HOLD_VERSION`, `REFERENCE_VERSION`, `CARTESIAN_VERSION` -/
inductive Version where
  | joint | poseHold | reference | cartesian
  deriving DecidableEq, Inhabited

structure CommandPacket where
  version : Version := .joint
  n : ℕ := 0
  seq : ℕ := 0
  armEpoch : ℕ := 0
  sessionId : ℕ := 0
  deriving DecidableEq, Inhabited

structure ReferenceEnvelopeBinding where
  referenceId : ℕ := 0
  revision : ℕ := 0
  ageUs : ℕ := 0
  phase : F64 := .zero
  validForUs : ℕ := 0
  phaseWindowUs : ℕ := 0
  deriving DecidableEq, Inhabited

structure CommandEnvelope where
  packet : CommandPacket := {}
  /-- the server clock at ingress -/
  rxNs : ℕ := 0
  /-- the generation the packet's epoch was checked against -/
  armGen : ℕ := 0
  /-- the control session it was admitted under -/
  sessionId : ℕ := 0
  reference : ReferenceEnvelopeBinding := {}
  deriving DecidableEq, Inhabited

def CommandEnvelope.native (e : CommandEnvelope) : Bool := e.packet.version == .reference

structure ArmStart where
  gen : ℕ := 0
  tNs : ℕ := 0
  deriving DecidableEq, Inhabited

/-- signed and clamped: a stamp can lie in the future of the tick's `now` -/
def clampedAgeNs (now then_ : ℕ) : ℚ := ((now - then_ : ℕ) : ℚ)

def referenceFirstEnvelopeNs : ℚ := 100000000

/-- the selected revision matches; the one before it too, inside the protected cut -/
def referenceEnvelopeRevisionOk (b : ReferenceEnvelopeBinding) (r : ReferenceSelectionInfo)
    (protectedUntil : F64) : Bool :=
  if b.referenceId ≠ r.referenceId then false
  else if b.revision = r.revision then true
  else decide (1 < r.revision) && b.revision + 1 == r.revision &&
    Value.le b.phase.value protectedUntil.value

def referenceEnvelopeFresh (b : ReferenceEnvelopeBinding) (r : ReferenceSelectionInfo)
    (protectedUntil : F64) (now ingress : ℕ) (holdNs : ℚ) : Bool :=
  let lag := r.phase - b.phase.rat
  referenceEnvelopeRevisionOk b r protectedUntil && decide (0 ≤ lag) &&
    decide (lag * 1000000 ≤ b.phaseWindowUs) && decide (lag * 1000000000 ≤ holdNs) &&
    decide (clampedAgeNs now ingress + b.ageUs * 1000 ≤ min holdNs (b.validForUs * 1000))

theorem referenceEnvelopeFresh_revisionOk {b : ReferenceEnvelopeBinding}
    {r : ReferenceSelectionInfo} {cut : F64} {now ingress : ℕ} {holdNs : ℚ}
    (h : referenceEnvelopeFresh b r cut now ingress holdNs = true) :
    referenceEnvelopeRevisionOk b r cut = true := by
  simp only [referenceEnvelopeFresh, Bool.and_eq_true] at h
  exact h.1.1.1.1

/-- only the reference's id and revision decide the match -/
theorem referenceEnvelopeRevisionOk_congr {b : ReferenceEnvelopeBinding}
    {r r' : ReferenceSelectionInfo} {cut : F64} (hid : r.referenceId = r'.referenceId)
    (hrev : r.revision = r'.revision) :
    referenceEnvelopeRevisionOk b r cut = referenceEnvelopeRevisionOk b r' cut := by
  simp only [referenceEnvelopeRevisionOk, hid, hrev]

/-! ## the servo thread's authority -/

structure CommandAuthority where
  current : CommandEnvelope := {}
  have_ : Bool := false
  gen : ℕ := 0
  armStartNs : ℕ := 0
  deriving DecidableEq, Inhabited

namespace CommandAuthority

/-- a new generation keeps nothing of the old one -/
def scope (a : CommandAuthority) (genNow : ℕ) : CommandAuthority :=
  if genNow ≠ a.gen then { a with gen := genNow, have_ := false, armStartNs := 0 } else a

def startAt (a : CommandAuthority) (start : ArmStart) : CommandAuthority :=
  if start.gen = a.gen then { a with armStartNs := start.tNs } else a

/-- the envelope is of this generation and not older than the one held -/
def takes (a : CommandAuthority) (version : ℕ) (e : CommandEnvelope) : Bool :=
  version != 0 && e.armGen == a.gen && (!a.have_ || decide (a.current.rxNs ≤ e.rxNs))

def observe (a : CommandAuthority) (genNow : ℕ) (start : ArmStart) (version : ℕ)
    (e : CommandEnvelope) : CommandAuthority :=
  let a := (a.scope genNow).startAt start
  if a.takes version e then { a with current := e, have_ := true } else a

section
variable (a : CommandAuthority) (gen : ℕ) (start : ArmStart)

theorem scoped_current : ((a.scope gen).startAt start).current = a.current := by
  unfold startAt scope
  split_ifs <;> rfl

theorem scope_gen : (a.scope gen).gen = gen := by
  unfold scope
  split_ifs with hg
  · rfl
  · exact (not_not.mp hg).symm

theorem scoped_gen : ((a.scope gen).startAt start).gen = gen := by
  unfold startAt
  split_ifs <;> exact scope_gen a gen

theorem scoped_have : ((a.scope gen).startAt start).have_ = (a.have_ && a.gen == gen) := by
  have h : (a.scope gen).have_ = (a.have_ && a.gen == gen) := by
    unfold scope
    split_ifs with hg
    · simp [Ne.symm hg]
    · simp [not_not.mp hg]
  unfold startAt
  split_ifs <;> exact h

theorem scoped_start (h : start.gen = gen) :
    ((a.scope gen).startAt start).armStartNs = start.tNs := by
  rw [startAt, if_pos (h.trans (scope_gen a gen).symm)]

variable (version : ℕ) (e : CommandEnvelope)

/-- **One observation.**  The envelope is taken, or the authority keeps what it held of this
generation. -/
theorem observe_cases :
    (version ≠ 0 ∧ e.armGen = gen ∧ (a.have_ = true → a.gen = gen → a.current.rxNs ≤ e.rxNs) ∧
      a.observe gen start version e =
        { (a.scope gen).startAt start with current := e, have_ := true }) ∨
    ((version ≠ 0 → e.armGen = gen →
        a.have_ = true ∧ a.gen = gen ∧ e.rxNs < a.current.rxNs) ∧
      a.observe gen start version e = (a.scope gen).startAt start) := by
  have htakes : ((a.scope gen).startAt start).takes version e = true ↔
      version ≠ 0 ∧ e.armGen = gen ∧
        (a.have_ = true → a.gen = gen → a.current.rxNs ≤ e.rxNs) := by
    simp [takes, scoped_gen, scoped_have, scoped_current, imp_iff_not_or, and_assoc]
    tauto
  unfold observe
  dsimp only
  split_ifs with h
  · obtain ⟨h1, h2, h3⟩ := htakes.mp h
    exact .inl ⟨h1, h2, h3, rfl⟩
  · refine .inr ⟨fun h1 h2 => ?_, rfl⟩
    rw [htakes] at h
    push Not at h
    exact h h1 h2

theorem observe_gen : (a.observe gen start version e).gen = gen := by
  rcases observe_cases a gen start version e with ⟨-, -, -, h⟩ | ⟨-, h⟩ <;>
  · rw [h]
    exact scoped_gen a gen start

/-- an envelope of another generation is not seen at all -/
theorem observe_foreign (h : e.armGen ≠ gen) :
    a.observe gen start version e = a.observe gen start 0 e := by
  rcases observe_cases a gen start version e with ⟨-, h2, -⟩ | ⟨-, h1⟩
  · exact absurd h2 h
  rcases observe_cases a gen start 0 e with ⟨h2, -⟩ | ⟨-, h2⟩
  · exact absurd rfl h2
  rw [h1, h2]

end

/-- the later of the generation's start and its newest accepted ingress -/
def deadmanBase (a : CommandAuthority) : ℕ :=
  let rx := if a.have_ then a.current.rxNs else 0
  if a.armStartNs < rx then rx else a.armStartNs

def fresh (a : CommandAuthority) (session n now : ℕ) (holdNs : ℚ) : Bool :=
  a.have_ && session != 0 && a.current.sessionId == session &&
    a.current.packet.n == n % 2^16 && decide (clampedAgeNs now a.current.rxNs ≤ holdNs)

end CommandAuthority

structure ReferenceCancel where
  sessionId : ℕ := 0
  referenceId : ℕ := 0
  generation : ℕ := 0
  armEpoch : ℕ := 0
  revision : ℕ := 0
  deriving DecidableEq, Inhabited

/-! ## mode selection -/

structure ModeSelectRequest where
  request : ModeSelectPayload := {}
  ticket : ℕ := 0
  deriving DecidableEq, Inhabited

structure ArmMode where
  sessionId : ℕ := 0
  epoch : ℕ := 0
  mode : ModeId := .unselected
  generation : ℕ := 0
  floorNs : ℕ := 0
  deriving DecidableEq, Inhabited

namespace ArmMode

/-- the ARM edge: a new authority, nothing survives -/
def arm (session gen : ℕ) (seed : ModeId) : ArmMode :=
  { sessionId := session, epoch := gen, mode := seed }

def disarm : ArmMode := {}

def belongs (m : ArmMode) (session gen : ℕ) : Bool :=
  m.sessionId != 0 && m.sessionId == session && m.epoch == gen

/-- the actuation gate -/
def admits (m : ArmMode) (native : Bool) (rxNs session gen : ℕ) : Bool :=
  if m.belongs session gen = false then false
  else
    match m.mode with
    | .reference => native
    | .streamed => !native && decide (m.floorNs < rxNs)
    | .unselected => false

def confirm (m : ArmMode) (p : ModeSelectPayload) (now : ℕ) : ArmMode :=
  { m with mode := ModeId.ofCode p.desiredMode, generation := p.generation, floorNs := now }

end ArmMode

end ArmControl.Rt
