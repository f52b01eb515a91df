import ArmControl.Rt.Reference

/-!
# Control-channel vocabulary (`protocol.hpp`)

The opcodes, results and payloads of the TCP control channel, as the server sees them after the
fixed 128-byte frame has been split into fields.  Integer fields are natural numbers; `reserved`
collects the bytes a body must leave zero.  `Body.valid` is `valid_reference_body` (and
`valid_mode_select_body`) on those fields.
-/

namespace ArmControl.Rt

/-- a SHA-256 digest -/
abbrev Digest := BitVec 256

inductive ReferenceStatus where
  | none | running | ended | underflow | cancelled
  deriving DecidableEq, Inhabited

inductive ReferenceResult where
  | ok | malformed | identity | busy | revision | integrity | prefixMismatch | late
  | retired | notAdmitted | groupRefused | groupPeer
  deriving DecidableEq, Inhabited

/-- the command law of an ARM epoch -/
inductive ModeId where
  | unselected | streamed | reference
  deriving DecidableEq, Inhabited

def ModeId.code : ModeId → ℕ
  | .unselected => 0
  | .streamed => 1
  | .reference => 2

def ModeId.ofCode : ℕ → ModeId
  | 1 => .streamed
  | 2 => .reference
  | _ => .unselected

theorem ModeId.code_ofCode {c : ℕ} (h : c = ModeId.streamed.code ∨ c = ModeId.reference.code) :
    (ModeId.ofCode c).code = c := by
  rcases h with h | h <;> subst h <;> rfl

theorem ModeId.ofCode_code (m : ModeId) : ModeId.ofCode m.code = m := by cases m <;> rfl

theorem ModeId.code_inj {m m' : ModeId} (h : m.code = m'.code) : m = m' := by
  rw [← ofCode_code m, h, ofCode_code]

inductive ModeSelectResult where
  | ok | pending | malformed | identity | unsupported | order | busy | refused
  deriving DecidableEq, Inhabited

/-! ## payloads -/

structure IdentityPayload where
  instanceId : String := ""
  modelId : String := ""
  sessionId : ℕ := 0
  jointOrderHash : ℕ := 0
  capabilities : ℕ := 0
  n : ℕ := 0
  deriving DecidableEq, Inhabited

structure ReferenceModePayload where
  sessionId : ℕ := 0
  jointOrderHash : ℕ := 0
  modelDigest : Digest := 0
  enable : ℕ := 0
  reserved : ℕ := 0
  deriving DecidableEq, Inhabited

structure ModeSelectPayload where
  sessionId : ℕ := 0
  generation : ℕ := 0
  expectedPredecessor : ℕ := 0
  armEpoch : ℕ := 0
  desiredMode : ℕ := 0
  modelDigest : Digest := 0
  requestFlags : ℕ := 0
  reserved : ℕ := 0
  deriving DecidableEq, Inhabited

structure ModeSelectReplyPayload where
  sessionId : ℕ := 0
  generation : ℕ := 0
  predecessor : ℕ := 0
  armEpoch : ℕ := 0
  result : ModeSelectResult := .ok
  selectedMode : ModeId := .unselected
  requestedMode : ℕ := 0
  deriving DecidableEq, Inhabited

structure ReferenceBeginPayload where
  sessionId : ℕ := 0
  uploadId : ℕ := 0
  referenceId : ℕ := 0
  jointOrderHash : ℕ := 0
  modelDigest : Digest := 0
  armEpoch : ℕ := 0
  expectedRevision : ℕ := 0
  revision : ℕ := 0
  byteCount : ℕ := 0
  knots : ℕ := 0
  n : ℕ := 0
  flags : ℕ := 0
  reserved : ℕ := 0
  deriving DecidableEq, Inhabited

def ReferenceBeginPayload.hermite (b : ReferenceBeginPayload) : Bool := b.flags.testBit 0
def ReferenceBeginPayload.terminal (b : ReferenceBeginPayload) : Bool := b.flags.testBit 1

structure ReferenceChunkPayload where
  uploadId : ℕ := 0
  offset : ℕ := 0
  length : ℕ := 0
  reserved : ℕ := 0
  data : List (BitVec 8) := []
  deriving DecidableEq, Inhabited

structure ReferenceSealPayload where
  uploadId : ℕ := 0
  sha256 : Digest := 0
  reserved : ℕ := 0
  deriving DecidableEq, Inhabited

structure ReferenceCommitPayload where
  sessionId : ℕ := 0
  uploadId : ℕ := 0
  referenceId : ℕ := 0
  armEpoch : ℕ := 0
  expectedRevision : ℕ := 0
  revision : ℕ := 0
  protectedUntil : F64 := .zero
  latestPhase : F64 := .zero
  selectionBudgetNs : ℕ := 0
  reserved : ℕ := 0
  deriving DecidableEq, Inhabited

/-- the body of ABORT (`id` is an upload) and of CANCEL (`id` is a reference) -/
structure ReferenceRetirePayload where
  sessionId : ℕ := 0
  id : ℕ := 0
  armEpoch : ℕ := 0
  revision : ℕ := 0
  reserved : ℕ := 0
  deriving DecidableEq, Inhabited

structure GroupMemberPayload where
  sessionId : ℕ := 0
  groupId : ℕ := 0
  armEpoch : ℕ := 0
  memberIndex : ℕ := 0
  memberCount : ℕ := 0
  reserved : ℕ := 0
  deriving DecidableEq, Inhabited

structure GroupCommitPayload where
  sessionId : ℕ := 0
  groupId : ℕ := 0
  uploadId : ℕ := 0
  referenceId : ℕ := 0
  budgetNs : ℕ := 0
  armEpoch : ℕ := 0
  memberIndex : ℕ := 0
  reserved : ℕ := 0
  deriving DecidableEq, Inhabited

structure ReferenceReplyPayload where
  uploadId : ℕ := 0
  referenceId : ℕ := 0
  revision : ℕ := 0
  result : ReferenceResult := .ok
  operation : ℕ := 0
  deriving DecidableEq, Inhabited

/-! ## frames -/

/-- the body of a received control frame, by opcode -/
inductive Body where
  | arm
  | disarm
  | ping
  | status
  | setActive
  | claim (p : IdentityPayload)
  | referenceMode (p : ReferenceModePayload)
  | modeSelect (p : ModeSelectPayload)
  | referenceBegin (p : ReferenceBeginPayload)
  | referenceChunk (p : ReferenceChunkPayload)
  | referenceSeal (p : ReferenceSealPayload)
  | referenceCommit (p : ReferenceCommitPayload)
  | referenceAbort (p : ReferenceRetirePayload)
  | cancelReference (p : ReferenceRetirePayload)
  | groupJoin (p : GroupMemberPayload)
  | groupCommit (p : GroupCommitPayload)
  | groupCancel (p : GroupMemberPayload)
  /-- the opcodes of the server's own status frames: only their validity is read -/
  | referenceStatus (wellFormed : Bool)
  | groupStatus (wellFormed : Bool)
  | unknown
  deriving DecidableEq, Inhabited

/-- a received frame with the control magic -/
structure ControlPacket where
  seq : ℕ := 0
  arg : ℕ := 0
  body : Body := .unknown
  deriving DecidableEq, Inhabited

/-- `ControlPacket.type` of the bodies that replies echo as `operation` -/
def Body.opcode : Body → ℕ
  | .arm => 2
  | .disarm => 3
  | .ping => 4
  | .status => 6
  | .setActive => 8
  | .claim _ => 10
  | .referenceMode _ => 11
  | .modeSelect _ => 12
  | .referenceBegin _ => 32
  | .referenceChunk _ => 33
  | .referenceSeal _ => 34
  | .referenceCommit _ => 35
  | .referenceAbort _ => 36
  | .cancelReference _ => 37
  | .groupJoin _ => 39
  | .groupCommit _ => 40
  | .groupCancel _ => 41
  | .referenceStatus _ => 38
  | .groupStatus _ => 42
  | .unknown => 0

def referenceChunkBytes : ℕ := 88
def maxReferenceBytes : ℕ := 128 * (8 + 16 * 16)
def groupMaxBudgetNs : ℕ := 10000000000

def ReferenceModePayload.valid (p : ReferenceModePayload) : Bool :=
  p.sessionId != 0 && p.enable == 1 && p.modelDigest != 0 && p.reserved == 0

def ModeSelectPayload.valid (p : ModeSelectPayload) : Bool :=
  p.sessionId != 0 && p.generation != 0 && p.armEpoch != 0 &&
    p.generation == p.expectedPredecessor + 1 &&
    (p.desiredMode == ModeId.streamed.code || p.desiredMode == ModeId.reference.code) &&
    p.requestFlags == 0 &&
    (if p.desiredMode = ModeId.reference.code then p.modelDigest != 0 else p.modelDigest == 0) &&
    p.reserved == 0

def ReferenceBeginPayload.valid (p : ReferenceBeginPayload) : Bool :=
  p.sessionId != 0 && p.uploadId != 0 && p.referenceId != 0 && p.armEpoch != 0 &&
    p.revision != 0 && p.revision == p.expectedRevision + 1 &&
    decide (2 ≤ p.knots) && decide (p.knots ≤ maxReferenceKnots) &&
    decide (1 ≤ p.n) && decide (p.n ≤ maxJoints) && decide (p.flags < 4) &&
    p.byteCount == p.knots * (8 + 8 * p.n * (if p.hermite then 2 else 1)) &&
    p.modelDigest != 0 && p.reserved == 0

def ReferenceChunkPayload.valid (p : ReferenceChunkPayload) : Bool :=
  p.uploadId != 0 && p.reserved == 0 && p.length != 0 &&
    decide (p.length ≤ referenceChunkBytes) && decide (p.offset + p.length ≤ maxReferenceBytes) &&
    p.data.length == p.length

def ReferenceSealPayload.valid (p : ReferenceSealPayload) : Bool :=
  p.uploadId != 0 && p.reserved == 0

def ReferenceCommitPayload.valid (p : ReferenceCommitPayload) : Bool :=
  p.sessionId != 0 && p.uploadId != 0 && p.referenceId != 0 && p.armEpoch != 0 &&
    p.revision != 0 && p.revision == p.expectedRevision + 1 &&
    p.protectedUntil.isFinite && p.latestPhase.isFinite &&
    decide (0 ≤ p.protectedUntil.rat) && decide (0 ≤ p.latestPhase.rat) &&
    (if p.expectedRevision ≠ 0 then
      p.selectionBudgetNs == 0 && decide (p.latestPhase.rat ≤ p.protectedUntil.rat) &&
        decide (0 < p.latestPhase.rat)
    else p.latestPhase.rat == 0 && p.protectedUntil.rat == 0) &&
    p.reserved == 0

def ReferenceRetirePayload.valid (p : ReferenceRetirePayload) (abort : Bool) : Bool :=
  p.sessionId != 0 && p.id != 0 && p.armEpoch != 0 &&
    (if abort then p.revision == 0 else p.revision != 0) && p.reserved == 0

def GroupMemberPayload.valid (p : GroupMemberPayload) : Bool :=
  p.sessionId != 0 && p.groupId != 0 && p.armEpoch != 0 && decide (2 ≤ p.memberCount) &&
    decide (p.memberCount ≤ 4) && decide (p.memberIndex < p.memberCount) && p.reserved == 0

def GroupCommitPayload.valid (p : GroupCommitPayload) : Bool :=
  p.sessionId != 0 && p.groupId != 0 && p.uploadId != 0 && p.referenceId != 0 && p.armEpoch != 0 &&
    p.budgetNs != 0 && decide (p.budgetNs ≤ groupMaxBudgetNs) && decide (p.memberIndex < 4) &&
    p.reserved == 0

/-- `valid_reference_body` -/
def Body.valid : Body → Bool
  | .referenceMode p => p.valid
  | .referenceBegin p => p.valid
  | .referenceChunk p => p.valid
  | .referenceSeal p => p.valid
  | .referenceCommit p => p.valid
  | .referenceAbort p => p.valid true
  | .cancelReference p => p.valid false
  | .groupJoin p => p.valid
  | .groupCancel p => p.valid
  | .groupCommit p => p.valid
  | .referenceStatus wellFormed => wellFormed
  | .groupStatus wellFormed => wellFormed
  | _ => false

end ArmControl.Rt
