import ArmControl.Lib.Binary64
import ArmControl.Lib.Bytes

/-!
# The server's wire decoders (`protocol.hpp`)

A received frame is copied into a packed struct and checked field by field.  A struct is read with
the offsets its source comments give; integer fields keep their width, so that sums wrap as the
source's do, and doubles are their bits.

* `ControlPacket`               the 128-byte control frame;
* `decodeReferenceControl`      v7 bodies and the v5 REFERENCE_MODE body;
* `decodeModeSelect`            CTL_MODE_SELECT and CTL_MODE_STATUS;
* `decodeReferenceCommand`      the 448-byte dynamics envelope.
-/

namespace ArmControl.Rt
namespace Wire
open Bytes

def u16 (t : List Byte) (at_ : ℕ) : BitVec 16 := BitVec.ofNat 16 (nat (slice t at_ 2))
def u32 (t : List Byte) (at_ : ℕ) : BitVec 32 := BitVec.ofNat 32 (nat (slice t at_ 4))
def u64 (t : List Byte) (at_ : ℕ) : BitVec 64 := BitVec.ofNat 64 (nat (slice t at_ 8))
def f64 (t : List Byte) (at_ : ℕ) : F64 := ⟨u64 t at_⟩

def zeroBytes (bs : List Byte) : Bool := bs.all (· == 0)

/-! ## constants -/

def magicCmd : BitVec 32 := 0x444D4341
def magicCtl : BitVec 32 := 0x4C544341
def version : BitVec 16 := 5
def referenceVersion : BitVec 16 := 7
def maxReferenceKnots : BitVec 16 := 128
def referenceChunkBytes : BitVec 32 := 88
def maxReferenceBytes : BitVec 32 := 128 * (8 + 16 * 16)
def maxJoints : ℕ := 16
def groupMaxBudgetNs : BitVec 64 := 10000000000
def referenceHermite : BitVec 32 := 1
def referenceTerminal : BitVec 32 := 2
def refNotAdmitted : BitVec 32 := 9
def refGroupPeer : BitVec 32 := 11
def modeUnselected : BitVec 16 := 0
def modeStreamed : BitVec 16 := 1
def modeReference : BitVec 16 := 2
def modeSelRefused : BitVec 32 := 7

/-- `ControlPacket.type` -/
@[match_pattern] abbrev ctlReferenceMode : ℕ := 11
@[match_pattern] abbrev ctlModeSelect : ℕ := 12
@[match_pattern] abbrev ctlModeStatus : ℕ := 13
@[match_pattern] abbrev ctlReferenceBegin : ℕ := 32
@[match_pattern] abbrev ctlReferenceChunk : ℕ := 33
@[match_pattern] abbrev ctlReferenceSeal : ℕ := 34
@[match_pattern] abbrev ctlReferenceCommit : ℕ := 35
@[match_pattern] abbrev ctlReferenceAbort : ℕ := 36
@[match_pattern] abbrev ctlCancelReference : ℕ := 37
@[match_pattern] abbrev ctlReferenceStatus : ℕ := 38
@[match_pattern] abbrev ctlGroupJoin : ℕ := 39
@[match_pattern] abbrev ctlGroupCommit : ℕ := 40
@[match_pattern] abbrev ctlGroupCancel : ℕ := 41
@[match_pattern] abbrev ctlGroupStatus : ℕ := 42

/-! ## the packed structs -/

structure ControlPacket where
  magic : BitVec 32
  version : BitVec 16
  type : BitVec 16
  seq : BitVec 32
  arg : BitVec 32
  tMonoNs : BitVec 64
  text : List Byte

def ControlPacket.read (t : List Byte) : ControlPacket where
  magic := u32 t 0
  version := u16 t 4
  type := u16 t 6
  seq := u32 t 8
  arg := u32 t 12
  tMonoNs := u64 t 16
  text := slice t 24 104

structure ReferenceModePayload where
  sessionId : BitVec 64
  jointOrderHash : BitVec 64
  modelDigest : List Byte
  enable : BitVec 32
  reserved : List Byte

def ReferenceModePayload.read (t : List Byte) : ReferenceModePayload where
  sessionId := u64 t 0
  jointOrderHash := u64 t 8
  modelDigest := slice t 16 32
  enable := u32 t 48
  reserved := slice t 52 52

structure ModeSelectPayload where
  sessionId : BitVec 64
  generation : BitVec 64
  expectedPredecessor : BitVec 64
  armEpoch : BitVec 32
  desiredMode : BitVec 16
  reserved0 : BitVec 16
  modelDigest : List Byte
  requestFlags : BitVec 32
  reserved : List Byte

def ModeSelectPayload.read (t : List Byte) : ModeSelectPayload where
  sessionId := u64 t 0
  generation := u64 t 8
  expectedPredecessor := u64 t 16
  armEpoch := u32 t 24
  desiredMode := u16 t 28
  reserved0 := u16 t 30
  modelDigest := slice t 32 32
  requestFlags := u32 t 64
  reserved := slice t 68 36

structure ModeSelectReplyPayload where
  sessionId : BitVec 64
  generation : BitVec 64
  predecessor : BitVec 64
  armEpoch : BitVec 32
  result : BitVec 32
  selectedMode : BitVec 16
  requestedMode : BitVec 16
  detail : BitVec 32
  reserved : List Byte

def ModeSelectReplyPayload.read (t : List Byte) : ModeSelectReplyPayload where
  sessionId := u64 t 0
  generation := u64 t 8
  predecessor := u64 t 16
  armEpoch := u32 t 24
  result := u32 t 28
  selectedMode := u16 t 32
  requestedMode := u16 t 34
  detail := u32 t 36
  reserved := slice t 40 64

structure ReferenceBeginPayload where
  sessionId : BitVec 64
  uploadId : BitVec 64
  referenceId : BitVec 64
  jointOrderHash : BitVec 64
  modelDigest : List Byte
  armEpoch : BitVec 32
  expectedRevision : BitVec 32
  revision : BitVec 32
  byteCount : BitVec 32
  knots : BitVec 16
  n : BitVec 16
  flags : BitVec 32
  reserved : List Byte

def ReferenceBeginPayload.read (t : List Byte) : ReferenceBeginPayload where
  sessionId := u64 t 0
  uploadId := u64 t 8
  referenceId := u64 t 16
  jointOrderHash := u64 t 24
  modelDigest := slice t 32 32
  armEpoch := u32 t 64
  expectedRevision := u32 t 68
  revision := u32 t 72
  byteCount := u32 t 76
  knots := u16 t 80
  n := u16 t 82
  flags := u32 t 84
  reserved := slice t 88 16

structure ReferenceChunkPayload where
  uploadId : BitVec 64
  offset : BitVec 32
  length : BitVec 16
  reserved : BitVec 16
  data : List Byte

def ReferenceChunkPayload.read (t : List Byte) : ReferenceChunkPayload where
  uploadId := u64 t 0
  offset := u32 t 8
  length := u16 t 12
  reserved := u16 t 14
  data := slice t 16 88

structure ReferenceSealPayload where
  uploadId : BitVec 64
  sha256 : List Byte
  reserved : List Byte

def ReferenceSealPayload.read (t : List Byte) : ReferenceSealPayload where
  uploadId := u64 t 0
  sha256 := slice t 8 32
  reserved := slice t 40 64

structure ReferenceCommitPayload where
  sessionId : BitVec 64
  uploadId : BitVec 64
  referenceId : BitVec 64
  armEpoch : BitVec 32
  expectedRevision : BitVec 32
  revision : BitVec 32
  reserved0 : BitVec 32
  protectedUntil : F64
  latestPhase : F64
  selectionBudgetNs : BitVec 64
  reserved : List Byte

def ReferenceCommitPayload.read (t : List Byte) : ReferenceCommitPayload where
  sessionId := u64 t 0
  uploadId := u64 t 8
  referenceId := u64 t 16
  armEpoch := u32 t 24
  expectedRevision := u32 t 28
  revision := u32 t 32
  reserved0 := u32 t 36
  protectedUntil := f64 t 40
  latestPhase := f64 t 48
  selectionBudgetNs := u64 t 56
  reserved := slice t 64 40

structure ReferenceRetirePayload where
  sessionId : BitVec 64
  id : BitVec 64
  armEpoch : BitVec 32
  revision : BitVec 32
  reserved : List Byte

def ReferenceRetirePayload.read (t : List Byte) : ReferenceRetirePayload where
  sessionId := u64 t 0
  id := u64 t 8
  armEpoch := u32 t 16
  revision := u32 t 20
  reserved := slice t 24 80

structure GroupMemberPayload where
  sessionId : BitVec 64
  groupId : BitVec 64
  armEpoch : BitVec 32
  memberIndex : BitVec 32
  memberCount : BitVec 32
  reserved0 : BitVec 32
  reserved : List Byte

def GroupMemberPayload.read (t : List Byte) : GroupMemberPayload where
  sessionId := u64 t 0
  groupId := u64 t 8
  armEpoch := u32 t 16
  memberIndex := u32 t 20
  memberCount := u32 t 24
  reserved0 := u32 t 28
  reserved := slice t 32 72

structure GroupCommitPayload where
  sessionId : BitVec 64
  groupId : BitVec 64
  uploadId : BitVec 64
  referenceId : BitVec 64
  budgetNs : BitVec 64
  armEpoch : BitVec 32
  memberIndex : BitVec 32
  reserved : List Byte

def GroupCommitPayload.read (t : List Byte) : GroupCommitPayload where
  sessionId := u64 t 0
  groupId := u64 t 8
  uploadId := u64 t 16
  referenceId := u64 t 24
  budgetNs := u64 t 32
  armEpoch := u32 t 40
  memberIndex := u32 t 44
  reserved := slice t 48 56

structure GroupStatusPayload where
  groupId : BitVec 64
  deadlineNs : BitVec 64
  selectedNs : BitVec 64
  result : BitVec 32
  operation : BitVec 32
  state : BitVec 32
  peerVerdict : BitVec 32
  reserved0 : BitVec 32
  reserved : List Byte

def GroupStatusPayload.read (t : List Byte) : GroupStatusPayload where
  groupId := u64 t 0
  deadlineNs := u64 t 8
  selectedNs := u64 t 16
  result := u32 t 24
  operation := u32 t 28
  state := u32 t 32
  peerVerdict := u32 t 36
  reserved0 := u32 t 40
  reserved := slice t 44 60

structure ReferenceReplyPayload where
  uploadId : BitVec 64
  referenceId : BitVec 64
  revision : BitVec 32
  result : BitVec 32
  operation : BitVec 32
  reserved0 : BitVec 32
  reserved : List Byte

def ReferenceReplyPayload.read (t : List Byte) : ReferenceReplyPayload where
  uploadId := u64 t 0
  referenceId := u64 t 8
  revision := u32 t 16
  result := u32 t 20
  operation := u32 t 24
  reserved0 := u32 t 28
  reserved := slice t 32 72

/-- `tau_ff`, `kp` and `kd` have 16 entries each -/
structure ReferenceCommandPacket where
  magic : BitVec 32
  version : BitVec 16
  n : BitVec 16
  seq : BitVec 32
  armEpoch : BitVec 32
  tMonoNs : BitVec 64
  sessionId : BitVec 64
  referenceId : BitVec 64
  revision : BitVec 32
  ageUs : BitVec 32
  phase : F64
  validForUs : BitVec 32
  phaseWindowUs : BitVec 32
  tauFf : ℕ → F64
  kp : ℕ → F64
  kd : ℕ → F64

def ReferenceCommandPacket.read (t : List Byte) : ReferenceCommandPacket where
  magic := u32 t 0
  version := u16 t 4
  n := u16 t 6
  seq := u32 t 8
  armEpoch := u32 t 12
  tMonoNs := u64 t 16
  sessionId := u64 t 24
  referenceId := u64 t 32
  revision := u32 t 40
  ageUs := u32 t 44
  phase := f64 t 48
  validForUs := u32 t 56
  phaseWindowUs := u32 t 60
  tauFf j := f64 t (64 + 8 * j)
  kp j := f64 t (192 + 8 * j)
  kd j := f64 t (320 + 8 * j)

/-! ## `valid_reference_body`, case by case -/

def ReferenceModePayload.valid (p : ReferenceModePayload) : Bool :=
  p.sessionId != 0 && p.enable == 1 && !zeroBytes p.modelDigest && zeroBytes p.reserved

/-- the size of the serialised knots, computed in 32 bits -/
def ReferenceBeginPayload.size (p : ReferenceBeginPayload) : BitVec 32 :=
  p.knots.setWidth 32 *
    (8 + 8 * p.n.setWidth 32 * (if p.flags &&& referenceHermite != 0 then 2 else 1))

def ReferenceBeginPayload.valid (p : ReferenceBeginPayload) : Bool :=
  p.sessionId != 0 && p.uploadId != 0 && p.referenceId != 0 && p.armEpoch != 0 &&
    (p.revision != 0 && p.revision == p.expectedRevision + 1) &&
    decide (2 ≤ p.knots) && decide (p.knots ≤ maxReferenceKnots) &&
    decide (1 ≤ p.n) && decide (p.n.toNat ≤ maxJoints) &&
    p.flags &&& ~~~(referenceHermite ||| referenceTerminal) == 0 &&
    p.byteCount == p.size && !zeroBytes p.modelDigest && zeroBytes p.reserved

def ReferenceChunkPayload.valid (p : ReferenceChunkPayload) : Bool :=
  p.uploadId != 0 && p.reserved == 0 && p.length != 0 &&
    decide (p.length.setWidth 32 ≤ referenceChunkBytes) &&
    decide (p.offset ≤ maxReferenceBytes - p.length.setWidth 32) &&
    zeroBytes (slice p.data p.length.toNat (88 - p.length.toNat))

def ReferenceSealPayload.valid (p : ReferenceSealPayload) : Bool :=
  p.uploadId != 0 && zeroBytes p.reserved

def ReferenceCommitPayload.valid (p : ReferenceCommitPayload) : Bool :=
  p.sessionId != 0 && p.uploadId != 0 && p.referenceId != 0 && p.armEpoch != 0 &&
    (p.revision != 0 && p.revision == p.expectedRevision + 1) && p.reserved0 == 0 &&
    p.protectedUntil.isFinite && p.latestPhase.isFinite &&
    Value.le (.fin 0) p.protectedUntil.value && Value.le (.fin 0) p.latestPhase.value &&
    (if p.expectedRevision != 0 then
      p.selectionBudgetNs == 0 && Value.le p.latestPhase.value p.protectedUntil.value &&
        Value.lt (.fin 0) p.latestPhase.value
    else Value.eq p.latestPhase.value (.fin 0) && Value.eq p.protectedUntil.value (.fin 0)) &&
    zeroBytes p.reserved

def ReferenceRetirePayload.valid (p : ReferenceRetirePayload) (type : ℕ) : Bool :=
  p.sessionId != 0 && p.id != 0 && p.armEpoch != 0 &&
    (if type = ctlReferenceAbort then p.revision == 0 else decide (0 < p.revision)) &&
    zeroBytes p.reserved

def ReferenceReplyPayload.valid (p : ReferenceReplyPayload) : Bool :=
  decide (p.result ≤ refNotAdmitted) && decide (ctlReferenceBegin ≤ p.operation.toNat) &&
    decide (p.operation.toNat ≤ ctlCancelReference) && p.reserved0 == 0 && zeroBytes p.reserved

def GroupMemberPayload.valid (p : GroupMemberPayload) : Bool :=
  p.sessionId != 0 && p.groupId != 0 && p.armEpoch != 0 && decide (2 ≤ p.memberCount) &&
    decide (p.memberCount ≤ 4) && decide (p.memberIndex < p.memberCount) && p.reserved0 == 0 &&
    zeroBytes p.reserved

def GroupCommitPayload.valid (p : GroupCommitPayload) : Bool :=
  p.sessionId != 0 && p.groupId != 0 && p.uploadId != 0 && p.referenceId != 0 && p.armEpoch != 0 &&
    p.budgetNs != 0 && decide (p.budgetNs ≤ groupMaxBudgetNs) && decide (p.memberIndex < 4) &&
    zeroBytes p.reserved

def GroupStatusPayload.valid (p : GroupStatusPayload) : Bool :=
  p.groupId != 0 && decide (p.result ≤ refGroupPeer) &&
    (p.operation == 0 || (decide (ctlGroupJoin ≤ p.operation.toNat) &&
      decide (p.operation.toNat ≤ ctlGroupCancel))) &&
    decide (p.state ≤ 7) && decide (p.peerVerdict ≤ 4) && p.reserved0 == 0 && zeroBytes p.reserved

def ModeSelectPayload.valid (p : ModeSelectPayload) : Bool :=
  p.sessionId != 0 && p.armEpoch != 0 &&
    (p.generation != 0 && p.generation == p.expectedPredecessor + 1) &&
    (p.desiredMode == modeStreamed || p.desiredMode == modeReference) &&
    p.reserved0 == 0 && p.requestFlags == 0 &&
    (if p.desiredMode = modeReference then !zeroBytes p.modelDigest else zeroBytes p.modelDigest) &&
    zeroBytes p.reserved

def ModeSelectReplyPayload.valid (p : ModeSelectReplyPayload) : Bool :=
  decide (p.result ≤ modeSelRefused) &&
    (p.selectedMode == modeUnselected || p.selectedMode == modeStreamed ||
      p.selectedMode == modeReference) &&
    (p.requestedMode == modeStreamed || p.requestedMode == modeReference) && zeroBytes p.reserved

def ReferenceCommandPacket.valid (p : ReferenceCommandPacket) : Bool :=
  p.magic == magicCmd && p.version == referenceVersion && decide (1 ≤ p.n) &&
    decide (p.n.toNat ≤ maxJoints) && p.sessionId != 0 && p.armEpoch != 0 && p.referenceId != 0 &&
    p.revision != 0 && p.phase.isFinite && !Value.lt p.phase.value (.fin 0) &&
    p.validForUs != 0 && p.phaseWindowUs != 0 && !decide (p.validForUs < p.ageUs) &&
    (List.range maxJoints).all fun j =>
      (p.tauFf j).isFinite && (p.kp j).isFinite && (p.kd j).isFinite &&
        !Value.lt (p.kp j).value (.fin 0) && !Value.lt (p.kd j).value (.fin 0) &&
        !(decide (p.n.toNat ≤ j) &&
          (!Value.eq (p.tauFf j).value (.fin 0) || !Value.eq (p.kp j).value (.fin 0) ||
            !Value.eq (p.kd j).value (.fin 0)))

def validReferenceBody (type : ℕ) (body : List Byte) : Bool :=
  match type with
  | ctlReferenceMode => (ReferenceModePayload.read body).valid
  | ctlReferenceBegin => (ReferenceBeginPayload.read body).valid
  | ctlReferenceChunk => (ReferenceChunkPayload.read body).valid
  | ctlReferenceSeal => (ReferenceSealPayload.read body).valid
  | ctlReferenceCommit => (ReferenceCommitPayload.read body).valid
  | ctlReferenceAbort => (ReferenceRetirePayload.read body).valid ctlReferenceAbort
  | ctlCancelReference => (ReferenceRetirePayload.read body).valid ctlCancelReference
  | ctlReferenceStatus => (ReferenceReplyPayload.read body).valid
  | ctlGroupJoin => (GroupMemberPayload.read body).valid
  | ctlGroupCancel => (GroupMemberPayload.read body).valid
  | ctlGroupCommit => (GroupCommitPayload.read body).valid
  | ctlGroupStatus => (GroupStatusPayload.read body).valid
  | _ => false

/-! ## the decoders -/

def referenceOpcode (type : ℕ) : Bool :=
  decide (ctlReferenceBegin ≤ type) && decide (type ≤ ctlGroupStatus)

def decodeReferenceControl (bytes : List Byte) (negotiated : Bool) : Option ControlPacket :=
  let p := ControlPacket.read bytes
  if bytes.length ≠ 128 then none
  else if p.magic != magicCtl || p.arg != 0 ||
      (if p.type.toNat = ctlReferenceMode then p.version != version
        else !negotiated || p.version != referenceVersion || !referenceOpcode p.type.toNat) ||
      !validReferenceBody p.type.toNat p.text then none
  else some p

def decodeModeSelect (bytes : List Byte) (wantType : ℕ) : Option ControlPacket :=
  let p := ControlPacket.read bytes
  if bytes.length ≠ 128 then none
  else if p.magic != magicCtl || p.arg != 0 || p.type.toNat != wantType || p.version != version then
    none
  else if (if wantType = ctlModeSelect then !(ModeSelectPayload.read p.text).valid
      else !(ModeSelectReplyPayload.read p.text).valid) then none
  else some p

def decodeReferenceCommand (bytes : List Byte) (negotiated : Bool) : Option ReferenceCommandPacket :=
  if !negotiated || bytes.length != 448 then none
  else if (ReferenceCommandPacket.read bytes).valid then some (ReferenceCommandPacket.read bytes)
  else none

/-! ## fields as numbers -/

theorem toNat_field (t : List Byte) (at_ k : ℕ) :
    (BitVec.ofNat (8 * k) (nat (slice t at_ k))).toNat = nat (slice t at_ k) := by
  rw [BitVec.toNat_ofNat, Nat.mod_eq_of_lt]
  have hlen : (slice t at_ k).length ≤ k := by
    rw [slice, List.length_take]
    omega
  have h256 : (256 : ℕ) ^ k = 2 ^ (8 * k) := by rw [Nat.pow_mul]
  have hlt := nat_lt (slice t at_ k)
  calc nat (slice t at_ k) < 256 ^ (slice t at_ k).length := hlt
    _ ≤ 256 ^ k := Nat.pow_le_pow_right (by decide) hlen
    _ = 2 ^ (8 * k) := h256

@[simp] theorem toNat_u16 (t : List Byte) (at_ : ℕ) : (u16 t at_).toNat = nat (slice t at_ 2) :=
  toNat_field t at_ 2

@[simp] theorem toNat_u32 (t : List Byte) (at_ : ℕ) : (u32 t at_).toNat = nat (slice t at_ 4) :=
  toNat_field t at_ 4

@[simp] theorem toNat_u64 (t : List Byte) (at_ : ℕ) : (u64 t at_).toNat = nat (slice t at_ 8) :=
  toNat_field t at_ 8

section
variable {w : ℕ} (x y : BitVec w)

theorem beq_toNat : (x == y) = (x.toNat == y.toNat) := by
  rw [Bool.eq_iff_iff, beq_iff_eq, beq_iff_eq, BitVec.toNat_inj]

theorem beq_zero_toNat : (x == 0) = (x.toNat == 0) := by
  rw [beq_toNat, show (0 : BitVec w).toNat = 0 from BitVec.toNat_zero]

theorem bne_zero_toNat : (x != 0) = (x.toNat != 0) := by
  rw [bne, bne, beq_zero_toNat]

/-- a nonzero word is the successor of another exactly when its number is: no wrap is left -/
theorem succ_toNat : (x != 0 && x == y + 1) = (x.toNat != 0 && x.toNat == y.toNat + 1) := by
  have hx := x.isLt
  have hy := y.isLt
  have h1 : (1 : BitVec w).toNat = 1 % 2 ^ w := BitVec.toNat_ofNat 1 w
  rw [bne_zero_toNat, Bool.eq_iff_iff]
  simp only [Bool.and_eq_true, bne_iff_ne, beq_iff_eq, ← BitVec.toNat_inj, BitVec.toNat_add]
  rw [h1, Nat.add_mod_mod]
  refine and_congr_right fun h0 => ?_
  rcases Nat.lt_or_ge (y.toNat + 1) (2 ^ w) with hlt | hge
  · rw [Nat.mod_eq_of_lt hlt]
  · rw [show y.toNat + 1 = 2 ^ w by omega, Nat.mod_self]
    omega

end

/-- no wrap in the size of an admissible upload -/
theorem size_no_wrap (k n : BitVec 16) (c : BitVec 32) (hk : k.toNat ≤ 128) (hn : n.toNat ≤ 16)
    (hc : c.toNat ≤ 2) :
    (k.setWidth 32 * (8 + 8 * n.setWidth 32 * c)).toNat =
      k.toNat * (8 + 8 * n.toNat * c.toNat) := by
  have hlt : k.toNat * (8 + 8 * n.toNat * c.toNat) < 2 ^ 32 := by
    calc k.toNat * (8 + 8 * n.toNat * c.toNat) ≤ 128 * (8 + 8 * 16 * 2) := by gcongr
      _ < 2 ^ 32 := by decide
  have h8 : (8 : BitVec 32).toNat = 8 := rfl
  simp only [BitVec.toNat_mul, BitVec.toNat_add, BitVec.toNat_setWidth, h8, Nat.mod_mul_mod,
    Nat.mul_mod_mod, Nat.add_mod_mod]
  exact Nat.mod_eq_of_lt hlt

theorem ReferenceBeginPayload.size_toNat (p : ReferenceBeginPayload) (hk : p.knots.toNat ≤ 128)
    (hn : p.n.toNat ≤ 16) :
    p.size.toNat = p.knots.toNat *
      (8 + 8 * p.n.toNat * (if p.flags.toNat &&& 1 != 0 then 2 else 1)) := by
  have hf : (p.flags &&& referenceHermite != 0) = (p.flags.toNat &&& 1 != 0) := by
    rw [bne_zero_toNat, BitVec.toNat_and]
    rfl
  rw [ReferenceBeginPayload.size, hf]
  split
  · exact size_no_wrap p.knots p.n 2 hk hn (by decide)
  · exact size_no_wrap p.knots p.n 1 hk hn (by decide)

end Wire
end ArmControl.Rt
