import Mathlib.Data.List.DropRight
import Mathlib.Tactic.IntervalCases
import Mathlib.Tactic.Tauto
import ArmControl.Rt.ControlSession
import ArmControl.Rt.Wire

/-!
# The control thread on the wire

The control thread of `ControlSession` sees frames that are already split into fields, and replies
that are not yet packed.  Here both ends are bytes.

* `body7`, `body5`, `ofFrame`   the fields of a received frame;
* `ofFrame_decodes`      the checks on the fields are the checks of the decoders;
* `Reply.encode`         the frame of a status reply, as `make` and the struct copies lay it out;
* `wireStep`             a step of the server whose received frame is given by its 128 bytes.
-/

namespace ArmControl.Rt
namespace Wire
open Bytes

/-! ## received frames -/

def digest (b : List Byte) : Digest := BitVec.ofNat 256 (nat b)

def ReferenceModePayload.payload (p : ReferenceModePayload) : Rt.ReferenceModePayload where
  sessionId := p.sessionId.toNat
  jointOrderHash := p.jointOrderHash.toNat
  modelDigest := digest p.modelDigest
  enable := p.enable.toNat
  reserved := nat p.reserved

def ModeSelectPayload.payload (p : ModeSelectPayload) : Rt.ModeSelectPayload where
  sessionId := p.sessionId.toNat
  generation := p.generation.toNat
  expectedPredecessor := p.expectedPredecessor.toNat
  armEpoch := p.armEpoch.toNat
  desiredMode := p.desiredMode.toNat
  modelDigest := digest p.modelDigest
  requestFlags := p.requestFlags.toNat
  reserved := p.reserved0.toNat + nat p.reserved

def ReferenceBeginPayload.payload (p : ReferenceBeginPayload) : Rt.ReferenceBeginPayload where
  sessionId := p.sessionId.toNat
  uploadId := p.uploadId.toNat
  referenceId := p.referenceId.toNat
  jointOrderHash := p.jointOrderHash.toNat
  modelDigest := digest p.modelDigest
  armEpoch := p.armEpoch.toNat
  expectedRevision := p.expectedRevision.toNat
  revision := p.revision.toNat
  byteCount := p.byteCount.toNat
  knots := p.knots.toNat
  n := p.n.toNat
  flags := p.flags.toNat
  reserved := nat p.reserved

/-- `reserved` collects the padding behind the data -/
def ReferenceChunkPayload.payload (p : ReferenceChunkPayload) : Rt.ReferenceChunkPayload where
  uploadId := p.uploadId.toNat
  offset := p.offset.toNat
  length := p.length.toNat
  reserved := p.reserved.toNat + nat (p.data.drop p.length.toNat)
  data := p.data.take p.length.toNat

def ReferenceSealPayload.payload (p : ReferenceSealPayload) : Rt.ReferenceSealPayload where
  uploadId := p.uploadId.toNat
  sha256 := digest p.sha256
  reserved := nat p.reserved

def ReferenceCommitPayload.payload (p : ReferenceCommitPayload) : Rt.ReferenceCommitPayload where
  sessionId := p.sessionId.toNat
  uploadId := p.uploadId.toNat
  referenceId := p.referenceId.toNat
  armEpoch := p.armEpoch.toNat
  expectedRevision := p.expectedRevision.toNat
  revision := p.revision.toNat
  protectedUntil := p.protectedUntil
  latestPhase := p.latestPhase
  selectionBudgetNs := p.selectionBudgetNs.toNat
  reserved := p.reserved0.toNat + nat p.reserved

def ReferenceRetirePayload.payload (p : ReferenceRetirePayload) : Rt.ReferenceRetirePayload where
  sessionId := p.sessionId.toNat
  id := p.id.toNat
  armEpoch := p.armEpoch.toNat
  revision := p.revision.toNat
  reserved := nat p.reserved

def GroupMemberPayload.payload (p : GroupMemberPayload) : Rt.GroupMemberPayload where
  sessionId := p.sessionId.toNat
  groupId := p.groupId.toNat
  armEpoch := p.armEpoch.toNat
  memberIndex := p.memberIndex.toNat
  memberCount := p.memberCount.toNat
  reserved := p.reserved0.toNat + nat p.reserved

def GroupCommitPayload.payload (p : GroupCommitPayload) : Rt.GroupCommitPayload where
  sessionId := p.sessionId.toNat
  groupId := p.groupId.toNat
  uploadId := p.uploadId.toNat
  referenceId := p.referenceId.toNat
  budgetNs := p.budgetNs.toNat
  armEpoch := p.armEpoch.toNat
  memberIndex := p.memberIndex.toNat
  reserved := nat p.reserved

def chars (b : List Byte) : String := String.ofList (b.map fun x => Char.ofNat x.toNat)

/-- the ids of a CLAIM: the instance id is compared with its padding, the model id up to its NUL -/
def identityPayload (t : List Byte) : IdentityPayload where
  instanceId := chars ((slice t 0 31).rdropWhile (· == 0))
  modelId := chars ((slice t 32 32).takeWhile (· != 0))
  sessionId := (u64 t 64).toNat
  jointOrderHash := (u64 t 72).toNat
  capabilities := (u32 t 88).toNat
  n := (u32 t 92).toNat

/-- the body of a v7 frame -/
def body7 (type : ℕ) (t : List Byte) : Body :=
  match type with
  | ctlReferenceBegin => .referenceBegin (ReferenceBeginPayload.read t).payload
  | ctlReferenceChunk => .referenceChunk (ReferenceChunkPayload.read t).payload
  | ctlReferenceSeal => .referenceSeal (ReferenceSealPayload.read t).payload
  | ctlReferenceCommit => .referenceCommit (ReferenceCommitPayload.read t).payload
  | ctlReferenceAbort => .referenceAbort (ReferenceRetirePayload.read t).payload
  | ctlCancelReference => .cancelReference (ReferenceRetirePayload.read t).payload
  | ctlReferenceStatus => .referenceStatus (ReferenceReplyPayload.read t).valid
  | ctlGroupJoin => .groupJoin (GroupMemberPayload.read t).payload
  | ctlGroupCancel => .groupCancel (GroupMemberPayload.read t).payload
  | ctlGroupCommit => .groupCommit (GroupCommitPayload.read t).payload
  | ctlGroupStatus => .groupStatus (GroupStatusPayload.read t).valid
  | _ => .unknown

/-- the body of a v5 frame -/
def body5 (type : ℕ) (t : List Byte) : Body :=
  match type with
  | 2 => .arm
  | 3 => .disarm
  | 4 => .ping
  | 6 => .status
  | 8 => .setActive
  | 10 => .claim (identityPayload t)
  | ctlReferenceMode => .referenceMode (ReferenceModePayload.read t).payload
  | ctlModeSelect => .modeSelect (ModeSelectPayload.read t).payload
  | _ => .unknown

/-- a received frame; without the control magic it is skipped -/
def ofFrame (t : List Byte) : Option Rt.ControlPacket :=
  let p := ControlPacket.read t
  if p.magic ≠ magicCtl then none
  else some
    { seq := p.seq.toNat, arg := p.arg.toNat
      body := if p.version = referenceVersion then body7 p.type.toNat p.text
        else if p.version = version then body5 p.type.toNat p.text
        else .unknown }

/-! ## the checks on fields are the checks on words -/

theorem nat_beq_zero (b : List Byte) : (nat b == 0) = zeroBytes b := by
  induction b with
  | nil => rfl
  | cons x b ih =>
    have hx : (x == 0) = (x.toNat == 0) := by
      rw [Bool.eq_iff_iff, beq_iff_eq, beq_iff_eq, ← BitVec.toNat_inj]
      rfl
    show (x.toNat + 256 * nat b == 0) = (x == 0 && zeroBytes b)
    rw [← ih, hx, Bool.eq_iff_iff, Bool.and_eq_true, beq_iff_eq, beq_iff_eq, beq_iff_eq]
    omega

theorem add_beq_zero (m n : ℕ) : (m + n == 0) = (m == 0 && n == 0) := by
  rw [Bool.eq_iff_iff, Bool.and_eq_true, beq_iff_eq, beq_iff_eq, beq_iff_eq]
  omega

theorem digest_beq_zero {b : List Byte} (h : b.length = 32) : (digest b == 0) = zeroBytes b := by
  have hlt := nat_lt b
  rw [h] at hlt
  rw [← nat_beq_zero, Bool.eq_iff_iff, beq_iff_eq, beq_iff_eq, ← BitVec.toNat_inj, digest,
    BitVec.toNat_ofNat, Nat.mod_eq_of_lt (by omega)]
  rfl

theorem mode_valid {p : ReferenceModePayload} (hd : p.modelDigest.length = 32) :
    p.payload.valid = p.valid := by
  show (p.sessionId.toNat != 0 && p.enable.toNat == 1 && !(digest p.modelDigest == 0) &&
    nat p.reserved == 0) = _
  rw [ReferenceModePayload.valid, bne_zero_toNat, beq_toNat p.enable, digest_beq_zero hd, nat_beq_zero]
  rfl

theorem flags_lt (x : BitVec 32) :
    (x &&& ~~~(referenceHermite ||| referenceTerminal) == 0) = decide (x.toNat < 4) := by
  rw [Bool.eq_iff_iff, beq_iff_eq, decide_eq_true_eq]
  constructor
  · intro h
    apply Nat.lt_pow_two_of_testBit (n := 2)
    intro i hi
    rw [BitVec.testBit_toNat]
    rcases Nat.lt_or_ge i 32 with hlt | hge
    · have hbit : (x.getLsbD i && (decide (i < 32) && !(3 : BitVec 32).getLsbD i)) = false := by
        rw [← BitVec.getLsbD_not, ← BitVec.getLsbD_and]
        exact (congrArg (fun y : BitVec 32 => y.getLsbD i) h).trans BitVec.getLsbD_zero
      have hmask : (3 : BitVec 32).getLsbD i = false := by
        rw [← BitVec.testBit_toNat]
        exact Nat.testBit_lt_two_pow (calc 3 < 2 ^ 2 := by decide
          _ ≤ 2 ^ i := Nat.pow_le_pow_right (by decide) hi)
      rwa [hmask, decide_eq_true hlt, Bool.not_false, Bool.and_true, Bool.and_true] at hbit
    · exact BitVec.getLsbD_of_ge _ _ hge
  · intro h
    have hx : x = BitVec.ofNat 32 x.toNat := (BitVec.ofNat_toNat 32 x).symm ▸ rfl
    rw [hx]
    generalize x.toNat = n at h
    interval_cases n <;> decide

theorem hermite_iff (n : ℕ) : (n &&& 1 != 0) = n.testBit 0 := by
  rw [Nat.testBit_zero, Nat.and_one_is_mod, Bool.eq_iff_iff, bne_iff_ne, decide_eq_true_eq]
  omega

theorem begin_valid {p : ReferenceBeginPayload} (hd : p.modelDigest.length = 32) :
    p.payload.valid = p.valid := by
  show (p.sessionId.toNat != 0 && p.uploadId.toNat != 0 && p.referenceId.toNat != 0 &&
    p.armEpoch.toNat != 0 && p.revision.toNat != 0 &&
    p.revision.toNat == p.expectedRevision.toNat + 1 &&
    decide (2 ≤ p.knots.toNat) && decide (p.knots.toNat ≤ 128) &&
    decide (1 ≤ p.n.toNat) && decide (p.n.toNat ≤ 16) && decide (p.flags.toNat < 4) &&
    p.byteCount.toNat == p.knots.toNat *
      (8 + 8 * p.n.toNat * (if p.flags.toNat.testBit 0 then 2 else 1)) &&
    !(digest p.modelDigest == 0) && nat p.reserved == 0) = _
  rw [ReferenceBeginPayload.valid, succ_toNat, flags_lt, beq_toNat p.byteCount, digest_beq_zero hd,
    nat_beq_zero]
  by_cases hkn : p.knots.toNat ≤ 128 ∧ p.n.toNat ≤ 16
  · rw [p.size_toNat hkn.1 hkn.2, hermite_iff]
    simp only [bne_zero_toNat, BitVec.le_def, Bool.and_assoc]
    rfl
  · -- out of range on both ends, where the size may wrap
    have hout : ∀ a b c d e f : Bool, (a && decide (p.knots.toNat ≤ 128) && b &&
        decide (p.n.toNat ≤ 16) && c && d && e && f) = false := by
      intro a b c d e f
      rcases not_and_or.mp hkn with h | h <;> simp [h]
    exact (hout _ _ _ _ _ _).trans (hout _ _ _ _ _ _).symm

theorem chunk_valid {p : ReferenceChunkPayload} (hd : p.data.length = 88) :
    p.payload.valid = p.valid := by
  show (p.uploadId.toNat != 0 && p.reserved.toNat + nat (p.data.drop p.length.toNat) == 0 &&
    p.length.toNat != 0 && decide (p.length.toNat ≤ 88) &&
    decide (p.offset.toNat + p.length.toNat ≤ 33792) &&
    (p.data.take p.length.toNat).length == p.length.toNat) = _
  have hw : (p.length.setWidth 32).toNat = p.length.toNat := by
    rw [BitVec.toNat_setWidth, Nat.mod_eq_of_lt]
    have := p.length.isLt
    omega
  have hlen : decide (p.length.setWidth 32 ≤ referenceChunkBytes) = decide (p.length.toNat ≤ 88) := by
    rw [decide_eq_decide, BitVec.le_def, hw]
    rfl
  rw [ReferenceChunkPayload.valid, hlen, add_beq_zero, nat_beq_zero, bne_zero_toNat, bne_zero_toNat,
    beq_zero_toNat]
  by_cases h88 : p.length.toNat ≤ 88
  · have hmax : (maxReferenceBytes - p.length.setWidth 32).toNat = 33792 - p.length.toNat := by
      have hm : maxReferenceBytes.toNat = 33792 := rfl
      rw [BitVec.toNat_sub_of_le (by rw [BitVec.le_def, hw, hm]; omega), hw, hm]
    have hoff : decide (p.offset ≤ maxReferenceBytes - p.length.setWidth 32) =
        decide (p.offset.toNat + p.length.toNat ≤ 33792) := by
      rw [decide_eq_decide, BitVec.le_def, hmax]
      omega
    have hsl : slice p.data p.length.toNat (88 - p.length.toNat) = p.data.drop p.length.toNat := by
      rw [slice, List.take_of_length_le]
      rw [List.length_drop, hd]
    have htake : (p.data.take p.length.toNat).length = p.length.toNat := by
      rw [List.length_take, hd]
      omega
    rw [hoff, hsl, htake, beq_self_eq_true, Bool.and_true]
    generalize zeroBytes (p.data.drop p.length.toNat) = z
    cases z <;> simp
  · simp [h88]

theorem seal_valid (p : ReferenceSealPayload) : p.payload.valid = p.valid := by
  show (p.uploadId.toNat != 0 && nat p.reserved == 0) = _
  rw [ReferenceSealPayload.valid, bne_zero_toNat, nat_beq_zero]

theorem commit_valid (p : ReferenceCommitPayload) : p.payload.valid = p.valid := by
  show (p.sessionId.toNat != 0 && p.uploadId.toNat != 0 && p.referenceId.toNat != 0 &&
    p.armEpoch.toNat != 0 && p.revision.toNat != 0 &&
    p.revision.toNat == p.expectedRevision.toNat + 1 &&
    p.protectedUntil.isFinite && p.latestPhase.isFinite &&
    decide (0 ≤ p.protectedUntil.rat) && decide (0 ≤ p.latestPhase.rat) &&
    (if p.expectedRevision.toNat ≠ 0 then
      p.selectionBudgetNs.toNat == 0 && decide (p.latestPhase.rat ≤ p.protectedUntil.rat) &&
        decide (0 < p.latestPhase.rat)
    else p.latestPhase.rat == 0 && p.protectedUntil.rat == 0) &&
    p.reserved0.toNat + nat p.reserved == 0) = _
  rw [ReferenceCommitPayload.valid, succ_toNat, add_beq_zero, nat_beq_zero, beq_zero_toNat,
    beq_zero_toNat, bne_zero_toNat p.expectedRevision]
  cases hc : p.protectedUntil.isFinite with
  | false => simp
  | true =>
    cases hl : p.latestPhase.isFinite with
    | false => simp
    | true =>
      rw [F64.value_of_finite hc, F64.value_of_finite hl]
      simp only [bne_zero_toNat, Value.le_fin, Value.lt_fin, Value.eq_fin, Bool.and_true, bne_iff_ne,
        Bool.beq_eq_decide_eq]
      rw [Bool.eq_iff_iff]
      simp only [Bool.and_eq_true]
      tauto

theorem retire_valid (p : ReferenceRetirePayload) :
    p.payload.valid true = p.valid ctlReferenceAbort ∧
      p.payload.valid false = p.valid ctlCancelReference := by
  have hpos : decide (0 < p.revision) = (p.revision.toNat != 0) := by
    rw [Bool.eq_iff_iff, decide_eq_true_eq, bne_iff_ne, BitVec.lt_def]
    exact Nat.pos_iff_ne_zero
  constructor
  · show (p.sessionId.toNat != 0 && p.id.toNat != 0 && p.armEpoch.toNat != 0 &&
      p.revision.toNat == 0 && nat p.reserved == 0) = _
    rw [ReferenceRetirePayload.valid, if_pos rfl, nat_beq_zero, beq_zero_toNat]
    simp only [bne_zero_toNat]
  · show (p.sessionId.toNat != 0 && p.id.toNat != 0 && p.armEpoch.toNat != 0 &&
      p.revision.toNat != 0 && nat p.reserved == 0) = _
    rw [ReferenceRetirePayload.valid, if_neg (by decide), nat_beq_zero, hpos]
    simp only [bne_zero_toNat]

theorem groupMember_valid (p : GroupMemberPayload) : p.payload.valid = p.valid := by
  show (p.sessionId.toNat != 0 && p.groupId.toNat != 0 && p.armEpoch.toNat != 0 &&
    decide (2 ≤ p.memberCount.toNat) && decide (p.memberCount.toNat ≤ 4) &&
    decide (p.memberIndex.toNat < p.memberCount.toNat) &&
    p.reserved0.toNat + nat p.reserved == 0) = _
  rw [GroupMemberPayload.valid, add_beq_zero, nat_beq_zero, beq_zero_toNat]
  simp only [bne_zero_toNat, BitVec.le_def, BitVec.lt_def, Bool.and_assoc]
  rfl

theorem groupCommit_valid (p : GroupCommitPayload) : p.payload.valid = p.valid := by
  show (p.sessionId.toNat != 0 && p.groupId.toNat != 0 && p.uploadId.toNat != 0 &&
    p.referenceId.toNat != 0 && p.armEpoch.toNat != 0 && p.budgetNs.toNat != 0 &&
    decide (p.budgetNs.toNat ≤ 10000000000) && decide (p.memberIndex.toNat < 4) &&
    nat p.reserved == 0) = _
  rw [GroupCommitPayload.valid, nat_beq_zero]
  simp only [bne_zero_toNat, BitVec.le_def, BitVec.lt_def]
  rfl

theorem modeSelect_valid {p : ModeSelectPayload} (hd : p.modelDigest.length = 32) :
    p.payload.valid = p.valid := by
  show (p.sessionId.toNat != 0 && p.generation.toNat != 0 && p.armEpoch.toNat != 0 &&
    p.generation.toNat == p.expectedPredecessor.toNat + 1 &&
    (p.desiredMode.toNat == 1 || p.desiredMode.toNat == 2) && p.requestFlags.toNat == 0 &&
    (if p.desiredMode.toNat = 2 then !(digest p.modelDigest == 0) else digest p.modelDigest == 0) &&
    p.reserved0.toNat + nat p.reserved == 0) = _
  have hiff : (p.desiredMode = modeReference) = (p.desiredMode.toNat = 2) := by
    rw [← BitVec.toNat_inj]
    rfl
  have hs : (p.desiredMode == modeStreamed) = (p.desiredMode.toNat == 1) := beq_toNat _ _
  have hr : (p.desiredMode == modeReference) = (p.desiredMode.toNat == 2) := beq_toNat _ _
  rw [ModeSelectPayload.valid, succ_toNat, digest_beq_zero hd, add_beq_zero, nat_beq_zero, hs, hr,
    beq_zero_toNat, beq_zero_toNat]
  simp only [hiff, bne_zero_toNat]
  rw [Bool.eq_iff_iff]
  simp only [Bool.and_eq_true]
  tauto

/-- **The checks on fields are the checks on words**: what the control thread asks of a v7 body is
`valid_reference_body`. -/
theorem valid_body {type : ℕ} (ht : type ≠ ctlReferenceMode) {t : List Byte} (hl : t.length = 104) :
    (body7 type t).valid = validReferenceBody type t := by
  unfold body7 validReferenceBody
  split
  · exact begin_valid (length_slice (by omega))
  · exact chunk_valid (length_slice (by omega))
  · exact seal_valid _
  · exact commit_valid _
  · exact (retire_valid _).1
  · exact (retire_valid _).2
  · rfl
  · exact groupMember_valid _
  · exact groupMember_valid _
  · exact groupCommit_valid _
  · rfl
  · split <;> first | rfl | contradiction

/-- the decoder, once magic, version and opcode are known -/
theorem decodeReferenceControl_isSome {t : List Byte} (hl : t.length = 128) {negotiated : Bool}
    (hm : (ControlPacket.read t).magic = magicCtl)
    (hh : (if (ControlPacket.read t).type.toNat = ctlReferenceMode then
        (ControlPacket.read t).version != version
      else !negotiated || (ControlPacket.read t).version != referenceVersion ||
        !referenceOpcode (ControlPacket.read t).type.toNat) = false) :
    (decodeReferenceControl t negotiated).isSome =
      ((ControlPacket.read t).arg == 0 &&
        validReferenceBody (ControlPacket.read t).type.toNat (ControlPacket.read t).text) := by
  unfold decodeReferenceControl
  rw [if_neg (not_not.mpr hl), hh, hm, Bool.or_false, bne_self_eq_false, Bool.false_or, bne]
  cases (ControlPacket.read t).arg == 0 with
  | false => rfl
  | true => cases validReferenceBody _ (ControlPacket.read t).text <;> rfl

/-- a v7 frame: `decode_reference_control` -/
theorem ofFrame_reference {t : List Byte} (hl : t.length = 128) {f : Rt.ControlPacket}
    (hf : ofFrame t = some f) (hv : (ControlPacket.read t).version = referenceVersion) :
    (f.arg == 0 && f.body.valid) = (decodeReferenceControl t true).isSome := by
  have htext : (ControlPacket.read t).text.length = 104 := length_slice (by omega)
  unfold ofFrame at hf
  dsimp only at hf
  split_ifs at hf with hm
  obtain rfl := Option.some.inj hf
  by_cases hop : referenceOpcode (ControlPacket.read t).type.toNat = true
  · have hne : (ControlPacket.read t).type.toNat ≠ ctlReferenceMode := by
      intro he
      rw [he] at hop
      exact absurd hop (by decide)
    rw [decodeReferenceControl_isSome hl (not_not.mp hm) (by rw [if_neg hne, hv, hop]; rfl),
      ← valid_body hne htext, beq_zero_toNat]
  · -- not an opcode of v7 on both ends
    have hu : body7 (ControlPacket.read t).type.toNat (ControlPacket.read t).text = .unknown := by
      unfold body7
      split
      all_goals first
        | rfl
        | (rename_i h; exact absurd (by rw [h]; rfl) hop)
    have hhead : (if (ControlPacket.read t).type.toNat = ctlReferenceMode then
        (ControlPacket.read t).version != version
        else !true || (ControlPacket.read t).version != referenceVersion ||
          !referenceOpcode (ControlPacket.read t).type.toNat) = true := by
      rw [hv, Bool.eq_false_of_not_eq_true hop]
      split_ifs <;> rfl
    have hd : decodeReferenceControl t true = none := by
      unfold decodeReferenceControl
      rw [if_neg (not_not.mpr hl), hhead, Bool.or_true, Bool.true_or, if_pos rfl]
    rw [hu, hd]
    exact Bool.and_false _

/-- a MODE_SELECT: `decode_mode_select` -/
theorem ofFrame_modeSelect {t : List Byte} (hl : t.length = 128) {f : Rt.ControlPacket}
    (hf : ofFrame t = some f) (hv : (ControlPacket.read t).version = version)
    {want : Rt.ModeSelectPayload} (hb : f.body = .modeSelect want) :
    (f.arg == 0 && want.valid) = (decodeModeSelect t ctlModeSelect).isSome := by
  have htext : (ControlPacket.read t).text.length = 104 := length_slice (by omega)
  unfold ofFrame at hf
  dsimp only at hf
  rw [hv, if_neg (show version ≠ referenceVersion by decide), if_pos rfl] at hf
  split_ifs at hf with hm
  obtain rfl := Option.some.inj hf
  obtain ⟨ht, rfl⟩ : (ControlPacket.read t).type.toNat = ctlModeSelect ∧
      want = (ModeSelectPayload.read (ControlPacket.read t).text).payload := by
    dsimp only at hb
    unfold body5 at hb
    split at hb
    all_goals cases hb
    rename_i h
    exact ⟨h, rfl⟩
  have hvalid := modeSelect_valid (p := ModeSelectPayload.read (ControlPacket.read t).text)
    (length_slice (by omega))
  unfold decodeModeSelect
  rw [hvalid, if_neg (not_not.mpr hl), not_not.mp hm, hv, ht, bne_self_eq_false, bne_self_eq_false,
    bne_self_eq_false, Bool.or_false, Bool.or_false, Bool.false_or, bne, if_pos rfl, beq_zero_toNat]
  dsimp only
  cases (ControlPacket.read t).arg.toNat == 0 with
  | false => rfl
  | true => cases (ModeSelectPayload.read (ControlPacket.read t).text).valid <;> rfl

/-- a REFERENCE_MODE: `decode_reference_control` -/
theorem ofFrame_referenceMode {t : List Byte} (hl : t.length = 128) {f : Rt.ControlPacket}
    (hf : ofFrame t = some f) (hv : (ControlPacket.read t).version = version)
    {want : Rt.ReferenceModePayload} (hb : f.body = .referenceMode want) :
    (f.arg == 0 && want.valid) = (decodeReferenceControl t false).isSome := by
  have htext : (ControlPacket.read t).text.length = 104 := length_slice (by omega)
  unfold ofFrame at hf
  dsimp only at hf
  rw [hv, if_neg (show version ≠ referenceVersion by decide), if_pos rfl] at hf
  split_ifs at hf with hm
  obtain rfl := Option.some.inj hf
  obtain ⟨ht, rfl⟩ : (ControlPacket.read t).type.toNat = ctlReferenceMode ∧
      want = (ReferenceModePayload.read (ControlPacket.read t).text).payload := by
    dsimp only at hb
    unfold body5 at hb
    split at hb
    all_goals cases hb
    rename_i h
    exact ⟨h, rfl⟩
  have hvalid := mode_valid (p := ReferenceModePayload.read (ControlPacket.read t).text)
    (length_slice (by omega))
  rw [decodeReferenceControl_isSome hl (not_not.mp hm) (by rw [if_pos ht, hv]; rfl), ht, hvalid,
    beq_zero_toNat]
  rfl

/-- **The checks on the fields of a frame are the checks of the decoders on its bytes** -/
theorem ofFrame_decodes {t : List Byte} (hl : t.length = 128) {f : Rt.ControlPacket} (hf : ofFrame t = some f) :
    ((ControlPacket.read t).version = referenceVersion → (f.arg == 0 && f.body.valid) = (decodeReferenceControl t true).isSome) ∧
    ((ControlPacket.read t).version = version →
      (∀ want, f.body = .modeSelect want → (f.arg == 0 && want.valid) = (decodeModeSelect t ctlModeSelect).isSome) ∧
      ∀ want, f.body = .referenceMode want → (f.arg == 0 && want.valid) = (decodeReferenceControl t false).isSome) :=
  ⟨ofFrame_reference hl hf, fun hv => ⟨fun _ => ofFrame_modeSelect hl hf hv, fun _ => ofFrame_referenceMode hl hf hv⟩⟩

theorem ofFrame_decodes_abort :
    let t := pack [(4, magicCtl.toNat), (2, 7), (2, 35), (16, 0), (8, 5), (96, 0)]
    ∃ f, ofFrame t = some f ∧ (f.arg == 0 && f.body.valid) = (decodeReferenceControl t true).isSome := by
  obtain ⟨f, hf⟩ := Option.isSome_iff_exists.mp (by decide +kernel :
    (ofFrame (pack [(4, magicCtl.toNat), (2, 7), (2, 35), (16, 0), (8, 5), (96, 0)])).isSome = true)
  exact ⟨f, hf, (ofFrame_decodes (by decide +kernel) hf).1 (by decide +kernel)⟩

/-! ## sent frames -/

def referenceResultCode : ReferenceResult → ℕ
  | .ok => 0
  | .malformed => 1
  | .identity => 2
  | .busy => 3
  | .revision => 4
  | .integrity => 5
  | .prefixMismatch => 6
  | .late => 7
  | .retired => 8
  | .notAdmitted => 9
  | .groupRefused => 10
  | .groupPeer => 11

def modeSelectResultCode : ModeSelectResult → ℕ
  | .ok => 0
  | .pending => 1
  | .malformed => 2
  | .identity => 3
  | .unsupported => 4
  | .order => 5
  | .busy => 6
  | .refused => 7

/-- `make` with a version, and the text that was copied in -/
def control (ver type seq tMonoNs : ℕ) (text : List (ℕ × ℕ)) : List (ℕ × ℕ) :=
  [(4, magicCtl.toNat), (2, ver), (2, type), (4, seq), (4, 0), (8, tMonoNs)] ++ text

def referenceText (r : Rt.ReferenceReplyPayload) : List (ℕ × ℕ) :=
  [(8, r.uploadId), (8, r.referenceId), (4, r.revision), (4, referenceResultCode r.result),
    (4, r.operation), (4, 0), (72, 0)]

def groupText (r : Rt.GroupStatusPayload) : List (ℕ × ℕ) :=
  [(8, r.groupId), (8, r.deadlineNs), (8, r.selectedNs), (4, referenceResultCode r.result),
    (4, r.operation), (4, r.state.code), (4, r.peerVerdict), (4, 0), (60, 0)]

def modeText (r : Rt.ModeSelectReplyPayload) : List (ℕ × ℕ) :=
  [(8, r.sessionId), (8, r.generation), (8, r.predecessor), (4, r.armEpoch),
    (4, modeSelectResultCode r.result), (2, r.selectedMode.code), (2, r.requestedMode), (4, 0),
    (64, 0)]

/-! ## sent frames read back -/

theorem word_field (w n : ℕ) : BitVec.ofNat (8 * w) (nat (ofNat w n)) = BitVec.ofNat (8 * w) n := by
  apply BitVec.eq_of_toNat_eq
  have h256 : (256 : ℕ) ^ w = 2 ^ (8 * w) := by rw [Nat.pow_mul]
  rw [nat_ofNat, BitVec.toNat_ofNat, BitVec.toNat_ofNat, h256, Nat.mod_mod]

theorem u16_field (n : ℕ) (bs : List Byte) : u16 (ofNat 2 n ++ bs) 0 = BitVec.ofNat 16 n := by
  rw [u16, slice_field]
  exact word_field 2 n

theorem u32_field (n : ℕ) (bs : List Byte) : u32 (ofNat 4 n ++ bs) 0 = BitVec.ofNat 32 n := by
  rw [u32, slice_field]
  exact word_field 4 n

theorem u64_field (n : ℕ) (bs : List Byte) : u64 (ofNat 8 n ++ bs) 0 = BitVec.ofNat 64 n := by
  rw [u64, slice_field]
  exact word_field 8 n

section
variable {w at_ : ℕ} (h : w ≤ at_) (n : ℕ) (bs : List Byte)
include h

theorem u16_skip : u16 (ofNat w n ++ bs) at_ = u16 bs (at_ - w) := by rw [u16, slice_skip h, u16]
theorem u32_skip : u32 (ofNat w n ++ bs) at_ = u32 bs (at_ - w) := by rw [u32, slice_skip h, u32]
theorem u64_skip : u64 (ofNat w n ++ bs) at_ = u64 bs (at_ - w) := by rw [u64, slice_skip h, u64]

end

theorem zeroBytes_ofNat (w : ℕ) : zeroBytes (ofNat w 0) = true := by
  rw [← nat_beq_zero, nat_ofNat, Nat.zero_mod]
  rfl

theorem read_control (ver type seq tMonoNs : ℕ) {text : List (ℕ × ℕ)}
    (hl : (pack text).length = 104) :
    ControlPacket.read (pack (control ver type seq tMonoNs text)) =
      { magic := magicCtl, version := BitVec.ofNat 16 ver, type := BitVec.ofNat 16 type
        seq := BitVec.ofNat 32 seq, arg := 0, tMonoNs := BitVec.ofNat 64 tMonoNs
        text := pack text } := by
  simp only [control, List.cons_append, List.nil_append, ControlPacket.read, pack_cons, u16_field,
    u32_field, u64_field, u16_skip, u32_skip, u64_skip, slice_skip, Nat.reduceLeDiff, Nat.reduceSub,
    slice_all hl, BitVec.ofNat_toNat, BitVec.setWidth_eq]
  rfl

theorem length_control (ver type seq tMonoNs : ℕ) {text : List (ℕ × ℕ)}
    (hl : (pack text).length = 104) : (pack (control ver type seq tMonoNs text)).length = 128 := by
  rw [length_pack] at hl ⊢
  rw [control, List.map_append, List.sum_append, hl]
  rfl

theorem read_referenceText (r : Rt.ReferenceReplyPayload) :
    ReferenceReplyPayload.read (pack (referenceText r)) =
      { uploadId := BitVec.ofNat 64 r.uploadId, referenceId := BitVec.ofNat 64 r.referenceId
        revision := BitVec.ofNat 32 r.revision
        result := BitVec.ofNat 32 (referenceResultCode r.result)
        operation := BitVec.ofNat 32 r.operation, reserved0 := 0, reserved := ofNat 72 0 } := by
  simp only [referenceText, ReferenceReplyPayload.read, pack_cons, u32_field, u64_field, u32_skip,
    u64_skip, slice_skip, slice_field, Nat.reduceLeDiff, Nat.reduceSub]
  rfl

theorem read_groupText (r : Rt.GroupStatusPayload) :
    GroupStatusPayload.read (pack (groupText r)) =
      { groupId := BitVec.ofNat 64 r.groupId, deadlineNs := BitVec.ofNat 64 r.deadlineNs
        selectedNs := BitVec.ofNat 64 r.selectedNs
        result := BitVec.ofNat 32 (referenceResultCode r.result)
        operation := BitVec.ofNat 32 r.operation, state := BitVec.ofNat 32 r.state.code
        peerVerdict := BitVec.ofNat 32 r.peerVerdict, reserved0 := 0, reserved := ofNat 60 0 } := by
  simp only [groupText, GroupStatusPayload.read, pack_cons, u32_field, u64_field, u32_skip, u64_skip,
    slice_skip, slice_field, Nat.reduceLeDiff, Nat.reduceSub]
  rfl

theorem read_modeText (r : Rt.ModeSelectReplyPayload) :
    ModeSelectReplyPayload.read (pack (modeText r)) =
      { sessionId := BitVec.ofNat 64 r.sessionId, generation := BitVec.ofNat 64 r.generation
        predecessor := BitVec.ofNat 64 r.predecessor, armEpoch := BitVec.ofNat 32 r.armEpoch
        result := BitVec.ofNat 32 (modeSelectResultCode r.result)
        selectedMode := BitVec.ofNat 16 r.selectedMode.code
        requestedMode := BitVec.ofNat 16 r.requestedMode, detail := 0, reserved := ofNat 64 0 } := by
  simp only [modeText, ModeSelectReplyPayload.read, pack_cons, u16_field, u32_field, u64_field,
    u16_skip, u32_skip, u64_skip, slice_skip, slice_field, Nat.reduceLeDiff, Nat.reduceSub]
  rfl

end Wire

/-- the frame of a status reply sent at `tMonoNs`; the other replies carry no struct -/
def Reply.encode (tMonoNs : ℕ) : Reply → Option (List Bytes.Byte)
  | .reference r seq => some (Bytes.pack (Wire.control 7 38 seq tMonoNs (Wire.referenceText r)))
  | .group r seq => some (Bytes.pack (Wire.control 7 42 seq tMonoNs (Wire.groupText r)))
  | .mode r seq => some (Bytes.pack (Wire.control 5 13 seq tMonoNs (Wire.modeText r)))
  | .status .. | .pong => none

/-! ## steps -/

/-- an event, and the 128 bytes a step of the control thread receives -/
structure WireEvent where
  event : Server.Event
  rx : Option (Vector Bytes.Byte 128) := none

def WireEvent.decode (e : WireEvent) : Server.Event :=
  match e.event with
  | .control env => .control { env with frame := e.rx.bind fun t => Wire.ofFrame t.toList }
  | other => other

def Server.wireStep (cfg : ServerConfig) (ids : SessionIds) (s : Server) (e : WireEvent) : Server :=
  s.step cfg ids e.decode

end ArmControl.Rt
