import Mathlib.Data.Nat.Bitwise
import ArmControl.Lib.Binary64
import ArmControl.Lib.Bytes

/-!
# The client's wire decoders (`plants/remote_rt/protocol.py`)

The client unpacks a frame with `struct` format strings and keeps the body as a dictionary.  Its
integers are unbounded.  A `ValueError` is an `Except.error` with the source's text.

* `unpackFrom`                  `struct.unpack_from`: fields in sequence, little-endian, no padding;
* `referenceLayouts`            names, format and trailing reserved bytes, by opcode;
* `unpackReferenceControl`, `unpackModeSelect`, `unpackModeStatus`, `unpackReferenceCommand`.
-/

namespace ArmControl.RemoteRt
open Bytes

/-! ## `struct` -/

/-- a format character: `Q`, `I`, `H`, `d`, or `s` with its count -/
inductive Code where
  | q | i | h | d
  | s (n : ℕ)
  deriving DecidableEq

def Code.size : Code → ℕ
  | .q => 8
  | .i => 4
  | .h => 2
  | .d => 8
  | .s n => n

inductive Val where
  | int (n : ℕ)
  | float (x : F64)
  | bytes (b : List Byte)
  | floats (xs : List F64)
  deriving DecidableEq

/-- the value of exactly `size` bytes -/
def Code.value : Code → List Byte → Val
  | .d, b => .float ⟨BitVec.ofNat 64 (nat b)⟩
  | .s _, b => .bytes b
  | _, b => .int (nat b)

def unpackFrom : List Code → List Byte → List Val
  | [], _ => []
  | c :: fmt, data => c.value (data.take c.size) :: unpackFrom fmt (data.drop c.size)

/-! ## dictionaries -/

inductive Field where
  | sessionId | jointOrderHash | modelDigest | enable | uploadId | referenceId | armEpoch
  | expectedRevision | revision | byteCount | knots | n | flags | offset | length | reserved | data
  | sha256 | reserved0 | protectedUntil | latestPhase | selectionBudgetNs | id | result | operation
  | groupId | memberIndex | memberCount | budgetNs | deadlineNs | selectedNs | state | peerVerdict
  | generation | expectedPredecessor | desiredMode | requestFlags | predecessor | selectedMode
  | requestedMode | detail | seq | tMonoNs | ageUs | phase | validForUs | phaseWindowUs
  | tauFf | kp | kd
  deriving DecidableEq

abbrev Dict := List (Field × Val)

namespace Dict

/-- `p[k]` for an integer field -/
def int (p : Dict) (k : Field) : ℕ :=
  match p.lookup k with
  | some (.int n) => n
  | _ => 0

def float (p : Dict) (k : Field) : F64 :=
  match p.lookup k with
  | some (.float x) => x
  | _ => .zero

def bytes (p : Dict) (k : Field) : List Byte :=
  match p.lookup k with
  | some (.bytes b) => b
  | _ => []

/-- `p[k] = v` for a key that is there -/
def set (p : Dict) (k : Field) (v : Val) : Dict :=
  p.map fun (k', v') => if k' = k then (k, v) else (k', v')

end Dict

/-- `any(b)` -/
def any (b : List Byte) : Bool := b.any (· != 0)

/-! ## constants -/

def magicCmd : ℕ := 0x444D4341
def magicCtl : ℕ := 0x4C544341
def version : ℕ := 5
def referenceVersion : ℕ := 7
def maxJoints : ℕ := 16
def ctlSize : ℕ := 128
def referenceCmdSize : ℕ := 448
def maxReferenceKnots : ℕ := 128
def maxReferenceBytes : ℕ := 33792
def referenceHermite : ℕ := 1
def referenceTerminal : ℕ := 2
def refNotAdmitted : ℕ := 9
def refGroupPeer : ℕ := 11
def gsDone : ℕ := 7
def peerStale : ℕ := 4
def groupMaxBudgetNs : ℕ := 10000000000
def modeUnselected : ℕ := 0
def modeStreamed : ℕ := 1
def modeReference : ℕ := 2
def modeSelRefused : ℕ := 7

@[match_pattern] abbrev ctlReferenceMode : ℕ := 11
@[match_pattern] abbrev ctlModeSelect : ℕ := 12
@[match_pattern] abbrev ctlModeStatus : ℕ := 13
@[match_pattern] abbrev ctlReferenceBegin : ℕ := 32
@[match_pattern] abbrev ctlReferenceChunk : ℕ := 33
@[match_pattern] abbrev ctlReferenceSeal : ℕ := 34
@[match_pattern] abbrev ctlReferenceCommit : ℕ := 35
@[match_pattern] abbrev ctlReferenceAbort : ℕ := 36
@[match_pattern] abbrev ctlCancelReference : ℕ := 37
@[match_pattern] abbrev ctlReferenceStatus : ℕ := 38
@[match_pattern] abbrev ctlGroupJoin : ℕ := 39
@[match_pattern] abbrev ctlGroupCommit : ℕ := 40
@[match_pattern] abbrev ctlGroupCancel : ℕ := 41
@[match_pattern] abbrev ctlGroupStatus : ℕ := 42

def ctlFmt : List Code := [.i, .h, .h, .i, .i, .q, .s 104]
def modeSelectFmt : List Code := [.q, .q, .q, .i, .h, .h, .s 32, .i, .s 36]
def modeStatusFmt : List Code := [.q, .q, .q, .i, .i, .h, .h, .i, .s 64]
def referenceCmdFmt : List Code :=
  [.i, .h, .h, .i, .i, .q, .q, .q, .i, .i, .d, .i, .i] ++ List.replicate 48 .d

/-- names, format and the number of trailing reserved bytes -/
structure Layout where
  names : List Field
  fmt : List Code
  padding : ℕ

def retireLayout : Layout := ⟨[.sessionId, .id, .armEpoch, .revision], [.q, .q, .i, .i], 80⟩

def groupMemberLayout : Layout :=
  ⟨[.sessionId, .groupId, .armEpoch, .memberIndex, .memberCount, .reserved0],
    [.q, .q, .i, .i, .i, .i], 72⟩

/-- `_REFERENCE_LAYOUTS` -/
def referenceLayouts : ℕ → Option Layout
  | ctlReferenceMode => some
      ⟨[.sessionId, .jointOrderHash, .modelDigest, .enable], [.q, .q, .s 32, .i], 52⟩
  | ctlReferenceBegin => some
      ⟨[.sessionId, .uploadId, .referenceId, .jointOrderHash, .modelDigest, .armEpoch,
          .expectedRevision, .revision, .byteCount, .knots, .n, .flags],
        [.q, .q, .q, .q, .s 32, .i, .i, .i, .i, .h, .h, .i], 16⟩
  | ctlReferenceChunk => some
      ⟨[.uploadId, .offset, .length, .reserved, .data], [.q, .i, .h, .h, .s 88], 0⟩
  | ctlReferenceSeal => some ⟨[.uploadId, .sha256], [.q, .s 32], 64⟩
  | ctlReferenceCommit => some
      ⟨[.sessionId, .uploadId, .referenceId, .armEpoch, .expectedRevision, .revision, .reserved0,
          .protectedUntil, .latestPhase, .selectionBudgetNs],
        [.q, .q, .q, .i, .i, .i, .i, .d, .d, .q], 40⟩
  | ctlReferenceAbort => some retireLayout
  | ctlCancelReference => some retireLayout
  | ctlReferenceStatus => some
      ⟨[.uploadId, .referenceId, .revision, .result, .operation, .reserved0],
        [.q, .q, .i, .i, .i, .i], 72⟩
  | ctlGroupJoin => some groupMemberLayout
  | ctlGroupCancel => some groupMemberLayout
  | ctlGroupCommit => some
      ⟨[.sessionId, .groupId, .uploadId, .referenceId, .budgetNs, .armEpoch, .memberIndex],
        [.q, .q, .q, .q, .q, .i, .i], 56⟩
  | ctlGroupStatus => some
      ⟨[.groupId, .deadlineNs, .selectedNs, .result, .operation, .state, .peerVerdict, .reserved0],
        [.q, .q, .q, .i, .i, .i, .i, .i], 60⟩
  | _ => none

/-! ## `_validate_reference_body` -/

def require (condition : Bool) : Except String Unit :=
  if condition then .ok () else .error "malformed reference control body"

/-- `all(p[k] for k in ks)` -/
def allSet (p : Dict) (ks : List Field) : Bool := ks.all fun k => p.int k != 0

/-- `0 < p['revision'] == p['expected_revision'] + 1 <= 0xFFFFFFFF` -/
def revisionFollows (p : Dict) : Bool :=
  decide (0 < p.int .revision) && p.int .revision == p.int .expectedRevision + 1 &&
    decide (p.int .expectedRevision + 1 ≤ 0xFFFFFFFF)

def validateReferenceBody (op : ℕ) (p : Dict) : Except String Unit :=
  match op with
  | ctlReferenceMode =>
    require (p.int .sessionId != 0 && p.int .enable == 1 && any (p.bytes .modelDigest))
  | ctlReferenceBegin => do
    require (allSet p [.sessionId, .uploadId, .referenceId, .armEpoch])
    require (revisionFollows p)
    require (decide (2 ≤ p.int .knots) && decide (p.int .knots ≤ maxReferenceKnots) &&
      decide (1 ≤ p.int .n) && decide (p.int .n ≤ maxJoints))
    -- `m & ~k` on nonnegative integers is `Nat.ldiff m k`
    require (Nat.ldiff (p.int .flags) (referenceHermite ||| referenceTerminal) == 0)
    require (p.int .byteCount == p.int .knots *
      (8 + 8 * p.int .n * (if p.int .flags &&& referenceHermite != 0 then 2 else 1)))
    require (any (p.bytes .modelDigest))
  | ctlReferenceChunk => do
    require (p.int .uploadId != 0 && !(p.int .reserved != 0) && decide (1 ≤ p.int .length) &&
      decide (p.int .length ≤ 88))
    require (decide ((p.int .offset : ℤ) ≤ (maxReferenceBytes : ℤ) - p.int .length))
    require (!any ((p.bytes .data).drop (p.int .length)))
  | ctlReferenceSeal => require (p.int .uploadId != 0)
  | ctlReferenceCommit => do
    require (allSet p [.sessionId, .uploadId, .referenceId, .armEpoch])
    require (revisionFollows p)
    require (!(p.int .reserved0 != 0))
    let cut := (p.float .protectedUntil)
    let latest := (p.float .latestPhase)
    require (cut.isFinite && latest.isFinite && Value.le (.fin 0) cut.value &&
      Value.le (.fin 0) latest.value)
    require (if p.int .expectedRevision != 0 then
        Value.lt (.fin 0) latest.value && Value.le latest.value cut.value &&
          !(p.int .selectionBudgetNs != 0)
      else Value.eq latest.value cut.value && Value.eq cut.value (.fin 0))
  | ctlReferenceAbort => do
    require (p.int .sessionId != 0 && p.int .id != 0 && p.int .armEpoch != 0)
    require (p.int .revision == 0)
  | ctlCancelReference => do
    require (p.int .sessionId != 0 && p.int .id != 0 && p.int .armEpoch != 0)
    require (decide (0 < p.int .revision))
  | ctlGroupJoin => groupMember p
  | ctlGroupCancel => groupMember p
  | ctlGroupCommit => do
    require (allSet p [.sessionId, .groupId, .uploadId, .referenceId, .armEpoch, .budgetNs])
    require (decide (p.int .budgetNs ≤ groupMaxBudgetNs) && decide (p.int .memberIndex < 4))
  | ctlGroupStatus => do
    require (p.int .groupId != 0 && decide (p.int .result ≤ refGroupPeer))
    require (p.int .operation == 0 ||
      (decide (ctlGroupJoin ≤ p.int .operation) && decide (p.int .operation ≤ ctlGroupCancel)))
    require (decide (p.int .state ≤ gsDone) && decide (p.int .peerVerdict ≤ peerStale))
    require (!(p.int .reserved0 != 0))
  | ctlReferenceStatus => do
    require (decide (p.int .result ≤ refNotAdmitted) && !(p.int .reserved0 != 0))
    require (decide (ctlReferenceBegin ≤ p.int .operation) &&
      decide (p.int .operation ≤ ctlCancelReference))
  | _ => .ok ()
where
  groupMember (p : Dict) : Except String Unit := do
    require (allSet p [.sessionId, .groupId, .armEpoch])
    require (decide (2 ≤ p.int .memberCount) && decide (p.int .memberCount ≤ 4) &&
      decide (p.int .memberIndex < p.int .memberCount))
    require (!(p.int .reserved0 != 0))

/-! ## the decoders -/

/-- the part of `unpack_reference_control` below the header -/
def unpackReferenceBody (op : ℕ) (l : Layout) (body : List Byte) : Except String Dict := do
  if l.padding ≠ 0 ∧ any (body.drop (body.length - l.padding)) = true then
    throw "reference reserved bytes must be zero"
  let p : Dict := l.names.zip (unpackFrom l.fmt body)
  validateReferenceBody op p
  if op = ctlReferenceChunk then
    return p.set .data (.bytes ((p.bytes .data).take (p.int .length)))
  return p

def unpackReferenceControl (data : List Byte) (negotiated : Bool) : Except String (ℕ × ℕ × Dict) :=
  if data.length ≠ ctlSize then .error "reference control must contain 128 bytes"
  else match unpackFrom ctlFmt data with
    | [.int magic, .int ver, .int op, .int seq, .int arg, _, .bytes body] =>
      let expected := if op = ctlReferenceMode then version else referenceVersion
      match referenceLayouts op with
      | none => .error "unnegotiated or malformed reference control header"
      | some l =>
        if magic != magicCtl || ver != expected || arg != 0 ||
            (op != ctlReferenceMode && !negotiated) then
          .error "unnegotiated or malformed reference control header"
        else do
          let p ← unpackReferenceBody op l body
          return (op, seq, p)
    | _ => .error "struct.error"

/-- the body checks of `unpack_mode_select` -/
def checkModeSelect (p : Dict) : Except String Unit :=
  if p.int .reserved0 != 0 || p.int .requestFlags != 0 || any (p.bytes .reserved) then
    .error "mode select reserved bytes must be zero"
  else if !(p.int .sessionId != 0 && p.int .generation != 0 && p.int .armEpoch != 0) then
    .error "mode select identities must be nonzero"
  else if p.int .generation != p.int .expectedPredecessor + 1 then
    .error "mode select generation must be predecessor + 1"
  else if !(p.int .desiredMode == modeStreamed || p.int .desiredMode == modeReference) then
    .error "unknown desired mode"
  else if (p.int .desiredMode == modeReference) != any (p.bytes .modelDigest) then
    .error "model_digest must be present iff MODE_REFERENCE"
  else .ok ()

/-- the body checks of `unpack_mode_status` -/
def checkModeStatus (p : Dict) : Except String Unit :=
  if any (p.bytes .reserved) then .error "mode status reserved bytes must be zero"
  else if !decide (p.int .result ≤ modeSelRefused) then .error "unknown mode select result"
  else if !(p.int .requestedMode == modeStreamed || p.int .requestedMode == modeReference) then
    .error "unknown requested mode"
  else if !(p.int .selectedMode == modeUnselected || p.int .selectedMode == modeStreamed ||
      p.int .selectedMode == modeReference) then .error "unknown selected mode"
  else .ok ()

/-- `unpack_mode_select` and `unpack_mode_status`: `what` is the opcode's name in the texts -/
def unpackMode (what : String) (opcode : ℕ) (names : List Field) (fmt : List Code)
    (check : Dict → Except String Unit) (data : List Byte) : Except String Dict :=
  if data.length ≠ ctlSize then .error (what ++ " must contain 128 bytes")
  else match unpackFrom ctlFmt data with
    | [.int magic, .int ver, .int op, .int seq, .int arg, _, .bytes body] =>
      if magic != magicCtl || ver != version || arg != 0 || op != opcode then
        .error ("malformed " ++ what ++ " header")
      else do
        let p : Dict := names.zip (unpackFrom fmt body)
        check p
        return p ++ [(.seq, .int seq)]
    | _ => .error "struct.error"

def unpackModeSelect : List Byte → Except String Dict :=
  unpackMode "mode select" ctlModeSelect
    [.sessionId, .generation, .expectedPredecessor, .armEpoch, .desiredMode, .reserved0,
      .modelDigest, .requestFlags, .reserved] modeSelectFmt checkModeSelect

def unpackModeStatus : List Byte → Except String Dict :=
  unpackMode "mode status" ctlModeStatus
    [.sessionId, .generation, .predecessor, .armEpoch, .result, .selectedMode, .requestedMode,
      .detail, .reserved] modeStatusFmt checkModeStatus

/-- the doubles among the values -/
def floats (v : List Val) : List F64 :=
  v.filterMap fun
    | .float x => some x
    | _ => none

/-- `v[i]` as a truth value -/
def truthy (v : List Val) (i : ℕ) : Bool :=
  match v[i]? with
  | some (.int n) => n != 0
  | _ => false

def unpackReferenceCommand (data : List Byte) (negotiated : Bool) : Except String Dict :=
  if !negotiated || data.length != referenceCmdSize then
    .error "unnegotiated or wrong-size reference command"
  else
    let v := unpackFrom referenceCmdFmt data
    match v with
    | .int magic :: .int ver :: .int n :: _ :: _ :: _ :: _ :: _ :: _ :: .int age :: .float phase ::
        .int valid :: _ :: values =>
      if magic != magicCmd || ver != referenceVersion ||
          !(decide (1 ≤ n) && decide (n ≤ maxJoints)) ||
          !([4, 6, 7, 8, 11, 12].all (truthy v)) ||
          !phase.isFinite || Value.lt phase.value (.fin 0) || decide (valid < age) then
        .error "invalid reference command binding/freshness"
      else
        let arrays := (List.range 3).map fun j => (floats values).extract (j * 16) ((j + 1) * 16)
        if arrays.any (fun a => a.any fun x => !x.isFinite) ||
            (arrays.drop 1).any (fun a => a.any fun x => Value.lt x.value (.fin 0)) ||
            arrays.any (fun a => (a.drop n).any fun x => !Value.eq x.value (.fin 0)) then
          .error "invalid reference command arrays/padding"
        else
          .ok (List.zip [.n, .seq, .armEpoch, .tMonoNs, .sessionId, .referenceId, .revision, .ageUs,
              .phase, .validForUs, .phaseWindowUs] (v.extract 2 13) ++
            List.zip [.tauFf, .kp, .kd] (arrays.map fun a => .floats (a.take n)))
    | _ => .error "struct.error"

end ArmControl.RemoteRt
