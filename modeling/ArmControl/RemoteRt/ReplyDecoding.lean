import ArmControl.RemoteRt.WireAgreement
import ArmControl.Rt.Replies

/-!
# The client reads the server's replies

The status replies of the control thread, packed as the server packs them and given to the decoders
of the client.

* `Accepts`             the client's decoder for the opcode of the reply accepts the frame;
* `legible_accepted`    a legible reply is accepted whenever it is sent;
* `replies_accepted`    in every run without a garbled reply, every status reply is accepted.
-/

namespace ArmControl.RemoteRt
open Bytes Run
open Rt (Reply Server WireEvent ServerConfig SessionIds)

/-- the client's decoder of this reply accepts the frame -/
def Accepts (r : Reply) (frame : List Byte) : Bool :=
  match r with
  | .mode .. => (unpackModeStatus frame).toOption.isSome
  | _ => (unpackReferenceControl frame true).toOption.isSome

/-! ## legible replies -/

open Rt Wire

theorem code_plain {r : ReferenceResult} (h : r.Plain) : referenceResultCode r ≤ 9 := by
  obtain ⟨h1, h2⟩ := h
  cases r <;> first | contradiction | decide

theorem toNat_small {w n : ℕ} (h : n < 2 ^ w) : (BitVec.ofNat w n).toNat = n := by
  rw [BitVec.toNat_ofNat, Nat.mod_eq_of_lt h]

theorem reference_valid {r : Rt.ReferenceReplyPayload} (h : r.Legible) :
    validReferenceBody ctlReferenceStatus (pack (referenceText r)) = true := by
  obtain ⟨hp, hlo, hhi⟩ := h
  have hcode := code_plain hp
  show (Wire.ReferenceReplyPayload.read (pack (referenceText r))).valid = true
  rw [read_referenceText, Wire.ReferenceReplyPayload.valid]
  dsimp only
  have hres : BitVec.ofNat 32 (referenceResultCode r.result) ≤ Wire.refNotAdmitted := by
    rw [BitVec.le_def, toNat_small (by omega)]
    exact hcode
  rw [toNat_small (show r.operation < 2 ^ 32 by omega), zeroBytes_ofNat, decide_eq_true hres,
    decide_eq_true hlo, decide_eq_true hhi]
  rfl

theorem group_valid {r : Rt.GroupStatusPayload} (h : r.Legible) :
    validReferenceBody ctlGroupStatus (pack (groupText r)) = true := by
  obtain ⟨⟨hpos, hlt⟩, hop, hv⟩ := h
  show (Wire.GroupStatusPayload.read (pack (groupText r))).valid = true
  rw [read_groupText, Wire.GroupStatusPayload.valid]
  dsimp only
  have hid : (BitVec.ofNat 64 r.groupId != 0) = true := by
    rw [bne_zero_toNat, toNat_small hlt, bne_iff_ne]
    omega
  have hres : BitVec.ofNat 32 (referenceResultCode r.result) ≤ Wire.refGroupPeer := by
    cases r.result <;> decide
  have hst : BitVec.ofNat 32 r.state.code ≤ 7 := by
    cases r.state <;> decide
  have hver : BitVec.ofNat 32 r.peerVerdict ≤ 4 := by
    rw [BitVec.le_def, toNat_small (by omega)]
    exact hv
  have hoper : (BitVec.ofNat 32 r.operation == 0 ||
      (decide (Wire.ctlGroupJoin ≤ (BitVec.ofNat 32 r.operation).toNat) &&
        decide ((BitVec.ofNat 32 r.operation).toNat ≤ Wire.ctlGroupCancel))) = true := by
    rcases hop with h0 | ⟨hlo, hhi⟩
    · rw [h0]
      rfl
    · rw [toNat_small (by omega), decide_eq_true hlo, decide_eq_true hhi, Bool.and_self, Bool.or_true]
  rw [hid, hoper, zeroBytes_ofNat, decide_eq_true hres, decide_eq_true hst, decide_eq_true hver]
  rfl

theorem mode_valid_of_mode {r : Rt.ModeSelectReplyPayload} (h : IsMode r.requestedMode) :
    (Wire.ModeSelectReplyPayload.read (pack (modeText r))).valid = true := by
  rw [read_modeText, Wire.ModeSelectReplyPayload.valid]
  dsimp only
  have hres : BitVec.ofNat 32 (modeSelectResultCode r.result) ≤ Wire.modeSelRefused := by
    cases r.result <;> decide
  have hsel : (BitVec.ofNat 16 r.selectedMode.code == Wire.modeUnselected ||
      BitVec.ofNat 16 r.selectedMode.code == Wire.modeStreamed ||
      BitVec.ofNat 16 r.selectedMode.code == Wire.modeReference) = true := by
    cases r.selectedMode <;> decide
  have hreq : (BitVec.ofNat 16 r.requestedMode == Wire.modeStreamed ||
      BitVec.ofNat 16 r.requestedMode == Wire.modeReference) = true := by
    rcases h with h | h <;> rw [h] <;> rfl
  rw [hsel, hreq, zeroBytes_ofNat, decide_eq_true hres]
  rfl

theorem length_referenceText (r : Rt.ReferenceReplyPayload) : (pack (referenceText r)).length = 104 := by
  rw [length_pack]
  rfl

theorem length_groupText (r : Rt.GroupStatusPayload) : (pack (groupText r)).length = 104 := by
  rw [length_pack]
  rfl

theorem length_modeText (r : Rt.ModeSelectReplyPayload) : (pack (modeText r)).length = 104 := by
  rw [length_pack]
  rfl

/-- a v7 status frame with a valid body -/
theorem status7_accepted {type seq tMonoNs : ℕ} {text : List (ℕ × ℕ)} (hl : (pack text).length = 104)
    (ht : (BitVec.ofNat 16 type).toNat = type) (hop : referenceOpcode type = true)
    (hv : validReferenceBody type (pack text) = true) :
    (unpackReferenceControl (pack (control 7 type seq tMonoNs text)) true).toOption.isSome = true := by
  rw [referenceControl_agrees, Option.isSome_map, decodeReferenceControl, read_control _ _ _ _ hl,
    length_control _ _ _ _ hl]
  dsimp only
  have hne : type ≠ ctlReferenceMode := by
    rintro rfl
    exact absurd hop (by decide)
  rw [ht, hop, hv, if_neg (by decide), if_neg hne]
  rfl

/-- **A legible reply is accepted**, whenever it is sent. -/
theorem legible_accepted {r : Reply} (h : r.Legible) {tMonoNs : ℕ} {frame : List Byte}
    (hf : r.encode tMonoNs = some frame) : Accepts r frame = true := by
  cases r with
  | status => cases hf
  | pong => cases hf
  | reference r seq =>
    obtain rfl := Option.some.inj hf
    show (unpackReferenceControl (pack (control 7 38 seq tMonoNs (referenceText r))) true).toOption.isSome
      = true
    exact status7_accepted (length_referenceText r) rfl rfl (reference_valid h)
  | group r seq =>
    obtain rfl := Option.some.inj hf
    show (unpackReferenceControl (pack (control 7 42 seq tMonoNs (groupText r))) true).toOption.isSome
      = true
    exact status7_accepted (length_groupText r) rfl rfl (group_valid h)
  | mode r seq =>
    obtain rfl := Option.some.inj hf
    have hl := length_modeText r
    show (unpackModeStatus (pack (control 5 13 seq tMonoNs (modeText r)))).toOption.isSome = true
    rw [modeStatus_agrees, Option.isSome_map, decodeModeSelect, read_control _ _ _ _ hl,
      length_control _ _ _ _ hl]
    dsimp only
    rw [if_neg (by decide), if_neg (by decide),
      if_neg (show Wire.ctlModeStatus ≠ Wire.ctlModeSelect by decide), mode_valid_of_mode h]
    rfl

/-! ## runs -/

/-- what the client is promised: every status reply sent so far is accepted, whatever its time -/
def Readable (s : Server) : Prop :=
  ∀ r ∈ s.sent, ∀ tMonoNs frame, r.encode tMonoNs = some frame → Accepts r frame = true

/-- **Replies.**  In every run that garbles no reply, the client accepts every status reply. -/
theorem replies_accepted (cfg : ServerConfig) (ids : SessionIds) (es : List WireEvent)
    (h : Along (Server.wireStep cfg ids) (fun s e => Server.Answerable cfg s e.decode) {} es) :
    Readable (run (Server.wireStep cfg ids) {} es) :=
  fun r hr _ _ hf => legible_accepted (Server.legible_run cfg ids h r hr) hf

/-! ## a session on the wire -/

/-- a round of the control thread that receives this frame -/
def receive (frame : List (ℕ × ℕ)) (h : (pack frame).length = 128) : List WireEvent :=
  List.replicate 3 { event := .control {} } ++
    [{ event := .control {}, rx := some ⟨(pack frame).toArray, h⟩ }]

/-- CLAIM of instance "arm" with the model "task", and REFERENCE_MODE -/
def negotiate : List WireEvent :=
  [{ event := .control {} }] ++
  receive (control 5 10 1 0 [(32, 0x6D7261), (32, 0x6B736174), (8, 1), (8, 3), (8, 0), (4, 0), (4, 1),
    (8, 0)]) rfl ++
  receive (control 5 11 2 0 [(8, 1), (8, 3), (32, 9), (4, 1), (52, 0)]) rfl

def modeSelectFrame (desiredMode : ℕ) : List (ℕ × ℕ) :=
  control 5 12 3 0 [(8, 1), (8, 1), (8, 0), (4, 1), (2, desiredMode), (2, 0), (32, 0), (4, 0), (36, 0)]

def groupJoinFrame : List (ℕ × ℕ) :=
  control 7 39 4 0 [(8, 1), (8, 5), (4, 1), (4, 0), (4, 2), (4, 0), (72, 0)]

/-- the frame a server sends for a BEGIN it has accepted -/
def statusFrame : List (ℕ × ℕ) :=
  control 7 38 5 0 [(8, 1), (8, 1), (4, 1), (4, 0), (4, 32), (4, 0), (72, 0)]

def abortFrame : List (ℕ × ℕ) := control 7 36 6 0 [(8, 1), (8, 1), (4, 1), (4, 0), (80, 0)]

/-- a group member answers one request of each kind -/
theorem replies_accepted_refusals :
    let s := run (Server.wireStep (Pair.pairConfig 0) default) {}
      (negotiate ++ receive groupJoinFrame rfl ++ receive (modeSelectFrame 1) rfl ++ receive abortFrame rfl)
    s.sent.length = 5 ∧ Readable s :=
  ⟨by decide +kernel, replies_accepted _ _ _ (by decide +kernel)⟩

/-- the client refuses one of the replies -/
def refused (s : Server) : Bool :=
  s.sent.any fun r => (r.encode 0).any fun frame => !Accepts r frame

theorem not_readable {s : Server} (h : refused s = true) : ¬ Readable s := by
  obtain ⟨r, hr, hx⟩ := List.any_eq_true.mp h
  intro hread
  cases hf : r.encode 0 with
  | none =>
    rw [hf] at hx
    cases hx
  | some frame =>
    rw [hf] at hx
    have hno : (!Accepts r frame) = true := hx
    rw [hread r hr 0 frame hf] at hno
    cases hno

/-- a MODE_SELECT of mode 3, a GROUP_JOIN at a server without a group record, and a server's own
status frame each get a reply that the client refuses -/
theorem garbled_replies :
    ¬ Readable (run (Server.wireStep (Pair.pairConfig 0) default) {}
      (negotiate ++ receive (modeSelectFrame 3) rfl)) ∧
    ¬ Readable (run (Server.wireStep { Pair.pairConfig 0 with groupEnabled := false } default) {}
      (negotiate ++ receive groupJoinFrame rfl)) ∧
    ¬ Readable (run (Server.wireStep (Pair.pairConfig 0) default) {}
      (negotiate ++ receive statusFrame rfl)) :=
  ⟨not_readable (by decide +kernel), not_readable (by decide +kernel), not_readable (by decide +kernel)⟩

end ArmControl.RemoteRt
