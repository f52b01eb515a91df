import Mathlib
import ArmControl.Lib.Bytes
import ArmControl.Lib.Crc

/-!
# The frames of the S288 servo (`leader_follower/s288.py`)

* `crc32Unitree`                    the table-driven checksum over words of four bytes;
* `packCommand`, `unpackState`      a command out, a reply in;
* `buildFeedbackFrame`              a reply, as the checks make it;
* `crc32Unitree_eq`                 the checksum bit by bit, the bytes of each word reversed;
* `unpackState_isOk_iff`            which 26 bytes are a reply;
* `burst_rejected`                  errors within 32 bits in a row are seen;
* `unpackState_built`               a built reply reads back;
* `rawCommand_packed`               so does a command, field by field;
* `s288_frame_codec`                all of it;
* `error_wraps`                     the fields that are masked do not saturate.

The codec is the default one.  Numbers are exact, with the double `numpy.pi`.
-/

namespace ArmControl.LeaderFollower.S288

open Bytes (Byte slice)

/-! ## units -/

/-- `numpy.pi` -/
def pi : ℚ := 884279719003555 / 281474976710656

structure S288Spec where
  gearRatio : ℚ := 70070 / 243
  encoderSteps : ℤ := 8192
  geared : 0 < gearRatio := by norm_num
  stepped : 0 < encoderSteps := by norm_num

namespace S288Spec

variable (s : S288Spec)

def outputPosToRaw (q : ℚ) : ℚ := q * s.gearRatio * (32768 / (2 * pi))
def rawToOutputPos (raw : ℚ) : ℚ := raw * (2 * pi) / 32768 / s.gearRatio
def rawToRotorPos (raw : ℚ) : ℚ := raw * (2 * pi) / 32768
def outputSpdToRaw (dq : ℚ) : ℚ := dq * s.gearRatio * (2.560 / (2 * pi))
def rawToOutputSpd (raw : ℚ) : ℚ := raw * (2 * pi) / 2.560 / s.gearRatio
def rawToRotorSpd (raw : ℚ) : ℚ := raw * (2 * pi) / 2.560
def outputTorqueToRaw (tau : ℚ) : ℚ := tau / s.gearRatio * 256000
def rawToOutputTorque (raw : ℚ) : ℚ := raw / 256000 * s.gearRatio
def rawToRotorTorque (raw : ℚ) : ℚ := raw / 256000
def outputKpToRaw (kp : ℚ) : ℚ := kp / s.gearRatio^2 * 1280000
def rawToOutputKp (raw : ℚ) : ℚ := raw / 1280000 * s.gearRatio^2
def outputKdToRaw (kd : ℚ) : ℚ := kd / s.gearRatio^2 * 128000000
def rawToOutputKd (raw : ℚ) : ℚ := raw / 128000000 * s.gearRatio^2
def exPosToRad (outPos : ℚ) : ℚ := outPos * (2 * pi) / s.encoderSteps

end S288Spec

/-! ## the checksum -/

def poly : BitVec 32 := 0x04C11DB7

/-- one of the eight rounds of `_build_crc32_table` -/
def tableRound (crc : BitVec 32) : BitVec 32 := if crc &&& 0x80000000 ≠ 0 then (crc <<< 1) ^^^ poly else crc <<< 1

/-- `CRC32_TABLE[i]` -/
def crc32Table (i : Byte) : BitVec 32 := tableRound^[8] (i.setWidth 32 <<< 24)

def crcByte (crc : BitVec 32) (b : Byte) : BitVec 32 := crc32Table ((crc >>> 24).setWidth 8 ^^^ b) ^^^ (crc <<< 8)

/-- whole words only, the last byte of each first -/
def crcWords (crc : BitVec 32) : List Byte → BitVec 32
  | b₀ :: b₁ :: b₂ :: b₃ :: rest => crcWords (crcByte (crcByte (crcByte (crcByte crc b₃) b₂) b₁) b₀) rest
  | _ => crc

def crc32Unitree (data : List Byte) : BitVec 32 := crcWords 0xFFFFFFFF data

/-! ## frames -/

/-- `round`: a half goes to the even neighbour -/
def pyRound (x : ℚ) : ℤ :=
  if x - ⌊x⌋ < 1 / 2 then ⌊x⌋ else if 1 / 2 < x - ⌊x⌋ then ⌊x⌋ + 1 else if ⌊x⌋ % 2 = 0 then ⌊x⌋ else ⌊x⌋ + 1

def clip16 (v : ℤ) : ℤ := max (-32768) (min 32767 v)
def clip32 (v : ℤ) : ℤ := max (-2147483648) (min 2147483647 v)

/-- `struct.pack`, little-endian, of numbers that fit -/
def struct (fs : List (ℕ × ℤ)) : List Byte := Bytes.pack (fs.map fun f => (f.1, (f.2 % 256^f.1).toNat))

/-- an unsigned and a signed field of `w` bytes -/
def unsigned (frame : List Byte) (at_ w : ℕ) : ℤ := Bytes.nat (slice frame at_ w)
def signed (frame : List Byte) (at_ w : ℕ) : ℤ :=
  if 2 * unsigned frame at_ w < 256^w then unsigned frame at_ w else unsigned frame at_ w - 256^w

/-- the id below, the mode above it, the timeout flag on top -/
def modeByte (motorId mode : ℤ) (timeout : Bool) : ℤ := motorId % 16 + mode % 8 * 16 + if timeout then 128 else 0

def headerCmd : List Byte := [0xFE, 0xEE]
def headerFb : List Byte := [0xFC, 0xEE]

structure S288Command where
  qOut : ℚ := 0
  dqOut : ℚ := 0
  tauOut : ℚ := 0
  kpOut : ℚ := 0
  kdOut : ℚ := 0

def packCommand (motorId : ℤ) (command : S288Command) (spec : S288Spec) (mode : ℤ) (timeout : Bool) : List Byte :=
  let torRaw := clip16 (pyRound (spec.outputTorqueToRaw command.tauOut))
  let spdRaw := clip16 (pyRound (spec.outputSpdToRaw command.dqOut))
  let posRaw := clip32 (pyRound (spec.outputPosToRaw command.qOut))
  let kpRaw := clip16 (pyRound (spec.outputKpToRaw command.kpOut))
  let kdRaw := clip16 (pyRound (spec.outputKdToRaw command.kdOut))
  let comd := struct [(2, torRaw), (2, spdRaw), (4, posRaw), (2, kpRaw), (2, kdRaw)]
  let body := struct [(1, modeByte motorId mode timeout), (1, 0)] ++ comd
  let frame := headerCmd ++ body
  frame ++ Bytes.ofNat 4 (crc32Unitree frame).toNat

inductive CodecError where
  | tooShort (length : ℕ)
  | header (bytes : List Byte)
  | crc (received calculated : ℕ)
  /-- `struct.error` -/
  | packing
  deriving DecidableEq

structure S288State where
  motorId : ℤ
  qRotor : ℚ
  dqRotor : ℚ
  tauRotor : ℚ
  qOut : ℚ
  dqOut : ℚ
  tauOut : ℚ
  temperatureC : ℚ
  voltageV : ℚ
  error : ℤ
  hasOutputAngle : Bool
  exPosRad : ℚ
  sensorC : ℚ
  warn : ℤ
  deriving DecidableEq

/-- the numbers in a reply -/
structure RawState where
  motorId : ℤ
  temp : ℤ
  sensor : ℤ
  vol : ℤ
  torque : ℤ
  speed : ℤ
  pos : ℤ
  merror : ℤ
  outPos : ℤ
  exFlag : ℤ
  deriving DecidableEq

def rawState (frame : List Byte) : RawState where
  motorId := unsigned frame 2 1 % 16
  temp := signed frame 3 1
  sensor := unsigned frame 4 1
  vol := unsigned frame 5 1
  torque := signed frame 6 2
  speed := signed frame 8 2
  pos := signed frame 10 4
  merror := unsigned frame 14 4
  outPos := unsigned frame 18 2 % 8192
  exFlag := unsigned frame 18 2 / 8192 % 8

def RawState.state (r : RawState) (spec : S288Spec) : S288State where
  motorId := r.motorId
  qRotor := S288Spec.rawToRotorPos r.pos
  dqRotor := S288Spec.rawToRotorSpd r.speed
  tauRotor := S288Spec.rawToRotorTorque r.torque
  qOut := spec.rawToOutputPos r.pos
  dqOut := spec.rawToOutputSpd r.speed
  tauOut := spec.rawToOutputTorque r.torque
  temperatureC := r.temp
  voltageV := r.vol / 2
  error := r.merror
  hasOutputAngle := true
  exPosRad := spec.exPosToRad r.outPos
  sensorC := r.sensor
  warn := r.exFlag

def unpackState (frame : List Byte) (spec : S288Spec) : Except CodecError S288State :=
  if frame.length < 26 then .error (.tooShort frame.length)
  else if slice frame 0 2 ≠ headerFb then .error (.header (slice frame 0 2))
  else
    let crcRx := Bytes.nat (slice frame 22 4)
    let crcCalc := (crc32Unitree (slice frame 2 20)).toNat
    if crcRx ≠ crcCalc then .error (.crc crcRx crcCalc)
    else .ok ((rawState frame).state spec)

/-- the arguments of `build_feedback_frame` -/
structure Feedback where
  qOut : ℚ := 0
  dqOut : ℚ := 0
  tauOut : ℚ := 0
  temperatureC : ℤ := 25
  sensorC : ℤ := 30
  voltageV : ℚ := 12.6
  error : ℤ := 0
  exPosRad : ℚ := 0
  warn : ℤ := 0
  mode : ℤ := 1
  timeout : Bool := true

def buildFeedbackFrame (motorId : ℤ) (spec : S288Spec) (f : Feedback) : Except CodecError (List Byte) :=
  let posRaw := clip32 (pyRound (spec.outputPosToRaw f.qOut))
  let spdRaw := clip16 (pyRound (spec.outputSpdToRaw f.dqOut))
  let torRaw := clip16 (pyRound (spec.outputTorqueToRaw f.tauOut))
  let outPos := pyRound (f.exPosRad / (2 * pi) * spec.encoderSteps) % 8192
  let outPosExFlag := outPos % 8192 + f.warn % 8 * 8192
  let volRaw := max 0 (min 255 (pyRound (f.voltageV * 2)))
  if f.temperatureC < -128 ∨ 127 < f.temperatureC then .error .packing
  else
    let fbk := struct [(1, f.temperatureC), (1, f.sensorC % 256), (1, volRaw % 256), (2, torRaw), (2, spdRaw), (4, posRaw),
      (4, f.error % 4294967296), (2, outPosExFlag), (1, 0), (1, 0)]
    let body := struct [(1, modeByte motorId f.mode f.timeout)] ++ fbk
    let frame := headerFb ++ body
    .ok (frame ++ Bytes.ofNat 4 (crc32Unitree (slice frame 2 20)).toNat)

/-! ## the checksum bit by bit -/

/-- the bits of a byte, the highest first -/
def byteBits (b : Byte) : List Bool := (List.range 8).map b.getMsbD

/-- the bytes of every word of four, the other way round -/
def wordsReversed : List Byte → List Byte
  | b₀ :: b₁ :: b₂ :: b₃ :: rest => b₃ :: b₂ :: b₁ :: b₀ :: wordsReversed rest
  | rest => rest

/-- the bits in the order of the checksum -/
def crcBits (data : List Byte) : List Bool := (wordsReversed data).flatMap byteBits

theorem getMsbD_top (i : ℕ) : (0x80000000 : BitVec 32).getMsbD i = decide (i = 0) := by
  show (BitVec.intMin 32).getMsbD i = _
  rw [BitVec.getMsbD_intMin]
  rfl

theorem and_top_ne_zero (crc : BitVec 32) : crc &&& 0x80000000 ≠ 0 ↔ crc.msb = true := by
  rw [BitVec.msb_eq_getMsbD_zero]
  constructor
  · intro hne
    by_contra hmsb
    refine hne (BitVec.eq_of_getMsbD_eq fun i hi => ?_)
    rw [BitVec.getMsbD_and, getMsbD_top]
    show _ = (0#32).getMsbD i
    rw [BitVec.getMsbD_zero]
    rcases Nat.eq_zero_or_pos i with rfl | hpos
    · rw [Bool.eq_false_iff.mpr hmsb, Bool.false_and]
    · rw [decide_eq_false (by omega), Bool.and_false]
  · intro hmsb hzero
    have hbit := congrArg (fun z : BitVec 32 => z.getMsbD 0) hzero
    rw [BitVec.getMsbD_and, getMsbD_top, hmsb] at hbit
    cases hbit

theorem tableRound_eq : tableRound = Crc.shift poly := by
  funext crc
  unfold tableRound Crc.shift
  by_cases hmsb : crc.msb = true
  · rw [if_pos ((and_top_ne_zero crc).mpr hmsb), if_pos hmsb]
  · rw [if_neg fun hne => hmsb ((and_top_ne_zero crc).mp hne), if_neg hmsb]

theorem length_byteBits (b : Byte) : (byteBits b).length = 8 := by
  unfold byteBits
  rw [List.length_map, List.length_range]

/-- a byte at the top of the register -/
theorem align_byteBits (b : Byte) : Crc.align (byteBits b) = b.setWidth 32 <<< 24 := by
  refine BitVec.eq_of_getMsbD_eq fun i hi => ?_
  rw [Crc.getMsbD_align hi, BitVec.getMsbD_shiftLeft, BitVec.getMsbD_setWidth, List.getD_eq_getElem?_getD]
  unfold byteBits
  rw [List.getElem?_map]
  rcases Nat.lt_or_ge i 8 with h | h
  · rw [List.getElem?_range h]
    simp
  · rw [List.getElem?_eq_none (by rwa [List.length_range])]
    have hout : b.getMsbD i = false := BitVec.getMsbD_of_ge _ _ h
    simp [hout]

/-- a byte by the table is its eight bits -/
theorem crcByte_eq (crc : BitVec 32) (b : Byte) : crcByte crc b = Crc.run poly crc (byteBits b) := by
  have hindex : (((crc >>> 24).setWidth 8 ^^^ b).setWidth 32) <<< 24 = Crc.high 8 crc ^^^ Crc.align (byteBits b) := by
    have hwide : ((crc >>> 24).setWidth 8).setWidth 32 = crc >>> 24 := by
      apply BitVec.eq_of_toNat_eq
      have hlt := crc.isLt
      simp only [BitVec.toNat_setWidth, BitVec.toNat_ushiftRight, Nat.shiftRight_eq_div_pow]
      omega
    rw [BitVec.setWidth_xor, hwide, BitVec.shiftLeft_xor_distrib, align_byteBits]
    rfl
  rw [Crc.run_split (by rw [length_byteBits]; decide), length_byteBits]
  unfold crcByte crc32Table
  rw [hindex, tableRound_eq]

theorem crcWords_eq (crc : BitVec 32) (data : List Byte) (h : 4 ∣ data.length) :
    crcWords crc data = Crc.run poly crc (crcBits data) := by
  fun_induction crcWords crc data with
  | case1 crc b₀ b₁ b₂ b₃ rest ih =>
    have hrest : 4 ∣ rest.length := by
      simp only [List.length_cons] at h
      omega
    rw [ih hrest]
    show _ = Crc.run poly crc ((b₃ :: b₂ :: b₁ :: b₀ :: wordsReversed rest).flatMap byteBits)
    rw [List.flatMap_cons, List.flatMap_cons, List.flatMap_cons, List.flatMap_cons, Crc.run_append, Crc.run_append, Crc.run_append,
      Crc.run_append, ← crcByte_eq, ← crcByte_eq, ← crcByte_eq, ← crcByte_eq]
    rfl
  | case2 data crc hshort =>
    have hnil : data = [] := by
      match data, hshort with
      | [], _ => rfl
      | [_], _ => simp at h
      | [_, _], _ => simp at h
      | [_, _, _], _ => simp at h
      | b₀ :: b₁ :: b₂ :: b₃ :: rest, hshort => exact (hshort b₀ b₁ b₂ b₃ rest rfl).elim
    rw [hnil]
    rfl

/-- **The checksum.** -/
theorem crc32Unitree_eq {data : List Byte} (h : 4 ∣ data.length) :
    crc32Unitree data = Crc.run poly 0xFFFFFFFF (crcBits data) := crcWords_eq _ _ h

example : crc32Unitree [0, 0, 0, 0] = 0xC704DD7B := by decide +kernel

/-! ## which frames are replies -/

variable {spec : S288Spec} {frame frame' : List Byte}

theorem toNat_eq_nat_iff (crc : BitVec 32) {bs : List Byte} (h : bs.length = 4) :
    Bytes.nat bs = crc.toNat ↔ bs = Bytes.ofNat 4 crc.toNat := by
  constructor
  · intro heq
    rw [← heq, ← h, Bytes.ofNat_nat]
  · intro heq
    rw [heq, Bytes.nat_ofNat]
    exact Nat.mod_eq_of_lt crc.isLt

theorem unpackState_isOk_iff (h : frame.length = 26) (spec : S288Spec) :
    (∃ st, unpackState frame spec = .ok st) ↔
      slice frame 0 2 = headerFb ∧ slice frame 22 4 = Bytes.ofNat 4 (crc32Unitree (slice frame 2 20)).toNat := by
  have hcrc := toNat_eq_nat_iff (crc32Unitree (slice frame 2 20)) (Bytes.length_slice (by omega : 22 + 4 ≤ frame.length))
  have hlong : ¬ frame.length < 26 := by omega
  unfold unpackState
  rw [if_neg hlong]
  dsimp only
  rw [← hcrc]
  constructor
  · rintro ⟨st, hst⟩
    split_ifs at hst with hheader hsum
    exact ⟨not_not.mp hheader, not_not.mp hsum⟩
  · rintro ⟨hheader, hsum⟩
    rw [if_neg (not_not.mpr hheader), if_neg (not_not.mpr hsum)]
    exact ⟨_, rfl⟩

/-- **Errors within 32 bits in a row are seen.** -/
theorem burst_rejected (h : frame.length = 26) (h' : frame'.length = 26) (hok : ∃ st, unpackState frame spec = .ok st)
    (hsum : slice frame' 22 4 = slice frame 22 4)
    (hburst : Crc.Burst 32 (crcBits (slice frame 2 20)) (crcBits (slice frame' 2 20))) :
    ¬ ∃ st, unpackState frame' spec = .ok st := by
  intro hok'
  obtain ⟨-, hcrc⟩ := (unpackState_isOk_iff h spec).mp hok
  obtain ⟨-, hcrc'⟩ := (unpackState_isOk_iff h' spec).mp hok'
  have hlen : ∀ {f : List Byte}, f.length = 26 → 4 ∣ (slice f 2 20).length := fun hf => by
    rw [Bytes.length_slice (by omega)]
    decide
  have hnat := (toNat_eq_nat_iff _ (Bytes.length_slice (by omega : 22 + 4 ≤ frame.length))).mpr hcrc
  rw [← hsum, (toNat_eq_nat_iff _ (Bytes.length_slice (by omega : 22 + 4 ≤ frame'.length))).mpr hcrc'] at hnat
  have heq := BitVec.eq_of_toNat_eq hnat.symm
  rw [crc32Unitree_eq (hlen h), crc32Unitree_eq (hlen h')] at heq
  exact Crc.run_burst (by decide) hburst heq

/-! ## fields -/

theorem struct_append (l r : List (ℕ × ℤ)) : struct (l ++ r) = struct l ++ struct r := by
  unfold struct Bytes.pack
  rw [List.map_append, List.flatMap_append]

theorem length_struct (fs : List (ℕ × ℤ)) : (struct fs).length = (fs.map Prod.fst).sum := by
  unfold struct
  rw [Bytes.length_pack, List.map_map]
  rfl

/-- a slice behind some bytes -/
theorem slice_behind (l r : List Byte) (len : ℕ) : slice (l ++ r) l.length len = slice r 0 len := by
  unfold slice
  rw [List.drop_left, List.drop_zero]

theorem slice_before {l : List Byte} {at_ len : ℕ} (h : at_ + len ≤ l.length) (r : List Byte) :
    slice (l ++ r) at_ len = slice l at_ len := by
  unfold slice
  rw [List.drop_append_of_le_length (by omega), List.take_append_of_le_length]
  rw [List.length_drop]
  omega

/-- the field that `l` stands before -/
theorem unsigned_struct (l r : List (ℕ × ℤ)) (w : ℕ) (v : ℤ) (tail : List Byte) :
    unsigned (struct (l ++ (w, v) :: r) ++ tail) (l.map Prod.fst).sum w = v % 256^w := by
  have hpos : (0 : ℤ) < 256^w := pow_pos (by norm_num) w
  have hslice : slice (struct (l ++ (w, v) :: r) ++ tail) (l.map Prod.fst).sum w = Bytes.ofNat w (v % 256^w).toNat := by
    rw [struct_append, List.append_assoc, ← length_struct, slice_behind]
    show slice (Bytes.ofNat w (v % 256^w).toNat ++ struct r ++ tail) 0 w = _
    rw [List.append_assoc, Bytes.slice_field]
  have hlt : (v % 256^w).toNat < 256^w := by
    have h₁ := Int.emod_lt_of_pos v hpos
    have h₂ := Int.emod_nonneg v hpos.ne'
    zify
    rw [Int.toNat_of_nonneg h₂]
    exact h₁
  unfold unsigned
  rw [hslice, Bytes.nat_ofNat, Nat.mod_eq_of_lt hlt, Int.toNat_of_nonneg (Int.emod_nonneg v hpos.ne')]

theorem signed_struct (l r : List (ℕ × ℤ)) (w : ℕ) {v : ℤ} (hlow : -(256^w) ≤ 2 * v) (hhigh : 2 * v < 256^w) (tail : List Byte) :
    signed (struct (l ++ (w, v) :: r) ++ tail) (l.map Prod.fst).sum w = v := by
  unfold signed
  rw [unsigned_struct]
  rcases le_or_gt 0 v with hv | hv
  · rw [Int.emod_eq_of_lt hv (by linarith), if_pos hhigh]
  · have hmod : v % 256^w = v + 256^w := by
      rw [← Int.add_emod_right, Int.emod_eq_of_lt (by linarith) (by linarith)]
    rw [hmod, if_neg (by linarith)]
    ring

/-- the `k`-th field, read at the bytes before it -/
theorem unsigned_at {fs : List (ℕ × ℤ)} {k w at_ : ℕ} {v : ℤ} (hfield : fs[k]? = some (w, v))
    (hat : ((fs.take k).map Prod.fst).sum = at_) (tail : List Byte) : unsigned (struct fs ++ tail) at_ w = v % 256^w := by
  obtain ⟨hk, hget⟩ := List.getElem?_eq_some_iff.mp hfield
  have hsplit : fs = fs.take k ++ (w, v) :: fs.drop (k + 1) := by
    rw [← hget, List.getElem_cons_drop, List.take_append_drop]
  rw [hsplit, ← hat]
  exact unsigned_struct _ _ w v tail

theorem signed_at {fs : List (ℕ × ℤ)} {k w at_ : ℕ} {v : ℤ} (hfield : fs[k]? = some (w, v))
    (hat : ((fs.take k).map Prod.fst).sum = at_) (hv : -(256^w) ≤ 2 * v ∧ 2 * v < 256^w) (tail : List Byte) :
    signed (struct fs ++ tail) at_ w = v := by
  obtain ⟨hk, hget⟩ := List.getElem?_eq_some_iff.mp hfield
  have hsplit : fs = fs.take k ++ (w, v) :: fs.drop (k + 1) := by
    rw [← hget, List.getElem_cons_drop, List.take_append_drop]
  rw [hsplit, ← hat]
  exact signed_struct _ _ w hv.1 hv.2 tail

/-! ## numbers -/

/-- whatever lies nearer than a half -/
theorem pyRound_near {x : ℚ} {n : ℤ} (h : |x - n| < 1 / 2) : pyRound x = n := by
  obtain ⟨hlow, hhigh⟩ := abs_lt.mp h
  have hfloor := Int.floor_le x
  have hceil := Int.lt_floor_add_one x
  have hle : ∀ {m : ℤ}, (m : ℚ) < n + 1 → m ≤ n := fun hm => Int.lt_add_one_iff.mp (by exact_mod_cast hm)
  have hge : ∀ {m : ℤ}, (n : ℚ) < m + 1 → n ≤ m := fun hm => Int.lt_add_one_iff.mp (by exact_mod_cast hm)
  unfold pyRound
  rcases lt_trichotomy (x - ⌊x⌋) (1 / 2) with hfrac | hfrac | hfrac
  · rw [if_pos hfrac]
    exact le_antisymm (hle (by linarith)) (hge (by linarith))
  · -- a half away from `n` is not near it
    have h₁ : ⌊x⌋ < n := by exact_mod_cast (by linarith : (⌊x⌋ : ℚ) < n)
    have h₂ : n < ⌊x⌋ + 1 := by exact_mod_cast (by linarith : (n : ℚ) < ⌊x⌋ + 1)
    omega
  · rw [if_neg (by linarith), if_pos hfrac]
    have h₁ : ⌊x⌋ < n := by exact_mod_cast (by linarith : (⌊x⌋ : ℚ) < n)
    have h₂ : n < ⌊x⌋ + 2 := by exact_mod_cast (by linarith : (n : ℚ) < ⌊x⌋ + 2)
    omega

theorem pi_pos : 0 < pi := by
  unfold pi
  norm_num

theorem outputPosToRaw_raw (spec : S288Spec) (raw : ℚ) : spec.outputPosToRaw (spec.rawToOutputPos raw) = raw := by
  have hratio := spec.geared.ne'
  have hpi := pi_pos.ne'
  unfold S288Spec.outputPosToRaw S288Spec.rawToOutputPos
  field_simp

theorem outputSpdToRaw_raw (spec : S288Spec) (raw : ℚ) : spec.outputSpdToRaw (spec.rawToOutputSpd raw) = raw := by
  have hratio := spec.geared.ne'
  have hpi := pi_pos.ne'
  unfold S288Spec.outputSpdToRaw S288Spec.rawToOutputSpd
  field_simp

theorem outputTorqueToRaw_raw (spec : S288Spec) (raw : ℚ) : spec.outputTorqueToRaw (spec.rawToOutputTorque raw) = raw := by
  have hratio := spec.geared.ne'
  unfold S288Spec.outputTorqueToRaw S288Spec.rawToOutputTorque
  field_simp

theorem outputKpToRaw_raw (spec : S288Spec) (raw : ℚ) : spec.outputKpToRaw (spec.rawToOutputKp raw) = raw := by
  have hratio := spec.geared.ne'
  unfold S288Spec.outputKpToRaw S288Spec.rawToOutputKp
  field_simp

theorem outputKdToRaw_raw (spec : S288Spec) (raw : ℚ) : spec.outputKdToRaw (spec.rawToOutputKd raw) = raw := by
  have hratio := spec.geared.ne'
  unfold S288Spec.outputKdToRaw S288Spec.rawToOutputKd
  field_simp

theorem exPos_raw (spec : S288Spec) (raw : ℚ) : spec.exPosToRad raw / (2 * pi) * spec.encoderSteps = raw := by
  have hsteps : (spec.encoderSteps : ℚ) ≠ 0 := by exact_mod_cast spec.stepped.ne'
  have hpi := pi_pos.ne'
  unfold S288Spec.exPosToRad
  field_simp

theorem clip16_mem (v : ℤ) : -(256^2) ≤ 2 * clip16 v ∧ 2 * clip16 v < 256^2 := by
  unfold clip16
  omega

theorem clip32_mem (v : ℤ) : -(256^4) ≤ 2 * clip32 v ∧ 2 * clip32 v < 256^4 := by
  unfold clip32
  omega

/-! ## round trips -/

/-- the numbers that `build_feedback_frame` puts into a reply -/
def builtState (motorId : ℤ) (spec : S288Spec) (f : Feedback) : RawState where
  motorId := motorId
  temp := f.temperatureC
  sensor := f.sensorC % 256
  vol := max 0 (min 255 (pyRound (f.voltageV * 2)))
  torque := clip16 (pyRound (spec.outputTorqueToRaw f.tauOut))
  speed := clip16 (pyRound (spec.outputSpdToRaw f.dqOut))
  pos := clip32 (pyRound (spec.outputPosToRaw f.qOut))
  merror := f.error % 4294967296
  outPos := pyRound (f.exPosRad / (2 * pi) * spec.encoderSteps) % 8192
  exFlag := f.warn % 8

/-- the fields of a built reply, with the header -/
def builtFields (motorId : ℤ) (spec : S288Spec) (f : Feedback) : List (ℕ × ℤ) :=
  [(1, 0xFC), (1, 0xEE), (1, modeByte motorId f.mode f.timeout), (1, f.temperatureC), (1, f.sensorC % 256),
    (1, max 0 (min 255 (pyRound (f.voltageV * 2))) % 256), (2, clip16 (pyRound (spec.outputTorqueToRaw f.tauOut))),
    (2, clip16 (pyRound (spec.outputSpdToRaw f.dqOut))), (4, clip32 (pyRound (spec.outputPosToRaw f.qOut))),
    (4, f.error % 4294967296),
    (2, pyRound (f.exPosRad / (2 * pi) * spec.encoderSteps) % 8192 % 8192 + f.warn % 8 * 8192), (1, 0), (1, 0)]

variable {motorId : ℤ} {f : Feedback}

theorem buildFeedbackFrame_eq (h : ¬ (f.temperatureC < -128 ∨ 127 < f.temperatureC)) (motorId : ℤ) (spec : S288Spec) :
    buildFeedbackFrame motorId spec f = .ok (struct (builtFields motorId spec f) ++
      Bytes.ofNat 4 (crc32Unitree (slice (struct (builtFields motorId spec f)) 2 20)).toNat) := by
  unfold buildFeedbackFrame
  rw [if_neg h]
  rfl

theorem rawState_built (hid : 0 ≤ motorId ∧ motorId < 16) (h : ¬ (f.temperatureC < -128 ∨ 127 < f.temperatureC))
    (spec : S288Spec) (tail : List Byte) : rawState (struct (builtFields motorId spec f) ++ tail) = builtState motorId spec f := by
  have hmode : unsigned (struct (builtFields motorId spec f) ++ tail) 2 1 = modeByte motorId f.mode f.timeout % 256 :=
    unsigned_at (k := 2) rfl rfl tail
  have htemp : signed (struct (builtFields motorId spec f) ++ tail) 3 1 = f.temperatureC :=
    signed_at (k := 3) rfl rfl (by omega) tail
  have hsensor : unsigned (struct (builtFields motorId spec f) ++ tail) 4 1 = f.sensorC % 256 % 256 :=
    unsigned_at (k := 4) rfl rfl tail
  have hvol : unsigned (struct (builtFields motorId spec f) ++ tail) 5 1 =
      max 0 (min 255 (pyRound (f.voltageV * 2))) % 256 % 256 := unsigned_at (k := 5) rfl rfl tail
  have htorque : signed (struct (builtFields motorId spec f) ++ tail) 6 2 =
      clip16 (pyRound (spec.outputTorqueToRaw f.tauOut)) := signed_at (k := 6) rfl rfl (clip16_mem _) tail
  have hspeed : signed (struct (builtFields motorId spec f) ++ tail) 8 2 =
      clip16 (pyRound (spec.outputSpdToRaw f.dqOut)) := signed_at (k := 7) rfl rfl (clip16_mem _) tail
  have hpos : signed (struct (builtFields motorId spec f) ++ tail) 10 4 =
      clip32 (pyRound (spec.outputPosToRaw f.qOut)) := signed_at (k := 8) rfl rfl (clip32_mem _) tail
  have herror : unsigned (struct (builtFields motorId spec f) ++ tail) 14 4 = f.error % 4294967296 % 4294967296 :=
    unsigned_at (k := 9) rfl rfl tail
  have hout : unsigned (struct (builtFields motorId spec f) ++ tail) 18 2 =
      (pyRound (f.exPosRad / (2 * pi) * spec.encoderSteps) % 8192 % 8192 + f.warn % 8 * 8192) % 65536 :=
    unsigned_at (k := 10) rfl rfl tail
  unfold rawState builtState
  rw [hmode, htemp, hsensor, hvol, htorque, hspeed, hpos, herror, hout, RawState.mk.injEq]
  refine ⟨?_, rfl, Int.emod_emod .., ?_, rfl, rfl, rfl, Int.emod_emod .., ?_, ?_⟩
  · unfold modeByte
    split_ifs <;> omega
  · omega
  · omega
  · omega

/-- a built reply reads back -/
theorem unpackState_built (hid : 0 ≤ motorId ∧ motorId < 16) (h : -128 ≤ f.temperatureC ∧ f.temperatureC ≤ 127) (spec : S288Spec) :
    ∃ frame, buildFeedbackFrame motorId spec f = .ok frame ∧ rawState frame = builtState motorId spec f ∧
      unpackState frame spec = .ok ((builtState motorId spec f).state spec) := by
  have hrange : ¬ (f.temperatureC < -128 ∨ 127 < f.temperatureC) := by omega
  refine ⟨_, buildFeedbackFrame_eq hrange motorId spec, rawState_built hid hrange spec _, ?_⟩
  have hlen : (struct (builtFields motorId spec f)).length = 22 := length_struct _
  have hheader : slice (struct (builtFields motorId spec f)) 0 2 = headerFb := rfl
  generalize hframe : struct (builtFields motorId spec f) = body at *
  have hlong : ¬ (body ++ Bytes.ofNat 4 (crc32Unitree (slice body 2 20)).toNat).length < 26 := by
    rw [List.length_append, Bytes.length_ofNat, hlen]
    decide
  have hsum : slice (body ++ Bytes.ofNat 4 (crc32Unitree (slice body 2 20)).toNat) 22 4 =
      Bytes.ofNat 4 (crc32Unitree (slice body 2 20)).toNat := by
    rw [← hlen, slice_behind]
    exact Bytes.slice_all (Bytes.length_ofNat _ _)
  have hraw := rawState_built hid hrange spec (Bytes.ofNat 4 (crc32Unitree (slice body 2 20)).toNat)
  rw [hframe] at hraw
  have hfirst : slice (body ++ Bytes.ofNat 4 (crc32Unitree (slice body 2 20)).toNat) 0 2 = headerFb := by
    rw [slice_before (by omega)]
    exact hheader
  have hmid : slice (body ++ Bytes.ofNat 4 (crc32Unitree (slice body 2 20)).toNat) 2 20 = slice body 2 20 :=
    slice_before (by omega) _
  unfold unpackState
  rw [if_neg hlong, hfirst, if_neg (not_not.mpr rfl)]
  dsimp only
  rw [hsum, hmid, if_neg (not_not.mpr ((toNat_eq_nat_iff _ (Bytes.length_ofNat _ _)).mpr rfl)), hraw]

/-- the numbers behind the arguments, each nearer than half a step -/
structure Carries (spec : S288Spec) (f : Feedback) (r : RawState) : Prop where
  temp : f.temperatureC = r.temp
  sensor : f.sensorC = r.sensor
  vol : |f.voltageV * 2 - r.vol| < 1 / 2
  torque : |spec.outputTorqueToRaw f.tauOut - r.torque| < 1 / 2
  speed : |spec.outputSpdToRaw f.dqOut - r.speed| < 1 / 2
  pos : |spec.outputPosToRaw f.qOut - r.pos| < 1 / 2
  merror : f.error = r.merror
  outPos : |f.exPosRad / (2 * pi) * spec.encoderSteps - r.outPos| < 1 / 2
  exFlag : f.warn = r.exFlag

/-- what of them goes into a reply -/
def RawState.clipped (r : RawState) : RawState where
  motorId := r.motorId
  temp := r.temp
  sensor := r.sensor % 256
  vol := max 0 (min 255 r.vol)
  torque := clip16 r.torque
  speed := clip16 r.speed
  pos := clip32 r.pos
  merror := r.merror % 4294967296
  outPos := r.outPos % 8192
  exFlag := r.exFlag % 8

/-- the widths of the fields -/
structure RawState.Fits (r : RawState) : Prop where
  sensor : 0 ≤ r.sensor ∧ r.sensor < 2^8
  vol : 0 ≤ r.vol ∧ r.vol < 2^8
  torque : -2^15 ≤ r.torque ∧ r.torque < 2^15
  speed : -2^15 ≤ r.speed ∧ r.speed < 2^15
  pos : -2^31 ≤ r.pos ∧ r.pos < 2^31
  merror : 0 ≤ r.merror ∧ r.merror < 2^32
  outPos : 0 ≤ r.outPos ∧ r.outPos < 2^13
  exFlag : 0 ≤ r.exFlag ∧ r.exFlag < 2^3

theorem clip16_of_fits {v : ℤ} (h : -2^15 ≤ v ∧ v < 2^15) : clip16 v = v := by
  unfold clip16
  omega

theorem clip32_of_fits {v : ℤ} (h : -2^31 ≤ v ∧ v < 2^31) : clip32 v = v := by
  unfold clip32
  omega

theorem RawState.Fits.clipped {r : RawState} (h : r.Fits) : r.clipped = r := by
  obtain ⟨hsensor, hvol, htorque, hspeed, hpos, herror, hout, hflag⟩ := h
  unfold RawState.clipped
  have hsensor' : r.sensor % 256 = r.sensor := Int.emod_eq_of_lt hsensor.1 hsensor.2
  have hvol' : max 0 (min 255 r.vol) = r.vol := by omega
  have herror' : r.merror % 4294967296 = r.merror := Int.emod_eq_of_lt herror.1 herror.2
  have hout' : r.outPos % 8192 = r.outPos := Int.emod_eq_of_lt hout.1 hout.2
  have hflag' : r.exFlag % 8 = r.exFlag := Int.emod_eq_of_lt hflag.1 hflag.2
  rw [clip16_of_fits htorque, clip16_of_fits hspeed, clip32_of_fits hpos, hsensor', hvol', herror', hout', hflag']

theorem builtState_of_carries {r : RawState} (h : Carries spec f r) : builtState r.motorId spec f = r.clipped := by
  unfold builtState RawState.clipped
  rw [pyRound_near h.vol, pyRound_near h.torque, pyRound_near h.speed, pyRound_near h.pos, pyRound_near h.outPos, h.temp, h.sensor,
    h.merror, h.exFlag]

/-- the arguments in the units of the output side -/
def Feedback.ofRaw (spec : S288Spec) (r : RawState) : Feedback where
  qOut := spec.rawToOutputPos r.pos
  dqOut := spec.rawToOutputSpd r.speed
  tauOut := spec.rawToOutputTorque r.torque
  temperatureC := r.temp
  sensorC := r.sensor
  voltageV := r.vol / 2
  error := r.merror
  exPosRad := spec.exPosToRad r.outPos
  warn := r.exFlag

theorem near_self (x : ℚ) : |x - x| < 1 / 2 := by
  rw [sub_self, abs_zero]
  norm_num

theorem carries_ofRaw (spec : S288Spec) (r : RawState) : Carries spec (Feedback.ofRaw spec r) r := by
  refine ⟨rfl, rfl, ?_, ?_, ?_, ?_, rfl, ?_, rfl⟩
  · show |(r.vol : ℚ) / 2 * 2 - r.vol| < 1 / 2
    rw [div_mul_cancel₀ _ two_ne_zero]
    exact near_self _
  · show |spec.outputTorqueToRaw (spec.rawToOutputTorque r.torque) - r.torque| < 1 / 2
    rw [outputTorqueToRaw_raw]
    exact near_self _
  · show |spec.outputSpdToRaw (spec.rawToOutputSpd r.speed) - r.speed| < 1 / 2
    rw [outputSpdToRaw_raw]
    exact near_self _
  · show |spec.outputPosToRaw (spec.rawToOutputPos r.pos) - r.pos| < 1 / 2
    rw [outputPosToRaw_raw]
    exact near_self _
  · show |spec.exPosToRad r.outPos / (2 * pi) * spec.encoderSteps - r.outPos| < 1 / 2
    rw [exPos_raw]
    exact near_self _

/-! ## commands -/

/-- the numbers in a command -/
structure RawCommand where
  modeByte : ℤ
  torque : ℤ
  speed : ℤ
  pos : ℤ
  kp : ℤ
  kd : ℤ
  deriving DecidableEq

/-- where they stand -/
def rawCommand (frame : List Byte) : RawCommand where
  modeByte := unsigned frame 2 1
  torque := signed frame 4 2
  speed := signed frame 6 2
  pos := signed frame 8 4
  kp := signed frame 12 2
  kd := signed frame 14 2

structure CarriesCommand (spec : S288Spec) (c : S288Command) (r : RawCommand) : Prop where
  torque : |spec.outputTorqueToRaw c.tauOut - r.torque| < 1 / 2
  speed : |spec.outputSpdToRaw c.dqOut - r.speed| < 1 / 2
  pos : |spec.outputPosToRaw c.qOut - r.pos| < 1 / 2
  kp : |spec.outputKpToRaw c.kpOut - r.kp| < 1 / 2
  kd : |spec.outputKdToRaw c.kdOut - r.kd| < 1 / 2

def RawCommand.clipped (r : RawCommand) : RawCommand where
  modeByte := r.modeByte
  torque := clip16 r.torque
  speed := clip16 r.speed
  pos := clip32 r.pos
  kp := clip16 r.kp
  kd := clip16 r.kd

structure RawCommand.Fits (r : RawCommand) : Prop where
  torque : -2^15 ≤ r.torque ∧ r.torque < 2^15
  speed : -2^15 ≤ r.speed ∧ r.speed < 2^15
  pos : -2^31 ≤ r.pos ∧ r.pos < 2^31
  kp : -2^15 ≤ r.kp ∧ r.kp < 2^15
  kd : -2^15 ≤ r.kd ∧ r.kd < 2^15

theorem RawCommand.Fits.clipped {r : RawCommand} (h : r.Fits) : r.clipped = r := by
  unfold RawCommand.clipped
  rw [clip16_of_fits h.torque, clip16_of_fits h.speed, clip32_of_fits h.pos, clip16_of_fits h.kp, clip16_of_fits h.kd]

/-- the arguments in the units of the output side -/
def S288Command.ofRaw (spec : S288Spec) (r : RawCommand) : S288Command where
  qOut := spec.rawToOutputPos r.pos
  dqOut := spec.rawToOutputSpd r.speed
  tauOut := spec.rawToOutputTorque r.torque
  kpOut := spec.rawToOutputKp r.kp
  kdOut := spec.rawToOutputKd r.kd

theorem carriesCommand_ofRaw (spec : S288Spec) (r : RawCommand) : CarriesCommand spec (S288Command.ofRaw spec r) r := by
  refine ⟨?_, ?_, ?_, ?_, ?_⟩
  · show |spec.outputTorqueToRaw (spec.rawToOutputTorque r.torque) - r.torque| < 1 / 2
    rw [outputTorqueToRaw_raw]
    exact near_self _
  · show |spec.outputSpdToRaw (spec.rawToOutputSpd r.speed) - r.speed| < 1 / 2
    rw [outputSpdToRaw_raw]
    exact near_self _
  · show |spec.outputPosToRaw (spec.rawToOutputPos r.pos) - r.pos| < 1 / 2
    rw [outputPosToRaw_raw]
    exact near_self _
  · show |spec.outputKpToRaw (spec.rawToOutputKp r.kp) - r.kp| < 1 / 2
    rw [outputKpToRaw_raw]
    exact near_self _
  · show |spec.outputKdToRaw (spec.rawToOutputKd r.kd) - r.kd| < 1 / 2
    rw [outputKdToRaw_raw]
    exact near_self _

variable {c : S288Command}

/-- the fields of a command, with the header -/
def commandFields (motorId : ℤ) (c : S288Command) (spec : S288Spec) (mode : ℤ) (timeout : Bool) : List (ℕ × ℤ) :=
  [(1, 0xFE), (1, 0xEE), (1, modeByte motorId mode timeout), (1, 0), (2, clip16 (pyRound (spec.outputTorqueToRaw c.tauOut))),
    (2, clip16 (pyRound (spec.outputSpdToRaw c.dqOut))), (4, clip32 (pyRound (spec.outputPosToRaw c.qOut))),
    (2, clip16 (pyRound (spec.outputKpToRaw c.kpOut))), (2, clip16 (pyRound (spec.outputKdToRaw c.kdOut)))]

theorem packCommand_eq (motorId : ℤ) (c : S288Command) (spec : S288Spec) (mode : ℤ) (timeout : Bool) :
    packCommand motorId c spec mode timeout = struct (commandFields motorId c spec mode timeout) ++
      Bytes.ofNat 4 (crc32Unitree (struct (commandFields motorId c spec mode timeout))).toNat := rfl

theorem modeByte_mem (motorId mode : ℤ) (timeout : Bool) : 0 ≤ modeByte motorId mode timeout ∧ modeByte motorId mode timeout < 256 := by
  unfold modeByte
  split_ifs <;> omega

/-- where the fields of a command are read back -/
theorem rawCommand_packed {r : RawCommand} (h : CarriesCommand spec c r) (motorId mode : ℤ) (timeout : Bool) :
    rawCommand (packCommand motorId c spec mode timeout) = { r.clipped with modeByte := modeByte motorId mode timeout } := by
  obtain ⟨hlow, hhigh⟩ := modeByte_mem motorId mode timeout
  rw [packCommand_eq]
  generalize Bytes.ofNat 4 _ = tail
  have hmode : unsigned (struct (commandFields motorId c spec mode timeout) ++ tail) 2 1 = modeByte motorId mode timeout % 256 :=
    unsigned_at (k := 2) rfl rfl tail
  have htorque : signed (struct (commandFields motorId c spec mode timeout) ++ tail) 4 2 =
      clip16 (pyRound (spec.outputTorqueToRaw c.tauOut)) := signed_at (k := 4) rfl rfl (clip16_mem _) tail
  have hspeed : signed (struct (commandFields motorId c spec mode timeout) ++ tail) 6 2 =
      clip16 (pyRound (spec.outputSpdToRaw c.dqOut)) := signed_at (k := 5) rfl rfl (clip16_mem _) tail
  have hpos : signed (struct (commandFields motorId c spec mode timeout) ++ tail) 8 4 =
      clip32 (pyRound (spec.outputPosToRaw c.qOut)) := signed_at (k := 6) rfl rfl (clip32_mem _) tail
  have hkp : signed (struct (commandFields motorId c spec mode timeout) ++ tail) 12 2 =
      clip16 (pyRound (spec.outputKpToRaw c.kpOut)) := signed_at (k := 7) rfl rfl (clip16_mem _) tail
  have hkd : signed (struct (commandFields motorId c spec mode timeout) ++ tail) 14 2 =
      clip16 (pyRound (spec.outputKdToRaw c.kdOut)) := signed_at (k := 8) rfl rfl (clip16_mem _) tail
  unfold rawCommand RawCommand.clipped
  rw [hmode, htorque, hspeed, hpos, hkp, hkd, pyRound_near h.torque, pyRound_near h.speed, pyRound_near h.pos, pyRound_near h.kp,
    pyRound_near h.kd, Int.emod_eq_of_lt hlow hhigh]

/-- twenty bytes: the header, the fields and the checksum of both -/
theorem packCommand_framed (motorId : ℤ) (c : S288Command) (spec : S288Spec) (mode : ℤ) (timeout : Bool) :
    (packCommand motorId c spec mode timeout).length = 20 ∧ slice (packCommand motorId c spec mode timeout) 0 2 = headerCmd ∧
      slice (packCommand motorId c spec mode timeout) 16 4 =
        Bytes.ofNat 4 (crc32Unitree (slice (packCommand motorId c spec mode timeout) 0 16)).toNat := by
  rw [packCommand_eq]
  have hlen : (struct (commandFields motorId c spec mode timeout)).length = 16 := length_struct _
  have hheader : slice (struct (commandFields motorId c spec mode timeout)) 0 2 = headerCmd := rfl
  generalize struct (commandFields motorId c spec mode timeout) = body at *
  refine ⟨?_, ?_, ?_⟩
  · rw [List.length_append, Bytes.length_ofNat, hlen]
  · rw [slice_before (by omega)]
    exact hheader
  · have hbody : slice (body ++ Bytes.ofNat 4 (crc32Unitree body).toNat) 0 16 = body := by
      rw [slice_before (by omega)]
      exact Bytes.slice_all hlen
    have hsum : slice (body ++ Bytes.ofNat 4 (crc32Unitree body).toNat) 16 4 = Bytes.ofNat 4 (crc32Unitree body).toNat := by
      rw [← hlen, slice_behind]
      exact Bytes.slice_all (Bytes.length_ofNat _ _)
    rw [hsum, hbody]

/-! ## the codec -/

/-- **The frames of the S288 servo.** -/
theorem s288_frame_codec :
    -- the checksum, bit by bit
    (∀ data : List Byte, 4 ∣ data.length → crc32Unitree data = Crc.run poly 0xFFFFFFFF (crcBits data)) ∧
    -- what is a reply
    (∀ (spec : S288Spec) (frame : List Byte), frame.length = 26 → ((∃ st, unpackState frame spec = .ok st) ↔
      slice frame 0 2 = headerFb ∧ slice frame 22 4 = Bytes.ofNat 4 (crc32Unitree (slice frame 2 20)).toNat)) ∧
    -- a burst of errors
    (∀ (spec : S288Spec) (frame frame' : List Byte), frame.length = 26 → frame'.length = 26 →
      (∃ st, unpackState frame spec = .ok st) → slice frame' 22 4 = slice frame 22 4 →
      Crc.Burst 32 (crcBits (slice frame 2 20)) (crcBits (slice frame' 2 20)) → ¬ ∃ st, unpackState frame' spec = .ok st) ∧
    -- a reply and its numbers
    (∀ (spec : S288Spec) (r : RawState), Carries spec (Feedback.ofRaw spec r) r) ∧
    (∀ (spec : S288Spec) (f : Feedback) (r : RawState), Carries spec f r → 0 ≤ r.motorId ∧ r.motorId < 16 →
      -128 ≤ r.temp ∧ r.temp ≤ 127 →
      ∃ frame, buildFeedbackFrame r.motorId spec f = .ok frame ∧ rawState frame = r.clipped ∧
        unpackState frame spec = .ok (r.clipped.state spec) ∧ (r.Fits → r.clipped = r)) ∧
    -- a command and its numbers
    (∀ (spec : S288Spec) (r : RawCommand), CarriesCommand spec (S288Command.ofRaw spec r) r) ∧
    (∀ (spec : S288Spec) (c : S288Command) (r : RawCommand) (motorId mode : ℤ) (timeout : Bool), CarriesCommand spec c r →
      (packCommand motorId c spec mode timeout).length = 20 ∧ slice (packCommand motorId c spec mode timeout) 0 2 = headerCmd ∧
      slice (packCommand motorId c spec mode timeout) 16 4 =
        Bytes.ofNat 4 (crc32Unitree (slice (packCommand motorId c spec mode timeout) 0 16)).toNat ∧
      rawCommand (packCommand motorId c spec mode timeout) = { r.clipped with modeByte := modeByte motorId mode timeout } ∧
      (r.Fits → r.clipped = r)) := by
  refine ⟨fun _ => crc32Unitree_eq, fun spec _ h => unpackState_isOk_iff h spec, fun _ _ _ => burst_rejected, carries_ofRaw, ?_,
    carriesCommand_ofRaw, ?_⟩
  · intro spec f r hcarries hid htemp
    rw [← hcarries.temp] at htemp
    obtain ⟨frame, hbuilt, hraw, hread⟩ := unpackState_built hid htemp spec
    rw [builtState_of_carries hcarries] at hraw hread
    exact ⟨frame, hbuilt, hraw, hread, RawState.Fits.clipped⟩
  · intro spec c r motorId mode timeout hcarries
    obtain ⟨hlen, hheader, hsum⟩ := packCommand_framed motorId c spec mode timeout
    exact ⟨hlen, hheader, hsum, rawCommand_packed hcarries motorId mode timeout, RawCommand.Fits.clipped⟩

/-- an error code of 33 bits -/
def wideError : RawState := ⟨3, 25, 30, 25, 0, 0, 0, 2^32, 0, 0⟩

theorem s288_frame_codec_wide :
    ∃ frame, buildFeedbackFrame 3 {} (Feedback.ofRaw {} wideError) = .ok frame ∧
      unpackState frame {} = .ok (({ wideError with merror := 0 } : RawState).state {}) := by
  obtain ⟨-, -, -, hraw, hreply, -⟩ := s288_frame_codec
  obtain ⟨frame, hbuilt, -, hread, -⟩ := hreply {} _ wideError (hraw {} wideError) (by decide) (by decide)
  exact ⟨frame, hbuilt, hread⟩

/-- it wraps -/
theorem error_wraps : ¬ ∀ (r : RawState) (frame : List Byte) (st : S288State), 0 ≤ r.motorId ∧ r.motorId < 16 →
    buildFeedbackFrame r.motorId {} (Feedback.ofRaw {} r) = .ok frame → unpackState frame {} = .ok st →
      st.error = max 0 (min (2^32 - 1) r.merror) := by
  intro hsaturates
  obtain ⟨frame, hbuilt, -, hread⟩ := unpackState_built (f := Feedback.ofRaw {} wideError) (show 0 ≤ (3 : ℤ) ∧ (3 : ℤ) < 16 by decide) (by decide) {}
  exact absurd (hsaturates wideError frame _ (by decide) hbuilt hread) (by decide)

end ArmControl.LeaderFollower.S288
