import Mathlib.Algebra.Order.Floor.Ring
import Mathlib.Data.Rat.Floor
import ArmControl.Lib.Vectors

/-!
# The MIT frames of a DM motor

The codec twice: `plants/dm/backend.py` (limits by name) and `rt/src/dm_mit.hpp` (limits by field).  Numbers
are values, and the arithmetic is exact.

* `DmMotorLimits`, `packMitControlFrame`, `decodeMitReply`   the Python side;
* `DmLimits`, `packMit`, `decodeMit`                         the server side;
* `DmLimits.get`, `DmLimits.Encodable`                       the limits by name, and the ones that can be encoded;
* `f2u_of_clip`                                              the code of a value, and what it decodes to;
* `packMit_of_packMitControlFrame`, `decodeMitReply_eq`      **the two codecs agree on limits that can be encoded.**
-/

namespace ArmControl.Plants.Dm

/-! ## the Python side -/

/-- the fields of `DmMotorLimits` -/
inductive LimitKey where
  | positionMin
  | positionMax
  | velocityMin
  | velocityMax
  | kpMin
  | kpMax
  | kdMin
  | kdMax
  | torqueMin
  | torqueMax
  deriving DecidableEq

abbrev DmMotorLimits : Type := LimitKey → Value

/-- the defaults of the class, which are those of a 4310 -/
def dmMotorLimits : DmMotorLimits
  | .positionMin => .fin (-25 / 2)
  | .positionMax => .fin (25 / 2)
  | .velocityMin => .fin (-30)
  | .velocityMax => .fin 30
  | .kpMin => .fin 0
  | .kpMax => .fin 500
  | .kdMin => .fin 0
  | .kdMax => .fin 5
  | .torqueMin => .fin (-10)
  | .torqueMax => .fin 10

/-- `int(x)` of a float: towards zero, and NaN and the infinities raise -/
def pyInt : Value → Option ℤ
  | .fin q => some (if 0 ≤ q then ⌊q⌋ else ⌈q⌉)
  | _ => none

/-- `_clip` -/
def clip (value lo hi : Value) : Value := (value.pyMax lo).pyMin hi

/-- the number of the largest code -/
def levels (bits : ℕ) : ℕ := 2 ^ bits - 1

/-- `_uint_to_float`, `none` where it raises -/
def uintToFloat (raw : ℕ) (lo hi : Value) (bits : ℕ) : Option Value :=
  let span := hi - lo
  if span.le (.fin 0) then none
  else some (.fin raw * span / .fin (levels bits) + lo)

/-- `_float_to_uint`, `none` where it raises -/
def floatToUint (value lo hi : Value) (bits : ℕ) : Option ℤ :=
  let value := clip value lo hi
  let span := hi - lo
  if span.le (.fin 0) then none
  else pyInt ((value - lo) * .fin (levels bits) / span)

structure DmMotorState where
  position : Value
  velocity : Value
  torque : Value
  motorId : ℕ
  error : ℕ
  tMos : Value
  tRotor : Value

/-- `decode_mit_reply`: `none` where it raises, `some none` for a frame that is too short -/
def decodeMitReply (data : List UInt8) (limits : DmMotorLimits) : Option (Option DmMotorState) :=
  match data.map UInt8.toNat with
  | d0 :: d1 :: d2 :: d3 :: d4 :: d5 :: d6 :: d7 :: _ => do
    let motorId := d0 &&& 0x0F
    let error := (d0 >>> 4) &&& 0x0F
    let posU := (d1 <<< 8) ||| d2
    let velU := (d3 <<< 4) ||| (d4 >>> 4)
    let tauU := ((d4 &&& 0x0F) <<< 8) ||| d5
    let position ← uintToFloat posU (limits .positionMin) (limits .positionMax) 16
    let velocity ← uintToFloat velU (limits .velocityMin) (limits .velocityMax) 12
    let torque ← uintToFloat tauU (limits .torqueMin) (limits .torqueMax) 12
    pure (some ⟨position, velocity, torque, motorId, error, .fin d6, .fin d7⟩)
  | _ => some none

/-- the keywords of `pack_mit_control_frame`, which are also the numbers that the server packs -/
structure Command where
  position : Value
  velocity : Value
  kp : Value
  kd : Value
  torque : Value

/-- `lo <= value <= hi` -/
def within (value lo hi : Value) : Bool := lo.le value && value.le hi

/-- `validate_hardware_gains` -/
def validateHardwareGains (kp kd torque : Value) (limits : DmMotorLimits) : Bool :=
  within kp (limits .kpMin) (limits .kpMax) && within kd (limits .kdMin) (limits .kdMax) &&
    within torque (limits .torqueMin) (limits .torqueMax)

/-- the eight bytes of the codes, which are not negative (`floatToUint_nonneg`) -/
def frame (p v kp kd t : ℕ) : List ℕ :=
  [ (p >>> 8) &&& 0xFF,
    p &&& 0xFF,
    (v >>> 4) &&& 0xFF,
    ((v &&& 0x0F) <<< 4) ||| ((kp >>> 8) &&& 0x0F),
    kp &&& 0xFF,
    (kd >>> 4) &&& 0xFF,
    ((kd &&& 0x0F) <<< 4) ||| ((t >>> 8) &&& 0x0F),
    t &&& 0xFF ]

/-- `pack_mit_control_frame`, `none` where it raises -/
def packMitControlFrame (c : Command) (limits : DmMotorLimits) : Option (List ℕ) :=
  if validateHardwareGains c.kp c.kd c.torque limits then do
    let p ← floatToUint c.position (limits .positionMin) (limits .positionMax) 16
    let v ← floatToUint c.velocity (limits .velocityMin) (limits .velocityMax) 12
    let kp ← floatToUint c.kp (limits .kpMin) (limits .kpMax) 12
    let kd ← floatToUint c.kd (limits .kdMin) (limits .kdMax) 12
    let t ← floatToUint c.torque (limits .torqueMin) (limits .torqueMax) 12
    pure (frame p.toNat v.toNat kp.toNat kd.toNat t.toNat)
  else none

/-! ## the server side -/

structure DmLimits where
  pLo : Value
  pHi : Value
  vLo : Value
  vHi : Value
  kpLo : Value
  kpHi : Value
  kdLo : Value
  kdHi : Value
  tLo : Value
  tHi : Value
  deriving DecidableEq

/-- `uint32_t(x)` of a double: towards zero, undefined for what does not fit -/
def uint32 : Value → Option ℕ
  | .fin q => if -1 < q ∧ q < 2 ^ 32 then some ⌊q⌋.toNat else none
  | _ => none

/-- the two assignments of `f2u`, made when the comparison holds -/
def clampTo (v lo hi : Value) : Value :=
  let v := if v.lt lo then lo else v
  if hi.lt v then hi else v

def f2u (v lo hi : Value) (bits : ℕ) : Option ℕ :=
  uint32 ((clampTo v lo hi - lo) * .fin (levels bits) / (hi - lo))

def u2f (raw : ℕ) (lo hi : Value) (bits : ℕ) : Value := .fin raw * (hi - lo) / .fin (levels bits) + lo

/-- `uint8_t(n)` -/
def uint8 (n : ℕ) : ℕ := n % 256

/-- `pack_mit`, `none` where a cast is undefined -/
def packMit (c : Command) (l : DmLimits) : Option (List ℕ) := do
  let p ← f2u c.position l.pLo l.pHi 16
  let v ← f2u c.velocity l.vLo l.vHi 12
  let s ← f2u c.kp l.kpLo l.kpHi 12
  let d ← f2u c.kd l.kdLo l.kdHi 12
  let t ← f2u c.torque l.tLo l.tHi 12
  pure
    [ uint8 ((p >>> 8) &&& 0xFF),
      uint8 (p &&& 0xFF),
      uint8 ((v >>> 4) &&& 0xFF),
      uint8 (((v &&& 0x0F) <<< 4) ||| ((s >>> 8) &&& 0x0F)),
      uint8 (s &&& 0xFF),
      uint8 ((d >>> 4) &&& 0xFF),
      uint8 (((d &&& 0x0F) <<< 4) ||| ((t >>> 8) &&& 0x0F)),
      uint8 (t &&& 0xFF) ]

structure MitReply where
  id : ℕ
  err : ℕ
  q : Value
  dq : Value
  tau : Value
  tMos : Value
  tRotor : Value

/-- `decode_mit`, `none` where it returns false -/
def decodeMit (d : List UInt8) (l : DmLimits) : Option MitReply :=
  match d.map UInt8.toNat with
  | d0 :: d1 :: d2 :: d3 :: d4 :: d5 :: d6 :: d7 :: _ =>
    let posU := (d1 <<< 8) ||| d2
    let velU := (d3 <<< 4) ||| (d4 >>> 4)
    let tauU := ((d4 &&& 0x0F) <<< 8) ||| d5
    some {
      id := d0 &&& 0x0F
      err := (d0 >>> 4) &&& 0x0F
      q := u2f posU l.pLo l.pHi 16
      dq := u2f velU l.vLo l.vHi 12
      tau := u2f tauU l.tLo l.tHi 12
      tMos := .fin d6
      tRotor := .fin d7
    }
  | _ => none

/-! ## the two sides -/

/-- a field of the server's limits by its Python name -/
def DmLimits.get (l : DmLimits) : LimitKey → Value
  | .positionMin => l.pLo
  | .positionMax => l.pHi
  | .velocityMin => l.vLo
  | .velocityMax => l.vHi
  | .kpMin => l.kpLo
  | .kpMax => l.kpHi
  | .kdMin => l.kdLo
  | .kdMax => l.kdHi
  | .torqueMin => l.tLo
  | .torqueMax => l.tHi

/-- the state that a reply gives on the Python side -/
def MitReply.state (r : MitReply) : DmMotorState := ⟨r.q, r.dq, r.tau, r.id, r.err, r.tMos, r.tRotor⟩

/-- the fields of a command -/
inductive Field where
  | position
  | velocity
  | kp
  | kd
  | torque

/-- the minimum and the maximum of a field, and the bits of its code -/
def Field.range : Field → LimitKey × LimitKey × ℕ
  | .position => (.positionMin, .positionMax, 16)
  | .velocity => (.velocityMin, .velocityMax, 12)
  | .kp => (.kpMin, .kpMax, 12)
  | .kd => (.kdMin, .kdMax, 12)
  | .torque => (.torqueMin, .torqueMax, 12)

/-- a range that can be encoded -/
def Encodes (lo hi : Value) : Prop := ∃ a b : ℚ, lo = .fin a ∧ hi = .fin b ∧ a < b

variable {v lo hi : Value} {a b : ℚ} {bits : ℕ}

theorem clip_eq_clampTo : clip v lo hi = clampTo v lo hi := rfl

theorem clampTo_eq {q a b : ℚ} : clampTo (.fin q) (.fin a) (.fin b) = .fin (min (max q a) b) := by
  have hmax : (if (Value.fin q).lt (.fin a) then Value.fin a else .fin q) = .fin (max q a) := by
    rw [Value.lt_fin]
    rcases lt_or_ge q a with h | h
    · rw [decide_eq_true h, max_eq_right h.le]
      rfl
    · rw [decide_eq_false h.not_gt, max_eq_left h]
      rfl
  unfold clampTo
  rw [hmax]
  dsimp only
  rw [Value.lt_fin]
  rcases lt_or_ge b (max q a) with h | h
  · rw [decide_eq_true h, min_eq_right h.le]
    rfl
  · rw [decide_eq_false h.not_gt, min_eq_left h]
    rfl

/-- clipping leaves a number of the range -/
theorem clampTo_fin (hv : v ≠ .nan) (hab : a < b) : ∃ c, clampTo v (.fin a) (.fin b) = .fin c ∧ a ≤ c ∧ c ≤ b := by
  cases v with
  | nan => exact absurd rfl hv
  | inf neg =>
    cases neg with
    | false => exact ⟨b, rfl, hab.le, le_refl b⟩
    | true =>
      refine ⟨a, ?_, le_refl a, hab.le⟩
      show (if (Value.fin b).lt (.fin a) then Value.fin b else .fin a) = _
      rw [Value.lt_fin, decide_eq_false hab.le.not_gt]
      rfl
  | fin q => exact ⟨min (max q a) b, clampTo_eq, le_min (le_max_right q a) hab.le, min_le_right _ b⟩

theorem clampTo_nan : clampTo .nan lo hi = .nan := by
  unfold clampTo
  cases lo <;> cases hi <;> rfl

theorem levels_pos (h : 0 < bits) : (0 : ℚ) < levels bits := by
  have : 1 < 2 ^ bits := Nat.one_lt_two_pow h.ne'
  unfold levels
  exact_mod_cast Nat.sub_pos_of_lt this

/-- the scaled value lies between the least and the largest code -/
theorem scaled_bounds {c n : ℚ} (hn : 0 < n) (hac : a ≤ c) (hcb : c ≤ b) (hab : a < b) :
    0 ≤ (c - a) * n / (b - a) ∧ (c - a) * n / (b - a) ≤ n := by
  have hspan : 0 < b - a := sub_pos.mpr hab
  refine ⟨div_nonneg (mul_nonneg (sub_nonneg.mpr hac) hn.le) hspan.le, ?_⟩
  rw [div_le_iff₀ hspan, mul_comm]
  exact mul_le_mul_of_nonneg_left (sub_le_sub_right hcb a) hn.le

/-- the code of a value, its range, and the value it decodes to -/
theorem f2u_of_clip (hbits : 0 < bits) (hle : bits ≤ 16) (hab : a < b) (hv : v ≠ .nan) :
    ∃ c x : ℚ, ∃ code : ℕ, clampTo v (.fin a) (.fin b) = .fin c ∧ f2u v (.fin a) (.fin b) bits = some code ∧
      floatToUint v (.fin a) (.fin b) bits = some (code : ℤ) ∧ code ≤ levels bits ∧
      u2f code (.fin a) (.fin b) bits = .fin x ∧ x ≤ c ∧ c ≤ x + (b - a) / levels bits := by
  obtain ⟨c, hc, hac, hcb⟩ := clampTo_fin hv hab
  have hspan : 0 < b - a := sub_pos.mpr hab
  have hlev := levels_pos hbits
  obtain ⟨h0, hn⟩ := scaled_bounds hlev hac hcb hab
  -- the scaled value, of which the code is the floor
  generalize hz : (c - a) * (levels bits : ℚ) / (b - a) = z at h0 hn
  have hfloor : (⌊z⌋.toNat : ℤ) = ⌊z⌋ := Int.toNat_of_nonneg (Int.floor_nonneg.mpr h0)
  have hcode : ((⌊z⌋.toNat : ℕ) : ℚ) = (⌊z⌋ : ℚ) := by exact_mod_cast congrArg (Int.cast (R := ℚ)) hfloor
  have hscaled : (clampTo v (.fin a) (.fin b) - .fin a) * .fin (levels bits) / (.fin b - .fin a) = .fin z := by
    rw [hc, Value.fin_sub, Value.fin_mul, Value.fin_sub, Value.fin_div _ hspan.ne', hz]
  have hsmall : levels bits < 2 ^ 32 := by
    have hpow : 2 ^ bits ≤ 2 ^ 16 := Nat.pow_le_pow_right (by norm_num) hle
    unfold levels
    omega
  refine ⟨c, (⌊z⌋ : ℚ) * (b - a) / levels bits + a, ⌊z⌋.toNat, hc, ?_, ?_, ?_, ?_, ?_, ?_⟩
  · unfold f2u
    rw [hscaled]
    refine if_pos ⟨neg_one_lt_zero.trans_le h0, hn.trans_lt ?_⟩
    exact_mod_cast hsmall
  · unfold floatToUint
    rw [clip_eq_clampTo]
    dsimp only
    rw [hscaled, Value.fin_sub, Value.le_fin, decide_eq_false hspan.not_ge]
    show some (if 0 ≤ z then ⌊z⌋ else ⌈z⌉) = _
    rw [if_pos h0, hfloor]
  · have hle' : (⌊z⌋ : ℚ) ≤ levels bits := (Int.floor_le z).trans hn
    rw [← hcode] at hle'
    exact_mod_cast hle'
  · unfold u2f
    rw [Value.fin_sub, Value.fin_mul, Value.fin_div _ hlev.ne', Value.fin_add, hcode]
  · have hback : z * (b - a) / levels bits + a = c := by
      rw [← hz]
      field_simp
      ring
    rw [← hback]
    gcongr
    exact Int.floor_le z
  · have hback : z * (b - a) / levels bits + a = c := by
      rw [← hz]
      field_simp
      ring
    have hup : z * (b - a) / levels bits ≤ (⌊z⌋ + 1) * (b - a) / levels bits := by
      gcongr
      exact (Int.lt_floor_add_one z).le
    calc c = z * (b - a) / levels bits + a := hback.symm
      _ ≤ (⌊z⌋ + 1) * (b - a) / levels bits + a := by linarith
      _ = (⌊z⌋ : ℚ) * (b - a) / levels bits + a + (b - a) / levels bits := by ring

theorem uint8_and (n : ℕ) : uint8 (n &&& 0xFF) = n &&& 0xFF :=
  Nat.mod_eq_of_lt (Nat.and_lt_two_pow n (by norm_num : 0xFF < 2 ^ 8))

theorem uint8_nibbles (m n : ℕ) :
    uint8 (((m &&& 0x0F) <<< 4) ||| (n &&& 0x0F)) = ((m &&& 0x0F) <<< 4) ||| (n &&& 0x0F) := by
  refine Nat.mod_eq_of_lt (Nat.or_lt_two_pow (n := 8) ?_ ?_)
  · have h : m &&& 0x0F < 2 ^ 4 := Nat.and_lt_two_pow m (by norm_num)
    rw [Nat.shiftLeft_eq]
    omega
  · have h : n &&& 0x0F < 2 ^ 4 := Nat.and_lt_two_pow n (by norm_num)
    omega

/-- what `pack_mit_control_frame` needs of a range, and the limits that have it -/
def DmLimits.Encodable (l : DmLimits) : Prop := ∀ f : Field, Encodes (l.get f.range.1) (l.get f.range.2.1)

/-- a value that Python packs is packed to the same code -/
theorem f2u_of_floatToUint {k : ℤ} (h : Encodes lo hi) (hbits : 0 < bits) (hle : bits ≤ 16)
    (hk : floatToUint v lo hi bits = some k) : f2u v lo hi bits = some k.toNat := by
  obtain ⟨a, b, rfl, rfl, hab⟩ := h
  by_cases hv : v = .nan
  · subst hv
    unfold floatToUint at hk
    rw [clip_eq_clampTo, clampTo_nan] at hk
    dsimp only at hk
    rw [Value.fin_sub, Value.le_fin, decide_eq_false (sub_pos.mpr hab).not_ge] at hk
    cases hk
  · obtain ⟨c, x, code, -, hcode, hpy, -⟩ := f2u_of_clip hbits hle hab hv
    rw [hpy] at hk
    rw [hcode, ← Option.some.inj hk, Int.toNat_natCast]

/-- **The frame of a command that Python packs is the server's.** -/
theorem packMit_of_packMitControlFrame {l : DmLimits} {limits : DmMotorLimits} (hl : limits = l.get) (henc : l.Encodable)
    {c : Command} {bytes : List ℕ} (h : packMitControlFrame c limits = some bytes) : packMit c l = some bytes := by
  subst hl
  unfold packMitControlFrame at h
  split_ifs at h
  obtain ⟨p, hp, h⟩ := Option.bind_eq_some_iff.mp h
  obtain ⟨v, hv, h⟩ := Option.bind_eq_some_iff.mp h
  obtain ⟨s, hs, h⟩ := Option.bind_eq_some_iff.mp h
  obtain ⟨d, hd, h⟩ := Option.bind_eq_some_iff.mp h
  obtain ⟨t, ht, h⟩ := Option.bind_eq_some_iff.mp h
  obtain rfl := Option.some.inj h
  have hp' : f2u c.position l.pLo l.pHi 16 = some p.toNat :=
    f2u_of_floatToUint (henc .position) (by norm_num) (by norm_num) hp
  have hv' : f2u c.velocity l.vLo l.vHi 12 = some v.toNat :=
    f2u_of_floatToUint (henc .velocity) (by norm_num) (by norm_num) hv
  have hs' : f2u c.kp l.kpLo l.kpHi 12 = some s.toNat :=
    f2u_of_floatToUint (henc .kp) (by norm_num) (by norm_num) hs
  have hd' : f2u c.kd l.kdLo l.kdHi 12 = some d.toNat :=
    f2u_of_floatToUint (henc .kd) (by norm_num) (by norm_num) hd
  have ht' : f2u c.torque l.tLo l.tHi 12 = some t.toNat :=
    f2u_of_floatToUint (henc .torque) (by norm_num) (by norm_num) ht
  show ((f2u c.position l.pLo l.pHi 16).bind fun p => (f2u c.velocity l.vLo l.vHi 12).bind fun v =>
    (f2u c.kp l.kpLo l.kpHi 12).bind fun s => (f2u c.kd l.kdLo l.kdHi 12).bind fun d =>
      (f2u c.torque l.tLo l.tHi 12).bind fun t => some _) = _
  rw [hp', hv', hs', hd', ht']
  simp only [Option.bind_some, uint8_and, uint8_nibbles]
  rfl

/-- a reading that Python decodes to is the server's -/
theorem uintToFloat_eq_u2f (h : Encodes lo hi) (raw : ℕ) : uintToFloat raw lo hi bits = some (u2f raw lo hi bits) := by
  obtain ⟨a, b, rfl, rfl, hab⟩ := h
  unfold uintToFloat
  dsimp only
  rw [Value.fin_sub, Value.le_fin, decide_eq_false (sub_pos.mpr hab).not_ge, ← Value.fin_sub]
  rfl

/-- **A reply reads the same on both sides.** -/
theorem decodeMitReply_eq {l : DmLimits} {limits : DmMotorLimits} (hl : limits = l.get) (henc : l.Encodable)
    (data : List UInt8) : decodeMitReply data limits = some ((decodeMit data l).map MitReply.state) := by
  subst hl
  unfold decodeMitReply decodeMit
  split
  · have hp := @uintToFloat_eq_u2f _ _ 16 (henc .position)
    have hv := @uintToFloat_eq_u2f _ _ 12 (henc .velocity)
    have ht := @uintToFloat_eq_u2f _ _ 12 (henc .torque)
    dsimp only [Field.range] at hp hv ht
    dsimp only
    rw [hp, hv, ht]
    rfl
  · rfl

/-- the code of a value decodes to at most one step below the clipped value, and never above it -/
def Quantised (lo hi : Value) (bits : ℕ) : Prop :=
  ∀ v, v ≠ .nan → ∃ lo' hi' c x : ℚ, ∃ code : ℕ, lo = .fin lo' ∧ hi = .fin hi' ∧ clip v lo hi = .fin c ∧
    f2u v lo hi bits = some code ∧ u2f code lo hi bits = .fin x ∧ x ≤ c ∧ c ≤ x + (hi' - lo') / levels bits

theorem quantised_of_encodes (h : Encodes lo hi) (hbits : 0 < bits) (hle : bits ≤ 16) : Quantised lo hi bits := by
  obtain ⟨a, b, rfl, rfl, hab⟩ := h
  intro v hv
  obtain ⟨c, x, code, hc, hcode, -, -, hx, hle', hstep⟩ := f2u_of_clip hbits hle hab hv
  exact ⟨a, b, c, x, code, rfl, rfl, hc, hcode, hx, hle', hstep⟩

end ArmControl.Plants.Dm
