import ArmControl.Plants.DmSpec

/-!
# The native MIT limiter of the DM backend (`backend_dm.cpp`)

A command is packed as it stands.  Only if the torque that the MOTOR will compute from the packed fields breaks the cap or the slew is
the feedforward code replaced; the other four codes never are.

* `BusMotor`                       a motor with its cap and its latest feedback;
* `Codes`, `codes`                 the five codes of a frame, as the motor reads them;
* `pdTorque`, `totalTorque`        the torque that the motor computes from the codes;
* `BusMotor.floor`, `ceiling`      the interval that the total must lie in;
* `packNativeMit`                  `pack_native_mit`, `none` where a cast is undefined;
* `codes_packMit`, `codes_withFf`  the codes of a packed frame, and of one whose feedforward is replaced;
* `no_code`                        three candidates suffice;
* `packNativeMit_spec`             **the limiter is sound and complete.**
-/

namespace ArmControl.Plants.Dm

/-- a motor of the backend; `tauCap` is zero where no cap is configured -/
structure BusMotor extends Motor where
  tauCap : Value := .fin 0
  q : Value := .fin 0
  dq : Value := .fin 0
  tau : Value := .fin 0
  lastRxNs : ℕ := 0
  seen : Bool := false

/-- the five codes of a frame -/
@[ext] structure Codes where
  p : ℕ
  v : ℕ
  kp : ℕ
  kd : ℕ
  ff : ℕ
  deriving DecidableEq

/-- the codes, as they are read back out of the eight bytes -/
def codes (out : List ℕ) : Codes where
  p := (out.getD 0 0 <<< 8) ||| out.getD 1 0
  v := (out.getD 2 0 <<< 4) ||| (out.getD 3 0 >>> 4)
  kp := ((out.getD 3 0 &&& 15) <<< 8) ||| out.getD 4 0
  kd := (out.getD 5 0 <<< 4) ||| (out.getD 6 0 >>> 4)
  ff := ((out.getD 6 0 &&& 15) <<< 8) ||| out.getD 7 0

/-- the PD part of the torque that the motor computes from the codes -/
def pdTorque (m : BusMotor) (k : Codes) : Value :=
  u2f k.kp m.lim.kpLo m.lim.kpHi 12 * (u2f k.p m.lim.pLo m.lim.pHi 16 - m.q) +
    u2f k.kd m.lim.kdLo m.lim.kdHi 12 * (u2f k.v m.lim.vLo m.lim.vHi 12 - m.dq)

/-- the total torque -/
def totalTorque (m : BusMotor) (k : Codes) : Value := pdTorque m k + u2f k.ff m.lim.tLo m.lim.tHi 12

/-- `std::clamp` -/
def stdClamp (v lo hi : Value) : Value := if v.lt lo then lo else if hi.lt v then hi else v

def BusMotor.cap (m : BusMotor) : Value := if m.tauCap.eq (.fin 0) then m.lim.tHi else m.tauCap

/-- `lo` and `hi`: what the cap and the slew leave of the torque -/
def BusMotor.floor (m : BusMotor) (previous slew : Value) : Value := stdClamp (previous - slew) (-m.cap) m.cap
def BusMotor.ceiling (m : BusMotor) (previous slew : Value) : Value := stdClamp (previous + slew) (-m.cap) m.cap

/-- the lifecycle words of a motor -/
def reservedMitControl (frame : List ℕ) : Bool := (frame.take 7).all (· == 0xff) && decide (0xfb ≤ frame.getD 7 0)

def wireRangeError : String := "native MIT field nonfinite/out of wire range (q, qd, kp, kd, ff)"
def finiteError : String := "native MIT requires finite feedback, reference and positive slew"
def overflowError : String := "native MIT torque overflow"
def reservedError : String := "native MIT overlaps reserved control word"
def noCodeError : String := "no native MIT feedforward code satisfies total torque/slew limit"

def inWireRange (v lo hi : Value) : Bool := v.isFinite && !v.lt lo && !hi.lt v

/-- all five fields are on the wire's ranges -/
def Command.inWireRange (c : Command) (l : DmLimits) : Bool :=
  Dm.inWireRange c.position l.pLo l.pHi && Dm.inWireRange c.velocity l.vLo l.vHi && Dm.inWireRange c.kp l.kpLo l.kpHi &&
    Dm.inWireRange c.kd l.kdLo l.kdHi && Dm.inWireRange c.torque l.tLo l.tHi

/-- the feedforward code of a frame is replaced -/
def withFf (out : List ℕ) (candidate : ℕ) : List ℕ :=
  (out.set 6 (uint8 ((out.getD 6 0 &&& 0xf0) ||| (candidate >>> 8)))).set 7 (uint8 (candidate &&& 0xff))

/-- a frame that is a lifecycle word is refused -/
def unlessReserved (out : List ℕ) (torque : Value) : Except String (List ℕ × Value) :=
  if reservedMitControl out then .error reservedError else .ok (out, torque)

/-- the first candidate whose total lies in the interval -/
def firstCode (total : ℕ → Value) (lo hi : Value) : List ℤ → Option ℕ
  | [] => none
  | candidate :: rest =>
    if candidate < 0 ∨ 4095 < candidate then firstCode total lo hi rest
    else if (total candidate.toNat).lt lo || hi.lt (total candidate.toNat) then firstCode total lo hi rest
    else some candidate.toNat

/-- the limiter, once the frame is packed -/
def limitTorque (m : BusMotor) (out : List ℕ) (previous slew : Value) : Option (Except String (List ℕ × Value)) :=
  let pd := pdTorque m (codes out)
  let predicted := totalTorque m (codes out)
  let lo := m.floor previous slew
  let hi := m.ceiling previous slew
  if !pd.isFinite || !predicted.isFinite then some (.error overflowError)
  else if lo.le predicted && predicted.le hi then some (unlessReserved out predicted)
  else do
    -- the total is moved into the interval: clamping the feedforward alone would let the PD part exceed the cap
    let target := stdClamp predicted lo hi - pd
    let code ← f2u target m.lim.tLo m.lim.tHi 12
    let total := fun candidate => pd + u2f candidate m.lim.tLo m.lim.tHi 12
    match firstCode total lo hi [(code : ℤ), (code : ℤ) + 1, (code : ℤ) - 1] with
    | none => some (.error noCodeError)
    | some candidate => some (unlessReserved (withFf out candidate) (total candidate))

/-- `pack_native_mit`: the frame and the predicted torque, or the error -/
def packNativeMit (m : BusMotor) (c : Command) (previous slew : Value) : Option (Except String (List ℕ × Value)) :=
  if !c.inWireRange m.lim then some (.error wireRangeError)
  else if !(m.q.isFinite && m.dq.isFinite && previous.isFinite && slew.isFinite) || slew.le (.fin 0) then some (.error finiteError)
  else do
    let out ← packMit c m.lim
    limitTorque m out previous slew

/-! ## the codes of a frame -/

theorem join {a b k : ℕ} (h : b < 2 ^ k) : (a <<< k) ||| b = a * 2 ^ k + b := by
  rw [← Nat.shiftLeft_add_eq_or_of_lt h, Nat.shiftLeft_eq]

theorem and_ff (n : ℕ) : n &&& 0xFF = n % 256 := Nat.and_two_pow_sub_one_eq_mod n 8
theorem and_f (n : ℕ) : n &&& 0x0F = n % 16 := Nat.and_two_pow_sub_one_eq_mod n 4

/-- a byte of two nibbles -/
theorem nibbles (d t : ℕ) : uint8 (((d &&& 0x0F) <<< 4) ||| ((t >>> 8) &&& 0x0F)) = d % 16 * 16 + t / 256 % 16 := by
  rw [uint8_nibbles, and_f, and_f, Nat.shiftRight_eq_div_pow, join (by omega)]
  rfl

/-- the codes of the bytes that `pack_mit` writes are the codes that it packs -/
theorem codes_bytes {p v s d t : ℕ} (hp : p < 2 ^ 16) (hv : v < 2 ^ 12) (hs : s < 2 ^ 12) (hd : d < 2 ^ 12) (ht : t < 2 ^ 12) :
    codes [uint8 ((p >>> 8) &&& 0xFF), uint8 (p &&& 0xFF), uint8 ((v >>> 4) &&& 0xFF),
      uint8 (((v &&& 0x0F) <<< 4) ||| ((s >>> 8) &&& 0x0F)), uint8 (s &&& 0xFF), uint8 ((d >>> 4) &&& 0xFF),
      uint8 (((d &&& 0x0F) <<< 4) ||| ((t >>> 8) &&& 0x0F)), uint8 (t &&& 0xFF)] = ⟨p, v, s, d, t⟩ := by
  simp only [nibbles, uint8_and]
  unfold codes
  simp only [List.getD_cons_zero, List.getD_cons_succ, and_ff, and_f, Nat.shiftRight_eq_div_pow]
  ext
  · show (p / 2 ^ 8 % 256) <<< 8 ||| p % 256 = p
    rw [join (by omega)]
    omega
  · show (v / 2 ^ 4 % 256) <<< 4 ||| (v % 16 * 16 + s / 256 % 16) / 2 ^ 4 = v
    rw [join (by omega)]
    omega
  · show ((v % 16 * 16 + s / 256 % 16) % 16) <<< 8 ||| s % 256 = s
    rw [join (by omega)]
    omega
  · show (d / 2 ^ 4 % 256) <<< 4 ||| (d % 16 * 16 + t / 256 % 16) / 2 ^ 4 = d
    rw [join (by omega)]
    omega
  · show ((d % 16 * 16 + t / 256 % 16) % 16) <<< 8 ||| t % 256 = t
    rw [join (by omega)]
    omega

/-- the high nibble stays -/
theorem and_f0 {o : ℕ} (h : o < 256) : o &&& 0xf0 = o / 16 * 16 := by
  have hall : ∀ o < 256, o &&& 0xf0 = o / 16 * 16 := by decide +kernel
  exact hall o h

/-- **Replacing the feedforward code leaves the other four.** -/
theorem codes_withFf {o0 o1 o2 o3 o4 o5 o6 o7 k : ℕ} (h6 : o6 < 256) (hk : k < 2 ^ 12) :
    codes (withFf [o0, o1, o2, o3, o4, o5, o6, o7] k) = { codes [o0, o1, o2, o3, o4, o5, o6, o7] with ff := k } := by
  have hbyte : uint8 ((o6 &&& 0xf0) ||| (k >>> 8)) = o6 / 16 * 16 + k / 256 := by
    have hor : o6 / 16 * 16 ||| k / 256 = o6 / 16 * 16 + k / 256 := by
      have := @join (o6 / 16) (k / 256) 4 (by omega)
      rwa [Nat.shiftLeft_eq] at this
    rw [and_f0 h6, Nat.shiftRight_eq_div_pow, hor]
    exact Nat.mod_eq_of_lt (by omega)
  have hframe : withFf [o0, o1, o2, o3, o4, o5, o6, o7] k = [o0, o1, o2, o3, o4, o5, o6 / 16 * 16 + k / 256, k % 256] := by
    show [o0, o1, o2, o3, o4, o5, uint8 ((o6 &&& 0xf0) ||| (k >>> 8)), uint8 (k &&& 0xff)] = _
    rw [hbyte, uint8_and, and_ff]
  rw [hframe]
  unfold codes
  simp only [List.getD_cons_zero, List.getD_cons_succ, and_f, Nat.shiftRight_eq_div_pow]
  ext
  · rfl
  · rfl
  · rfl
  · show o5 <<< 4 ||| (o6 / 16 * 16 + k / 256) / 2 ^ 4 = o5 <<< 4 ||| o6 / 2 ^ 4
    congr 1
    omega
  · show ((o6 / 16 * 16 + k / 256) % 16) <<< 8 ||| k % 256 = k
    rw [join (by omega)]
    omega

/-! ## the candidates -/

variable {total : ℕ → Value} {lo hi : Value}

theorem firstCode_some {l : List ℤ} {k : ℕ} (h : firstCode total lo hi l = some k) :
    k ≤ 4095 ∧ (total k).lt lo = false ∧ hi.lt (total k) = false := by
  induction l with
  | nil => cases h
  | cons candidate l ih =>
    unfold firstCode at h
    split_ifs at h with hrange hout
    · exact ih h
    · exact ih h
    · obtain rfl := Option.some.inj h
      rw [Bool.or_eq_true, not_or, Bool.not_eq_true, Bool.not_eq_true] at hout
      exact ⟨by omega, hout⟩

theorem firstCode_none {l : List ℤ} (h : firstCode total lo hi l = none) {k : ℕ} (hk : (k : ℤ) ∈ l) (hle : k ≤ 4095) :
    (total k).lt lo = true ∨ hi.lt (total k) = true := by
  induction l with
  | nil => exact absurd hk List.not_mem_nil
  | cons candidate l ih =>
    unfold firstCode at h
    split_ifs at h with hrange hout
    · rcases List.mem_cons.mp hk with rfl | hk
      · omega
      · exact ih h hk
    · rcases List.mem_cons.mp hk with rfl | hk
      · exact Bool.or_eq_true_iff.mp hout
      · exact ih h hk

/-- the value that a torque code decodes to, on the total -/
def ramp (pd a b : ℚ) (k : ℕ) : ℚ := pd + (k * (b - a) / 4095 + a)

theorem ramp_lt {pd a b : ℚ} (hab : a < b) {j k : ℕ} (h : j < k) : ramp pd a b j < ramp pd a b k := by
  have hspan : 0 < b - a := sub_pos.mpr hab
  have hcast : (j : ℚ) < k := by exact_mod_cast h
  unfold ramp
  gcongr

theorem ramp_bounds {pd a b : ℚ} (hab : a < b) {k : ℕ} (hk : k ≤ 4095) : pd + a ≤ ramp pd a b k ∧ ramp pd a b k ≤ pd + b := by
  have hspan : 0 < b - a := sub_pos.mpr hab
  have hcast : (k : ℚ) ≤ 4095 := by exact_mod_cast hk
  have hlow : 0 ≤ (k : ℚ) * (b - a) / 4095 := by positivity
  have hhigh : (k : ℚ) * (b - a) / 4095 ≤ b - a := by
    rw [div_le_iff₀ (by norm_num), mul_comm]
    exact mul_le_mul_of_nonneg_left hcast hspan.le
  unfold ramp
  constructor <;> linarith

/-- the part of `total` that stays in the interval: `lo` for a total below it, `hi` for one above -/
def goal (total lo hi : ℚ) : ℚ := if total < lo then lo else hi

/-- **Three candidates suffice**: if the code of the target and its two neighbours miss the interval, every code does. -/
theorem no_code {pd a b lo hi : ℚ} (hab : a < b) (hle : lo ≤ hi) {own code : ℕ} (hown : own ≤ 4095)
    (hmiss : ramp pd a b own < lo ∨ hi < ramp pd a b own)
    (hcode : (code : ℚ) * (b - a) / 4095 + a ≤ min (max (goal (ramp pd a b own) lo hi - pd) a) b)
    (hstep : min (max (goal (ramp pd a b own) lo hi - pd) a) b ≤ ((code + 1 : ℕ) : ℚ) * (b - a) / 4095 + a)
    (hsame : ramp pd a b code < lo ∨ hi < ramp pd a b code)
    (hnext : code + 1 ≤ 4095 → ramp pd a b (code + 1) < lo ∨ hi < ramp pd a b (code + 1)) {k : ℕ} (hk : k ≤ 4095) :
    ramp pd a b k < lo ∨ hi < ramp pd a b k := by
  obtain ⟨hown0, hown1⟩ := @ramp_bounds pd a b hab own hown
  obtain ⟨hk0, hk1⟩ := @ramp_bounds pd a b hab k hk
  have hbelow : ramp pd a b code = pd + ((code : ℚ) * (b - a) / 4095 + a) := rfl
  have habove : ramp pd a b (code + 1) = pd + (((code + 1 : ℕ) : ℚ) * (b - a) / 4095 + a) := rfl
  rcases hmiss with hlow | hhigh
  · -- the total is below the interval: the target is `lo`, and above the least code
    rw [show goal (ramp pd a b own) lo hi = lo from if_pos hlow, max_eq_left (by linarith)] at hcode hstep
    rcases le_or_gt (lo - pd) b with hb | hb
    · rw [min_eq_left hb] at hcode hstep
      rcases lt_trichotomy k code with hlt | rfl | hgt
      · exact .inl ((ramp_lt hab hlt).trans_le (by linarith))
      · exact hsame
      · have hbig : hi < ramp pd a b (code + 1) := by
          rcases hnext (le_trans hgt hk) with h | h
          · linarith
          · exact h
        rcases eq_or_lt_of_le (Nat.succ_le_of_lt hgt) with rfl | hgt
        · exact .inr hbig
        · exact .inr (hbig.trans (ramp_lt hab hgt))
    · exact .inl (by linarith)
  · -- the total is above: the target is `hi`, and below the largest code
    rw [show goal (ramp pd a b own) lo hi = hi from if_neg (by linarith)] at hcode hstep
    rcases le_or_gt a (hi - pd) with ha | ha
    · rw [max_eq_left ha, min_eq_left (by linarith)] at hcode hstep
      have hsmall : ramp pd a b code < lo := by
        rcases hsame with h | h
        · exact h
        · linarith
      rcases lt_trichotomy k code with hlt | rfl | hgt
      · exact .inl ((ramp_lt hab hlt).trans hsmall)
      · exact .inl hsmall
      · rcases eq_or_lt_of_le (Nat.succ_le_of_lt hgt) with rfl | hgt
        · exact hnext hk
        · have hmore : ramp pd a b (code + 1) < ramp pd a b k := ramp_lt hab hgt
          exact .inr (by linarith)
    · exact .inr (by linarith)

/-! ## the limiter -/

theorem u2f_fin (k : ℕ) (a b : ℚ) {bits : ℕ} (hbits : 0 < bits) :
    u2f k (.fin a) (.fin b) bits = .fin (k * (b - a) / levels bits + a) := by
  unfold u2f
  rw [Value.fin_sub, Value.fin_mul, Value.fin_div _ (levels_pos hbits).ne', Value.fin_add]

/-- the PD part is a number on limits that can be encoded -/
theorem pdTorque_fin {m : BusMotor} (henc : m.lim.Encodable) {q dq : ℚ} (hq : m.q = .fin q) (hdq : m.dq = .fin dq) (k : Codes) :
    ∃ x, pdTorque m k = .fin x := by
  obtain ⟨a, b, ha, hb, -⟩ := henc .position
  obtain ⟨a', b', ha', hb', -⟩ := henc .velocity
  obtain ⟨s, s', hs, hs', -⟩ := henc .kp
  obtain ⟨d, d', hd, hd', -⟩ := henc .kd
  dsimp only [Field.range, DmLimits.get] at ha hb ha' hb' hs hs' hd hd'
  unfold pdTorque
  rw [ha, hb, ha', hb', hs, hs', hd, hd', hq, hdq, u2f_fin _ _ _ (by norm_num), u2f_fin _ _ _ (by norm_num),
    u2f_fin _ _ _ (by norm_num), u2f_fin _ _ _ (by norm_num), Value.fin_sub, Value.fin_sub, Value.fin_mul, Value.fin_mul,
    Value.fin_add]
  exact ⟨_, rfl⟩

theorem stdClamp_fin (v lo hi : ℚ) : stdClamp (.fin v) (.fin lo) (.fin hi) = .fin (if v < lo then lo else if hi < v then hi else v) := by
  unfold stdClamp
  rw [Value.lt_fin, Value.lt_fin]
  by_cases h : v < lo
  · rw [decide_eq_true h, if_pos rfl, if_pos h]
  · rw [decide_eq_false h, if_neg (by decide), if_neg h]
    by_cases h' : hi < v
    · rw [decide_eq_true h', if_pos rfl, if_pos h']
    · rw [decide_eq_false h', if_neg (by decide), if_neg h']

/-- the interval is one, and it lies within the cap -/
theorem interval_fin {m : BusMotor} {cap slew : ℚ} (previous : ℚ) (hcap : m.cap = .fin cap) (hpos : 0 < cap) (hslew : 0 < slew) :
    ∃ lo hi : ℚ, m.floor (.fin previous) (.fin slew) = .fin lo ∧ m.ceiling (.fin previous) (.fin slew) = .fin hi ∧
      lo ≤ hi ∧ -cap ≤ lo ∧ hi ≤ cap := by
  unfold BusMotor.floor BusMotor.ceiling
  rw [hcap, Value.fin_neg, Value.fin_sub, Value.fin_add, stdClamp_fin, stdClamp_fin]
  refine ⟨_, _, rfl, rfl, ?_, ?_, ?_⟩ <;> split_ifs <;> linarith

/-- what a frame must be: only the feedforward code is changed, and only where the packed one breaks the interval -/
structure Admissible (m : BusMotor) (c : Command) (previous slew : Value) (out : List ℕ) (torque : Value) : Prop where
  packed : ∃ own, packMit c m.lim = some own ∧ codes out = { codes own with ff := (codes out).ff } ∧
    ((m.floor previous slew).le (totalTorque m (codes own)) = true →
      (totalTorque m (codes own)).le (m.ceiling previous slew) = true → (codes out).ff = (codes own).ff)
  reported : torque = totalTorque m (codes out)
  above : (m.floor previous slew).le torque = true
  below : torque.le (m.ceiling previous slew) = true
  capped : (-m.cap).le torque = true ∧ torque.le m.cap = true
  lifeless : reservedMitControl out = false

section
variable {m : BusMotor} {c : Command} {previous slew : Value}

/-- the total of a frame whose feedforward code is `k` is `ramp` of its PD part -/
theorem total_ramp {a b pd : ℚ} (hlo : m.lim.tLo = .fin a) (hhi : m.lim.tHi = .fin b) {own : Codes} (hpd : pdTorque m own = .fin pd) (k : ℕ) :
    pdTorque m own + u2f k m.lim.tLo m.lim.tHi 12 = .fin (ramp pd a b k) := by
  rw [hpd, hlo, hhi, u2f_fin k a b (by norm_num), Value.fin_add]
  rfl

/-- no feedforward code puts the total of a frame into the interval -/
def Hopeless (m : BusMotor) (own : Codes) (previous slew : Value) : Prop :=
  ∀ k ≤ 4095, ¬ ((m.floor previous slew).le (totalTorque m { own with ff := k }) = true ∧
    (totalTorque m { own with ff := k }).le (m.ceiling previous slew) = true)

theorem unlessReserved_ok {out out' : List ℕ} {torque torque' : Value} (h : unlessReserved out torque = .ok (out', torque')) :
    out' = out ∧ torque' = torque ∧ reservedMitControl out = false := by
  unfold unlessReserved at h
  split_ifs at h with hr
  obtain ⟨rfl, rfl⟩ := Prod.mk.inj (Except.ok.inj h)
  exact ⟨rfl, rfl, Bool.not_eq_true _ ▸ hr⟩

theorem unlessReserved_error {out : List ℕ} {torque : Value} : unlessReserved out torque ≠ .error noCodeError := by
  unfold unlessReserved
  split_ifs
  · intro h
    exact absurd (Except.error.inj h) (by decide)
  · intro h
    cases h

/-- the limiter on a packed frame -/
theorem limitTorque_spec (henc : m.lim.Encodable) {cap previous slew q dq : ℚ} (hcap : m.cap = .fin cap) (hpos : 0 < cap)
    (hslew : 0 < slew) (hq : m.q = .fin q) (hdq : m.dq = .fin dq) {out : List ℕ} (hpack : packMit c m.lim = some out)
    (hff : (codes out).ff ≤ 4095) (hwith : ∀ k < 2 ^ 12, codes (withFf out k) = { codes out with ff := k }) :
    ∃ r, limitTorque m out (.fin previous) (.fin slew) = some r ∧
      (∀ out' torque, r = .ok (out', torque) → Admissible m c (.fin previous) (.fin slew) out' torque) ∧
      (r = .error noCodeError → Hopeless m (codes out) (.fin previous) (.fin slew)) := by
  obtain ⟨a, b, hta, htb, hab⟩ := henc .torque
  change m.lim.tLo = .fin a at hta
  change m.lim.tHi = .fin b at htb
  obtain ⟨pd, hpd⟩ := pdTorque_fin henc hq hdq (codes out)
  obtain ⟨lo, hi, hlo, hhi, hle, hcap0, hcap1⟩ := interval_fin previous hcap hpos hslew
  have htotal := total_ramp hta htb hpd
  have hown : totalTorque m (codes out) = .fin (ramp pd a b (codes out).ff) := htotal _
  -- the frame is admissible wherever its total lies in the interval
  have hgood : ∀ out' k, codes out' = { codes out with ff := k } → lo ≤ ramp pd a b k → ramp pd a b k ≤ hi →
      reservedMitControl out' = false → (lo ≤ ramp pd a b (codes out).ff → ramp pd a b (codes out).ff ≤ hi → k = (codes out).ff) →
      Admissible m c (.fin previous) (.fin slew) out' (.fin (ramp pd a b k)) := by
    intro out' k hcodes hk0 hk1 hres hkeep
    refine ⟨⟨out, hpack, by rw [hcodes], ?_⟩, ?_, ?_, ?_, ⟨?_, ?_⟩, hres⟩
    · rw [hlo, hhi, hown, Value.le_fin, Value.le_fin, decide_eq_true_eq, decide_eq_true_eq, hcodes]
      exact hkeep
    · rw [hcodes]
      exact (htotal k).symm
    · rw [hlo, Value.le_fin, decide_eq_true_eq]
      exact hk0
    · rw [hhi, Value.le_fin, decide_eq_true_eq]
      exact hk1
    · rw [hcap, Value.fin_neg, Value.le_fin, decide_eq_true_eq]
      exact hcap0.trans hk0
    · rw [hcap, Value.le_fin, decide_eq_true_eq]
      exact hk1.trans hcap1
  unfold limitTorque
  dsimp only
  have hfinite : (!(Value.fin pd).isFinite || !(Value.fin (ramp pd a b (codes out).ff)).isFinite) = false := rfl
  rw [hpd, hown, hlo, hhi, hfinite, if_neg Bool.false_ne_true, Value.le_fin, Value.le_fin]
  by_cases hin : lo ≤ ramp pd a b (codes out).ff ∧ ramp pd a b (codes out).ff ≤ hi
  · rw [if_pos (Bool.and_eq_true_iff.mpr ⟨decide_eq_true hin.1, decide_eq_true hin.2⟩)]
    refine ⟨_, rfl, ?_, fun h => absurd h unlessReserved_error⟩
    intro out' torque hr
    obtain ⟨hout, htorque, hres⟩ := unlessReserved_ok hr
    rw [hout, htorque]
    exact hgood out _ rfl hin.1 hin.2 hres fun _ _ => rfl
  · have hmiss : ramp pd a b (codes out).ff < lo ∨ hi < ramp pd a b (codes out).ff := by
      rcases lt_or_ge (ramp pd a b (codes out).ff) lo with h | h
      · exact .inl h
      · exact .inr (lt_of_not_ge fun h' => hin ⟨h, h'⟩)
    have hgoal : stdClamp (.fin (ramp pd a b (codes out).ff)) (.fin lo) (.fin hi) = .fin (goal (ramp pd a b (codes out).ff) lo hi) := by
      rw [stdClamp_fin]
      unfold goal
      rcases hmiss with h | h
      · rw [if_pos h, if_pos h]
      · have hnot : ¬ ramp pd a b (codes out).ff < lo := not_lt.mpr (hle.trans h.le)
        rw [if_neg hnot, if_pos h, if_neg hnot]
    rw [if_neg fun h => hin ((Bool.and_eq_true_iff.mp h).imp of_decide_eq_true of_decide_eq_true), hgoal, Value.fin_sub, hta, htb]
    obtain ⟨x, y, code, hx, hcode, -, hsmall, hy, hyx, hxy⟩ :=
      f2u_of_clip (v := .fin (goal (ramp pd a b (codes out).ff) lo hi - pd)) (by norm_num : 0 < 12) (by norm_num) hab
        Value.noConfusion
    rw [clampTo_eq] at hx
    rw [u2f_fin code a b (by norm_num)] at hy
    obtain rfl := Value.fin.inj hx
    obtain rfl := Value.fin.inj hy
    rw [hcode]
    show ∃ r, (match firstCode (fun candidate => .fin pd + u2f candidate (.fin a) (.fin b) 12) (.fin lo) (.fin hi)
      [(code : ℤ), (code : ℤ) + 1, (code : ℤ) - 1] with
      | none => some (.error noCodeError)
      | some candidate => some (unlessReserved (withFf out candidate) (.fin pd + u2f candidate (.fin a) (.fin b) 12))) = some r ∧ _
    rw [show (fun candidate => Value.fin pd + u2f candidate (.fin a) (.fin b) 12) = fun candidate => .fin (ramp pd a b candidate) from
      funext fun k => by rw [← hpd, ← hta, ← htb]; exact htotal k]
    cases hfirst : firstCode (fun candidate => .fin (ramp pd a b candidate)) (.fin lo) (.fin hi) [(code : ℤ), (code : ℤ) + 1, (code : ℤ) - 1] with
    | none =>
      have hfail : ∀ k : ℕ, (k : ℤ) ∈ [(code : ℤ), (code : ℤ) + 1, (code : ℤ) - 1] → k ≤ 4095 →
          ramp pd a b k < lo ∨ hi < ramp pd a b k := fun k hk hk' => by
        have := firstCode_none hfirst hk hk'
        rwa [Value.lt_fin, Value.lt_fin, decide_eq_true_eq, decide_eq_true_eq] at this
      refine ⟨_, rfl, fun _ _ h => (by cases h), fun _ k hk => ?_⟩
      show ¬ ((m.floor (.fin previous) (.fin slew)).le (pdTorque m (codes out) + u2f k m.lim.tLo m.lim.tHi 12) = true ∧ 
        (pdTorque m (codes out) + u2f k m.lim.tLo m.lim.tHi 12).le (m.ceiling (.fin previous) (.fin slew)) = true)
      rw [htotal, hlo, hhi, Value.le_fin, Value.le_fin, decide_eq_true_eq, decide_eq_true_eq]
      have hlev : ((levels 12 : ℕ) : ℚ) = 4095 := by norm_num [levels]
      rw [hlev] at hyx hxy
      have hup : ((code + 1 : ℕ) : ℚ) * (b - a) / 4095 + a = (code : ℚ) * (b - a) / 4095 + a + (b - a) / 4095 := by
        push_cast
        ring
      have hall := no_code hab hle hff hmiss hyx (hup ▸ hxy) (hfail code (by simp) hsmall)
        (fun hnext => hfail (code + 1) (by simp) hnext) hk
      rcases hall with h | h
      · exact fun hc => absurd hc.1 (not_le.mpr h)
      · exact fun hc => absurd hc.2 (not_le.mpr h)
    | some k =>
      obtain ⟨hk, hk0, hk1⟩ := firstCode_some hfirst
      rw [Value.lt_fin, decide_eq_false_iff_not, not_lt] at hk0 hk1
      refine ⟨_, rfl, ?_, fun h => absurd h unlessReserved_error⟩
      intro out' torque hr
      obtain ⟨hout, hreport, hres⟩ := unlessReserved_ok hr
      have htorque : Value.fin pd + u2f k (.fin a) (.fin b) 12 = .fin (ramp pd a b k) := by
        rw [← hpd, ← hta, ← htb]
        exact htotal k
      rw [hout, hreport, htorque]
      exact hgood _ k (hwith k (by omega)) hk0 hk1 hres fun h h' => absurd ⟨h, h'⟩ hin

/-- a field that passed its check is packed into a code of its width -/
theorem packed_field {v lo hi : Value} {bits : ℕ} (h : Encodes lo hi) (hbits : 0 < bits) (hle : bits ≤ 16) (hv : inWireRange v lo hi = true) :
    ∃ code, f2u v lo hi bits = some code ∧ code < 2 ^ bits := by
  obtain ⟨a, b, rfl, rfl, hab⟩ := h
  have hnan : v ≠ .nan := by
    rintro rfl
    exact Bool.noConfusion hv
  obtain ⟨c, x, code, -, hcode, -, hsmall, -⟩ := f2u_of_clip hbits hle hab hnan
  refine ⟨code, hcode, ?_⟩
  have : 1 ≤ 2 ^ bits := Nat.one_le_two_pow
  unfold levels at hsmall
  omega

/-- **A command on the wire's ranges is packed**, and its feedforward code can be replaced on its own. -/
theorem packMit_codes (henc : m.lim.Encodable) (h : c.inWireRange m.lim = true) :
    ∃ out, packMit c m.lim = some out ∧ (codes out).ff ≤ 4095 ∧ ∀ k < 2 ^ 12, codes (withFf out k) = { codes out with ff := k } := by
  unfold Command.inWireRange at h
  simp only [Bool.and_eq_true_iff] at h
  obtain ⟨⟨⟨⟨hp, hv⟩, hs⟩, hd⟩, ht⟩ := h
  obtain ⟨p, hp, hp'⟩ := packed_field (henc .position) (by norm_num : 0 < 16) (by norm_num) hp
  obtain ⟨v, hv, hv'⟩ := packed_field (henc .velocity) (by norm_num : 0 < 12) (by norm_num) hv
  obtain ⟨s, hs, hs'⟩ := packed_field (henc .kp) (by norm_num : 0 < 12) (by norm_num) hs
  obtain ⟨d, hd, hd'⟩ := packed_field (henc .kd) (by norm_num : 0 < 12) (by norm_num) hd
  obtain ⟨t, ht, ht'⟩ := packed_field (henc .torque) (by norm_num : 0 < 12) (by norm_num) ht
  dsimp only [Field.range, DmLimits.get] at hp hv hs hd ht
  refine ⟨[uint8 ((p >>> 8) &&& 0xFF), uint8 (p &&& 0xFF), uint8 ((v >>> 4) &&& 0xFF),
    uint8 (((v &&& 0x0F) <<< 4) ||| ((s >>> 8) &&& 0x0F)), uint8 (s &&& 0xFF), uint8 ((d >>> 4) &&& 0xFF),
    uint8 (((d &&& 0x0F) <<< 4) ||| ((t >>> 8) &&& 0x0F)), uint8 (t &&& 0xFF)], ?_, ?_, fun k hk => ?_⟩
  · unfold packMit
    rw [hp, hv, hs, hd, ht]
    rfl
  · rw [codes_bytes hp' hv' hs' hd' ht']
    show t ≤ 4095
    omega
  · exact codes_withFf (Nat.mod_lt _ (by norm_num)) hk

/-- **The native limiter is sound and complete**: it always comes to a result, a frame that it returns is admissible, and it gives up
only where no feedforward code would do. -/
theorem packNativeMit_spec (henc : m.lim.Encodable) {cap : ℚ} (hcap : m.cap = .fin cap) (hpos : 0 < cap) (c : Command) (previous slew : Value) :
    ∃ r, packNativeMit m c previous slew = some r ∧
      (∀ out torque, r = .ok (out, torque) → Admissible m c previous slew out torque) ∧
      (r = .error noCodeError → ∃ own, packMit c m.lim = some own ∧ Hopeless m (codes own) previous slew) := by
  unfold packNativeMit
  split_ifs with hwire hfinite
  · exact ⟨_, rfl, fun _ _ h => (by cases h), fun h => absurd (Except.error.inj h) (by decide)⟩
  · exact ⟨_, rfl, fun _ _ h => (by cases h), fun h => absurd (Except.error.inj h) (by decide)⟩
  · rw [Bool.not_eq_true, Bool.not_eq_false'] at hwire
    rw [Bool.or_eq_true, not_or, Bool.not_eq_true, Bool.not_eq_true, Bool.not_eq_false'] at hfinite
    simp only [Bool.and_eq_true_iff] at hfinite
    obtain ⟨⟨⟨⟨hq, hdq⟩, hprev⟩, hslew⟩, hlate⟩ := hfinite
    obtain ⟨q, hq⟩ := Value.isFinite_iff.mp hq
    obtain ⟨dq, hdq⟩ := Value.isFinite_iff.mp hdq
    obtain ⟨p, rfl⟩ := Value.isFinite_iff.mp hprev
    obtain ⟨s, rfl⟩ := Value.isFinite_iff.mp hslew
    rw [Value.le_fin, decide_eq_false_iff_not, not_le] at hlate
    obtain ⟨own, hpack, hff, hwith⟩ := packMit_codes henc hwire
    rw [hpack]
    obtain ⟨r, hr, hok, herr⟩ := limitTorque_spec henc hcap hpos hlate hq hdq hpack hff hwith
    exact ⟨r, hr, hok, fun h => ⟨own, rfl, herr h⟩⟩

end

/-- the motor of the server's self check, which asks it for more than its cap -/
def cappedMotor : BusMotor where
  id := 1
  mst := 0x11
  type := []
  lim := { lim4340 with vLo := .fin (-20), vHi := .fin 20 }
  tauCap := .fin 27

def greedyCommand : Command := ⟨.fin (1/2), .fin 0, .fin 50, .fin 0, .fin 10⟩

theorem cappedMotor_encodable : cappedMotor.lim.Encodable := by
  intro f
  cases f <;> exact ⟨_, _, rfl, rfl, by norm_num⟩

theorem packNativeMit_spec_capped : ∃ r, packNativeMit cappedMotor greedyCommand (.fin 0) (.fin 100) = some r ∧
    (∀ out torque, r = .ok (out, torque) → Admissible cappedMotor greedyCommand (.fin 0) (.fin 100) out torque) ∧
    (r = .error noCodeError → ∃ own, packMit greedyCommand cappedMotor.lim = some own ∧
      Hopeless cappedMotor (codes own) (.fin 0) (.fin 100)) :=
  packNativeMit_spec cappedMotor_encodable (by decide +kernel : cappedMotor.cap = .fin 27) (by norm_num) greedyCommand (.fin 0) (.fin 100)

end ArmControl.Plants.Dm
