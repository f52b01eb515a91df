import Mathlib.Logic.Function.Basic
import ArmControl.Plants.DmMit

/-!
# The motor list of the DM server

`_parse_motor_configs` and `dm_spec_from_config` (`plants/dm/backend.py`) make the `--dm-spec` text from a
hardware configuration; `parse_spec` (`rt/src/backend_dm.cpp`) reads it.  Texts are lists of characters.

* `Yaml`, `RobotConfig`                    a loaded configuration, by what the code reads of it;
* `DmMotorLimits.fromMapping`, `parseMotorConfigs`   the motors that it configures;
* `DmMotorLimits.override_stated`, `override_unstated`   a range is the one stated, or its type's;
* `Decimals`                               `format(x, ".17g")` and `strtod`;
* `dmSpecFromConfig`                       the text;
* `strtol`, `parseMotor`, `parseSpec`      the server's parser.
-/

namespace ArmControl.Plants.Dm

abbrev Text : Type := List Char

/-- the largest double, above which a result counts as infinite -/
def floatMax : ℚ := (2 - 1 / 2 ^ 52) * 2 ^ 1023

/-- `sys.float_info.min` -/
def floatMin : ℚ := 1 / 2 ^ 1022

/-- `isfinite` -/
def isfinite : Value → Bool
  | .fin q => decide (|q| ≤ floatMax)
  | _ => false

/-! ## the configuration -/

/-- a loaded configuration value, by what Python reads of it; `none` where the read raises -/
class Yaml (V : Type) where
  /-- `bool(v)` -/
  truthy : V → Bool
  /-- `v is None` -/
  isNone : V → Bool
  int : V → Option ℤ
  float : V → Option Value
  str : V → Text
  /-- the entries of a mapping, each key by its `str` -/
  items : V → Option (List (String × V))
  /-- `list(v)` -/
  elements : V → Option (List V)
  /-- `v[i]` -/
  index : V → ℕ → Option V

structure RobotConfig (V : Type) where
  numMotors : ℤ
  motorIds : List ℤ
  motorNames : List Text
  raw : List (String × V)

structure DmMotorConfig where
  name : Text
  canId : ℤ
  motorType : Text
  masterId : Option ℤ
  limits : DmMotorLimits

/-- what the functions raise: the `ValueError` of a wire range, or another exception -/
inductive Raised where
  | valueError (text : Text)
  | other
  deriving DecidableEq

def orRaise {α : Type} : Option α → Except Raised α
  | some a => .ok a
  | none => .error .other

def LimitKey.named : String → Option LimitKey
  | "position_min" => some .positionMin
  | "position_max" => some .positionMax
  | "velocity_min" => some .velocityMin
  | "velocity_max" => some .velocityMax
  | "kp_min" => some .kpMin
  | "kp_max" => some .kpMax
  | "kd_min" => some .kdMin
  | "kd_max" => some .kdMax
  | "torque_min" => some .torqueMin
  | "torque_max" => some .torqueMax
  | _ => none

def type4310 : Text := ['4', '3', '1', '0']
def type4310p : Text := ['4', '3', '1', '0', 'p']
def type4340 : Text := ['4', '3', '4', '0']
def type4340p : Text := ['4', '3', '4', '0', 'p']

def limits4310p : DmMotorLimits :=
  Function.update (Function.update dmMotorLimits .velocityMin (.fin (-50))) .velocityMax (.fin 50)

def limits4340 : DmMotorLimits :=
  Function.update (Function.update (Function.update (Function.update dmMotorLimits .velocityMin (.fin (-10)))
    .velocityMax (.fin 10)) .torqueMin (.fin (-28))) .torqueMax (.fin 28)

/-- `DEFAULT_LIMITS_BY_TYPE` -/
def defaultLimitsByType (type : Text) : Option DmMotorLimits :=
  if type = type4310 then some dmMotorLimits
  else if type = type4310p then some limits4310p
  else if type = type4340 then some limits4340
  else if type = type4340p then some limits4340
  else none

variable {V : Type} [Yaml V]

/-- `mapping.get(key)` -/
def lookup (mapping : List (String × V)) (key : String) : Option V := (mapping.find? (·.1 == key)).map Prod.snd

/-- `a or b or default`, as a text -/
def textOr (a b : Option V) (default : Text) : Text :=
  match a.filter Yaml.truthy <|> b.filter Yaml.truthy with
  | some v => Yaml.str v
  | none => default

/-- `cls(**(defaults.__dict__ | values))`: a key that is no field raises, a later one wins -/
def DmMotorLimits.override (l : DmMotorLimits) : List (String × Value) → Option DmMotorLimits
  | [] => some l
  | (key, x) :: rest =>
    match LimitKey.named key with
    | some k => DmMotorLimits.override (Function.update l k x) rest
    | none => none

/-- `DmMotorLimits.from_mapping` -/
def DmMotorLimits.fromMapping (raw : Option V) (motorType : Text) : Option DmMotorLimits :=
  let defaults := (defaultLimitsByType motorType).getD dmMotorLimits
  match raw.filter Yaml.truthy with
  | none => some defaults
  | some raw => do
    let items ← Yaml.items raw
    let values ← items.mapM fun e => (Yaml.float e.2).map (e.1, ·)
    DmMotorLimits.override defaults values

def decimal (n : ℕ) : Text := Nat.toDigits 10 n

/-- `_optional_int` -/
def optionalInt : Option V → Option (Option ℤ)
  | none => some none
  | some v => if Yaml.isNone v then some none else (Yaml.int v).map some

/-- one entry of the `motors` block -/
def motorConfig (index : ℕ) (item : List (String × V)) : Option DmMotorConfig := do
  let motorType := textOr (lookup item "motor_type") (lookup item "type") type4310
  let limits ← DmMotorLimits.fromMapping (lookup item "limits") motorType
  let canId ← match lookup item "can_id" <|> lookup item "id" with
    | some v => Yaml.int v
    | none => some (index + 1)
  let masterId ← optionalInt (lookup item "master_id")
  pure {
    name := textOr (lookup item "name") (lookup item "motor_name") ("motor_".toList ++ decimal index)
    canId := canId
    motorType := motorType
    masterId := masterId
    limits := limits
  }

/-- the motor that stands for an entry when there is no `motors` block: its name, its id and its type only -/
def plainMotor (cfg : RobotConfig V) (types : Option V) (i : ℕ) : Option DmMotorConfig := do
  let motorType ← match types with
    | some v => (Yaml.index v i).map fun t => textOr (some t) none type4310
    | none => some type4310
  let limits ← DmMotorLimits.fromMapping (none : Option V) motorType
  let default : Text := "motor_".toList ++ decimal i
  pure {
    name := match cfg.motorNames[i]? with
      | some name => if name = [] then default else name
      | none => default
    canId := (cfg.motorIds[i]?).getD (i + 1)
    motorType := motorType
    masterId := none
    limits := limits
  }

/-- `_parse_motor_configs`, `none` where it raises -/
def parseMotorConfigs (cfg : RobotConfig V) : Option (List DmMotorConfig) := do
  let entries ← match (lookup cfg.raw "motors").filter Yaml.truthy with
    | some v => Yaml.elements v
    | none => some []
  if entries.isEmpty then
    (List.range cfg.numMotors.toNat).mapM (plainMotor cfg ((lookup cfg.raw "motor_types").filter Yaml.truthy))
  else
    entries.zipIdx.mapM fun e => do
      let item ← Yaml.items e.1
      motorConfig e.2 item

/-! ## the text -/

/-- the printing and the reading of floating-point numbers -/
structure Decimals where
  /-- `format(x, ".17g")` -/
  print : Value → Text
  /-- `strtod`, where it reads the whole text and sets no error -/
  strtod : Text → Option Value

/-- the digits of `%X` -/
def hexUpper (n : ℕ) : Text := (Nat.toDigits 16 n).map Char.toUpper

/-- `format(n, "02X")`: the sign counts for the width -/
def hex02 (n : ℤ) : Text :=
  if n < 0 then '-' :: List.leftpad 1 '0' (hexUpper n.natAbs) else List.leftpad 2 '0' (hexUpper n.natAbs)

/-- the three axes that the text can carry -/
inductive Axis where
  | position
  | velocity
  | torque

def Axis.name : Axis → String
  | .position => "position"
  | .velocity => "velocity"
  | .torque => "torque"

def Axis.min : Axis → LimitKey
  | .position => .positionMin
  | .velocity => .velocityMin
  | .torque => .torqueMin

def Axis.max : Axis → LimitKey
  | .position => .positionMax
  | .velocity => .velocityMax
  | .torque => .torqueMax

def Axis.levels : Axis → ℕ
  | .position => 65535
  | .velocity => 4095
  | .torque => 4095

/-- the half-range of an axis, where the text can carry it -/
def wireRange (m : DmMotorConfig) (axis : Axis) : Except Raised Value :=
  let lo := m.limits axis.min
  let hi := m.limits axis.max
  if isfinite lo && isfinite hi && (Value.fin floatMin).le hi && lo.eq (-hi) &&
      isfinite (.fin 2 * hi * .fin axis.levels) then .ok hi
  else .error (.valueError ("motor ".toList ++ m.name ++ ": ".toList ++ axis.name.toList ++
    " wire range must be finite, positive, symmetric and encodable".toList))

/-- the ranges of the motor are not its type's -/
def overridden (defaults : DmMotorLimits) (p v t : Value) : Bool :=
  !p.eq (defaults .positionMax) || !v.eq (defaults .velocityMax) || !t.eq (defaults .torqueMax)

def motorItem (d : Decimals) (m : DmMotorConfig) : Except Raised Text := do
  let defaults ← orRaise (defaultLimitsByType m.motorType)
  let p ← wireRange m .position
  let v ← wireRange m .velocity
  let t ← wireRange m .torque
  let ranges := [d.print p, d.print v, d.print t]
  pure ("0x".toList ++ hex02 m.canId ++ ":".toList ++ m.motorType ++
    (if m.masterId.isSome || overridden defaults p v t then ":0x".toList ++ hex02 (m.masterId.getD 0) else []) ++
    (if overridden defaults p v t then ":".toList ++ ":".toList.intercalate ranges else []))

/-- the interface: the caller's, or the configuration's -/
def interfaceOf (cfg : RobotConfig V) : Option Text → Except Raised Text
  | some iface => .ok iface
  | none =>
    match lookup cfg.raw "bus" with
    | none => .ok "can0".toList
    | some bus => (orRaise (Yaml.items bus)).map fun items =>
      match lookup items "interface" with
      | some v => Yaml.str v
      | none => "can0".toList

/-- `dm_spec_from_config` -/
def dmSpecFromConfig (d : Decimals) (cfg : RobotConfig V) (iface : Option Text) : Except Raised Text := do
  let motors ← orRaise (parseMotorConfigs cfg)
  let iface ← interfaceOf cfg iface
  let parts ← motors.mapM (motorItem d)
  pure (iface ++ ";".toList ++ ",".toList.intercalate parts)

/-! ## the parser -/

structure Motor where
  id : ℤ
  mst : ℤ
  type : Text
  lim : DmLimits
  deriving DecidableEq

def lim4310 : DmLimits where
  pLo := .fin (-25 / 2)
  pHi := .fin (25 / 2)
  vLo := .fin (-30)
  vHi := .fin 30
  kpLo := .fin 0
  kpHi := .fin 500
  kdLo := .fin 0
  kdHi := .fin 5
  tLo := .fin (-10)
  tHi := .fin 10

def lim4310P : DmLimits where
  pLo := .fin (-25 / 2)
  pHi := .fin (25 / 2)
  vLo := .fin (-50)
  vHi := .fin 50
  kpLo := .fin 0
  kpHi := .fin 500
  kdLo := .fin 0
  kdHi := .fin 5
  tLo := .fin (-10)
  tHi := .fin 10

def lim4340 : DmLimits where
  pLo := .fin (-25 / 2)
  pHi := .fin (25 / 2)
  vLo := .fin (-10)
  vHi := .fin 10
  kpLo := .fin 0
  kpHi := .fin 500
  kdLo := .fin 0
  kdHi := .fin 5
  tLo := .fin (-28)
  tHi := .fin 28

def limitsFor (type : Text) : Option DmLimits :=
  if type = type4310 then some lim4310
  else if type = type4310p then some lim4310P
  else if type = type4340 ∨ type = type4340p then some lim4340
  else none

/-- `isspace` in the C locale -/
def isSpace (c : Char) : Bool := c == ' ' || (decide (9 ≤ c.toNat) && decide (c.toNat ≤ 13))

/-- the value of a digit or letter -/
def digitVal (c : Char) : Option ℕ :=
  let n := c.toNat
  if 48 ≤ n ∧ n ≤ 57 then some (n - 48)
  else if 97 ≤ n ∧ n ≤ 122 then some (n - 87)
  else if 65 ≤ n ∧ n ≤ 90 then some (n - 55)
  else none

def isDigit (base : ℕ) (c : Char) : Bool := (digitVal c).any (· < base)

def numeral (base : ℕ) (ds : Text) : ℕ := ds.foldl (fun n c => n * base + (digitVal c).getD 0) 0

/-- the digits that the text starts with, and what follows -/
def readDigits (base : ℕ) (t : Text) : ℕ × Text := (numeral base (t.takeWhile (isDigit base)), t.dropWhile (isDigit base))

/-- the number that the text starts with, its base from the prefix; `none` for no number -/
def readNumber : Text → Option (ℕ × Text)
  | '0' :: x :: h :: t =>
    if (x = 'x' ∨ x = 'X') ∧ isDigit 16 h then some (readDigits 16 (h :: t)) else some (readDigits 8 ('0' :: x :: h :: t))
  | c :: t => if isDigit 10 c then some (readDigits (if c = '0' then 8 else 10) (c :: t)) else none
  | [] => none

/-- `strtol(text, &end, 0)`: the number and the text from `end` on; `none` for no number -/
def strtol (text : Text) : Option (ℤ × Text) :=
  match text.dropWhile isSpace with
  | '-' :: t => (readNumber t).map fun r => (-(r.1 : ℤ), r.2)
  | '+' :: t => (readNumber t).map fun r => ((r.1 : ℤ), r.2)
  | t => (readNumber t).map fun r => ((r.1 : ℤ), r.2)

/-- `errno` stays zero for what a long holds -/
def inLong (n : ℤ) : Bool := decide (-2 ^ 63 ≤ n) && decide (n < 2 ^ 63)

/-- `parse_id` -/
def parseId (text : Text) (lo hi : ℤ) : Option ℤ :=
  match strtol text with
  | none => none
  | some (value, rest) =>
    if !inLong value || !rest.isEmpty || decide (value < lo) || decide (hi < value) then none else some value

/-- the half-range `i` of an entry -/
def halfRange (d : Decimals) (i : ℕ) (text : Text) : Option Value := do
  let r ← d.strtod text
  let span := .fin 2 * r
  let levels : ℚ := if i = 0 then 65535 else 4095
  if !isfinite r || r.lt (.fin floatMin) || !isfinite span || !isfinite (span * .fin levels) then none else some r

def orError {α : Type} (text : Text) : Option α → Except Text α
  | some a => .ok a
  | none => .error text

def parseMst (item : Text) (fields : List Text) : Except Text ℤ :=
  if 3 ≤ fields.length then
    orError ("master id must be 0..0x7ff: '".toList ++ item ++ "'".toList) (parseId (fields.getD 2 []) 0 0x7ff)
  else .ok 0

def parseRanges (d : Decimals) (item : Text) (fields : List Text) (lim : DmLimits) : Except Text DmLimits :=
  if fields.length = 6 then
    orError ("MIT half-ranges must be finite, positive, and representable: '".toList ++ item ++ "'".toList) do
      let p ← halfRange d 0 (fields.getD 3 [])
      let v ← halfRange d 1 (fields.getD 4 [])
      let t ← halfRange d 2 (fields.getD 5 [])
      pure { lim with pLo := -p, pHi := p, vLo := -v, vHi := v, tLo := -t, tHi := t }
  else .ok lim

/-- one entry of the list -/
def parseMotor (d : Decimals) (item : Text) : Except Text Motor :=
  let fields := item.splitOn ':'
  if fields.length ≠ 2 ∧ fields.length ≠ 3 ∧ fields.length ≠ 6 then
    .error ("bad motor entry '".toList ++ item ++ "' — want id:type[:mst[:pmax:vmax:tmax]]".toList)
  else do
    let id ← orError ("motor id must be 1..15 (payload-nibble routed): '".toList ++ item ++ "'".toList)
      (parseId (fields.getD 0 []) 1 15)
    let mst ← parseMst item fields
    let lim ← orError ("unknown motor type '".toList ++ fields.getD 1 [] ++ "' (4310|4310p|4340|4340p)".toList)
      (limitsFor (fields.getD 1 []))
    let lim ← parseRanges d item fields lim
    pure ⟨id, mst, fields.getD 1 [], lim⟩

def parseMotors (d : Decimals) (motors : List Motor) : List Text → Except Text (List Motor)
  | [] => .ok motors
  | item :: items => do
    let m ← parseMotor d item
    if motors.any (·.id == m.id) then .error ("duplicate motor id in spec: '".toList ++ item ++ "'".toList)
    else parseMotors d (motors ++ [m]) items

/-- the bytes of a text -/
def byteSize (t : Text) : ℕ := (t.map Char.utf8Size).sum

/-- `parse_spec` -/
def parseSpec (d : Decimals) (spec : Text) : Except Text (Text × List Motor) :=
  let iface := spec.takeWhile (· != ';')
  if iface.isEmpty || 16 ≤ byteSize iface then .error "bad interface name in spec".toList
  else
    match spec.dropWhile (· != ';') with
    | _ :: c :: rest => do
      let motors ← parseMotors d [] ((c :: rest).splitOn ',')
      if motors.isEmpty || 16 < motors.length then .error "need 1..16 motors in spec".toList
      else pure (iface, motors)
    | _ => .error "no motors in spec — want iface;id:type[:mst[:pmax:vmax:tmax]],...".toList

end ArmControl.Plants.Dm
