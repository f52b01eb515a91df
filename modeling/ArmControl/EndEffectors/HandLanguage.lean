import ArmControl.Lib.Scan
import ArmControl.Lib.ValueArith

/-!
# The command language of the Hand bridges

Two servers read one line protocol: `serve` with `parse_hand_command` (`hand_bridge.cpp`, `hand_admission.hpp`) and `SimHandBridge._serve`
with `parse_command` (`sim_hand_bridge.py`).  A character is a byte of the stream.

* `isNumber`                     the decimal literals, `_NUMBER` of the Python side;
* `HandLimits`, `cppAdmits`, `pyAdmits`   a gripper's envelope and the checks against it;
* `cppParse`, `pyParse`          the two parsers, `cppToken`, `pyToken` what a REJECT line reports;
* `cppServe`, `pyServe`          the two framing loops over what their `recv` calls return.

`istream >> double` reads the longest decimal literal after white space; `strtod` is a parameter that both sides share.
-/

namespace ArmControl.EndEffectors

open Scan

abbrev Text : Type := List Char

/-! ## numbers -/

/-- one of the ten digits -/
def isDecimal (c : Char) : Bool := decide (48 ≤ c.toNat) && decide (c.toNat ≤ 57)

/-- `str.isascii() and str.isdigit()`, and no other character than the ten digits -/
def isDigits (t : Text) : Bool := !t.isEmpty && t.all isDecimal

/-- the number that digits write -/
def number (t : Text) : ℕ := t.foldl (fun n c => n * 10 + (c.toNat - 48)) 0

/-- a number as it is printed -/
def printed (n : ℕ) : Text := Nat.toDigits 10 n

def dropSign : Text → Text
  | c :: t => if c = '+' ∨ c = '-' then t else c :: t
  | [] => []

/-- `([eE][+-]?\d+)?` -/
def isExponent : Text → Bool
  | [] => true
  | c :: t => (c == 'e' || c == 'E') && isDigits (dropSign t)

/-- the whole text matches `[+-]?(\d+\.?\d*|\.\d+)([eE][+-]?\d+)?` -/
def isNumber (t : Text) : Bool :=
  let t := dropSign t
  let whole := t.takeWhile isDecimal
  match t.dropWhile isDecimal with
  | '.' :: rest => (!whole.isEmpty || !(rest.takeWhile isDecimal).isEmpty) && isExponent (rest.dropWhile isDecimal)
  | rest => !whole.isEmpty && isExponent rest

/-! ## actions -/

inductive Verb where
  | move | home | grasp
  deriving DecidableEq

structure Action where
  kind : Verb
  token : ℕ
  w : Value := .fin 0
  s : Value := .fin 0
  f : Value := .fin 0
  ei : Value := .fin 0
  eo : Value := .fin 0
  deriving DecidableEq

/-- a gripper's envelope; `forceMax` zero means no force grasp -/
structure HandLimits where
  widthMax : ℚ
  speedMax : ℚ
  forceMin : ℚ
  forceMax : ℚ

/-- `franka_hand` -/
def frankaHand : HandLimits := ⟨8 / 100, 10 / 100, 30, 70⟩

def verbOf (t : Text) : Option Verb :=
  if t = "HOME".toList then some .home else if t = "MOVE".toList then some .move else if t = "GRASP".toList then some .grasp else none

/-- how many operands an action takes -/
def Verb.arity : Verb → ℕ
  | .home => 0
  | .move => 2
  | .grasp => 5

/-- the operands in their places -/
def Verb.action (v : Verb) (token : ℕ) (xs : List Value) : Action :=
  let x := fun i => xs.getD i (.fin 0)
  ⟨v, token, x 0, x 1, x 2, x 3, x 4⟩

/-- `!isfinite(x) || x < 0 || x > hi` -/
def outOfStroke (x : Value) (hi : ℚ) : Bool := !x.isFinite || x.lt (.fin 0) || (Value.fin hi).lt x

/-- the check of `parse_hand_command` -/
def cppAdmits (l : HandLimits) (a : Action) : Bool :=
  if a.kind = .home then true
  else if outOfStroke a.w l.widthMax || !a.s.isFinite || a.s.le (.fin 0) || (Value.fin l.speedMax).lt a.s then false
  else
    !decide (a.kind = .grasp) ||
      (a.f.isFinite && (Value.fin l.forceMin).le a.f && a.f.le (.fin l.forceMax) && (Value.fin 0).lt (.fin l.forceMax) &&
        !outOfStroke a.ei l.widthMax && !outOfStroke a.eo l.widthMax)

/-- `math.isfinite(x) and 0 <= x <= hi` -/
def inStroke (x : Value) (hi : ℚ) : Bool := x.isFinite && (Value.fin 0).le x && x.le (.fin hi)

/-- the check of `parse_command` -/
def pyAdmits (l : HandLimits) (a : Action) : Bool :=
  if a.kind = .home then true
  else if !(inStroke a.w l.widthMax && a.s.isFinite && (Value.fin 0).lt a.s && a.s.le (.fin l.speedMax)) then false
  else
    !(decide (a.kind = .grasp) &&
      !(decide (0 < l.forceMax) && a.f.isFinite && (Value.fin l.forceMin).le a.f && a.f.le (.fin l.forceMax) &&
        inStroke a.ei l.widthMax && inStroke a.eo l.widthMax))

section
variable (strtod : Text → Value) (l : HandLimits)

/-! ## the bridge (C++) -/

/-- `in >> x`: the longest literal after white space; an overflow fails -/
def readDouble (t : Text) : Option (Value × Text) :=
  match longestPrefix isNumber (t.dropWhile isSpace) with
  | none => none
  | some (w, rest) => if (strtod w).isFinite then some (strtod w, rest) else none

def readDoubles : ℕ → Text → Option (List Value × Text)
  | 0, t => some ([], t)
  | n + 1, t =>
    match readDouble strtod t with
    | none => none
    | some (x, t) => (readDoubles n t).map fun r => (x :: r.1, r.2)

/-- `in >> prefix >> token >> verb`, and what stands behind -/
def cppWords (line : Text) : Option (Text × Text × Text × Text) :=
  match readWord line with
  | none => none
  | some (first, t) =>
    match readWord t with
    | none => none
    | some (token, t) => (readWord t).map fun r => (first, token, r.1, r.2)

/-- `CMD <token> <verb>`, and what stands behind -/
def cppHead (line : Text) : Option (Text × Text × Text) :=
  match cppWords line with
  | none => none
  | some (first, token, verb, tail) => if first = "CMD".toList && isDigits token then some (token, verb, tail) else none

/-- the action of a verb and the text behind it, once the token is read -/
def cppBody (token : ℕ) (verb tail : Text) : Option Action :=
  match verbOf verb with
  | none => none
  | some v =>
    match readDoubles strtod v.arity tail with
    | none => none
    | some (xs, rest) => if (readWord rest).isSome then none else if cppAdmits l (v.action token xs) then some (v.action token xs) else none

/-- `std::stoull` throws from 2^64 on -/
def stoull (t : Text) : Option ℕ := if number t < 2 ^ 64 then some (number t) else none

/-- `parse_hand_command` -/
def cppParse (line : Text) : Option Action :=
  match cppHead line with
  | none => none
  | some (token, verb, tail) => (stoull token).bind fun n => cppBody strtod l n verb tail

/-- `action.token` after the parser, which the REJECT line reports -/
def cppToken (line : Text) : Text :=
  printed (((cppHead line).bind fun h => stoull h.1).getD 0)

/-! ## the simulation (Python) -/

/-- `parts[1]`, `parts[2]` and `parts[3:]` of a line that starts with `CMD` and a token of digits -/
def pyHead (line : Text) : Option (Text × Text × List Text) :=
  match line.splitOn ' ' with
  | first :: token :: verb :: args => if first = "CMD".toList && isDigits token then some (token, verb, args) else none
  | _ => none

def pyBody (token : ℕ) (verb : Text) (args : List Text) : Option Action :=
  if args.all isNumber then
    match verbOf verb with
    | none => none
    | some v =>
      if args.length = v.arity then
        let a := v.action token (args.map strtod)
        if pyAdmits l a then some a else none
      else none
  else none

/-- `parse_command` -/
def pyParse (line : Text) : Option Action := (pyHead line).bind fun h => pyBody strtod l (number h.1) h.2.1 h.2.2

/-- the token that the REJECT line reports -/
def pyToken (line : Text) : Text := ((pyHead line).map fun h => h.1).getD "0".toList

/-- the REJECT line of an invalid command -/
def rejectLine (token : Text) : Text := "REJECT ".toList ++ token ++ " invalid_command\n".toList

end

/-! ## framing -/

/-- the lines of a buffer, and what is left behind the last one -/
def cutLines : Text → List Text × Text
  | [] => ([], [])
  | c :: t =>
    if c = '\n' then ([] :: (cutLines t).1, (cutLines t).2)
    else
      match cutLines t with
      | ([], rest) => ([], c :: rest)
      | (line :: lines, rest) => ((c :: line) :: lines, rest)

/-- `serve`: what each `recv` returned is cut into lines; a full buffer without a newline disconnects.  The lines, and whether the client
was disconnected. -/
def cppServe : Text → List Text → List Text × Bool
  | _, [] => ([], false)
  | buf, got :: rest =>
    let cut := cutLines (buf ++ got)
    if cut.2.length = 255 then (cut.1, true)
    else
      let later := cppServe cut.2 rest
      (cut.1 ++ later.1, later.2)

/-- the lines up to the first one of 255 bytes or more, and whether there is one -/
def pyLines : List Text → List Text × Bool
  | [] => ([], false)
  | line :: lines => if 255 ≤ line.length then ([], true) else (line :: (pyLines lines).1, (pyLines lines).2)

/-- `_serve` -/
def pyServe : Text → List Text → List Text × Bool
  | _, [] => ([], false)
  | buf, got :: rest =>
    let cut := cutLines (buf ++ got)
    let lines := pyLines cut.1
    if lines.2 then lines
    else if 255 ≤ cut.2.length then (lines.1, true)
    else
      let later := pyServe cut.2 rest
      (lines.1 ++ later.1, later.2)

/-- what `recv` can return into the buffer of 256 bytes: at most `sizeof(buf) - have - 1` bytes at a time -/
def Fits : Text → List Text → Prop
  | _, [] => True
  | buf, got :: rest => buf.length + got.length ≤ 255 ∧ ((cutLines (buf ++ got)).2.length < 255 → Fits (cutLines (buf ++ got)).2 rest)

end ArmControl.EndEffectors
