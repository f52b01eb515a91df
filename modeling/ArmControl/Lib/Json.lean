import Mathlib.Algebra.Order.Ring.Rat
import Mathlib.Data.List.Basic

/-!
# JSON values, encoders and decoders

JSON text is taken as exact on finite numbers, strings, booleans, null, lists and string-keyed objects, so
a value stands for its own text.  Integers and other numbers are told apart.

* `Encode α`              how an `α` is written; a record by its `fields`;
* `Json.get`, `Json.getOr`, `Json.only`   reading an object's fields;
* `str`, `int`, `float`, `list`, `option` readers for the plain types;
* `Reads f`               `f` reads back what `encode` wrote.
-/

inductive Json where
  | null
  | bool (b : Bool)
  | int (n : ℤ)
  | float (q : ℚ)
  | str (s : String)
  | arr (xs : List Json)
  | obj (fields : List (String × Json))

namespace Json

class Encode (α : Type) where
  encode : α → Json

export Encode (encode)

/-- what a record's fields are called -/
class Dataclass (α : Type) where
  fields : α → List (String × Json)

export Dataclass (fields)

instance encodeDataclass {α : Type} [Dataclass α] : Encode α := ⟨fun a => .obj (fields a)⟩

instance encodeBool : Encode Bool := ⟨.bool⟩
instance encodeString : Encode String := ⟨.str⟩
instance encodeInt : Encode ℤ := ⟨.int⟩
instance encodeNat : Encode ℕ := ⟨fun n => .int n⟩
instance encodeRat : Encode ℚ := ⟨.float⟩

instance encodeOption {α : Type} [Encode α] : Encode (Option α) :=
  ⟨fun
    | none => .null
    | some a => encode a⟩

instance encodeList {α : Type} [Encode α] : Encode (List α) := ⟨fun xs => .arr (xs.map encode)⟩

/-- a mapping with keys written by `key` -/
def mapping {α β : Type} [Encode β] (key : α → String) (xs : List (α × β)) : Json :=
  .obj (xs.map fun x => (key x.1, encode x.2))

/-! ## reading -/

abbrev Reader (α : Type) : Type := Json → Except String α

/-- `d[k]` -/
def get (d : Json) (k : String) : Except String Json :=
  match d with
  | .obj fields =>
    match fields.lookup k with
    | some v => .ok v
    | none => .error ("KeyError: " ++ k)
  | _ => .error "not an object"

/-- `d.get(k, v)`, or a keyword argument with the default `v` -/
def getOr (d : Json) (k : String) (v : Json) : Except String Json :=
  match d with
  | .obj fields => .ok ((fields.lookup k).getD v)
  | _ => .error "not an object"

/-- `T(**d)` takes no other keyword argument -/
def only (d : Json) (names : List String) : Except String Unit :=
  match d with
  | .obj fields =>
    match fields.find? fun x => x.1 ∉ names with
    | some x => .error ("unexpected keyword argument " ++ x.1)
    | none => .ok ()
  | _ => .error "not a mapping"

def string : Reader String
  | .str s => .ok s
  | _ => .error "not a string"

def boolean : Reader Bool
  | .bool b => .ok b
  | _ => .error "not a boolean"

def integer : Reader ℤ
  | .int n => .ok n
  | _ => .error "not an integer"

def natural : Reader ℕ
  | .int (.ofNat n) => .ok n
  | _ => .error "not a non-negative integer"

def number : Reader ℚ
  | .int n => .ok n
  | .float q => .ok q
  | _ => .error "not a number"

/-- `null` is `None` -/
def option {α : Type} (f : Reader α) : Reader (Option α)
  | .null => .ok none
  | v => some <$> f v

def list {α : Type} (f : Reader α) : Reader (List α)
  | .arr xs => xs.mapM f
  | _ => .error "not a list"

/-- `E(d)` of an enumeration's values -/
def oneOf {α : Type} (values : List α) (value : α → String) : Reader α
  | .str s =>
    match values.find? fun b => value b == s with
    | some a => .ok a
    | none => .error (s ++ " is not a valid value")
  | _ => .error "not a valid value"

/-- `{key(k): f(v) for k, v in d.items()}` -/
def items {α β : Type} (key : String → Except String α) (f : Reader β) : Reader (List (α × β))
  | .obj fields => fields.mapM fun x => do return (← key x.1, ← f x.2)
  | _ => .error "not a mapping"

/-! ## an object's fields -/

section Fields

variable {k k' : String} {v w : Json} {fields : List (String × Json)}

@[simp] theorem ok_bind {α β : Type} (a : α) (f : α → Except String β) :
    ((Except.ok a : Except String α) >>= f) = f a := rfl

@[simp] theorem map_ok {α β : Type} (f : α → β) (a : α) :
    (f <$> (Except.ok a : Except String α)) = .ok (f a) := rfl

@[simp] theorem get_head : get (.obj ((k, v) :: fields)) k = .ok v := by
  rw [get, List.lookup_cons_self]

theorem get_tail (h : k ≠ k') : get (.obj ((k', v) :: fields)) k = get (.obj fields) k := by
  rw [get, List.lookup_cons, beq_false_of_ne h]
  rfl

@[simp] theorem getOr_head : getOr (.obj ((k, v) :: fields)) k w = .ok v := by
  rw [getOr, List.lookup_cons_self]
  rfl

theorem getOr_tail (h : k ≠ k') : getOr (.obj ((k', v) :: fields)) k w = getOr (.obj fields) k w := by
  rw [getOr, List.lookup_cons, beq_false_of_ne h]
  rfl

@[simp] theorem only_nil (names : List String) : only (.obj []) names = .ok () := rfl

theorem only_cons {names : List String} (h : k ∈ names) :
    only (.obj ((k, v) :: fields)) names = only (.obj fields) names := by
  rw [only, List.find?_cons_of_neg (by simpa using h)]
  rfl

end Fields

/-! ## round trips -/

/-- `f` reads back what was written, which is never `null` -/
structure Reads {α : Type} [Encode α] (f : Reader α) : Prop where
  back : ∀ a, f (encode a) = .ok a
  some_ : ∀ a : α, (encode a : Json) ≠ .null

theorem reads_string : Reads string := ⟨fun _ => rfl, fun _ h => Json.noConfusion h⟩
theorem reads_boolean : Reads boolean := ⟨fun _ => rfl, fun _ h => Json.noConfusion h⟩
theorem reads_integer : Reads integer := ⟨fun _ => rfl, fun _ h => Json.noConfusion h⟩
theorem reads_natural : Reads natural := ⟨fun _ => rfl, fun _ h => Json.noConfusion h⟩
theorem reads_number : Reads number := ⟨fun _ => rfl, fun _ h => Json.noConfusion h⟩

variable {α β γ : Type} [Encode α] [Encode β] {f : Reader α} {g : Reader β}

theorem Reads.option (h : Reads f) (a : Option α) : option f (encode a) = .ok a := by
  cases a with
  | none => rfl
  | some a =>
    have hback := h.back a
    have hsome := h.some_ a
    show Json.option f (encode a) = _
    unfold Json.option
    cases he : (encode a : Json) with
    | null => exact absurd he hsome
    | _ =>
      rw [he] at hback
      dsimp only
      rw [hback]
      rfl

theorem mapM_back {xs : List γ} {δ : Type} {r : δ → Except String γ} {w : γ → δ}
    (h : ∀ x ∈ xs, r (w x) = .ok x) : (xs.map w).mapM r = .ok xs := by
  induction xs with
  | nil => rfl
  | cons x xs ih =>
    rw [List.map_cons, List.mapM_cons, h x List.mem_cons_self,
      ih fun y hy => h y (List.mem_cons_of_mem _ hy)]
    rfl

theorem Reads.list (h : Reads f) : Reads (list f) :=
  ⟨fun _ => mapM_back fun a _ => h.back a, fun _ he => Json.noConfusion he⟩

/-- a reader of the values of an enumeration -/
theorem reads_oneOf {values : List α} {value : α → String} (hw : ∀ a, encode a = .str (value a))
    (hfind : ∀ a, values.find? (fun b => value b == value a) = some a) : Reads (oneOf values value) := by
  refine ⟨fun a => ?_, fun a he => ?_⟩
  · rw [hw, oneOf, hfind]
  · rw [hw] at he
    exact Json.noConfusion he

theorem items_back {key : γ → String} {back : String → Except String γ} (hk : ∀ k, back (key k) = .ok k)
    (h : Reads g) (xs : List (γ × β)) : items back g (mapping key xs) = .ok xs := by
  refine mapM_back fun x _ => ?_
  dsimp only
  rw [hk, h.back]
  rfl

end Json
