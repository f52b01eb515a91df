import Mathlib.Data.Int.Notation
import Mathlib.Data.List.Nodup

/-!
# Configuration trees (`config.py`)

What YAML gives, and how a later file is merged over an earlier one: mappings key by key, everything else replaced.

* `deepMerge`         `_deep_merge`;
* `keyAssignment`     what a tree says about a dotted key: nothing, a value, or that an ancestor is no mapping;
* `resolve`           the value at a key;
* `Keyed`             each key of a mapping once, as in a dictionary;
* `resolve_merge_*`   the value at a key of a merged tree.
-/

namespace ArmControl.Config

inductive Scalar where
  | null
  | bool (b : Bool)
  | int (n : ℤ)
  | float (text : String)
  | str (text : String)
  deriving DecidableEq

inductive Yaml where
  | scalar (s : Scalar)
  | list (items : List Yaml)
  | mapping (entries : List (String × Yaml))

/-- a dictionary, in the order of its keys -/
abbrev Entries := List (String × Yaml)

def Yaml.isMapping : Yaml → Bool
  | .mapping _ => true
  | _ => false

/-- `out[key] = value` -/
def assign (key : String) (value : Yaml) : Entries → Entries
  | [] => [(key, value)]
  | e :: rest => if e.1 = key then (key, value) :: rest else e :: assign key value rest

mutual

/-- what becomes of a key that the override has -/
def mergeValue (base : Option Yaml) : Yaml → Yaml
  | .mapping override =>
    match base with
    | some (.mapping b) => .mapping (deepMerge b override)
    | _ => .mapping override
  | .scalar s => .scalar s
  | .list items => .list items

def deepMerge (out : Entries) : Entries → Entries
  | [] => out
  | (key, value) :: rest => deepMerge (assign key (mergeValue (out.lookup key) value) out) rest

end

/-! ## keys -/

/-- what a tree says about a key -/
structure Assignment where
  defined : Bool
  value : Yaml
  key : String

/-- the walk of `_key_assignment`, from a node on -/
def assignmentFrom (node : Yaml) (done : List String) : List String → Option Assignment
  | [] => some { defined := true, value := node, key := ".".intercalate done }
  | part :: rest =>
    match node with
    | .mapping entries =>
      match entries.lookup part with
      | none => none
      | some child => assignmentFrom child (done ++ [part]) rest
    | _ => some { defined := false, value := .scalar .null, key := ".".intercalate done }

def keyAssignment (data : Entries) (parts : List String) : Option Assignment := assignmentFrom (.mapping data) [] parts

def Yaml.child (node : Yaml) (part : String) : Option Yaml :=
  match node with
  | .mapping entries => entries.lookup part
  | _ => none

/-- the value at a key -/
def Yaml.resolve (node : Yaml) : List String → Option Yaml
  | [] => some node
  | part :: rest => (node.child part).bind fun child => child.resolve rest

def resolve (data : Entries) (parts : List String) : Option Yaml := (Yaml.mapping data).resolve parts

/-! ## dictionaries -/

mutual

/-- each key of a mapping once -/
def Yaml.Keyed : Yaml → Prop
  | .mapping entries => Keyed entries
  | .scalar _ => True
  | .list _ => True

def Keyed : Entries → Prop
  | [] => True
  | (key, value) :: rest => (key ∉ rest.map Prod.fst ∧ value.Keyed) ∧ Keyed rest

end

theorem keyed_cons (e : String × Yaml) (rest : Entries) :
    Keyed (e :: rest) ↔ (e.1 ∉ rest.map Prod.fst ∧ e.2.Keyed) ∧ Keyed rest := Iff.rfl

theorem keyed_iff (entries : Entries) : Keyed entries ↔ (entries.map Prod.fst).Nodup ∧ ∀ e ∈ entries, e.2.Keyed := by
  induction entries with
  | nil => exact iff_of_true trivial ⟨List.nodup_nil, fun e he => absurd he List.not_mem_nil⟩
  | cons e rest ih =>
    rw [keyed_cons, ih, List.map_cons, List.nodup_cons, List.forall_mem_cons]
    tauto

theorem Keyed.sublist {entries entries' : Entries} (h : Keyed entries) (hsub : entries'.Sublist entries) : Keyed entries' := by
  rw [keyed_iff] at h ⊢
  exact ⟨h.1.sublist (hsub.map _), fun e he => h.2 e (hsub.subset he)⟩

theorem Keyed.lookup {entries : Entries} {key : String} {value : Yaml} (h : Keyed entries) (hl : entries.lookup key = some value) :
    value.Keyed := by
  rw [List.lookup_eq_some_iff] at hl
  obtain ⟨l, r, rfl, -⟩ := hl
  exact ((keyed_iff _).mp h).2 (key, value) (List.mem_append_right _ (List.mem_cons_self ..))

theorem lookup_entry (key : String) (value : Yaml) (rest : Entries) (k : String) :
    List.lookup k ((key, value) :: rest) = if k = key then some value else rest.lookup k := by
  rw [List.lookup_cons]
  split_ifs with h
  · rw [h, beq_self_eq_true]
  · rw [beq_eq_false_iff_ne.mpr h]

theorem lookup_assign (key : String) (value : Yaml) (entries : Entries) (k : String) :
    (assign key value entries).lookup k = if k = key then some value else entries.lookup k := by
  induction entries with
  | nil => exact lookup_entry key value [] k
  | cons e rest ih =>
    obtain ⟨key', value'⟩ := e
    unfold assign
    by_cases hkey : key' = key
    · rw [if_pos hkey, lookup_entry, lookup_entry, hkey]
      split_ifs with hk
      · rfl
      · rfl
    · rw [if_neg hkey, lookup_entry, lookup_entry, ih]
      split_ifs with hk' hk
      · exact (hkey (hk'.symm.trans hk)).elim
      · rfl
      · rfl
      · rfl

theorem mem_keys_assign (key : String) (value : Yaml) (entries : Entries) (k : String) :
    k ∈ (assign key value entries).map Prod.fst ↔ k = key ∨ k ∈ entries.map Prod.fst := by
  induction entries with
  | nil => exact List.mem_cons
  | cons e rest ih =>
    unfold assign
    split_ifs with hkey
    · rw [List.map_cons, List.map_cons, List.mem_cons, List.mem_cons, hkey]
      tauto
    · rw [List.map_cons, List.map_cons, List.mem_cons, List.mem_cons, ih]
      tauto

theorem Keyed.assign {entries : Entries} {key : String} {value : Yaml} (h : Keyed entries) (hv : value.Keyed) :
    Keyed (assign key value entries) := by
  induction entries with
  | nil => exact ⟨⟨List.not_mem_nil, hv⟩, trivial⟩
  | cons e rest ih =>
    obtain ⟨⟨hnew, hvalue⟩, hrest⟩ := h
    unfold Config.assign
    split_ifs with hkey
    · exact ⟨⟨hkey ▸ hnew, hv⟩, hrest⟩
    · refine ⟨⟨fun hmem => ?_, hvalue⟩, ih hrest⟩
      rcases (mem_keys_assign key value rest e.1).mp hmem with heq | hold
      · exact hkey heq
      · exact hnew hold

mutual

theorem mergeValue_keyed (base : Option Yaml) (hbase : ∀ b, base = some b → b.Keyed) :
    ∀ value : Yaml, value.Keyed → (mergeValue base value).Keyed
  | .scalar _, h => h
  | .list _, h => h
  | .mapping override, h => by
    match base with
    | some (.mapping b) => exact deepMerge_keyed b (hbase _ rfl) override h
    | some (.scalar _) => exact h
    | some (.list _) => exact h
    | none => exact h

theorem deepMerge_keyed (out : Entries) (hout : Keyed out) : ∀ override : Entries, Keyed override → Keyed (deepMerge out override)
  | [], _ => hout
  | (_, value) :: rest, h =>
    deepMerge_keyed _ (hout.assign (mergeValue_keyed _ (fun _ hb => hout.lookup hb) value h.1.2)) rest h.2

end

/-! ## the value at a key of a merged tree -/

/-- key by key -/
theorem lookup_deepMerge (out override : Entries) (h : Keyed override) (k : String) :
    (deepMerge out override).lookup k =
      match override.lookup k with
      | none => out.lookup k
      | some value => some (mergeValue (out.lookup k) value) := by
  induction override generalizing out with
  | nil => rfl
  | cons e rest ih =>
    obtain ⟨key, value⟩ := e
    obtain ⟨⟨hnew, -⟩, hrest⟩ := h
    show (deepMerge (assign key (mergeValue (out.lookup key) value) out) rest).lookup k = _
    rw [ih _ hrest, lookup_assign, lookup_entry]
    by_cases hk : k = key
    · have hnone : rest.lookup k = none := by
        refine List.lookup_eq_none_iff.mpr fun p hp => bne_iff_ne.mpr fun heq => hnew ?_
        rw [← hk, heq]
        exact List.mem_map_of_mem hp
      rw [hnone, if_pos hk, if_pos hk, hk]
    · rw [if_neg hk, if_neg hk]

theorem mergeValue_none (value : Yaml) : mergeValue none value = value := by
  cases value with
  | scalar s => rfl
  | list items => rfl
  | mapping override => rfl

theorem child_merge (base : Option Yaml) (override : Entries) (h : Keyed override) (part : String) :
    (mergeValue base (.mapping override)).child part =
      match override.lookup part with
      | none => base.bind fun b => b.child part
      | some value => some (mergeValue (base.bind fun b => b.child part) value) := by
  have hreplaced : (Yaml.mapping override).child part =
      match override.lookup part with
      | none => none
      | some value => some (mergeValue none value) := by
    show override.lookup part = _
    cases override.lookup part with
    | none => rfl
    | some value => exact (congrArg some (mergeValue_none value)).symm
  match base with
  | some (.mapping b) => exact lookup_deepMerge b override h part
  | some (.scalar _) => exact hreplaced
  | some (.list _) => exact hreplaced
  | none => exact hreplaced

/-- what a tree says about a key decides its value -/
theorem resolve_assignment (node : Yaml) (done parts : List String) :
    node.resolve parts = (assignmentFrom node done parts).bind fun a => if a.defined then some a.value else none := by
  induction parts generalizing node done with
  | nil => rfl
  | cons part rest ih =>
    cases node with
    | scalar s => rfl
    | list items => rfl
    | mapping entries =>
      unfold Yaml.resolve assignmentFrom Yaml.child
      dsimp only
      cases entries.lookup part with
      | none => rfl
      | some child => exact ih child _

theorem unassigned_cons (node : Yaml) (done : List String) (part : String) (rest : List String) :
    assignmentFrom node done (part :: rest) = none ↔
      node.isMapping = true ∧ ∀ child, node.child part = some child → assignmentFrom child (done ++ [part]) rest = none := by
  cases node with
  | scalar s => exact iff_of_false nofun fun h => by cases h.1
  | list items => exact iff_of_false nofun fun h => by cases h.1
  | mapping entries =>
    show (match entries.lookup part with
      | none => none
      | some child => assignmentFrom child (done ++ [part]) rest) = none ↔
        true = true ∧ ∀ child, entries.lookup part = some child → assignmentFrom child (done ++ [part]) rest = none
    cases entries.lookup part with
    | none => exact iff_of_true rfl ⟨rfl, nofun⟩
    | some child =>
      refine ⟨fun h => ⟨rfl, fun c hc => ?_⟩, fun h => h.2 child rfl⟩
      obtain rfl := Option.some.inj hc
      exact h

theorem mergeValue_isMapping (base : Option Yaml) (value : Yaml) : (mergeValue base value).isMapping = value.isMapping := by
  cases value with
  | scalar s => rfl
  | list items => rfl
  | mapping override =>
    match base with
    | some (.mapping _) => rfl
    | some (.scalar _) => rfl
    | some (.list _) => rfl
    | none => rfl

/-- what is no mapping replaces -/
theorem mergeValue_leaf {value : Yaml} (h : value.isMapping = false) (base : Option Yaml) : mergeValue base value = value := by
  cases value with
  | scalar s => rfl
  | list items => rfl
  | mapping override => cases h

section
variable {base : Option Yaml} {value : Yaml} {done parts : List String}

/-- a key on which the override says nothing -/
theorem resolve_merge_unassigned (hkeyed : value.Keyed) (h : assignmentFrom value done parts = none) :
    (mergeValue base value).resolve parts = base.bind fun b => b.resolve parts := by
  induction parts generalizing base value done with
  | nil => cases h
  | cons part rest ih =>
    cases value with
    | scalar s => cases h
    | list items => cases h
    | mapping override =>
      unfold assignmentFrom at h
      dsimp only at h
      unfold Yaml.resolve
      rw [child_merge base override hkeyed, ← Option.bind_assoc]
      cases hl : override.lookup part with
      | none => rfl
      | some child =>
        rw [hl] at h
        exact ih (hkeyed.lookup hl) h

/-- a key that the override assigns, or takes away -/
theorem resolve_merge_assigned {a : Assignment} (hkeyed : value.Keyed) (h : assignmentFrom value done parts = some a) :
    (mergeValue base value).resolve parts =
      if a.defined then some (mergeValue (base.bind fun b => b.resolve parts) a.value) else none := by
  induction parts generalizing base value done with
  | nil =>
    obtain rfl := Option.some.inj h
    show some (mergeValue base value) = some (mergeValue (base.bind some) value)
    cases base with
    | none => rfl
    | some b => rfl
  | cons part rest ih =>
    cases value with
    | scalar s =>
      obtain rfl := Option.some.inj h
      rfl
    | list items =>
      obtain rfl := Option.some.inj h
      rfl
    | mapping override =>
      unfold assignmentFrom at h
      dsimp only at h
      unfold Yaml.resolve
      rw [child_merge base override hkeyed, ← Option.bind_assoc]
      cases hl : override.lookup part with
      | none =>
        rw [hl] at h
        cases h
      | some child =>
        rw [hl] at h
        exact ih (hkeyed.lookup hl) h

/-- nothing said on either side -/
theorem merge_unassigned (hkeyed : value.Keyed) (hbase : ∀ b, base = some b → assignmentFrom b done parts = none)
    (h : assignmentFrom value done parts = none) : assignmentFrom (mergeValue base value) done parts = none := by
  induction parts generalizing base value done with
  | nil => cases h
  | cons part rest ih =>
    obtain ⟨hmapping, hchild⟩ := (unassigned_cons value done part rest).mp h
    refine (unassigned_cons ..).mpr ⟨(mergeValue_isMapping base value).trans hmapping, fun child hc => ?_⟩
    cases value with
    | scalar s => cases hmapping
    | list items => cases hmapping
    | mapping override =>
      have hsaid : ∀ c, base.bind (fun b => b.child part) = some c → assignmentFrom c (done ++ [part]) rest = none := by
        intro c hb
        obtain ⟨b, hbase', hbc⟩ := Option.bind_eq_some_iff.mp hb
        exact ((unassigned_cons b done part rest).mp (hbase b hbase')).2 c hbc
      rw [child_merge base override hkeyed] at hc
      cases hl : override.lookup part with
      | none =>
        rw [hl] at hc
        exact hsaid child hc
      | some v =>
        rw [hl] at hc
        obtain rfl := Option.some.inj hc
        exact ih (hkeyed.lookup hl) hsaid (hchild v hl)

end

/-! ## whole trees -/

section
variable {tree child : Entries} {parts : List String}

theorem resolve_of_assignment (tree : Entries) (parts : List String) :
    resolve tree parts = (keyAssignment tree parts).bind fun a => if a.defined then some a.value else none :=
  resolve_assignment _ _ _

theorem deepMerge_unassigned (hkeyed : Keyed child) (h : keyAssignment child parts = none) :
    resolve (deepMerge tree child) parts = resolve tree parts :=
  @resolve_merge_unassigned (some (.mapping tree)) (.mapping child) [] parts hkeyed h

theorem deepMerge_assigned {a : Assignment} (hkeyed : Keyed child) (h : keyAssignment child parts = some a) :
    resolve (deepMerge tree child) parts = if a.defined then some (mergeValue (resolve tree parts) a.value) else none :=
  @resolve_merge_assigned (some (.mapping tree)) (.mapping child) [] parts a hkeyed h

theorem deepMerge_silent (hkeyed : Keyed child) (htree : keyAssignment tree parts = none) (h : keyAssignment child parts = none) :
    keyAssignment (deepMerge tree child) parts = none :=
  @merge_unassigned (some (.mapping tree)) (.mapping child) [] parts hkeyed (fun _ hb => Option.some.inj hb ▸ htree) h

end

end ArmControl.Config
