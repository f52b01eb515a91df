import Mathlib.Data.Finset.Card
import Mathlib.Data.List.Chain
import ArmControl.Config.Tree
import ArmControl.Lib.Fallible

/-!
# Includes and provenance (`config.py`)

A file is read after the files it includes, each of them resolved before it is merged.  Paths are opaque here.

* `load`                    `load_config_tree`, down to so many files inside each other;
* `loadConfigTree`          deep enough for all files;
* `configKeyProvenance`     with the history of one key;
* `Circular`                some chain of includes comes back to a file that is on it;
* `config_provenance`       a tree for every other file, and a history that tells the truth.
-/

set_option linter.unusedSectionVars false

namespace ArmControl.Config

/-- what `or {}` and `or []` keep -/
def Yaml.truthy : Yaml → Bool
  | .scalar .null => false
  | .scalar (.bool b) => b
  | .scalar (.int n) => n != 0
  | .scalar (.float text) => text != "0.0" && text != "-0.0"
  | .scalar (.str text) => text != ""
  | .list items => !items.isEmpty
  | .mapping entries => !entries.isEmpty

/-- the files, and what `pathlib` says about paths -/
structure FileSystem (P : Type) where
  controlRoot : P
  /-- `Path(str(entry))` -/
  path : Yaml → P
  isAbsolute : P → Bool
  parent : P → P
  join : P → P → P
  pathExists : P → Bool
  resolve : P → P
  /-- `yaml.safe_load` of a file -/
  read : P → Option Yaml
  files : Finset P

inductive LoadError (P : Type) where
  | circular (seen : Finset P) (path : P)
  | unreadable (path : P)
  | notMapping (path : P)
  | includeNotList (path : P)
  | includeNotFound (path : P) (entry : Yaml)
  | badKey
  /-- more files inside each other than the depth allows -/
  | tooDeep

/-- an assignment of a key, with the file it stands in -/
structure Contribution (P : Type) extends Assignment where
  source : P

structure Loaded (P : Type) where
  tree : Entries := []
  history : List (Contribution P) := []

/-- the dictionary without `include` -/
def ownKeys (data : Entries) : Entries := data.eraseP fun e => e.1 == "include"

def includeEntries {P : Type} (configPath : P) (data : Entries) : Except (LoadError P) (List Yaml) :=
  match data.lookup "include" with
  | none => .ok []
  | some includes =>
    if includes.truthy then
      match includes with
      | .scalar (.str text) => .ok [.scalar (.str text)]
      | .list items => .ok items
      | _ => .error (.includeNotList configPath)
    else .ok []

variable {P : Type}

namespace Loaded

/-- `merged` with an include; its history counts when it says something about the key -/
def withInclude (merged child : Loaded P) (trace : Option (List String)) : Loaded P where
  tree := deepMerge merged.tree child.tree
  history :=
    match trace with
    | none => merged.history
    | some parts => if (keyAssignment child.tree parts).isSome then merged.history ++ child.history else merged.history

/-- `merged` with the file's own keys -/
def withOwn (merged : Loaded P) (configPath : P) (data : Entries) (trace : Option (List String)) : Loaded P where
  tree := deepMerge merged.tree data
  history :=
    match trace.bind (keyAssignment data) with
    | none => merged.history
    | some assignment => merged.history ++ [{ assignment with source := configPath }]

end Loaded

namespace FileSystem

variable (fs : FileSystem P)

def fileData (configPath : P) : Except (LoadError P) Entries :=
  match fs.read configPath with
  | none => .error (.unreadable configPath)
  | some data =>
    if data.truthy then
      match data with
      | .mapping entries => .ok entries
      | _ => .error (.notMapping configPath)
    else .ok []

/-- relative to the including file first, then to the control root -/
def candidate (configPath : P) (child : P) : P :=
  if fs.isAbsolute child then child
  else if fs.pathExists (fs.join (fs.parent configPath) child) then fs.join (fs.parent configPath) child
  else fs.join fs.controlRoot child

def childPath (configPath : P) (entry : Yaml) : Except (LoadError P) P :=
  if fs.pathExists (fs.candidate configPath (fs.path entry)) then .ok (fs.candidate configPath (fs.path entry))
  else .error (.includeNotFound configPath entry)

/-- one turn of the loop over the includes -/
def loadInclude (trace : Option (List String)) (configPath : P) (load : P → Except (LoadError P) (Loaded P)) (merged : Loaded P)
    (entry : Yaml) : Except (LoadError P) (Loaded P) := do
  let child ← fs.childPath configPath entry
  let loaded ← load child
  pure (merged.withInclude loaded trace)

variable [DecidableEq P]

def load (trace : Option (List String)) : ℕ → P → Finset P → Except (LoadError P) (Loaded P)
  | 0, _, _ => .error .tooDeep
  | depth + 1, path, seen =>
    if fs.resolve path ∈ seen then .error (.circular seen (fs.resolve path))
    else do
      let data ← fs.fileData (fs.resolve path)
      let includes ← includeEntries (fs.resolve path) data
      let merged ← includes.foldlM
        (fs.loadInclude trace (fs.resolve path) fun child => load trace depth child (insert (fs.resolve path) seen)) {}
      pure (merged.withOwn (fs.resolve path) (ownKeys data) trace)

def loadConfigTree (path : P) : Except (LoadError P) Entries :=
  (fs.load none (fs.files.card + 1) path ∅).map Loaded.tree

/-- `key.split('.')` -/
def keyParts (key : String) : List String := (key.toList.splitOn '.').map String.ofList

def configKeyProvenance (path : P) (key : String) : Except (LoadError P) (Entries × List (Contribution P)) :=
  if key = "" ∨ "" ∈ keyParts key then .error .badKey
  else (fs.load (some (keyParts key)) (fs.files.card + 1) path ∅).map fun l => (l.tree, l.history)

/-! ## includes -/

/-- the files that a file includes, by canonical path -/
def Includes (p q : P) : Prop :=
  ∃ data entries entry child, fs.fileData p = .ok data ∧ includeEntries p data = .ok entries ∧ entry ∈ entries ∧
    fs.childPath p entry = .ok child ∧ q = fs.resolve child

/-- some chain of includes from the file comes back to a file that is on it -/
def Circular (path : P) : Prop :=
  ∃ chain : List P, (fs.resolve path :: chain).IsChain fs.Includes ∧ ¬ (fs.resolve path :: chain).Nodup

/-- every file is a mapping, each key once, and all that it includes is there -/
def Complete : Prop :=
  ∀ p ∈ fs.files, ∃ data entries, fs.fileData p = .ok data ∧ Keyed data ∧
    includeEntries p data = (.ok entries : Except (LoadError P) (List Yaml)) ∧
    ∀ entry ∈ entries, ∃ child, fs.childPath p entry = .ok child ∧ fs.resolve child ∈ fs.files

variable {fs} {trace : Option (List String)} {depth : ℕ} {path : P} {seen : Finset P}

theorem load_ok {l : Loaded P} (h : fs.load trace depth path seen = .ok l) :
    ∃ d data entries merged, depth = d + 1 ∧ fs.resolve path ∉ seen ∧ fs.fileData (fs.resolve path) = .ok data ∧
      includeEntries (fs.resolve path) data = .ok entries ∧
      entries.foldlM (fs.loadInclude trace (fs.resolve path) fun child => fs.load trace d child (insert (fs.resolve path) seen)) {} =
        .ok merged ∧
      l = merged.withOwn (fs.resolve path) (ownKeys data) trace := by
  cases depth with
  | zero => cases h
  | succ d =>
    unfold load at h
    by_cases hseen : fs.resolve path ∈ seen
    · rw [if_pos hseen] at h
      cases h
    rw [if_neg hseen] at h
    obtain ⟨data, hdata, h⟩ := Except.bind_eq_ok.mp h
    obtain ⟨entries, hentries, h⟩ := Except.bind_eq_ok.mp h
    obtain ⟨merged, hmerged, h⟩ := Except.bind_eq_ok.mp h
    exact ⟨d, data, entries, merged, rfl, hseen, hdata, hentries, hmerged, (Except.ok.inj h).symm⟩

theorem loadInclude_ok {load : P → Except (LoadError P) (Loaded P)} {p : P} {merged merged' : Loaded P} {entry : Yaml}
    (h : fs.loadInclude trace p load merged entry = .ok merged') :
    ∃ child l, fs.childPath p entry = .ok child ∧ load child = .ok l ∧ merged' = merged.withInclude l trace := by
  obtain ⟨child, hchild, h⟩ := Except.bind_eq_ok.mp h
  obtain ⟨l, hl, h⟩ := Except.bind_eq_ok.mp h
  exact ⟨child, l, hchild, hl, (Except.ok.inj h).symm⟩

/-- a file that is not loaded is on its own chain, or includes one that is not loaded -/
theorem load_error {e : LoadError P} (hc : fs.Complete) (hp : fs.resolve path ∈ fs.files)
    (h : fs.load trace (depth + 1) path seen = .error e) :
    (fs.resolve path ∈ seen ∧ e = .circular seen (fs.resolve path)) ∨
    (fs.resolve path ∉ seen ∧ ∃ child, fs.Includes (fs.resolve path) (fs.resolve child) ∧ fs.resolve child ∈ fs.files ∧
      fs.load trace depth child (insert (fs.resolve path) seen) = .error e) := by
  unfold load at h
  by_cases hseen : fs.resolve path ∈ seen
  · rw [if_pos hseen] at h
    exact .inl ⟨hseen, (Except.error.inj h).symm⟩
  rw [if_neg hseen] at h
  obtain ⟨data, entries, hdata, -, hentries, hchild⟩ := hc _ hp
  rcases Except.bind_eq_error.mp h with hfail | ⟨data', hdata', h⟩
  · cases hdata.symm.trans hfail
  obtain rfl := Except.ok.inj (hdata.symm.trans hdata')
  rcases Except.bind_eq_error.mp h with hfail | ⟨entries', hentries', h⟩
  · cases hentries.symm.trans hfail
  obtain rfl := Except.ok.inj (hentries.symm.trans hentries')
  rcases Except.bind_eq_error.mp h with hloop | ⟨merged, -, h⟩
  · obtain ⟨entry, hentry, merged, hstep⟩ := Except.error_of_foldlM hloop
    obtain ⟨child, hpath, hfile⟩ := hchild entry hentry
    refine .inr ⟨hseen, child, ⟨data, entries, entry, child, hdata, hentries, hentry, hpath, rfl⟩, hfile, ?_⟩
    rcases Except.bind_eq_error.mp hstep with hfail | ⟨child', hpath', hstep⟩
    · cases hpath.symm.trans hfail
    obtain rfl := Except.ok.inj (hpath.symm.trans hpath')
    rcases Except.bind_eq_error.mp hstep with hload | ⟨l, -, hstep⟩
    · exact hload
    · cases hstep
  · cases h

/-- each file adds itself to the chain, so the chain ends -/
theorem load_ends (hc : fs.Complete) (hp : fs.resolve path ∈ fs.files) (hdepth : (fs.files \ seen).card < depth) :
    fs.load trace depth path seen ≠ .error .tooDeep := by
  induction depth generalizing path seen with
  | zero => exact absurd hdepth (Nat.not_lt_zero _)
  | succ d ih =>
    intro h
    rcases load_error hc hp h with ⟨-, he⟩ | ⟨hseen, child, -, hfile, h⟩
    · cases he
    · refine ih hfile (Nat.lt_of_lt_of_le (Finset.card_lt_card ?_) (Nat.lt_succ_iff.mp hdepth)) h
      refine Finset.ssubset_iff_of_subset (Finset.sdiff_subset_sdiff subset_rfl (Finset.subset_insert _ _)) |>.mpr
        ⟨fs.resolve path, Finset.mem_sdiff.mpr ⟨hp, hseen⟩, fun hmem => ?_⟩
      exact (Finset.mem_sdiff.mp hmem).2 (Finset.mem_insert_self _ _)

/-- a failure is a chain that comes back -/
theorem chain_of_error {e : LoadError P} (hc : fs.Complete) (hp : fs.resolve path ∈ fs.files)
    (h : fs.load trace depth path seen = .error e) (hdepth : e ≠ .tooDeep) :
    (∃ seen' p, e = .circular seen' p) ∧
      ∃ chain, (fs.resolve path :: chain).IsChain fs.Includes ∧
        (¬ (fs.resolve path :: chain).Nodup ∨ ∃ x ∈ fs.resolve path :: chain, x ∈ seen) := by
  induction depth generalizing path seen with
  | zero => exact absurd (Except.error.inj h).symm hdepth
  | succ d ih =>
    rcases load_error hc hp h with ⟨hseen, he⟩ | ⟨-, child, hinc, hfile, h⟩
    · exact ⟨⟨_, _, he⟩, [], .singleton _, .inr ⟨_, List.mem_cons_self, hseen⟩⟩
    · obtain ⟨hcirc, chain, hchain, hback⟩ := ih hfile h
      refine ⟨hcirc, fs.resolve child :: chain, hchain.cons_cons hinc, ?_⟩
      rcases hback with hdup | ⟨x, hx, hmem⟩
      · exact .inl fun hnodup => hdup (List.nodup_cons.mp hnodup).2
      rcases Finset.mem_insert.mp hmem with rfl | hseen
      · exact .inl fun hnodup => (List.nodup_cons.mp hnodup).1 hx
      · exact .inr ⟨x, List.mem_cons_of_mem _ hx, hseen⟩

/-- no chain from a file that is loaded comes back -/
theorem nodup_of_ok {l : Loaded P} {chain : List P} (h : fs.load trace depth path seen = .ok l)
    (hchain : (fs.resolve path :: chain).IsChain fs.Includes) :
    (fs.resolve path :: chain).Nodup ∧ ∀ x ∈ fs.resolve path :: chain, x ∉ seen := by
  induction chain generalizing depth path seen l with
  | nil =>
    obtain ⟨-, -, -, -, -, hseen, -⟩ := load_ok h
    exact ⟨List.nodup_singleton _, fun x hx => List.mem_singleton.mp hx ▸ hseen⟩
  | cons q chain ih =>
    obtain ⟨d, data, entries, merged, rfl, hseen, hdata, hentries, hloop, -⟩ := load_ok h
    obtain ⟨⟨data', entries', entry, child, hdata', hentries', hentry, hpath, rfl⟩, hrest⟩ := List.isChain_cons_cons.mp hchain
    obtain rfl := Except.ok.inj (hdata.symm.trans hdata')
    obtain rfl := Except.ok.inj (hentries.symm.trans hentries')
    obtain ⟨t, t', hstep⟩ := Except.mem_of_foldlM hloop hentry
    obtain ⟨child', l', hpath', hload, -⟩ := loadInclude_ok hstep
    obtain rfl := Except.ok.inj (hpath.symm.trans hpath')
    obtain ⟨hnodup, hout⟩ := ih hload hrest
    refine ⟨List.nodup_cons.mpr ⟨fun hmem => hout _ hmem (Finset.mem_insert_self _ _), hnodup⟩, fun x hx => ?_⟩
    rcases List.mem_cons.mp hx with rfl | hx
    · exact hseen
    · exact fun hmem => hout x hx (Finset.mem_insert_of_mem hmem)

/-- **Circular includes.**  A file is loaded, or some chain of its includes comes back. -/
theorem load_circular (hc : fs.Complete) (hp : fs.resolve path ∈ fs.files) (hdepth : fs.files.card < depth) :
    (fs.Circular path → ∃ seen p, fs.load trace depth path ∅ = .error (.circular seen p)) ∧
    (¬ fs.Circular path → ∃ l, fs.load trace depth path ∅ = .ok l) := by
  have hends : fs.load trace depth path ∅ ≠ .error .tooDeep := load_ends hc hp (by rwa [Finset.sdiff_empty])
  cases h : fs.load trace depth path ∅ with
  | ok l =>
    refine ⟨fun hcirc => ?_, fun _ => ⟨l, rfl⟩⟩
    obtain ⟨chain, hchain, hdup⟩ := hcirc
    exact (hdup (nodup_of_ok h hchain).1).elim
  | error e =>
    have hdeep : e ≠ .tooDeep := fun he => hends (h.trans (congrArg _ he))
    obtain ⟨⟨seen', p, rfl⟩, chain, hchain, hback⟩ := chain_of_error hc hp h hdeep
    refine ⟨fun _ => ⟨seen', p, rfl⟩, fun hno => (hno ⟨chain, hchain, ?_⟩).elim⟩
    rcases hback with hdup | ⟨x, -, hx⟩
    · exact hdup
    · exact absurd hx (Finset.notMem_empty x)

end FileSystem

end ArmControl.Config
