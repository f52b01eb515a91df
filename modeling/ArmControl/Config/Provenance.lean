import ArmControl.Config.Includes

/-!
# Where a value comes from (`config.py`)

The history of a key against the tree that is returned with it.

* `load_tree`           following a key changes no tree;
* `Truthful`            what a history says agrees with its tree;
* `Truthful.merge`      and still does when one tree is merged over another;
* `config_provenance`   a tree for every file that is in no circle, and a truthful history of every key.
-/

set_option linter.unusedSectionVars false

namespace ArmControl.Config

open FileSystem

variable {P : Type} {fs : FileSystem P} {parts : List String}

/-- the file whose own keys assign the value -/
def Contribution.Owned (fs : FileSystem P) (parts : List String) (c : Contribution P) : Prop :=
  ∃ data, fs.fileData c.source = .ok data ∧ resolve (ownKeys data) parts = some c.value

/-- what the history of a key says about a tree -/
structure Truthful (fs : FileSystem P) (parts : List String) (tree : Entries) (history : List (Contribution P)) : Prop where
  said : (keyAssignment tree parts).isSome → history ≠ []
  value : ∀ v, resolve tree parts = some v → v.isMapping = false →
    ∃ last, history.getLast? = some last ∧ last.defined = true ∧ last.value = v ∧ last.Owned fs parts
  erased : resolve tree parts = none → ∀ last, history.getLast? = some last → last.defined = false

theorem Truthful.empty (hparts : parts ≠ []) : Truthful fs parts [] [] := by
  obtain ⟨part, rest, rfl⟩ := List.exists_cons_of_ne_nil hparts
  exact ⟨nofun, nofun, nofun⟩

/-- a tree that says something about the key brings its own history -/
theorem Truthful.merge {tree child : Entries} {history childHistory : List (Contribution P)} (h : Truthful fs parts tree history)
    (hchild : Truthful fs parts child childHistory) (hkeyed : Keyed child) :
    Truthful fs parts (deepMerge tree child)
      (if (keyAssignment child parts).isSome then history ++ childHistory else history) := by
  cases ha : keyAssignment child parts with
  | none =>
    rw [Option.isSome_none, if_neg Bool.false_ne_true]
    refine ⟨fun hsaid => h.said ?_, ?_, ?_⟩
    · by_contra hno
      rw [deepMerge_silent hkeyed (Option.not_isSome_iff_eq_none.mp hno) ha] at hsaid
      cases hsaid
    · rw [deepMerge_unassigned hkeyed ha]
      exact h.value
    · rw [deepMerge_unassigned hkeyed ha]
      exact h.erased
  | some a =>
    have hne : childHistory ≠ [] := hchild.said (by rw [ha]; rfl)
    have hlast : (history ++ childHistory).getLast? = childHistory.getLast? := List.getLast?_append_of_ne_nil _ hne
    have hown : resolve child parts = if a.defined then some a.value else none := by
      rw [resolve_of_assignment, ha]
      rfl
    rw [Option.isSome_some, if_pos rfl]
    refine ⟨fun _ heq => hne (List.append_eq_nil_iff.mp heq).2, ?_, ?_⟩
    · rw [deepMerge_assigned hkeyed ha, hlast]
      intro v hv hleaf
      refine hchild.value v ?_ hleaf
      rw [hown]
      split_ifs at hv ⊢ with hdefined
      obtain rfl := Option.some.inj hv
      rw [mergeValue_isMapping] at hleaf
      rw [mergeValue_leaf hleaf]
    · rw [deepMerge_assigned hkeyed ha, hlast]
      intro hnone
      refine hchild.erased ?_
      rw [hown]
      split_ifs at hnone ⊢
      rfl

theorem keyed_ownKeys {data : Entries} (h : Keyed data) : Keyed (ownKeys data) := h.sublist List.eraseP_sublist

/-- what a file itself says about the key -/
def ownHistory (parts : List String) (configPath : P) (data : Entries) : List (Contribution P) :=
  match keyAssignment (ownKeys data) parts with
  | none => []
  | some assignment => [{ assignment with source := configPath }]

theorem Truthful.ownKeys {p : P} {data : Entries} (h : fs.fileData p = .ok data) :
    Truthful fs parts (ownKeys data) (ownHistory parts p data) := by
  have hvalue := resolve_of_assignment (Config.ownKeys data) parts
  unfold ownHistory
  cases ha : keyAssignment (Config.ownKeys data) parts with
  | none =>
    rw [ha] at hvalue
    refine ⟨fun hsaid => ?_, fun v hv => ?_, fun _ last hl => by cases hl⟩
    · rw [ha] at hsaid
      cases hsaid
    · cases hvalue.symm.trans hv
  | some a =>
    rw [ha] at hvalue
    change resolve (Config.ownKeys data) parts = if a.defined then some a.value else none at hvalue
    refine ⟨fun _ => List.cons_ne_nil _ _, fun v hv hleaf => ⟨_, rfl, ?_⟩, fun hnone last hl => ?_⟩
    · rw [hvalue] at hv
      split_ifs at hv with hdefined
      rw [if_pos hdefined] at hvalue
      exact ⟨hdefined, Option.some.inj hv, data, h, hvalue⟩
    · obtain rfl := Option.some.inj hl
      rw [hvalue] at hnone
      split_ifs at hnone with hdefined
      exact Bool.eq_false_iff.mpr hdefined

theorem withOwn_history (merged : Loaded P) (p : P) (data : Entries) (parts : List String) :
    (merged.withOwn p (ownKeys data) (some parts)).history =
      if (keyAssignment (ownKeys data) parts).isSome then merged.history ++ ownHistory parts p data else merged.history := by
  unfold Loaded.withOwn ownHistory
  show (match keyAssignment (ownKeys data) parts with
    | none => merged.history
    | some assignment => merged.history ++ [({ assignment with source := p } : Contribution P)]) = _
  cases keyAssignment (ownKeys data) parts with
  | none => rfl
  | some a => rfl

variable [DecidableEq P] {depth : ℕ} {path : P} {seen : Finset P}

theorem load_truthful {l : Loaded P} (hc : fs.Complete) (hparts : parts ≠ []) (hp : fs.resolve path ∈ fs.files)
    (h : fs.load (some parts) depth path seen = .ok l) : Keyed l.tree ∧ Truthful fs parts l.tree l.history := by
  induction depth generalizing path seen l with
  | zero => cases h
  | succ d ih =>
    obtain ⟨d', data, entries, merged, hd, -, hdata, hentries, hloop, rfl⟩ := load_ok h
    obtain rfl := Nat.succ.inj hd
    obtain ⟨data', entries', hdata', hkeyed, hentries', hchild⟩ := hc _ hp
    obtain rfl := Except.ok.inj (hdata.symm.trans hdata')
    obtain rfl := Except.ok.inj (hentries.symm.trans hentries')
    have hempty : Keyed (Loaded.mk [] [] : Loaded P).tree ∧ Truthful fs parts [] [] := ⟨trivial, .empty hparts⟩
    have hmerged : Keyed merged.tree ∧ Truthful fs parts merged.tree merged.history := by
      refine Except.invariant_of_foldlM (P := fun m : Loaded P => Keyed m.tree ∧ Truthful fs parts m.tree m.history) hempty
        (fun t entry t' hentry ht hstep => ?_) hloop
      obtain ⟨child, l', hpath, hload, rfl⟩ := loadInclude_ok hstep
      obtain ⟨child', hpath', hfile⟩ := hchild entry hentry
      obtain rfl := Except.ok.inj (hpath.symm.trans hpath')
      obtain ⟨hkeyed', htruthful'⟩ := ih hfile hload
      exact ⟨deepMerge_keyed _ ht.1 _ hkeyed', ht.2.merge htruthful' hkeyed'⟩
    refine ⟨deepMerge_keyed _ hmerged.1 _ (keyed_ownKeys hkeyed), ?_⟩
    rw [withOwn_history]
    exact hmerged.2.merge (.ownKeys hdata) (keyed_ownKeys hkeyed)

/-- following a key changes no tree -/
theorem load_tree (trace trace' : Option (List String)) (depth : ℕ) (path : P) (seen : Finset P) :
    (fs.load trace depth path seen).map Loaded.tree = (fs.load trace' depth path seen).map Loaded.tree := by
  induction depth generalizing path seen with
  | zero => rfl
  | succ d ih =>
    unfold FileSystem.load
    split_ifs with hseen
    · rfl
    refine Except.map_bind_congr (g := id) (h := Loaded.tree) rfl fun data _ hdata => ?_
    obtain rfl := hdata
    refine Except.map_bind_congr (g := id) (h := Loaded.tree) rfl fun entries _ hentries => ?_
    obtain rfl := hentries
    refine Except.map_bind_congr (g := Loaded.tree) (h := Loaded.tree) (Except.map_foldlM rfl fun s t entry _ hst => ?_)
      fun merged merged' hmerged => congrArg (fun tree => Except.ok (deepMerge tree _)) hmerged
    refine Except.map_bind_congr (g := id) (h := Loaded.tree) rfl fun child _ hchild => ?_
    obtain rfl := hchild
    refine Except.map_bind_congr (ih child _) fun l l' hl => ?_
    show Except.ok (deepMerge s.tree l.tree) = Except.ok (deepMerge t.tree l'.tree)
    rw [hst, hl]

theorem keyParts_ne_nil (key : String) : keyParts key ≠ [] := by
  unfold keyParts
  intro h
  exact List.splitOn_ne_nil _ _ (List.map_eq_nil_iff.mp h)

/-- **Provenance.** -/
theorem config_provenance (fs : FileSystem P) (hc : fs.Complete) (path : P) (hp : fs.resolve path ∈ fs.files) :
    -- a circular include is reported exactly when there is one
    ((∃ seen p, fs.loadConfigTree path = .error (.circular seen p)) ↔ fs.Circular path) ∧
    (¬ fs.Circular path → ∃ tree, fs.loadConfigTree path = .ok tree ∧
      ∀ key, key ≠ "" → "" ∉ keyParts key → ∃ history, fs.configKeyProvenance path key = .ok (tree, history) ∧
        -- a value comes from the file of the last entry
        (∀ v, resolve tree (keyParts key) = some v → v.isMapping = false →
          ∃ last, history.getLast? = some last ∧ last.defined = true ∧ last.value = v ∧ last.Owned fs (keyParts key)) ∧
        -- no value: the last entry took it away
        (resolve tree (keyParts key) = none → ∀ last, history.getLast? = some last → last.defined = false)) := by
  have hplain : (fs.Circular path → ∃ seen p, fs.load none (fs.files.card + 1) path ∅ = .error (.circular seen p)) ∧
      (¬ fs.Circular path → ∃ l, fs.load none (fs.files.card + 1) path ∅ = .ok l) := load_circular hc hp (Nat.lt_succ_self _)
  refine ⟨⟨fun ⟨seen, p, h⟩ => ?_, fun h => ?_⟩, fun h => ?_⟩
  · by_contra hno
    obtain ⟨l, hl⟩ := hplain.2 hno
    unfold FileSystem.loadConfigTree at h
    rw [hl] at h
    cases h
  · obtain ⟨seen, p, he⟩ := hplain.1 h
    refine ⟨seen, p, ?_⟩
    unfold FileSystem.loadConfigTree
    rw [he]
    rfl
  obtain ⟨l, hl⟩ := hplain.2 h
  have htree : fs.loadConfigTree path = .ok l.tree := congrArg (Except.map Loaded.tree) hl
  refine ⟨l.tree, htree, fun key hkey hempty => ?_⟩
  have htraced := (load_tree (some (keyParts key)) none (fs.files.card + 1) path ∅).trans htree
  cases hl' : fs.load (some (keyParts key)) (fs.files.card + 1) path ∅ with
  | error e =>
    rw [hl'] at htraced
    cases htraced
  | ok l' =>
    rw [hl'] at htraced
    have hsame : l'.tree = l.tree := Except.ok.inj htraced
    have htruthful := (load_truthful hc (keyParts_ne_nil key) hp hl').2
    rw [hsame] at htruthful
    refine ⟨l'.history, ?_, htruthful.value, htruthful.erased⟩
    unfold FileSystem.configKeyProvenance
    rw [if_neg (not_or.mpr ⟨hkey, hempty⟩), hl', ← hsame]
    rfl

/-- an arm split over three files, and two files that include each other -/
def benchFile : String → Option Yaml
  | "arm.yaml" => some (.mapping [("include", .list [.scalar (.str "hardware.yaml"), .scalar (.str "scenario.yaml")]), ("num_motors", .scalar (.int 8))])
  | "hardware.yaml" => some (.mapping [("num_motors", .scalar (.int 7)), ("safety", .mapping [("deadman", .scalar (.float "0.1")), ("limit", .scalar (.int 85))])])
  | "scenario.yaml" => some (.mapping [("safety", .mapping [("limit", .scalar (.int 70))])])
  | "a.yaml" => some (.mapping [("include", .list [.scalar (.str "b.yaml")])])
  | "b.yaml" => some (.mapping [("include", .scalar (.str "a.yaml"))])
  | _ => none

/-- names in one directory -/
def bench : FileSystem String where
  controlRoot := ""
  path entry :=
    match entry with
    | .scalar (.str text) => text
    | _ => ""
  isAbsolute _ := false
  parent _ := ""
  join _ name := name
  pathExists name := (benchFile name).isSome
  resolve name := name
  read := benchFile
  files := {"arm.yaml", "hardware.yaml", "scenario.yaml", "a.yaml", "b.yaml"}

theorem bench_child (p name : String) (hfile : (benchFile name).isSome = true) :
    bench.childPath p (.scalar (.str name)) = .ok name := by
  have hname : bench.candidate p name = name := by
    unfold FileSystem.candidate
    split_ifs <;> rfl
  show (if (benchFile (bench.candidate p name)).isSome then Except.ok (bench.candidate p name) else _) = _
  rw [hname, if_pos hfile]

theorem bench_complete : bench.Complete := by
  intro p hp
  have hmem : p = "arm.yaml" ∨ p = "hardware.yaml" ∨ p = "scenario.yaml" ∨ p = "a.yaml" ∨ p = "b.yaml" := by
    simpa [bench] using hp
  have hchild : ∀ name, (benchFile name).isSome = true → name ∈ bench.files →
      ∃ child, bench.childPath p (.scalar (.str name)) = .ok child ∧ bench.resolve child ∈ bench.files :=
    fun name hfile hmem => ⟨name, bench_child p name hfile, hmem⟩
  rcases hmem with rfl | rfl | rfl | rfl | rfl
  · refine ⟨_, _, rfl, by simp [Keyed, Yaml.Keyed], rfl, ?_⟩
    simpa using ⟨hchild "hardware.yaml" rfl (by decide), hchild "scenario.yaml" rfl (by decide)⟩
  · exact ⟨_, _, rfl, by simp [Keyed, Yaml.Keyed], rfl, nofun⟩
  · exact ⟨_, _, rfl, by simp [Keyed, Yaml.Keyed], rfl, nofun⟩
  · refine ⟨_, _, rfl, by simp [Keyed, Yaml.Keyed], rfl, ?_⟩
    simpa using hchild "b.yaml" rfl (by decide)
  · refine ⟨_, _, rfl, by simp [Keyed, Yaml.Keyed], rfl, ?_⟩
    simpa using hchild "a.yaml" rfl (by decide)

theorem config_provenance_bench :
    (∃ seen p, bench.loadConfigTree "a.yaml" = .error (.circular seen p)) ∧
    ∃ tree history, bench.configKeyProvenance "arm.yaml" "safety.limit" = .ok (tree, history) ∧
      (∃ v, resolve tree (keyParts "safety.limit") = some v ∧ v.isMapping = false) ∧
      ∀ v, resolve tree (keyParts "safety.limit") = some v → v.isMapping = false →
        ∃ last, history.getLast? = some last ∧ last.defined = true ∧ last.value = v ∧ last.Owned bench (keyParts "safety.limit") := by
  constructor
  · refine (config_provenance bench bench_complete "a.yaml" (by decide)).1.mpr ⟨["b.yaml", "a.yaml"], ?_, by decide⟩
    have hab : bench.Includes "a.yaml" "b.yaml" := ⟨_, _, _, _, rfl, rfl, List.mem_cons_self, bench_child _ "b.yaml" rfl, rfl⟩
    have hba : bench.Includes "b.yaml" "a.yaml" := ⟨_, _, _, _, rfl, rfl, List.mem_cons_self, bench_child _ "a.yaml" rfl, rfl⟩
    exact .cons_cons hab (.cons_cons hba (.singleton _))
  · obtain ⟨l, hload⟩ : ∃ l, bench.load none 6 "arm.yaml" ∅ = .ok l := ⟨_, rfl⟩
    have hok : ¬ bench.Circular "arm.yaml" := fun ⟨_, hchain, hdup⟩ => hdup (nodup_of_ok hload hchain).1
    obtain ⟨tree, htree, hall⟩ := (config_provenance bench bench_complete "arm.yaml" (by decide)).2 hok
    obtain ⟨history, hhistory, hvalue, -⟩ := hall "safety.limit" (by decide) (by decide +kernel)
    obtain rfl := Except.ok.inj htree
    exact ⟨_, history, hhistory, ⟨.scalar (.int 70), rfl, rfl⟩, hvalue⟩

end ArmControl.Config
