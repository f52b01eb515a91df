import Mathlib.Data.List.Nodup
import Mathlib.Logic.Function.Basic

/-!
# Dictionaries that keep the order of insertion

* `Dict`                   the entries, the oldest first, with distinct keys;
* `get`, `set`, `pop`      a key that is set again keeps its place;
* `newest`                 only the last `n` entries;
* `mem_entries`            an entry is what its key gives.
-/

structure Dict (κ ν : Type) where
  entries : List (κ × ν) := []
  nodup : (entries.map Prod.fst).Nodup := by exact List.nodup_nil

namespace Dict

variable {κ ν : Type} [DecidableEq κ] {d : Dict κ ν} {k k' : κ} {v v' : ν}

def keys (d : Dict κ ν) : List κ := d.entries.map Prod.fst

def get (d : Dict κ ν) (k : κ) : Option ν := (d.entries.find? fun e => decide (e.1 = k)).map Prod.snd

/-- the entry of `k` with another value -/
def replace (k : κ) (v : ν) (e : κ × ν) : κ × ν := if e.1 = k then (k, v) else e

theorem replace_fst (k : κ) (v : ν) (e : κ × ν) : (replace k v e).1 = e.1 := by
  unfold replace
  split_ifs with h
  · exact h.symm
  · rfl

theorem map_replace (k : κ) (v : ν) (l : List (κ × ν)) : (l.map (replace k v)).map Prod.fst = l.map Prod.fst := by
  rw [List.map_map]
  exact List.map_congr_left fun e _ => replace_fst k v e

def set (d : Dict κ ν) (k : κ) (v : ν) : Dict κ ν :=
  if h : k ∈ d.keys then ⟨d.entries.map (replace k v), (map_replace k v d.entries).symm ▸ d.nodup⟩
  else ⟨d.entries ++ [(k, v)], by
    rw [List.map_append, List.map_singleton]
    exact List.Nodup.append d.nodup (List.nodup_singleton k) (List.disjoint_singleton.mpr h)⟩

def pop (d : Dict κ ν) (k : κ) : Dict κ ν :=
  ⟨d.entries.filter fun e => decide (e.1 ≠ k), (d.nodup.sublist (List.filter_sublist.map _))⟩

/-- the last `n` entries -/
def newest (d : Dict κ ν) (n : ℕ) : Dict κ ν :=
  ⟨d.entries.drop (d.entries.length - n), d.nodup.sublist ((List.drop_sublist _ _).map _)⟩

theorem mem_entries : (k, v) ∈ d.entries ↔ d.get k = some v := by
  obtain ⟨l, hl⟩ := d
  unfold get
  induction l with
  | nil => exact ⟨nofun, nofun⟩
  | cons e l ih =>
    rw [List.map_cons, List.nodup_cons] at hl
    rw [List.mem_cons, List.find?_cons]
    by_cases he : e.1 = k
    · rw [decide_eq_true he]
      constructor
      · rintro (h | h)
        · rw [← h]
          rfl
        · exact absurd (List.mem_map_of_mem (f := Prod.fst) h) (he ▸ hl.1)
      · intro h
        exact .inl (Prod.ext he.symm (Option.some.inj h).symm)
    · rw [decide_eq_false he]
      constructor
      · rintro (h | h)
        · exact absurd (congrArg Prod.fst h).symm he
        · exact (ih hl.2).mp h
      · exact fun h => .inr ((ih hl.2).mpr h)

theorem mem_keys : k ∈ d.keys ↔ ∃ v, d.get k = some v := by
  constructor
  · intro h
    obtain ⟨e, he, rfl⟩ := List.mem_map.mp h
    exact ⟨e.2, mem_entries.mp he⟩
  · rintro ⟨v, hv⟩
    exact List.mem_map.mpr ⟨(k, v), mem_entries.mpr hv, rfl⟩

theorem get_set : (d.set k v).get k' = if k' = k then some v else d.get k' := by
  have hiff : ∀ x, (d.set k v).get k' = some x ↔ (if k' = k then some v else d.get k') = some x := by
    intro x
    rw [← mem_entries]
    unfold set
    split_ifs with hk hkk hkk
    · subst hkk
      obtain ⟨w, hw⟩ := mem_keys.mp hk
      constructor
      · intro h
        obtain ⟨e, -, he⟩ := List.mem_map.mp h
        unfold replace at he
        split_ifs at he with h1
        · rw [Prod.mk.inj he |>.2]
        · exact absurd (congrArg Prod.fst he) h1
      · intro h
        rw [← Option.some.inj h]
        exact List.mem_map.mpr ⟨(k', w), mem_entries.mpr hw, if_pos rfl⟩
    · rw [← mem_entries]
      constructor
      · intro h
        obtain ⟨e, hmem, he⟩ := List.mem_map.mp h
        unfold replace at he
        split_ifs at he with h1
        · exact absurd (congrArg Prod.fst he).symm hkk
        · exact he ▸ hmem
      · exact fun h => List.mem_map.mpr ⟨(k', x), h, if_neg hkk⟩
    · subst hkk
      constructor
      · intro h
        rcases List.mem_append.mp h with h | h
        · exact absurd (mem_keys.mpr ⟨x, mem_entries.mp h⟩) hk
        · rw [Prod.mk.inj (List.mem_singleton.mp h) |>.2]
      · intro h
        rw [← Option.some.inj h]
        exact List.mem_append_right _ (List.mem_singleton_self _)
    · rw [← mem_entries]
      constructor
      · intro h
        rcases List.mem_append.mp h with h | h
        · exact h
        · exact absurd (Prod.mk.inj (List.mem_singleton.mp h)).1 hkk
      · exact fun h => List.mem_append_left _ h
  cases h : (if k' = k then some v else d.get k') with
  | some x => exact (hiff x).mpr h
  | none =>
    cases h' : (d.set k v).get k' with
    | none => rfl
    | some x =>
      rw [(hiff x).mp h'] at h
      cases h

@[simp] theorem get_set_self : (d.set k v).get k = some v := by rw [get_set, if_pos rfl]

theorem get_set_ne (h : k' ≠ k) : (d.set k v).get k' = d.get k' := by rw [get_set, if_neg h]

theorem mem_pop : (k', v) ∈ (d.pop k).entries ↔ k' ≠ k ∧ d.get k' = some v := by
  show (k', v) ∈ d.entries.filter _ ↔ _
  rw [List.mem_filter, mem_entries, decide_eq_true_iff, and_comm]

@[simp] theorem get_pop_self : (d.pop k).get k = none := by
  cases h : (d.pop k).get k with
  | none => rfl
  | some v => exact absurd rfl (mem_pop.mp (mem_entries.mpr h)).1

theorem get_pop_ne (h : k' ≠ k) : (d.pop k).get k' = d.get k' := by
  cases hg : d.get k' with
  | some v => exact mem_entries.mp (mem_pop.mpr ⟨h, hg⟩)
  | none =>
    cases hp : (d.pop k).get k' with
    | none => rfl
    | some v =>
      rw [(mem_pop.mp (mem_entries.mpr hp)).2] at hg
      cases hg

theorem get_newest {n : ℕ} (h : (d.newest n).get k = some v) : d.get k = some v :=
  mem_entries.mp (List.mem_of_mem_drop (mem_entries.mpr h))

omit [DecidableEq κ] in
theorem length_newest (n : ℕ) : (d.newest n).entries.length ≤ n := by
  show (d.entries.drop _).length ≤ n
  rw [List.length_drop]
  omega

/-- a key that was just set is among the newest, when no more than `n` were kept before -/
theorem mem_newest_set {n : ℕ} (hn : 0 < n) (hlen : d.entries.length ≤ n) : k ∈ ((d.set k v).newest n).keys := by
  refine List.mem_map.mpr ⟨(k, v), ?_, rfl⟩
  show (k, v) ∈ (d.set k v).entries.drop _
  by_cases hk : k ∈ d.keys
  · have hlen' : (d.set k v).entries.length = d.entries.length := by
      unfold set
      rw [dif_pos hk]
      exact List.length_map _
    rw [hlen', Nat.sub_eq_zero_of_le hlen, List.drop_zero]
    exact mem_entries.mpr get_set_self
  · have hset : (d.set k v).entries = d.entries ++ [(k, v)] := by
      unfold set
      rw [dif_neg hk]
    rw [hset, List.length_append, List.length_singleton, List.drop_append_of_le_length (by omega)]
    exact List.mem_append_right _ (List.mem_singleton_self _)

end Dict
