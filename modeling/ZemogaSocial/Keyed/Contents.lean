import Mathlib.Data.Finmap
import ZemogaSocial.Keyed.Table

namespace Keyed

variable {κ ρ ν : Type*} [DecidableEq κ]

/-- Change the value under a key that is present; an absent key stays absent. -/
def adjust (k : κ) (change : ν → ν) (map : Finmap fun _ : κ => ν) : Finmap fun _ : κ => ν :=
  match map.lookup k with
  | some value => map.insert k (change value)
  | none => map

def eraseAll (ks : List κ) (map : Finmap fun _ : κ => ν) : Finmap fun _ : κ => ν :=
  ks.foldl (fun map k => map.erase k) map

theorem lookup_adjust (k other : κ) (change : ν → ν) (map : Finmap fun _ : κ => ν) :
    (adjust k change map).lookup other =
      if other = k then (map.lookup k).map change else map.lookup other := by
  unfold adjust
  by_cases same : other = k
  · subst same
    cases found : map.lookup other with
    | none => simp [found]
    | some value => simp
  · cases found : map.lookup k with
    | none => simp [same]
    | some value => simp [same]

theorem lookup_eraseAll (ks : List κ) (k : κ) (map : Finmap fun _ : κ => ν) :
    (eraseAll ks map).lookup k = if k ∈ ks then none else map.lookup k := by
  induction ks generalizing map with
  | nil => rfl
  | cons head tail ih =>
    have first : (eraseAll (head :: tail) map).lookup k = _ := ih (map.erase head)
    rw [first]
    by_cases same : k = head
    · subst same
      simp
    · rw [Finmap.lookup_erase_ne same]
      simp [same]

theorem eraseAll_congr {left right : List κ} (same : ∀ k, k ∈ left ↔ k ∈ right)
    (map : Finmap fun _ : κ => ν) : eraseAll left map = eraseAll right map := by
  apply Finmap.ext_lookup
  intro k
  simp only [lookup_eraseAll, same]

namespace Table

variable {key : ρ → κ}

/-- What a table stores, without its order: the value under each key. -/
def contents (value : ρ → ν) (table : Table key) : Finmap fun _ : κ => ν :=
  (table.rows.map fun row => (⟨key row, value row⟩ : Sigma fun _ : κ => ν)).toFinmap

theorem lookup_contents {value : ρ → ν} {table : Table key} {k : κ} {v : ν} :
    (table.contents value).lookup k = some v ↔ ∃ row ∈ table.rows, key row = k ∧ value row = v := by
  have keys : (table.rows.map fun row => (⟨key row, value row⟩ : Sigma fun _ : κ => ν)).NodupKeys := by
    rw [List.NodupKeys, List.keys, List.map_map]
    exact table.distinct
  unfold contents
  rw [Finmap.dlookup_list_toFinmap, ← Option.mem_def, List.mem_dlookup_iff keys, List.mem_map]
  apply Iff.intro
  · intro entry
    rcases entry with ⟨row, member, same⟩
    cases same
    exact ⟨row, member, rfl, rfl⟩
  · intro entry
    rcases entry with ⟨row, member, sameKey, sameValue⟩
    subst sameKey sameValue
    exact ⟨row, member, rfl⟩

theorem mem_contents {value : ρ → ν} {table : Table key} {k : κ} :
    k ∈ table.contents value ↔ k ∈ table.keys := by
  rw [Finmap.mem_iff, mem_keys]
  apply Iff.intro
  · intro entry
    rcases entry with ⟨v, found⟩
    obtain ⟨row, member, same, _⟩ := lookup_contents.mp found
    exact ⟨row, member, same⟩
  · intro entry
    rcases entry with ⟨row, member, same⟩
    exact ⟨value row, lookup_contents.mpr ⟨row, member, same, rfl⟩⟩

theorem contents_eq {value : ρ → ν} {table : Table key} {map : Finmap fun _ : κ => ν}
    (agree : ∀ k v, (∃ row ∈ table.rows, key row = k ∧ value row = v) ↔ map.lookup k = some v) :
    table.contents value = map := by
  apply Finmap.ext_lookup
  intro k
  apply Option.ext
  intro v
  rw [lookup_contents]
  exact agree k v

theorem contents_empty (value : ρ → ν) : (empty : Table key).contents value = ∅ := by
  apply contents_eq
  intro k v
  simp

theorem contents_add {value : ρ → ν} {table result : Table key} {row : ρ}
    (added : table.add row = .ok result) :
    result.contents value = (table.contents value).insert (key row) (value row) := by
  obtain ⟨fresh, rows⟩ := add_result added
  apply contents_eq
  intro k v
  rw [rows]
  by_cases same : k = key row
  · subst same
    rw [Finmap.lookup_insert]
    apply Iff.intro
    · intro entry
      rcases entry with ⟨other, member, sameKey, sameValue⟩
      rcases List.mem_append.mp member with old | new
      · exact absurd (sameKey ▸ key_mem old) fresh
      · rw [← sameValue, List.mem_singleton.mp new]
    · intro same
      exact ⟨row, by simp, rfl, Option.some.inj same⟩
  · rw [Finmap.lookup_insert_of_ne _ same, lookup_contents]
    apply Iff.intro
    · intro entry
      rcases entry with ⟨other, member, sameKey, sameValue⟩
      rcases List.mem_append.mp member with old | new
      · exact ⟨other, old, sameKey, sameValue⟩
      · exact absurd (by rw [← sameKey, List.mem_singleton.mp new]) same
    · intro entry
      rcases entry with ⟨other, member, rest⟩
      exact ⟨other, List.mem_append_left _ member, rest⟩

theorem contents_addEach {value : ρ → ν} {table result : Table key} {added : List ρ}
    (ok : table.addEach added = .ok result) :
    result.contents value =
      added.foldl (fun map row => map.insert (key row) (value row)) (table.contents value) := by
  induction added generalizing table with
  | nil => cases ok; rfl
  | cons row rest ih =>
    rw [addEach] at ok
    cases first : table.add row with
    | error k =>
      rw [first] at ok
      cases ok
    | ok middle =>
      rw [first] at ok
      rw [List.foldl_cons, ← contents_add first]
      exact ih ok

theorem contents_update {value : ρ → ν} {table : Table key} {p : ρ → Bool} {change : ρ → ρ}
    (same : ∀ row, key (change row) = key row) {k : κ} {effect : ν → ν}
    (selects : ∀ row, p row = true ↔ key row = k)
    (effects : ∀ row, value (change row) = effect (value row)) :
    (table.update p change same).contents value = adjust k effect (table.contents value) := by
  apply contents_eq
  intro other v
  rw [lookup_adjust]
  split
  · rename_i hit
    subst hit
    rw [Option.map_eq_some_iff]
    apply Iff.intro
    · intro entry
      rcases entry with ⟨row, member, sameKey, sameValue⟩
      obtain ⟨old, stored, rfl⟩ := mem_update.mp member
      split at sameKey
      · rename_i selected
        rw [if_pos selected, effects] at sameValue
        exact ⟨value old, lookup_contents.mpr ⟨old, stored, (selects old).mp selected, rfl⟩, sameValue⟩
      · rename_i skipped
        exact absurd ((selects old).mpr sameKey) skipped
    · intro entry
      rcases entry with ⟨before, found, sameValue⟩
      obtain ⟨old, stored, sameKey, rfl⟩ := lookup_contents.mp found
      refine ⟨change old, mem_update.mpr ⟨old, stored, if_pos ((selects old).mpr sameKey)⟩, ?_, ?_⟩
      · exact (same old).trans sameKey
      · exact (effects old).trans sameValue
  · rename_i different
    rw [lookup_contents]
    apply Iff.intro
    · intro entry
      rcases entry with ⟨row, member, sameKey, sameValue⟩
      obtain ⟨old, stored, rfl⟩ := mem_update.mp member
      split at sameKey
      · rename_i selected
        exact absurd (sameKey.symm.trans ((same old).trans ((selects old).mp selected))) different
      · rename_i skipped
        rw [if_neg skipped] at sameValue
        exact ⟨old, stored, sameKey, sameValue⟩
    · intro entry
      rcases entry with ⟨old, stored, sameKey, sameValue⟩
      have skipped : ¬ p old = true :=
        fun hit => different (sameKey.symm.trans ((selects old).mp hit))
      exact ⟨old, mem_update.mpr ⟨old, stored, if_neg skipped⟩, sameKey, sameValue⟩

theorem contents_remove {value : ρ → ν} {table : Table key} {p : ρ → Bool} {k : κ}
    (selects : ∀ row, p row = true ↔ key row = k) :
    (table.remove p).contents value = (table.contents value).erase k := by
  apply contents_eq
  intro other v
  by_cases hit : other = k
  · subst hit
    rw [Finmap.lookup_erase]
    apply Iff.intro
    · intro entry
      rcases entry with ⟨row, member, sameKey, _⟩
      have skipped := (mem_remove.mp member).2
      rw [(selects row).mpr sameKey] at skipped
      cases skipped
    · intro absent
      cases absent
  · rw [Finmap.lookup_erase_ne hit, lookup_contents]
    apply Iff.intro
    · intro entry
      rcases entry with ⟨row, member, rest⟩
      exact ⟨row, (mem_remove.mp member).1, rest⟩
    · intro entry
      rcases entry with ⟨row, member, sameKey, sameValue⟩
      have skipped : p row = false := by
        rw [Bool.eq_false_iff]
        intro selected
        exact hit (sameKey.symm.trans ((selects row).mp selected))
      exact ⟨row, mem_remove.mpr ⟨member, skipped⟩, sameKey, sameValue⟩

end Table

end Keyed
