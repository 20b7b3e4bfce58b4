import ZemogaSocial.Keyed.UnorderedRemoval

namespace Keyed

/-- Rows in table order, no two under one key. -/
structure Table {κ ρ : Type*} (key : ρ → κ) where
  rows : List ρ
  distinct : (rows.map key).Nodup

namespace Table

variable {κ ρ : Type*} {key : ρ → κ}

def keys (table : Table key) : List κ := table.rows.map key

def empty : Table key := ⟨[], List.nodup_nil⟩

@[simp] theorem empty_rows : (empty : Table key).rows = [] := rfl

@[ext] theorem ext {left right : Table key} (rows : left.rows = right.rows) : left = right := by
  cases left; cases right; cases rows; rfl

theorem mem_keys {table : Table key} {k : κ} : k ∈ table.keys ↔ ∃ row ∈ table.rows, key row = k :=
  List.mem_map

theorem key_mem {table : Table key} {row : ρ} (member : row ∈ table.rows) : key row ∈ table.keys :=
  List.mem_map_of_mem member

theorem row_unique {table : Table key} {left right : ρ} (hl : left ∈ table.rows)
    (hr : right ∈ table.rows) (same : key left = key right) : left = right :=
  List.inj_on_of_nodup_map table.distinct hl hr same

theorem filter_key {table : Table key} {row : ρ} {p : ρ → Bool} (stored : row ∈ table.rows)
    (selects : ∀ other, p other = true ↔ key other = key row) : table.rows.filter p = [row] := by
  have distinct : (table.rows.filter p).Nodup := table.distinct.of_map.filter _
  apply List.perm_singleton.mp
  apply (List.perm_ext_iff_of_nodup distinct (List.nodup_singleton _)).mpr
  intro other
  rw [List.mem_filter, selects, List.mem_singleton]
  apply Iff.intro
  · intro given
    rcases given with ⟨member, same⟩
    exact row_unique member stored same
  · intro same
    subst same
    exact ⟨stored, rfl⟩

theorem keys_eq_nil {table : Table key} : table.keys = [] ↔ table.rows = [] := List.map_eq_nil_iff

def update (table : Table key) (p : ρ → Bool) (change : ρ → ρ)
    (same : ∀ row, key (change row) = key row) : Table key where
  rows := table.rows.map fun row => if p row then change row else row
  distinct := by
    have keysKept : (key ∘ fun row => if p row then change row else row) = key := by
      funext row
      simp only [Function.comp_apply]
      split
      · exact same row
      · rfl
    rw [List.map_map, keysKept]
    exact table.distinct

theorem update_rows (table : Table key) (p : ρ → Bool) (change : ρ → ρ)
    (same : ∀ row, key (change row) = key row) :
    (table.update p change same).rows = table.rows.map fun row => if p row then change row else row :=
  rfl

theorem mem_update {table : Table key} {p : ρ → Bool} {change : ρ → ρ}
    {same : ∀ row, key (change row) = key row} {row : ρ} :
    row ∈ (table.update p change same).rows ↔
      ∃ old ∈ table.rows, (if p old then change old else old) = row := List.mem_map

theorem filter_update {table : Table key} {p : ρ → Bool} {change : ρ → ρ}
    (same : ∀ row, key (change row) = key row) (stays : ∀ row, p (change row) = p row) :
    (table.update p change same).rows.filter p = (table.rows.filter p).map change := by
  have unmoved : (p ∘ fun row => if p row then change row else row) = p := by
    funext row
    rw [Function.comp_apply]
    split
    · exact stays row
    · rfl
  rw [update_rows, List.filter_map, unmoved]
  apply List.map_congr_left
  intro row member
  rw [if_pos (List.mem_filter.mp member).2]

theorem update_keys (table : Table key) (p : ρ → Bool) (change : ρ → ρ)
    (same : ∀ row, key (change row) = key row) : (table.update p change same).keys = table.keys := by
  simp only [keys, update_rows, List.map_map]
  apply List.map_congr_left
  intro row _
  simp only [Function.comp_apply]
  split
  · exact same row
  · rfl

def remove (table : Table key) (p : ρ → Bool) : Table key where
  rows := removeUnordered p table.rows
  distinct := by
    rw [((removeUnordered_perm p table.rows).map key).nodup_iff]
    exact table.distinct.sublist (List.filter_sublist.map key)

theorem mem_remove {table : Table key} {p : ρ → Bool} {row : ρ} :
    row ∈ (table.remove p).rows ↔ row ∈ table.rows ∧ p row = false := mem_removeUnordered

section Add

variable [DecidableEq κ]

/-- Append a row, or raise the key it shares with a stored one. -/
def add (table : Table key) (row : ρ) : Except κ (Table key) :=
  if present : key row ∈ table.keys then .error (key row)
  else .ok ⟨table.rows ++ [row], by
    rw [List.map_append, List.nodup_append]
    refine ⟨table.distinct, List.nodup_singleton _, ?_⟩
    intro left hl right hr same
    rw [List.map_singleton, List.mem_singleton] at hr
    exact present (hr ▸ same ▸ hl)⟩

theorem add_ok {table : Table key} {row : ρ} (fresh : key row ∉ table.keys) :
    ∃ result, table.add row = .ok result ∧ result.rows = table.rows ++ [row] :=
  ⟨_, dif_neg fresh, rfl⟩

theorem add_error {table : Table key} {row : ρ} (present : key row ∈ table.keys) :
    table.add row = .error (key row) := dif_pos present

theorem add_result {table result : Table key} {row : ρ} (added : table.add row = .ok result) :
    key row ∉ table.keys ∧ result.rows = table.rows ++ [row] := by
  by_cases present : key row ∈ table.keys
  · rw [add_error present] at added
    cases added
  · obtain ⟨appended, ok, rows⟩ := add_ok present
    rw [ok] at added
    cases added
    exact ⟨present, rows⟩

/-- Add the rows one by one. A raise ends the loop and keeps what was added before it. -/
def addEach (table : Table key) : List ρ → Except (κ × Table key) (Table key)
  | [] => .ok table
  | row :: rest =>
    match table.add row with
    | .ok result => result.addEach rest
    | .error k => .error (k, table)

/-- All that the loop can do: append every row, or stop at the first one whose key is taken. -/
theorem addEach_cases (table : Table key) (added : List ρ) :
    (∃ result, table.addEach added = .ok result ∧ result.rows = table.rows ++ added) ∨
    (∃ done row rest result, added = done ++ row :: rest ∧
      table.addEach added = .error (key row, result) ∧ result.rows = table.rows ++ done ∧
      key row ∈ result.keys) := by
  induction added generalizing table with
  | nil => exact .inl ⟨table, rfl, by simp⟩
  | cons row rest ih =>
    by_cases present : key row ∈ table.keys
    · exact .inr ⟨[], row, rest, table, rfl, by rw [addEach, add_error present], by simp, present⟩
    · obtain ⟨first, ok, rows⟩ := add_ok present
      have unfolded : table.addEach (row :: rest) = first.addEach rest := by rw [addEach, ok]
      rcases ih first with ⟨result, all, final⟩ | ⟨done, stop, later, result, split, raised, kept, taken⟩
      · exact .inl ⟨result, unfolded.trans all, by rw [final, rows, List.append_assoc, List.singleton_append]⟩
      · refine .inr ⟨row :: done, stop, later, result, by rw [split, List.cons_append],
          unfolded.trans raised, ?_, taken⟩
        rw [kept, rows, List.append_assoc, List.singleton_append]

theorem addEach_rows {table result : Table key} {added : List ρ}
    (ok : table.addEach added = .ok result) : result.rows = table.rows ++ added := by
  rcases addEach_cases table added with ⟨all, h, rows⟩ | ⟨_, _, _, _, _, h, _⟩
  · rw [ok] at h
    cases h
    exact rows
  · rw [ok] at h
    cases h

theorem addEach_fresh {table result : Table key} {added : List ρ}
    (ok : table.addEach added = .ok result) :
    (added.map key).Nodup ∧ ∀ row ∈ added, key row ∉ table.keys := by
  have distinct := result.distinct
  rw [addEach_rows ok, List.map_append, List.nodup_append] at distinct
  refine ⟨distinct.2.1, ?_⟩
  intro row member stored
  exact distinct.2.2 _ stored _ (List.mem_map_of_mem member) rfl

theorem addEach_ok_iff {table : Table key} {added : List ρ} :
    (∃ result, table.addEach added = .ok result) ↔
      (added.map key).Nodup ∧ ∀ row ∈ added, key row ∉ table.keys := by
  constructor
  · intro given
    rcases given with ⟨result, ok⟩
    exact addEach_fresh ok
  · intro given
    rcases given with ⟨distinct, fresh⟩
    rcases addEach_cases table added with ⟨result, ok, _⟩ | ⟨done, row, rest, result, split, _, kept, taken⟩
    · exact ⟨result, ok⟩
    · exfalso
      obtain ⟨other, stored, same⟩ := mem_keys.mp taken
      rw [kept, List.mem_append] at stored
      rw [split, List.map_append, List.map_cons, List.nodup_append] at distinct
      rcases stored with old | new
      · exact fresh row (by simp [split]) (same ▸ key_mem old)
      · exact distinct.2.2 _ (List.mem_map_of_mem new) _ (List.mem_cons_self) same

end Add

end Table

end Keyed
