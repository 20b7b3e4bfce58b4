import ZemogaSocial.Keyed.UnorderedRemoval

namespace Keyed

/-- A reference to a row as the last row is moved over the one at `index`. It is detached if it was to
    that one, also if that was the last. -/
def moveOver (last index : Nat) : Option Nat → Option Nat
  | none => none
  | some here => if here = index then none else if here = last then some index else some here

section Places

variable {α : Type*} {rows : List α} {row : α}

theorem moveLastOver_length (rows : List α) (index : Nat) :
    (Keyed.moveLastOver rows index).length = rows.length - 1 := by
  unfold Keyed.moveLastOver
  cases last : rows.getLast? with
  | none => simp [List.getLast?_eq_none_iff.mp last]
  | some row => simp

theorem moveLastOver_getElem? {index : Nat} (bound : index < rows.length) (i : Nat) :
    (moveLastOver rows index)[i]? =
      if i < rows.length - 1 then (if i = index then rows[rows.length - 1]? else rows[i]?) else none := by
  unfold moveLastOver
  rw [List.getLast?_eq_getElem?]
  have present : rows[rows.length - 1]? = some (rows[rows.length - 1]) := List.getElem?_eq_getElem (by omega)
  rw [present]
  simp only [List.getElem?_dropLast, List.length_set, List.getElem?_set]
  by_cases inside : i < rows.length - 1
  · by_cases here : i = index
    · subst here
      simp [inside, bound]
    · have other : index ≠ i := fun same => here same.symm
      simp [inside, here, other]
  · simp [inside]

theorem mem_moveLastOver {index : Nat} (member : row ∈ moveLastOver rows index) : row ∈ rows := by
  unfold moveLastOver at member
  cases last : rows.getLast? with
  | none => simp [last] at member
  | some final =>
    simp only [last] at member
    rcases List.mem_or_eq_of_mem_set (List.dropLast_subset _ member) with stored | rfl
    · exact stored
    · exact List.mem_of_getLast? last

theorem moveLastOver_nodup (distinct : rows.Nodup) (index : Nat) : (moveLastOver rows index).Nodup := by
  by_cases bound : index < rows.length
  · obtain ⟨moved, shape, perm⟩ := moveLastOver_append_cons (rows.take index) rows[index] (rows.drop (index + 1))
    have whole : rows.take index ++ rows[index] :: rows.drop (index + 1) = rows := by
      rw [List.getElem_cons_drop, List.take_append_drop]
    rw [whole, List.length_take_of_le (Nat.le_of_lt bound)] at shape
    rw [shape, (perm.append_left _).nodup_iff]
    have rest : (rows.take index ++ rows.drop (index + 1)).Sublist rows := by
      conv => rhs; rw [← whole]
      exact (List.sublist_cons_self _ _).append_left _
    exact distinct.sublist rest
  · unfold moveLastOver
    split
    · exact List.nodup_nil
    · rw [List.set_eq_of_length_le (Nat.le_of_not_lt bound)]
      exact distinct.sublist (List.dropLast_sublist rows)

variable [DecidableEq α]

theorem idxOf?_eq_iff (distinct : rows.Nodup) {i : Nat} : rows.idxOf? row = some i ↔ rows[i]? = some row := by
  rw [List.idxOf?_eq_some_iff]
  apply Iff.intro
  · intro found
    obtain ⟨bound, same, _⟩ := found
    rw [List.getElem?_eq_getElem bound, same]
  · intro present
    obtain ⟨bound, same⟩ := List.getElem?_eq_some_iff.mp present
    refine ⟨bound, same, ?_⟩
    intro j before other
    have position : j = i := (List.Nodup.getElem_inj_iff distinct).mp (other.trans same.symm)
    omega

/-- A reference that is moved as the rows are goes on pointing to its row. -/
theorem idxOf?_moveLastOver (distinct : rows.Nodup) {index : Nat} (bound : index < rows.length) (row : α) :
    (moveLastOver rows index).idxOf? row = moveOver (rows.length - 1) index (rows.idxOf? row) := by
  have kept := moveLastOver_nodup distinct index
  have only : ∀ {i j : Nat}, rows[i]? = some row → rows[j]? = some row → i = j := by
    intro i j left right
    have inside := (List.getElem?_eq_some_iff.mp left).1
    exact (List.getElem?_inj inside distinct).mp (left.trans right.symm)
  cases found : rows.idxOf? row with
  | none =>
    rw [List.idxOf?_eq_none_iff] at found
    rw [moveOver, List.idxOf?_eq_none_iff]
    intro member
    obtain ⟨i, there⟩ := List.mem_iff_getElem?.mp member
    rw [moveLastOver_getElem? bound] at there
    split at there
    · split at there
      · exact found (List.mem_of_getElem? there)
      · exact found (List.mem_of_getElem? there)
    · cases there
  | some here =>
    rw [idxOf?_eq_iff distinct] at found
    have inside := (List.getElem?_eq_some_iff.mp found).1
    rw [moveOver]
    by_cases removed : here = index
    · subst removed
      rw [if_pos rfl, List.idxOf?_eq_none_iff]
      intro member
      obtain ⟨i, there⟩ := List.mem_iff_getElem?.mp member
      rw [moveLastOver_getElem? bound] at there
      split at there
      · rename_i before
        split at there
        · have last := only found there
          omega
        · rename_i apart
          exact apart (only there found)
      · cases there
    · rw [if_neg removed]
      by_cases last : here = rows.length - 1
      · subst last
        have before : index < rows.length - 1 := by omega
        rw [if_pos rfl, idxOf?_eq_iff kept, moveLastOver_getElem? bound, if_pos before, if_pos rfl]
        exact found
      · have before : here < rows.length - 1 := by omega
        rw [if_neg last, idxOf?_eq_iff kept, moveLastOver_getElem? bound, if_pos before, if_neg removed]
        exact found

end Places

/-- Rows by their numbers: a row gets the next one as it is inserted, and keeps it when it is moved. -/
structure Roll where
  stored : List Nat
  inserted : Nat
  distinct : stored.Nodup
  known : ∀ number ∈ stored, number < inserted

namespace Roll

def ofLength (length : Nat) : Roll := ⟨List.range length, length, List.nodup_range, fun _ => List.mem_range.mp⟩

def insert (roll : Roll) : Roll where
  stored := roll.stored ++ [roll.inserted]
  inserted := roll.inserted + 1
  distinct := by
    rw [← List.concat_eq_append, List.nodup_concat]
    exact ⟨fun stored => Nat.lt_irrefl _ (roll.known _ stored), roll.distinct⟩
  known number member := by
    rcases List.mem_append.mp member with before | last
    · exact Nat.lt_succ_of_lt (roll.known number before)
    · rw [List.mem_singleton.mp last]
      exact Nat.lt_succ_self _

def moveLastOver (roll : Roll) (index : Nat) : Roll where
  stored := Keyed.moveLastOver roll.stored index
  inserted := roll.inserted
  distinct := moveLastOver_nodup roll.distinct index
  known number member := roll.known number (mem_moveLastOver member)

def clear (roll : Roll) : Roll := ⟨[], roll.inserted, List.nodup_nil, by simp⟩

/-- The rows that were stored before and are again. One that has been removed since comes back as another,
    so it gets a number that has not been given. -/
def restore (before after : Roll) : Roll where
  stored := before.stored.map fun number => if number ∈ after.stored then number else after.inserted + number
  inserted := after.inserted + before.inserted
  distinct := by
    apply before.distinct.map_on
    intro first _ second _ same
    split at same
    · split at same
      · exact same
      · rename_i stored _
        have known := after.known first stored
        omega
    · split at same
      · rename_i stored
        have known := after.known second stored
        omega
      · omega
  known number member := by
    obtain ⟨old, stored, rfl⟩ := List.mem_map.mp member
    have earlier := before.known old stored
    split
    · rename_i kept
      have known := after.known old kept
      omega
    · omega

/-- Where the row of this number is, if it is still stored. -/
def place (roll : Roll) (number : Nat) : Option Nat := roll.stored.idxOf? number

variable {roll : Roll} {number : Nat}

theorem place_eq_some {here : Nat} : roll.place number = some here ↔ roll.stored[here]? = some number :=
  idxOf?_eq_iff roll.distinct

theorem place_eq_none : roll.place number = none ↔ number ∉ roll.stored := List.idxOf?_eq_none_iff

theorem place_insert (other : number ≠ roll.inserted) : roll.insert.place number = roll.place number := by
  cases found : roll.place number with
  | none =>
    rw [place_eq_none] at found ⊢
    rw [insert, List.mem_append, List.mem_singleton]
    exact fun stored => stored.elim found other
  | some here =>
    rw [place_eq_some] at found ⊢
    have bound := (List.getElem?_eq_some_iff.mp found).1
    exact (List.getElem?_append_left bound).trans found

theorem place_moveLastOver {index : Nat} (bound : index < roll.stored.length) (number : Nat) :
    (roll.moveLastOver index).place number = moveOver (roll.stored.length - 1) index (roll.place number) :=
  idxOf?_moveLastOver roll.distinct bound number

end Roll

end Keyed
