import ZemogaSocial.Keyed.References
import ZemogaSocial.Realm.Conformance
import ZemogaSocial.Transition.Refinement

namespace ZemogaSocial.ObjectStore

open Transition

/-- A row is moved over one that is there. -/
def Instruction.Attached (rows : List Row) : Instruction → Prop
  | .moveLastOver row => row < rows.length
  | _ => True

/-- What instructions have made of a table. -/
def Performed (before after : Table) : Prop :=
  ∃ instructions, after = before.performAll instructions ∧
    Accepted Instruction.apply Instruction.Attached before.rows instructions

namespace Performed

variable {first second third : Table}

theorem refl (table : Table) : Performed table table := ⟨[], table.performAll_nil.symm, True.intro⟩

theorem trans (before : Performed first second) (after : Performed second third) : Performed first third := by
  obtain ⟨earlier, rfl, attached⟩ := before
  obtain ⟨later, rfl, following⟩ := after
  exact ⟨earlier ++ later, first.performAll_performAll earlier later, accepted_append.mpr ⟨attached, following⟩⟩

theorem single {instruction : Instruction} (attached : instruction.Attached first.rows) :
    Performed first (first.perform instruction) := ⟨[instruction], rfl, attached, True.intro⟩

/-- Only a row that is removed has to be there. -/
theorem of_kept (table : Table) {instructions : List Instruction}
    (kept : ∀ instruction ∈ instructions, ∀ rows, instruction.Attached rows) :
    Performed table (table.performAll instructions) := by
  refine ⟨instructions, rfl, ?_⟩
  generalize table.rows = rows
  induction instructions generalizing rows with
  | nil => exact True.intro
  | cons instruction rest ih =>
    rw [List.forall_mem_cons] at kept
    exact ⟨kept.1 rows, ih kept.2 _⟩

end Performed

variable {info : ClassInfo}

theorem create_performs (input : Input) (policy : CreatePolicy) (currentRow : Option Nat) (table : Table) :
    Performed table (Object.create info false input policy currentRow table).1 := by
  unfold Object.create
  cases located : Object.locate info false input policy currentRow table with
  | error error => exact .refl table
  | ok result =>
    obtain ⟨first, target⟩ := result
    have known : ∀ entry ∈ info.properties, entry ∈ info.properties := fun _ member => member
    obtain ⟨sets, populated, allSets⟩ := Object.populate_sets known input policy target first
    have begun : Performed table first := by
      cases Object.locate_located located with
      | found | current => exact .refl table
      | keyed | appended => exact .of_kept table (by simp [Instruction.Attached])
    have written : Performed first (first.performAll sets) := by
      apply Performed.of_kept
      intro instruction member rows
      obtain ⟨_, _, _, _, rfl, _⟩ := allSets instruction member
      exact True.intro
    rw [← populated] at written
    exact begun.trans written

theorem makeSetter_performs (prop : Property) (column row : Nat) (argument : Value) (table : Table) :
    Performed table (Object.makeSetter prop column row argument table).1 := by
  unfold Object.makeSetter
  split
  · exact .refl table
  · split
    · split
      · exact .single True.intro
      · split <;> exact .refl table
    · exact .refl table

theorem perform_performs (info : ClassInfo) (operation : Operation) (table : Table) :
    Performed table (operation.perform info table).1 := by
  cases operation with
  | create input policy currentRow => exact create_performs input policy currentRow table
  | clear => exact .single True.intro
  | delete row =>
    rw [Operation.perform]
    split
    · rename_i bound
      exact .single bound
    · exact .refl table
  | set row key value =>
    rw [Operation.perform, Object.dynamicValidatedSet]
    split
    · split
      · exact .refl table
      · split
        · exact .refl table
        · split
          · unfold Table.setPropertyValue
            split
            · exact .single True.intro
            · exact .refl table
          · exact .refl table
    · exact .refl table
  | setValue row key value =>
    rw [Operation.perform, Object.setValue]
    split
    · exact .refl table
    · exact makeSetter_performs _ _ row _ table

theorem performEach_performs (info : ClassInfo) (operations : List Operation) (table : Table) :
    Performed table (Operation.performEach info table operations).1 := by
  induction operations generalizing table with
  | nil => exact .refl table
  | cons operation rest ih =>
    have first := perform_performs info operation table
    rw [Operation.performEach]
    split
    · rename_i next ended
      rw [ended] at first
      exact first.trans (ih next)
    · rename_i next error ended
      rw [ended] at first
      exact first

theorem performEach_setValues {prop : Property} {column : Nat} {key : String} {value argument : Value}
    (called : info.coding.call key value = .ok (prop, column, argument)) (other : prop.isPrimary = false)
    (held : prop.holds argument = true) (indices : List Nat) (table : Table)
    (attached : ∀ i ∈ indices, i < table.rows.length) :
    ∃ log, Operation.performEach info table (indices.map fun row => .setValue row key value) =
      (⟨indices.foldl (fun rows i => rows.modify i fun cells => cells.set column argument) table.rows, log⟩,
        .ok ()) := by
  induction indices generalizing table with
  | nil => exact ⟨table.log, rfl⟩
  | cons row rest ih =>
    rw [List.forall_mem_cons] at attached
    have set : Operation.perform info table (.setValue row key value) =
        (table.perform (.set row column argument false), .ok ()) := by
      simp only [Operation.perform, Object.setValue, called, Object.makeSetter, other, attached.1, held, if_true,
        Bool.false_eq_true, if_false]
    have unmoved : (table.perform (.set row column argument false)).rows.length = table.rows.length :=
      List.length_modify _ _ _
    have later : ∀ i ∈ rest, i < (table.perform (.set row column argument false)).rows.length := by
      intro i member
      rw [unmoved]
      exact attached.2 i member
    obtain ⟨log, performed⟩ := ih (table.perform (.set row column argument false)) later
    refine ⟨log, ?_⟩
    rw [List.map_cons, Operation.performEach, set]
    exact performed

/-- From the end on, each place that is still to come is one of a row. -/
theorem performEach_deletes {indices : List Nat} (descending : indices.Pairwise (· > ·)) (table : Table)
    (attached : ∀ i ∈ indices, i < table.rows.length) :
    ∃ log, Operation.performEach info table (indices.map .delete) =
      (⟨indices.foldl Keyed.moveLastOver table.rows, log⟩, .ok ()) := by
  induction indices generalizing table with
  | nil => exact ⟨table.log, rfl⟩
  | cons row rest ih =>
    obtain ⟨below, later⟩ := List.pairwise_cons.mp descending
    rw [List.forall_mem_cons] at attached
    have removed : Operation.perform info table (.delete row) = (table.perform (.moveLastOver row), .ok ()) := by
      rw [Operation.perform, if_pos attached.1]
    have shorter : ∀ i ∈ rest, i < (table.perform (.moveLastOver row)).rows.length := by
      intro i member
      have less := below i member
      have length : (table.perform (.moveLastOver row)).rows.length = table.rows.length - 1 :=
        Keyed.moveLastOver_length _ _
      omega
    obtain ⟨log, rest⟩ := ih later (table.perform (.moveLastOver row)) shorter
    refine ⟨log, ?_⟩
    rw [List.map_cons, Operation.performEach, removed]
    exact rest

/-- The rows that a condition finds, deleted from the last to the first. -/
theorem performEach_deletions (info : ClassInfo) (condition : Row → Bool) (table : Table) :
    ∃ log, Operation.performEach info table ((table.rows.findIdxs condition).reverse.map .delete) =
      (⟨Keyed.removeUnordered condition table.rows, log⟩, .ok ()) := by
  have descending : (table.rows.findIdxs condition).reverse.Pairwise (· > ·) :=
    List.pairwise_reverse.mpr List.pairwise_findIdxs
  have attached : ∀ i ∈ (table.rows.findIdxs condition).reverse, i < table.rows.length := by
    intro i member
    have bound := List.lt_add_of_mem_findIdxs i (List.mem_reverse.mp member)
    omega
  obtain ⟨log, performed⟩ := performEach_deletes descending table attached
  refine ⟨log, ?_⟩
  rw [performed, List.foldl_reverse]
  rfl

end ZemogaSocial.ObjectStore
