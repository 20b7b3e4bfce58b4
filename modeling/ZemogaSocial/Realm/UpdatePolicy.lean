import ZemogaSocial.Realm.ManagedObjects

namespace ZemogaSocial.ObjectStore

namespace Instruction

/-- A `set` that writes what is already there. -/
def redundant (rows : List Row) : Instruction → Bool
  | .set row column value isDefault =>
    decide ((Instruction.set row column value isDefault).apply rows = rows)
  | _ => false

/-- The instructions without the redundant ones. -/
def effective (rows : List Row) : List Instruction → List Instruction
  | [] => []
  | instruction :: rest =>
    if instruction.redundant rows then effective rows rest
    else instruction :: effective (instruction.apply rows) rest

end Instruction

theorem redundant_apply {rows : List Row} {instruction : Instruction}
    (idle : instruction.redundant rows = true) : instruction.apply rows = rows := by
  cases instruction with
  | set row column value isDefault => exact of_decide_eq_true idle
  | insertEmptyRow | setUnique | moveLastOver | clearTable => cases idle

theorem effective_append (rows : List Row) (first second : List Instruction) :
    Instruction.effective rows (first ++ second) = Instruction.effective rows first ++
      Instruction.effective (first.foldl Instruction.apply rows) second := by
  induction first generalizing rows with
  | nil => rfl
  | cons instruction rest ih =>
    rw [List.cons_append, Instruction.effective, Instruction.effective, List.foldl_cons]
    by_cases idle : instruction.redundant rows = true
    · rw [if_pos idle, if_pos idle, ih, redundant_apply idle]
    · rw [if_neg idle, if_neg idle, ih, List.cons_append]

/-- Two tables written from one: both hold what the instructions give, and the log of the second
    one has no redundant instruction. -/
structure Spares (before all modified : Table) (written : List Instruction) : Prop where
  rows : modified.rows = all.rows
  replayed : all.rows = written.foldl Instruction.apply before.rows
  all : all.log = before.log ++ written
  modified : modified.log = before.log ++ Instruction.effective before.rows written

theorem set_redundant_iff {rows : List Row} {row column : Nat} {cells : Row} (value : Value) (isDefault : Bool)
    (here : rows[row]? = some cells) (bound : column < cells.length) :
    (Instruction.set row column value isDefault).redundant rows = true ↔ cells[column]? = some value := by
  have inRange : row < rows.length := (List.getElem?_eq_some_iff.mp here).1
  rw [Instruction.redundant, decide_eq_true_iff, Instruction.apply]
  apply Iff.intro
  · intro same
    have changed := congrArg (fun list : List Row => list[row]?) same
    simp only [List.getElem?_modify, if_true, here, Option.map_eq_map, Option.map_some, Option.some.injEq]
      at changed
    rw [← changed, List.getElem?_set_self bound]
  · intro present
    exact Table.modify_same here (Table.set_same present)

namespace Spares

variable {before all modified : Table} {written : List Instruction} {instruction : Instruction}

theorem replay_step (spares : Spares before all modified written) :
    (all.perform instruction).rows = (written ++ [instruction]).foldl Instruction.apply before.rows := by
  rw [List.foldl_append, ← spares.replayed]
  rfl

theorem log_step (spares : Spares before all modified written) :
    (all.perform instruction).log = before.log ++ (written ++ [instruction]) := by
  rw [Table.perform, spares.all, List.append_assoc]

theorem effective_step (spares : Spares before all modified written) :
    Instruction.effective before.rows (written ++ [instruction]) =
      Instruction.effective before.rows written ++ Instruction.effective all.rows [instruction] := by
  rw [effective_append, ← spares.replayed]

theorem performed (spares : Spares before all modified written) (needed : ¬ instruction.redundant all.rows = true) :
    Spares before (all.perform instruction) (modified.perform instruction) (written ++ [instruction]) := by
  refine ⟨?_, spares.replay_step, spares.log_step, ?_⟩
  · rw [Table.perform, spares.rows]
    rfl
  · rw [spares.effective_step, Instruction.effective, if_neg needed, Instruction.effective, Table.perform,
      spares.modified, List.append_assoc]

theorem spared (spares : Spares before all modified written) (idle : instruction.redundant all.rows = true) :
    Spares before (all.perform instruction) modified (written ++ [instruction]) := by
  refine ⟨?_, spares.replay_step, spares.log_step, ?_⟩
  · exact spares.rows.trans (redundant_apply idle).symm
  · rw [spares.effective_step, Instruction.effective, if_pos idle, Instruction.effective, List.append_nil]
    exact spares.modified

theorem set {row column : Nat} {cells : Row} {value : Value} {isDefault : Bool}
    (spares : Spares before all modified written) (here : all.rows[row]? = some cells)
    (bound : column < cells.length) :
    Spares before (all.setPropertyValue .updateAll row column value isDefault)
      (modified.setPropertyValue .updateModified row column value isDefault)
      (written ++ [.set row column value isDefault]) := by
  have always : all.setPropertyValue .updateAll row column value isDefault =
      all.perform (.set row column value isDefault) := if_pos (.inl (by decide))
  have cell : modified.cell row column = cells[column]? := by
    rw [Table.cell, spares.rows, here]
    rfl
  have idle := set_redundant_iff value isDefault here bound
  rw [always]
  by_cases present : cells[column]? = some value
  · have unwritten : modified.setPropertyValue .updateModified row column value isDefault = modified := by
      simp [Table.setPropertyValue, cell, present]
    rw [unwritten]
    exact spares.spared (idle.mpr present)
  · have written : modified.setPropertyValue .updateModified row column value isDefault =
        modified.perform (.set row column value isDefault) := by
      simp [Table.setPropertyValue, cell, present]
    rw [written]
    exact spares.performed (mt idle.mp present)

end Spares

/-- The row that is written to, with a cell for each property. -/
def Addresses (schema : ObjectSchema) (rows : List Row) (row : Nat) : Prop :=
  ∃ cells, rows[row]? = some cells ∧ cells.length = schema.persistedProperties.length

theorem addresses_set {schema : ObjectSchema} {rows : List Row} {row column : Nat} {value : Value}
    (addresses : Addresses schema rows row) :
    Addresses schema (rows.modify row fun cells => cells.set column value) row := by
  obtain ⟨cells, here, width⟩ := addresses
  exact ⟨cells.set column value, by simp [here], by simpa using width⟩

variable {info : ClassInfo} {input : Input} {target : Object.Target}

/-- The loop takes the same branches under both policies: none of them reads the table. -/
theorem populate_spares {before all modified : Table} {written : List Instruction}
    {entries : List (Property × Nat)} (known : ∀ entry ∈ entries, entry ∈ info.properties)
    (spares : Spares before all modified written) (addresses : Addresses info.schema all.rows target.row) :
    (Object.populate info input .updateModified target entries modified).2 =
        (Object.populate info input .updateAll target entries all).2 ∧
      ∃ later, Spares before (Object.populate info input .updateAll target entries all).1
        (Object.populate info input .updateModified target entries modified).1 later := by
  induction entries generalizing all modified written with
  | nil => exact ⟨rfl, written, spares⟩
  | cons entry rest ih =>
    obtain ⟨prop, column⟩ := entry
    rw [List.forall_mem_cons] at known
    rw [Object.populate, Object.populate]
    by_cases skipped : (target.skipPrimary && prop.isPrimary) = true
    · rw [if_pos skipped, if_pos skipped]
      exact ih known.2 spares addresses
    · rw [if_neg skipped, if_neg skipped]
      cases passed : info.valueForProperty input prop column with
      | error error => exact ⟨rfl, written, spares⟩
      | ok given =>
        simp only
        split
        · exact ih known.2 spares addresses
        · split
          · exact ⟨rfl, written, spares⟩
          · cases filled : given.or (info.defaultValues prop.name) with
            | none => exact ih known.2 spares addresses
            | some value =>
              obtain ⟨cells, here, width⟩ := addresses
              have bound : column < cells.length := by
                rw [width]
                exact (List.getElem?_eq_some_iff.mp (ClassInfo.mem_properties.mp known.1)).1
              have always : all.setPropertyValue .updateAll target.row column (prop.unbox value) given.isNone =
                  all.perform (.set target.row column (prop.unbox value) given.isNone) := if_pos (.inl (by decide))
              have stays : Addresses info.schema
                  (all.setPropertyValue .updateAll target.row column (prop.unbox value) given.isNone).rows target.row := by
                rw [always]
                exact addresses_set ⟨cells, here, width⟩
              exact ih known.2 (spares.set here bound) stays

/-- A class with a primary key: the two policies look for the row in the same way, in a migration too. -/
theorem locate_updates {inMigration : Bool} {currentRow : Option Nat} {policy : CreatePolicy} {table : Table}
    (keyed : info.schema.primaryKeyProperty ≠ none) (updates : policy ≠ .forceCreate) :
    Object.locate info inMigration input policy currentRow table =
      Object.locate info false input .updateAll none table := by
  unfold Object.locate
  cases primary : info.schema.primaryKeyProperty with
  | none => exact absurd primary keyed
  | some entry => simp [updates]

theorem located_addresses {table located : Table} (keyed : info.schema.primaryKeyProperty ≠ none)
    (conforms : info.schema.Conforms table.rows)
    (found : Object.Located info input .updateAll table located target) :
    Addresses info.schema located.rows target.row ∧ ∃ written, Spares table located located written := by
  cases found with
  | @found prop column row key primary looked present updates =>
    obtain ⟨cells, here, _⟩ := Table.findFirst_some present
    have width := (conforms.fits cells (List.mem_of_getElem? here)).length
    exact ⟨⟨cells, here, width⟩, [], rfl, rfl, (List.append_nil _).symm, (List.append_nil _).symm⟩
  | current keyless updates => exact absurd keyless keyed
  | appended keyless => exact absurd keyless keyed
  | @keyed prop column key primary looked fresh =>
    have added := table.insertKeyed_rows info.schema.emptyRow column (prop.unbox key)
    refine ⟨⟨info.schema.emptyRow.set column (prop.unbox key), ?_, ?_⟩, _, rfl, rfl, rfl, rfl⟩
    · rw [added, List.getElem?_append_right (Nat.le_refl _)]
      simp
    · rw [List.length_set]
      exact info.schema.emptyRow_fits.length

/-- To the same effect and with the same outcome, `updateModified` writes what `updateAll` writes
    but for the values that are there already. -/
theorem update_policies_agree (info : ClassInfo) (inMigration : Bool) (input : Input) (currentRow : Option Nat)
    (table : Table) (keyed : info.schema.primaryKeyProperty ≠ none)
    (conforms : info.schema.Conforms table.rows) :
    (Object.create info inMigration input .updateModified currentRow table).2 =
        (Object.create info inMigration input .updateAll currentRow table).2 ∧
      ∃ written, Spares table (Object.create info inMigration input .updateAll currentRow table).1
        (Object.create info inMigration input .updateModified currentRow table).1 written := by
  have modified : Object.locate info inMigration input .updateModified currentRow table =
      Object.locate info false input .updateAll none table := locate_updates keyed (by decide)
  have all : Object.locate info inMigration input .updateAll currentRow table =
      Object.locate info false input .updateAll none table := locate_updates keyed (by decide)
  unfold Object.create
  rw [modified, all]
  cases located : Object.locate info false input .updateAll none table with
  | error error => exact ⟨rfl, [], rfl, rfl, (List.append_nil _).symm, (List.append_nil _).symm⟩
  | ok result =>
    obtain ⟨first, target⟩ := result
    obtain ⟨addresses, written, spares⟩ := located_addresses keyed conforms (Object.locate_located located)
    have known : ∀ entry ∈ info.properties, entry ∈ info.properties := fun _ member => member
    obtain ⟨outcome, rest⟩ := populate_spares known spares addresses
    refine ⟨?_, rest⟩
    simp only [outcome]

/-- A star for the one post that is stored, and a title that it has already. -/
def sampleChange : Input := .dictionary fun
  | "id" => some (.int 4)
  | "title" => some (.string "a")
  | "isFavorite" => some (.bool true)
  | _ => none

def storedPost : PostObject := { id := 4, title := "a" }

def storedTable : Table := { rows := [storedPost].map ManagedObject.row }

theorem storedTable_conforms : (ManagedObject.info PostObject).schema.Conforms storedTable.rows := by
  have distinct : ([storedPost].map RealmObject.primaryKey).Nodup := List.nodup_singleton _
  exact ManagedObject.rows_conform distinct

theorem update_policies_agree_star :
    (Object.create (ManagedObject.info PostObject) false sampleChange .updateModified none storedTable).2 = .ok 0 ∧
      ∃ written, Spares storedTable
        (Object.create (ManagedObject.info PostObject) false sampleChange .updateAll none storedTable).1
        (Object.create (ManagedObject.info PostObject) false sampleChange .updateModified none storedTable).1
        written :=
  ⟨rfl, (update_policies_agree _ false sampleChange none storedTable (by decide) storedTable_conforms).2⟩

end ZemogaSocial.ObjectStore
