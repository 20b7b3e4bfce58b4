import ZemogaSocial.Realm.UpdatePolicy

namespace ZemogaSocial.ObjectStore

section Cells

variable {α β : Type*}

/-- Each entry may write the cell at its place. -/
def writeCells (place : β → Nat) (cell : β → Option α) (entries : List β) (cells : List α) : List α :=
  entries.foldl (fun cells entry => match cell entry with
    | some value => cells.set (place entry) value
    | none => cells) cells

variable {place : β → Nat} {cell : β → Option α}

theorem writeCells_nil : writeCells place cell [] = id := rfl

theorem writeCells_cons (entry : β) (rest : List β) (cells : List α) :
    writeCells place cell (entry :: rest) cells =
      writeCells place cell rest (writeCells place cell [entry] cells) := rfl

theorem writeCells_other {entries : List β} {i : Nat} (elsewhere : ∀ entry ∈ entries, place entry ≠ i)
    (cells : List α) : (writeCells place cell entries cells)[i]? = cells[i]? := by
  induction entries generalizing cells with
  | nil => rfl
  | cons entry rest ih =>
    rw [List.forall_mem_cons] at elsewhere
    rw [writeCells_cons, ih elsewhere.2]
    unfold writeCells
    cases written : cell entry <;> simp [written, List.getElem?_set_ne elsewhere.1]

theorem writeCells_here {entries : List β} {entry : β} (distinct : (entries.map place).Nodup)
    (member : entry ∈ entries) (cells : List α) :
    (writeCells place cell entries cells)[place entry]? =
      cells[place entry]?.map fun old => (cell entry).getD old := by
  induction entries generalizing cells with
  | nil => cases member
  | cons first rest ih =>
    rw [List.map_cons, List.nodup_cons] at distinct
    rw [writeCells_cons]
    rcases List.mem_cons.mp member with rfl | later
    · have elsewhere : ∀ other ∈ rest, place other ≠ place entry := by
        intro other listed same
        exact distinct.1 (same ▸ List.mem_map_of_mem listed)
      rw [writeCells_other elsewhere]
      unfold writeCells
      cases written : cell entry with
      | none => simp [written]
      | some value => by_cases bound : place entry < cells.length <;> simp [written, bound]
    · have apart : place first ≠ place entry := by
        intro same
        exact distinct.1 (same ▸ List.mem_map_of_mem later)
      have kept : (writeCells place cell [first] cells)[place entry]? = cells[place entry]? :=
        writeCells_other (by simpa using apart) cells
      rw [ih distinct.2 later, kept]

end Cells

variable {info : ClassInfo} {input : Input}

namespace Object

/-- What the loop of `create` sets a property to: the unboxed value passed in or, in a new row, the
    default. -/
def assignment (info : ClassInfo) (input : Input) (target : Target) (entry : Property × Nat) :
    Except Error (Option Value) :=
  if target.skipPrimary && entry.1.isPrimary then .ok none
  else match info.valueForProperty input entry.1 entry.2 with
    | .error error => .error error
    | .ok given =>
      if !target.created && given.isNone then .ok none
      else if ((given.or (info.defaultValues entry.1.name)).getD .null = .null ∧ entry.1.isNullable = false) ∧
          (entry.1.isPrimary = true ∨ input.allowMissing = false) then
        .error (.missingPropertyValue info.schema.name entry.1.name)
      else .ok ((given.or (info.defaultValues entry.1.name)).map entry.1.unbox)

def assigned (info : ClassInfo) (input : Input) (target : Target) (entry : Property × Nat) : Option Value :=
  match assignment info input target entry with
  | .ok cell => cell
  | .error _ => none

theorem setPropertyValue_rows (table : Table) (policy : CreatePolicy) (row column : Nat) (cell : Value)
    (isDefault : Bool) : (table.setPropertyValue policy row column cell isDefault).rows =
      table.rows.modify row fun cells => cells.set column cell := by
  unfold Table.setPropertyValue
  split
  · rfl
  · rename_i unwritten
    simp only [not_or, not_not] at unwritten
    obtain ⟨cells, here, same⟩ := Table.cell_eq_some.mp unwritten.2
    exact (Table.modify_same here (Table.set_same same)).symm

theorem populate_cons (policy : CreatePolicy) (target : Target) (entry : Property × Nat)
    (rest : List (Property × Nat)) (table : Table) :
    ∃ isDefault, populate info input policy target (entry :: rest) table =
      match assignment info input target entry with
      | .error error => (table, .error error)
      | .ok none => populate info input policy target rest table
      | .ok (some cell) => populate info input policy target rest
          (table.setPropertyValue policy target.row entry.2 cell isDefault) := by
  obtain ⟨prop, column⟩ := entry
  rw [populate, assignment]
  by_cases skipped : (target.skipPrimary && prop.isPrimary) = true
  · simp only [skipped, if_true]
    exact ⟨false, trivial⟩
  · simp only [skipped]
    cases passed : info.valueForProperty input prop column with
    | error error => exact ⟨false, rfl⟩
    | ok given =>
      refine ⟨given.isNone, ?_⟩
      by_cases kept : (!target.created && given.isNone) = true
      · simp [kept]
      · by_cases missing : (((given.or (info.defaultValues prop.name)).getD .null = .null ∧ prop.isNullable = false) ∧
            (prop.isPrimary = true ∨ input.allowMissing = false))
        · simp [kept, missing]
        · simp only [kept, missing]
          cases given.or (info.defaultValues prop.name) <;> rfl

theorem populate_step {policy : CreatePolicy} {target : Target} {entry : Property × Nat} {cell : Option Value}
    (ok : assignment info input target entry = .ok cell) (rest : List (Property × Nat)) (table : Table) :
    ∃ middle, populate info input policy target (entry :: rest) table = populate info input policy target rest middle ∧
      middle.rows = table.rows.modify target.row (writeCells Prod.snd (assigned info input target) [entry]) := by
  obtain ⟨isDefault, step⟩ := populate_cons policy target entry rest table
  have written : assigned info input target entry = cell := by rw [assigned, ok]
  rw [step, ok]
  cases cell with
  | none =>
    refine ⟨table, rfl, ?_⟩
    have nothing : writeCells Prod.snd (assigned info input target) [entry] = id := by
      funext cells
      simp [writeCells, written]
    rw [nothing, List.modify_id]
  | some value =>
    refine ⟨_, rfl, ?_⟩
    rw [setPropertyValue_rows]
    apply congrArg
    funext cells
    simp [writeCells, written]

/-- The loop sets every property, or stops at the first that it has no value for. -/
theorem populate_cases (info : ClassInfo) (input : Input) (policy : CreatePolicy) (target : Target)
    (entries : List (Property × Nat)) (table : Table) :
    (∃ log, populate info input policy target entries table =
        (⟨table.rows.modify target.row (writeCells Prod.snd (assigned info input target) entries), log⟩, .ok ()) ∧
      ∀ entry ∈ entries, ∃ cell, assignment info input target entry = .ok cell) ∨
    (∃ done entry rest error log, entries = done ++ entry :: rest ∧
      assignment info input target entry = .error error ∧
      populate info input policy target entries table =
        (⟨table.rows.modify target.row (writeCells Prod.snd (assigned info input target) done), log⟩,
          .error error)) := by
  induction entries generalizing table with
  | nil =>
    refine .inl ⟨table.log, ?_, by simp⟩
    rw [writeCells_nil, List.modify_id]
    rfl
  | cons entry rest ih =>
    cases assigns : assignment info input target entry with
    | error error =>
      obtain ⟨isDefault, step⟩ := populate_cons policy target entry rest table
      refine .inr ⟨[], entry, rest, error, table.log, rfl, assigns, ?_⟩
      rw [step, assigns, writeCells_nil, List.modify_id]
    | ok cell =>
      obtain ⟨middle, step, rows⟩ := populate_step assigns rest table
      have both : ∀ later, middle.rows.modify target.row (writeCells Prod.snd (assigned info input target) later) =
          table.rows.modify target.row (writeCells Prod.snd (assigned info input target) (entry :: later)) := by
        intro later
        rw [rows, List.modify_modify_eq]
        rfl
      rcases ih middle with ⟨log, done, all⟩ | ⟨done, stop, later, error, log, split, raised, populated⟩
      · rw [both] at done
        refine .inl ⟨log, step.trans done, ?_⟩
        rw [List.forall_mem_cons]
        exact ⟨⟨cell, assigns⟩, all⟩
      · rw [both] at populated
        exact .inr ⟨entry :: done, stop, later, error, log, by rw [split]; rfl, raised, step.trans populated⟩

end Object

theorem ObjectSchema.Fits.cell {cells : Row} {other : Property} {i : Nat} (fits : info.schema.Fits cells)
    (listed : (other, i) ∈ info.properties) : ∃ value, cells[i]? = some value := by
  have bound := (List.getElem?_eq_some_iff.mp (ClassInfo.mem_properties.mp listed)).1
  rw [← fits.length] at bound
  exact ⟨cells[i], List.getElem?_eq_getElem bound⟩

theorem Table.concat_other {rows : List Row} {cells : Row} {i : Nat} (elsewhere : i ≠ rows.length) :
    (rows ++ [cells])[i]? = rows[i]? := by
  rcases Nat.lt_or_gt_of_ne elsewhere with before | behind
  · exact List.getElem?_append_left before
  · have beyond : (rows ++ [cells]).length ≤ i := by
      rw [List.length_append, List.length_singleton]
      exact behind
    rw [List.getElem?_eq_none (Nat.le_of_lt behind), List.getElem?_eq_none beyond]

/-- A row is found by its primary key. -/
theorem ObjectSchema.Conforms.findFirst {table : Table} {prop : Property} {column row : Nat} {key : Value}
    (conforms : info.schema.Conforms table.rows) (primary : info.schema.primaryKeyProperty = some (prop, column))
    (here : table.cell row column = some key) : table.findFirst column key = some row := by
  obtain ⟨cells, stored, present⟩ := Table.cell_eq_some.mp here
  have distinct := conforms.distinct
  rw [ObjectSchema.keys, primary] at distinct
  cases search : table.findFirst column key with
  | none => exact absurd present (Table.findFirst_none search cells (List.mem_of_getElem? stored))
  | some first =>
    obtain ⟨others, found, same⟩ := Table.findFirst_some search
    have bound : first < (table.rows.map fun cells => cells[column]?).length := by
      rw [List.length_map]
      exact (List.getElem?_eq_some_iff.mp found).1
    have twice : (table.rows.map fun cells => cells[column]?)[first]? =
        (table.rows.map fun cells => cells[column]?)[row]? := by
      rw [List.getElem?_map, List.getElem?_map, found, stored, Option.map_some, Option.map_some, same, present]
    rw [List.getElem?_inj bound distinct] at twice
    rw [twice]

theorem unless_error_iff {ε α : Type*} {p : Prop} [Decidable p] {error : ε} {value result : α} :
    (if p then Except.error error else .ok value) = .ok result ↔ ¬ p ∧ value = result := by
  by_cases holds : p <;> simp [holds]

/-- The cell that `create` leaves: the value passed in, else what the row had, else the default,
    else what an empty row has. -/
def ClassInfo.cellWritten (info : ClassInfo) (input : Input) (old : Option Value) (prop : Property) (column : Nat) :
    Value :=
  match info.valueForProperty input prop column with
  | .ok (some value) => prop.unbox value
  | .ok none | .error _ => old.getD (((info.defaultValues prop.name).map prop.unbox).getD prop.emptyCell)

/-- One row is written, or added at the end; it is the one that its key finds. -/
structure Written (info : ClassInfo) (input : Input) (prop : Property) (column : Nat) (before after : Table)
    (row : Nat) : Prop where
  others : ∀ i, i ≠ row → after.rows[i]? = before.rows[i]?
  length : after.rows.length = max before.rows.length (row + 1)
  cells : ∀ (other : Property) i, (other, i) ∈ info.properties →
    after.cell row i = some (info.cellWritten input (before.cell row i) other i)
  found : ∃ key, info.primaryValue input prop column = .ok key ∧
    after.findFirst column (prop.unbox key) = some row

/-- The row as the first half of `create` leaves it. -/
structure Placed (info : ClassInfo) (column : Nat) (key : Value) (before located : Table) (target : Object.Target) :
    Prop where
  skips : target.skipPrimary = true
  others : ∀ i, i ≠ target.row → located.rows[i]? = before.rows[i]?
  length : located.rows.length = max before.rows.length (target.row + 1)
  keyed : located.cell target.row column = some key
  cells : ∀ (other : Property) i, (other, i) ∈ info.properties → i ≠ column →
    located.cell target.row i = some ((before.cell target.row i).getD other.emptyCell)
  kept : target.created = false → located = before
  fresh : target.created = true → ∀ i, before.cell target.row i = none

variable {prop : Property} {column : Nat}

theorem found_placed {table : Table} {row : Nat} {key : Value} (conforms : info.schema.Conforms table.rows)
    (present : table.findFirst column key = some row) :
    Placed info column key table table { row, created := false } := by
  obtain ⟨cells, here, there⟩ := Table.findFirst_some present
  refine ⟨rfl, fun _ _ => rfl, ?_, Table.cell_eq_some.mpr ⟨cells, here, there⟩, ?_, fun _ => rfl, (by simp)⟩
  · have bound := (List.getElem?_eq_some_iff.mp here).1
    simp only
    omega
  · intro other i listed _
    obtain ⟨value, there⟩ := (conforms.fits cells (List.mem_of_getElem? here)).cell listed
    have cell : table.cell row i = some value := Table.cell_eq_some.mpr ⟨cells, here, there⟩
    rw [cell]
    rfl

theorem added_placed (primary : info.schema.primaryKeyProperty = some (prop, column)) (table : Table) (key : Value) :
    Placed info column key table (table.performAll [.insertEmptyRow info.schema.emptyRow,
      .setUnique table.rows.length column key]) { row := table.rows.length, created := true } := by
  have rows := table.insertKeyed_rows info.schema.emptyRow column key
  have added : (table.performAll [.insertEmptyRow info.schema.emptyRow,
      .setUnique table.rows.length column key]).rows[table.rows.length]? =
        some (info.schema.emptyRow.set column key) := by
    rw [rows]
    exact List.getElem?_concat_length
  have absent : ∀ i, table.cell table.rows.length i = none := by
    intro i
    rw [Table.cell, List.getElem?_eq_none (Nat.le_refl _)]
    rfl
  refine ⟨rfl, ?_, ?_, ?_, ?_, (by simp), fun _ => absent⟩
  · intro i elsewhere
    rw [rows]
    exact Table.concat_other elsewhere
  · rw [rows]
    simp
  · obtain ⟨empty, there⟩ := info.schema.emptyRow_fits.cell (info.primaryKey_listed primary)
    have bound := (List.getElem?_eq_some_iff.mp there).1
    exact Table.cell_eq_some.mpr ⟨_, added, List.getElem?_set_self bound⟩
  · intro other i listed apart
    have kept : (info.schema.emptyRow.set column key)[i]? = some other.emptyCell := by
      rw [List.getElem?_set_ne apart.symm, ObjectSchema.emptyRow, List.getElem?_map,
        ClassInfo.mem_properties.mp listed]
      rfl
    rw [absent]
    exact Table.cell_eq_some.mpr ⟨_, added, kept⟩

theorem located_placed {policy : CreatePolicy} {table located : Table} {target : Object.Target}
    (primary : info.schema.primaryKeyProperty = some (prop, column)) (conforms : info.schema.Conforms table.rows)
    (found : Object.Located info input policy table located target) :
    ∃ key, info.primaryValue input prop column = .ok key ∧
      Placed info column (prop.unbox key) table located target := by
  cases found with
  | current keyless updates =>
    rw [keyless] at primary
    cases primary
  | appended keyless =>
    rw [keyless] at primary
    cases primary
  | @found _ _ row key same looked present updates =>
    rw [primary, Option.some.injEq, Prod.mk.injEq] at same
    obtain ⟨rfl, rfl⟩ := same
    exact ⟨key, looked, found_placed conforms present⟩
  | @keyed _ _ key same looked fresh =>
    rw [primary, Option.some.injEq, Prod.mk.injEq] at same
    obtain ⟨rfl, rfl⟩ := same
    exact ⟨key, looked, added_placed primary table (prop.unbox key)⟩

theorem cellWritten_key {old : Option Value} {key : Value} (looked : info.primaryValue input prop column = .ok key)
    (same : ∀ value, old = some value → value = prop.unbox key) :
    info.cellWritten input old prop column = prop.unbox key := by
  unfold ClassInfo.primaryValue at looked
  unfold ClassInfo.cellWritten
  cases passed : info.valueForProperty input prop column with
  | error error =>
    rw [passed] at looked
    cases looked
  | ok given =>
    rw [passed] at looked
    cases given with
    | some value =>
      cases looked
      rfl
    | none =>
      cases old with
      | some value => exact same value rfl
      | none =>
        cases default : info.defaultValues prop.name with
        | some value =>
          rw [default] at looked
          cases looked
          rfl
        | none =>
          by_cases nullable : prop.isNullable = true
          · simp only [default, Option.or_none, nullable, if_true, Except.ok.injEq] at looked
            subst looked
            simp [Property.emptyCell, nullable, Property.unbox]
          · simp [default, nullable] at looked

theorem Placed.cellWritten {key : Value} {before located : Table} {target : Object.Target}
    (looked : info.primaryValue input prop column = .ok key)
    (placed : Placed info column (prop.unbox key) before located target) :
    info.cellWritten input (before.cell target.row column) prop column = prop.unbox key := by
  apply cellWritten_key looked
  intro value stored
  cases created : target.created with
  | true =>
    rw [placed.fresh created] at stored
    cases stored
  | false =>
    have there := placed.keyed
    rw [placed.kept created, stored, Option.some.injEq] at there
    exact there

/-- What the loop makes of a cell of the row. -/
theorem Placed.written {key : Value} {before located : Table} {target : Object.Target} {other : Property} {i : Nat}
    {cell : Option Value} (keyed : info.KeyedBy prop column) (looked : info.primaryValue input prop column = .ok key)
    (placed : Placed info column (prop.unbox key) before located target) (listed : (other, i) ∈ info.properties)
    (ok : Object.assignment info input target (other, i) = .ok cell) :
    ∃ old, located.cell target.row i = some old ∧
      cell.getD old = info.cellWritten input (before.cell target.row i) other i := by
  by_cases primary : i = column
  · subst primary
    cases keyed.own listed
    have marked := (ObjectSchema.primaryKeyProperty_mem keyed.primary).2
    simp only [Object.assignment, placed.skips, marked, Bool.and_self, if_true, Except.ok.injEq] at ok
    subst ok
    exact ⟨prop.unbox key, placed.keyed, (placed.cellWritten looked).symm⟩
  · have unmarked := keyed.unmarked listed primary
    have old := placed.cells other i listed primary
    refine ⟨_, old, ?_⟩
    simp only [Object.assignment, unmarked, Bool.and_false, Bool.false_eq_true, if_false, false_or] at ok
    unfold ClassInfo.cellWritten
    cases passed : info.valueForProperty input other i with
    | error error => simp [passed] at ok
    | ok given =>
      simp only [passed] at ok ⊢
      cases given with
      | some value =>
        simp only [Option.isNone_some, Bool.and_false, Bool.false_eq_true, if_false, Option.some_or] at ok
        obtain ⟨_, rfl⟩ := unless_error_iff.mp ok
        rfl
      | none =>
        cases created : target.created with
        | true =>
          rw [placed.fresh created]
          simp only [created, Bool.not_true, Bool.false_and, Bool.false_eq_true, if_false, Option.none_or] at ok
          obtain ⟨_, rfl⟩ := unless_error_iff.mp ok
          rfl
        | false =>
          simp only [created, Bool.not_false, Option.isNone_none, Bool.and_self, if_true, Except.ok.injEq] at ok
          subst ok
          rw [placed.kept created] at old
          rw [old]
          rfl

theorem Placed.populated {key : Value} {before located after : Table} {target : Object.Target}
    (keyed : info.KeyedBy prop column) (looked : info.primaryValue input prop column = .ok key)
    (placed : Placed info column (prop.unbox key) before located target)
    (all : ∀ entry ∈ info.properties, ∃ cell, Object.assignment info input target entry = .ok cell)
    (rows : after.rows = located.rows.modify target.row
      (writeCells Prod.snd (Object.assigned info input target) info.properties))
    (conforms : info.schema.Conforms after.rows) : Written info input prop column before after target.row := by
  have columns : (info.properties.map Prod.snd).Nodup := by
    rw [ClassInfo.properties, List.zipIdx_map_snd]
    exact List.nodup_range'
  have cells : ∀ (other : Property) i, (other, i) ∈ info.properties →
      after.cell target.row i = some (info.cellWritten input (before.cell target.row i) other i) := by
    intro other i listed
    obtain ⟨cell, assigns⟩ := all (other, i) listed
    obtain ⟨old, there, value⟩ := placed.written keyed looked listed assigns
    obtain ⟨stored, here, present⟩ := Table.cell_eq_some.mp there
    have assigned : Object.assigned info input target (other, i) = cell := by rw [Object.assigned, assigns]
    have written : (writeCells Prod.snd (Object.assigned info input target) info.properties stored)[i]? =
        stored[i]?.map fun old => (Object.assigned info input target (other, i)).getD old :=
      writeCells_here columns listed stored
    rw [present, Option.map_some, assigned, value] at written
    refine Table.cell_eq_some.mpr ⟨_, ?_, written⟩
    rw [rows, List.getElem?_modify, here]
    simp
  have own := cells prop column (info.primaryKey_listed keyed.primary)
  rw [placed.cellWritten looked] at own
  refine ⟨?_, ?_, cells, key, looked, conforms.findFirst keyed.primary own⟩
  · intro i elsewhere
    rw [rows, ← placed.others i elsewhere, List.getElem?_modify]
    simp [elsewhere.symm]
  · rw [rows, List.length_modify, placed.length]

/-- What `create` writes, under every policy, and what it leaves alone. -/
theorem create_writes (info : ClassInfo) (input : Input) (policy : CreatePolicy) (currentRow : Option Nat)
    (table : Table) {prop : Property} {column row : Nat} (keyed : info.KeyedBy prop column)
    (conforms : info.schema.Conforms table.rows)
    (ok : (Object.create info false input policy currentRow table).2 = .ok row) :
    Written info input prop column table (Object.create info false input policy currentRow table).1 row := by
  have after : info.schema.Conforms (Object.create info false input policy currentRow table).1.rows :=
    create_conforms conforms
  revert ok after
  unfold Object.create
  cases located : Object.locate info false input policy currentRow table with
  | error error => simp
  | ok result =>
    obtain ⟨first, target⟩ := result
    obtain ⟨key, looked, placed⟩ := located_placed keyed.primary conforms (Object.locate_located located)
    rcases Object.populate_cases info input policy target info.properties first with
      ⟨log, populated, all⟩ | ⟨_, _, _, _, _, _, _, populated⟩
    · simp only [populated, Except.map, Except.ok.injEq]
      intro ok after
      subst ok
      exact placed.populated keyed looked all rfl after
    · simp [populated, Except.map]

theorem create_writes_star : Written (ManagedObject.info PostObject) sampleChange
    { name := "id", type := .int, isPrimary := true } 0 storedTable
    (Object.create (ManagedObject.info PostObject) false sampleChange .updateModified none storedTable).1 0 :=
  create_writes _ sampleChange .updateModified none storedTable ManagedObject.keyed storedTable_conforms rfl

/-- A value is passed in, or a new row can do without one. -/
def Supplied (info : ClassInfo) (input : Input) (created : Bool) (prop : Property) (column : Nat) : Prop :=
  ∃ given, info.valueForProperty input prop column = .ok given ∧
    (created = true → given = none →
      info.defaultValues prop.name ≠ none ∨ prop.isNullable = true ∨ input.allowMissing = true)

theorem populate_ok_iff (policy : CreatePolicy) (target : Object.Target) (entries : List (Property × Nat))
    (table : Table) : (Object.populate info input policy target entries table).2 = .ok () ↔
      ∀ entry ∈ entries, ∃ cell, Object.assignment info input target entry = .ok cell := by
  rcases Object.populate_cases info input policy target entries table with
    ⟨log, populated, all⟩ | ⟨done, entry, rest, error, log, split, raised, populated⟩
  · rw [populated]
    exact iff_of_true rfl all
  · rw [populated]
    apply iff_of_false (by simp)
    intro all
    obtain ⟨cell, ok⟩ := all entry (by simp [split])
    rw [raised] at ok
    cases ok

theorem assignment_ok_iff {target : Object.Target} {other : Property} {i : Nat}
    (listed : (other, i) ∈ info.properties) (unmarked : other.isPrimary = false) :
    (∃ cell, Object.assignment info input target (other, i) = .ok cell) ↔
      Supplied info input target.created other i := by
  have present : other ∈ info.schema.persistedProperties :=
    List.mem_of_getElem? (ClassInfo.mem_properties.mp listed)
  simp only [Object.assignment, unmarked, Bool.and_false, Bool.false_eq_true, if_false, false_or]
  unfold Supplied
  cases passed : info.valueForProperty input other i with
  | error error => simp
  | ok given =>
    cases given with
    | some value =>
      have filled := Property.not_null_of_admits (info.valueForProperty_admits passed)
      simp [filled]
    | none =>
      cases target.created with
      | false => simp
      | true =>
        cases default : info.defaultValues other.name with
        | some value =>
          have filled := (info.defaultsFit other present value default).1
          simp [filled]
        | none =>
          cases nullable : other.isNullable <;> cases lenient : input.allowMissing <;> simp

theorem populate_keyed_iff {policy : CreatePolicy} {target : Object.Target} (keyed : info.KeyedBy prop column)
    (skips : target.skipPrimary = true) (table : Table) :
    (Object.populate info input policy target info.properties table).2 = .ok () ↔
      ∀ (other : Property) i, (other, i) ∈ info.properties → i ≠ column →
        Supplied info input target.created other i := by
  rw [populate_ok_iff]
  apply Iff.intro
  · intro all other i listed apart
    exact (assignment_ok_iff listed (keyed.unmarked listed apart)).mp (all (other, i) listed)
  · intro supplied entry listed
    obtain ⟨other, i⟩ := entry
    by_cases own : i = column
    · subst own
      cases keyed.own listed
      have marked := (ObjectSchema.primaryKeyProperty_mem keyed.primary).2
      exact ⟨none, by simp [Object.assignment, skips, marked]⟩
    · exact (assignment_ok_iff listed (keyed.unmarked listed own)).mpr (supplied other i listed own)

/-- `create` raises exactly if the primary key or another property has no value that it can take, or
    if the key is taken and the policy is not to update. -/
theorem create_completes_iff (info : ClassInfo) (input : Input) (policy : CreatePolicy) (currentRow : Option Nat)
    (table : Table) {prop : Property} {column : Nat} (keyed : info.KeyedBy prop column) :
    (∃ row, (Object.create info false input policy currentRow table).2 = .ok row) ↔
      ∃ key, info.primaryValue input prop column = .ok key ∧
        (policy = .forceCreate → table.findFirst column (prop.unbox key) = none) ∧
        ∀ (other : Property) i, (other, i) ∈ info.properties → i ≠ column →
          Supplied info input (table.findFirst column (prop.unbox key)).isNone other i := by
  have mapped : ∀ (result : Except Error Unit) (row : Nat),
      (∃ written, (result.map fun _ => row) = .ok written) ↔ result = .ok () := by
    intro result row
    cases result <;> simp [Except.map]
  unfold Object.create
  rw [Object.locate_keyed keyed.primary]
  cases looked : info.primaryValue input prop column with
  | error error => simp
  | ok key =>
    simp only [Except.ok.injEq, exists_eq_left']
    cases search : table.findFirst column (prop.unbox key) with
    | none =>
      simp only [mapped, implies_true, true_and]
      exact populate_keyed_iff keyed rfl _
    | some row =>
      by_cases force : policy = .forceCreate
      · simp [force]
      · simp only [force, if_false, mapped, false_implies, true_and]
        exact populate_keyed_iff keyed rfl _

theorem create_completes_iff_taken :
    ¬ ∃ row, (Object.create (ManagedObject.info PostObject) false sampleChange .forceCreate none storedTable).2 =
      .ok row := by
  intro completes
  obtain ⟨key, looked, fresh, _⟩ :=
    (create_completes_iff _ sampleChange .forceCreate none storedTable ManagedObject.keyed).mp completes
  cases looked
  exact absurd (fresh rfl) (by decide)

end ZemogaSocial.ObjectStore
