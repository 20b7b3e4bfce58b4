import ZemogaSocial.Realm.ObjectAccessor

namespace ZemogaSocial.ObjectStore

/-- What a write transaction does to one table. -/
inductive Operation where
  | create (input : Input) (policy : CreatePolicy) (currentRow : Option Nat)
  | set (row : Nat) (key : String) (value : Value)
  | setValue (row : Nat) (key : String) (value : Value)
  | delete (row : Nat)
  | clear

namespace Operation

/-- An object that is no longer attached is not deleted again. -/
def perform (info : ClassInfo) (table : Table) : Operation → Table × Except Error Unit
  | .create input policy currentRow =>
    let (created, result) := Object.create info false input policy currentRow table
    (created, result.map fun _ => ())
  | .set row key value => Object.dynamicValidatedSet info row key value table
  | .setValue row key value => Object.setValue info row key value table
  | .delete row => (if row < table.rows.length then table.perform (.moveLastOver row) else table, .ok ())
  | .clear => (table.perform .clearTable, .ok ())

/-- The first raise ends the list. -/
def performEach (info : ClassInfo) : Table → List Operation → Table × Except Error Unit
  | table, [] => (table, .ok ())
  | table, operation :: rest =>
    match operation.perform info table with
    | (performed, .ok ()) => performEach info performed rest
    | (performed, .error error) => (performed, .error error)

end Operation

namespace ObjectSchema

def Fits (schema : ObjectSchema) (cells : Row) : Prop :=
  List.Forall₂ (fun (prop : Property) value => prop.holds value = true) schema.persistedProperties cells

def keys (schema : ObjectSchema) (rows : List Row) : List (Option Value) :=
  match schema.primaryKeyProperty with
  | some (_, column) => rows.map fun cells => cells[column]?
  | none => []

/-- Every cell has a value of its property, and no two rows have one primary key. -/
structure Conforms (schema : ObjectSchema) (rows : List Row) : Prop where
  fits : ∀ cells ∈ rows, schema.Fits cells
  distinct : (schema.keys rows).Nodup

theorem emptyRow_fits (schema : ObjectSchema) : schema.Fits schema.emptyRow := by
  unfold Fits emptyRow
  rw [List.forall₂_map_right_iff, List.forall₂_same]
  exact fun prop _ => prop.holds_emptyCell

theorem Fits.length {schema : ObjectSchema} {cells : Row} (fits : schema.Fits cells) :
    cells.length = schema.persistedProperties.length := (List.Forall₂.length_eq fits).symm

theorem Fits.set {schema : ObjectSchema} {cells : Row} {prop : Property} {column : Nat} {value : Value}
    (fits : schema.Fits cells) (here : schema.persistedProperties[column]? = some prop)
    (held : prop.holds value = true) : schema.Fits (cells.set column value) := by
  rw [Fits, List.forall₂_iff_get] at fits ⊢
  refine ⟨by simpa using fits.1, ?_⟩
  intro i left right
  rw [List.get_eq_getElem, List.get_eq_getElem, List.getElem_set]
  split
  · rename_i same
    subst same
    rw [List.getElem?_eq_getElem left, Option.some.injEq] at here
    exact here ▸ held
  · exact fits.2 i left (by simpa using right)

theorem keys_append (schema : ObjectSchema) (first second : List Row) :
    schema.keys (first ++ second) = schema.keys first ++ schema.keys second := by
  unfold keys
  cases schema.primaryKeyProperty <;> simp

theorem keys_perm {schema : ObjectSchema} {first second : List Row} (perm : first.Perm second) :
    (schema.keys first).Perm (schema.keys second) := by
  unfold keys
  cases schema.primaryKeyProperty with
  | none => exact .nil
  | some entry => exact perm.map _

theorem keys_sublist {schema : ObjectSchema} {first second : List Row} (sublist : first.Sublist second) :
    (schema.keys first).Sublist (schema.keys second) := by
  unfold keys
  cases schema.primaryKeyProperty with
  | none => exact .slnil
  | some entry => exact sublist.map _

/-- The primary key of a row is not one of its other properties. -/
theorem keys_modify {schema : ObjectSchema} {rows : List Row} {prop : Property} {column : Nat} (row : Nat)
    (value : Value) (here : schema.persistedProperties[column]? = some prop) (other : prop.isPrimary = false) :
    schema.keys (rows.modify row fun cells => cells.set column value) = schema.keys rows := by
  unfold keys
  cases primary : schema.primaryKeyProperty with
  | none => rfl
  | some entry =>
    obtain ⟨key, keyColumn⟩ := entry
    obtain ⟨listed, marked⟩ := primaryKeyProperty_mem primary
    have apart : column ≠ keyColumn := by
      intro same
      rw [← same, here, Option.some.injEq] at listed
      rw [listed, marked] at other
      cases other
    apply List.ext_getElem?
    intro i
    rw [List.getElem?_map, List.getElem?_map, List.getElem?_modify]
    split
    · simp [Function.comp_def, List.getElem?_set_ne apart]
    · simp

namespace Conforms

variable {schema : ObjectSchema} {rows : List Row}

theorem nil : schema.Conforms [] := ⟨by simp, by unfold keys; cases schema.primaryKeyProperty <;> simp⟩

theorem set {prop : Property} {column : Nat} {value : Value} (conforms : schema.Conforms rows) (row : Nat)
    (here : schema.persistedProperties[column]? = some prop) (other : prop.isPrimary = false)
    (held : prop.holds value = true) :
    schema.Conforms (rows.modify row fun cells => cells.set column value) where
  fits := by
    intro cells stored
    obtain ⟨i, at_i⟩ := List.mem_iff_getElem?.mp stored
    rw [List.getElem?_modify] at at_i
    cases old : rows[i]? with
    | none => simp [old] at at_i
    | some before =>
      have fits := conforms.fits before (List.mem_of_getElem? old)
      simp only [old, Option.map_eq_map, Option.map_some, Option.some.injEq] at at_i
      split at at_i
      · exact at_i ▸ fits.set here held
      · exact at_i ▸ fits
  distinct := by
    rw [keys_modify row value here other]
    exact conforms.distinct

theorem insertKeyed {prop : Property} {column : Nat} {key : Value} (conforms : schema.Conforms rows)
    (primary : schema.primaryKeyProperty = some (prop, column)) (held : prop.holds key = true)
    (fresh : ∀ cells ∈ rows, cells[column]? ≠ some key) :
    schema.Conforms (rows ++ [schema.emptyRow.set column key]) := by
  have here := (primaryKeyProperty_mem primary).1
  have bound : column < schema.emptyRow.length := by
    rw [schema.emptyRow_fits.length]
    exact (List.getElem?_eq_some_iff.mp here).1
  have added : schema.keys [schema.emptyRow.set column key] = [some key] := by
    simp [keys, primary, List.getElem?_set_self bound]
  constructor
  · rw [List.forall_mem_append, List.forall_mem_singleton]
    exact ⟨conforms.fits, schema.emptyRow_fits.set here held⟩
  · rw [keys_append, added]
    apply List.Nodup.append conforms.distinct (List.nodup_singleton _)
    rw [List.disjoint_singleton]
    intro taken
    simp only [keys, primary, List.mem_map] at taken
    obtain ⟨cells, stored, same⟩ := taken
    exact fresh cells stored same

theorem insertKeyless (conforms : schema.Conforms rows) (keyless : schema.primaryKeyProperty = none) :
    schema.Conforms (rows ++ [schema.emptyRow]) where
  fits := by
    rw [List.forall_mem_append, List.forall_mem_singleton]
    exact ⟨conforms.fits, schema.emptyRow_fits⟩
  distinct := by simp [keys, keyless]

theorem moveLastOver {row : Nat} (conforms : schema.Conforms rows) (attached : row < rows.length) :
    schema.Conforms (Keyed.moveLastOver rows row) := by
  obtain ⟨moved, removed, perm⟩ := Keyed.moveLastOver_append_cons (rows.take row) rows[row] (rows.drop (row + 1))
  have split : rows = rows.take row ++ rows[row] :: rows.drop (row + 1) := by simp
  have place : (rows.take row).length = row := by simp; omega
  rw [← split, place] at removed
  have kept : (Keyed.moveLastOver rows row).Perm (rows.take row ++ rows.drop (row + 1)) := by
    rw [removed]
    exact perm.append_left _
  have fewer : (rows.take row ++ rows.drop (row + 1)).Sublist rows := by
    conv_rhs => rw [split]
    exact (List.sublist_cons_self _ _).append_left _
  constructor
  · intro cells stored
    exact conforms.fits cells (fewer.subset (kept.subset stored))
  · exact (keys_perm kept).nodup_iff.mpr (conforms.distinct.sublist (keys_sublist fewer))

end Conforms

end ObjectSchema

variable {info : ClassInfo}

theorem sets_conform {target : Object.Target} {sets : List Instruction} {table : Table}
    (skips : target.skipPrimary = true) (each : ∀ instruction ∈ sets, Object.Sets info target instruction)
    (conforms : info.schema.Conforms table.rows) : info.schema.Conforms (table.performAll sets).rows := by
  induction sets generalizing table with
  | nil => rwa [Table.performAll_nil]
  | cons instruction rest ih =>
    rw [List.forall_mem_cons] at each
    obtain ⟨prop, column, value, isDefault, rfl, member, held, other⟩ := each.1
    have first : info.schema.Conforms (table.perform (.set target.row column value isDefault)).rows :=
      conforms.set target.row (ClassInfo.mem_properties.mp member) (other skips) held
    exact ih each.2 first

theorem located_conforms {input : Input} {policy : CreatePolicy} {table located : Table} {target : Object.Target}
    (found : Object.Located info input policy table located target)
    (conforms : info.schema.Conforms table.rows) :
    target.skipPrimary = true ∧ info.schema.Conforms located.rows := by
  cases found with
  | found primary looked present updates => exact ⟨rfl, conforms⟩
  | current keyless updates => exact ⟨rfl, conforms⟩
  | appended keyless => exact ⟨rfl, conforms.insertKeyless keyless⟩
  | @keyed prop column key primary looked fresh =>
    refine ⟨rfl, ?_⟩
    have admitted := info.primaryValue_admits (info.primaryKey_listed primary) looked
    have inserted := conforms.insertKeyed primary (Property.holds_unbox admitted) (Table.findFirst_none fresh)
    rwa [Table.insertKeyed_rows]

/-- Whether it throws or not: the properties that are not set keep the cell they had. -/
theorem create_conforms {input : Input} {policy : CreatePolicy} {currentRow : Option Nat} {table : Table}
    (conforms : info.schema.Conforms table.rows) :
    info.schema.Conforms (Object.create info false input policy currentRow table).1.rows := by
  unfold Object.create
  cases located : Object.locate info false input policy currentRow table with
  | error error => exact conforms
  | ok result =>
    obtain ⟨first, target⟩ := result
    obtain ⟨skips, kept⟩ := located_conforms (Object.locate_located located) conforms
    have known : ∀ entry ∈ info.properties, entry ∈ info.properties := fun _ member => member
    obtain ⟨sets, populated, each⟩ := Object.populate_sets known input policy target first
    simp only [populated]
    exact sets_conform skips each kept

end ZemogaSocial.ObjectStore
