import ZemogaSocial.Models
import ZemogaSocial.Realm.Conformance

namespace ZemogaSocial

namespace ObjectStore

variable {info : ClassInfo} {values : String → Value}

/-- The cells of an object, in the order of the properties. -/
def ObjectSchema.cells (schema : ObjectSchema) (values : String → Value) : Row :=
  schema.persistedProperties.map fun prop => values prop.name

/-- `tail` are the cells of the row behind the properties that have been set. -/
theorem populate_object {policy : CreatePolicy} {before : List Row} {done rest : List Property} {tail : Row}
    (whole : info.schema.persistedProperties = done ++ rest)
    (fits : ∀ prop ∈ rest, prop.holds (values prop.name) = true)
    (primary : List.Forall₂ (fun (prop : Property) cell => prop.isPrimary = true → cell = values prop.name) rest tail)
    (table : Table) (rows : table.rows = before ++ [done.map (fun prop => values prop.name) ++ tail]) :
    ∃ log, Object.populate info (.object values) policy { row := before.length, created := true }
        (rest.zipIdx done.length) table =
      (⟨before ++ [info.schema.cells values], log⟩, .ok ()) := by
  induction rest generalizing done tail table with
  | nil =>
    cases primary
    refine ⟨table.log, ?_⟩
    rw [List.zipIdx_nil, Object.populate, ObjectSchema.cells, whole, List.append_nil]
    rw [List.append_nil] at rows
    rw [← rows]
  | cons prop rest ih =>
    cases primary with
    | @cons _ cell _ tail first later =>
      rw [List.forall_mem_cons] at fits
      have moved : info.schema.persistedProperties = (done ++ [prop]) ++ rest := by rw [whole]; simp
      have length : (done ++ [prop]).length = done.length + 1 := by simp
      have cellsKept : done.map (fun prop => values prop.name) ++ values prop.name :: tail =
          (done ++ [prop]).map (fun prop => values prop.name) ++ tail := by simp
      rw [List.zipIdx_cons, Object.populate, ← length]
      by_cases skipped : prop.isPrimary = true
      · simp only [skipped, Bool.and_self, if_true]
        rw [first skipped, cellsKept] at rows
        exact ih moved fits.2 later table rows
      · have given : info.valueForProperty (.object values) prop done.length = .ok (some (values prop.name)) := by
          simp [ClassInfo.valueForProperty, Input.propertyValue, Property.admits_of_holds fits.1]
        have present := Property.not_null_of_admits (Property.admits_of_holds fits.1)
        simp only [skipped, given, Bool.and_false, Bool.false_eq_true, if_false, Option.isNone_some, Option.some_or,
          Option.getD_some, Bool.not_true, present, false_and, Property.unbox_of_holds fits.1]
        have set : (table.setPropertyValue policy before.length done.length (values prop.name) false).rows =
            before ++ [(done ++ [prop]).map (fun prop => values prop.name) ++ tail] := by
          have overwritten : (done.map (fun prop => values prop.name) ++ cell :: tail).set done.length
              (values prop.name) = done.map (fun prop => values prop.name) ++ values prop.name :: tail := by
            rw [List.set_append_right _ _ (by simp)]
            simp
          unfold Table.setPropertyValue
          split
          · rw [Table.perform, rows, Instruction.apply, Table.modify_concat, overwritten, cellsKept]
          · rename_i unwritten
            simp only [not_or, not_not, Table.cell, rows] at unwritten
            have same : cell = values prop.name := by
              simpa using unwritten.2
            rw [rows, same, cellsKept]
        exact ih moved fits.2 later _ set

/-- `primaryKey()` names one property. -/
structure ClassInfo.KeyedBy (info : ClassInfo) (prop : Property) (column : Nat) : Prop where
  primary : info.schema.primaryKeyProperty = some (prop, column)
  only : ∀ (other : Property) (i : Nat), info.schema.persistedProperties[i]? = some other →
    other.isPrimary = true → i = column

variable {prop : Property} {column : Nat}

theorem ClassInfo.KeyedBy.own {other : Property} (keyed : info.KeyedBy prop column)
    (listed : (other, column) ∈ info.properties) : other = prop := by
  have here := (ObjectSchema.primaryKeyProperty_mem keyed.primary).1
  rw [ClassInfo.mem_properties.mp listed, Option.some.injEq] at here
  exact here

theorem ClassInfo.KeyedBy.unmarked {other : Property} {i : Nat} (keyed : info.KeyedBy prop column)
    (listed : (other, i) ∈ info.properties) (apart : i ≠ column) : other.isPrimary = false := by
  rw [Bool.eq_false_iff]
  exact fun marked => apart (keyed.only other i (ClassInfo.mem_properties.mp listed) marked)

theorem keyedRow_primary (keyed : info.KeyedBy prop column) :
    List.Forall₂ (fun (other : Property) cell => other.isPrimary = true → cell = values other.name)
      info.schema.persistedProperties (info.schema.emptyRow.set column (values prop.name)) := by
  have here := (ObjectSchema.primaryKeyProperty_mem keyed.primary).1
  rw [List.forall₂_iff_get]
  refine ⟨by rw [List.length_set, info.schema.emptyRow_fits.length], ?_⟩
  intro i left right marked
  have there := List.getElem?_eq_getElem left
  have same := keyed.only _ i there marked
  subst same
  rw [there, Option.some.injEq] at here
  rw [List.get_eq_getElem, List.get_eq_getElem, List.getElem_set_self, here]

theorem locate_object (keyed : info.KeyedBy prop column) (fits : prop.holds (values prop.name) = true)
    (table : Table) : Object.locate info false (.object values) .forceCreate none table =
      match table.findFirst column (values prop.name) with
      | some _ => .error (.existingPrimaryKey info.schema.name (values prop.name))
      | none => .ok (table.performAll [.insertEmptyRow info.schema.emptyRow,
          .setUnique table.rows.length column (values prop.name)], { row := table.rows.length, created := true }) := by
  have given : info.valueForProperty (.object values) prop column = .ok (some (values prop.name)) := by
    simp [ClassInfo.valueForProperty, Input.propertyValue, Property.admits_of_holds fits]
  have looked : info.primaryValue (.object values) prop column = .ok (values prop.name) := by
    simp [ClassInfo.primaryValue, given]
  rw [Object.locate_keyed keyed.primary, looked]
  simp only [Property.unbox_of_holds fits, if_true]
  cases table.findFirst column (values prop.name) <;> rfl

/-- An object is added as the last row, or raises the key that it shares with a row. -/
theorem create_object (keyed : info.KeyedBy prop column)
    (fits : ∀ other ∈ info.schema.persistedProperties, other.holds (values other.name) = true) (table : Table) :
    (∃ row, table.findFirst column (values prop.name) = some row ∧
      Object.create info false (.object values) .forceCreate none table =
        (table, .error (.existingPrimaryKey info.schema.name (values prop.name)))) ∨
    (table.findFirst column (values prop.name) = none ∧
      ∃ log, Object.create info false (.object values) .forceCreate none table =
        (⟨table.rows ++ [info.schema.cells values], log⟩, .ok table.rows.length)) := by
  have here := (ObjectSchema.primaryKeyProperty_mem keyed.primary).1
  have located := locate_object keyed (fits prop (List.mem_of_getElem? here)) table
  cases search : table.findFirst column (values prop.name) with
  | some row =>
    rw [search] at located
    exact .inl ⟨row, rfl, by rw [Object.create, located]⟩
  | none =>
    rw [search] at located
    have unwritten : info.schema.persistedProperties = [] ++ info.schema.persistedProperties := rfl
    have populated : ∃ log, Object.populate info (.object values) .forceCreate
        { row := table.rows.length, created := true } info.properties
        (table.performAll [.insertEmptyRow info.schema.emptyRow,
          .setUnique table.rows.length column (values prop.name)]) =
        (⟨table.rows ++ [info.schema.cells values], log⟩, .ok ()) :=
      populate_object unwritten fits (keyedRow_primary keyed) _ (table.insertKeyed_rows _ _ _)
    obtain ⟨log, populated⟩ := populated
    refine .inr ⟨rfl, log, ?_⟩
    simp only [Object.create, located, populated, Except.map]

/-- A Swift class: its defaults are the values of a fresh object. -/
def ClassInfo.ofFresh (schema : ObjectSchema) (fresh : String → Value)
    (fits : ∀ prop ∈ schema.persistedProperties, fresh prop.name ≠ .null ∧ prop.admits (fresh prop.name) = true) :
    ClassInfo where
  schema
  coding := .ofNames schema
  defaultValues name := some (fresh name)
  defaultsFit := by
    intro prop member value default
    cases default
    exact fits prop member

end ObjectStore

open ObjectStore

/-- An object class as the database has it; `valueForKey` reads a property of an unmanaged object. -/
class ManagedObject (ω : Type) [RealmObject ω] where
  info : ClassInfo
  valueForKey : ω → String → Value
  fits : ∀ object, ∀ prop ∈ info.schema.persistedProperties, prop.holds (valueForKey object prop.name) = true
  keyed : info.KeyedBy { name := "id", type := .int, isPrimary := true } 0
  key : ∀ object, valueForKey object "id" = .int (RealmObject.primaryKey object)
  injective : Function.Injective fun object => info.schema.cells (valueForKey object)

namespace PostObject

def valueForKey (object : PostObject) : String → Value
  | "id" => .int object.id
  | "userID" => .int object.userID
  | "title" => .string object.title
  | "body" => .string object.body
  | "isFavorite" => .bool object.isFavorite
  | "read" => .bool object.read
  | _ => .null

def schema : ObjectSchema where
  name := "PostObject"
  persistedProperties := [{ name := "id", type := .int, isPrimary := true }, { name := "userID", type := .int },
    { name := "title", type := .string }, { name := "body", type := .string },
    { name := "isFavorite", type := .bool }, { name := "read", type := .bool }]

theorem cells_eq (object : PostObject) : schema.cells object.valueForKey =
    [.int object.id, .int object.userID, .string object.title, .string object.body,
      .bool object.isFavorite, .bool object.read] := rfl

instance : ManagedObject PostObject where
  info := .ofFresh schema (valueForKey {}) (by decide)
  valueForKey := valueForKey
  fits object := by simp [ClassInfo.ofFresh, schema, valueForKey, Property.holds]
  keyed := ⟨rfl, by simp [ClassInfo.ofFresh, schema, List.getElem?_cons]; grind⟩
  key _ := rfl
  injective := by
    intro left right same
    simp only [ClassInfo.ofFresh, cells_eq] at same
    cases left
    cases right
    simpa using same

end PostObject

namespace CommentObject

def valueForKey (object : CommentObject) : String → Value
  | "id" => .int object.id
  | "postId" => .int object.postId
  | "name" => .string object.name
  | "email" => .string object.email
  | "body" => .string object.body
  | _ => .null

def schema : ObjectSchema where
  name := "CommentObject"
  persistedProperties := [{ name := "id", type := .int, isPrimary := true }, { name := "postId", type := .int },
    { name := "name", type := .string }, { name := "email", type := .string },
    { name := "body", type := .string }]

theorem cells_eq (object : CommentObject) : schema.cells object.valueForKey =
    [.int object.id, .int object.postId, .string object.name, .string object.email, .string object.body] := rfl

instance : ManagedObject CommentObject where
  info := .ofFresh schema (valueForKey {}) (by decide)
  valueForKey := valueForKey
  fits object := by simp [ClassInfo.ofFresh, schema, valueForKey, Property.holds]
  keyed := ⟨rfl, by simp [ClassInfo.ofFresh, schema, List.getElem?_cons]; grind⟩
  key _ := rfl
  injective := by
    intro left right same
    simp only [ClassInfo.ofFresh, cells_eq] at same
    cases left
    cases right
    simpa using same

end CommentObject

namespace UserObject

def valueForKey (object : UserObject) : String → Value
  | "id" => .int object.id
  | "name" => .string object.name
  | "username" => .string object.username
  | "email" => .string object.email
  | "phone" => .string object.phone
  | _ => .null

def schema : ObjectSchema where
  name := "UserObject"
  persistedProperties := [{ name := "id", type := .int, isPrimary := true }, { name := "name", type := .string },
    { name := "username", type := .string }, { name := "email", type := .string },
    { name := "phone", type := .string }]

theorem cells_eq (object : UserObject) : schema.cells object.valueForKey =
    [.int object.id, .string object.name, .string object.username, .string object.email,
      .string object.phone] := rfl

instance : ManagedObject UserObject where
  info := .ofFresh schema (valueForKey {}) (by decide)
  valueForKey := valueForKey
  fits object := by simp [ClassInfo.ofFresh, schema, valueForKey, Property.holds]
  keyed := ⟨rfl, by simp [ClassInfo.ofFresh, schema, List.getElem?_cons]; grind⟩
  key _ := rfl
  injective := by
    intro left right same
    simp only [ClassInfo.ofFresh, cells_eq] at same
    cases left
    cases right
    simpa using same

end UserObject

/-- The classes of the default Realm; a name of no class stands for one without properties. -/
def classInfo (name : String) : ClassInfo :=
  if name = "PostObject" then ManagedObject.info PostObject
  else if name = "CommentObject" then ManagedObject.info CommentObject
  else if name = "UserObject" then ManagedObject.info UserObject
  else .ofFresh ⟨name, []⟩ (fun _ => .null) (by simp)

namespace ManagedObject

variable {ω : Type} [RealmObject ω] [ManagedObject ω]

def className (ω : Type) [RealmObject ω] [ManagedObject ω] : String := (info ω).schema.name

def row (object : ω) : Row := (info ω).schema.cells (valueForKey object)

theorem row_injective : Function.Injective fun object : ω => row object := injective

theorem row_key (object : ω) : (row object)[0]? = some (.int (RealmObject.primaryKey object)) := by
  have keyed : (info ω).KeyedBy { name := "id", type := .int, isPrimary := true } 0 := keyed
  have here := (ObjectSchema.primaryKeyProperty_mem keyed.primary).1
  rw [row, ObjectSchema.cells, List.getElem?_map, here, Option.map_some, key]

theorem row_fits (object : ω) : (info ω).schema.Fits (row object) := by
  unfold ObjectSchema.Fits row ObjectSchema.cells
  rw [List.forall₂_map_right_iff, List.forall₂_same]
  exact fits object

/-- Objects with distinct keys are rows that Realm could have written. -/
theorem rows_conform {objects : List ω} (distinct : (objects.map RealmObject.primaryKey).Nodup) :
    (info ω).schema.Conforms (objects.map row) := by
  have keyed : (info ω).KeyedBy { name := "id", type := .int, isPrimary := true } 0 := keyed
  constructor
  · intro cells stored
    obtain ⟨object, _, rfl⟩ := List.mem_map.mp stored
    exact row_fits object
  · have keys : (info ω).schema.keys (objects.map row) =
        (objects.map RealmObject.primaryKey).map fun id => some (.int id) := by
      simp [ObjectSchema.keys, keyed.primary, row_key]
    have injective : Function.Injective fun id => some (Value.int id) := by
      intro left right same
      simpa using same
    rw [keys]
    exact distinct.map injective

theorem findFirst_rows (objects : List ω) (log : List Instruction) (id : Int64) :
    Table.findFirst ⟨objects.map row, log⟩ 0 (.int id) = none ↔ id ∉ objects.map RealmObject.primaryKey := by
  simp [Table.findFirst, List.findIdx?_eq_none_iff, row_key]

end ManagedObject

end ZemogaSocial
