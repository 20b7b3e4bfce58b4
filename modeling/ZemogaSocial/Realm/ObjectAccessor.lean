import ZemogaSocial.Realm.KeyValueCoding

namespace ZemogaSocial.ObjectStore

/-- What `Object::create` and the setters throw, or a setter runs into. -/
inductive Error where
  | invalidValue (value : Value) (objectType property : String)
  | missingPropertyValue (objectType property : String)
  | existingPrimaryKey (objectType : String) (key : Value)
  | nullPrimaryKey
  | modifyPrimaryKey (value : Value)
  | invalidPropertyName (property objectType : String)
  | deletedOrInvalidated
  | changePrimaryKey
  | columnNotNullable
  | unrecognizedSelector (receiver : Value)
  | keyValueCoding (exception : KeyValueCoding.Exception)
  deriving DecidableEq, Repr

inductive CreatePolicy where
  | forceCreate
  | updateAll
  | updateModified
  deriving DecidableEq, Repr

/-- The value that an object is created from. An object answers for every property, an array only
    for the first ones, a dictionary only for its keys. -/
inductive Input where
  | array (values : List Value)
  | dictionary (objectForKey : String → Option Value)
  | object (valueForKey : String → Value)

namespace Input

def propertyValue (input : Input) (prop : Property) (index : Nat) : Option Value :=
  match input with
  | .array values => values[index]?
  | .dictionary objectForKey => objectForKey prop.name
  | .object valueForKey => some (valueForKey prop.name)

def allowMissing : Input → Bool
  | .array _ => true
  | .dictionary _ | .object _ => false

end Input

/-- A class, the values of a fresh object of it, where `nil` is no default, and its key-value coding. -/
structure ClassInfo where
  schema : ObjectSchema
  coding : KeyValueCoding schema
  defaultValues : String → Option Value
  defaultsFit : ∀ prop ∈ schema.persistedProperties, ∀ value, defaultValues prop.name = some value →
    value ≠ .null ∧ prop.admits value = true

namespace ClassInfo

def properties (info : ClassInfo) : List (Property × Nat) := info.schema.persistedProperties.zipIdx

def valueForProperty (info : ClassInfo) (input : Input) (prop : Property) (index : Nat) :
    Except Error (Option Value) :=
  match input.propertyValue prop index with
  | none => .ok none
  | some value =>
    if prop.admits value then .ok (some value)
    else .error (.invalidValue value info.schema.name prop.name)

/-- The primary key that the object is looked up by. -/
def primaryValue (info : ClassInfo) (input : Input) (prop : Property) (column : Nat) : Except Error Value :=
  match info.valueForProperty input prop column with
  | .error error => .error error
  | .ok given =>
    match given.or (info.defaultValues prop.name) with
    | some value => .ok value
    | none =>
      if prop.isNullable then .ok .null
      else .error (.missingPropertyValue info.schema.name prop.name)

end ClassInfo

namespace Table

def getForPrimaryKey (table : Table) (prop : Property) (column : Nat) (key : Value) :
    Except Error (Option Nat) :=
  if key = .null ∧ prop.isNullable = false then .error .nullPrimaryKey
  else .ok (table.findFirst column (prop.unbox key))

/-- `set_property_value_impl` at the unboxed value; `null` is set as any other value is. -/
def setPropertyValue (table : Table) (policy : CreatePolicy) (row column : Nat) (value : Value)
    (isDefault : Bool) : Table :=
  if policy ≠ .updateModified ∨ table.cell row column ≠ some value then
    table.perform (.set row column value isDefault)
  else table

end Table

namespace Object

/-- The row that an object is written to, and which of its properties are. -/
structure Target where
  row : Nat
  created : Bool
  skipPrimary : Bool := true

def addRow (info : ClassInfo) (table : Table) : Table := table.perform (.insertEmptyRow info.schema.emptyRow)

/-- The first half of `create`: the row with the primary key, or a new one. -/
def locate (info : ClassInfo) (inMigration : Bool) (input : Input) (policy : CreatePolicy)
    (currentRow : Option Nat) (table : Table) : Except Error (Table × Target) :=
  match info.schema.primaryKeyProperty with
  | some (prop, column) =>
    match info.primaryValue input prop column with
    | .error error => .error error
    | .ok key =>
      match table.getForPrimaryKey prop column key with
      | .error error => .error error
      | .ok none =>
        let row := table.rows.length
        .ok ((addRow info table).perform (.setUnique row column (prop.unbox key)), { row, created := true })
      | .ok (some row) =>
        if policy = .forceCreate then
          -- a migration may add a primary key to a class whose rows all have the same one at first
          if inMigration then
            .ok (addRow info table, { row := table.rows.length, created := true, skipPrimary := false })
          else .error (.existingPrimaryKey info.schema.name key)
        else .ok (table, { row, created := false })
  | none =>
    match policy, currentRow with
    | .updateModified, some row => .ok (table, { row, created := false })
    | _, _ => .ok (addRow info table, { row := table.rows.length, created := true })

/-- The loop of `create` over the properties. What it has set stays set when it throws. -/
def populate (info : ClassInfo) (input : Input) (policy : CreatePolicy) (target : Target) :
    List (Property × Nat) → Table → Table × Except Error Unit
  | [], table => (table, .ok ())
  | (prop, column) :: rest, table =>
    if target.skipPrimary && prop.isPrimary then populate info input policy target rest table
    else match info.valueForProperty input prop column with
      | .error error => (table, .error error)
      | .ok given =>
        if !target.created && given.isNone then populate info input policy target rest table
        else
          let value := given.or (info.defaultValues prop.name)
          if (value.getD .null = .null ∧ prop.isNullable = false) ∧
              (prop.isPrimary = true ∨ input.allowMissing = false) then
            (table, .error (.missingPropertyValue info.schema.name prop.name))
          else match value with
            | some value => populate info input policy target rest
                (table.setPropertyValue policy target.row column (prop.unbox value) given.isNone)
            | none => populate info input policy target rest table

def create (info : ClassInfo) (inMigration : Bool) (input : Input) (policy : CreatePolicy)
    (currentRow : Option Nat) (table : Table) : Table × Except Error Nat :=
  match locate info inMigration input policy currentRow table with
  | .error error => (table, .error error)
  | .ok (located, target) =>
    let (populated, result) := populate info input policy target info.properties located
    (populated, result.map fun _ => target.row)

/-- `RLMDynamicValidatedSet`, which the subscript of an object calls. -/
def dynamicValidatedSet (info : ClassInfo) (row : Nat) (key : String) (value : Value) (table : Table) :
    Table × Except Error Unit :=
  if row < table.rows.length then
    match info.properties.find? fun entry => entry.1.name == key with
    | none => (table, .error (.invalidPropertyName key info.schema.name))
    | some (prop, column) =>
      if prop.isPrimary then (table, .error (.modifyPrimaryKey value))
      else if prop.admits value then
        (table.setPropertyValue .forceCreate row column (prop.unbox value) false, .ok ())
      else (table, .error (.invalidValue value info.schema.name prop.name))
  else (table, .error .deletedOrInvalidated)

/-- The setter of a property in the accessor class. It does not validate what it is called with: a number
    has no UTF-8 string, and a column that is not nullable takes no `nil`. -/
def makeSetter (prop : Property) (column row : Nat) (argument : Value) (table : Table) : Table × Except Error Unit :=
  if prop.isPrimary then (table, .error .changePrimaryKey)
  else if row < table.rows.length then
    if prop.holds argument then (table.perform (.set row column argument false), .ok ())
    else if argument = .null then (table, .error .columnNotNullable)
    else (table, .error (.unrecognizedSelector argument))
  else (table, .error .deletedOrInvalidated)

/-- `setValue(_:forKey:)` of an accessor. -/
def setValue (info : ClassInfo) (row : Nat) (key : String) (value : Value) (table : Table) :
    Table × Except Error Unit :=
  match info.coding.call key value with
  | .error exception => (table, .error (.keyValueCoding exception))
  | .ok (prop, column, argument) => makeSetter prop column row argument table

end Object

theorem ClassInfo.mem_properties {info : ClassInfo} {prop : Property} {column : Nat} :
    (prop, column) ∈ info.properties ↔ info.schema.persistedProperties[column]? = some prop :=
  List.mem_zipIdx_iff_getElem?

theorem ClassInfo.primaryKey_listed {info : ClassInfo} {prop : Property} {column : Nat}
    (primary : info.schema.primaryKeyProperty = some (prop, column)) : (prop, column) ∈ info.properties :=
  ClassInfo.mem_properties.mpr (ObjectSchema.primaryKeyProperty_mem primary).1

theorem ClassInfo.valueForProperty_admits {info : ClassInfo} {input : Input} {prop : Property} {index : Nat}
    {value : Value} (given : info.valueForProperty input prop index = .ok (some value)) :
    prop.admits value = true := by
  unfold valueForProperty at given
  cases passed : input.propertyValue prop index with
  | none => simp [passed] at given
  | some other =>
    rw [passed] at given
    by_cases admitted : prop.admits other = true
    · simp only [admitted, if_true, Except.ok.injEq, Option.some.injEq] at given
      exact given ▸ admitted
    · simp [admitted] at given

/-- A value that is passed in or taken from the defaults. -/
theorem ClassInfo.value_admits {info : ClassInfo} {input : Input} {prop : Property} {column : Nat}
    {given : Option Value} {value : Value} (member : (prop, column) ∈ info.properties)
    (passed : info.valueForProperty input prop column = .ok given)
    (filled : given.or (info.defaultValues prop.name) = some value) : prop.admits value = true := by
  cases given with
  | some other =>
    cases filled
    exact info.valueForProperty_admits passed
  | none =>
    have listed : prop ∈ info.schema.persistedProperties :=
      List.mem_of_getElem? (ClassInfo.mem_properties.mp member)
    exact (info.defaultsFit prop listed value filled).2

theorem ClassInfo.primaryValue_admits {info : ClassInfo} {input : Input} {prop : Property} {column : Nat}
    {key : Value} (member : (prop, column) ∈ info.properties)
    (looked : info.primaryValue input prop column = .ok key) : prop.admits key = true := by
  unfold primaryValue at looked
  cases passed : info.valueForProperty input prop column with
  | error error => simp [passed] at looked
  | ok given =>
    rw [passed] at looked
    cases filled : given.or (info.defaultValues prop.name) with
    | some value =>
      simp only [filled, Except.ok.injEq] at looked
      exact looked ▸ info.value_admits member passed filled
    | none =>
      by_cases nullable : prop.isNullable = true
      · simp only [filled, nullable, if_true, Except.ok.injEq] at looked
        exact looked ▸ nullable
      · simp [filled, nullable] at looked

namespace Object

/-- A value that `populate` may set. -/
def Sets (info : ClassInfo) (target : Target) (instruction : Instruction) : Prop :=
  ∃ prop column value isDefault, instruction = .set target.row column value isDefault ∧
    (prop, column) ∈ info.properties ∧ prop.holds value = true ∧
    (target.skipPrimary = true → prop.isPrimary = false)

theorem setPropertyValue_sets {info : ClassInfo} {target : Target} {prop : Property} {column : Nat}
    {value : Value} (table : Table) (policy : CreatePolicy) (isDefault : Bool)
    (member : (prop, column) ∈ info.properties) (held : prop.holds value = true)
    (written : target.skipPrimary = true → prop.isPrimary = false) :
    ∃ sets, table.setPropertyValue policy target.row column value isDefault = table.performAll sets ∧
      ∀ instruction ∈ sets, Sets info target instruction := by
  unfold Table.setPropertyValue
  split
  · refine ⟨[.set target.row column value isDefault], rfl, ?_⟩
    intro instruction here
    rw [List.mem_singleton] at here
    exact ⟨prop, column, value, isDefault, here, member, held, written⟩
  · exact ⟨[], (table.performAll_nil).symm, by simp⟩

theorem populate_sets {info : ClassInfo} {entries : List (Property × Nat)}
    (known : ∀ entry ∈ entries, entry ∈ info.properties) (input : Input) (policy : CreatePolicy)
    (target : Target) (table : Table) :
    ∃ sets, (populate info input policy target entries table).1 = table.performAll sets ∧
      ∀ instruction ∈ sets, Sets info target instruction := by
  induction entries generalizing table with
  | nil => exact ⟨[], (table.performAll_nil).symm, by simp⟩
  | cons entry rest ih =>
    obtain ⟨prop, column⟩ := entry
    rw [List.forall_mem_cons] at known
    have stops : ∃ sets, table = table.performAll sets ∧ ∀ instruction ∈ sets, Sets info target instruction :=
      ⟨[], (table.performAll_nil).symm, by simp⟩
    rw [populate]
    by_cases skipped : (target.skipPrimary && prop.isPrimary) = true
    · rw [if_pos skipped]
      exact ih known.2 table
    · rw [if_neg skipped]
      cases passed : info.valueForProperty input prop column with
      | error error => exact stops
      | ok given =>
        simp only
        split
        · exact ih known.2 table
        · split
          · exact stops
          · cases filled : given.or (info.defaultValues prop.name) with
            | none => exact ih known.2 table
            | some value =>
              have written : target.skipPrimary = true → prop.isPrimary = false := by
                intro skips
                simpa [skips] using skipped
              have held := Property.holds_unbox (info.value_admits known.1 passed filled)
              obtain ⟨first, set, firstSets⟩ :=
                setPropertyValue_sets table policy given.isNone known.1 held written
              obtain ⟨later, populated, laterSets⟩ :=
                ih known.2 (table.setPropertyValue policy target.row column (prop.unbox value) given.isNone)
              refine ⟨first ++ later, ?_, ?_⟩
              · rw [← Table.performAll_performAll, ← set]
                exact populated
              · rw [List.forall_mem_append]
                exact ⟨firstSets, laterSets⟩

/-- All that the first half of `create` can do outside a migration. -/
inductive Located (info : ClassInfo) (input : Input) (policy : CreatePolicy) (table : Table) :
    Table → Target → Prop where
  | keyed {prop : Property} {column : Nat} {key : Value}
      (primary : info.schema.primaryKeyProperty = some (prop, column))
      (looked : info.primaryValue input prop column = .ok key)
      (fresh : table.findFirst column (prop.unbox key) = none) :
      Located info input policy table
        (table.performAll [.insertEmptyRow info.schema.emptyRow,
          .setUnique table.rows.length column (prop.unbox key)])
        { row := table.rows.length, created := true }
  | found {prop : Property} {column row : Nat} {key : Value}
      (primary : info.schema.primaryKeyProperty = some (prop, column))
      (looked : info.primaryValue input prop column = .ok key)
      (present : table.findFirst column (prop.unbox key) = some row) (updates : policy ≠ .forceCreate) :
      Located info input policy table table { row, created := false }
  | current {row : Nat} (keyless : info.schema.primaryKeyProperty = none)
      (updates : policy = .updateModified) :
      Located info input policy table table { row, created := false }
  | appended (keyless : info.schema.primaryKeyProperty = none) :
      Located info input policy table (table.performAll [.insertEmptyRow info.schema.emptyRow])
        { row := table.rows.length, created := true }

theorem addRow_setUnique (info : ClassInfo) (table : Table) (row column : Nat) (key : Value) :
    (addRow info table).perform (.setUnique row column key) =
      table.performAll [.insertEmptyRow info.schema.emptyRow, .setUnique row column key] :=
  table.performAll_performAll [.insertEmptyRow info.schema.emptyRow] [.setUnique row column key]

/-- A primary key that passes the checks of its property passes that of the lookup. -/
theorem locate_keyed {info : ClassInfo} {input : Input} {policy : CreatePolicy} {currentRow : Option Nat}
    {table : Table} {prop : Property} {column : Nat}
    (primary : info.schema.primaryKeyProperty = some (prop, column)) :
    locate info false input policy currentRow table =
      match info.primaryValue input prop column with
      | .error error => .error error
      | .ok key =>
        match table.findFirst column (prop.unbox key) with
        | none => .ok (table.performAll [.insertEmptyRow info.schema.emptyRow,
            .setUnique table.rows.length column (prop.unbox key)], { row := table.rows.length, created := true })
        | some row =>
          if policy = .forceCreate then .error (.existingPrimaryKey info.schema.name key)
          else .ok (table, { row, created := false }) := by
  unfold locate
  simp only [primary]
  cases looked : info.primaryValue input prop column with
  | error error => rfl
  | ok key =>
    have present := Property.not_null_of_admits (info.primaryValue_admits (info.primaryKey_listed primary) looked)
    simp only [Table.getForPrimaryKey, present, if_false, addRow_setUnique, Bool.false_eq_true]
    cases table.findFirst column (prop.unbox key) <;> rfl

theorem locate_located {info : ClassInfo} {input : Input} {policy : CreatePolicy} {currentRow : Option Nat}
    {table located : Table} {target : Target}
    (ok : locate info false input policy currentRow table = .ok (located, target)) :
    Located info input policy table located target := by
  unfold locate at ok
  cases primary : info.schema.primaryKeyProperty with
  | none =>
    rw [primary] at ok
    cases policy <;> cases currentRow <;> cases ok
    all_goals first
      | exact .appended primary
      | exact .current primary rfl
  | some entry =>
    obtain ⟨prop, column⟩ := entry
    rw [primary] at ok
    cases looked : info.primaryValue input prop column with
    | error error => simp [looked] at ok
    | ok key =>
      simp only [looked, Table.getForPrimaryKey] at ok
      by_cases null : key = .null ∧ prop.isNullable = false
      · simp [null] at ok
      · rw [if_neg null] at ok
        cases search : table.findFirst column (prop.unbox key) with
        | none =>
          rw [search] at ok
          cases ok
          rw [addRow_setUnique]
          exact .keyed primary looked search
        | some row =>
          by_cases force : policy = .forceCreate
          · simp [search, force] at ok
          · simp only [search, force, if_false, Except.ok.injEq, Prod.mk.injEq] at ok
            obtain ⟨rfl, rfl⟩ := ok
            exact .found primary looked search force

end Object

end ZemogaSocial.ObjectStore
