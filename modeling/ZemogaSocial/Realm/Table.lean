import Mathlib.Data.List.Forall2
import ZemogaSocial.Keyed.UnorderedRemoval

namespace ZemogaSocial.ObjectStore

inductive PropertyType where
  | int
  | bool
  | string
  deriving DecidableEq, Repr

/-- The content of a cell; `null` is `NSNull` or `nil` where a value is passed in. -/
inductive Value where
  | null
  | int (value : Int64)
  | bool (value : Bool)
  | string (value : String)
  deriving DecidableEq, Repr

structure Property where
  name : String
  type : PropertyType
  isNullable : Bool := false
  isPrimary : Bool := false
  deriving DecidableEq, Repr

namespace Property

/-- What a cell of the property can hold. -/
def holds (prop : Property) : Value → Bool
  | .null => prop.isNullable
  | .int _ => prop.type == .int
  | .bool _ => prop.type == .bool
  | .string _ => prop.type == .string

/-- `RLMValidateValue` for the types above. A number stands for a truth value if its `intValue` is 0 or 1. -/
def admits (prop : Property) : Value → Bool
  | .null => prop.isNullable
  | .int number => prop.type == .int || prop.type == .bool && (number.toInt32 == 0 || number.toInt32 == 1)
  | .bool _ => prop.type == .int || prop.type == .bool
  | .string _ => prop.type == .string

/-- The cell that an admitted value becomes: its `longLongValue`, `boolValue` or string. -/
def unbox (prop : Property) (value : Value) : Value :=
  match prop.type, value with
  | .int, .bool flag => .int (if flag then 1 else 0)
  | .bool, .int number => .bool (number != 0)
  | _, _ => value

def emptyCell (prop : Property) : Value :=
  if prop.isNullable then .null
  else match prop.type with
    | .int => .int 0
    | .bool => .bool false
    | .string => .string ""

theorem holds_emptyCell (prop : Property) : prop.holds prop.emptyCell = true := by
  unfold emptyCell
  by_cases nullable : prop.isNullable = true
  · rw [if_pos nullable]
    exact nullable
  · rw [if_neg nullable]
    cases type : prop.type <;> simp [holds, type]

theorem holds_unbox {prop : Property} {value : Value} (admitted : prop.admits value = true) :
    prop.holds (prop.unbox value) = true := by
  cases value <;> cases type : prop.type <;> simp_all [admits, holds, unbox]

theorem not_null_of_admits {prop : Property} {value : Value} (admitted : prop.admits value = true) :
    ¬ (value = .null ∧ prop.isNullable = false) := by
  intro missing
  rw [missing.1, admits, missing.2] at admitted
  cases admitted

theorem admits_of_holds {prop : Property} {value : Value} (held : prop.holds value = true) :
    prop.admits value = true := by
  cases value <;> simp_all [admits, holds]

theorem unbox_of_holds {prop : Property} {value : Value} (held : prop.holds value = true) :
    prop.unbox value = value := by
  cases value <;> cases type : prop.type <;> simp_all [holds, unbox]

end Property

abbrev Row := List Value

structure ObjectSchema where
  name : String
  persistedProperties : List Property

namespace ObjectSchema

def emptyRow (schema : ObjectSchema) : Row := schema.persistedProperties.map Property.emptyCell

/-- The primary key property and its column, which is its place among the properties. -/
def primaryKeyProperty (schema : ObjectSchema) : Option (Property × Nat) :=
  schema.persistedProperties.zipIdx.find? fun entry => entry.1.isPrimary

theorem primaryKeyProperty_mem {schema : ObjectSchema} {prop : Property} {column : Nat}
    (primary : schema.primaryKeyProperty = some (prop, column)) :
    schema.persistedProperties[column]? = some prop ∧ prop.isPrimary = true := by
  have marked := List.find?_some (p := fun entry : Property × Nat => entry.1.isPrimary) primary
  exact ⟨List.mem_zipIdx_iff_getElem?.mp (List.mem_of_find?_eq_some primary), marked⟩

end ObjectSchema

/-- One entry of the transaction log. -/
inductive Instruction where
  | insertEmptyRow (cells : Row)
  | setUnique (row column : Nat) (value : Value)
  | set (row column : Nat) (value : Value) (isDefault : Bool)
  | moveLastOver (row : Nat)
  | clearTable
  deriving DecidableEq, Repr

def Instruction.apply (rows : List Row) : Instruction → List Row
  | .insertEmptyRow cells => rows ++ [cells]
  | .setUnique row column value | .set row column value _ => rows.modify row fun cells => cells.set column value
  | .moveLastOver row => Keyed.moveLastOver rows row
  | .clearTable => []

/-- A table in a write transaction: its rows, and what the transaction has done to it so far. -/
structure Table where
  rows : List Row
  log : List Instruction := []
  deriving DecidableEq, Repr

namespace Table

def perform (table : Table) (instruction : Instruction) : Table where
  rows := instruction.apply table.rows
  log := table.log ++ [instruction]

def performAll (table : Table) (instructions : List Instruction) : Table where
  rows := instructions.foldl Instruction.apply table.rows
  log := table.log ++ instructions

def cell (table : Table) (row column : Nat) : Option Value := table.rows[row]? >>= fun cells => cells[column]?

/-- The first row with this value in the column. -/
def findFirst (table : Table) (column : Nat) (value : Value) : Option Nat :=
  table.rows.findIdx? fun cells => cells[column]? == some value

@[simp] theorem performAll_nil (table : Table) : table.performAll [] = table := by
  simp [performAll]

theorem performAll_performAll (table : Table) (first second : List Instruction) :
    (table.performAll first).performAll second = table.performAll (first ++ second) := by
  simp [performAll]

theorem modify_concat (rows : List Row) (cells : Row) (change : Row → Row) :
    (rows ++ [cells]).modify rows.length change = rows ++ [change cells] := by
  induction rows with
  | nil => rfl
  | cons first rest ih => exact congrArg (first :: ·) ih

theorem cell_eq_some {table : Table} {row column : Nat} {value : Value} :
    table.cell row column = some value ↔ ∃ cells, table.rows[row]? = some cells ∧ cells[column]? = some value :=
  Option.bind_eq_some_iff

theorem set_same {cells : Row} {column : Nat} {value : Value} (present : cells[column]? = some value) :
    cells.set column value = cells := by
  obtain ⟨bound, rfl⟩ := List.getElem?_eq_some_iff.mp present
  exact List.set_getElem_self bound

theorem modify_same {rows : List Row} {row : Nat} {cells : Row} {change : Row → Row}
    (here : rows[row]? = some cells) (same : change cells = cells) : rows.modify row change = rows := by
  apply List.ext_getElem?
  intro i
  rw [List.getElem?_modify]
  by_cases there : row = i
  · subst there
    simp [here, same]
  · simp [there]

theorem insertKeyed_rows (table : Table) (cells : Row) (column : Nat) (key : Value) :
    (table.performAll [.insertEmptyRow cells, .setUnique table.rows.length column key]).rows =
      table.rows ++ [cells.set column key] := modify_concat table.rows cells _

theorem findFirst_some {table : Table} {column row : Nat} {value : Value}
    (found : table.findFirst column value = some row) :
    ∃ cells, table.rows[row]? = some cells ∧ cells[column]? = some value := by
  obtain ⟨bound, holds, _⟩ := List.findIdx?_eq_some_iff_getElem.mp found
  exact ⟨table.rows[row], List.getElem?_eq_getElem bound, by simpa using holds⟩

theorem findFirst_none {table : Table} {column : Nat} {value : Value}
    (missing : table.findFirst column value = none) : ∀ cells ∈ table.rows, cells[column]? ≠ some value := by
  intro cells stored same
  have differs := List.findIdx?_eq_none_iff.mp missing cells stored
  simp [same] at differs

end Table

end ZemogaSocial.ObjectStore
