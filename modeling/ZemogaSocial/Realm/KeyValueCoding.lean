import ZemogaSocial.Realm.Table

namespace ZemogaSocial.ObjectStore

/-- What Foundation raises itself, without a setter. -/
inductive KeyValueCoding.Exception where
  | undefinedKey (key : String)
  | nilValue (key : String)
  deriving DecidableEq, Repr

/-- `setValue(_:forKey:)` as an accessor class inherits it from Foundation, where `null` is `nil`: the property
    whose setter it calls, its column and the argument, which for a number is unboxed. -/
structure KeyValueCoding (schema : ObjectSchema) where
  call : String → Value → Except KeyValueCoding.Exception (Property × Nat × Value)
  listed : ∀ {key : String} {value argument : Value} {prop : Property} {column : Nat},
    call key value = .ok (prop, column, argument) → (prop, column) ∈ schema.persistedProperties.zipIdx

namespace KeyValueCoding

/-- The decimal digits that a text starts with. -/
def magnitude (text : List Char) : Nat :=
  (text.takeWhile Char.isDigit).foldl (fun number digit => 10 * number + (digit.toNat - '0'.toNat)) 0

/-- `longLongValue`; of a string it is the number that follows its blanks, clamped to the type. -/
def longLongValue : Value → Int64
  | .null => 0
  | .int number => number
  | .bool flag => if flag then 1 else 0
  | .string text =>
    match text.toList.dropWhile Char.isWhitespace with
    | '-' :: digits => .ofIntClamp (-(magnitude digits : Int))
    | '+' :: digits | digits => .ofIntClamp (magnitude digits)

/-- `boolValue`; of a string the first character after blanks, a sign and zeroes decides. -/
def boolValue : Value → Bool
  | .null => false
  | .int number => number != 0
  | .bool flag => flag
  | .string text =>
    match text.toList.dropWhile Char.isWhitespace with
    | '-' :: rest | '+' :: rest | rest => (rest.dropWhile (· == '0')).head?.any "YyTt123456789".toList.contains

def unbox (prop : Property) (value : Value) : Value :=
  match prop.type with
  | .int => .int (longLongValue value)
  | .bool => .bool (boolValue value)
  | .string => value

/-- The keys are the names of the properties. A number that is not optional is a scalar, and `nil` is none. -/
def ofNames (schema : ObjectSchema) : KeyValueCoding schema where
  call key value :=
    match schema.persistedProperties.zipIdx.find? fun entry => entry.1.name == key with
    | none => .error (.undefinedKey key)
    | some (prop, column) =>
      if value ≠ .null then .ok (prop, column, unbox prop value)
      else if prop.isNullable || prop.type == .string then .ok (prop, column, .null)
      else .error (.nilValue key)
  listed := by
    intro key value argument prop column called
    cases found : schema.persistedProperties.zipIdx.find? fun entry => entry.1.name == key with
    | none => simp [found] at called
    | some entry =>
      have member := List.mem_of_find?_eq_some found
      simp only [found] at called
      split at called
      · cases called
        exact member
      · split at called
        · cases called
          exact member
        · cases called

end KeyValueCoding

end ZemogaSocial.ObjectStore
