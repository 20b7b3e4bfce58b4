import ZemogaSocial.Realm.TableView
import ZemogaSocial.Realm.Transaction

namespace ZemogaSocial

open ObjectStore

namespace ObjectStore

/-- `never` is the policy of a snapshot. -/
inductive Results.UpdatePolicy where
  | auto
  | never
  deriving DecidableEq, Repr

/-- The mode of a collection, with what it has in this mode. -/
inductive Results where
  | empty
  | table
  | query (query : Row → Bool)
  | tableView (view : TableView) (updatePolicy : Results.UpdatePolicy)

structure OutOfBoundsIndex where
  requested : Nat
  validCount : Nat
  deriving DecidableEq, Repr

namespace Results

/-- Whether the accessor of the table, which an empty collection does not have, is attached. -/
def isValid (detached : Bool) : Results → Bool
  | .empty => true
  | .table | .query _ | .tableView _ _ => !detached

variable (table : TableAccessor)

/-- The view that has been evaluated, `m_table_view`. -/
def rowIndexes : Results → List (Option Nat)
  | .tableView view _ => view.rowIndexes
  | .empty | .table | .query _ => []

def evaluateQueryIfNeeded : Results → Results
  | .query condition => .tableView ((table.findAll condition).syncIfNeeded table) .auto
  | .tableView view .auto => .tableView (view.syncIfNeeded table) .auto
  | results => results

def size : Results → Nat × Results
  | .empty => (0, .empty)
  | .table => (table.rows.length, .table)
  | .query condition => (table.rows.countP condition, .query condition)
  | .tableView view policy =>
    let results := evaluateQueryIfNeeded table (.tableView view policy)
    (results.rowIndexes.length, results)

/-- An object that has been deleted is a detached row. -/
def tryGet (rowNdx : Nat) : Results → Option (Option Nat) × Results
  | .empty => (none, .empty)
  | .table => (if rowNdx < table.rows.length then some (some rowNdx) else none, .table)
  | results =>
    let results := results.evaluateQueryIfNeeded table
    (results.rowIndexes[rowNdx]?, results)

def get (rowNdx : Nat) (results : Results) : Except OutOfBoundsIndex (Option Nat) × Results :=
  match results.tryGet table rowNdx with
  | (some row, results) => (.ok row, results)
  | (none, results) =>
    let (validCount, results) := results.size table
    (.error { requested := rowNdx, validCount }, results)

def first (results : Results) : Option (Option Nat) × Results := results.tryGet table 0

def last (results : Results) : Option (Option Nat) × Results :=
  let results := match results with
    | .query condition => evaluateQueryIfNeeded table (.query condition)
    | results => results
  let (size, results) := results.size table
  -- of no rows, neither 0 nor the `size_t` below it is one
  results.tryGet table (size - 1)

/-- The place of a row of the table in the collection. -/
def indexOf (row : Nat) : Results → Option Nat × Results
  | .empty => (none, .empty)
  | .table => (some row, .table)
  | results =>
    let results := results.evaluateQueryIfNeeded table
    (results.rowIndexes.idxOf? (some row), results)

def getTableview : Results → List (Option Nat) × Results
  | .empty => ([], .empty)
  | .table => ((table.findAll fun _ => true).rowIndexes, .table)
  | results =>
    let results := results.evaluateQueryIfNeeded table
    (results.rowIndexes, results)

def freeze : Results → Results
  | .tableView view _ => .tableView view .never
  | results => results

def snapshot : Results → Results
  | .empty => .empty
  | .table => (evaluateQueryIfNeeded table (.query fun _ => true)).freeze
  | results => (results.evaluateQueryIfNeeded table).freeze

/-- The collection that is left as instructions are performed on the table. -/
def follow (instructions : List Instruction) : Results → Results
  | .tableView view policy => .tableView (view.follow table instructions) policy
  | results => results

/-- The collection that is left as the log of the table is rolled back. -/
def rollBack (rows : List Row) (log : List Instruction) : Results → Results
  | .tableView view policy => .tableView (view.rollBack rows log) policy
  | results => results

/-- The view of a query has that query itself, so what is filtered is the query and not the rows. -/
def filter (condition : Row → Bool) : Results → Results
  | .empty => .empty
  | .table => .query condition
  | .query earlier => .query fun cells => earlier cells && condition cells
  | .tableView view _ => .query fun cells => view.query cells && condition cells

end Results

end ObjectStore

/-- A Realm and a collection of the objects of one class in it. The accessor of the table is detached for
    good when the Realm is invalidated. -/
structure Reader where
  realm : Realm
  version : Nat := 0
  detached : Bool := false
  results : Results

namespace Reader

inductive Access where
  | count
  | get (index : Nat)
  | first
  | last
  | indexOf (row : Nat)
  | tableView

inductive Event where
  | beginWrite
  | commitWrite
  | cancelWrite
  | invalidate
  | operate (name : String) (operations : List Row → List Operation)
  | setValue (key : String) (value : Value)
  | deleteObjects
  | access (access : Access)

inductive Answer where
  | ended (outcome : Outcome)
  | count (size : Nat)
  | object (row : Option Nat)
  | noObject
  | outOfBounds (index : OutOfBoundsIndex)
  | index (index : Option Nat)
  | objectInvalidated
  | resultsInvalidated
  | rows (rows : List (Option Nat))
  deriving DecidableEq, Repr

variable (infos : String → ClassInfo) (name : String)

def table (reader : Reader) : TableAccessor := { rows := reader.realm.rows name, version := reader.version }

def isInvalidated (reader : Reader) : Bool := !reader.results.isValid reader.detached

def read (reader : Reader) : Access → Reader × Answer
  | .count =>
    let (size, results) := reader.results.size (reader.table name)
    ({ reader with results }, .count size)
  | .get index =>
    match reader.results.get (reader.table name) index with
    | (.ok row, results) => ({ reader with results }, .object row)
    | (.error error, results) => ({ reader with results }, .outOfBounds error)
  | .first =>
    match reader.results.first (reader.table name) with
    | (some row, results) => ({ reader with results }, .object row)
    | (none, results) => ({ reader with results }, .noObject)
  | .last =>
    match reader.results.last (reader.table name) with
    | (some row, results) => ({ reader with results }, .object row)
    | (none, results) => ({ reader with results }, .noObject)
  | .indexOf row =>
    if row < (reader.table name).rows.length then
      let (index, results) := reader.results.indexOf (reader.table name) row
      ({ reader with results }, .index index)
    else (reader, .objectInvalidated)
  | .tableView =>
    let (rows, results) := reader.results.getTableview (reader.table name)
    ({ reader with results }, .rows rows)

/-- Every access begins with `validate_read`. -/
def access (reader : Reader) (access : Access) : Reader × Answer :=
  if reader.isInvalidated then (reader, .resultsInvalidated) else reader.read name access

/-- Code that writes to the Realm, and what its views make of it. -/
def operate (reader : Reader) (other : String) (operations : List Row → List Operation) : Reader × Answer :=
  let ended := reader.realm.operate infos other operations
  let instructions := reader.realm.performed name ended.realm
  ({ reader with
     realm := ended.realm
     version := reader.version + instructions.length
     results := reader.results.follow (reader.table name) instructions }, .ended ended.outcome)

/-- The tables go back to the file. -/
def rollBack (reader : Reader) : Reader where
  realm := { reader.realm with draft := none }
  version := reader.version + (reader.realm.log name).length
  detached := reader.detached
  results := reader.results.rollBack (reader.realm.group name) (reader.realm.log name)

/-- `setValue(_:forKey:)`, which goes through the rows of a copy of the view. -/
def setValue (reader : Reader) (key : String) (value : Value) : Reader × Answer :=
  if reader.realm.isInWriteTransaction then
    if reader.isInvalidated then (reader, .resultsInvalidated)
    else
      let (rows, results) := reader.results.getTableview (reader.table name)
      if rows.isEmpty then ({ reader with results }, .ended .returned)
      else operate infos name { reader with results } name fun _ =>
        rows.reduceOption.map fun row => .setValue row key value
  else (reader, .ended (.raised .notInWriteTransaction))

/-- `deleteObjectsFromRealm`: a table is cleared, of a query the view is. -/
def deleteObjects (reader : Reader) : Reader × Answer :=
  if reader.isInvalidated then (reader, .resultsInvalidated)
  else match reader.results with
  | .empty => (reader, .ended .returned)
  | results =>
    if reader.realm.isInWriteTransaction then
      match results.evaluateQueryIfNeeded (reader.table name) with
      | .tableView view policy =>
        let ended := reader.realm.operate infos name fun _ => view.attachedRows.map .delete
        let instructions := reader.realm.performed name ended.realm
        let left := match policy with
          | .auto => view.cleared (reader.table name) instructions
          -- a snapshot keeps its size, so a copy of it is cleared
          | .never => view.follow (reader.table name) instructions
        ({ reader with
           realm := ended.realm
           version := reader.version + instructions.length
           results := .tableView left policy }, .ended ended.outcome)
      | _ => operate infos name reader name fun _ => [.clear]
    else (reader, .ended (.raised .notInWriteTransaction))

def handle (reader : Reader) : Event → Reader × Answer
  | .beginWrite => ({ reader with realm := reader.realm.beginWrite.realm }, .ended reader.realm.beginWrite.outcome)
  | .commitWrite => ({ reader with realm := reader.realm.commitWrite.realm }, .ended reader.realm.commitWrite.outcome)
  | .cancelWrite => (reader.rollBack name, .ended reader.realm.cancelWrite.outcome)
  | .invalidate => ({ reader.rollBack name with detached := true }, .ended reader.realm.invalidate.outcome)
  | .operate other operations => reader.operate infos name other operations
  | .setValue key value => reader.setValue infos name key value
  | .deleteObjects => reader.deleteObjects infos name
  | .access access => reader.access name access

end Reader

end ZemogaSocial
