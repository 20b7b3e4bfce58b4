import ZemogaSocial.Realm.Instructions

namespace ZemogaSocial.ObjectStore

open Keyed Transition

/-- A table as its accessor has it; every change raises the version. -/
structure TableAccessor where
  rows : List Row
  version : Nat := 0

/-- The rows that a query has found; `none` is a detached reference. -/
structure TableView where
  query : Row → Bool
  rowIndexes : List (Option Nat)
  lastSeenVersion : Nat

namespace TableAccessor

def perform (table : TableAccessor) (instruction : Instruction) : TableAccessor where
  rows := instruction.apply table.rows
  version := table.version + 1

def performAll (table : TableAccessor) (instructions : List Instruction) : TableAccessor :=
  instructions.foldl perform table

def findAll (table : TableAccessor) (query : Row → Bool) : TableView where
  query
  rowIndexes := (table.rows.findIdxs query).map some
  lastSeenVersion := table.version

theorem performAll_eq (table : TableAccessor) (instructions : List Instruction) : table.performAll instructions =
    { rows := instructions.foldl Instruction.apply table.rows, version := table.version + instructions.length } := by
  induction instructions generalizing table with
  | nil => rfl
  | cons instruction rest ih =>
    rw [performAll, List.foldl_cons, List.foldl_cons, List.length_cons, Nat.add_comm rest.length, ← Nat.add_assoc]
    exact ih (table.perform instruction)

end TableAccessor

namespace TableView

/-- What a table of this length does to the references of its views. -/
def adjust (view : TableView) (length : Nat) : Instruction → TableView
  | .moveLastOver row => { view with rowIndexes := view.rowIndexes.map (moveOver (length - 1) row) }
  | .clearTable => { view with rowIndexes := view.rowIndexes.map fun _ => none }
  | .insertEmptyRow _ | .setUnique _ _ _ | .set _ _ _ _ => view

def follow (view : TableView) (table : TableAccessor) : List Instruction → TableView
  | [] => view
  | instruction :: rest => (view.adjust table.rows.length instruction).follow (table.perform instruction) rest

/-- What taking back an instruction does to the references, in a table of this length. -/
def revert (view : TableView) (length : Nat) : Instruction → TableView
  | .insertEmptyRow _ => { view with rowIndexes := view.rowIndexes.map (moveOver (length - 1) (length - 1)) }
  | .moveLastOver row => { view with rowIndexes := view.rowIndexes.map (moveOver row length) }
  | .clearTable | .setUnique _ _ _ | .set _ _ _ _ => view

/-- The log is taken back from its end; `rows` are those before it. -/
def rollBack (view : TableView) (rows : List Row) : List Instruction → TableView
  | [] => view
  | instruction :: rest =>
    (view.rollBack (instruction.apply rows) rest).revert (instruction.apply rows).length instruction

def isInSync (view : TableView) (table : TableAccessor) : Bool := view.lastSeenVersion == table.version

def syncIfNeeded (view : TableView) (table : TableAccessor) : TableView :=
  if view.isInSync table then view else table.findAll view.query

/-- The attached rows as `clear` removes them. -/
def attachedRows (view : TableView) : List Nat := view.rowIndexes.reduceOption.mergeSort fun left right => right ≤ left

/-- The view after its own `clear`: an update through a view leaves it in sync if it was. -/
def cleared (view : TableView) (table : TableAccessor) (instructions : List Instruction) : TableView where
  query := view.query
  rowIndexes := []
  lastSeenVersion :=
    if view.isInSync table then table.version + instructions.length else view.lastSeenVersion

theorem adjust_query (view : TableView) (length : Nat) (instruction : Instruction) :
    (view.adjust length instruction).query = view.query := by
  cases instruction <;> rfl

theorem adjust_lastSeenVersion (view : TableView) (length : Nat) (instruction : Instruction) :
    (view.adjust length instruction).lastSeenVersion = view.lastSeenVersion := by
  cases instruction <;> rfl

theorem follow_query (view : TableView) (table : TableAccessor) (instructions : List Instruction) :
    (view.follow table instructions).query = view.query := by
  induction instructions generalizing view table with
  | nil => rfl
  | cons instruction rest ih => exact (ih _ _).trans (view.adjust_query table.rows.length instruction)

theorem rollBack_query (view : TableView) (rows : List Row) (instructions : List Instruction) :
    (view.rollBack rows instructions).query = view.query := by
  induction instructions generalizing rows with
  | nil => rfl
  | cons instruction rest ih =>
    refine Eq.trans ?_ (ih (instruction.apply rows))
    cases instruction <;> rfl

theorem rollBack_lastSeenVersion (view : TableView) (rows : List Row) (instructions : List Instruction) :
    (view.rollBack rows instructions).lastSeenVersion = view.lastSeenVersion := by
  induction instructions generalizing rows with
  | nil => rfl
  | cons instruction rest ih =>
    refine Eq.trans ?_ (ih (instruction.apply rows))
    cases instruction <;> rfl

end TableView

section Current

/-- A view that has seen the version of the table is what its query finds. -/
structure Current (table : TableAccessor) (view : TableView) : Prop where
  seen : view.lastSeenVersion ≤ table.version
  synced : view.lastSeenVersion = table.version → view.rowIndexes = (table.rows.findIdxs view.query).map some

namespace Current

variable {table : TableAccessor} {view : TableView}

theorem findAll (table : TableAccessor) (query : Row → Bool) : Current table (table.findAll query) :=
  ⟨Nat.le_refl _, fun _ => rfl⟩

theorem adjust (current : Current table view) (instruction : Instruction) :
    Current (table.perform instruction) (view.adjust table.rows.length instruction) := by
  have seen := current.seen
  have later : (table.perform instruction).version = table.version + 1 := rfl
  constructor
  · rw [view.adjust_lastSeenVersion, later]
    omega
  · intro same
    rw [view.adjust_lastSeenVersion, later] at same
    omega

theorem follow (current : Current table view) (instructions : List Instruction) :
    Current (table.performAll instructions) (view.follow table instructions) := by
  induction instructions generalizing table view with
  | nil => exact current
  | cons instruction rest ih => exact ih (current.adjust instruction)

/-- What is rolled back counts as a change of the table, unless nothing has been written. -/
theorem rollBack {rows : List Row} {log : List Instruction} (current : Current table view)
    (replayed : table.rows = log.foldl Instruction.apply rows) :
    Current { rows, version := table.version + log.length } (view.rollBack rows log) := by
  have seen := current.seen
  constructor
  · rw [view.rollBack_lastSeenVersion]
    exact Nat.le_trans seen (Nat.le_add_right _ _)
  · intro same
    rw [view.rollBack_lastSeenVersion] at same
    have nothing : log = [] := by
      apply List.eq_nil_of_length_eq_zero
      simp only at same
      omega
    subst nothing
    have unchanged : table.rows = rows := replayed
    rw [← unchanged]
    exact current.synced same

theorem syncIfNeeded (current : Current table view) : view.syncIfNeeded table = table.findAll view.query := by
  unfold TableView.syncIfNeeded
  by_cases same : view.lastSeenVersion = table.version
  · have found := current.synced same
    rw [if_pos (by simp [TableView.isInSync, same])]
    obtain ⟨query, rowIndexes, version⟩ := view
    simp only at same found
    subst same found
    rfl
  · rw [if_neg (by simp [TableView.isInSync, same])]

end Current

end Current

section References

/-- The rows of a table go by their numbers from one instruction to the next. -/
def Instruction.follow (roll : Roll) : Instruction → Roll
  | .insertEmptyRow _ => roll.insert
  | .moveLastOver row => roll.moveLastOver row
  | .clearTable => roll.clear
  | .setUnique _ _ _ | .set _ _ _ _ => roll

variable {roll : Roll} {rows : List Row} {instruction : Instruction} {number : Nat}

theorem follow_length (counted : roll.stored.length = rows.length) (instruction : Instruction) :
    (instruction.follow roll).stored.length = (instruction.apply rows).length := by
  cases instruction with
  | insertEmptyRow cells =>
    rw [Instruction.follow, Instruction.apply, Roll.insert, List.length_append, List.length_append, counted]
    rfl
  | moveLastOver row => exact (moveLastOver_length _ _).trans (counted ▸ (moveLastOver_length _ _).symm)
  | clearTable => rfl
  | setUnique row column value => rw [Instruction.apply, List.length_modify]; exact counted
  | set row column value isDefault => rw [Instruction.apply, List.length_modify]; exact counted

theorem foldl_follow_length (counted : roll.stored.length = rows.length) (instructions : List Instruction) :
    (instructions.foldl Instruction.follow roll).stored.length =
      (instructions.foldl Instruction.apply rows).length := by
  induction instructions generalizing roll rows with
  | nil => exact counted
  | cons instruction rest ih => exact ih (follow_length counted instruction)

theorem follow_inserted (roll : Roll) (instruction : Instruction) :
    roll.inserted ≤ (instruction.follow roll).inserted := by
  cases instruction with
  | insertEmptyRow cells => exact Nat.le_succ _
  | moveLastOver | clearTable | setUnique | set => exact Nat.le_refl _

/-- The references of a view are to the rows of these numbers, wherever they are. -/
structure Refers (table : TableAccessor) (roll : Roll) (numbers : List Nat) (view : TableView) : Prop where
  counted : roll.stored.length = table.rows.length
  known : ∀ number ∈ numbers, number < roll.inserted
  places : view.rowIndexes = numbers.map roll.place

variable {table : TableAccessor} {numbers : List Nat} {view : TableView}

theorem Refers.adjust (refers : Refers table roll numbers view) (attached : instruction.Attached table.rows) :
    Refers (table.perform instruction) (instruction.follow roll) numbers
      (view.adjust table.rows.length instruction) := by
  refine ⟨follow_length refers.counted instruction, ?_, ?_⟩
  · intro number member
    exact Nat.lt_of_lt_of_le (refers.known number member) (follow_inserted roll instruction)
  · cases instruction with
    | insertEmptyRow cells =>
      rw [TableView.adjust, Instruction.follow, refers.places]
      apply List.map_congr_left
      intro number member
      exact (Roll.place_insert (Nat.ne_of_lt (refers.known number member))).symm
    | moveLastOver row =>
      rw [TableView.adjust, Instruction.follow, refers.places, List.map_map, ← refers.counted]
      have bound : row < roll.stored.length := by
        rw [refers.counted]
        exact attached
      exact List.map_congr_left fun number _ => (Roll.place_moveLastOver bound number).symm
    | clearTable =>
      rw [TableView.adjust, Instruction.follow, refers.places, List.map_map]
      rfl
    | setUnique | set => exact refers.places

theorem Refers.follow {instructions : List Instruction} (refers : Refers table roll numbers view)
    (attached : Accepted Instruction.apply Instruction.Attached table.rows instructions) :
    Refers (table.performAll instructions) (instructions.foldl Instruction.follow roll) numbers
      (view.follow table instructions) := by
  induction instructions generalizing table roll view with
  | nil => exact refers
  | cons instruction rest ih => exact ih (refers.adjust attached.1) attached.2

end References

end ZemogaSocial.ObjectStore
