import Mathlib.Logic.Function.Basic
import ZemogaSocial.Realm.Instructions

namespace ZemogaSocial

open ObjectStore Transition

/-- The rows of each class. -/
abbrev Group := String → List Row

/-- What a commit writes: the log of each table. -/
abbrev Changeset := String → List Instruction

/-- The instance of a thread: the latest version of the file, and the tables of its write transaction when
    it is in one. `faults` are the errors that its next commits run into, if they do; later ones succeed. -/
structure Realm where
  group : Group
  draft : Option (String → Table) := none
  faults : List (Option String) := []

/-- Objective-C exceptions. -/
inductive RealmException where
  | alreadyInWriteTransaction
  | nothingToCancel
  | notInWriteTransaction
  | object (error : ObjectStore.Error)
  deriving DecidableEq, Repr

/-- A Swift function returns or throws an error, here its description; what Objective-C raises
    passes through it unhandled. -/
inductive Outcome where
  | returned
  | threw (error : String)
  | raised (exception : RealmException)
  deriving DecidableEq, Repr

/-- What an operation raises outside a transaction. A setter looks at its arguments first. -/
def ObjectStore.Operation.refusal (info : ClassInfo) (rows : List Row) : Operation → RealmException
  | .create _ _ _ | .delete _ | .clear => .notInWriteTransaction
  | .set row key value =>
    match (Object.dynamicValidatedSet info row key value { rows }).2 with
    | .error error => .object error
    | .ok () => .notInWriteTransaction
  | .setValue row key value =>
    match info.coding.call key value with
    | .error exception => .object (.keyValueCoding exception)
    | .ok (prop, _, _) =>
      if prop.isPrimary then .object .changePrimaryKey
      else if row < rows.length then .notInWriteTransaction
      else .object .deletedOrInvalidated

structure Execution where
  realm : Realm
  commits : List Changeset := []
  outcome : Outcome := .returned

def Execution.andThen (first : Execution) (next : Realm → Execution) : Execution :=
  match first.outcome with
  | .returned =>
    let later := next first.realm
    { later with commits := first.commits ++ later.commits }
  | .threw _ | .raised _ => first

namespace Execution

theorem andThen_done (execution : Execution) : (execution.andThen fun realm => { realm }) = execution := by
  unfold andThen
  cases outcome : execution.outcome with
  | returned =>
    obtain ⟨realm, commits, _⟩ := execution
    cases outcome
    simp
  | threw error => rfl
  | raised exception => rfl

theorem andThen_assoc (execution : Execution) (first second : Realm → Execution) :
    (execution.andThen first).andThen second = execution.andThen fun realm => (first realm).andThen second := by
  unfold andThen
  cases outcome : execution.outcome with
  | threw error => simp only [outcome]
  | raised exception => simp only [outcome]
  | returned =>
    simp only
    cases ended : (first execution.realm).outcome <;> simp [ended]

end Execution

namespace Realm

def isInWriteTransaction (realm : Realm) : Bool := realm.draft.isSome

/-- What a query sees: in a write transaction, what it has done so far. -/
def rows (realm : Realm) : Group :=
  match realm.draft with
  | none => realm.group
  | some draft => fun name => (draft name).rows

def beginWrite (realm : Realm) : Execution :=
  if realm.isInWriteTransaction then { realm, outcome := .raised .alreadyInWriteTransaction }
  else { realm := { realm with draft := some fun name => { rows := realm.group name } } }

def fault (realm : Realm) : Option String := realm.faults.head?.join

/-- Unlike the exceptions of the other two, any that a commit meets is passed on as an `NSError`. A commit
    that fails leaves its transaction open. -/
def commitWrite (realm : Realm) : Execution :=
  match realm.draft, realm.fault with
  | none, _ => { realm, outcome := .threw "Can't commit a non-existing write transaction" }
  | some _, some error => { realm := { realm with faults := realm.faults.tail }, outcome := .threw error }
  | some draft, none =>
    { realm := { group := fun name => (draft name).rows, faults := realm.faults.tail }
      commits := [fun name => (draft name).log] }

def cancelWrite (realm : Realm) : Execution :=
  match realm.draft with
  | none => { realm, outcome := .raised .nothingToCancel }
  | some _ => { realm := { realm with draft := none } }

def invalidate (realm : Realm) : Execution :=
  if realm.isInWriteTransaction then realm.cancelWrite else { realm }

/-- What follows the block of `write`. -/
def settle (block : Execution) : Execution :=
  match block.outcome with
  | .returned => if block.realm.isInWriteTransaction then block.andThen commitWrite else block
  | .threw _ =>
    if block.realm.isInWriteTransaction then { block with realm := block.realm.cancelWrite.realm } else block
  | .raised _ => block

def write (realm : Realm) (block : Realm → Execution) : Execution :=
  realm.beginWrite.andThen fun begun => settle (block begun)

/-- What the first of some operations raises, or a query that has found none, outside a transaction. -/
def refusal (infos : String → ClassInfo) (name : String) (rows : List Row) : List Operation → RealmException
  | [] => .notInWriteTransaction
  | operation :: _ => operation.refusal (infos name) rows

/-- Operations on one class. Which they are can depend on the rows that a query finds. -/
def operate (infos : String → ClassInfo) (name : String) (operations : List Row → List Operation)
    (realm : Realm) : Execution :=
  match realm.draft with
  | none => { realm, outcome := .raised (refusal infos name (realm.group name) (operations (realm.group name))) }
  | some draft =>
    let (table, result) := Operation.performEach (infos name) (draft name) (operations (draft name).rows)
    { realm := { realm with draft := some (Function.update draft name table) }
      outcome := match result with
        | .ok () => .returned
        | .error error => .raised (.object error) }

/-- What the write transaction has done to a class so far. -/
def log (realm : Realm) (name : String) : List Instruction :=
  match realm.draft with
  | none => []
  | some draft => (draft name).log

/-- The instructions of a write transaction between two of its states. -/
def performed (name : String) (before after : Realm) : List Instruction :=
  (after.log name).drop (before.log name).length

/-- What a write transaction sees is what its log makes of the file. -/
structure Logged (realm : Realm) : Prop where
  replayed : ∀ name, realm.rows name = (realm.log name).foldl Instruction.apply (realm.group name)
  attached : ∀ name, Accepted Instruction.apply Instruction.Attached (realm.group name) (realm.log name)

section Logs

variable {infos : String → ClassInfo} {realm : Realm}

theorem rows_closed (closed : realm.draft = none) : realm.rows = realm.group := by
  rw [rows, closed]

theorem log_closed (closed : realm.draft = none) (name : String) : realm.log name = [] := by
  rw [log, closed]

theorem logged_closed (closed : realm.draft = none) : realm.Logged where
  replayed name := by
    rw [rows_closed closed, log_closed closed]
    rfl
  attached name := by
    rw [log_closed closed]
    exact True.intro

theorem operate_closed (closed : realm.draft = none) (name : String) (operations : List Row → List Operation) :
    realm.operate infos name operations =
      { realm, outcome := .raised (refusal infos name (realm.group name) (operations (realm.group name))) } := by
  rw [operate, closed]

theorem operate_group (realm : Realm) (name : String) (operations : List Row → List Operation) :
    (realm.operate infos name operations).realm.group = realm.group := by
  unfold operate
  cases realm.draft <;> rfl

/-- What a list of operations does to a class is appended to the log, and done to the rows. -/
theorem operate_performs (infos : String → ClassInfo) (realm : Realm) (name other : String)
    (operations : List Row → List Operation) :
    ∃ instructions, (realm.operate infos other operations).realm.log name = realm.log name ++ instructions ∧
      (realm.operate infos other operations).realm.rows name = instructions.foldl Instruction.apply (realm.rows name) ∧
      Accepted Instruction.apply Instruction.Attached (realm.rows name) instructions := by
  cases opened : realm.draft with
  | none =>
    rw [operate_closed opened]
    exact ⟨[], (List.append_nil _).symm, rfl, True.intro⟩
  | some draft =>
    by_cases same : name = other
    · subst same
      obtain ⟨instructions, written, attached⟩ :=
        performEach_performs (infos name) (operations (draft name).rows) (draft name)
      refine ⟨instructions, ?_, ?_, ?_⟩
      · simp only [operate, log, opened, Function.update_self, written, Table.performAll]
      · simp only [operate, rows, opened, Function.update_self, written, Table.performAll]
      · rw [rows, opened]
        exact attached
    · refine ⟨[], ?_, ?_, True.intro⟩
      · simp only [operate, log, opened, Function.update_of_ne same, List.append_nil]
      · simp only [operate, rows, opened, Function.update_of_ne same, List.foldl_nil]

theorem Logged.operate (logged : realm.Logged) (other : String) (operations : List Row → List Operation) :
    (realm.operate infos other operations).realm.Logged := by
  constructor
  · intro name
    obtain ⟨instructions, appended, written, _⟩ := realm.operate_performs infos name other operations
    rw [written, appended, operate_group, List.foldl_append, ← logged.replayed]
  · intro name
    obtain ⟨instructions, appended, _, attached⟩ := realm.operate_performs infos name other operations
    rw [appended, operate_group, accepted_append, ← logged.replayed]
    exact ⟨logged.attached name, attached⟩

theorem Logged.beginWrite (logged : realm.Logged) : realm.beginWrite.realm.Logged := by
  unfold Realm.beginWrite
  split
  · exact logged
  · exact ⟨fun _ => rfl, fun _ => True.intro⟩

theorem Logged.commitWrite (logged : realm.Logged) : realm.commitWrite.realm.Logged := by
  unfold Realm.commitWrite
  cases opened : realm.draft with
  | none => exact logged
  | some draft =>
    cases realm.fault with
    | none => exact logged_closed rfl
    | some error =>
      have replayed := logged.replayed
      have attached := logged.attached
      simp only [rows, log, opened] at replayed attached
      exact ⟨replayed, attached⟩

theorem cancelWrite_closes (realm : Realm) : realm.cancelWrite.realm = { realm with draft := none } := by
  unfold Realm.cancelWrite
  cases opened : realm.draft with
  | none =>
    obtain ⟨group, draft, faults⟩ := realm
    cases opened
    rfl
  | some draft => rfl

theorem invalidate_closes (realm : Realm) : realm.invalidate.realm = { realm with draft := none } := by
  unfold Realm.invalidate
  split
  · exact realm.cancelWrite_closes
  · rename_i closed
    obtain ⟨group, draft, faults⟩ := realm
    rw [isInWriteTransaction, Bool.not_eq_true, Option.isSome_eq_false_iff, Option.isNone_iff_eq_none] at closed
    cases closed
    rfl

end Logs

end Realm

/-- Code that uses a Realm, and goes on as it finds the rows that it reads; `attempt` is `try?`. -/
inductive Program where
  | done
  | andThen (first second : Program)
  | read (next : Group → Program)
  | beginWrite
  | commitWrite
  | cancelWrite
  | invalidate
  | operate (name : String) (operations : List Row → List Operation)
  | throwing (error : String)
  | write (block : Program)
  | attempt (body : Program)

namespace Program

variable (infos : String → ClassInfo)

def exec : Program → Realm → Execution
  | .done, realm => { realm }
  | .andThen first second, realm => (first.exec realm).andThen second.exec
  | .read next, realm => (next realm.rows).exec realm
  | .beginWrite, realm => realm.beginWrite
  | .commitWrite, realm => realm.commitWrite
  | .cancelWrite, realm => realm.cancelWrite
  | .invalidate, realm => realm.invalidate
  | .operate name operations, realm => realm.operate infos name operations
  | .throwing error, realm => { realm, outcome := .threw error }
  | .write block, realm => realm.write block.exec
  | .attempt body, realm =>
    let ended := body.exec realm
    match ended.outcome with
    | .threw _ => { ended with outcome := .returned }
    | .returned | .raised _ => ended

end Program

end ZemogaSocial
