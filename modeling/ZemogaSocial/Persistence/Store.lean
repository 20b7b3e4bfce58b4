import ZemogaSocial.Keyed.Table
import ZemogaSocial.Models

namespace ZemogaSocial

abbrev Rows (ω : Type) [RealmObject ω] := Keyed.Table fun object : ω => RealmObject.primaryKey object

inductive RuntimeError where
  | NoRealmSet
  deriving DecidableEq, Repr

/-- What ends the process: the exception `Realm.add` raises under its default policy, which Swift
    cannot catch, or the trap of an array access. -/
inductive AbortReason where
  | existingPrimaryKey (key : Int64)
  | indexOutOfRange (index : Nat)
  deriving DecidableEq, Repr

/-- `durable` is what the transactions committed before the abort have left. -/
structure Abort (δ : Type) where
  reason : AbortReason
  durable : δ

inductive Failure (δ : Type) where
  | thrown (error : RuntimeError)
  | aborted (abort : Abort δ)

/-- A store object with the table its Realm holds. All handles open the default Realm, so of
    `realm` only whether it has been set matters. -/
structure Store (ω : Type) [RealmObject ω] where
  realm : Bool
  table : Rows ω

namespace Store

variable {α ω : Type} [RealmObject ω] [Persistable α ω]

def opened (store : Store ω) : Store ω := { store with realm := true }

def save (store : Store ω) (object : ω) : Except (Failure (Rows ω)) (Store ω) :=
  if store.realm then
    match store.table.add object with
    | .ok table => .ok { store with table }
    | .error key => .error (.aborted ⟨.existingPrimaryKey key, store.table⟩)
  else .error (.thrown .NoRealmSet)

/-- `NoRealmSet` is caught and printed for each element; a raised exception is not caught. -/
def saveAll (store : Store ω) : List α → Except (Abort (Rows ω)) (Store ω)
  | [] => .ok store
  | value :: rest =>
    match store.save (Persistable.managedObject value) with
    | .ok saved => saved.saveAll rest
    | .error (.thrown .NoRealmSet) => store.saveAll rest
    | .error (.aborted abort) => .error abort

/-- Each `save` that the loop executes: the store it finds and the object it adds. -/
def executedSaves (store : Store ω) : List α → List (Store ω × ω)
  | [] => []
  | value :: rest => (store, Persistable.managedObject value) ::
    match store.save (Persistable.managedObject value) with
    | .ok saved => saved.executedSaves rest
    | .error (.thrown .NoRealmSet) => store.executedSaves rest
    | .error (.aborted _) => []

/-- The store after exactly `n` committed transactions of that loop, if it gets so far. -/
def stoppedAfter : Nat → Store ω → List α → Option (Store ω)
  | 0, store, _ => some store
  | _ + 1, _, [] => none
  | n + 1, store, value :: rest =>
    match store.save (Persistable.managedObject value) with
    | .ok saved => saved.stoppedAfter n rest
    | .error (.thrown .NoRealmSet) => store.stoppedAfter (n + 1) rest
    | .error (.aborted _) => none

/-- An unsorted query yields the matching rows in table order. -/
def retrieve (store : Store ω) (p : ω → Bool) : Except RuntimeError (List ω) :=
  if store.realm then .ok (store.table.rows.filter p) else .error .NoRealmSet

def load (retrieve : Store ω → Except RuntimeError (List ω)) (store : Store ω) :
    Store ω × Option (List α) :=
  let store := store.opened
  match retrieve store with
  | .ok objects => (store, some (objects.map Persistable.ofManaged))
  | .error _ => (store, none)

def deleteAll (store : Store ω) : Store ω × Bool :=
  ({ store.opened with table := Keyed.Table.empty }, true)

@[simp] theorem opened_realm (store : Store ω) : store.opened.realm = true := rfl
@[simp] theorem opened_table (store : Store ω) : store.opened.table = store.table := rfl
theorem load_eq (store : Store ω) (p : ω → Bool) :
    (store.load (fun store => store.retrieve p) : Store ω × Option (List α)) = (store.opened, some
      ((store.table.rows.filter p).map Persistable.ofManaged)) := rfl

theorem save_opened {store : Store ω} (realm : store.realm = true) (object : ω) :
    store.save object = match store.table.add object with
      | .ok table => .ok { store with table }
      | .error key => .error (.aborted ⟨.existingPrimaryKey key, store.table⟩) := by
  simp only [save, realm, ite_true]

theorem save_result {store saved : Store ω} {object : ω} (realm : store.realm = true)
    (committed : store.save object = .ok saved) :
    saved.realm = true ∧ store.table.add object = .ok saved.table := by
  rw [save_opened realm] at committed
  cases added : store.table.add object <;> rw [added] at committed <;> cases committed
  exact ⟨realm, rfl⟩

theorem save_aborted {store : Store ω} {object : ω} {abort : Abort (Rows ω)}
    (raised : store.save object = .error (.aborted abort)) : abort.durable = store.table := by
  unfold save at raised
  split at raised
  · split at raised <;> cases raised
    rfl
  · cases raised

theorem saveAll_unopened {store : Store ω} (unset : store.realm = false) (values : List α) :
    store.saveAll values = .ok store := by
  induction values with
  | nil => rfl
  | cons value rest ih =>
    have thrown : store.save (Persistable.managedObject value) = .error (.thrown .NoRealmSet) := by
      simp [save, unset]
    rw [saveAll, thrown]
    exact ih

theorem saveAll_opened {store : Store ω} (realm : store.realm = true) (values : List α) :
    store.saveAll values = match store.table.addEach (values.map Persistable.managedObject) with
      | .ok table => .ok { store with table }
      | .error (key, table) => .error ⟨.existingPrimaryKey key, table⟩ := by
  induction values generalizing store with
  | nil => rfl
  | cons value rest ih =>
    have committed := save_opened realm (Persistable.managedObject value)
    rw [saveAll, List.map_cons, Keyed.Table.addEach]
    cases added : store.table.add (Persistable.managedObject value) with
    | ok table =>
      rw [added] at committed
      have saved : ({ store with table } : Store ω).realm = true := realm
      rw [committed]
      exact ih saved
    | error key =>
      rw [added] at committed
      rw [committed]

/-- All that the save loop of an opened store can do. -/
theorem saveAll_cases {store : Store ω} (realm : store.realm = true) (values : List α) :
    (∃ saved, store.saveAll values = .ok saved ∧ saved.realm = true ∧
      saved.table.rows = store.table.rows ++ values.map Persistable.managedObject) ∨
    (∃ done value rest table, values = done ++ value :: rest ∧
      store.saveAll values = .error
        ⟨.existingPrimaryKey (RealmObject.primaryKey (Persistable.managedObject value)), table⟩ ∧
      table.rows = store.table.rows ++ done.map Persistable.managedObject ∧
      RealmObject.primaryKey (Persistable.managedObject value) ∈ table.keys) := by
  rw [saveAll_opened realm]
  rcases Keyed.Table.addEach_cases store.table (values.map Persistable.managedObject) with
    ⟨table, ok, rows⟩ | ⟨done, object, rest, table, split, raised, rows, taken⟩
  · exact .inl ⟨{ store with table }, by rw [ok], realm, rows⟩
  · obtain ⟨doneValues, tail, values_eq, rfl, tail_eq⟩ := List.map_eq_append_iff.mp split
    obtain ⟨value, restValues, rfl, rfl, rfl⟩ := List.map_eq_cons_iff.mp tail_eq
    exact .inr ⟨doneValues, value, restValues, table, values_eq, by rw [raised], rows, taken⟩

theorem saveAll_result {store saved : Store ω} {values : List α} (realm : store.realm = true)
    (ok : store.saveAll values = .ok saved) :
    saved.realm = true ∧
      saved.table.rows = store.table.rows ++ values.map Persistable.managedObject := by
  rcases saveAll_cases realm values with ⟨result, all, rest⟩ | ⟨_, _, _, _, _, raised, _⟩
  · rw [ok] at all
    cases all
    exact rest
  · rw [ok] at raised
    cases raised

theorem saveAll_ok_iff {store : Store ω} (realm : store.realm = true) {values : List α} :
    (∃ saved, store.saveAll values = .ok saved) ↔
      (values.map fun value => RealmObject.primaryKey (Persistable.managedObject value)).Nodup ∧
      ∀ value ∈ values, RealmObject.primaryKey (Persistable.managedObject value) ∉ store.table.keys := by
  have rows := @Keyed.Table.addEach_ok_iff _ _ _ _ store.table (values.map Persistable.managedObject)
  rw [List.map_map, List.forall_mem_map] at rows
  refine Iff.trans ?_ rows
  rw [saveAll_opened realm]
  cases store.table.addEach (values.map Persistable.managedObject) <;> simp

theorem executedSaves_fresh_iff {store : Store ω} (realm : store.realm = true) {values : List α} :
    (∀ executed ∈ store.executedSaves values, RealmObject.primaryKey executed.2 ∉ executed.1.table.keys) ↔
      ∃ saved, store.saveAll values = .ok saved := by
  induction values generalizing store with
  | nil => simp [executedSaves, saveAll]
  | cons value rest ih =>
    have committed := save_opened realm (Persistable.managedObject value)
    rw [executedSaves, saveAll, List.forall_mem_cons]
    cases added : store.table.add (Persistable.managedObject value) with
    | ok table =>
      have saved : ({ store with table } : Store ω).realm = true := realm
      have fresh := (Keyed.Table.add_result added).1
      rw [added] at committed
      simp only [committed, ih saved, fresh, not_false_eq_true, true_and]
    | error key =>
      have present : RealmObject.primaryKey (Persistable.managedObject value) ∈ store.table.keys := by
        by_contra fresh
        obtain ⟨result, ok, _⟩ := Keyed.Table.add_ok fresh
        rw [added] at ok
        cases ok
      rw [added] at committed
      simp [committed, present]

theorem stoppedAfter_rows {store stopped : Store ω} {values : List α} {n : Nat}
    (realm : store.realm = true) (stop : store.stoppedAfter n values = some stopped) :
    n ≤ values.length ∧ stopped.realm = true ∧
      stopped.table.rows = store.table.rows ++ (values.take n).map Persistable.managedObject := by
  induction values generalizing store n with
  | nil =>
    cases n with
    | zero => cases stop; simp [realm]
    | succ n => cases stop
  | cons value rest ih =>
    cases n with
    | zero => cases stop; simp [realm]
    | succ n =>
      rw [stoppedAfter] at stop
      cases committed : store.save (Persistable.managedObject value) with
      | error failure =>
        have raised := save_opened realm (Persistable.managedObject value)
        rw [committed] at raised stop
        cases added : store.table.add (Persistable.managedObject value) <;> rw [added] at raised <;>
          cases raised
        cases stop
      | ok saved =>
        rw [committed] at stop
        have transaction := save_result realm committed
        have appended := (Keyed.Table.add_result transaction.2).2
        obtain ⟨bound, set, rows⟩ := ih transaction.1 stop
        refine ⟨Nat.succ_le_succ bound, set, ?_⟩
        rw [rows, appended, List.take_succ_cons, List.map_cons, List.append_assoc, List.singleton_append]

/-- A raise, too, leaves a state between two transactions. -/
theorem saveAll_abort_stopped {store : Store ω} {values : List α} {abort : Abort (Rows ω)}
    (raised : store.saveAll values = .error abort) :
    ∃ n stopped, store.stoppedAfter n values = some stopped ∧ stopped.table = abort.durable := by
  induction values generalizing store with
  | nil => cases raised
  | cons value rest ih =>
    rw [saveAll] at raised
    cases committed : store.save (Persistable.managedObject value) with
    | ok saved =>
      rw [committed] at raised
      obtain ⟨n, stopped, stop, durable⟩ := ih raised
      exact ⟨n + 1, stopped, by rw [stoppedAfter, committed]; exact stop, durable⟩
    | error failure =>
      rw [committed] at raised
      cases failure with
      | aborted first =>
        cases raised
        exact ⟨0, store, rfl, (save_aborted committed).symm⟩
      | thrown error =>
        cases error
        obtain ⟨n, stopped, stop, durable⟩ := ih raised
        cases n with
        | zero => exact ⟨0, stopped, by rw [stoppedAfter] at stop ⊢; exact stop, durable⟩
        | succ n => exact ⟨n + 1, stopped, by rw [stoppedAfter, committed]; exact stop, durable⟩

end Store

end ZemogaSocial
