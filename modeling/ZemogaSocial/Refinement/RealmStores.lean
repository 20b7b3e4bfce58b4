import ZemogaSocial.Realm.Instructions
import ZemogaSocial.Realm.StorePrograms
import ZemogaSocial.Scenes.HomeScene

namespace ZemogaSocial

open ObjectStore Transition

/-- A program has returned and left the Realm outside a transaction. -/
structure Ends (group : Group) (execution : Execution) : Prop where
  realm : execution.realm = { group }
  outcome : execution.outcome = .returned

/-- A raise ends the process; what the next one opens is the file. -/
structure Raises (group : Group) (error : ObjectStore.Error) (execution : Execution) : Prop where
  file : execution.realm.group = group
  outcome : execution.outcome = .raised (.object error)

section Writes

variable {infos : String → ClassInfo} {group next : Group} {error : ObjectStore.Error} {execution : Execution}
  {rest : Realm → Execution}

theorem Ends.andThen (first : Ends group execution) (later : Ends next (rest { group })) :
    Ends next (execution.andThen rest) := by
  unfold Execution.andThen
  rw [first.outcome, first.realm]
  exact ⟨later.realm, later.outcome⟩

theorem Ends.andThen_raises (first : Ends group execution) (later : Raises next error (rest { group })) :
    Raises next error (execution.andThen rest) := by
  unfold Execution.andThen
  rw [first.outcome, first.realm]
  exact ⟨later.file, later.outcome⟩

theorem Raises.andThen (first : Raises group error execution) (rest : Realm → Execution) :
    Raises group error (execution.andThen rest) := by
  unfold Execution.andThen
  rw [first.outcome]
  exact first

/-- The tables of a transaction in which one has been written to. -/
def drafted (group : Group) (name : String) (table : Table) : String → Table :=
  Function.update (fun other => { rows := group other }) name table

theorem drafted_rows (name : String) (table : Table) :
    (fun other => (drafted group name table other).rows) = Function.update group name table.rows := by
  funext other
  by_cases same : other = name
  · subst same
    simp [drafted]
  · simp [drafted, same]

variable {name : String} {operations : List Row → List Operation} {table : Table}

theorem write_operate_returned
    (performed : Operation.performEach (infos name) { rows := group name } (operations (group name)) = (table, .ok ())) :
    (Program.write (.operate name operations)).exec infos { group } =
      { realm := { group := fun other => (drafted group name table other).rows }
        commits := [fun other => (drafted group name table other).log] } := by
  simp [Program.exec, Realm.write, Realm.beginWrite, Realm.isInWriteTransaction, Execution.andThen, Realm.operate,
    performed, Realm.settle, Realm.commitWrite, Realm.fault, drafted]

theorem write_operate_raised (performed : Operation.performEach (infos name) { rows := group name }
      (operations (group name)) = (table, .error error)) :
    (Program.write (.operate name operations)).exec infos { group } =
      { realm := { group, draft := some (drafted group name table) }, outcome := .raised (.object error) } := by
  simp [Program.exec, Realm.write, Realm.beginWrite, Realm.isInWriteTransaction, Execution.andThen, Realm.operate,
    performed, Realm.settle, drafted]

theorem write_operate_ends (name : String) (operations : List Row → List Operation)
    (performed : Operation.performEach (infos name) { rows := group name } (operations (group name)) = (table, .ok ())) :
    Ends (Function.update group name table.rows)
      ((Program.write (.operate name operations)).exec infos { group }) := by
  rw [write_operate_returned performed, drafted_rows]
  exact ⟨rfl, rfl⟩

theorem write_operate_raises (name : String) (operations : List Row → List Operation)
    (raised : (Operation.performEach (infos name) { rows := group name } (operations (group name))).2 = .error error) :
    Raises group error ((Program.write (.operate name operations)).exec infos { group }) := by
  have performed : Operation.performEach (infos name) { rows := group name } (operations (group name)) =
      (_, .error error) := Prod.ext rfl raised
  rw [write_operate_raised performed]
  exact ⟨rfl, rfl⟩

end Writes

section Rows

/-- Changing the matching rows one by one by their places. -/
theorem foldl_modify_getElem? {ρ : Type*} (change : ρ → ρ) (indices : List Nat) (distinct : indices.Nodup)
    (rows : List ρ) (j : Nat) :
    (indices.foldl (fun rows i => rows.modify i change) rows)[j]? =
      if j ∈ indices then rows[j]?.map change else rows[j]? := by
  induction indices generalizing rows with
  | nil => simp
  | cons i rest ih =>
    obtain ⟨fresh, later⟩ := List.nodup_cons.mp distinct
    rw [List.foldl_cons, ih later, List.getElem?_modify]
    by_cases here : i = j
    · subst here
      simp [fresh]
    · have other : ¬ j = i := fun same => here same.symm
      simp [here, other]

theorem foldl_modify_findIdxs {ρ : Type*} (p : ρ → Bool) (change : ρ → ρ) (rows : List ρ) :
    (rows.findIdxs p).foldl (fun rows i => rows.modify i change) rows =
      rows.map fun row => if p row then change row else row := by
  apply List.ext_getElem?
  intro j
  rw [foldl_modify_getElem? change _ List.nodup_findIdxs, List.getElem?_map]
  by_cases bound : j < rows.length
  · have listed : j ∈ rows.findIdxs p ↔ p rows[j] = true := List.mem_findIdxs_iff_pos_getElem bound
    by_cases matched : p rows[j] = true <;> simp [listed, matched, bound]
  · simp [List.getElem?_eq_none (Nat.le_of_not_lt bound)]

theorem moveLastOver_map {ρ σ : Type*} (f : ρ → σ) (rows : List ρ) (index : Nat) :
    Keyed.moveLastOver (rows.map f) index = (Keyed.moveLastOver rows index).map f := by
  unfold Keyed.moveLastOver
  rw [List.getLast?_map]
  cases rows.getLast? with
  | none => rfl
  | some last => rw [Option.map_some, List.map_dropLast, List.map_set]

theorem removeUnordered_map {ρ σ : Type*} (f : ρ → σ) (p : σ → Bool) (rows : List ρ) :
    Keyed.removeUnordered p (rows.map f) = (Keyed.removeUnordered (p ∘ f) rows).map f := by
  unfold Keyed.removeUnordered
  rw [List.findIdxs_map]
  induction rows.findIdxs (p ∘ f) with
  | nil => rfl
  | cons index rest ih => rw [List.foldr_cons, List.foldr_cons, ih, moveLastOver_map]

end Rows

namespace ManagedObject

section Class

variable {α ω : Type} [RealmObject ω] [ManagedObject ω] [Persistable α ω] {infos : String → ClassInfo} {group : Group}

/-- The group with these objects in the table of their class. -/
def put (group : Group) (objects : List ω) : Group := Function.update group (className ω) (objects.map row)

theorem put_self {objects : List ω} (stored : group (className ω) = objects.map row) : put group objects = group := by
  rw [put, ← stored, Function.update_eq_self]

theorem put_put (first second : List ω) : put (put group first) second = put group second :=
  Function.update_idem _ _ _

theorem put_here (objects : List ω) : put group objects (className ω) = objects.map row := Function.update_self _ _ _

theorem hasId_row (id : Int64) (object : ω) : hasId id (row object) = (RealmObject.primaryKey object == id) := by
  simp [hasId, row_key]

variable (registered : infos (className ω) = info ω)

include registered in
theorem save_exec {table : Rows ω} (stored : group (className ω) = table.rows.map row) (object : ω) :
    (∃ next, table.add object = .ok next ∧ Ends (put group next.rows) ((save object).exec infos { group })) ∨
    (table.add object = .error (RealmObject.primaryKey object) ∧
      Raises group (.existingPrimaryKey (className ω) (.int (RealmObject.primaryKey object)))
        ((save object).exec infos { group })) := by
  have created := create_object keyed (fits object) { rows := group (className ω) }
  have same : ({ rows := group (className ω) } : Table) = ⟨table.rows.map row, []⟩ := by rw [stored]
  rw [key object] at created
  rcases created with ⟨found, present, raised⟩ | ⟨missing, log, ok⟩
  · have taken : RealmObject.primaryKey object ∈ table.keys := by
      by_contra fresh
      rw [same, (findFirst_rows _ _ _).mpr fresh] at present
      cases present
    refine .inr ⟨Keyed.Table.add_error taken, write_operate_raises (className ω) _ ?_⟩
    rw [registered, Operation.performEach, Operation.perform, raised]
    rfl
  · rw [same] at missing
    have fresh : RealmObject.primaryKey object ∉ table.keys := (findFirst_rows _ _ _).mp missing
    obtain ⟨next, added, rows⟩ := Keyed.Table.add_ok fresh
    have performed : Operation.performEach (infos (className ω)) { rows := group (className ω) }
        [.create (.object (valueForKey object)) .forceCreate none] =
        (⟨group (className ω) ++ [row object], log⟩, .ok ()) := by
      rw [registered, Operation.performEach, Operation.perform, ok]
      rfl
    have ended := write_operate_ends (className ω)
      (fun _ => [.create (.object (valueForKey object)) .forceCreate none]) performed
    refine .inl ⟨next, added, ?_⟩
    rw [put, rows, List.map_append, List.map_singleton, ← stored]
    exact ended

include registered in
theorem saveAll_exec {table : Rows ω} (stored : group (className ω) = table.rows.map row) (values : List α) :
    (∃ next, table.addEach (values.map Persistable.managedObject) = .ok next ∧
      Ends (put group next.rows) ((saveAll values).exec infos { group })) ∨
    (∃ id durable, table.addEach (values.map Persistable.managedObject) = .error (id, durable) ∧
      Raises (put group durable.rows) (.existingPrimaryKey (className ω) (.int id))
        ((saveAll values).exec infos { group })) := by
  induction values generalizing table group with
  | nil => exact .inl ⟨table, rfl, ⟨by rw [put_self stored]; rfl, rfl⟩⟩
  | cons value rest ih =>
    rw [List.map_cons, Keyed.Table.addEach, saveAll, Program.exec]
    rcases save_exec registered stored (Persistable.managedObject value) with ⟨next, added, ends⟩ | ⟨taken, raises⟩
    · rw [added]
      rcases ih (put_here next.rows) with ⟨final, all, later⟩ | ⟨id, durable, stopped, later⟩
      · rw [put_put] at later
        exact .inl ⟨final, all, ends.andThen later⟩
      · rw [put_put] at later
        exact .inr ⟨id, durable, stopped, ends.andThen_raises later⟩
    · rw [taken]
      refine .inr ⟨_, table, rfl, ?_⟩
      rw [put_self stored]
      exact raises.andThen _

include registered in
theorem setValue_exec {table : Rows ω} (stored : group (className ω) = table.rows.map row) (id : Int64)
    {prop : Property} (column : Nat) {key : String} {value : Value} (change : ω → ω)
    (called : (info ω).coding.call key value = .ok (prop, column, value)) (other : prop.isPrimary = false)
    (held : prop.holds value = true)
    (changes : ∀ object, row (change object) = (row object).set column value)
    (same : ∀ object : ω, RealmObject.primaryKey (change object) = RealmObject.primaryKey object) :
    Ends (put group (table.update (fun object => RealmObject.primaryKey object == id) change same).rows)
      ((setValue ω id key value).exec infos { group }) := by
  have attached : ∀ i ∈ (group (className ω)).findIdxs (hasId id), i < (group (className ω)).length := by
    intro i member
    exact List.lt_add_of_mem_findIdxs i member
  obtain ⟨log, performed⟩ := performEach_setValues called other held
    ((group (className ω)).findIdxs (hasId id)) { rows := group (className ω) } attached
  rw [foldl_modify_findIdxs, ← registered] at performed
  have rows : (group (className ω)).map (fun cells => if hasId id cells then cells.set column value else cells) =
      (table.update (fun object => RealmObject.primaryKey object == id) change same).rows.map row := by
    rw [stored, Keyed.Table.update_rows, List.map_map, List.map_map]
    apply List.map_congr_left
    intro object _
    simp only [Function.comp_apply, hasId_row]
    split
    · exact (changes object).symm
    · rfl
  rw [rows] at performed
  exact write_operate_ends (className ω)
    (fun rows => (rows.findIdxs (hasId id)).map fun row => .setValue row key value) performed

theorem delete_exec {table : Rows ω} (stored : group (className ω) = table.rows.map row) (id : Int64) :
    Ends (put group (table.remove fun object => RealmObject.primaryKey object == id).rows)
      ((delete ω id).exec infos { group }) := by
  obtain ⟨log, performed⟩ := performEach_deletions (infos (className ω)) (hasId id) { rows := group (className ω) }
  have rows : Keyed.removeUnordered (hasId id) (group (className ω)) =
      (table.remove fun object => RealmObject.primaryKey object == id).rows.map row := by
    have asked : hasId id ∘ row = fun object : ω => RealmObject.primaryKey object == id := by
      funext object
      exact hasId_row id object
    rw [stored]
    refine (removeUnordered_map row (hasId id) table.rows).trans ?_
    rw [asked]
    rfl
  rw [rows] at performed
  exact write_operate_ends (className ω) (fun rows => (rows.findIdxs (hasId id)).reverse.map .delete) performed

theorem deleteEach_exec {table : Rows ω} (stored : group (className ω) = table.rows.map row) (ids : List Int64) :
    Ends (put group (ids.foldl (fun table id => table.remove fun object => RealmObject.primaryKey object == id)
      table).rows) ((deleteEach ω ids).exec infos { group }) := by
  induction ids generalizing table group with
  | nil => exact ⟨by rw [List.foldl_nil, put_self stored]; rfl, rfl⟩
  | cons id rest ih =>
    have removed : put group (table.remove fun object => RealmObject.primaryKey object == id).rows (className ω) = _ :=
      put_here _
    have later := ih removed
    rw [put_put] at later
    exact (delete_exec stored id).andThen later

theorem deleteAll_exec : Ends (put group ([] : List ω)) ((deleteAll ω).exec infos { group }) :=
  write_operate_ends (className ω) (fun _ => [.clear]) rfl

include registered in
theorem store_save_exec {store : Store ω} (realm : store.realm = true)
    (stored : group (className ω) = store.table.rows.map row) (object : ω) :
    (∃ table, store.save object = .ok { store with table } ∧
      Ends (put group table.rows) ((save object).exec infos { group })) ∨
    (∃ id durable, store.save object = .error (.aborted ⟨.existingPrimaryKey id, durable⟩) ∧
      Raises (put group durable.rows) (.existingPrimaryKey (className ω) (.int id))
        ((save object).exec infos { group })) := by
  have single := Store.save_opened realm object
  rcases save_exec registered stored object with ⟨table, added, ends⟩ | ⟨taken, raises⟩
  · rw [added] at single
    exact .inl ⟨table, single, ends⟩
  · rw [taken] at single
    refine .inr ⟨_, store.table, single, ?_⟩
    rw [put_self stored]
    exact raises

include registered in
theorem store_saveAll_exec {store : Store ω} (realm : store.realm = true)
    (stored : group (className ω) = store.table.rows.map row) (values : List α) :
    (∃ table, store.saveAll values = .ok { store with table } ∧
      Ends (put group table.rows) ((saveAll values).exec infos { group })) ∨
    (∃ id durable, store.saveAll values = .error ⟨.existingPrimaryKey id, durable⟩ ∧
      Raises (put group durable.rows) (.existingPrimaryKey (className ω) (.int id))
        ((saveAll values).exec infos { group })) := by
  have loop := Store.saveAll_opened realm values
  rcases saveAll_exec registered stored values with ⟨table, all, ends⟩ | ⟨id, durable, stopped, raises⟩
  · rw [all] at loop
    exact .inl ⟨table, loop, ends⟩
  · rw [stopped] at loop
    exact .inr ⟨id, durable, loop, raises⟩

end Class

end ManagedObject

/-- The three stores of the app, which share the default Realm. -/
structure Stores where
  posts : PostStore
  users : UserStore
  comments : CommentStore

inductive StoresOp where
  | posts (op : StoreOp)
  | loadPosts
  | users (values : List User)
  | saveUser (user : UserObject)
  | loadUsers (id : Int64)
  | deleteAllUsers
  | comments (values : List Comment)
  | saveComment (comment : CommentObject)
  | loadComments (postId : Int64)
  | deleteAllComments

/-- A load reads its query and writes nothing. -/
def StoresOp.program : StoresOp → Program
  | .posts op => op.program
  | .users values => ManagedObject.saveAll values
  | .saveUser user => ManagedObject.save user
  | .deleteAllUsers => ManagedObject.deleteAll UserObject
  | .comments values => ManagedObject.saveAll values
  | .saveComment comment => ManagedObject.save comment
  | .deleteAllComments => ManagedObject.deleteAll CommentObject
  | .loadPosts | .loadUsers _ | .loadComments _ => .read fun _ => .done

def programOf : List StoresOp → Program
  | [] => .done
  | op :: rest => .andThen op.program (programOf rest)

section Execute

variable {infos : String → ClassInfo}

theorem exec_append (first second : List StoresOp) (realm : Realm) :
    (programOf (first ++ second)).exec infos realm =
      ((programOf first).exec infos realm).andThen fun realm => (programOf second).exec infos realm := by
  induction first generalizing realm with
  | nil => simp [programOf, Program.exec, Execution.andThen]
  | cons op rest ih =>
    rw [List.cons_append, programOf, programOf, Program.exec, Program.exec, Execution.andThen_assoc]
    apply congrArg
    funext middle
    exact ih middle

theorem exec_once (op : StoresOp) (realm : Realm) :
    (programOf [op]).exec infos realm = op.program.exec infos realm := Execution.andThen_done _

end Execute

namespace Stores

def tables (stores : Stores) : HomeView.Tables :=
  ⟨stores.posts.table, stores.users.table, stores.comments.table⟩

def perform (stores : Stores) : StoresOp → Except (Failure HomeView.Tables) (Stores × Unit)
  | .posts op =>
    match stores.posts.perform op with
    | .ok (posts, ()) => .ok ({ stores with posts }, ())
    | .error (.thrown error) => .error (.thrown error)
    | .error (.aborted abort) => .error (.aborted ⟨abort.reason, { stores.tables with posts := abort.durable }⟩)
  | .loadPosts => .ok ({ stores with posts := stores.posts.loadPostsFromRealm.1 }, ())
  | .users values =>
    match stores.users.saveUsers values with
    | .ok users => .ok ({ stores with users }, ())
    | .error abort => .error (.aborted ⟨abort.reason, { stores.tables with users := abort.durable }⟩)
  | .saveUser user =>
    match stores.users.saveUser user with
    | .ok users => .ok ({ stores with users }, ())
    | .error (.thrown error) => .error (.thrown error)
    | .error (.aborted abort) => .error (.aborted ⟨abort.reason, { stores.tables with users := abort.durable }⟩)
  | .loadUsers id => .ok ({ stores with users := (UserStore.loadUsersFromRealm stores.users id).1 }, ())
  | .deleteAllUsers => .ok ({ stores with users := (UserStore.deleteAll stores.users).1 }, ())
  | .comments values =>
    match stores.comments.saveComments values with
    | .ok comments => .ok ({ stores with comments }, ())
    | .error abort => .error (.aborted ⟨abort.reason, { stores.tables with comments := abort.durable }⟩)
  | .saveComment comment =>
    match stores.comments.saveComment comment with
    | .ok comments => .ok ({ stores with comments }, ())
    | .error (.thrown error) => .error (.thrown error)
    | .error (.aborted abort) => .error (.aborted ⟨abort.reason, { stores.tables with comments := abort.durable }⟩)
  | .loadComments postId =>
    .ok ({ stores with comments := (CommentStore.loadCommentsFromRealm stores.comments postId).1 }, ())
  | .deleteAllComments => .ok ({ stores with comments := (CommentStore.deleteAll stores.comments).1 }, ())

structure Opened (stores : Stores) : Prop where
  posts : stores.posts.realm = true
  users : stores.users.realm = true
  comments : stores.comments.realm = true

end Stores

/-- The rows that the Realm holds are the objects of the tables. -/
structure OnRealm (tables : HomeView.Tables) (group : Group) : Prop where
  posts : group "PostObject" = tables.posts.rows.map ManagedObject.row
  users : group "UserObject" = tables.users.rows.map ManagedObject.row
  comments : group "CommentObject" = tables.comments.rows.map ManagedObject.row

namespace OnRealm

variable {tables : HomeView.Tables} {group : Group}

theorem put_posts (held : OnRealm tables group) (posts : Rows PostObject) :
    OnRealm { tables with posts } (ManagedObject.put group posts.rows) where
  posts := ManagedObject.put_here posts.rows
  users := (Function.update_of_ne (by decide) _ _).trans held.users
  comments := (Function.update_of_ne (by decide) _ _).trans held.comments

theorem put_users (held : OnRealm tables group) (users : Rows UserObject) :
    OnRealm { tables with users } (ManagedObject.put group users.rows) where
  posts := (Function.update_of_ne (by decide) _ _).trans held.posts
  users := ManagedObject.put_here users.rows
  comments := (Function.update_of_ne (by decide) _ _).trans held.comments

theorem put_comments (held : OnRealm tables group) (comments : Rows CommentObject) :
    OnRealm { tables with comments } (ManagedObject.put group comments.rows) where
  posts := (Function.update_of_ne (by decide) _ _).trans held.posts
  users := (Function.update_of_ne (by decide) _ _).trans held.users
  comments := ManagedObject.put_here comments.rows

/-- A file is that of one state of the stores only. -/
theorem unique {other : HomeView.Tables} (held : OnRealm tables group) (also : OnRealm other group) :
    tables = other := by
  have posts : tables.posts = other.posts :=
    Keyed.Table.ext (ManagedObject.row_injective.list_map (held.posts.symm.trans also.posts))
  have users : tables.users = other.users :=
    Keyed.Table.ext (ManagedObject.row_injective.list_map (held.users.symm.trans also.users))
  have comments : tables.comments = other.comments :=
    Keyed.Table.ext (ManagedObject.row_injective.list_map (held.comments.symm.trans also.comments))
  cases tables
  cases other
  subst posts users comments
  rfl

end OnRealm

theorem delete_table (store : PostStore) (posts : List PostObject) :
    (store.delete posts).1.table = (posts.map PostObject.id).foldl
      (fun table id => table.remove fun object : PostObject => RealmObject.primaryKey object == id) store.table := by
  unfold PostStore.delete
  induction posts using List.reverseRecOn with
  | nil => rfl
  | append_singleton posts post ih =>
    simp only [List.foldl_append, List.map_append, List.foldl_cons, List.foldl_nil, List.map_cons, List.map_nil] at ih ⊢
    rw [← ih]
    rfl

/-- How a run of the stores and one of their program have ended. -/
inductive Agrees : Except (Failure HomeView.Tables) Stores → Execution → Prop where
  | completed {stores : Stores} {group : Group} {execution : Execution} (opened : stores.Opened)
      (held : OnRealm stores.tables group) (ends : Ends group execution) : Agrees (.ok stores) execution
  | aborted {id : Int64} {tables : HomeView.Tables} {className : String} {group : Group} {execution : Execution}
      (held : OnRealm tables group) (raises : Raises group (.existingPrimaryKey className (.int id)) execution) :
      Agrees (.error (.aborted ⟨.existingPrimaryKey id, tables⟩)) execution

theorem Agrees.after {group : Group} {execution : Execution} {rest : Realm → Execution}
    {result : Except (Failure HomeView.Tables) Stores} (later : Agrees result (rest { group }))
    (ends : Ends group execution) : Agrees result (execution.andThen rest) := by
  cases later with
  | completed opened held last => exact .completed opened held (ends.andThen last)
  | aborted held raises => exact .aborted held (ends.andThen_raises raises)

section Saves

variable {α ω : Type} [RealmObject ω] [ManagedObject ω] [Persistable α ω] {group : Group} {store : Store ω}

/-- The place of one store among the three, whose tables the group holds with any rows in that one. -/
structure Placed (group : Group) (store : Store ω) (within : Store ω → Stores) : Prop where
  opened : ∀ table, (within { store with table }).Opened
  held : ∀ table, OnRealm (within { store with table }).tables (ManagedObject.put group table.rows)

variable {within : Store ω → Stores} {result : Except (Failure HomeView.Tables) Stores}
  (registered : classInfo (ManagedObject.className ω) = ManagedObject.info ω) (placed : Placed group store within)
  (realm : store.realm = true) (stored : group (ManagedObject.className ω) = store.table.rows.map ManagedObject.row)

include registered placed realm stored in
theorem saveAll_agrees (values : List α)
    (performed : result = match store.saveAll values with
      | .ok saved => .ok (within saved)
      | .error abort => .error (.aborted ⟨abort.reason, (within { store with table := abort.durable }).tables⟩)) :
    Agrees result ((ManagedObject.saveAll values).exec classInfo { group }) := by
  rcases ManagedObject.store_saveAll_exec registered realm stored values with
    ⟨table, saved, ends⟩ | ⟨id, durable, stopped, raises⟩
  · rw [saved] at performed
    rw [performed]
    exact .completed (placed.opened table) (placed.held table) ends
  · rw [stopped] at performed
    rw [performed]
    exact .aborted (placed.held durable) raises

include registered placed realm stored in
theorem save_agrees (object : ω)
    (performed : result = match store.save object with
      | .ok saved => .ok (within saved)
      | .error (.thrown error) => .error (.thrown error)
      | .error (.aborted abort) =>
        .error (.aborted ⟨abort.reason, (within { store with table := abort.durable }).tables⟩)) :
    Agrees result ((ManagedObject.save object).exec classInfo { group }) := by
  rcases ManagedObject.store_save_exec registered realm stored object with
    ⟨table, saved, ends⟩ | ⟨id, durable, stopped, raises⟩
  · rw [saved] at performed
    rw [performed]
    exact .completed (placed.opened table) (placed.held table) ends
  · rw [stopped] at performed
    rw [performed]
    exact .aborted (placed.held durable) raises

end Saves

section Step

variable {stores : Stores} {group : Group}

/-- A call of the post store that only changes its table. -/
theorem posts_agree {posts : PostStore} {execution : Execution} (opened : stores.Opened)
    (held : OnRealm stores.tables group) (realm : posts.realm = true)
    (ends : Ends (ManagedObject.put group posts.table.rows) execution) :
    Agrees (.ok { stores with posts }) execution :=
  .completed ⟨realm, opened.users, opened.comments⟩ (held.put_posts posts.table) ends

theorem post_perform_agrees (opened : stores.Opened) (held : OnRealm stores.tables group) (op : StoreOp) :
    Agrees ((stores.perform (.posts op)).map Prod.fst) (op.program.exec classInfo { group }) := by
  have registered : classInfo (ManagedObject.className PostObject) = ManagedObject.info PostObject := rfl
  have placed : Placed group stores.posts fun posts => { stores with posts } :=
    ⟨fun _ => ⟨opened.posts, opened.users, opened.comments⟩, held.put_posts⟩
  cases op with
  | savePosts posts =>
    apply saveAll_agrees registered placed opened.posts held.posts posts
    rw [Stores.perform, PostStore.perform, PostStore.savePosts]
    cases stores.posts.saveAll posts <;> rfl
  | savePost post =>
    apply save_agrees registered placed opened.posts held.posts post
    rw [Stores.perform, PostStore.perform, PostStore.savePost]
    rcases stores.posts.save post with (_ | _) | _ <;> rfl
  | markAsRead post =>
    apply posts_agree opened held rfl
    apply ManagedObject.setValue_exec registered held.posts post.id 5
    all_goals intros; rfl
  | setFavorite post isFavorite =>
    apply posts_agree opened held rfl
    apply ManagedObject.setValue_exec registered held.posts post.id 4
    all_goals intros; rfl
  | delete posts =>
    apply posts_agree opened held (PostStore.delete_realm stores.posts posts)
    rw [delete_table]
    exact ManagedObject.deleteEach_exec held.posts (posts.map PostObject.id)
  | deleteAll => exact posts_agree opened held rfl ManagedObject.deleteAll_exec

theorem perform_agrees (opened : stores.Opened) (held : OnRealm stores.tables group) (op : StoresOp) :
    Agrees ((stores.perform op).map Prod.fst) (op.program.exec classInfo { group }) := by
  have usersPlaced : Placed group stores.users fun users => { stores with users } :=
    ⟨fun _ => ⟨opened.posts, opened.users, opened.comments⟩, held.put_users⟩
  have commentsPlaced : Placed group stores.comments fun comments => { stores with comments } :=
    ⟨fun _ => ⟨opened.posts, opened.users, opened.comments⟩, held.put_comments⟩
  cases op with
  | posts op => exact post_perform_agrees opened held op
  | users values =>
    apply saveAll_agrees rfl usersPlaced opened.users held.users values
    rw [Stores.perform, UserStore.saveUsers]
    cases stores.users.saveAll values <;> rfl
  | saveUser user =>
    apply save_agrees rfl usersPlaced opened.users held.users user
    rw [Stores.perform, UserStore.saveUser]
    rcases stores.users.save user with (_ | _) | _ <;> rfl
  | comments values =>
    apply saveAll_agrees rfl commentsPlaced opened.comments held.comments values
    rw [Stores.perform, CommentStore.saveComments]
    cases stores.comments.saveAll values <;> rfl
  | saveComment comment =>
    apply save_agrees rfl commentsPlaced opened.comments held.comments comment
    rw [Stores.perform, CommentStore.saveComment]
    rcases stores.comments.save comment with (_ | _) | _ <;> rfl
  | deleteAllUsers =>
    exact .completed ⟨opened.posts, rfl, opened.comments⟩ (held.put_users .empty) ManagedObject.deleteAll_exec
  | deleteAllComments =>
    exact .completed ⟨opened.posts, opened.users, rfl⟩ (held.put_comments .empty) ManagedObject.deleteAll_exec
  | loadPosts => exact .completed ⟨rfl, opened.users, opened.comments⟩ held ⟨rfl, rfl⟩
  | loadUsers id => exact .completed ⟨opened.posts, rfl, opened.comments⟩ held ⟨rfl, rfl⟩
  | loadComments postId => exact .completed ⟨opened.posts, opened.users, rfl⟩ held ⟨rfl, rfl⟩

end Step

end ZemogaSocial
