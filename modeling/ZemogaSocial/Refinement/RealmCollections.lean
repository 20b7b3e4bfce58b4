import ZemogaSocial.Realm.EnumeratedObjects
import ZemogaSocial.Refinement.HomeOnRealm

namespace ZemogaSocial

open ObjectStore Keyed Transition

section Writes

variable {ω : Type} [RealmObject ω] [ManagedObject ω] {infos : String → ClassInfo}

/-- What a call of a collection comes to for the block that makes it. -/
def Reader.execution (called : Reader × Reader.Answer) : Execution where
  realm := called.1.realm
  outcome := match called.2 with
    | .ended outcome => outcome
    | _ => .returned

theorem operate_execution (realm : Realm) (name : String) (operations : List Row → List Operation) :
    realm.operate infos name operations = { realm := (realm.operate infos name operations).realm
                                            outcome := (realm.operate infos name operations).outcome } := by
  unfold Realm.operate
  cases realm.draft <;> rfl

/-- The block of a write starts in a transaction that has done nothing yet. -/
theorem write_congr {realm : Realm} {first second : Realm → Execution}
    (same : ∀ begun, begun.isInWriteTransaction = true → begun.Logged → first begun = second begun) :
    realm.write first = realm.write second := by
  rw [Realm.write, Realm.write]
  cases opened : realm.draft with
  | none =>
    have begun := (Realm.logged_closed opened).beginWrite
    have writing : realm.beginWrite.realm.isInWriteTransaction = true := by
      simp [Realm.beginWrite, Realm.isInWriteTransaction, opened]
    rw [Execution.andThen, Execution.andThen, same _ writing begun]
  | some draft =>
    have refused : realm.beginWrite = { realm, outcome := .raised .alreadyInWriteTransaction } := by
      rw [Realm.beginWrite, Realm.isInWriteTransaction, opened, Option.isSome_some, if_pos rfl]
    rw [refused]
    rfl

/-- A block that only calls its collection, which has been made before the transaction. -/
theorem write_collection {name : String} {results : Results} {selection : Selection} {event : Reader.Event}
    {operations : List Row → List Operation} (represents : ∀ table, Represents table results selection)
    (asks : ∀ begun : Realm, begun.isInWriteTransaction = true →
      Inquiry.handle infos name { realm := begun, selection } event =
        Inquiry.operate infos { realm := begun, selection } name operations) (realm : Realm) :
    (Program.write (.operate name operations)).exec infos realm = realm.write fun begun =>
      Reader.execution (Reader.handle infos name { realm := begun, results } event) := by
  apply write_congr
  intro begun writing logged
  have shows : Reader.Shows name { realm := begun, results } { realm := begun, selection } :=
    ⟨rfl, logged, rfl, represents _⟩
  obtain ⟨same, next⟩ := Reader.handle_shows infos shows event
  rw [Reader.execution, same, next.realm, asks begun writing]
  exact operate_execution begun name operations

theorem setValue_collection (id : Int64) (key : String) (value : Value) (realm : Realm) :
    (ManagedObject.setValue ω id key value).exec infos realm = realm.write fun begun =>
      Reader.execution (Reader.handle infos (ManagedObject.className ω)
        { realm := begun, results := Results.table.filter (ManagedObject.hasId id) } (.setValue key value)) := by
  apply write_collection (fun _ => .query (ManagedObject.hasId id))
  intro begun writing
  rw [Inquiry.handle, if_pos writing]
  rfl

theorem delete_collection (id : Int64) (realm : Realm) :
    (ManagedObject.delete ω id).exec infos realm = realm.write fun begun =>
      Reader.execution (Reader.handle infos (ManagedObject.className ω)
        { realm := begun, results := Results.table.filter (ManagedObject.hasId id) } .deleteObjects) :=
  write_collection (fun _ => .query (ManagedObject.hasId id)) (fun _ _ => rfl) realm

theorem deleteAll_collection (realm : Realm) :
    (ManagedObject.deleteAll ω).exec infos realm = realm.write fun begun =>
      Reader.execution (Reader.handle infos (ManagedObject.className ω) { realm := begun, results := .table }
        .deleteObjects) :=
  write_collection (fun _ => .table) (fun _ _ => rfl) realm

end Writes

/-- What the getter of a property reads from the row of an object. -/
def ObjectStore.ClassInfo.dynamicGet (info : ClassInfo) (cells : Row) (key : String) : Value :=
  match info.properties.find? fun entry => entry.1.name == key with
  | some (_, column) => cells[column]?.getD .null
  | none => .null

/-- `ofAccessor` reads the properties of a managed object. -/
class AccessedObject (ω : Type) [RealmObject ω] [ManagedObject ω] where
  ofAccessor : (String → Value) → Option ω
  ofAccessor_row : ∀ object : ω,
    ofAccessor ((ManagedObject.info ω).dynamicGet (ManagedObject.row object)) = some object

instance : AccessedObject PostObject where
  ofAccessor get :=
    match get "id", get "userID", get "title", get "body", get "isFavorite", get "read" with
    | .int id, .int userID, .string title, .string body, .bool isFavorite, .bool read =>
      some { id, userID, title, body, isFavorite, read }
    | _, _, _, _, _, _ => none
  ofAccessor_row _ := rfl

instance : AccessedObject CommentObject where
  ofAccessor get :=
    match get "id", get "postId", get "name", get "email", get "body" with
    | .int id, .int postId, .string name, .string email, .string body => some { id, postId, name, email, body }
    | _, _, _, _, _ => none
  ofAccessor_row _ := rfl

instance : AccessedObject UserObject where
  ofAccessor get :=
    match get "id", get "name", get "username", get "email", get "phone" with
    | .int id, .string name, .string username, .string email, .string phone =>
      some { id, name, username, email, phone }
    | _, _, _, _, _ => none
  ofAccessor_row _ := rfl

theorem findIdxs_rows {ρ : Type*} (p : ρ → Bool) (rows : List ρ) :
    (rows.findIdxs p).map (fun i => rows[i]?) = (rows.filter p).map some := by
  induction rows using List.reverseRecOn with
  | nil => rfl
  | append_singleton rows row ih =>
    have front : (rows.findIdxs p).map (fun i => (rows ++ [row])[i]?) = (rows.findIdxs p).map fun i => rows[i]? := by
      apply List.map_congr_left
      intro i member
      exact List.getElem?_append_left (List.lt_add_of_mem_findIdxs i member)
    rw [List.findIdxs_append, List.map_append, front, ih, List.filter_append, List.map_append]
    by_cases matched : p row = true <;> simp [matched]

namespace ManagedObject

section Reading

variable {α ω : Type} [RealmObject ω] [ManagedObject ω] [AccessedObject ω] [Persistable α ω]

/-- The value of an object that is read through its accessor. -/
def ofRow (ω : Type) [RealmObject ω] [ManagedObject ω] [AccessedObject ω] [Persistable α ω] (cells : Row) : Option α :=
  (AccessedObject.ofAccessor ((info ω).dynamicGet cells)).map fun object : ω => Persistable.ofManaged object

/-- `Array(results).map`; a detached object has no value. -/
def values (ω : Type) [RealmObject ω] [ManagedObject ω] [AccessedObject ω] [Persistable α ω] (reader : Reader) :
    Except FastEnumeration.Exception (List (Option α)) :=
  (reader.elements (className ω)).map fun rows => rows.map fun row =>
    row.bind fun index => (reader.realm.rows (className ω))[index]?.bind (ofRow ω)

theorem ofRow_row (object : ω) : ofRow ω (row object) = some (Persistable.ofManaged object : α) := by
  rw [ofRow, AccessedObject.ofAccessor_row, Option.map_some]

theorem values_shows {reader : Reader} {inquiry : Inquiry} (shows : Reader.Shows (className ω) reader inquiry)
    (valid : inquiry.invalidated = false) {objects : List ω}
    (stored : inquiry.realm.rows (className ω) = objects.map row) {p : ω → Bool}
    (asked : ∀ object : ω, inquiry.selection.holds (row object) = p object) :
    (values ω reader : Except FastEnumeration.Exception (List (Option α))) =
      .ok ((objects.filter p).map fun object => some (Persistable.ofManaged object)) := by
  have found := findIdxs_rows inquiry.selection.holds (objects.map row)
  have matched : (objects.map row).filter inquiry.selection.holds = (objects.filter p).map row := by
    rw [List.filter_map]
    exact congrArg (List.map row) (List.filter_congr fun object _ => asked object)
  rw [matched] at found
  rw [values, Reader.elements_shows shows valid, shows.realm, stored, Selection.indexes]
  simp only [Except.map, List.map_map]
  have read : ((objects.map row).findIdxs inquiry.selection.holds).map
      ((fun row : Option Nat => row.bind fun index =>
        (objects.map ManagedObject.row)[index]?.bind (ofRow (α := α) ω)) ∘ some) =
      (((objects.map row).findIdxs inquiry.selection.holds).map fun i => (objects.map row)[i]?).map
        fun cells => cells.bind (ofRow ω) := by
    rw [List.map_map]
    rfl
  rw [read, found, List.map_map, List.map_map]
  apply congrArg Except.ok
  apply List.map_congr_left
  intro object _
  exact ofRow_row object

end Reading

/-- The query `postId = %i`. -/
def hasPostId (postId : Int64) (cells : Row) : Bool := cells[1]? == some (.int postId)

section Queries

variable {α ω : Type} [RealmObject ω] [ManagedObject ω] [AccessedObject ω] [Persistable α ω] {group : Group}

theorem values_all {objects : List ω} (stored : group (className ω) = objects.map row) :
    (values ω { realm := { group }, results := .table } : Except FastEnumeration.Exception (List (Option α))) =
      .ok (objects.map fun object => some (Persistable.ofManaged object)) := by
  have shows : Reader.Shows (className ω) { realm := { group }, results := .table }
      { realm := { group }, selection := .all } := ⟨rfl, Realm.logged_closed rfl, rfl, .table⟩
  have everything : objects.filter (fun _ => true) = objects := List.filter_eq_self.mpr fun _ _ => rfl
  have read := values_shows (α := α) shows rfl stored (p := fun _ => true) fun _ => rfl
  rw [everything] at read
  exact read

theorem values_filter {objects : List ω} (stored : group (className ω) = objects.map row) {condition : Row → Bool}
    {p : ω → Bool} (asked : ∀ object : ω, condition (row object) = p object) :
    (values ω { realm := { group }, results := Results.table.filter condition } :
        Except FastEnumeration.Exception (List (Option α))) =
      .ok ((objects.filter p).map fun object => some (Persistable.ofManaged object)) := by
  have shows : Reader.Shows (className ω) { realm := { group }, results := Results.table.filter condition }
      { realm := { group }, selection := .matching condition } := ⟨rfl, Realm.logged_closed rfl, rfl, .query condition⟩
  exact values_shows shows rfl stored asked

end Queries

end ManagedObject

/-- A load of a store gets what a collection of the Realm has. -/
def Loads {α : Type} (loaded : Option (List α)) (read : Except FastEnumeration.Exception (List (Option α))) : Prop :=
  ∃ values, loaded = some values ∧ read = .ok (values.map some)

namespace HomeView

open ManagedObject in
/-- The bodies of the three loads, with the collections that they enumerate. -/
structure ReadsBack (home : HomeView) (realm : Realm) : Prop where
  posts : Loads home.posts.store.loadPostsFromRealm.2 (values PostObject { realm, results := .table })
  comments : ∀ postId, Loads (CommentStore.loadCommentsFromRealm home.details.comments.store postId).2
    (values CommentObject { realm, results := Results.table.filter (hasPostId postId) })
  users : ∀ id, Loads (UserStore.loadUsersFromRealm home.details.users.store id).2
    (values UserObject { realm, results := Results.table.filter (hasId id) })

theorem readsBack_of_held {home : HomeView} {group : Group} (held : OnRealm home.tables group) :
    home.ReadsBack { group } where
  posts := by
    refine ⟨home.posts.store.table.rows.map Post.ofManaged, ?_, ?_⟩
    · rw [PostStore.loadPostsFromRealm_eq]
    · rw [List.map_map]
      exact ManagedObject.values_all held.posts
  comments postId := by
    refine ⟨_, rfl, ?_⟩
    rw [List.map_map]
    apply ManagedObject.values_filter held.comments
    intro object
    have cell : (ManagedObject.row object)[1]? = some (.int object.postId) := rfl
    simp [ManagedObject.hasPostId, cell]
  users id := by
    refine ⟨_, rfl, ?_⟩
    rw [List.map_map]
    exact ManagedObject.values_filter held.users fun object => ManagedObject.hasId_row id object

/-- In every state that the process reaches, each list that a load gets from its store is what Realm's
    collection of the same query, enumerated in its batches and read through its accessors, has. -/
theorem loads_read_realm (home final : HomeView) (events : List Event) (group : Group)
    (held : OnRealm home.tables group) (completed : run handle home events = .ok final) :
    final.ReadsBack ((programOf (home.calls events)).exec classInfo { group }).realm := by
  have ended := calls_onDisk events held
  rw [completed] at ended
  cases ended with
  | completed held ends =>
    rw [ends.realm]
    exact readsBack_of_held held

def reloaded : List Event :=
  [.lists (.appear .postsView), .lists (.timer 0),
    .lists (.response 0 (some ((List.range 20).map fun n => ⟨Int64.ofNat n, 1, "t", "b"⟩))),
    .details (.users (.appear 0)), .details (.users (.timer 0)),
    .details (.users (.response 0 (some [⟨1, "n", "u", "e", "p"⟩]))),
    .details (.comments (.appear 0)), .details (.comments (.timer 0)),
    .details (.comments (.response 0 (some [⟨9, 4, "n", "e", "c"⟩, ⟨8, 5, "n", "e", "c"⟩])))]

theorem loads_read_realm_reloaded : ∃ final, run handle emptyHome reloaded = .ok final ∧
    final.posts.store.table.rows.length = 20 ∧ final.details.users.store.table.rows.length = 1 ∧
    final.details.comments.store.table.rows.length = 2 ∧
    final.ReadsBack ((programOf (emptyHome.calls reloaded)).exec classInfo { group := fun _ => [] }).realm :=
  ⟨_, rfl, rfl, rfl, rfl, loads_read_realm emptyHome _ reloaded (fun _ => []) ⟨rfl, rfl, rfl⟩ rfl⟩

end HomeView

end ZemogaSocial
