import ZemogaSocial.Refinement.PostMap
import ZemogaSocial.Scenes.Lifetime

namespace ZemogaSocial

open Transition

/-- One write transaction on the posts table. -/
inductive Commit where
  | save (post : PostObject)
  | markAsRead (id : Int64)
  | setFavorite (id : Int64) (isFavorite : Bool)
  | delete (id : Int64)
  | deleteAll

namespace PostMap

def commit (map : PostMap) : Commit → PostMap
  | .save post => map.insert post.id post.fields
  | .markAsRead id => Keyed.adjust id (fun fields => { fields with read := true }) map
  | .setFavorite id isFavorite => Keyed.adjust id (fun fields => { fields with isFavorite }) map
  | .delete id => map.erase id
  | .deleteAll => ∅

/-- A save overwrites nothing. -/
def Inserts (map : PostMap) : Commit → Prop
  | .save post => post.id ∉ map
  | _ => True

theorem commit_deletes (map : PostMap) (posts : List PostObject) :
    (posts.map fun post => Commit.delete post.id).foldl commit map = map.apply (.delete posts) := by
  rw [List.foldl_map, apply, Keyed.eraseAll, List.foldl_map]
  rfl

theorem inserts_deletes (map : PostMap) (posts : List PostObject) :
    Accepted commit Inserts map (posts.map fun post => Commit.delete post.id) := by
  induction posts generalizing map with
  | nil => exact True.intro
  | cons post rest ih => exact ⟨True.intro, ih _⟩

end PostMap

namespace Store

variable {α ω : Type} [RealmObject ω] [Persistable α ω]

/-- The objects whose transactions the save loop commits. -/
def committedSaves (store : Store ω) (values : List α) : List ω :=
  ((store.executedSaves values).filter fun executed =>
    decide (RealmObject.primaryKey executed.2 ∉ executed.1.table.keys)).map Prod.snd

/-- What the save loop leaves on disk, whether it ends or raises. -/
def tableSaved (store : Store ω) (values : List α) : Rows ω :=
  match store.saveAll values with
  | .ok saved => saved.table
  | .error abort => abort.durable

theorem committedSaves_ok {store : Store ω} {table : Rows ω} {value : α} (realm : store.realm = true)
    (added : store.table.add (Persistable.managedObject value) = .ok table) (rest : List α) :
    store.committedSaves (value :: rest) =
        Persistable.managedObject value :: ({ store with table } : Store ω).committedSaves rest ∧
      store.tableSaved (value :: rest) = ({ store with table } : Store ω).tableSaved rest := by
  have committed := save_opened realm (Persistable.managedObject value)
  have fresh := (Keyed.Table.add_result added).1
  rw [added] at committed
  simp [committedSaves, tableSaved, executedSaves, saveAll, committed, fresh]

theorem committedSaves_error {store : Store ω} {key : Int64} {value : α} (realm : store.realm = true)
    (raised : store.table.add (Persistable.managedObject value) = .error key) (rest : List α) :
    store.committedSaves (value :: rest) = [] ∧ store.tableSaved (value :: rest) = store.table := by
  have committed := save_opened realm (Persistable.managedObject value)
  have present : RealmObject.primaryKey (Persistable.managedObject value) ∈ store.table.keys := by
    by_contra fresh
    obtain ⟨result, ok, _⟩ := Keyed.Table.add_ok fresh
    rw [raised] at ok
    cases ok
  rw [raised] at committed
  simp [committedSaves, tableSaved, executedSaves, saveAll, committed, present]

end Store

namespace PostStore

def contents (table : Rows PostObject) : PostMap := table.contents PostObject.fields

theorem commit_added {before after : Rows PostObject} {post : Post}
    (added : before.add (Persistable.managedObject post) = .ok after) :
    contents after = (contents before).commit (.save post.managedObject) ∧ post.id ∉ contents before := by
  apply And.intro (Keyed.Table.contents_add added)
  intro member
  exact (Keyed.Table.add_result added).1 (Keyed.Table.mem_contents.mp member)

theorem tableSaved_commits {store : PostStore} (realm : store.realm = true) (posts : List Post) :
    contents (store.tableSaved posts) =
        ((store.committedSaves posts).map Commit.save).foldl PostMap.commit (contents store.table) ∧
      Accepted PostMap.commit PostMap.Inserts (contents store.table)
        ((store.committedSaves posts).map Commit.save) := by
  induction posts generalizing store with
  | nil => exact ⟨rfl, True.intro⟩
  | cons post rest ih =>
    cases added : store.table.add (Persistable.managedObject post) with
    | error key =>
      obtain ⟨nothing, kept⟩ := Store.committedSaves_error realm added rest
      rw [nothing, kept]
      exact ⟨rfl, True.intro⟩
    | ok table =>
      have saved : ({ store with table } : PostStore).realm = true := realm
      obtain ⟨first, later⟩ := Store.committedSaves_ok realm added rest
      obtain ⟨inserted, fresh⟩ := commit_added added
      have tail := ih saved
      rw [first, later, List.map_cons, List.foldl_cons, tail.1]
      rw [inserted] at tail ⊢
      exact ⟨rfl, fresh, tail.2⟩

theorem take_commits {store stopped : PostStore} {posts : List Post} {n : Nat} (realm : store.realm = true)
    (stop : store.stoppedAfter n posts = some stopped) :
    contents stopped.table =
        ((posts.take n).map fun post => Commit.save post.managedObject).foldl PostMap.commit
          (contents store.table) ∧
      Accepted PostMap.commit PostMap.Inserts (contents store.table)
        ((posts.take n).map fun post => Commit.save post.managedObject) := by
  induction posts generalizing store n with
  | nil =>
    cases n with
    | zero =>
      cases stop
      exact ⟨rfl, True.intro⟩
    | succ n => cases stop
  | cons post rest ih =>
    cases n with
    | zero =>
      cases stop
      exact ⟨rfl, True.intro⟩
    | succ n =>
      have committed := Store.save_opened realm (Persistable.managedObject post)
      rw [Store.stoppedAfter] at stop
      cases added : store.table.add (Persistable.managedObject post) with
      | error key =>
        rw [added] at committed
        rw [committed] at stop
        cases stop
      | ok table =>
        rw [added] at committed
        rw [committed] at stop
        have saved : ({ store with table } : PostStore).realm = true := realm
        obtain ⟨inserted, fresh⟩ := commit_added added
        have tail := ih saved stop
        rw [List.take_succ_cons, List.map_cons, List.foldl_cons, tail.1]
        rw [inserted] at tail ⊢
        exact ⟨rfl, fresh, tail.2⟩

theorem delete_commits (store : PostStore) (posts : List PostObject) :
    contents (store.delete posts).1.table =
        (posts.map fun post => Commit.delete post.id).foldl PostMap.commit (contents store.table) ∧
      Accepted PostMap.commit PostMap.Inserts (contents store.table)
        (posts.map fun post => Commit.delete post.id) := by
  rw [PostMap.commit_deletes]
  exact ⟨asMap_delete store posts, PostMap.inserts_deletes _ posts⟩

end PostStore

namespace PostsScene

/-- The transactions that the event commits, in their order. -/
def commits (scene : PostsScene) : LifeEvent → List Commit
  | .handled (.response ticket (some json)) =>
    match scene.pending.awaiting ticket, DataRequest.markFirst (json.map Post.decode) with
    | some _, .ok networkPosts => (scene.store.opened.committedSaves networkPosts).map .save
    | _, _ => []
  | .handled (.deletePost offsets) =>
    match PostsView.postsAt scene.postsView.shown offsets.indices with
    | .ok postsToDelete => postsToDelete.map fun post => .delete post.id
    | .error _ => []
  | .handled .deleteAll => [.deleteAll]
  | .handled (.markAsRead post) => [.markAsRead post.id]
  | .handled (.setFavorite post isFavorite) => [.setFavorite post.id isFavorite]
  | .handled (.response _ none) | .handled (.appear _) | .handled .reload | .handled (.timer _) => []
  | .deleted posts => posts.map fun post => .delete post.id
  | .killed => []
  | .killedSaving ticket json commits =>
    match scene.pending.awaiting ticket, DataRequest.markFirst (json.map Post.decode) with
    | some _, .ok networkPosts =>
      match scene.store.opened.stoppedAfter commits networkPosts with
      | some _ => (networkPosts.take commits).map fun post => .save post.managedObject
      | none => []
    | _, _ => []

def log (scene : PostsScene) : List LifeEvent → List Commit
  | [] => []
  | event :: rest => scene.commits event ++ (scene.live event).log rest

def contents (scene : PostsScene) : PostMap := PostStore.contents scene.store.table

/-- What the commits of one event must come to. -/
def Commits (scene : PostsScene) (event : LifeEvent) : Prop :=
  (scene.live event).contents = (scene.commits event).foldl PostMap.commit scene.contents ∧
    Accepted PostMap.commit PostMap.Inserts scene.contents (scene.commits event)

theorem commits_nothing {scene : PostsScene} {event : LifeEvent} (silent : scene.commits event = [])
    (same : (scene.live event).store.table = scene.store.table) : scene.Commits event := by
  unfold Commits contents
  rw [silent, same]
  exact ⟨rfl, True.intro⟩

theorem commits_response (scene : PostsScene) (ticket : Nat) (json : List PostJSON) :
    scene.Commits (.handled (.response ticket (some json))) := by
  cases found : scene.pending.awaiting ticket with
  | none =>
    apply commits_nothing
    · simp only [commits, found]
    · rw [live_handled]
      simp only [tableAfter, handle, respond, found]
  | some owner =>
    by_cases long : 20 ≤ json.length
    · have marked := DataRequest.markFirst_long (by simpa using long : 20 ≤ (json.map Post.decode).length)
      have saved : (scene.live (.handled (.response ticket (some json)))).store.table =
          scene.store.opened.tableSaved (fetched json) := by
        rw [live_handled]
        unfold tableAfter Store.tableSaved
        rw [handle, respond_long found long]
        cases scene.store.opened.saveAll (fetched json) with
        | ok store => exact congrArg Store.table (complete_store ..)
        | error abort => rfl
      have steps : scene.commits (.handled (.response ticket (some json))) =
          (scene.store.opened.committedSaves (fetched json)).map .save := by
        simp only [commits, found, marked]
        rfl
      unfold Commits contents
      rw [saved, steps]
      exact PostStore.tableSaved_commits scene.store.opened_realm (fetched json)
    · have short : json.length < 20 := by omega
      have trapped := DataRequest.markFirst_short (by simpa using short : (json.map Post.decode).length < 20)
      apply commits_nothing
      · simp only [commits, found, trapped]
      · rw [live_handled]
        simp only [tableAfter, handle, respond_short found short]

theorem commits_deletePost (scene : PostsScene) (offsets : IndexSet) :
    scene.Commits (.handled (.deletePost offsets)) := by
  have after := live_handled scene (.deletePost offsets)
  have handled : scene.handle (.deletePost offsets) =
      (scene.deletePost offsets).map fun next => (next, none) := rfl
  cases collected : PostsView.postsAt scene.postsView.shown offsets.indices with
  | error reason =>
    apply commits_nothing
    · simp only [commits, collected]
    · rw [after]
      simp only [tableAfter, handled, deletePost, PostsView.deletePost, collected, Except.map]
  | ok postsToDelete =>
    have saved : (scene.live (.handled (.deletePost offsets))).store.table =
        (scene.store.delete postsToDelete).1.table := by
      rw [after]
      simp only [tableAfter, handled, deletePost, PostsView.deletePost, collected, Except.map]
      rfl
    unfold Commits contents
    rw [saved]
    simp only [commits, collected]
    exact PostStore.delete_commits scene.store postsToDelete

theorem commits_killedSaving (scene : PostsScene) (ticket : Nat) (json : List PostJSON) (n : Nat) :
    scene.Commits (.killedSaving ticket json n) := by
  have table : (scene.live (.killedSaving ticket json n)).store.table = scene.tableKilled ticket json n := rfl
  cases found : scene.pending.awaiting ticket with
  | none =>
    apply commits_nothing
    · simp only [commits, found]
    · rw [table]
      simp only [tableKilled, found]
  | some owner =>
    cases marked : DataRequest.markFirst (json.map Post.decode) with
    | error reason =>
      apply commits_nothing
      · simp only [commits, found, marked]
      · rw [table]
        simp only [tableKilled, found, marked]
    | ok networkPosts =>
      cases stop : scene.store.opened.stoppedAfter n networkPosts with
      | none =>
        apply commits_nothing
        · simp only [commits, found, marked, stop]
        · rw [table]
          simp only [tableKilled, found, marked, stop]
      | some stopped =>
        have taken := PostStore.take_commits scene.store.opened_realm stop
        unfold Commits contents
        rw [table]
        simp only [commits, tableKilled, found, marked, stop]
        exact taken

theorem live_commits (scene : PostsScene) (event : LifeEvent) : scene.Commits event := by
  cases event with
  | handled event =>
    cases event with
    | response ticket reply =>
      cases reply with
      | some json => exact commits_response scene ticket json
      | none =>
        apply commits_nothing rfl
        rw [live_handled]
        cases found : scene.pending.awaiting ticket with
        | none => simp only [tableAfter, handle, respond, found]
        | some owner =>
          simp only [tableAfter, handle, respond_failed found]
          exact congrArg Store.table (complete_store ..)
    | deletePost offsets => exact commits_deletePost scene offsets
    | appear owner => exact commits_nothing rfl (loadData_table scene owner)
    | reload => exact commits_nothing rfl (loadData_table _ .postsView)
    | timer ticket => exact commits_nothing rfl rfl
    | deleteAll => exact ⟨Keyed.Table.contents_empty _, True.intro, True.intro⟩
    | markAsRead post =>
      exact ⟨PostStore.asMap_markAsRead scene.store post.managedObject, True.intro, True.intro⟩
    | setFavorite post isFavorite =>
      exact ⟨PostStore.asMap_setFavorite scene.store post.managedObject isFavorite, True.intro, True.intro⟩
  | deleted posts =>
    have removed := PostStore.delete_commits scene.store (posts.map Post.managedObject)
    rw [List.map_map] at removed
    exact removed
  | killed => exact commits_nothing rfl rfl
  | killedSaving ticket json n => exact commits_killedSaving scene ticket json n

theorem log_replayed (scene : PostsScene) (events : List LifeEvent) :
    (events.foldl live scene).contents = (scene.log events).foldl PostMap.commit scene.contents ∧
      Accepted PostMap.commit PostMap.Inserts scene.contents (scene.log events) := by
  induction events generalizing scene with
  | nil => exact ⟨rfl, True.intro⟩
  | cons event rest ih =>
    have first := live_commits scene event
    have later := ih (scene.live event)
    rw [List.foldl_cons, log, List.foldl_append, accepted_append]
    rw [first.1] at later
    exact ⟨later.1, first.2, later.2⟩

theorem log_append (scene : PostsScene) (front back : List LifeEvent) :
    scene.log (front ++ back) = scene.log front ++ (front.foldl live scene).log back := by
  induction front generalizing scene with
  | nil => rfl
  | cons event rest ih => rw [List.cons_append, log, ih, log, List.foldl_cons, List.append_assoc]

/-- At each point in the life of an installation, kills and crashes included, the posts on disk are
    what the transactions committed until then make of the posts it began with; no save of the whole
    life overwrites a post, and no transaction is ever taken back. -/
theorem life_replays_commits (scene : PostsScene) (front back : List LifeEvent) :
    (front.foldl live scene).contents = (scene.log front).foldl PostMap.commit scene.contents ∧
      scene.log front <+: scene.log (front ++ back) ∧
      Accepted PostMap.commit PostMap.Inserts scene.contents (scene.log (front ++ back)) := by
  refine ⟨(log_replayed scene front).1, ?_, (log_replayed scene (front ++ back)).2⟩
  rw [log_append]
  exact List.prefix_append _ _

end PostsScene

end ZemogaSocial
