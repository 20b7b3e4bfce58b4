import ZemogaSocial.Scenes.PostsScene

namespace ZemogaSocial

open Transition

namespace PostsView

theorem postsAt_result {posts : List Post} {indices : List Nat} {objects : List PostObject}
    (ok : postsAt posts indices = .ok objects) (object : PostObject) :
    object ∈ objects ↔ ∃ i ∈ indices, ∃ post, posts[i]? = some post ∧ object = post.managedObject := by
  induction indices generalizing objects with
  | nil => cases ok; simp
  | cons i rest ih =>
    rw [postsAt] at ok
    cases here : posts[i]? with
    | none =>
      rw [here] at ok
      cases ok
    | some post =>
      cases tail : postsAt posts rest with
      | error reason =>
        rw [here, tail] at ok
        cases ok
      | ok later =>
        rw [here, tail] at ok
        cases ok
        simp [ih tail, here]

theorem postsAt_inRange {posts : List Post} {indices : List Nat}
    (inRange : ∀ i ∈ indices, i < posts.length) :
    postsAt posts indices = .ok ((indices.filterMap fun i => posts[i]?).map Post.managedObject) := by
  induction indices with
  | nil => rfl
  | cons i rest ih =>
    rw [List.forall_mem_cons] at inRange
    have here := List.getElem?_eq_getElem inRange.1
    simp only [postsAt, here, ih inRange.2, List.filterMap_cons, List.map_cons]

theorem deletePost_result {view next : PostsView} {store left : PostStore} {offsets : IndexSet}
    (ok : view.deletePost store offsets = .ok (next, left)) :
    ∃ objects, left = (store.delete objects).1 ∧
      next = { view with shown := offsets.removeFrom view.shown } ∧
      ∀ object, object ∈ objects ↔
        ∃ i ∈ offsets.indices, ∃ post, view.shown[i]? = some post ∧ object = post.managedObject := by
  unfold deletePost at ok
  cases collected : postsAt view.shown offsets.indices with
  | error reason =>
    rw [collected] at ok
    cases ok
  | ok objects =>
    rw [collected] at ok
    cases ok
    exact ⟨objects, rfl, rfl, postsAt_result collected⟩

theorem deletePost_abort {view : PostsView} {store : PostStore} {offsets : IndexSet}
    {abort : Abort (Rows PostObject)} (trapped : view.deletePost store offsets = .error abort) :
    ∃ reason, postsAt view.shown offsets.indices = .error reason ∧ abort = ⟨reason, store.table⟩ := by
  unfold deletePost at trapped
  cases collected : postsAt view.shown offsets.indices with
  | error reason =>
    rw [collected] at trapped
    cases trapped
    exact ⟨reason, rfl, rfl⟩
  | ok objects =>
    rw [collected] at trapped
    cases trapped

theorem postsAt_abort {posts : List Post} {indices : List Nat} {reason : AbortReason}
    (trapped : postsAt posts indices = .error reason) :
    ∃ i ∈ indices, posts.length ≤ i ∧ reason = .indexOutOfRange i := by
  induction indices with
  | nil => cases trapped
  | cons i rest ih =>
    rw [postsAt] at trapped
    cases here : posts[i]? with
    | none =>
      rw [here] at trapped
      cases trapped
      exact ⟨i, List.mem_cons_self, List.getElem?_eq_none_iff.mp here, rfl⟩
    | some post =>
      cases tail : postsAt posts rest with
      | error later =>
        rw [here, tail] at trapped
        cases trapped
        obtain ⟨j, member, beyond⟩ := ih tail
        exact ⟨j, List.mem_cons_of_mem _ member, beyond⟩
      | ok later =>
        rw [here, tail] at trapped
        cases trapped

end PostsView

namespace PostsScene

def fetched (json : List PostJSON) : List Post := DataRequest.firstUnread (json.map Post.decode)

def present : Owner → List Post → List Post
  | .postsView => id
  | .favoritesView => FavoritesView.filterFavorites

@[simp] theorem complete_store (scene : PostsScene) (owner : Owner) (retrieved : Option (List Post)) :
    (scene.complete owner retrieved).store = scene.store := by cases owner <;> rfl

@[simp] theorem complete_pending (scene : PostsScene) (owner : Owner) (retrieved : Option (List Post)) :
    (scene.complete owner retrieved).pending = scene.pending := by cases owner <;> rfl

theorem complete_screen_self (scene : PostsScene) (owner : Owner) (retrieved : Option (List Post)) :
    (scene.complete owner retrieved).screen owner =
      (scene.screen owner).loaded (present owner) retrieved := by cases owner <;> rfl

theorem complete_screen_other (scene : PostsScene) {owner other : Owner} (different : other ≠ owner)
    (retrieved : Option (List Post)) :
    (scene.complete owner retrieved).screen other = scene.screen other := by
  cases owner <;> cases other <;> first | rfl | exact absurd rfl different

def storedPosts (scene : PostsScene) : List Post := scene.store.table.rows.map Post.ofManaged

theorem loadData_hit {scene : PostsScene} (stored : scene.store.table.rows ≠ []) (owner : Owner) :
    scene.loadData owner =
      ({ scene with store := scene.store.opened }.complete owner (some scene.storedPosts),
        some (owner, some scene.storedPosts)) := by
  have hit : DataRequest.getPosts scene.store = (scene.store.opened, some scene.storedPosts) := by
    unfold DataRequest.getPosts
    rw [PostStore.loadPostsFromRealm_eq]
    have rows : scene.storedPosts ≠ [] := fun none => stored (List.map_eq_nil_iff.mp none)
    exact congrArg (Prod.mk scene.store.opened) (DataRequest.cacheHit_cons rows)
  unfold loadData
  rw [hit]

theorem loadData_miss {scene : PostsScene} (empty : scene.store.table.rows = []) (owner : Owner) :
    scene.loadData owner =
      ({ scene with store := scene.store.opened, pending := scene.pending.issue owner }, none) := by
  have miss : DataRequest.getPosts scene.store = (scene.store.opened, none) := by
    unfold DataRequest.getPosts
    rw [PostStore.loadPostsFromRealm_eq, empty]
    rfl
  unfold loadData
  rw [miss]

theorem loadData_table (scene : PostsScene) (owner : Owner) :
    (scene.loadData owner).1.store.table = scene.store.table := by
  by_cases empty : scene.store.table.rows = []
  · rw [loadData_miss empty]
    rfl
  · rw [loadData_hit empty, complete_store]
    rfl

theorem respond_failed {scene : PostsScene} {ticket : Nat} {owner : Owner}
    (found : scene.pending.awaiting ticket = some owner) :
    scene.respond ticket none = .ok
      ({ scene with pending := scene.pending.settle ticket }.complete owner none, some (owner, none)) := by
  simp only [respond, found, DataRequest.receivePosts]

theorem respond_short {scene : PostsScene} {ticket : Nat} {owner : Owner} {json : List PostJSON}
    (found : scene.pending.awaiting ticket = some owner) (short : json.length < 20) :
    scene.respond ticket (some json) = .error ⟨.indexOutOfRange json.length, scene.store.table⟩ := by
  have decoded : (json.map Post.decode).length < 20 := by simpa using short
  have trapped := DataRequest.markFirst_short decoded
  simp only [respond, found, DataRequest.receivePosts, trapped, List.length_map]

theorem respond_long {scene : PostsScene} {ticket : Nat} {owner : Owner} {json : List PostJSON}
    (found : scene.pending.awaiting ticket = some owner) (long : 20 ≤ json.length) :
    scene.respond ticket (some json) = match scene.store.opened.saveAll (fetched json) with
      | .ok store => .ok ({ scene with store, pending := scene.pending.settle ticket }.complete owner
          (some (fetched json)), some (owner, some (fetched json)))
      | .error abort => .error abort := by
  have decoded : 20 ≤ (json.map Post.decode).length := by simpa using long
  have marked : DataRequest.markFirst (json.map Post.decode) = .ok (fetched json) :=
    DataRequest.markFirst_long decoded
  simp only [respond, found, DataRequest.receivePosts, marked, DataRequest.saveAndDeliver,
    PostStore.savePosts]
  cases scene.store.opened.saveAll (fetched json) <;> rfl

/-- All that an aborting response can do: trap in the marking loop, or raise on a post whose id the
    table holds once the posts before it are saved. -/
theorem respond_abort {scene : PostsScene} {ticket : Nat} {reply : Option (List PostJSON)}
    {abort : Abort (Rows PostObject)} (aborted : scene.respond ticket reply = .error abort) :
    ∃ owner json, scene.pending.awaiting ticket = some owner ∧ reply = some json ∧
      ((json.length < 20 ∧ abort = ⟨.indexOutOfRange json.length, scene.store.table⟩) ∨
       (20 ≤ json.length ∧ ∃ done post rest, fetched json = done ++ post :: rest ∧
          abort.reason = .existingPrimaryKey post.id ∧
          abort.durable.rows = scene.store.table.rows ++ done.map Post.managedObject ∧
          post.id ∈ abort.durable.keys)) := by
  cases found : scene.pending.awaiting ticket with
  | none =>
    rw [respond, found] at aborted
    cases aborted
  | some owner =>
    cases reply with
    | none =>
      rw [respond_failed found] at aborted
      cases aborted
    | some json =>
      refine ⟨owner, json, rfl, rfl, ?_⟩
      by_cases long : 20 ≤ json.length
      · rw [respond_long found long] at aborted
        rcases Store.saveAll_cases scene.store.opened_realm (fetched json) with
          ⟨saved, ok, _⟩ | ⟨done, post, rest, table, split, raised, rows, taken⟩
        · rw [ok] at aborted
          cases aborted
        · rw [raised] at aborted
          cases aborted
          exact .inr ⟨long, done, post, rest, split, rfl, rows, taken⟩
      · have short : json.length < 20 := by omega
        rw [respond_short found short] at aborted
        cases aborted
        exact .inl ⟨short, rfl⟩

theorem deletePost_result {scene next : PostsScene} {offsets : IndexSet}
    (ok : scene.deletePost offsets = .ok next) :
    ∃ objects, next = { scene with
        store := (scene.store.delete objects).1
        postsView := { scene.postsView with shown := offsets.removeFrom scene.postsView.shown } } ∧
      ∀ object, object ∈ objects ↔
        ∃ i ∈ offsets.indices, ∃ post, scene.postsView.shown[i]? = some post ∧
          object = post.managedObject := by
  unfold deletePost at ok
  cases result : scene.postsView.deletePost scene.store offsets with
  | error abort =>
    rw [result] at ok
    cases ok
  | ok pair =>
    obtain ⟨objects, left, view, ids⟩ := PostsView.deletePost_result result
    rw [result] at ok
    cases ok
    exact ⟨objects, by rw [left, view], ids⟩

theorem handle_deletePost {scene next : PostsScene} {offsets : IndexSet} {done : Completion}
    (ok : scene.handle (.deletePost offsets) = .ok (next, done)) :
    scene.deletePost offsets = .ok next ∧ done = none := by
  rw [handle] at ok
  cases result : scene.deletePost offsets with
  | error abort =>
    rw [result] at ok
    cases ok
  | ok after =>
    rw [result] at ok
    cases ok
    exact ⟨rfl, rfl⟩

theorem deletePost_abort {scene : PostsScene} {offsets : IndexSet} {abort : Abort (Rows PostObject)}
    (trapped : scene.deletePost offsets = .error abort) :
    ∃ i ∈ offsets.indices, scene.postsView.shown.length ≤ i ∧
      abort = ⟨.indexOutOfRange i, scene.store.table⟩ := by
  unfold deletePost at trapped
  cases result : scene.postsView.deletePost scene.store offsets with
  | ok pair =>
    rw [result] at trapped
    cases trapped
  | error first =>
    rw [result] at trapped
    cases trapped
    obtain ⟨reason, collected, rfl⟩ := PostsView.deletePost_abort result
    obtain ⟨i, member, beyond, rfl⟩ := PostsView.postsAt_abort collected
    exact ⟨i, member, beyond, rfl⟩

theorem fetched_ids (json : List PostJSON) : (fetched json).map Post.id = json.map PostJSON.id := by
  rw [fetched, DataRequest.firstUnread_ids, List.map_map]
  rfl

def Event.starts : Event → Option Owner
  | .appear owner => some owner
  | .reload => some .postsView
  | _ => none

/-- The reload button raises the flag before it loads; an appearance does not. -/
def readied (scene : PostsScene) : Event → PostsScene
  | .reload => { scene with postsView := { scene.postsView with isLoading := true } }
  | _ => scene

/-- All that one handler can do when it does not abort. -/
inductive Reaction (scene : PostsScene) : Event → PostsScene → Completion → Prop where
  | hit {event : Event} {owner : Owner} (starts : event.starts = some owner)
      (stored : scene.store.table.rows ≠ []) :
      Reaction scene event
        ({ scene.readied event with store := scene.store.opened }.complete owner (some scene.storedPosts))
        (some (owner, some scene.storedPosts))
  | miss {event : Event} {owner : Owner} (starts : event.starts = some owner)
      (empty : scene.store.table.rows = []) :
      Reaction scene event
        { scene.readied event with store := scene.store.opened, pending := scene.pending.issue owner } none
  | timer (ticket : Nat) :
      Reaction scene (.timer ticket) { scene with pending := scene.pending.fire ticket } none
  | stray {ticket : Nat} {reply : Option (List PostJSON)} (unknown : scene.pending.awaiting ticket = none) :
      Reaction scene (.response ticket reply) scene none
  | failed {ticket : Nat} {owner : Owner} (found : scene.pending.awaiting ticket = some owner) :
      Reaction scene (.response ticket none)
        ({ scene with pending := scene.pending.settle ticket }.complete owner none) (some (owner, none))
  | delivered {ticket : Nat} {owner : Owner} {json : List PostJSON} {store : PostStore}
      (found : scene.pending.awaiting ticket = some owner) (long : 20 ≤ json.length)
      (rows : store.table.rows = scene.store.table.rows ++ (fetched json).map Post.managedObject) :
      Reaction scene (.response ticket (some json))
        ({ scene with store, pending := scene.pending.settle ticket }.complete owner (some (fetched json)))
        (some (owner, some (fetched json)))
  | deleted {offsets : IndexSet} {objects : List PostObject}
      (ids : ∀ object, object ∈ objects ↔ ∃ i ∈ offsets.indices, ∃ post,
        scene.postsView.shown[i]? = some post ∧ object = post.managedObject) :
      Reaction scene (.deletePost offsets) { scene with
        store := (scene.store.delete objects).1
        postsView := { scene.postsView with shown := offsets.removeFrom scene.postsView.shown } } none
  | cleared :
      Reaction scene .deleteAll { scene with
        store := scene.store.deleteAll.1, postsView := { scene.postsView with shown := [] } } none
  | read (post : Post) :
      Reaction scene (.markAsRead post)
        { scene with store := scene.store.markAsRead post.managedObject } none
  | starred (post : Post) (isFavorite : Bool) :
      Reaction scene (.setFavorite post isFavorite)
        { scene with store := scene.store.setFavorite post.managedObject isFavorite } none

theorem loadData_reaction (scene : PostsScene) (event : Event) {owner : Owner}
    (starts : event.starts = some owner) :
    Reaction scene event ((scene.readied event).loadData owner).1 ((scene.readied event).loadData owner).2 := by
  have store : (scene.readied event).store = scene.store := by cases event <;> rfl
  have pending : (scene.readied event).pending = scene.pending := by cases event <;> rfl
  by_cases empty : scene.store.table.rows = []
  · have same : (scene.readied event).store.table.rows = [] := by rw [store]; exact empty
    rw [loadData_miss same owner, store, pending]
    exact .miss starts empty
  · have same : (scene.readied event).store.table.rows ≠ [] := by rw [store]; exact empty
    have posts : (scene.readied event).storedPosts = scene.storedPosts := by rw [storedPosts, store]; rfl
    rw [loadData_hit same owner, store, posts]
    exact .hit starts empty

theorem handle_reaction {scene next : PostsScene} {event : Event} {done : Completion}
    (ok : scene.handle event = .ok (next, done)) : Reaction scene event next done := by
  cases event with
  | appear owner =>
    have loaded := loadData_reaction scene (.appear owner) rfl
    have result : (scene.readied (.appear owner)).loadData owner = (next, done) := Except.ok.inj ok
    rw [result] at loaded
    exact loaded
  | reload =>
    have loaded := loadData_reaction scene .reload rfl
    have result : (scene.readied .reload).loadData .postsView = (next, done) := Except.ok.inj ok
    rw [result] at loaded
    exact loaded
  | timer ticket => cases ok; exact .timer ticket
  | response ticket reply =>
    rw [handle] at ok
    cases found : scene.pending.awaiting ticket with
    | none =>
      rw [respond, found] at ok
      cases ok
      exact .stray found
    | some owner =>
      cases reply with
      | none =>
        rw [respond_failed found] at ok
        cases ok
        exact .failed found
      | some json =>
        by_cases long : 20 ≤ json.length
        · rw [respond_long found long] at ok
          cases saved : scene.store.opened.saveAll (fetched json) with
          | error abort =>
            rw [saved] at ok
            cases ok
          | ok store =>
            rw [saved] at ok
            cases ok
            exact .delivered found long (Store.saveAll_result scene.store.opened_realm saved).2
        · rw [respond_short found (by omega)] at ok
          cases ok
  | deletePost offsets =>
    obtain ⟨result, rfl⟩ := handle_deletePost ok
    obtain ⟨objects, rfl, ids⟩ := deletePost_result result
    exact .deleted ids
  | deleteAll => cases ok; exact .cleared
  | markAsRead post => cases ok; exact .read post
  | setFavorite post isFavorite => cases ok; exact .starred post isFavorite

end PostsScene

end ZemogaSocial
