import ZemogaSocial.Safety.PostLoads

namespace ZemogaSocial.PostsScene

open Transition

/-- The stored row of a shown post: the favourite mark may have changed, and it may be read since. -/
structure Backs (object : PostObject) (post : Post) : Prop where
  id : object.id = post.id
  userID : object.userID = post.userID
  title : object.title = post.title
  body : object.body = post.body
  read : post.read = true → object.read = true

structure Backed (shown : List Post) (rows : List PostObject) : Prop where
  distinct : (shown.map Post.id).Nodup
  row : ∀ post ∈ shown, ∃ object ∈ rows, Backs object post

theorem backs_managedObject (post : Post) : Backs post.managedObject post := ⟨rfl, rfl, rfl, rfl, id⟩

theorem backed_nil (rows : List PostObject) : Backed [] rows := ⟨List.nodup_nil, fun _ member => nomatch member⟩

theorem backed_rows {shown : List Post} {rows left : List PostObject} (backed : Backed shown rows)
    (kept : ∀ post ∈ shown, ∀ object ∈ rows, Backs object post → ∃ result ∈ left, Backs result post) :
    Backed shown left := by
  refine ⟨backed.distinct, ?_⟩
  intro post member
  obtain ⟨object, stored, backs⟩ := backed.row post member
  exact kept post member object stored backs

theorem backed_stored {posts : List Post} {rows : List PostObject} (distinct : (posts.map Post.id).Nodup)
    (stored : ∀ post ∈ posts, post.managedObject ∈ rows) : Backed posts rows :=
  ⟨distinct, fun post member => ⟨post.managedObject, stored post member, backs_managedObject post⟩⟩

theorem storedPosts_distinct (scene : PostsScene) : (scene.storedPosts.map Post.id).Nodup := by
  rw [storedPosts, List.map_map]
  exact scene.store.table.distinct

theorem mem_storedPosts {scene : PostsScene} {post : Post} :
    post ∈ scene.storedPosts ↔ post.managedObject ∈ scene.store.table.rows := by
  apply Iff.intro
  · intro member
    obtain ⟨object, stored, same⟩ := List.mem_map.mp member
    rw [← same]
    exact stored
  · intro stored
    exact List.mem_map_of_mem stored

theorem removed_id_ne {scene : PostsScene} {offsets : IndexSet} {objects : List PostObject}
    (distinct : (scene.postsView.shown.map Post.id).Nodup)
    (ids : ∀ object, object ∈ objects ↔ ∃ i ∈ offsets.indices, ∃ post,
      scene.postsView.shown[i]? = some post ∧ object = post.managedObject)
    {post : Post} (left : post ∈ offsets.removeFrom scene.postsView.shown) :
    ∀ object ∈ objects, post.id ≠ object.id := by
  obtain ⟨i, here, outside⟩ := IndexSet.mem_removeFrom.mp left
  intro object member same
  obtain ⟨j, inside, removed, there, rfl⟩ := (ids object).mp member
  have left : (scene.postsView.shown.map Post.id)[i]? = some post.id := by simp [here]
  have right : (scene.postsView.shown.map Post.id)[j]? = some post.id := by
    simp only [List.getElem?_map, there, Option.map_some]
    exact congrArg some same.symm
  have bound : i < (scene.postsView.shown.map Post.id).length := by
    by_contra beyond
    rw [List.getElem?_eq_none (Nat.le_of_not_lt beyond)] at left
    cases left
  have position : i = j := (List.getElem?_inj bound distinct).mp (left.trans right.symm)
  subst position
  exact outside inside

theorem backed_preserved {scene next : PostsScene} {event : Event} {done : Completion}
    (backed : Backed scene.postsView.shown scene.store.table.rows)
    (ok : scene.handle event = .ok (next, done)) :
    Backed next.postsView.shown next.store.table.rows := by
  have unchanged : Backed (scene.readied event).postsView.shown scene.store.table.rows := by
    cases event <;> exact backed
  cases handle_reaction ok with
  | hit starts stored =>
    rename_i owner
    cases owner with
    | postsView => exact backed_stored scene.storedPosts_distinct fun _ => mem_storedPosts.mp
    | favoritesView => exact unchanged
  | miss starts empty => exact unchanged
  | timer ticket => exact backed
  | stray unknown => exact backed
  | failed found =>
    rename_i owner
    cases owner <;> exact backed
  | delivered found long rows =>
    rename_i owner json store
    rw [complete_store, rows]
    cases owner with
    | postsView =>
      have distinct := store.table.distinct
      rw [rows, List.map_append, List.map_map] at distinct
      apply backed_stored (List.nodup_append.mp distinct).2.1
      intro post member
      exact List.mem_append_right _ (List.mem_map_of_mem member)
    | favoritesView =>
      apply backed_rows backed
      intro post member object stored backs
      exact ⟨object, List.mem_append_left _ stored, backs⟩
  | deleted ids =>
    rename_i offsets objects
    have kept := IndexSet.removeFrom_sublist offsets scene.postsView.shown
    apply Backed.mk
    · exact backed.distinct.sublist (kept.map Post.id)
    · intro post left
      obtain ⟨object, stored, backs⟩ := backed.row post (kept.subset left)
      refine ⟨object, PostStore.mem_delete.mpr ⟨stored, ?_⟩, backs⟩
      rw [backs.id]
      exact removed_id_ne backed.distinct ids left
  | cleared => exact backed_nil _
  | read target =>
    apply backed_rows backed
    intro post member object stored backs
    refine ⟨_, PostStore.mem_markAsRead.mpr ⟨object, stored, rfl⟩, ?_⟩
    split
    · exact ⟨backs.id, backs.userID, backs.title, backs.body, fun _ => rfl⟩
    · exact backs
  | starred target isFavorite =>
    apply backed_rows backed
    intro post member object stored backs
    refine ⟨_, PostStore.mem_setFavorite.mpr ⟨object, stored, rfl⟩, ?_⟩
    split
    · exact ⟨backs.id, backs.userID, backs.title, backs.body, backs.read⟩
    · exact backs

theorem backed_run {scene final : PostsScene} {events : List Event} (unshown : scene.postsView.shown = [])
    (completed : run handle scene events = .ok final) :
    Backed final.postsView.shown final.store.table.rows := by
  have initial : Backed scene.postsView.shown scene.store.table.rows := by
    rw [unshown]
    exact backed_nil _
  have permitted : Along handle (fun _ _ => True) scene events := along_of_forall (fun _ _ => True.intro) scene
  have backed := run_invariant (fun _ _ _ _ backed _ ok => backed_preserved backed ok) initial permitted
    completed
  exact backed

/-- Whatever arrives and in whatever order, `PostsView` shows no id twice, and for each shown post
    the table has exactly one row with its id, which is the same post and read if shown as read. -/
theorem shown_rows_backed (scene : PostsScene) (unshown : scene.postsView.shown = []) (events : List Event)
    (final : PostsScene) (completed : run handle scene events = .ok final) :
    (final.postsView.shown.map Post.id).Nodup ∧ ∀ post ∈ final.postsView.shown, ∃ object,
      final.store.table.rows.filter (fun row => row.id == post.id) = [object] ∧ Backs object post := by
  have backed := backed_run unshown completed
  refine ⟨backed.distinct, ?_⟩
  intro post member
  obtain ⟨object, stored, backs⟩ := backed.row post member
  refine ⟨object, Keyed.Table.filter_key stored ?_, backs⟩
  intro row
  rw [beq_iff_eq, ← backs.id]
  rfl

def swipes : List Event :=
  [.appear .postsView, .timer 0, .response 0 (some sampleServer), .setFavorite ⟨0, 9, "", "", false, true⟩ true,
    .deletePost ⟨[1, 3], by decide⟩, .appear .favoritesView, .markAsRead ⟨2, 9, "", "", true, false⟩,
    .markAsRead ⟨3, 9, "", "", true, false⟩]

theorem shown_rows_backed_swipes :
    ∃ final, run handle (launch .empty) swipes = .ok final ∧
      (final.postsView.shown.map Post.id).Nodup ∧ ∀ post ∈ final.postsView.shown, ∃ object,
        final.store.table.rows.filter (fun row => row.id == post.id) = [object] ∧ Backs object post := by
  have completes : (run handle (launch .empty) swipes).toOption.isSome = true := by decide +kernel
  cases completed : run handle (launch .empty) swipes with
  | error abort =>
    rw [completed] at completes
    cases completes
  | ok final => exact ⟨final, rfl, shown_rows_backed (launch .empty) rfl swipes final completed⟩

end ZemogaSocial.PostsScene
