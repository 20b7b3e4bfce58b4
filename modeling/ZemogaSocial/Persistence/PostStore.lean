import ZemogaSocial.Keyed.RemovalOrder
import ZemogaSocial.Persistence.Store

namespace ZemogaSocial

abbrev PostStore := Store PostObject

namespace PostStore

def savePost (store : PostStore) (post : PostObject) : Except (Failure (Rows PostObject)) PostStore :=
  store.save post

def savePosts (store : PostStore) (posts : List Post) : Except (Abort (Rows PostObject)) PostStore :=
  store.saveAll posts

def retrievePosts (store : PostStore) : Except RuntimeError (List PostObject) :=
  store.retrieve fun _ => true

def retrievePost (store : PostStore) (id : Int64) : Except RuntimeError (List PostObject) :=
  store.retrieve fun object => object.id == id

def loadPostsFromRealm (store : PostStore) : PostStore × Option (List Post) :=
  store.load retrievePosts

/-- Only the `id` of the object passed in is read. -/
def markAsRead (store : PostStore) (post : PostObject) : PostStore :=
  { store.opened with
    table := store.table.update (fun object => object.id == post.id)
      (fun object => { object with read := true }) fun _ => rfl }

def setFavorite (store : PostStore) (post : PostObject) (isFavorite : Bool) : PostStore :=
  { store.opened with
    table := store.table.update (fun object => object.id == post.id)
      (fun object => { object with isFavorite }) fun _ => rfl }

/-- One write transaction for each object passed in, matched by its `id` alone. -/
def delete (store : PostStore) (posts : List PostObject) : PostStore × Bool :=
  (posts.foldl (fun store post =>
    { store with table := store.table.remove fun object => object.id == post.id }) store.opened, true)

def deleteAll (store : PostStore) : PostStore × Bool := Store.deleteAll store

theorem loadPostsFromRealm_eq (store : PostStore) :
    store.loadPostsFromRealm = (store.opened, some (store.table.rows.map Post.ofManaged)) := by
  have everything : store.table.rows.filter (fun _ => true) = store.table.rows :=
    List.filter_eq_self.mpr fun _ _ => rfl
  unfold loadPostsFromRealm retrievePosts
  rw [Store.load_eq, everything]
  rfl

theorem mem_markAsRead {store : PostStore} {post object : PostObject} :
    object ∈ (store.markAsRead post).table.rows ↔ ∃ old ∈ store.table.rows,
      (if old.id = post.id then { old with read := true } else old) = object := by
  simp [markAsRead, Keyed.Table.mem_update]

theorem mem_setFavorite {store : PostStore} {post object : PostObject} {isFavorite : Bool} :
    object ∈ (store.setFavorite post isFavorite).table.rows ↔ ∃ old ∈ store.table.rows,
      (if old.id = post.id then { old with isFavorite } else old) = object := by
  simp [setFavorite, Keyed.Table.mem_update]

theorem markAsRead_filter (store : PostStore) (post : PostObject) :
    ((store.markAsRead post).table.rows.filter fun object => object.id == post.id) =
      (store.table.rows.filter fun object => object.id == post.id).map fun object =>
        { object with read := true } := by
  apply Keyed.Table.filter_update
  · exact fun _ => rfl
  · exact fun _ => rfl

theorem setFavorite_filter (store : PostStore) (post : PostObject) (isFavorite : Bool) :
    ((store.setFavorite post isFavorite).table.rows.filter fun object => object.id == post.id) =
      (store.table.rows.filter fun object => object.id == post.id).map fun object =>
        { object with isFavorite } := by
  apply Keyed.Table.filter_update
  · exact fun _ => rfl
  · exact fun _ => rfl

@[simp] theorem markAsRead_keys (store : PostStore) (post : PostObject) :
    (store.markAsRead post).table.keys = store.table.keys := by
  rw [markAsRead, Keyed.Table.update_keys]

@[simp] theorem setFavorite_keys (store : PostStore) (post : PostObject) (isFavorite : Bool) :
    (store.setFavorite post isFavorite).table.keys = store.table.keys := by
  rw [setFavorite, Keyed.Table.update_keys]

theorem delete_realm (store : PostStore) (posts : List PostObject) :
    (store.delete posts).1.realm = true := by
  unfold delete
  induction posts using List.reverseRecOn with
  | nil => rfl
  | append_singleton posts post ih => simpa [List.foldl_append] using ih

theorem mem_delete {store : PostStore} {posts : List PostObject} {object : PostObject} :
    object ∈ (store.delete posts).1.table.rows ↔
      object ∈ store.table.rows ∧ ∀ post ∈ posts, object.id ≠ post.id := by
  unfold delete
  induction posts using List.reverseRecOn with
  | nil => simp
  | append_singleton posts post ih =>
    simp only [List.foldl_append, List.foldl_cons, List.foldl_nil, Keyed.Table.mem_remove, ih,
      List.forall_mem_append, List.forall_mem_singleton, beq_eq_false_iff_ne]
    exact and_assoc

/-- Objects that are stored as they are passed in are removed one after the other. -/
theorem delete_rows {store : PostStore} {posts : List PostObject}
    (stored : ∀ post ∈ posts, post ∈ store.table.rows) :
    (store.delete posts).1.table.rows = Keyed.removeEach store.table.rows posts := by
  induction posts using List.reverseRecOn with
  | nil => rfl
  | append_singleton posts post ih =>
    rw [List.forall_mem_append, List.forall_mem_singleton] at stored
    have earlier := ih stored.1
    have last : (store.delete (posts ++ [post])).1.table.rows =
        ((store.delete posts).1.table.remove fun object => object.id == post.id).rows := by
      simp [delete, List.foldl_append]
    rw [last, Keyed.removeEach_append, ← earlier]
    apply Keyed.Table.remove_rows
    intro other member
    have original := (mem_delete.mp member).1
    rw [beq_iff_eq]
    apply Iff.intro
    · exact Keyed.Table.row_unique original stored.2
    · intro same
      rw [same]

theorem delete_keys {store : PostStore} {posts : List PostObject} {id : Int64} :
    id ∈ (store.delete posts).1.table.keys ↔ id ∈ store.table.keys ∧ ∀ post ∈ posts, id ≠ post.id := by
  simp only [Keyed.Table.mem_keys, mem_delete]
  apply Iff.intro
  · intro left
    rcases left with ⟨object, ⟨stored, kept⟩, same⟩
    subst same
    exact ⟨⟨object, stored, rfl⟩, kept⟩
  · intro left
    rcases left with ⟨⟨object, stored, same⟩, kept⟩
    subst same
    exact ⟨object, ⟨stored, kept⟩, rfl⟩

end PostStore

end ZemogaSocial
