import ZemogaSocial.Keyed.Contents
import ZemogaSocial.Persistence.PostStore
import ZemogaSocial.Transition.Refinement

namespace ZemogaSocial

open Transition

structure PostFields where
  userID : Int64
  title : String
  body : String
  isFavorite : Bool
  read : Bool
  deriving DecidableEq, Repr

abbrev PostMap := Finmap fun _ : Int64 => PostFields

def PostObject.fields (object : PostObject) : PostFields :=
  ⟨object.userID, object.title, object.body, object.isFavorite, object.read⟩

def PostFields.object (id : Int64) (fields : PostFields) : PostObject :=
  ⟨id, fields.userID, fields.title, fields.body, fields.isFavorite, fields.read⟩

inductive StoreOp where
  | savePosts (posts : List Post)
  | savePost (post : PostObject)
  | markAsRead (post : PostObject)
  | setFavorite (post : PostObject) (isFavorite : Bool)
  | delete (posts : List PostObject)
  | deleteAll

namespace PostMap

/-- Of the objects passed to `markAsRead`, `setFavorite` and `delete` only the ids take part. -/
def apply (map : PostMap) : StoreOp → PostMap
  | .savePosts posts =>
    posts.foldl (fun map post => map.insert post.id post.managedObject.fields) map
  | .savePost post => map.insert post.id post.fields
  | .markAsRead post => Keyed.adjust post.id (fun fields => { fields with read := true }) map
  | .setFavorite post isFavorite => Keyed.adjust post.id (fun fields => { fields with isFavorite }) map
  | .delete posts => Keyed.eraseAll (posts.map PostObject.id) map
  | .deleteAll => ∅

def Fresh (map : PostMap) : StoreOp → Prop
  | .savePosts posts => (posts.map Post.id).Nodup ∧ ∀ post ∈ posts, post.id ∉ map
  | .savePost post => post.id ∉ map
  | _ => True

end PostMap

namespace PostStore

def perform (store : PostStore) : StoreOp → Except (Failure (Rows PostObject)) (PostStore × Unit)
  | .savePosts posts =>
    match store.savePosts posts with
    | .ok saved => .ok (saved, ())
    | .error abort => .error (.aborted abort)
  | .savePost post =>
    match store.savePost post with
    | .ok saved => .ok (saved, ())
    | .error failure => .error failure
  | .markAsRead post => .ok (store.markAsRead post, ())
  | .setFavorite post isFavorite => .ok (store.setFavorite post isFavorite, ())
  | .delete posts => .ok ((store.delete posts).1, ())
  | .deleteAll => .ok (store.deleteAll.1, ())

def asMap (store : PostStore) : PostMap := store.table.contents PostObject.fields

def Mirrors (store : PostStore) (map : PostMap) : Prop := store.realm = true ∧ store.asMap = map

theorem mem_asMap {store : PostStore} {id : Int64} : id ∈ store.asMap ↔ id ∈ store.table.keys :=
  Keyed.Table.mem_contents

/-- The store's own answers are those of the map. -/
structure Represents (store : PostStore) (map : PostMap) : Prop where
  realm : store.realm = true
  loaded : ∃ posts, store.loadPostsFromRealm.2 = some posts ∧ (posts.map Post.id).Nodup ∧
    ∀ post, post ∈ posts ↔ map.lookup post.id = some post.managedObject.fields
  retrieved : ∀ id, store.retrievePost id = .ok ((map.lookup id).toList.map (PostFields.object id))

theorem lookup_asMap {store : PostStore} {id : Int64} {fields : PostFields} :
    store.asMap.lookup id = some fields ↔ fields.object id ∈ store.table.rows := by
  unfold asMap
  rw [Keyed.Table.lookup_contents]
  apply Iff.intro
  · intro listed
    rcases listed with ⟨object, stored, sameId, sameFields⟩
    have rebuilt : object.fields.object object.id = object := rfl
    have here : object.id = id := sameId
    rw [← sameFields, ← here, rebuilt]
    exact stored
  · intro stored
    exact ⟨fields.object id, stored, rfl, rfl⟩

theorem retrieved_eq {store : PostStore} (realm : store.realm = true) (id : Int64) :
    store.retrievePost id = .ok ((store.asMap.lookup id).toList.map (PostFields.object id)) := by
  have query : store.retrievePost id = .ok (store.table.rows.filter fun object => object.id == id) :=
    if_pos realm
  rw [query]
  apply congrArg Except.ok
  cases found : store.asMap.lookup id with
  | none =>
    apply List.filter_eq_nil_iff.mpr
    intro object stored same
    have absent : id ∉ store.asMap := Finmap.lookup_eq_none.mp found
    rw [mem_asMap] at absent
    have here : object.id = id := beq_iff_eq.mp same
    exact absent (here ▸ Keyed.Table.key_mem stored)
  | some fields =>
    exact Keyed.Table.filter_key (lookup_asMap.mp found) fun _ => beq_iff_eq

theorem represents_asMap {store : PostStore} (realm : store.realm = true) :
    store.Represents store.asMap where
  realm := realm
  loaded := by
    refine ⟨store.table.rows.map Post.ofManaged, by rw [loadPostsFromRealm_eq], ?_, ?_⟩
    · rw [List.map_map]
      exact store.table.distinct
    · intro post
      rw [lookup_asMap, List.mem_map]
      apply Iff.intro
      · intro listed
        rcases listed with ⟨object, stored, same⟩
        subst same
        exact stored
      · intro stored
        exact ⟨post.managedObject, stored, rfl⟩
  retrieved := retrieved_eq realm

theorem asMap_savePosts {store saved : PostStore} {posts : List Post} (realm : store.realm = true)
    (ok : store.savePosts posts = .ok saved) : saved.asMap = store.asMap.apply (.savePosts posts) := by
  have loop : store.savePosts posts = _ := Store.saveAll_opened realm posts
  cases added : store.table.addEach (posts.map Persistable.managedObject) with
  | error raised =>
    rw [ok, added] at loop
    cases loop
  | ok table =>
    rw [ok, added] at loop
    cases loop
    have contents : table.contents PostObject.fields = _ := Keyed.Table.contents_addEach added
    rw [List.foldl_map] at contents
    exact contents

theorem asMap_delete (store : PostStore) (posts : List PostObject) :
    (store.delete posts).1.asMap = store.asMap.apply (.delete posts) := by
  unfold delete asMap PostMap.apply Keyed.eraseAll
  induction posts using List.reverseRecOn with
  | nil => rfl
  | append_singleton posts post ih =>
    simp only [List.foldl_append, List.map_append, List.foldl_cons, List.foldl_nil, List.map_cons,
      List.map_nil] at ih ⊢
    rw [← ih]
    exact Keyed.Table.contents_remove fun _ => beq_iff_eq

theorem asMap_delete_congr (store : PostStore) {left right : List PostObject}
    (same : ∀ id, id ∈ left.map PostObject.id ↔ id ∈ right.map PostObject.id) :
    (store.delete left).1.asMap = (store.delete right).1.asMap := by
  rw [asMap_delete, asMap_delete]
  exact Keyed.eraseAll_congr same store.asMap

theorem asMap_markAsRead (store : PostStore) (post : PostObject) :
    (store.markAsRead post).asMap = store.asMap.apply (.markAsRead post) := by
  apply Keyed.Table.contents_update
  · exact fun _ => rfl
  · exact fun _ => beq_iff_eq
  · exact fun _ => rfl

theorem asMap_setFavorite (store : PostStore) (post : PostObject) (isFavorite : Bool) :
    (store.setFavorite post isFavorite).asMap = store.asMap.apply (.setFavorite post isFavorite) := by
  apply Keyed.Table.contents_update
  · exact fun _ => rfl
  · exact fun _ => beq_iff_eq
  · exact fun _ => rfl

theorem perform_completes_iff {store : PostStore} (realm : store.realm = true) (op : StoreOp) :
    (∃ next out, store.perform op = .ok (next, out)) ↔ store.asMap.Fresh op := by
  cases op with
  | savePosts posts =>
    have loop : (∃ saved, store.savePosts posts = .ok saved) ↔ _ := Store.saveAll_ok_iff realm
    have fresh : store.asMap.Fresh (.savePosts posts) ↔ ∃ saved, store.savePosts posts = .ok saved := by
      rw [loop]
      exact and_congr_right fun _ => forall₂_congr fun _ _ => not_congr mem_asMap
    rw [fresh]
    cases result : store.savePosts posts <;> simp [perform, result]
  | savePost post =>
    have single : store.savePost post = _ := Store.save_opened realm post
    have fresh : store.asMap.Fresh (.savePost post) ↔ post.id ∉ store.table.keys := not_congr mem_asMap
    rw [fresh]
    by_cases present : post.id ∈ store.table.keys
    · have raised := Keyed.Table.add_error present
      rw [raised] at single
      simp [perform, single, present]
    · obtain ⟨table, added, _⟩ := Keyed.Table.add_ok present
      rw [added] at single
      simp [perform, single, present]
  | markAsRead post => exact iff_of_true ⟨_, _, rfl⟩ True.intro
  | setFavorite post isFavorite => exact iff_of_true ⟨_, _, rfl⟩ True.intro
  | delete posts => exact iff_of_true ⟨_, _, rfl⟩ True.intro
  | deleteAll => exact iff_of_true ⟨_, _, rfl⟩ True.intro

theorem perform_refines {store next : PostStore} {op : StoreOp} {out : Unit} (realm : store.realm = true)
    (ok : store.perform op = .ok (next, out)) :
    next.realm = true ∧ next.asMap = store.asMap.apply op := by
  cases op with
  | savePosts posts =>
    cases saved : store.savePosts posts with
    | error abort =>
      rw [perform, saved] at ok
      cases ok
    | ok result =>
      rw [perform, saved] at ok
      cases ok
      exact ⟨(Store.saveAll_result realm saved).1, asMap_savePosts realm saved⟩
  | savePost post =>
    cases saved : store.savePost post with
    | error failure =>
      rw [perform, saved] at ok
      cases ok
    | ok result =>
      rw [perform, saved] at ok
      cases ok
      have transaction := Store.save_result realm saved
      exact ⟨transaction.1, Keyed.Table.contents_add transaction.2⟩
  | markAsRead post =>
    cases ok
    exact ⟨rfl, asMap_markAsRead store post⟩
  | setFavorite post isFavorite =>
    cases ok
    exact ⟨rfl, asMap_setFavorite store post isFavorite⟩
  | delete posts =>
    cases ok
    exact ⟨delete_realm store posts, asMap_delete store posts⟩
  | deleteAll =>
    cases ok
    exact ⟨rfl, Keyed.Table.contents_empty _⟩

/-- Operations whose saves are all fresh complete, and after each of them the store answers as the
    map does; operations that complete have made fresh saves only. -/
theorem post_store_refines_map (store : PostStore) (realm : store.realm = true) (ops : List StoreOp) :
    ((∃ final, run perform store ops = .ok final) ↔
      Accepted PostMap.apply PostMap.Fresh store.asMap ops) ∧
    (Accepted PostMap.apply PostMap.Fresh store.asMap ops → ∀ front back, ops = front ++ back →
      ∃ reached, run perform store front = .ok reached ∧
        reached.Represents (front.foldl PostMap.apply store.asMap) ∧
        ∀ left right : List PostObject,
          (∀ id, id ∈ left.map PostObject.id ↔ id ∈ right.map PostObject.id) →
          (reached.delete left).1.asMap = (reached.delete right).1.asMap) := by
  have completes : ∀ front, (∃ final, run perform store front = .ok final) ↔
      Accepted PostMap.apply PostMap.Fresh store.asMap front := by
    intro front
    apply completes_iff_accepted Mirrors
    · intro store map op mirrors
      rcases mirrors with ⟨set, rfl⟩
      exact perform_completes_iff set op
    · intro store map op next out mirrors ok
      rcases mirrors with ⟨set, rfl⟩
      exact perform_refines set ok
    · exact ⟨realm, rfl⟩
  refine ⟨completes ops, ?_⟩
  intro fresh front back split
  subst split
  obtain ⟨reached, completed⟩ := (completes front).mpr (accepted_front fresh)
  have simulated : Mirrors reached (front.foldl PostMap.apply store.asMap) := by
    apply run_refines Mirrors _ ⟨realm, rfl⟩ completed
    intro store map op next out mirrors ok
    rcases mirrors with ⟨set, rfl⟩
    exact perform_refines set ok
  refine ⟨reached, completed, ?_, fun left right => asMap_delete_congr reached⟩
  rw [← simulated.2]
  exact represents_asMap simulated.1

def samplePosts : List Post := [⟨1, 7, "a", "b", false, false⟩, ⟨2, 7, "c", "d", false, true⟩]

def sampleOps : List StoreOp :=
  [.savePosts samplePosts, .markAsRead { id := 1, title := "stale" }, .delete [{ id := 2 }, { id := 2 }],
    .setFavorite { id := 2 } true, .savePost { id := 2, read := true }]

theorem post_store_refines_map_sample :
    ∃ reached, run perform ⟨true, .empty⟩ sampleOps = .ok reached ∧
      reached.Represents (sampleOps.foldl PostMap.apply (PostStore.asMap ⟨true, .empty⟩)) := by
  have refines := post_store_refines_map ⟨true, .empty⟩ rfl sampleOps
  have accepted := refines.1.mp ⟨_, rfl⟩
  obtain ⟨reached, completed, represents, _⟩ := refines.2 accepted sampleOps [] (List.append_nil _).symm
  exact ⟨reached, completed, represents⟩

end PostStore

end ZemogaSocial
