import ZemogaSocial.Refinement.CommitLog
import ZemogaSocial.Safety.PostLoads
import ZemogaSocial.Transition.Since

namespace ZemogaSocial

open Transition

namespace PostMap

def Has (id : Int64) (mark : PostFields → Prop) (map : PostMap) : Prop :=
  ∃ fields, map.lookup id = some fields ∧ mark fields

variable {id other : Int64} {mark : PostFields → Prop} {map : PostMap}

theorem has_any : Has id (fun _ => True) map ↔ id ∈ map := by
  simp [Has, Finmap.mem_iff]

theorem Has.stored (has : Has id mark map) : id ∈ map :=
  Finmap.mem_iff.mpr ⟨_, has.choose_spec.1⟩

theorem has_save (post : PostObject) : Has id mark (map.commit (.save post)) ↔
    (post.id = id ∧ mark post.fields) ∨ (Has id mark map ∧ post.id ≠ id) := by
  unfold Has commit
  by_cases same : post.id = id
  · subst same
    simp
  · rw [Finmap.lookup_insert_of_ne _ (Ne.symm same)]
    simp [same]

theorem has_adjust (change : PostFields → PostFields) : Has id mark (Keyed.adjust other change map) ↔
    (other = id ∧ Has id (fun fields => mark (change fields)) map) ∨ (Has id mark map ∧ other ≠ id) := by
  unfold Has
  rw [Keyed.lookup_adjust]
  by_cases same : id = other
  · subst same
    simp
  · simp [same, Ne.symm same]

theorem has_delete : Has id mark (map.commit (.delete other)) ↔ Has id mark map ∧ other ≠ id := by
  unfold Has commit
  by_cases same : other = id
  · subst same
    simp
  · rw [Finmap.lookup_erase_ne (Ne.symm same)]
    simp [same]

theorem has_deleteAll : ¬ Has id mark (map.commit .deleteAll) := by
  simp [Has, commit]

end PostMap

namespace Commit

section Effects

variable (id : Int64)

/-- The post is saved as such an object. -/
def Saves (object : PostObject → Prop) (_ : PostMap) : Commit → Prop
  | .save post => post.id = id ∧ object post
  | _ => False

def Removes (_ : PostMap) : Commit → Prop
  | .delete other => other = id
  | .deleteAll => True
  | _ => False

/-- The post is saved anew or removed. -/
def Replaces (_ : PostMap) : Commit → Prop
  | .save post => post.id = id
  | .delete other => other = id
  | .deleteAll => True
  | _ => False

def Reads (map : PostMap) : Commit → Prop
  | .save post => post.id = id ∧ post.read = true
  | .markAsRead other => other = id ∧ id ∈ map
  | _ => False

def Stars (map : PostMap) : Commit → Prop
  | .save post => post.id = id ∧ post.isFavorite = true
  | .setFavorite other isFavorite => other = id ∧ isFavorite = true ∧ id ∈ map
  | _ => False

def Unstars (_ : PostMap) : Commit → Prop
  | .save post => post.id = id
  | .setFavorite other isFavorite => other = id ∧ isFavorite = false
  | .delete other => other = id
  | .deleteAll => True
  | .markAsRead _ => False

end Effects

variable {id : Int64} {map : PostMap}

theorem stored_commit (map : PostMap) (commit : Commit) :
    PostMap.Has id (fun _ => True) (map.commit commit) ↔ commit.Saves id (fun _ => True) map ∨
      (PostMap.Has id (fun _ => True) map ∧ ¬ commit.Removes id map) := by
  cases commit with
  | save post =>
    rw [PostMap.has_save]
    simp only [Saves, Removes]
    tauto
  | markAsRead other =>
    rw [PostMap.commit, PostMap.has_adjust]
    simp only [Saves, Removes]
    tauto
  | setFavorite other isFavorite =>
    rw [PostMap.commit, PostMap.has_adjust]
    simp only [Saves, Removes]
    tauto
  | delete other =>
    rw [PostMap.has_delete]
    simp only [Saves, Removes]
    tauto
  | deleteAll => simp [Saves, Removes, PostMap.has_deleteAll]

/-- Neither mark changes what a mark does not change. -/
theorem text_commit (text : PostFields → Prop) (read : ∀ fields, text { fields with read := true } ↔ text fields)
    (star : ∀ fields isFavorite, text { fields with isFavorite } ↔ text fields) (map : PostMap)
    (commit : Commit) : PostMap.Has id text (map.commit commit) ↔
      commit.Saves id (fun post => text post.fields) map ∨
        (PostMap.Has id text map ∧ ¬ commit.Replaces id map) := by
  cases commit with
  | save post => exact PostMap.has_save post
  | markAsRead other =>
    rw [PostMap.commit, PostMap.has_adjust]
    simp only [Saves, Replaces, read]
    tauto
  | setFavorite other isFavorite =>
    rw [PostMap.commit, PostMap.has_adjust]
    simp only [Saves, Replaces, star]
    tauto
  | delete other =>
    rw [PostMap.has_delete]
    simp only [Saves, Replaces]
    tauto
  | deleteAll => simp [Saves, Replaces, PostMap.has_deleteAll]

theorem read_commit (map : PostMap) (commit : Commit) :
    PostMap.Has id (fun fields => fields.read = true) (map.commit commit) ↔ commit.Reads id map ∨
      (PostMap.Has id (fun fields => fields.read = true) map ∧ ¬ commit.Replaces id map) := by
  cases commit with
  | save post => exact PostMap.has_save post
  | markAsRead other =>
    have stored : PostMap.Has id (fun fields => fields.read = true) map → id ∈ map := PostMap.Has.stored
    rw [PostMap.commit, PostMap.has_adjust]
    simp only [Reads, Replaces, PostMap.has_any]
    tauto
  | setFavorite other isFavorite =>
    rw [PostMap.commit, PostMap.has_adjust]
    simp only [Reads, Replaces]
    tauto
  | delete other =>
    rw [PostMap.has_delete]
    simp only [Reads, Replaces]
    tauto
  | deleteAll => simp [Reads, Replaces, PostMap.has_deleteAll]

theorem star_commit (map : PostMap) (commit : Commit) :
    PostMap.Has id (fun fields => fields.isFavorite = true) (map.commit commit) ↔ commit.Stars id map ∨
      (PostMap.Has id (fun fields => fields.isFavorite = true) map ∧ ¬ commit.Unstars id map) := by
  cases commit with
  | save post => exact PostMap.has_save post
  | markAsRead other =>
    rw [PostMap.commit, PostMap.has_adjust]
    simp only [Stars, Unstars]
    tauto
  | setFavorite other isFavorite =>
    have stored : PostMap.Has id (fun fields => fields.isFavorite = true) map → id ∈ map := PostMap.Has.stored
    rw [PostMap.commit, PostMap.has_adjust]
    cases isFavorite with
    | true =>
      simp only [Stars, Unstars, PostMap.has_any]
      tauto
    | false =>
      have absent : ¬ PostMap.Has id (fun _ => false = true) map := by simp [PostMap.Has]
      simp only [Stars, Unstars]
      tauto
  | delete other =>
    rw [PostMap.has_delete]
    simp only [Stars, Unstars]
    tauto
  | deleteAll => simp [Stars, Unstars, PostMap.has_deleteAll]

end Commit

namespace PostsScene

/-- The life has written it and no later commit of it has unwritten it, or it is older and was not
    unwritten at all. -/
def WrittenSince (scene : PostsScene) (events : List LifeEvent) (writes unwrites : PostMap → Commit → Prop)
    (before : Prop) : Prop :=
  Since PostMap.commit writes unwrites scene.contents (scene.log events) ∨
    (before ∧ Unbroken PostMap.commit unwrites scene.contents (scene.log events))

def Stored (scene : PostsScene) (id : Int64) (object : PostObject → Prop) : Prop :=
  ∃ stored ∈ scene.store.table.rows, stored.id = id ∧ object stored

theorem stored_iff_has (scene : PostsScene) (id : Int64) (mark : PostFields → Prop) :
    scene.Stored id (fun object => mark object.fields) ↔ PostMap.Has id mark scene.contents := by
  unfold Stored PostMap.Has
  apply Iff.intro
  · intro stored
    rcases stored with ⟨object, member, same, marked⟩
    exact ⟨object.fields, Keyed.Table.lookup_contents.mpr ⟨object, member, same, rfl⟩, marked⟩
  · intro has
    rcases has with ⟨fields, found, marked⟩
    obtain ⟨object, member, same, rfl⟩ := Keyed.Table.lookup_contents.mp found
    exact ⟨object, member, same, marked⟩

theorem stored_since {id : Int64} {mark : PostFields → Prop} {writes unwrites : PostMap → Commit → Prop}
    (law : ∀ map commit, PostMap.Has id mark (map.commit commit) ↔
      writes map commit ∨ (PostMap.Has id mark map ∧ ¬ unwrites map commit))
    (scene : PostsScene) (events : List LifeEvent) :
    (events.foldl live scene).Stored id (fun object => mark object.fields) ↔
      scene.WrittenSince events writes unwrites (scene.Stored id fun object => mark object.fields) := by
  rw [stored_iff_has, (log_replayed scene events).1, holds_iff_since law, WrittenSince, stored_iff_has]

theorem fetched_unstarred {json : List PostJSON} {post : Post} (member : post ∈ fetched json) :
    post.isFavorite = false := by
  obtain ⟨i, bound, same⟩ := List.mem_mapIdx.mp member
  rw [List.getElem_map] at same
  split at same <;> rw [← same] <;> rfl

theorem marked_unstarred {json : List PostJSON} {networkPosts : List Post}
    (marked : DataRequest.markFirst (json.map Post.decode) = .ok networkPosts) :
    ∀ post ∈ networkPosts, post.isFavorite = false := by
  by_cases long : 20 ≤ (json.map Post.decode).length
  · rw [DataRequest.markFirst_long long] at marked
    cases marked
    exact fun post member => fetched_unstarred member
  · rw [DataRequest.markFirst_short (by omega)] at marked
    cases marked

theorem executedSaves_mem {store : PostStore} {posts : List Post} {executed : PostStore × PostObject}
    (member : executed ∈ store.executedSaves posts) : ∃ post ∈ posts, executed.2 = post.managedObject := by
  induction posts generalizing store with
  | nil => cases member
  | cons post rest ih =>
    rcases List.mem_cons.mp member with rfl | later
    · exact ⟨post, List.mem_cons_self, rfl⟩
    · split at later
      · obtain ⟨other, listed, same⟩ := ih later
        exact ⟨other, List.mem_cons_of_mem _ listed, same⟩
      · obtain ⟨other, listed, same⟩ := ih later
        exact ⟨other, List.mem_cons_of_mem _ listed, same⟩
      · cases later

theorem response_unstarred {scene : PostsScene} {ticket : Nat} {json : List PostJSON} {object : PostObject}
    (saved : .save object ∈ scene.commits (.handled (.response ticket (some json)))) :
    object.isFavorite = false := by
  rw [commits] at saved
  split at saved
  · rename_i networkPosts _ marked
    obtain ⟨object, committed, same⟩ := List.mem_map.mp saved
    cases same
    obtain ⟨executed, kept, rfl⟩ := List.mem_map.mp committed
    obtain ⟨post, listed, same⟩ := executedSaves_mem (List.mem_of_mem_filter kept)
    rw [same]
    exact marked_unstarred marked post listed
  · cases saved

theorem killedSaving_unstarred {scene : PostsScene} {ticket n : Nat} {json : List PostJSON} {object : PostObject}
    (saved : .save object ∈ scene.commits (.killedSaving ticket json n)) : object.isFavorite = false := by
  rw [commits] at saved
  split at saved
  · rename_i networkPosts _ marked
    split at saved
    · obtain ⟨post, taken, same⟩ := List.mem_map.mp saved
      cases same
      exact marked_unstarred marked post (List.mem_of_mem_take taken)
    · cases saved
  · cases saved

theorem save_not_deletes {α : Type*} {ids : α → Int64} {posts : List α} {object : PostObject} :
    .save object ∉ posts.map fun post => Commit.delete (ids post) := by
  intro saved
  obtain ⟨post, _, same⟩ := List.mem_map.mp saved
  cases same

theorem commits_unstarred {scene : PostsScene} {event : LifeEvent} {object : PostObject}
    (saved : .save object ∈ scene.commits event) : object.isFavorite = false := by
  cases event with
  | handled event =>
    cases event with
    | response ticket reply =>
      cases reply with
      | some json => exact response_unstarred saved
      | none => cases saved
    | deletePost offsets =>
      rw [commits] at saved
      split at saved
      · exact absurd saved save_not_deletes
      · cases saved
    | deleteAll => simp [commits] at saved
    | markAsRead post => simp [commits] at saved
    | setFavorite post isFavorite => simp [commits] at saved
    | appear owner => cases saved
    | reload => cases saved
    | timer ticket => cases saved
  | deleted posts => exact absurd saved save_not_deletes
  | killed => cases saved
  | killedSaving ticket json n => exact killedSaving_unstarred saved

theorem log_unstarred {scene : PostsScene} {events : List LifeEvent} {object : PostObject}
    (saved : .save object ∈ scene.log events) : object.isFavorite = false := by
  induction events generalizing scene with
  | nil => cases saved
  | cons event rest ih =>
    rcases List.mem_append.mp saved with now | later
    · exact commits_unstarred now
    · exact ih later

/-- What the log of a life tells of the row of one post. -/
structure RowHistory (scene : PostsScene) (events : List LifeEvent) (id : Int64) : Prop where
  stored : (events.foldl live scene).Stored id (fun _ => True) ↔
    scene.WrittenSince events (Commit.Saves id fun _ => True) (Commit.Removes id)
      (scene.Stored id fun _ => True)
  text : ∀ userID title body, (events.foldl live scene).Stored id (fun object =>
      object.userID = userID ∧ object.title = title ∧ object.body = body) ↔
    scene.WrittenSince events
      (Commit.Saves id fun object => object.userID = userID ∧ object.title = title ∧ object.body = body)
      (Commit.Replaces id)
      (scene.Stored id fun object => object.userID = userID ∧ object.title = title ∧ object.body = body)
  read : (events.foldl live scene).Stored id (fun object => object.read = true) ↔
    scene.WrittenSince events (Commit.Reads id) (Commit.Replaces id)
      (scene.Stored id fun object => object.read = true)
  starred : (events.foldl live scene).Stored id (fun object => object.isFavorite = true) ↔
    scene.WrittenSince events (Commit.Stars id) (Commit.Unstars id)
      (scene.Stored id fun object => object.isFavorite = true)
  unstarred : ∀ object, .save object ∈ scene.log events → object.isFavorite = false

/-- Whatever happens to the process, a post is stored, has its text, is read and is starred exactly
    by the last commit that concerns this, and no save has ever starred a post. -/
theorem post_rows_since (scene : PostsScene) (events : List LifeEvent) (id : Int64) :
    RowHistory scene events id where
  stored := stored_since Commit.stored_commit scene events
  text userID title body := stored_since (Commit.text_commit
    (fun fields => fields.userID = userID ∧ fields.title = title ∧ fields.body = body)
    (fun _ => .rfl) (fun _ _ => .rfl)) scene events
  read := stored_since Commit.read_commit scene events
  starred := stored_since Commit.star_commit scene events
  unstarred _ saved := log_unstarred saved

end PostsScene

end ZemogaSocial
