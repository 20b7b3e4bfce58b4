import ZemogaSocial.Safety.PostLoads
import ZemogaSocial.Scenes.Lifetime
import ZemogaSocial.Transition.Until

namespace ZemogaSocial.PostsScene

open Transition

def LifeEvent.Serves (server : List PostJSON) : LifeEvent → Prop
  | .handled (.response _ (some json)) | .killedSaving _ json _ => json = server
  | _ => True

def firstIds (server : List PostJSON) : List Int64 := (server.take 20).map PostJSON.id

def UnreadFirst (server : List PostJSON) (rows : List PostObject) : Prop :=
  ∀ object ∈ rows, object.read = false → object.id ∈ firstIds server

/-- Posts are decoded as read, and the marking loop turns the first 20 only. -/
theorem fetched_unread {json : List PostJSON} {post : Post} (member : post ∈ fetched json)
    (unread : post.read = false) : post.id ∈ firstIds json := by
  obtain ⟨i, bound, same⟩ := List.mem_mapIdx.mp member
  rw [List.length_map] at bound
  rw [List.getElem_map] at same
  split at same
  · rename_i first
    apply List.mem_map.mpr
    refine ⟨json[i], List.mem_take_iff_getElem.mpr ⟨i, by omega, rfl⟩, ?_⟩
    rw [← same]
    rfl
  · rw [← same] at unread
    cases unread

theorem unreadFirst_saved {server : List PostJSON} {rows : List PostObject} {done rest : List Post}
    (before : UnreadFirst server rows) (split : fetched server = done ++ rest) :
    UnreadFirst server (rows ++ done.map Post.managedObject) := by
  intro object member unread
  rcases List.mem_append.mp member with old | new
  · exact before object old unread
  · obtain ⟨post, saved, same⟩ := List.mem_map.mp new
    rw [← same] at unread ⊢
    have listed : post ∈ fetched server := by
      rw [split]
      exact List.mem_append_left _ saved
    exact fetched_unread listed unread

theorem unreadFirst_delete {server : List PostJSON} {store : PostStore} (objects : List PostObject)
    (before : UnreadFirst server store.table.rows) :
    UnreadFirst server (store.delete objects).1.table.rows :=
  fun object member unread => before object (PostStore.mem_delete.mp member).1 unread

theorem unreadFirst_written {server : List PostJSON} {scene : PostsScene} {event : Event}
    {rows : List PostObject} (before : UnreadFirst server scene.store.table.rows)
    (serves : LifeEvent.Serves server (.handled event)) (written : Written scene event rows) :
    UnreadFirst server rows := by
  cases written with
  | kept => exact before
  | saved sent split =>
    obtain ⟨ticket, owner, rfl, _⟩ := accepted_eq_some sent
    have same : _ = server := serves
    subst same
    exact unreadFirst_saved before split
  | deleted objects => exact unreadFirst_delete objects before
  | cleared =>
    intro object member
    cases member
  | read =>
    intro object member unread
    obtain ⟨old, stored, rfl⟩ := PostStore.mem_markAsRead.mp member
    split at unread
    · cases unread
    · rename_i other
      rw [if_neg other]
      exact before old stored unread
  | starred =>
    intro object member unread
    obtain ⟨old, stored, rfl⟩ := PostStore.mem_setFavorite.mp member
    split at unread <;> rename_i same
    · rw [if_pos same]
      exact before old stored unread
    · rw [if_neg same]
      exact before old stored unread

theorem unreadFirst_live {server : List PostJSON} {scene : PostsScene} {event : LifeEvent}
    (before : UnreadFirst server scene.store.table.rows) (serves : event.Serves server) :
    UnreadFirst server (scene.live event).store.table.rows := by
  cases event with
  | handled event =>
    rw [live_handled]
    exact unreadFirst_written before serves (tableAfter_written scene event)
  | deleted posts => exact unreadFirst_delete _ before
  | killed => exact before
  | killedSaving ticket json commits =>
    obtain ⟨done, rest, split, rows⟩ := tableKilled_rows scene ticket json commits
    have same : json = server := serves
    subst same
    show UnreadFirst json (scene.tableKilled ticket json commits).rows
    rw [rows]
    exact unreadFirst_saved before split

theorem unreadFirst_run {server : List PostJSON} {scene : PostsScene} {events : List LifeEvent}
    (initial : UnreadFirst server scene.store.table.rows) (serves : ∀ event ∈ events, event.Serves server) :
    UnreadFirst server (events.foldl live scene).store.table.rows := by
  apply List.foldlRecOn (motive := fun state => UnreadFirst server state.store.table.rows) events live initial
  intro state before event member
  exact unreadFirst_live before (serves event member)

theorem unread_length {server : List PostJSON} {table : Rows PostObject}
    (unread : UnreadFirst server table.rows) :
    (table.rows.filter fun object => !object.read).length ≤ 20 := by
  have distinct : ((table.rows.filter fun object => !object.read).map PostObject.id).Nodup :=
    table.distinct.sublist (List.filter_sublist.map _)
  have listed : (table.rows.filter fun object => !object.read).map PostObject.id ⊆ firstIds server := by
    intro id member
    obtain ⟨object, chosen, same⟩ := List.mem_map.mp member
    obtain ⟨stored, mark⟩ := List.mem_filter.mp chosen
    rw [← same]
    exact unread object stored (by simpa using mark)
  have bound := distinct.length_le_of_subset listed
  rw [List.length_map, firstIds, List.length_map, List.length_take] at bound
  omega

def ReadIn (rows : List PostObject) (id : Int64) : Prop :=
  ∃ object ∈ rows, object.id = id ∧ object.read = true

theorem readIn_delete {store : PostStore} {objects : List PostObject} {id : Int64}
    (read : ReadIn store.table.rows id) :
    ReadIn (store.delete objects).1.table.rows id ∨ id ∉ (store.delete objects).1.table.keys := by
  obtain ⟨object, stored, rfl, mark⟩ := read
  by_cases kept : ∀ post ∈ objects, object.id ≠ post.id
  · exact .inl ⟨object, PostStore.mem_delete.mpr ⟨stored, kept⟩, rfl, mark⟩
  · exact .inr fun left => kept (PostStore.delete_keys.mp left).2

theorem readIn_written {scene : PostsScene} {event : Event} {rows : List PostObject} {id : Int64}
    (read : ReadIn scene.store.table.rows id) (written : Written scene event rows) :
    ReadIn rows id ∨ event.deletes = true ∧ id ∉ rows.map PostObject.id := by
  cases written with
  | kept => exact .inl read
  | saved =>
    obtain ⟨object, stored, rest⟩ := read
    exact .inl ⟨object, List.mem_append_left _ stored, rest⟩
  | deleted objects deletes => exact (readIn_delete read).imp_right fun gone => ⟨deletes, gone⟩
  | cleared deletes => exact .inr ⟨deletes, List.not_mem_nil⟩
  | read =>
    obtain ⟨object, stored, same, mark⟩ := read
    refine .inl ⟨_, PostStore.mem_markAsRead.mpr ⟨object, stored, rfl⟩, ?_⟩
    split
    · exact ⟨same, rfl⟩
    · exact ⟨same, mark⟩
  | starred =>
    obtain ⟨object, stored, same, mark⟩ := read
    refine .inl ⟨_, PostStore.mem_setFavorite.mpr ⟨object, stored, rfl⟩, ?_⟩
    split
    · exact ⟨same, mark⟩
    · exact ⟨same, mark⟩

theorem readIn_live {scene : PostsScene} (event : LifeEvent) {id : Int64}
    (read : ReadIn scene.store.table.rows id) :
    ReadIn (scene.live event).store.table.rows id ∨
      event.deletes = true ∧ id ∉ (scene.live event).store.table.keys := by
  cases event with
  | handled event =>
    rw [live_handled]
    exact readIn_written read (tableAfter_written scene event)
  | deleted posts => exact (readIn_delete read).imp_right fun gone => ⟨rfl, gone⟩
  | killed => exact .inl read
  | killedSaving ticket json commits =>
    obtain ⟨done, rest, _, rows⟩ := tableKilled_rows scene ticket json commits
    obtain ⟨object, stored, marked⟩ := read
    refine .inl ⟨object, ?_, marked⟩
    show object ∈ (scene.tableKilled ticket json commits).rows
    rw [rows]
    exact List.mem_append_left _ stored

def StoredRead (id : Int64) (scene : PostsScene) : Prop := ReadIn scene.store.table.rows id

/-- A deletion takes the id out of the table. -/
def Removes (id : Int64) (scene : PostsScene) (event : LifeEvent) : Prop :=
  event.deletes = true ∧ id ∉ (scene.live event).store.table.keys

/-- In the life of an installation that starts empty, the unread posts are among the first 20 of the
    server's list, and a post once read is read until it is deleted. -/
theorem unread_first_and_read_kept (server : List PostJSON) (scene : PostsScene)
    (empty : scene.store.table.rows = []) (events later : List LifeEvent)
    (serves : ∀ event ∈ events, event.Serves server) :
    (∀ object ∈ (events.foldl live scene).store.table.rows, object.read = false →
      object.id ∈ (server.take 20).map PostJSON.id) ∧
    ((events.foldl live scene).store.table.rows.filter fun object => !object.read).length ≤ 20 ∧
    ∀ object ∈ (events.foldl live scene).store.table.rows, object.read = true →
      StoredRead object.id (later.foldl live (events.foldl live scene)) ∨
      EndedAlong live (StoredRead object.id) (Removes object.id)
        (events.foldl live scene) later := by
  have initial : UnreadFirst server scene.store.table.rows := by
    rw [empty]
    intro object member
    cases member
  have unread := unreadFirst_run initial serves
  refine ⟨unread, unread_length unread, ?_⟩
  intro object stored mark
  apply holds_until (StoredRead object.id) later
  · intro state event read
    exact readIn_live event read
  · exact ⟨object, stored, rfl, mark⟩

def interrupted : List LifeEvent :=
  [.handled (.appear .postsView), .handled (.timer 0), .killedSaving 0 sampleServer 3,
    .handled (.appear .postsView), .handled (.markAsRead ⟨1, 1, "", "", false, false⟩)]

theorem unread_first_and_read_kept_interrupted :
    ((interrupted.foldl live (launch .empty)).store.table.rows.filter fun object => !object.read).length ≤ 20 ∧
    ∀ object ∈ (interrupted.foldl live (launch .empty)).store.table.rows, object.read = true →
      StoredRead object.id ([.killed, .deleted []].foldl live (interrupted.foldl live (launch .empty))) ∨
      EndedAlong live (StoredRead object.id) (Removes object.id)
        (interrupted.foldl live (launch .empty)) [.killed, .deleted []] := by
  have serves : ∀ event ∈ interrupted, event.Serves sampleServer := by
    simp [interrupted, LifeEvent.Serves]
  have both := unread_first_and_read_kept sampleServer (launch .empty) rfl interrupted
    [.killed, .deleted []] serves
  exact both.2

end ZemogaSocial.PostsScene
