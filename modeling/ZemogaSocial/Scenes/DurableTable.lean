import ZemogaSocial.Scenes.PostsReactions

namespace ZemogaSocial.PostsScene

/-- What a handler leaves on disk, whether it completes or aborts. -/
def tableAfter (scene : PostsScene) (event : Event) : Rows PostObject :=
  match scene.handle event with
  | .ok (next, _) => next.store.table
  | .error abort => abort.durable

/-- The list that the event brings to an outstanding call and that gets past the marking loop. -/
def accepted (scene : PostsScene) : Event → Option (List PostJSON)
  | .response ticket (some json) =>
    match scene.pending.awaiting ticket with
    | some _ => if 20 ≤ json.length then some json else none
    | none => none
  | _ => none

def Event.deletes : Event → Bool
  | .deletePost _ | .deleteAll => true
  | _ => false

/-- All that one handler can do to the stored rows. -/
inductive Written (scene : PostsScene) (event : Event) : List PostObject → Prop where
  | kept (quiet : scene.accepted event = none) : Written scene event scene.store.table.rows
  | saved {json : List PostJSON} {done rest : List Post} (sent : scene.accepted event = some json)
      (split : fetched json = done ++ rest)
      (fresh : ∀ post ∈ done, post.id ∉ scene.store.table.keys)
      (stop : ∀ post tail, rest = post :: tail →
        post.id ∈ scene.store.table.keys ∨ post.id ∈ done.map Post.id) :
      Written scene event (scene.store.table.rows ++ done.map Post.managedObject)
  | deleted (objects : List PostObject) (deletes : event.deletes = true) :
      Written scene event (scene.store.delete objects).1.table.rows
  | cleared (deletes : event.deletes = true) : Written scene event []
  | read {post : Post} (marks : event = .markAsRead post) :
      Written scene event (scene.store.markAsRead post.managedObject).table.rows
  | starred {post : Post} {isFavorite : Bool} (marks : event = .setFavorite post isFavorite) :
      Written scene event (scene.store.setFavorite post.managedObject isFavorite).table.rows

theorem accepted_eq_some {scene : PostsScene} {event : Event} {json : List PostJSON}
    (sent : scene.accepted event = some json) : ∃ ticket owner, event = .response ticket (some json) ∧
      scene.pending.awaiting ticket = some owner ∧ 20 ≤ json.length := by
  unfold accepted at sent
  split at sent
  · rename_i ticket list
    cases found : scene.pending.awaiting ticket with
    | none =>
      rw [found] at sent
      cases sent
    | some owner =>
      rw [found] at sent
      obtain ⟨long, same⟩ := Option.ite_none_right_eq_some.mp sent
      cases same
      exact ⟨ticket, owner, rfl, found, long⟩
  · cases sent

theorem accepted_response {scene : PostsScene} {ticket : Nat} {owner : Owner} {json : List PostJSON}
    (found : scene.pending.awaiting ticket = some owner) (long : 20 ≤ json.length) :
    scene.accepted (.response ticket (some json)) = some json := by
  simp only [accepted, found, long, if_true]

theorem accepted_short {scene : PostsScene} {ticket : Nat} {json : List PostJSON}
    (short : json.length < 20) : scene.accepted (.response ticket (some json)) = none := by
  have few : ¬ 20 ≤ json.length := by omega
  simp only [accepted, few, if_false]
  split <;> rfl

theorem accepted_stray {scene : PostsScene} {ticket : Nat} {reply : Option (List PostJSON)}
    (unknown : scene.pending.awaiting ticket = none) : scene.accepted (.response ticket reply) = none := by
  cases reply <;> simp only [accepted, unknown]

theorem saved_fresh {before after : Rows PostObject} {done : List Post}
    (rows : after.rows = before.rows ++ done.map Post.managedObject) :
    ∀ post ∈ done, post.id ∉ before.keys := by
  have distinct := after.distinct
  rw [rows, List.map_append, List.nodup_append] at distinct
  intro post member stored
  have saved : post.id ∈ (done.map Post.managedObject).map PostObject.id := by
    rw [List.map_map]
    exact List.mem_map_of_mem member
  exact distinct.2.2 post.id stored post.id saved rfl

theorem written_ok {scene next : PostsScene} {event : Event} {done : Completion}
    (ok : scene.handle event = .ok (next, done)) : Written scene event next.store.table.rows := by
  cases handle_reaction ok with
  | hit starts stored =>
    rw [complete_store]
    exact .kept (by cases event <;> first | rfl | cases starts)
  | miss starts empty => exact .kept (by cases event <;> first | rfl | cases starts)
  | timer ticket => exact .kept rfl
  | stray unknown => exact .kept (accepted_stray unknown)
  | failed found =>
    rw [complete_store]
    exact .kept rfl
  | delivered found long rows =>
    rw [complete_store, rows]
    apply Written.saved (accepted_response found long) (List.append_nil _).symm (saved_fresh rows)
    intro post tail same
    cases same
  | deleted ids => exact .deleted _ rfl
  | cleared => exact .cleared rfl
  | read post => exact .read rfl
  | starred post isFavorite => exact .starred rfl

theorem written_abort {scene : PostsScene} {event : Event} {abort : Abort (Rows PostObject)}
    (aborted : scene.handle event = .error abort) : Written scene event abort.durable.rows := by
  cases event with
  | response ticket reply =>
    rcases respond_abort aborted with
      ⟨owner, json, found, rfl, ⟨short, rfl⟩ | ⟨long, done, post, rest, split, _, rows, taken⟩⟩
    · exact .kept (accepted_short short)
    · rw [rows]
      apply Written.saved (accepted_response found long) split (saved_fresh rows)
      intro other tail same
      cases same
      rw [Keyed.Table.keys, rows, List.map_append, List.mem_append, List.map_map] at taken
      exact taken
  | deletePost offsets =>
    cases trapped : scene.deletePost offsets with
    | ok next =>
      rw [handle, trapped] at aborted
      cases aborted
    | error first =>
      obtain ⟨i, _, _, rfl⟩ := deletePost_abort trapped
      rw [handle, trapped] at aborted
      cases aborted
      exact .kept rfl
  | appear owner => cases aborted
  | reload => cases aborted
  | timer ticket => cases aborted
  | deleteAll => cases aborted
  | markAsRead post => cases aborted
  | setFavorite post isFavorite => cases aborted

theorem tableAfter_written (scene : PostsScene) (event : Event) :
    Written scene event (scene.tableAfter event).rows := by
  unfold tableAfter
  cases handled : scene.handle event with
  | ok result => exact written_ok handled
  | error abort => exact written_abort handled

theorem stored_before {scene : PostsScene} {event : Event} {id : Int64}
    (quiet : scene.accepted event = none) (stored : id ∈ (scene.tableAfter event).keys) :
    id ∈ scene.store.table.keys := by
  have written := tableAfter_written scene event
  rw [Keyed.Table.keys] at stored
  generalize (scene.tableAfter event).rows = rows at written stored
  cases written with
  | kept => exact stored
  | saved sent =>
    rw [quiet] at sent
    cases sent
  | deleted objects => exact (PostStore.delete_keys.mp stored).1
  | cleared => cases stored
  | read => exact PostStore.markAsRead_keys scene.store _ ▸ stored
  | starred => exact PostStore.setFavorite_keys scene.store _ _ ▸ stored

end ZemogaSocial.PostsScene
