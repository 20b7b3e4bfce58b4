import ZemogaSocial.Safety.ShownRows
import ZemogaSocial.Scenes.DurableTable

namespace ZemogaSocial.PostsScene

open Transition

def targets (scene : PostsScene) : Event → List Int64
  | .deletePost offsets =>
    offsets.indices.filterMap fun i => scene.postsView.shown[i]?.map Post.id
  | .deleteAll => scene.store.table.keys
  | _ => []

/-- The handler brings none of these ids back: not to the table, which also an abort leaves behind,
    nor to `PostsView`, nor to `FavoritesView` if it completes a load of that view. -/
structure KeepsDeleted (ids : List Int64) (scene : PostsScene) (event : Event) : Prop where
  stored : ∀ id ∈ ids, id ∉ (scene.tableAfter event).keys
  shown : ∀ next done, scene.handle event = .ok (next, done) →
    ∀ id ∈ ids, id ∉ next.postsView.shown.map Post.id
  favorites : ∀ next posts, scene.handle event = .ok (next, some (.favoritesView, some posts)) →
    ∀ id ∈ ids, id ∉ next.favoritesView.shown.map Post.id

structure Missing (ids : List Int64) (scene : PostsScene) : Prop where
  absent : ∀ id ∈ ids, id ∉ scene.store.table.keys
  backed : Backed scene.postsView.shown scene.store.table.rows

/-- A list that arrives for an outstanding call belongs to one of the first `issued` calls. -/
def ListsOfEarlier (issued : Nat) (scene : PostsScene) : Event → Prop
  | .response ticket (some _) => scene.pending.awaiting ticket ≠ none → ticket < issued
  | _ => True

/-- When such a list arrives, each of these ids that it holds comes after an id that is stored. -/
def Shielded (issued : Nat) (ids : List Int64) (scene : PostsScene) : Event → Prop
  | .response ticket (some json) => ticket < issued → scene.pending.awaiting ticket ≠ none →
    ∀ id ∈ (json.map PostJSON.id).takeWhile fun id => decide (id ∉ scene.store.table.keys), id ∉ ids
  | _ => True

theorem accepted_keys {scene : PostsScene} {event : Event} {json : List PostJSON}
    (sent : scene.accepted event = some json) (distinct : (json.map PostJSON.id).Nodup) :
    (scene.tableAfter event).keys = scene.store.table.keys ++
      (json.map PostJSON.id).takeWhile fun id => decide (id ∉ scene.store.table.keys) := by
  obtain ⟨ticket, owner, rfl, _, _⟩ := accepted_eq_some sent
  have written := tableAfter_written scene (.response ticket (some json))
  rw [Keyed.Table.keys]
  generalize (scene.tableAfter (.response ticket (some json))).rows = rows at written
  cases written with
  | kept quiet =>
    rw [quiet] at sent
    cases sent
  | saved also split fresh stop =>
    rename_i list done rest
    rw [sent] at also
    cases also
    have ids : json.map PostJSON.id = done.map Post.id ++ rest.map Post.id := by
      rw [← fetched_ids, split, List.map_append]
    have front : ∀ id ∈ done.map Post.id, decide (id ∉ scene.store.table.keys) = true := by
      intro id member
      obtain ⟨post, saved, same⟩ := List.mem_map.mp member
      rw [← same]
      exact decide_eq_true (fresh post saved)
    have back : (rest.map Post.id).takeWhile (fun id => decide (id ∉ scene.store.table.keys)) = [] := by
      cases rest with
      | nil => rfl
      | cons post tail =>
        rw [ids, List.nodup_append] at distinct
        rcases stop post tail rfl with stored | repeated
        · rw [List.map_cons]
          exact List.takeWhile_cons_of_neg (by simpa using stored)
        · exact absurd rfl (distinct.2.2 post.id repeated post.id List.mem_cons_self)
    rw [ids, List.takeWhile_append_of_pos front, back, List.append_nil, List.map_append, List.map_map]
    rfl
  | deleted objects deletes => cases deletes
  | cleared deletes => cases deletes
  | read marks => cases marks
  | starred marks => cases marks

theorem tableAfter_ok {scene next : PostsScene} {event : Event} {done : Completion}
    (ok : scene.handle event = .ok (next, done)) : scene.tableAfter event = next.store.table := by
  simp only [tableAfter, ok]

theorem favorites_stored {scene next : PostsScene} {event : Event} {posts : List Post}
    (ok : scene.handle event = .ok (next, some (.favoritesView, some posts))) {id : Int64}
    (shown : id ∈ next.favoritesView.shown.map Post.id) : id ∈ next.store.table.keys := by
  have kept : ∀ list : List Post, ((FavoritesView.filterFavorites list).map Post.id).Sublist
      (list.map Post.id) := fun list => List.filter_sublist.map Post.id
  cases handle_reaction ok with
  | hit starts stored =>
    have listed := (kept scene.storedPosts).subset shown
    rw [storedPosts, List.map_map] at listed
    exact listed
  | delivered found long rows =>
    have listed := (kept (fetched _)).subset shown
    rw [complete_store, Keyed.Table.keys, rows, List.map_append, List.map_map]
    exact List.mem_append_right _ listed

theorem shown_stored {shown : List Post} {table : Rows PostObject} (backed : Backed shown table.rows)
    {id : Int64} (member : id ∈ shown.map Post.id) : id ∈ table.keys := by
  obtain ⟨post, listed, rfl⟩ := List.mem_map.mp member
  obtain ⟨object, stored, backs⟩ := backed.row post listed
  exact Keyed.Table.mem_keys.mpr ⟨object, stored, backs.id⟩

theorem keepsDeleted_iff {ids : List Int64} {scene : PostsScene} {event : Event}
    (backed : Backed scene.postsView.shown scene.store.table.rows) :
    scene.KeepsDeleted ids event ↔ ∀ id ∈ ids, id ∉ (scene.tableAfter event).keys := by
  apply Iff.intro KeepsDeleted.stored
  intro stored
  apply KeepsDeleted.mk stored
  · intro next done ok id member shown
    have absent := stored id member
    rw [tableAfter_ok ok] at absent
    exact absent (shown_stored (backed_preserved backed ok) shown)
  · intro next posts ok id member shown
    have absent := stored id member
    rw [tableAfter_ok ok] at absent
    exact absent (favorites_stored ok shown)

theorem keepsDeleted_iff_shielded {server : List PostJSON} {issued : Nat} {ids : List Int64}
    {scene : PostsScene} {event : Event} (long : 20 ≤ server.length)
    (distinct : (server.map PostJSON.id).Nodup) (missing : Missing ids scene)
    (serves : Serves server event) (earlier : scene.ListsOfEarlier issued event) :
    scene.KeepsDeleted ids event ↔ scene.Shielded issued ids event := by
  rw [keepsDeleted_iff missing.backed]
  cases sent : scene.accepted event with
  | none =>
    have stored : ∀ id ∈ ids, id ∉ (scene.tableAfter event).keys :=
      fun id member after => missing.absent id member (stored_before sent after)
    apply iff_of_true stored
    cases event with
    | response ticket reply =>
      cases reply with
      | none => exact True.intro
      | some json =>
        intro _ waiting
        obtain ⟨owner, found⟩ := Option.ne_none_iff_exists'.mp waiting
        have same : json = server := serves
        rw [accepted_response found (same ▸ long)] at sent
        cases sent
    | _ => exact True.intro
  | some json =>
    obtain ⟨ticket, owner, rfl, found, _⟩ := accepted_eq_some sent
    have same : json = server := serves
    have waiting : scene.pending.awaiting ticket ≠ none := by simp [found]
    have old : ticket < issued := earlier waiting
    have shielded : scene.Shielded issued ids (.response ticket (some json)) ↔
        ∀ id ∈ (json.map PostJSON.id).takeWhile fun id => decide (id ∉ scene.store.table.keys),
          id ∉ ids := by
      simp only [Shielded, old, waiting, ne_eq, not_false_eq_true, true_implies]
    rw [accepted_keys sent (same ▸ distinct), shielded]
    apply Iff.intro
    · intro stored id front member
      exact stored id member (List.mem_append_right _ front)
    · intro stored id member after
      rcases List.mem_append.mp after with before | front
      · exact missing.absent id member before
      · exact stored id front member

theorem targets_absent {before after : PostsScene} {event : Event} {done : Completion} {id : Int64}
    (handled : before.handle event = .ok (after, done)) (target : id ∈ before.targets event) :
    id ∉ after.store.table.keys := by
  cases handle_reaction handled with
  | deleted ids =>
    obtain ⟨i, inside, here⟩ := List.mem_filterMap.mp target
    obtain ⟨post, shown, rfl⟩ := Option.map_eq_some_iff.mp here
    intro stored
    have kept := (PostStore.delete_keys.mp stored).2
    exact kept post.managedObject ((ids _).mpr ⟨i, inside, post, shown, rfl⟩) rfl
  | cleared => exact List.not_mem_nil
  | hit starts => cases event <;> cases starts <;> cases target
  | miss starts => cases event <;> cases starts <;> cases target
  | _ => cases target

/-- After a deletion, and until a list of a later call arrives, no handler brings a deleted post back
    exactly when the lists of older calls that arrive run into a stored post before a deleted one. -/
theorem deleted_posts_stay_deleted_iff (server : List PostJSON) (long : 20 ≤ server.length)
    (distinct : (server.map PostJSON.id).Nodup) (scene : PostsScene) (unshown : scene.postsView.shown = [])
    (front : List Event) (before : PostsScene) (reached : run handle scene front = .ok before)
    (deletion : Event) (after : PostsScene) (done : Completion)
    (deleted : before.handle deletion = .ok (after, done)) (later : List Event)
    (serves : ∀ event ∈ later, Serves server event)
    (earlier : Along handle (ListsOfEarlier after.pending.issued) after later) :
    (∀ id ∈ before.targets deletion, id ∉ after.store.table.keys ∧
      id ∉ after.postsView.shown.map Post.id) ∧
    (Along handle (KeepsDeleted (before.targets deletion)) after later ↔
      Along handle (Shielded after.pending.issued (before.targets deletion)) after later) := by
  have missing : Missing (before.targets deletion) after := by
    apply Missing.mk
    · exact fun id target => targets_absent deleted target
    · exact backed_preserved (backed_run unshown reached) deleted
  have permitted := (along_of_forall serves after).both earlier
  apply And.intro
  · intro id target
    have absent := missing.absent id target
    exact ⟨absent, fun shown => absent (shown_stored missing.backed shown)⟩
  · apply along_iff_of_invariant _ _ missing permitted
    · intro state event next out kept _ keeps ok
      have stored := keeps.stored
      rw [tableAfter_ok ok] at stored
      exact ⟨stored, backed_preserved kept.backed ok⟩
    · intro state event kept permitted
      rcases permitted with ⟨serves, earlier⟩
      exact keepsDeleted_iff_shielded long distinct kept serves earlier

instance (issued : Nat) (scene : PostsScene) : ∀ event, Decidable (scene.ListsOfEarlier issued event)
  | .response ticket (some _) =>
    inferInstanceAs (Decidable (scene.pending.awaiting ticket ≠ none → ticket < issued))
  | .response _ none | .appear _ | .reload | .timer _ | .deletePost _ | .deleteAll | .markAsRead _
  | .setFavorite _ _ => inferInstanceAs (Decidable True)

instance (issued : Nat) (ids : List Int64) (scene : PostsScene) :
    ∀ event, Decidable (scene.Shielded issued ids event)
  | .response ticket (some json) =>
    -- the bounded instance is named because the keys also form a finite type, of 2^64 values
    have : Decidable (∀ id ∈ (json.map PostJSON.id).takeWhile fun id =>
        decide (id ∉ scene.store.table.keys), id ∉ ids) := List.decidableBAll _ _
    inferInstanceAs (Decidable (ticket < issued → scene.pending.awaiting ticket ≠ none → _))
  | .response _ none | .appear _ | .reload | .timer _ | .deletePost _ | .deleteAll | .markAsRead _
  | .setFavorite _ _ => inferInstanceAs (Decidable True)

def filledFirst : List Event :=
  [.appear .postsView, .appear .favoritesView, .timer 0, .timer 1, .response 0 (some sampleServer)]

/-- Row 1 is deleted; the older list that then arrives raises on row 0 before it gets there. -/
theorem deleted_posts_stay_deleted_behind_row :
    ∃ before after, run handle (launch .empty) filledFirst = .ok before ∧
      before.handle (.deletePost ⟨[1], by decide⟩) = .ok (after, none) ∧
      before.targets (.deletePost ⟨[1], by decide⟩) = [1] ∧
      Along handle (KeepsDeleted [1]) after [.appear .favoritesView, .response 1 (some sampleServer)] := by
  refine ⟨_, _, rfl, rfl, rfl, ?_⟩
  refine (deleted_posts_stay_deleted_iff sampleServer sampleServer_long sampleServer_distinct
    (launch .empty) rfl filledFirst _ rfl (.deletePost ⟨[1], by decide⟩) _ none rfl _ ?_ ?_).2.mpr ?_
  · simp [Serves]
  · decide +kernel
  · decide +kernel

/-- Everything is deleted, and the older list that then arrives stores all of it again. -/
theorem deleted_posts_return :
    ∃ before after next, run handle (launch .empty) filledFirst = .ok before ∧
      before.handle .deleteAll = .ok (after, none) ∧ 1 < after.pending.issued ∧
      after.handle (.response 1 (some sampleServer)) =
        .ok (next, some (.favoritesView, some (fetched sampleServer))) ∧
      ∀ post ∈ sampleServer, post.id ∈ before.targets .deleteAll ∧ post.id ∈ next.store.table.keys :=
  ⟨_, _, _, rfl, rfl, by decide, rfl, by decide +kernel⟩

end ZemogaSocial.PostsScene
