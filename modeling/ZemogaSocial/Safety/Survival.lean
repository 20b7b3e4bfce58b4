import ZemogaSocial.Safety.DetailLoads
import ZemogaSocial.Safety.PostLoads
import ZemogaSocial.Scenes.HomeScene

namespace ZemogaSocial

open Transition

namespace PostsView

theorem postsAt_bound {posts : List Post} {indices : List Nat} {objects : List PostObject}
    (ok : postsAt posts indices = .ok objects) : ∀ i ∈ indices, i < posts.length := by
  induction indices generalizing objects with
  | nil => simp
  | cons i rest ih =>
    rw [postsAt] at ok
    cases here : posts[i]? with
    | none =>
      rw [here] at ok
      cases ok
    | some post =>
      cases tail : postsAt posts rest with
      | error reason =>
        rw [here, tail] at ok
        cases ok
      | ok later =>
        have bound := (List.getElem?_eq_some_iff.mp here).1
        exact List.forall_mem_cons.mpr ⟨bound, ih tail⟩

end PostsView

namespace PostsScene

/-- A swipe stays on the rows shown, and a list that arrives for an outstanding call is long enough
    for the marking loop and brings new ids only, each once. -/
def Safe (scene : PostsScene) : Event → Prop
  | .response ticket (some json) => scene.pending.awaiting ticket ≠ none →
    20 ≤ json.length ∧ (json.map PostJSON.id).Nodup ∧
      ∀ id ∈ json.map PostJSON.id, id ∉ scene.store.table.keys
  | .deletePost offsets => ∀ i ∈ offsets.indices, i < scene.postsView.shown.length
  | _ => True

theorem response_completes_iff (scene : PostsScene) (ticket : Nat) (json : List PostJSON) :
    (∃ next done, scene.handle (.response ticket (some json)) = .ok (next, done)) ↔
      scene.Safe (.response ticket (some json)) := by
  cases found : scene.pending.awaiting ticket with
  | none =>
    apply iff_of_true
    · exact ⟨scene, none, by simp only [handle, respond, found]⟩
    · intro waits
      exact absurd found waits
  | some owner =>
    have waits : scene.pending.awaiting ticket ≠ none := by simp [found]
    by_cases long : 20 ≤ json.length
    · have saves := saveFetched_iff scene.store json
      have safe : scene.Safe (.response ticket (some json)) ↔
          ∃ saved, scene.store.opened.saveAll (fetched json) = .ok saved := by
        rw [saves]
        simp only [Safe, waits, ne_eq, not_false_eq_true, true_implies, long, true_and]
      rw [safe, handle, respond_long found long]
      cases scene.store.opened.saveAll (fetched json) <;> simp
    · have short : json.length < 20 := by omega
      apply iff_of_false
      · intro completes
        rcases completes with ⟨next, done, ok⟩
        rw [handle, respond_short found short] at ok
        cases ok
      · intro safe
        exact long (safe waits).1

theorem deletePost_completes_iff (scene : PostsScene) (offsets : IndexSet) :
    (∃ next done, scene.handle (.deletePost offsets) = .ok (next, done)) ↔ scene.Safe (.deletePost offsets) := by
  have result : scene.handle (.deletePost offsets) =
      (scene.deletePost offsets).map fun next => (next, none) := rfl
  rw [result]
  by_cases inRange : ∀ i ∈ offsets.indices, i < scene.postsView.shown.length
  · apply iff_of_true _ inRange
    have collected := PostsView.postsAt_inRange inRange
    simp only [deletePost, PostsView.deletePost, collected]
    exact ⟨_, _, rfl⟩
  · apply iff_of_false _ inRange
    intro completes
    rcases completes with ⟨next, done, ok⟩
    cases collected : PostsView.postsAt scene.postsView.shown offsets.indices with
    | ok objects => exact inRange (PostsView.postsAt_bound collected)
    | error reason =>
      simp only [deletePost, PostsView.deletePost, collected] at ok
      cases ok

theorem handle_completes_iff (scene : PostsScene) (event : Event) :
    (∃ next done, scene.handle event = .ok (next, done)) ↔ scene.Safe event := by
  cases event with
  | response ticket reply =>
    cases reply with
    | none =>
      apply iff_of_true _ True.intro
      cases found : scene.pending.awaiting ticket with
      | none => exact ⟨scene, none, by simp only [handle, respond, found]⟩
      | some owner => exact ⟨_, _, by rw [handle, respond_failed found]⟩
    | some json => exact response_completes_iff scene ticket json
  | deletePost offsets => exact deletePost_completes_iff scene offsets
  | appear owner => exact iff_of_true ⟨_, _, rfl⟩ True.intro
  | reload => exact iff_of_true ⟨_, _, rfl⟩ True.intro
  | timer ticket => exact iff_of_true ⟨_, _, rfl⟩ True.intro
  | deleteAll => exact iff_of_true ⟨_, _, rfl⟩ True.intro
  | markAsRead post => exact iff_of_true ⟨_, _, rfl⟩ True.intro
  | setFavorite post isFavorite => exact iff_of_true ⟨_, _, rfl⟩ True.intro

end PostsScene

namespace Details

variable {α ω : Type} [RealmObject ω] [DetailObject ω] [Persistable α ω]

def Safe (details : Details α ω) : DetailEvent α → Prop
  | .response ticket (some values) => details.pending.awaiting ticket ≠ none →
    (values.map fun value => RealmObject.primaryKey (Persistable.managedObject value)).Nodup ∧
      ∀ value ∈ values, RealmObject.primaryKey (Persistable.managedObject value) ∉ details.store.table.keys
  | _ => True

theorem react_completes_iff (details : Details α ω) (event : DetailEvent α) :
    (∃ next done, details.react event = .ok (next, done)) ↔ details.Safe event := by
  cases event with
  | appear view => exact iff_of_true ⟨_, _, rfl⟩ True.intro
  | timer ticket => exact iff_of_true ⟨_, _, rfl⟩ True.intro
  | response ticket reply =>
    cases found : details.pending.awaiting ticket with
    | none =>
      apply iff_of_true ⟨_, _, respond_stray found⟩
      cases reply with
      | none => exact True.intro
      | some values =>
        intro waits
        exact absurd found waits
    | some lookup =>
      cases reply with
      | none => exact iff_of_true ⟨_, _, respond_failed found⟩ True.intro
      | some values =>
        have waits : details.pending.awaiting ticket ≠ none := by simp [found]
        have safe : details.Safe (.response ticket (some values)) ↔
            ∃ saved, details.store.opened.saveAll values = .ok saved := by
          rw [Store.saveAll_ok_iff details.store.opened_realm]
          simp only [Safe, waits, ne_eq, not_false_eq_true, true_implies]
          rfl
        rw [safe, respond_delivery found]
        cases details.store.opened.saveAll values <;> simp

end Details

namespace HomeView

def Safe (home : HomeView) : Event → Prop
  | .lists event => home.posts.Safe event
  | .details (.users event) => home.details.users.Safe event
  | .details (.comments event) => home.details.comments.Safe event
  | .appear _ | .star _ => True

theorem handle_completes_iff (home : HomeView) (event : Event) :
    (∃ next done, home.handle event = .ok (next, done)) ↔ home.Safe event := by
  cases event with
  | lists event =>
    have completes := home.posts.handle_completes_iff event
    rw [Safe, ← completes, handle]
    cases home.posts.handle event with
    | error abort => simp
    | ok result => exact iff_of_true ⟨_, _, rfl⟩ ⟨_, _, rfl⟩
  | appear screen => exact iff_of_true ⟨_, _, rfl⟩ True.intro
  | star screen => exact iff_of_true ⟨_, _, rfl⟩ True.intro
  | details event =>
    cases event with
    | users event =>
      have completes := home.details.users.react_completes_iff event
      rw [Safe, ← completes, handle, DetailsScene.handle, Details.userView_handle]
      cases home.details.users.react event with
      | error abort => simp
      | ok result => exact iff_of_true ⟨_, _, rfl⟩ ⟨_, _, rfl⟩
    | comments event =>
      have completes := home.details.comments.react_completes_iff event
      rw [Safe, ← completes, handle, DetailsScene.handle, Details.commentView_handle]
      cases home.details.comments.react event with
      | error abort => simp
      | ok result => exact iff_of_true ⟨_, _, rfl⟩ ⟨_, _, rfl⟩

/-- The process gets through a run exactly if every swipe stays on the rows shown, every list of posts
    that arrives for an outstanding call has 20 posts or more, and every list that arrives for an
    outstanding call brings ids that are new to its table, each once. -/
theorem home_completes_iff (home : HomeView) (events : List Event) :
    (∃ final, run handle home events = .ok final) ↔ Along handle Safe home events :=
  completes_iff_along handle_completes_iff

end HomeView

end ZemogaSocial
