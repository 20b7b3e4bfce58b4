import ZemogaSocial.Safety.PostLoads

namespace ZemogaSocial.PostsScene

open Transition

def ShowsStored (scene : PostsScene) : Owner → Prop
  | .postsView => scene.postsView.shown = scene.storedPosts
  | .favoritesView => scene.favoritesView.shown = scene.storedPosts.filter fun post => post.isFavorite

/-- What a completed load leaves: with a list the view shows the table, and with nil the view and
    the table are as they were. -/
def CompletesShown (scene : PostsScene) (event : Event) : Prop :=
  ∀ next owner retrieved, scene.handle event = .ok (next, some (owner, retrieved)) →
    match retrieved with
    | some _ => next.ShowsStored owner
    | none => (next.screen owner).shown = (scene.screen owner).shown ∧ next.store.table = scene.store.table

theorem showsStored_iff {scene : PostsScene} {owner : Owner} :
    scene.ShowsStored owner ↔ (scene.screen owner).shown = present owner scene.storedPosts := by
  cases owner <;> exact .rfl

/-- A list that is saved without an abort finds the table empty, so it is the table afterwards. -/
theorem delivered_storedPosts {server : List PostJSON} {scene next : PostsScene} {ticket : Nat}
    {json : List PostJSON} {owner : Owner} {retrieved : Option (List Post)}
    (long : 20 ≤ server.length) (distinct : (server.map PostJSON.id).Nodup) (fed : Fed server scene)
    (serves : Serves server (.response ticket (some json)))
    (ok : scene.handle (.response ticket (some json)) = .ok (next, some (owner, retrieved))) :
    next.storedPosts = fetched json ∧ retrieved = some (fetched json) := by
  have unraised : ∀ abort, scene.handle (.response ticket (some json)) = .error abort →
      ∀ key, abort.reason ≠ .existingPrimaryKey key := by
    intro abort aborted
    rw [ok] at aborted
    cases aborted
  have fresh := (freshSaves_iff_no_raise scene _).mpr unraised
  have lands := (freshSaves_iff_landsOnEmpty long distinct fed serves).mp fresh
  cases handle_reaction ok with
  | hit starts stored => cases starts
  | delivered found _ rows =>
    have empty : scene.store.table.rows = [] := by
      apply lands
      show scene.pending.awaiting ticket ≠ none
      rw [found]
      exact Option.some_ne_none _
    refine ⟨?_, rfl⟩
    rw [storedPosts, complete_store, rows, empty, List.nil_append, List.map_map]
    simp [Function.comp_def, Post.managedObject, Post.ofManaged]

theorem completesShown_of_fed {server : List PostJSON} {scene : PostsScene} {event : Event}
    (long : 20 ≤ server.length) (distinct : (server.map PostJSON.id).Nodup) (fed : Fed server scene)
    (serves : Serves server event) : scene.CompletesShown event := by
  intro next owner retrieved ok
  cases handle_reaction ok with
  | hit starts stored =>
    have table : ({ scene.readied event with store := scene.store.opened }.complete owner
        (some scene.storedPosts)).storedPosts = scene.storedPosts := by
      rw [storedPosts, complete_store]
      rfl
    show ShowsStored _ owner
    rw [showsStored_iff, complete_screen_self, table]
    exact Screen.loaded_some_shown ..
  | failed found =>
    show _ ∧ _
    rw [complete_screen_self, complete_store]
    refine ⟨?_, rfl⟩
    rw [Screen.loaded_none_shown]
    cases owner <;> rfl
  | delivered found big rows =>
    have after := delivered_storedPosts long distinct fed serves ok
    show ShowsStored _ owner
    rw [showsStored_iff, after.1, complete_screen_self]
    exact Screen.loaded_some_shown ..

/-- Along every run, a load that completes with a list leaves its view showing the table, and one
    that completes with nil leaves view and table alone. -/
theorem loaded_lists_shown (server : List PostJSON) (long : 20 ≤ server.length)
    (distinct : (server.map PostJSON.id).Nodup) (scene : PostsScene) (idle : scene.pending.calls = [])
    (events : List Event) (serves : ∀ event ∈ events, Serves server event) :
    Along handle CompletesShown scene events := by
  have initial : Fed server scene := fun waiting => absurd idle waiting
  have permitted : Along handle (fun _ event => Serves server event) scene events :=
    along_of_forall serves scene
  exact along_of_invariant (fun _ _ _ _ fed allowed ok => fed_preserved fed allowed ok)
    (fun _ _ fed allowed => completesShown_of_fed long distinct fed allowed) initial permitted

theorem loaded_lists_shown_one_at_a_time : Along handle CompletesShown (launch .empty) oneAtATime := by
  have serves : ∀ event ∈ oneAtATime, Serves sampleServer event := by simp [oneAtATime, Serves]
  exact loaded_lists_shown sampleServer sampleServer_long sampleServer_distinct (launch .empty) rfl
    oneAtATime serves

def filledByOtherTab : List Event :=
  [.appear .postsView, .appear .favoritesView, .timer 0, .timer 1, .response 1 (some sampleServer)]

theorem failed_load_shows_other_list :
    20 ≤ sampleServer.length ∧ (sampleServer.map PostJSON.id).Nodup ∧
      (∀ event ∈ filledByOtherTab ++ [.response 0 none], Serves sampleServer event) ∧
      ∃ reached next, run handle (launch .empty) filledByOtherTab = .ok reached ∧
        reached.handle (.response 0 none) = .ok (next, some (.postsView, none)) ∧
        ¬ next.ShowsStored .postsView := by
  refine ⟨sampleServer_long, sampleServer_distinct, by simp [filledByOtherTab, Serves], _, _, rfl, rfl, ?_⟩
  intro same
  have length := congrArg List.length same
  revert length
  decide +kernel

end ZemogaSocial.PostsScene
