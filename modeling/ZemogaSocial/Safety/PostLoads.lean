import ZemogaSocial.Scenes.PostsReactions

namespace ZemogaSocial.PostsScene

open Transition

/-- Every list that arrives is this one; a request may also fail. -/
def Serves (server : List PostJSON) : Event → Prop
  | .response _ (some json) => json = server
  | _ => True

def saves (scene : PostsScene) : Event → List (PostStore × PostObject)
  | .response ticket (some json) =>
    match scene.pending.awaiting ticket, DataRequest.markFirst (json.map Post.decode) with
    | some _, .ok networkPosts => scene.store.opened.executedSaves networkPosts
    | _, _ => []
  | _ => []

def FreshSaves (scene : PostsScene) (event : Event) : Prop :=
  ∀ executed ∈ scene.saves event, executed.2.id ∉ executed.1.table.keys

def Delivers (scene : PostsScene) : Event → Prop
  | .response ticket (some _) => scene.pending.awaiting ticket ≠ none
  | _ => False

instance (scene : PostsScene) : ∀ event, Decidable (scene.Delivers event)
  | .response ticket (some _) => inferInstanceAs (Decidable (scene.pending.awaiting ticket ≠ none))
  | .response _ none | .appear _ | .reload | .timer _ | .deletePost _ | .deleteAll | .markAsRead _
  | .setFavorite _ _ => inferInstanceAs (Decidable False)

def LandsOnEmpty (scene : PostsScene) (event : Event) : Prop :=
  scene.Delivers event → scene.store.table.rows = []

instance (scene : PostsScene) (event : Event) : Decidable (scene.LandsOnEmpty event) :=
  inferInstanceAs (Decidable (_ → _))

/-- While a call is outstanding, the table holds nothing but ids of the server's list. -/
def Fed (server : List PostJSON) (scene : PostsScene) : Prop :=
  scene.pending.calls ≠ [] → ∀ id ∈ scene.store.table.keys, id ∈ server.map PostJSON.id

theorem fed_preserved {server : List PostJSON} {scene next : PostsScene} {event : Event}
    {done : Completion} (fed : Fed server scene) (serves : Serves server event)
    (ok : scene.handle event = .ok (next, done)) : Fed server next := by
  intro waiting id stored
  cases handle_reaction ok with
  | hit starts present =>
    rw [complete_pending] at waiting
    rw [complete_store] at stored
    have pending : (scene.readied event).pending = scene.pending := by cases event <;> rfl
    exact fed (pending ▸ waiting) id stored
  | miss starts empty =>
    have member : id ∈ scene.store.table.keys := stored
    rw [Keyed.Table.keys_eq_nil.mpr empty] at member
    cases member
  | timer ticket => exact fed (Pending.fire_nonempty waiting) id stored
  | stray unknown => exact fed waiting id stored
  | failed found =>
    rw [complete_store] at stored
    exact fed (Pending.awaiting_nonempty found) id stored
  | delivered found long rows =>
    rw [complete_store, Keyed.Table.keys, rows, List.map_append, List.mem_append] at stored
    rcases stored with old | new
    · exact fed (Pending.awaiting_nonempty found) id old
    · have sent : _ = server := serves
      subst sent
      rw [List.map_map] at new
      exact fetched_ids _ ▸ new
  | deleted ids => exact fed waiting id (PostStore.delete_keys.mp stored).1
  | cleared => cases stored
  | read post => exact fed waiting id (PostStore.markAsRead_keys scene.store _ ▸ stored)
  | starred post isFavorite => exact fed waiting id (PostStore.setFavorite_keys scene.store _ _ ▸ stored)

theorem saves_delivery {scene : PostsScene} {ticket : Nat} {json : List PostJSON} {owner : Owner}
    (found : scene.pending.awaiting ticket = some owner) (long : 20 ≤ json.length) :
    scene.saves (.response ticket (some json)) = scene.store.opened.executedSaves (fetched json) := by
  have marked := DataRequest.markFirst_long (by simpa using long : 20 ≤ (json.map Post.decode).length)
  simp only [saves, found, marked]
  rfl

theorem saveFetched_iff (store : PostStore) (json : List PostJSON) :
    (∃ saved, store.opened.saveAll (fetched json) = .ok saved) ↔
      (json.map PostJSON.id).Nodup ∧ ∀ id ∈ json.map PostJSON.id, id ∉ store.table.keys := by
  rw [← fetched_ids, List.forall_mem_map]
  exact Store.saveAll_ok_iff store.opened_realm

theorem freshSaves_delivery_iff {scene : PostsScene} {ticket : Nat} {json : List PostJSON} {owner : Owner}
    (found : scene.pending.awaiting ticket = some owner) (long : 20 ≤ json.length) :
    scene.FreshSaves (.response ticket (some json)) ↔
      (json.map PostJSON.id).Nodup ∧ ∀ id ∈ json.map PostJSON.id, id ∉ scene.store.table.keys := by
  unfold FreshSaves
  rw [saves_delivery found long, ← saveFetched_iff]
  exact Store.executedSaves_fresh_iff scene.store.opened_realm

theorem freshSaves_iff_no_raise (scene : PostsScene) (event : Event) :
    scene.FreshSaves event ↔
      ∀ abort, scene.handle event = .error abort → ∀ key, abort.reason ≠ .existingPrimaryKey key := by
  cases event with
  | response ticket reply =>
    cases found : scene.pending.awaiting ticket with
    | none =>
      cases reply <;> simp [FreshSaves, saves, handle, respond, found]
    | some owner =>
      cases reply with
      | none => simp [FreshSaves, saves, handle, respond_failed found]
      | some json =>
        by_cases long : 20 ≤ json.length
        · unfold FreshSaves
          rw [saves_delivery found long, handle, respond_long found long]
          apply Iff.trans (Store.executedSaves_fresh_iff scene.store.opened_realm)
          rcases Store.saveAll_cases scene.store.opened_realm (fetched json) with
            ⟨saved, ok, _⟩ | ⟨_, _, _, _, _, raised, _⟩
          · simp [ok]
          · simp [raised]
        · have short : json.length < 20 := by omega
          have decoded : (json.map Post.decode).length < 20 := by simpa using short
          simp [FreshSaves, saves, found, handle, DataRequest.markFirst_short decoded,
            respond_short found short]
  | deletePost offsets =>
    have fresh : scene.FreshSaves (.deletePost offsets) := by simp [FreshSaves, saves]
    apply iff_of_true fresh
    intro abort aborted key
    cases trapped : scene.deletePost offsets with
    | ok next =>
      rw [handle, trapped] at aborted
      cases aborted
    | error first =>
      obtain ⟨i, _, _, rfl⟩ := deletePost_abort trapped
      rw [handle, trapped] at aborted
      cases aborted
      simp
  | appear owner => simp [FreshSaves, saves, handle]
  | reload => simp [FreshSaves, saves, handle]
  | timer ticket => simp [FreshSaves, saves, handle]
  | deleteAll => simp [FreshSaves, saves, handle]
  | markAsRead post => simp [FreshSaves, saves, handle]
  | setFavorite post isFavorite => simp [FreshSaves, saves, handle]

theorem freshSaves_iff_landsOnEmpty {server : List PostJSON} {scene : PostsScene} {event : Event}
    (long : 20 ≤ server.length) (distinct : (server.map PostJSON.id).Nodup) (fed : Fed server scene)
    (serves : Serves server event) : scene.FreshSaves event ↔ scene.LandsOnEmpty event := by
  by_cases delivers : scene.Delivers event
  · cases event with
    | response ticket reply =>
      cases reply with
      | none => cases delivers
      | some json =>
        have sent : json = server := serves
        subst sent
        obtain ⟨owner, found⟩ := Option.ne_none_iff_exists'.mp delivers
        have disjoint : (∀ id ∈ json.map PostJSON.id, id ∉ scene.store.table.keys) ↔
            scene.store.table.keys = [] := by
          apply Iff.intro
          · intro fresh
            apply List.eq_nil_iff_forall_not_mem.mpr
            intro id stored
            exact fresh id (fed (Pending.awaiting_nonempty found) id stored) stored
          · intro empty id _
            rw [empty]
            exact List.not_mem_nil
        rw [freshSaves_delivery_iff found long, disjoint, Keyed.Table.keys_eq_nil]
        simp only [LandsOnEmpty, delivers, distinct, true_and, true_implies]
    | _ => cases delivers
  · have nothing : scene.saves event = [] := by
      cases event with
      | response ticket reply =>
        cases reply with
        | none => rfl
        | some json =>
          have stray : scene.pending.awaiting ticket = none := not_not.mp delivers
          simp only [saves, stray]
      | _ => rfl
    simp [FreshSaves, nothing, LandsOnEmpty, delivers]

/-- Started with nothing outstanding, a run executes only fresh saves, and raises no duplicate key,
    exactly when each list that arrives for an outstanding call finds the table empty. -/
theorem post_loads_fresh_iff (server : List PostJSON) (long : 20 ≤ server.length)
    (distinct : (server.map PostJSON.id).Nodup) (scene : PostsScene) (idle : scene.pending.calls = [])
    (events : List Event) (serves : ∀ event ∈ events, Serves server event) :
    (Along handle FreshSaves scene events ↔ Along handle LandsOnEmpty scene events) ∧
    ((∀ abort, run handle scene events = .error abort → ∀ key, abort.reason ≠ .existingPrimaryKey key) ↔
      Along handle LandsOnEmpty scene events) := by
  have initial : Fed server scene := fun waiting => absurd idle waiting
  have permitted : Along handle (fun _ event => Serves server event) scene events :=
    along_of_forall serves scene
  have lands : Along handle FreshSaves scene events ↔ Along handle LandsOnEmpty scene events :=
    along_iff_of_invariant (fun _ _ _ _ fed allowed _ ok => fed_preserved fed allowed ok)
      (fun _ _ fed allowed => freshSaves_iff_landsOnEmpty long distinct fed allowed) initial permitted
  have raises : Along handle FreshSaves scene events ↔
      ∀ abort, run handle scene events = .error abort → ∀ key, abort.reason ≠ .existingPrimaryKey key := by
    rw [run_error_iff]
    exact along_iff_of_invariant (fun _ _ _ _ fed allowed _ ok => fed_preserved fed allowed ok)
      (fun state event _ _ => freshSaves_iff_no_raise state event) initial permitted
  exact ⟨lands, raises.symm.trans lands⟩

def sampleServer : List PostJSON := (List.range 20).map fun n => ⟨Int64.ofNat n, 1, "", ""⟩

def bothTabs : List Event :=
  [.appear .postsView, .appear .favoritesView, .timer 0, .timer 1, .response 0 (some sampleServer),
    .response 1 (some sampleServer)]

def oneAtATime : List Event :=
  [.appear .postsView, .timer 0, .response 0 (some sampleServer), .appear .favoritesView, .deleteAll,
    .reload, .timer 1, .response 1 (some sampleServer)]

theorem sampleServer_long : 20 ≤ sampleServer.length := by decide

theorem sampleServer_distinct : (sampleServer.map PostJSON.id).Nodup := by decide +kernel

theorem post_loads_fresh_one_at_a_time :
    Along handle FreshSaves (launch .empty) oneAtATime ∧
      ∀ abort, run handle (launch .empty) oneAtATime = .error abort →
        ∀ key, abort.reason ≠ .existingPrimaryKey key := by
  have serves : ∀ event ∈ oneAtATime, Serves sampleServer event := by simp [oneAtATime, Serves]
  have lands : Along handle LandsOnEmpty (launch .empty) oneAtATime := by decide +kernel
  have both := post_loads_fresh_iff sampleServer sampleServer_long sampleServer_distinct (launch .empty)
    rfl oneAtATime serves
  exact ⟨both.1.mpr lands, both.2.mpr lands⟩

theorem post_loads_overlap_raises :
    20 ≤ sampleServer.length ∧ (sampleServer.map PostJSON.id).Nodup ∧
      (∀ event ∈ bothTabs, Serves sampleServer event) ∧
      ∃ table, run handle (launch .empty) bothTabs = .error ⟨.existingPrimaryKey 0, table⟩ :=
  ⟨sampleServer_long, sampleServer_distinct, by simp [bothTabs, Serves], _, rfl⟩

end ZemogaSocial.PostsScene
