import ZemogaSocial.Safety.PostLoads

namespace ZemogaSocial.PostsScene

open Transition

/-- What happens while a reload runs: no user action, and the server answers with its list. -/
def Awaited (server : List PostJSON) : Event → Prop
  | .timer _ => True
  | .response _ (some json) => json = server
  | _ => False

/-- A post of the list has the marks of the stored one. -/
def KeepsMarks (posts : List Post) (post : Post) : Prop :=
  ∃ other ∈ posts, other.id = post.id ∧ other.isFavorite = post.isFavorite ∧ other.read = post.read

structure Restored (server : List PostJSON) (before after : PostsScene) : Prop where
  all : ∀ id ∈ server.map PostJSON.id, id ∈ after.postsView.shown.map Post.id
  shown : ∀ post ∈ before.storedPosts, post.id ∈ server.map PostJSON.id →
    KeepsMarks after.postsView.shown post
  stored : ∀ post ∈ before.storedPosts, post.id ∈ server.map PostJSON.id →
    KeepsMarks after.storedPosts post

/-- The table has nothing, so that the reload goes to the network, or nothing is missing in it. -/
def ReloadsAll (server : List PostJSON) (scene : PostsScene) : Prop :=
  scene.store.table.rows = [] ∨ ∀ id ∈ server.map PostJSON.id, id ∈ scene.store.table.keys

/-- From the tap on, the load waits over an empty table for the server's list, or it has completed
    and the view shows these posts. -/
inductive Reloading (server : List PostJSON) (posts : List Post) (scene : PostsScene) : Prop where
  | waiting (empty : scene.store.table.rows = []) (call : Call Owner) (only : scene.pending.calls = [call])
      (mine : call.tag = .postsView) (all : posts = fetched server)
  | settled (idle : scene.pending.calls = []) (shown : scene.postsView.shown = posts)
      (stored : scene.storedPosts = posts)

def reloadedPosts (server : List PostJSON) (scene : PostsScene) : List Post :=
  if scene.store.table.rows = [] then fetched server else scene.storedPosts

theorem reload_starts (server : List PostJSON) {scene : PostsScene} (idle : scene.pending.calls = []) :
    ∃ next done, scene.handle .reload = .ok (next, done) ∧
      Reloading server (reloadedPosts server scene) next := by
  have reaction := loadData_reaction scene .reload rfl
  refine ⟨_, _, rfl, ?_⟩
  show Reloading server (reloadedPosts server scene) ((scene.readied .reload).loadData .postsView).1
  generalize ((scene.readied .reload).loadData .postsView).1 = next at reaction ⊢
  generalize ((scene.readied .reload).loadData .postsView).2 = done at reaction
  cases reaction with
  | miss starts empty =>
    cases starts
    have posts : reloadedPosts server scene = fetched server := if_pos empty
    rw [posts]
    refine .waiting empty ⟨scene.pending.issued, .postsView, .timer⟩ ?_ rfl rfl
    show scene.pending.calls ++ _ = _
    rw [idle, List.nil_append]
  | hit starts some =>
    cases starts
    have posts : reloadedPosts server scene = scene.storedPosts := if_neg some
    rw [posts]
    exact .settled idle rfl rfl

theorem awaiting_idle {scene : PostsScene} (idle : scene.pending.calls = []) (ticket : Nat) :
    scene.pending.awaiting ticket = none := by
  rw [Pending.awaiting, idle]
  rfl

theorem delivery_settles {server : List PostJSON} {scene : PostsScene} {ticket : Nat} {owner : Owner}
    {call : Call Owner} (long : 20 ≤ server.length) (distinct : (server.map PostJSON.id).Nodup)
    (empty : scene.store.table.rows = []) (only : scene.pending.calls = [call])
    (mine : call.tag = .postsView) (found : scene.pending.awaiting ticket = some owner) :
    ∃ next done, scene.handle (.response ticket (some server)) = .ok (next, done) ∧
      next.pending.calls = [] ∧ next.postsView.shown = fetched server ∧ next.storedPosts = fetched server := by
  have fresh : ∀ id ∈ server.map PostJSON.id, id ∉ scene.store.table.keys := by
    intro id _
    rw [Keyed.Table.keys_eq_nil.mpr empty]
    exact List.not_mem_nil
  obtain ⟨store, saved⟩ := (saveFetched_iff scene.store server).mpr ⟨distinct, fresh⟩
  have rows := (Store.saveAll_result scene.store.opened_realm saved).2
  obtain ⟨waiting, member, sameTicket, sameTag⟩ := Pending.awaiting_mem found
  rw [only, List.mem_singleton] at member
  subst member
  have view : owner = .postsView := sameTag.symm.trans mine
  subst view
  rw [handle, respond_long found long, saved]
  refine ⟨_, _, rfl, ?_, rfl, ?_⟩
  · show scene.pending.calls.filter _ = []
    rw [only]
    simp [sameTicket]
  · rw [storedPosts, complete_store, rows, Store.opened_table, empty, List.nil_append, List.map_map]
    exact List.map_id _

theorem reloading_progress {server : List PostJSON} {posts : List Post} {scene : PostsScene} {event : Event}
    (long : 20 ≤ server.length) (distinct : (server.map PostJSON.id).Nodup)
    (reloading : Reloading server posts scene) (awaited : Awaited server event) :
    ∃ next done, scene.handle event = .ok (next, done) ∧ Reloading server posts next := by
  cases event with
  | timer ticket =>
    refine ⟨_, _, rfl, ?_⟩
    cases reloading with
    | waiting empty call only mine all =>
      refine .waiting empty (if call.ticket = ticket then { call with phase := .network } else call) ?_ ?_ all
      · show scene.pending.calls.map _ = _
        rw [only]
        rfl
      · split <;> exact mine
    | settled idle shown stored =>
      refine .settled ?_ shown stored
      show scene.pending.calls.map _ = _
      rw [idle]
      rfl
  | response ticket reply =>
    cases found : scene.pending.awaiting ticket with
    | none => exact ⟨scene, none, by rw [handle, respond, found], reloading⟩
    | some owner =>
      cases reply with
      | none => cases awaited
      | some json =>
        have sent : json = server := awaited
        subst sent
        cases reloading with
        | waiting empty call only mine all =>
          obtain ⟨next, done, handled, settled, shown, stored⟩ :=
            delivery_settles long distinct empty only mine found
          exact ⟨next, done, handled, .settled settled (shown.trans all.symm) (stored.trans all.symm)⟩
        | settled idle =>
          rw [awaiting_idle idle] at found
          cases found
  | _ => cases awaited

theorem reloading_finishes {server : List PostJSON} {posts : List Post} {scene : PostsScene}
    (long : 20 ≤ server.length) (distinct : (server.map PostJSON.id).Nodup)
    (reloading : Reloading server posts scene) :
    ∃ events, (∀ event ∈ events, Awaited server event) ∧
      ∃ final, run handle scene events = .ok final ∧ final.pending.calls = [] := by
  cases reloading with
  | settled idle => exact ⟨[], by simp, scene, rfl, idle⟩
  | waiting empty call only mine =>
    let fired : PostsScene := { scene with pending := scene.pending.fire call.ticket }
    have calls : fired.pending.calls = [{ call with phase := .network }] := by
      show scene.pending.calls.map _ = _
      rw [only]
      simp
    have found : fired.pending.awaiting call.ticket = some call.tag := by
      rw [Pending.awaiting, calls]
      simp
    have still : fired.store.table.rows = [] := empty
    obtain ⟨final, done, handled, settled, _⟩ := delivery_settles long distinct still calls mine found
    refine ⟨[.timer call.ticket, .response call.ticket (some server)], by simp [Awaited], final, ?_, settled⟩
    have waited : scene.handle (.timer call.ticket) = .ok (fired, none) := rfl
    rw [run_cons_ok _ waited, run_cons_ok _ handled]
    rfl

theorem restored_iff {server : List PostJSON} {scene final : PostsScene}
    (shown : final.postsView.shown = reloadedPosts server scene)
    (stored : final.storedPosts = reloadedPosts server scene) :
    Restored server scene final ↔ ReloadsAll server scene := by
  by_cases empty : scene.store.table.rows = []
  · have posts : reloadedPosts server scene = fetched server := if_pos empty
    have none : scene.storedPosts = [] := List.map_eq_nil_iff.mpr empty
    apply iff_of_true _ (.inl empty)
    apply Restored.mk
    · rw [shown, posts, fetched_ids]
      exact fun _ member => member
    · rw [none]
      exact fun _ member => nomatch member
    · rw [none]
      exact fun _ member => nomatch member
  · have posts : reloadedPosts server scene = scene.storedPosts := if_neg empty
    have keys : scene.storedPosts.map Post.id = scene.store.table.keys := by
      rw [storedPosts, List.map_map]
      rfl
    apply Iff.intro
    · intro restored
      right
      have all := restored.all
      rw [shown, posts, keys] at all
      exact all
    · intro reloads
      rcases reloads with none | all
      · exact absurd none empty
      · apply Restored.mk
        · rw [shown, posts, keys]
          exact all
        · intro post member _
          rw [shown, posts]
          exact ⟨post, member, rfl, rfl, rfl⟩
        · intro post member _
          rw [stored, posts]
          exact ⟨post, member, rfl, rfl, rfl⟩

/-- A reload that is tapped while nothing is outstanding runs without an abort and can complete.
    When it has completed, everything of the server is back exactly if the table was empty at the
    tap or had everything. -/
theorem reload_restores_iff (server : List PostJSON) (long : 20 ≤ server.length)
    (distinct : (server.map PostJSON.id).Nodup) (scene : PostsScene) (idle : scene.pending.calls = []) :
    (∀ events, (∀ event ∈ events, Awaited server event) →
      ∃ final, run handle scene (.reload :: events) = .ok final ∧
        (final.pending.calls = [] → (Restored server scene final ↔ ReloadsAll server scene))) ∧
    ∃ events, (∀ event ∈ events, Awaited server event) ∧
      ∃ final, run handle scene (.reload :: events) = .ok final ∧ final.pending.calls = [] := by
  obtain ⟨started, done, tapped, begun⟩ := reload_starts server idle
  have completes : ∀ events, (∀ event ∈ events, Awaited server event) →
      ∃ final, run handle scene (.reload :: events) = .ok final ∧
        Reloading server (reloadedPosts server scene) final := by
    intro events awaited
    rw [run_cons_ok events tapped]
    exact run_completes (fun _ _ => reloading_progress long distinct) begun (along_of_forall awaited started)
  apply And.intro
  · intro events awaited
    obtain ⟨final, completed, reloading⟩ := completes events awaited
    refine ⟨final, completed, ?_⟩
    intro settled
    cases reloading with
    | waiting empty call only =>
      rw [settled] at only
      cases only
    | settled _ shown stored => exact restored_iff shown stored
  · obtain ⟨events, awaited, final, completed, settled⟩ := reloading_finishes long distinct begun
    exact ⟨events, awaited, final, (run_cons_ok events tapped).trans completed, settled⟩

def oneDeleted : List Event :=
  [.appear .postsView, .timer 0, .response 0 (some sampleServer), .deletePost ⟨[0], by decide⟩]

def emptied : List Event := oneDeleted ++ [.deleteAll]

def served : List Event := [.timer 1, .response 1 (some sampleServer)]

theorem reload_restores_emptied :
    ∃ scene final, run handle (launch .empty) emptied = .ok scene ∧
      run handle scene (.reload :: served) = .ok final ∧ Restored sampleServer scene final := by
  have facts : ((run handle (launch .empty) emptied).toOption.bind fun scene =>
      (run handle scene (.reload :: served)).toOption.map fun final =>
        (scene.pending.calls.isEmpty, scene.store.table.rows.isEmpty, final.pending.calls.isEmpty)) =
      some (true, true, true) := by decide +kernel
  cases reached : run handle (launch .empty) emptied with
  | error abort =>
    rw [reached] at facts
    cases facts
  | ok scene =>
    rw [reached] at facts
    cases completed : run handle scene (.reload :: served) with
    | error abort =>
      simp [Except.toOption, completed] at facts
    | ok final =>
      simp [Except.toOption, completed] at facts
      obtain ⟨other, same, restored⟩ := (reload_restores_iff sampleServer sampleServer_long
        sampleServer_distinct scene facts.1).1 served (by simp [served, Awaited])
      rw [completed] at same
      cases same
      exact ⟨scene, final, rfl, completed, (restored facts.2.2).mpr (.inl facts.2.1)⟩

/-- After one post is deleted, the reload is answered from the table and leaves it out. -/
theorem reload_leaves_deleted_out :
    ∃ scene final, run handle (launch .empty) oneDeleted = .ok scene ∧ scene.pending.calls = [] ∧
      run handle scene [.reload] = .ok final ∧ final.pending.calls = [] ∧
      0 ∈ sampleServer.map PostJSON.id ∧ 0 ∉ final.postsView.shown.map Post.id :=
  ⟨_, _, rfl, rfl, rfl, rfl, by decide +kernel, by decide +kernel⟩

end ZemogaSocial.PostsScene
