import ZemogaSocial.Scenes.DurableTable

namespace ZemogaSocial.PostsScene

/-- What can happen to an installation: a handler runs, `delete` is called with any snapshots, or
    the process is killed, be it between two commits of the save loop of a response. -/
inductive LifeEvent where
  | handled (event : Event)
  | deleted (posts : List Post)
  | killed
  | killedSaving (ticket : Nat) (json : List PostJSON) (commits : Nat)

def LifeEvent.deletes : LifeEvent → Bool
  | .handled event => event.deletes
  | .deleted _ => true
  | .killed | .killedSaving _ _ _ => false

/-- The rows on disk when the process is killed after that many commits; a loop that does not get
    so far is taken to be killed before it starts. -/
def tableKilled (scene : PostsScene) (ticket : Nat) (json : List PostJSON) (commits : Nat) :
    Rows PostObject :=
  match scene.pending.awaiting ticket, DataRequest.markFirst (json.map Post.decode) with
  | some _, .ok networkPosts =>
    match scene.store.opened.stoppedAfter commits networkPosts with
    | some stopped => stopped.table
    | none => scene.store.table
  | _, _ => scene.store.table

/-- An abort or a kill is followed by a new process on the rows that are on disk. -/
def live (scene : PostsScene) : LifeEvent → PostsScene
  | .handled event =>
    match scene.handle event with
    | .ok (next, _) => next
    | .error abort => launch abort.durable
  | .deleted posts => { scene with store := (scene.store.delete (posts.map Post.managedObject)).1 }
  | .killed => launch scene.store.table
  | .killedSaving ticket json commits => launch (scene.tableKilled ticket json commits)

theorem live_handled (scene : PostsScene) (event : Event) :
    (scene.live (.handled event)).store.table = scene.tableAfter event := by
  cases handled : scene.handle event <;> simp only [live, tableAfter, handled, launch]

theorem tableKilled_rows (scene : PostsScene) (ticket : Nat) (json : List PostJSON) (commits : Nat) :
    ∃ done rest, fetched json = done ++ rest ∧
      (scene.tableKilled ticket json commits).rows = scene.store.table.rows ++ done.map Post.managedObject := by
  have nothing : ∃ done rest, fetched json = done ++ rest ∧
      scene.store.table.rows = scene.store.table.rows ++ done.map Post.managedObject :=
    ⟨[], fetched json, rfl, (List.append_nil _).symm⟩
  unfold tableKilled
  split
  · rename_i owner networkPosts found marked
    cases stop : scene.store.opened.stoppedAfter commits networkPosts with
    | none => exact nothing
    | some stopped =>
      obtain ⟨_, _, rows⟩ := Store.stoppedAfter_rows scene.store.opened_realm stop
      have list : networkPosts = fetched json := by
        by_cases long : 20 ≤ (json.map Post.decode).length
        · rw [DataRequest.markFirst_long long] at marked
          exact (Except.ok.inj marked).symm
        · rw [DataRequest.markFirst_short (by omega)] at marked
          cases marked
      subst list
      exact ⟨_, _, (List.take_append_drop commits _).symm, rows⟩
  · exact nothing

end ZemogaSocial.PostsScene
