import ZemogaSocial.Safety.DetailLoads

namespace ZemogaSocial

open Transition

namespace Details

variable {α ω : Type} [RealmObject ω] [DetailObject ω] [Persistable α ω] {server : List α}

/-- For each argument the table has nothing, or all that the server has for it. -/
def Whole (server : List α) (details : Details α ω) : Prop :=
  Keyed.WholeClasses DetailObject.owner (objects server) details.store.table.rows

theorem whole_of_empty {details : Details α ω} (empty : details.store.table.rows = []) :
    Whole server details := by
  unfold Whole
  rw [empty]
  exact Keyed.wholeClasses_nil

theorem whole_preserved {details next : Details α ω} {event : DetailEvent α} {done : Completion α}
    (distinct : ((objects server : List ω).map RealmObject.primaryKey).Nodup)
    (whole : Whole server details) (answers : Answers server details event)
    (ok : details.react event = .ok (next, done)) : Whole server next := by
  have from_server : FromServer server details := fun _ stored => Keyed.wholeClasses_subset whole stored
  have lands := freshSaves_iff_landsOnAbsent distinct from_server answers
  cases react_reaction ok with
  | delivered found saved =>
    have rows := (Store.saveAll_result details.store.opened_realm saved).2
    have absent := lands.mp ((freshSaves_delivery_iff found).mpr ⟨_, saved⟩) _ found
    unfold Whole
    rw [complete_store, rows, answers _ found]
    have appended := Keyed.wholeClasses_append whole absent
    rw [← objects_answer] at appended
    exact appended
  | _ => exact whole

theorem completion_answer [LawfulPersistable α] {details next : Details α ω} {event : DetailEvent α}
    {lookup : Lookup} {values : List α} (whole : Whole server details)
    (answers : Answers server details event)
    (ok : details.react event = .ok (next, some (lookup, some values))) :
    values = answer server lookup.argument := by
  cases react_reaction ok with
  | hit stored =>
    rename_i view
    rcases whole (details.argument view) with absent | same
    · exact absurd absent stored
    · have found : details.store.matching (details.argument view) = objects (answer server _) :=
        same.trans (objects_answer server _).symm
      unfold storedValues
      rw [found, objects, List.map_map]
      simp [Function.comp_def]
  | delivered found saved => exact answers _ found

theorem failed_request {details next : Details α ω} {ticket : Nat} {done : Completion α}
    (ok : details.react (.response ticket none) = .ok (next, done)) :
    next.store.table = details.store.table ∧
      done = (details.pending.awaiting ticket).map fun lookup => (lookup, none) := by
  cases react_reaction ok with
  | stray unknown => exact ⟨rfl, by rw [unknown]; rfl⟩
  | failed found => exact ⟨rfl, by rw [found]; rfl⟩

end Details

namespace DetailsScene

def Whole (server : DetailServer) (scene : DetailsScene) : Prop :=
  Details.Whole server.users scene.users ∧ Details.Whole server.comments scene.comments

theorem whole_preserved {server : DetailServer} {scene next : DetailsScene} {event : Event}
    {done : Completions} (whole : Whole server scene) (answers : Answers server scene event)
    (ok : scene.handle event = .ok (next, done)) : Whole server next := by
  cases event with
  | users event =>
    obtain ⟨users, completion, reacted, rfl, rfl⟩ := handle_users ok
    exact ⟨Details.whole_preserved (distinct_users server) whole.1 answers reacted, whole.2⟩
  | comments event =>
    obtain ⟨comments, completion, reacted, rfl, rfl⟩ := handle_comments ok
    exact ⟨whole.1, Details.whole_preserved (distinct_comments server) whole.2 answers reacted⟩

structure Agrees (server : DetailServer) (done : Completions) : Prop where
  users : ∀ lookup users, done.users = some (lookup, some users) →
    users = server.users.filter fun user => user.id == lookup.argument
  comments : ∀ lookup comments, done.comments = some (lookup, some comments) →
    comments = server.comments.filter fun comment => comment.postId == lookup.argument

/-- What a failed request must do: nil for the call that waits, and both tables as they were. -/
def FailsCleanly (scene next : DetailsScene) (done : Completions) : Event → Prop
  | .users (.response ticket none) => next.users.store.table = scene.users.store.table ∧
    next.comments.store.table = scene.comments.store.table ∧
    done = ⟨(scene.users.pending.awaiting ticket).map fun lookup => (lookup, none), none⟩
  | .comments (.response ticket none) => next.users.store.table = scene.users.store.table ∧
    next.comments.store.table = scene.comments.store.table ∧
    done = ⟨none, (scene.comments.pending.awaiting ticket).map fun lookup => (lookup, none)⟩
  | _ => True

theorem agrees_of_whole {server : DetailServer} {scene next : DetailsScene} {event : Event}
    {done : Completions} (whole : Whole server scene) (answers : Answers server scene event)
    (ok : scene.handle event = .ok (next, done)) : Agrees server done := by
  cases event with
  | users event =>
    obtain ⟨users, completion, reacted, rfl, rfl⟩ := handle_users ok
    apply Agrees.mk
    · intro lookup values same
      have received : completion = some (lookup, some values) := same
      rw [received] at reacted
      exact Details.completion_answer whole.1 answers reacted
    · intro lookup values same
      cases same
  | comments event =>
    obtain ⟨comments, completion, reacted, rfl, rfl⟩ := handle_comments ok
    apply Agrees.mk
    · intro lookup values same
      cases same
    · intro lookup values same
      have received : completion = some (lookup, some values) := same
      rw [received] at reacted
      exact Details.completion_answer whole.2 answers reacted

theorem failsCleanly {scene next : DetailsScene} {event : Event} {done : Completions}
    (ok : scene.handle event = .ok (next, done)) : FailsCleanly scene next done event := by
  cases event with
  | users event =>
    obtain ⟨users, completion, reacted, rfl, rfl⟩ := handle_users ok
    cases event with
    | appear view => exact True.intro
    | timer ticket => exact True.intro
    | response ticket reply =>
      cases reply with
      | some values => exact True.intro
      | none =>
        have failed := Details.failed_request reacted
        exact ⟨failed.1, rfl, by rw [failed.2]⟩
  | comments event =>
    obtain ⟨comments, completion, reacted, rfl, rfl⟩ := handle_comments ok
    cases event with
    | appear view => exact True.intro
    | timer ticket => exact True.intro
    | response ticket reply =>
      cases reply with
      | some values => exact True.intro
      | none =>
        have failed := Details.failed_request reacted
        exact ⟨rfl, failed.1, by rw [failed.2]⟩

/-- From empty tables on, cached and fetched details are the server's in every completed handler. -/
theorem detail_answers_agree (server : DetailServer) (scene : DetailsScene)
    (noUsers : scene.users.store.table.rows = []) (noComments : scene.comments.store.table.rows = [])
    (events : List Event) (answers : Along handle (Answers server) scene events) :
    Along handle (fun state event => ∀ next done, state.handle event = .ok (next, done) →
      Agrees server done ∧ FailsCleanly state next done event) scene events := by
  have initial : Whole server scene := ⟨Details.whole_of_empty noUsers, Details.whole_of_empty noComments⟩
  apply along_of_invariant (fun _ _ _ _ whole sent ok => whole_preserved whole sent ok) _ initial answers
  intro state event whole sent next done ok
  exact ⟨agrees_of_whole whole sent ok, failsCleanly ok⟩

theorem detail_answers_agree_later_post :
    Along handle (fun state event => ∀ next done, state.handle event = .ok (next, done) →
      Agrees sampleServer done ∧ FailsCleanly state next done event) newInstallation
      (laterPost ++ [.comments (.appear 1), .users (.appear 2)]) := by
  have answers : Along handle (Each (Details.Answers sampleServer.users)
      (Details.Answers sampleServer.comments)) newInstallation
      (laterPost ++ [.comments (.appear 1), .users (.appear 2)]) := by decide +kernel
  exact detail_answers_agree sampleServer newInstallation rfl rfl _ answers

end DetailsScene

end ZemogaSocial
