import ZemogaSocial.Scenes.DetailsReactions

namespace ZemogaSocial

open Transition

namespace Details

section Server

variable {α ω : Type} [DetailObject ω] [Persistable α ω]

def answer (server : List α) (argument : Int64) : List α :=
  server.filter fun value => DetailObject.owner (Persistable.managedObject value) == argument

def objects (server : List α) : List ω := server.map Persistable.managedObject

theorem objects_answer (server : List α) (argument : Int64) :
    (objects (answer server argument) : List ω) =
      Keyed.classRows DetailObject.owner argument (objects server) := by
  unfold objects Keyed.classRows
  rw [List.filter_map]
  rfl

end Server

section Saves

variable {α ω : Type} [RealmObject ω] [Persistable α ω]

def saves (details : Details α ω) : DetailEvent α → List (Store ω × ω)
  | .response ticket (some values) =>
    match details.pending.awaiting ticket with
    | some _ => details.store.opened.executedSaves values
    | none => []
  | _ => []

def FreshSaves (details : Details α ω) (event : DetailEvent α) : Prop :=
  ∀ executed ∈ details.saves event, RealmObject.primaryKey executed.2 ∉ executed.1.table.keys

theorem freshSaves_delivery_iff {details : Details α ω} {ticket : Nat} {lookup : Lookup} {values : List α}
    (found : details.pending.awaiting ticket = some lookup) :
    details.FreshSaves (.response ticket (some values)) ↔
      ∃ saved, details.store.opened.saveAll values = .ok saved := by
  simp only [FreshSaves, saves, found]
  exact Store.executedSaves_fresh_iff details.store.opened_realm

end Saves

variable {α ω : Type} [RealmObject ω] [DetailObject ω] [Persistable α ω]

/-- A list that arrives is the server's answer to the call's argument; a request may also fail. -/
def Answers (server : List α) (details : Details α ω) : DetailEvent α → Prop
  | .response ticket (some values) =>
    ∀ lookup ∈ details.pending.awaiting ticket, values = answer server lookup.argument
  | _ => True

instance [DecidableEq α] (server : List α) (details : Details α ω) :
    ∀ event, Decidable (Answers server details event)
  | .response ticket (some values) =>
    inferInstanceAs (Decidable (∀ lookup ∈ details.pending.awaiting ticket,
      values = answer server lookup.argument))
  | .response _ none | .appear _ | .timer _ => inferInstanceAs (Decidable True)

def LandsOnAbsent (details : Details α ω) : DetailEvent α → Prop
  | .response ticket (some _) =>
    ∀ lookup ∈ details.pending.awaiting ticket, details.store.matching lookup.argument = []
  | _ => True

instance [DecidableEq ω] (details : Details α ω) : ∀ event, Decidable (details.LandsOnAbsent event)
  | .response ticket (some _) =>
    inferInstanceAs (Decidable (∀ lookup ∈ details.pending.awaiting ticket,
      details.store.matching lookup.argument = []))
  | .response _ none | .appear _ | .timer _ => inferInstanceAs (Decidable True)

def FromServer (server : List α) (details : Details α ω) : Prop :=
  ∀ object ∈ details.store.table.rows, object ∈ (objects server : List ω)

theorem fromServer_preserved {server : List α} {details next : Details α ω} {event : DetailEvent α}
    {done : Completion α} (from_server : FromServer server details) (answers : Answers server details event)
    (ok : details.react event = .ok (next, done)) : FromServer server next := by
  cases react_reaction ok with
  | delivered found saved =>
    have rows := (Store.saveAll_result details.store.opened_realm saved).2
    intro object stored
    rw [complete_store, rows, answers _ found] at stored
    rcases List.mem_append.mp stored with old | new
    · exact from_server object old
    · have offered : object ∈ objects (answer server _) := new
      rw [objects_answer] at offered
      exact (Keyed.mem_classRows.mp offered).1
  | _ => exact from_server

theorem freshSaves_iff_no_raise (details : Details α ω) (event : DetailEvent α) :
    details.FreshSaves event ↔
      ∀ abort, details.react event = .error abort → ∀ key, abort.reason ≠ .existingPrimaryKey key := by
  cases event with
  | appear view => exact iff_of_true (by simp [FreshSaves, saves]) (fun _ aborted => nomatch aborted)
  | timer ticket => exact iff_of_true (by simp [FreshSaves, saves]) (fun _ aborted => nomatch aborted)
  | response ticket reply =>
    cases found : details.pending.awaiting ticket with
    | none =>
      rw [respond_stray found]
      cases reply <;> simp [FreshSaves, saves, found]
    | some lookup =>
      cases reply with
      | none =>
        rw [respond_failed found]
        simp [FreshSaves, saves]
      | some values =>
        rw [freshSaves_delivery_iff found, respond_delivery found]
        rcases Store.saveAll_cases details.store.opened_realm values with
          ⟨saved, ok, _⟩ | ⟨_, _, _, _, _, raised, _⟩
        · simp [ok]
        · simp [raised]

theorem freshSaves_iff_landsOnAbsent {server : List α} {details : Details α ω} {event : DetailEvent α}
    (distinct : ((objects server : List ω).map RealmObject.primaryKey).Nodup)
    (from_server : FromServer server details) (answers : Answers server details event) :
    details.FreshSaves event ↔ details.LandsOnAbsent event := by
  cases event with
  | appear view => exact iff_of_true (by simp [FreshSaves, saves]) True.intro
  | timer ticket => exact iff_of_true (by simp [FreshSaves, saves]) True.intro
  | response ticket reply =>
    cases reply with
    | none => exact iff_of_true (by simp [FreshSaves, saves]) True.intro
    | some values =>
      cases found : details.pending.awaiting ticket with
      | none => simp [FreshSaves, saves, LandsOnAbsent, found]
      | some lookup =>
        have sent : values = answer server lookup.argument := answers lookup found
        subst sent
        have keys : ((answer server lookup.argument).map fun value =>
            RealmObject.primaryKey (Persistable.managedObject value : ω)).Nodup := by
          rw [objects, List.map_map] at distinct
          exact distinct.sublist (List.filter_sublist.map _)
        have rows : (∀ object ∈ Keyed.classRows DetailObject.owner lookup.argument (objects server),
            RealmObject.primaryKey object ∉ details.store.table.keys) ↔
              details.store.matching lookup.argument = [] :=
          Keyed.classRows_fresh_iff distinct from_server
        rw [← objects_answer, objects, List.forall_mem_map] at rows
        rw [freshSaves_delivery_iff found, Store.saveAll_ok_iff details.store.opened_realm]
        simp only [LandsOnAbsent, found, Option.mem_def, Option.some.injEq, forall_eq', keys, true_and]
        exact rows

end Details

structure DetailServer where
  users : List User
  comments : List Comment
  distinctUsers : (users.map User.id).Nodup
  distinctComments : (comments.map Comment.id).Nodup

namespace DetailsScene

def Each (users : Details User UserObject → DetailEvent User → Prop)
    (comments : Details Comment CommentObject → DetailEvent Comment → Prop) (scene : DetailsScene) :
    Event → Prop
  | .users event => users scene.users event
  | .comments event => comments scene.comments event

instance (users : Details User UserObject → DetailEvent User → Prop)
    (comments : Details Comment CommentObject → DetailEvent Comment → Prop)
    [∀ details event, Decidable (users details event)]
    [∀ details event, Decidable (comments details event)] (scene : DetailsScene) :
    ∀ event, Decidable (Each users comments scene event)
  | .users event => inferInstanceAs (Decidable (users scene.users event))
  | .comments event => inferInstanceAs (Decidable (comments scene.comments event))

def Answers (server : DetailServer) : DetailsScene → Event → Prop :=
  Each (Details.Answers server.users) (Details.Answers server.comments)

def FreshSaves : DetailsScene → Event → Prop := Each Details.FreshSaves Details.FreshSaves

def LandsOnAbsent : DetailsScene → Event → Prop := Each Details.LandsOnAbsent Details.LandsOnAbsent

/-- Everything stored is the server's, as in a new installation and in every cache filled since. -/
def FromServer (server : DetailServer) (scene : DetailsScene) : Prop :=
  Details.FromServer server.users scene.users ∧ Details.FromServer server.comments scene.comments

theorem distinct_users (server : DetailServer) :
    ((Details.objects server.users : List UserObject).map RealmObject.primaryKey).Nodup := by
  rw [Details.objects, List.map_map]
  exact server.distinctUsers

theorem distinct_comments (server : DetailServer) :
    ((Details.objects server.comments : List CommentObject).map RealmObject.primaryKey).Nodup := by
  rw [Details.objects, List.map_map]
  exact server.distinctComments

theorem fromServer_preserved {server : DetailServer} {scene next : DetailsScene} {event : Event}
    {done : Completions} (from_server : FromServer server scene) (answers : Answers server scene event)
    (ok : scene.handle event = .ok (next, done)) : FromServer server next := by
  cases event with
  | users event =>
    obtain ⟨users, completion, reacted, rfl, rfl⟩ := handle_users ok
    exact ⟨Details.fromServer_preserved from_server.1 answers reacted, from_server.2⟩
  | comments event =>
    obtain ⟨comments, completion, reacted, rfl, rfl⟩ := handle_comments ok
    exact ⟨from_server.1, Details.fromServer_preserved from_server.2 answers reacted⟩

theorem freshSaves_iff_no_raise (scene : DetailsScene) (event : Event) :
    scene.FreshSaves event ↔
      ∀ abort, scene.handle event = .error abort → ∀ key, abort.reason ≠ .existingPrimaryKey key := by
  cases event with
  | users event =>
    have aborts := abort_users scene event fun reason => ∀ key, reason ≠ .existingPrimaryKey key
    exact (Details.freshSaves_iff_no_raise scene.users event).trans aborts.symm
  | comments event =>
    have aborts := abort_comments scene event fun reason => ∀ key, reason ≠ .existingPrimaryKey key
    exact (Details.freshSaves_iff_no_raise scene.comments event).trans aborts.symm

theorem freshSaves_iff_landsOnAbsent {server : DetailServer} {scene : DetailsScene} {event : Event}
    (from_server : FromServer server scene) (answers : Answers server scene event) :
    scene.FreshSaves event ↔ scene.LandsOnAbsent event := by
  cases event with
  | users event =>
    exact Details.freshSaves_iff_landsOnAbsent (distinct_users server) from_server.1 answers
  | comments event =>
    exact Details.freshSaves_iff_landsOnAbsent (distinct_comments server) from_server.2 answers

/-- A run of detail loads executes only fresh saves, and raises no duplicate key, exactly when each
    list arrives while nothing is stored for the user or the post it was asked for. -/
theorem detail_loads_fresh_iff (server : DetailServer) (scene : DetailsScene)
    (from_server : FromServer server scene) (events : List Event)
    (answers : Along handle (Answers server) scene events) :
    (Along handle FreshSaves scene events ↔ Along handle LandsOnAbsent scene events) ∧
    ((∀ abort, run handle scene events = .error abort → ∀ key, abort.reason ≠ .existingPrimaryKey key) ↔
      Along handle LandsOnAbsent scene events) := by
  have lands : Along handle FreshSaves scene events ↔ Along handle LandsOnAbsent scene events :=
    along_iff_of_invariant (fun _ _ _ _ stored sent _ ok => fromServer_preserved stored sent ok)
      (fun _ _ stored sent => freshSaves_iff_landsOnAbsent stored sent) from_server answers
  have raises : Along handle FreshSaves scene events ↔
      ∀ abort, run handle scene events = .error abort → ∀ key, abort.reason ≠ .existingPrimaryKey key := by
    rw [run_error_iff]
    exact along_iff_of_invariant (fun _ _ _ _ stored sent _ ok => fromServer_preserved stored sent ok)
      (fun state event _ _ => freshSaves_iff_no_raise state event) from_server answers
  exact ⟨lands, raises.symm.trans lands⟩

def author : User := ⟨1, "", "", "", ""⟩

def sampleServer : DetailServer where
  users := [author]
  comments := [⟨1, 7, "", "", ""⟩, ⟨2, 8, "", "", ""⟩, ⟨3, 7, "", "", ""⟩]
  distinctUsers := by decide
  distinctComments := by decide

/-- A new installation; every post is by user 1, and the even views show post 8, the odd ones 7. -/
def newInstallation : DetailsScene :=
  launch .empty .empty (fun _ => 1) fun view => if view % 2 = 0 then 8 else 7

def sameAuthor : List Event :=
  [.users (.appear 0), .users (.appear 1), .users (.timer 0), .users (.timer 1),
    .users (.response 0 (some [author])), .users (.response 1 (some [author]))]

def laterPost : List Event :=
  [.users (.appear 0), .comments (.appear 0), .comments (.appear 1), .users (.timer 0),
    .comments (.timer 1), .users (.response 0 (some [author])), .users (.appear 1),
    .comments (.response 1 (some (Details.answer sampleServer.comments 7))), .comments (.timer 0),
    .comments (.response 0 (some (Details.answer sampleServer.comments 8)))]

theorem newInstallation_fromServer : FromServer sampleServer newInstallation := by
  apply And.intro
  · intro object stored
    cases stored
  · intro object stored
    cases stored

theorem detail_loads_fresh_later_post :
    Along handle FreshSaves newInstallation laterPost ∧
      ∀ abort, run handle newInstallation laterPost = .error abort →
        ∀ key, abort.reason ≠ .existingPrimaryKey key := by
  have answers : Along handle (Each (Details.Answers sampleServer.users)
      (Details.Answers sampleServer.comments)) newInstallation laterPost := by decide +kernel
  have lands : Along handle (Each Details.LandsOnAbsent Details.LandsOnAbsent)
      newInstallation laterPost := by decide +kernel
  have both := detail_loads_fresh_iff sampleServer newInstallation newInstallation_fromServer laterPost
    answers
  exact ⟨both.1.mpr lands, both.2.mpr lands⟩

theorem detail_loads_same_author_raises :
    FromServer sampleServer newInstallation ∧
      Along handle (Answers sampleServer) newInstallation sameAuthor ∧
      ∃ tables, run handle newInstallation sameAuthor = .error ⟨.existingPrimaryKey 1, tables⟩ := by
  have answers : Along handle (Each (Details.Answers sampleServer.users)
      (Details.Answers sampleServer.comments)) newInstallation sameAuthor := by decide +kernel
  exact ⟨newInstallation_fromServer, answers, _, rfl⟩

end DetailsScene

end ZemogaSocial
