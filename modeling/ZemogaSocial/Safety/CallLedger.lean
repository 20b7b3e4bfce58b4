import ZemogaSocial.Scenes.HomeScene
import ZemogaSocial.Transition.Ledger

namespace ZemogaSocial

open Transition

namespace PostsScene

def Event.ticket : Event → Option Nat
  | .response ticket _ => some ticket
  | _ => none

/-- The tabs ask by appearing or by the reload button, and their completion closures are told. -/
def requests : Requests PostsScene Event Completion Owner where
  calls := PostsScene.pending
  asks := fun _ event => event.starts
  ticket := Event.ticket
  told := fun done => done.map Prod.fst

theorem readied_pending (scene : PostsScene) (event : Event) :
    (scene.readied event).pending = scene.pending := by cases event <;> rfl

theorem handle_served (scene : PostsScene) (event : Event) (next : PostsScene) (done : Completion)
    (ok : scene.handle event = .ok (next, done)) : requests.Served ⟨scene, event, done⟩ next := by
  cases handle_reaction ok with
  | hit starts stored =>
    have unbidden : event.ticket = none := by
      cases event <;> first | rfl | cases starts
    refine .atOnce _ starts rfl unbidden ?_
    exact (complete_pending ..).trans (readied_pending scene event)
  | miss starts empty => exact .waits _ starts rfl rfl
  | timer ticket => exact .quiet rfl rfl (Pending.entries_fire scene.pending ticket) rfl
  | stray unknown => exact .quiet rfl rfl rfl rfl
  | failed found => exact .answered _ _ rfl rfl rfl found (complete_pending ..)
  | delivered found long rows => exact .answered _ _ rfl rfl rfl found (complete_pending ..)
  | deleted ids => exact .quiet rfl rfl rfl rfl
  | cleared => exact .quiet rfl rfl rfl rfl
  | read post => exact .quiet rfl rfl rfl rfl
  | starred post isFavorite => exact .quiet rfl rfl rfl rfl

end PostsScene

namespace Details

variable {α ω : Type} [RealmObject ω] [DetailObject ω] [Persistable α ω]

def asks (details : Details α ω) : DetailEvent α → Option Lookup
  | .appear view => some ⟨view, details.argument view⟩
  | _ => none

def ticket : DetailEvent α → Option Nat
  | .response ticket _ => some ticket
  | _ => none

def requests : Requests (Details α ω) (DetailEvent α) (Completion α) Lookup where
  calls := Details.pending
  asks := asks
  ticket := ticket
  told := fun done => done.map Prod.fst

theorem react_served (details : Details α ω) (event : DetailEvent α) (next : Details α ω)
    (done : Completion α) (ok : details.react event = .ok (next, done)) :
    requests.Served ⟨details, event, done⟩ next := by
  cases react_reaction ok with
  | hit stored => exact .atOnce _ rfl rfl rfl rfl
  | miss absent => exact .waits _ rfl rfl rfl
  | timer ticket => exact .quiet rfl rfl (Pending.entries_fire details.pending ticket) rfl
  | stray unknown => exact .quiet rfl rfl rfl rfl
  | failed found => exact .answered _ _ rfl rfl rfl found rfl
  | delivered found saved => exact .answered _ _ rfl rfl rfl found rfl

end Details

namespace HomeView

def ofLists : Event → Option PostsScene.Event
  | .lists event => some event
  | _ => none

def ofUsers : Event → Option (DetailEvent User)
  | .details (.users event) => some event
  | _ => none

def ofComments : Event → Option (DetailEvent Comment)
  | .details (.comments event) => some event
  | _ => none

def postRequests : Requests HomeView Event Completions Owner :=
  PostsScene.requests.within HomeView.posts ofLists fun done => some done.posts

def userRequests : Requests HomeView Event Completions Lookup :=
  Details.requests.within (fun home => home.details.users) ofUsers fun done => some done.details.users

def commentRequests : Requests HomeView Event Completions Lookup :=
  Details.requests.within (fun home => home.details.comments) ofComments fun done => some done.details.comments

theorem posts_served (home : HomeView) (event : Event) (next : HomeView) (done : Completions)
    (ok : home.handle event = .ok (next, done)) : postRequests.Served ⟨home, event, done⟩ next := by
  cases handle_reaction ok with
  | lists handled => exact (PostsScene.handle_served _ _ _ _ handled).within rfl rfl
  | appeared screen => exact Requests.served_elsewhere rfl rfl rfl
  | starred screen => exact Requests.served_elsewhere rfl rfl rfl
  | details handled => exact Requests.served_elsewhere rfl rfl rfl

theorem users_served (home : HomeView) (event : Event) (next : HomeView) (done : Completions)
    (ok : home.handle event = .ok (next, done)) : userRequests.Served ⟨home, event, done⟩ next := by
  cases handle_reaction ok with
  | lists handled => exact Requests.served_elsewhere rfl rfl rfl
  | appeared screen => exact Requests.served_elsewhere rfl rfl rfl
  | starred screen => exact Requests.served_elsewhere rfl rfl rfl
  | details handled =>
    rename_i event _ _
    cases event with
    | users event =>
      obtain ⟨users, completion, reacted, rfl, rfl⟩ := DetailsScene.handle_users handled
      exact (Details.react_served _ _ _ _ reacted).within rfl rfl
    | comments event =>
      obtain ⟨comments, completion, reacted, rfl, rfl⟩ := DetailsScene.handle_comments handled
      exact Requests.served_elsewhere rfl rfl rfl

theorem comments_served (home : HomeView) (event : Event) (next : HomeView) (done : Completions)
    (ok : home.handle event = .ok (next, done)) : commentRequests.Served ⟨home, event, done⟩ next := by
  cases handle_reaction ok with
  | lists handled => exact Requests.served_elsewhere rfl rfl rfl
  | appeared screen => exact Requests.served_elsewhere rfl rfl rfl
  | starred screen => exact Requests.served_elsewhere rfl rfl rfl
  | details handled =>
    rename_i event _ _
    cases event with
    | users event =>
      obtain ⟨users, completion, reacted, rfl, rfl⟩ := DetailsScene.handle_users handled
      exact Requests.served_elsewhere rfl rfl rfl
    | comments event =>
      obtain ⟨comments, completion, reacted, rfl, rfl⟩ := DetailsScene.handle_comments handled
      exact (Details.react_served _ _ _ _ reacted).within rfl rfl

/-- In every order of events of the whole process, each call of the three loads is completed once, by
    its own response and for the tab or the screen that made it, or is outstanding; and each load
    runs one completion, or waits for it. -/
theorem loads_told_once (home final : HomeView) (events : List Event)
    (completed : run handle home events = .ok final) :
    postRequests.Ledger home final (steps handle home events) ∧
      userRequests.Ledger home final (steps handle home events) ∧
      commentRequests.Ledger home final (steps handle home events) :=
  ⟨postRequests.ledger_run posts_served completed, userRequests.ledger_run users_served completed,
    commentRequests.ledger_run comments_served completed⟩

def overlapping : List Event :=
  [.lists (.appear .postsView), .details (.users (.appear 3)), .lists .reload, .lists (.timer 1),
    .details (.users (.timer 0)), .lists (.response 1 none), .details (.users (.response 0 (some []))),
    .lists (.response 1 none), .details (.comments (.appear 3)), .details (.comments (.timer 0)),
    .details (.comments (.response 0 none)), .details (.comments (.appear 3))]

def firstLaunch : HomeView := launch ⟨.empty, .empty, .empty⟩ fun _ => ⟨1, 1, "", "", false, false⟩

theorem loads_told_once_overlapping : ∃ final, run handle firstLaunch overlapping = .ok final ∧
    postRequests.Ledger firstLaunch final (steps handle firstLaunch overlapping) ∧
    userRequests.Ledger firstLaunch final (steps handle firstLaunch overlapping) ∧
    commentRequests.Ledger firstLaunch final (steps handle firstLaunch overlapping) := by
  have completes : ∃ final, run handle firstLaunch overlapping = .ok final := ⟨_, rfl⟩
  obtain ⟨final, completed⟩ := completes
  exact ⟨final, completed, loads_told_once _ final overlapping completed⟩

end HomeView

end ZemogaSocial
