import ZemogaSocial.Scenes.DetailsReactions
import ZemogaSocial.Scenes.PostDetailScene
import ZemogaSocial.Scenes.PostsReactions

namespace ZemogaSocial

open Transition

/-- The two tabs, and the detail screens that their rows open. The `UserView` and the `CommentView`
    of a screen have its number in `details`. -/
structure HomeView where
  posts : PostsScene
  details : DetailsScene
  screens : Nat → PostDetailView

namespace HomeView

/-- A tab brings about no mark of its own: these are the screens'. -/
inductive Event where
  | lists (event : PostsScene.Event)
  | appear (screen : Nat)
  | star (screen : Nat)
  | details (event : DetailsScene.Event)

structure Completions where
  posts : PostsScene.Completion := none
  details : DetailsScene.Completions := ⟨none, none⟩

structure Tables where
  posts : Rows PostObject
  users : Rows UserObject
  comments : Rows CommentObject

def tables (home : HomeView) : Tables :=
  ⟨home.posts.store.table, home.details.users.store.table, home.details.comments.store.table⟩

/-- What a handler of the screen does to the screen and to the store of the tabs. -/
def onScreen (home : HomeView) (screen : Nat) (act : PostDetailView → PostStore → PostDetailView × PostStore) :
    HomeView :=
  let (view, store) := act (home.screens screen) home.posts.store
  { home with posts := { home.posts with store }, screens := Function.update home.screens screen view }

def handle (home : HomeView) : Event → Except (Abort Tables) (HomeView × Completions)
  | .lists event =>
    match home.posts.handle event with
    | .ok (posts, done) => .ok ({ home with posts }, { posts := done })
    | .error abort => .error ⟨abort.reason, { home.tables with posts := abort.durable }⟩
  | .appear screen => .ok (home.onScreen screen PostDetailView.onAppear, {})
  | .star screen => .ok (home.onScreen screen PostDetailView.markAsFavorite, {})
  | .details event =>
    match home.details.handle event with
    | .ok (details, done) => .ok ({ home with details }, { details := done })
    | .error abort => .error ⟨abort.reason, home.posts.store.table, abort.durable.1, abort.durable.2⟩

/-- The screens are opened from rows, and their views get the ids of the row's post. -/
structure Matched (home : HomeView) : Prop where
  userIDs : ∀ screen, home.details.users.argument screen = (home.screens screen).post.userID
  postIds : ∀ screen, home.details.comments.argument screen = (home.screens screen).post.id

/-- A process on the stored tables; `opened` are the posts of the screens it will open. -/
def launch (stored : Tables) (opened : Nat → Post) : HomeView where
  posts := .launch stored.posts
  details := .launch stored.users stored.comments (fun n => (opened n).userID) fun n => (opened n).id
  screens n := { post := opened n }

theorem launch_matched (stored : Tables) (opened : Nat → Post) : (launch stored opened).Matched :=
  ⟨fun _ => rfl, fun _ => rfl⟩

/-- All that one handler can do when it does not abort. -/
inductive Reaction (home : HomeView) : Event → HomeView → Completions → Prop where
  | lists {event : PostsScene.Event} {posts : PostsScene} {done : PostsScene.Completion}
      (ok : home.posts.handle event = .ok (posts, done)) :
      Reaction home (.lists event) { home with posts } { posts := done }
  | appeared (screen : Nat) : Reaction home (.appear screen) { home with
      posts := { home.posts with
        store := home.posts.store.markAsRead (home.screens screen).post.managedObject }
      screens := Function.update home.screens screen { home.screens screen with
        isFavorite := (home.screens screen).post.isFavorite } } {}
  | starred (screen : Nat) : Reaction home (.star screen) { home with
      posts := { home.posts with
        store := home.posts.store.setFavorite (home.screens screen).post.managedObject
          !(home.screens screen).post.isFavorite }
      screens := Function.update home.screens screen { home.screens screen with
        isFavorite := !(home.screens screen).post.isFavorite } } {}
  | details {event : DetailsScene.Event} {details : DetailsScene} {done : DetailsScene.Completions}
      (ok : home.details.handle event = .ok (details, done)) :
      Reaction home (.details event) { home with details } { details := done }

theorem handle_reaction {home next : HomeView} {event : Event} {done : Completions}
    (ok : home.handle event = .ok (next, done)) : Reaction home event next done := by
  cases event with
  | lists event =>
    rw [handle] at ok
    cases handled : home.posts.handle event with
    | error abort =>
      rw [handled] at ok
      cases ok
    | ok result =>
      rw [handled] at ok
      cases ok
      exact .lists handled
  | appear screen =>
    cases ok
    exact .appeared screen
  | star screen =>
    cases ok
    exact .starred screen
  | details event =>
    rw [handle] at ok
    cases handled : home.details.handle event with
    | error abort =>
      rw [handled] at ok
      cases ok
    | ok result =>
      rw [handled] at ok
      cases ok
      exact .details handled

/-- What an event is to the two lists. -/
def written (home : HomeView) : Event → Option PostsScene.Event
  | .lists event => some event
  | .appear screen => some (.markAsRead (home.screens screen).post)
  | .star screen => some (.setFavorite (home.screens screen).post !(home.screens screen).post.isFavorite)
  | .details _ => none

theorem handle_written {home next : HomeView} {event : Event} {done : Completions}
    (ok : home.handle event = .ok (next, done)) :
    (home.written event = none ∧ next.posts = home.posts) ∨
      ∃ mark, home.written event = some mark ∧ home.posts.handle mark = .ok (next.posts, done.posts) := by
  cases handle_reaction ok with
  | lists handled => exact .inr ⟨_, rfl, handled⟩
  | appeared screen => exact .inr ⟨_, rfl, rfl⟩
  | starred screen => exact .inr ⟨_, rfl, rfl⟩
  | details handled => exact .inl ⟨rfl, rfl⟩

theorem screens_post {home next : HomeView} {event : Event} {done : Completions}
    (ok : home.handle event = .ok (next, done)) (screen : Nat) :
    (next.screens screen).post = (home.screens screen).post := by
  cases handle_reaction ok with
  | lists handled => rfl
  | details handled => rfl
  | appeared number =>
    by_cases same : screen = number
    · subst same
      simp
    · simp [same]
  | starred number =>
    by_cases same : screen = number
    · subst same
      simp
    · simp [same]

end HomeView

end ZemogaSocial
