import ZemogaSocial.Network.DataRequest
import ZemogaSocial.Scenes.Screen
import ZemogaSocial.Transition.Pending
import ZemogaSocial.Transition.Run

namespace ZemogaSocial

open Transition

abbrev PostsView := Screen Post
abbrev FavoritesView := Screen Post

namespace PostsView

def loaded (view : PostsView) (retrievedPosts : Option (List Post)) : PostsView :=
  Screen.loaded view id retrievedPosts

/-- The loop that collects the objects to delete; an index past the end traps. -/
def postsAt (posts : List Post) : List Nat → Except AbortReason (List PostObject)
  | [] => .ok []
  | i :: rest =>
    match posts[i]?, postsAt posts rest with
    | none, _ => .error (.indexOutOfRange i)
    | some _, .error reason => .error reason
    | some post, .ok postsToDelete => .ok (post.managedObject :: postsToDelete)

def deletePost (view : PostsView) (store : PostStore) (offsets : IndexSet) :
    Except (Abort (Rows PostObject)) (PostsView × PostStore) :=
  match postsAt view.shown offsets.indices with
  | .error reason => .error ⟨reason, store.table⟩
  | .ok postsToDelete =>
    let (store, deleted) := store.delete postsToDelete
    if deleted then .ok ({ view with shown := offsets.removeFrom view.shown }, store)
    else .ok (view, store)

def deleteAll (view : PostsView) (store : PostStore) : PostsView × PostStore :=
  ({ view with shown := [] }, store.deleteAll.1)

end PostsView

namespace FavoritesView

def filterFavorites (posts : List Post) : List Post := posts.filter fun post => post.isFavorite

def loaded (view : FavoritesView) (retrievedPosts : Option (List Post)) : FavoritesView :=
  Screen.loaded view filterFavorites retrievedPosts

end FavoritesView

inductive Owner where
  | postsView
  | favoritesView
  deriving DecidableEq, Repr

/-- The two tabs over the posts table, and the `getPosts` calls that have not completed. -/
structure PostsScene where
  store : PostStore
  pending : Pending Owner
  postsView : PostsView
  favoritesView : FavoritesView

namespace PostsScene

abbrev Completion := Option (Owner × Option (List Post))

inductive Event where
  | appear (owner : Owner)
  | reload
  | timer (ticket : Nat)
  | response (ticket : Nat) (reply : Option (List PostJSON))
  | deletePost (offsets : IndexSet)
  | deleteAll
  | markAsRead (post : Post)
  | setFavorite (post : Post) (isFavorite : Bool)

def launch (table : Rows PostObject) : PostsScene := ⟨⟨false, table⟩, .none, {}, {}⟩

def screen (scene : PostsScene) : Owner → Screen Post
  | .postsView => scene.postsView
  | .favoritesView => scene.favoritesView

def complete (scene : PostsScene) (owner : Owner) (retrieved : Option (List Post)) : PostsScene :=
  match owner with
  | .postsView => { scene with postsView := scene.postsView.loaded retrieved }
  | .favoritesView => { scene with favoritesView := FavoritesView.loaded scene.favoritesView retrieved }

def loadData (scene : PostsScene) (owner : Owner) : PostsScene × Completion :=
  let (store, cached) := DataRequest.getPosts scene.store
  match cached with
  | some posts => ({ scene with store }.complete owner (some posts), some (owner, some posts))
  | none => ({ scene with store, pending := scene.pending.issue owner }, none)

/-- The network closure of the call with this ticket, if one waits for it. -/
def respond (scene : PostsScene) (ticket : Nat) (reply : Option (List PostJSON)) :
    Except (Abort (Rows PostObject)) (PostsScene × Completion) :=
  match scene.pending.awaiting ticket with
  | none => .ok (scene, none)
  | some owner =>
    match DataRequest.receivePosts scene.store reply with
    | .error abort => .error abort
    | .ok (store, retrieved) =>
      .ok ({ scene with store, pending := scene.pending.settle ticket }.complete owner retrieved,
        some (owner, retrieved))

def deletePost (scene : PostsScene) (offsets : IndexSet) : Except (Abort (Rows PostObject)) PostsScene :=
  match scene.postsView.deletePost scene.store offsets with
  | .error abort => .error abort
  | .ok (postsView, store) => .ok { scene with postsView, store }

def handle (scene : PostsScene) : Event → Except (Abort (Rows PostObject)) (PostsScene × Completion)
  | .appear owner => .ok (scene.loadData owner)
  | .reload => .ok ({ scene with postsView := { scene.postsView with isLoading := true } }.loadData .postsView)
  | .timer ticket => .ok ({ scene with pending := scene.pending.fire ticket }, none)
  | .response ticket reply => scene.respond ticket reply
  | .deletePost offsets => (scene.deletePost offsets).map fun next => (next, none)
  | .deleteAll =>
    let (postsView, store) := scene.postsView.deleteAll scene.store
    .ok ({ scene with postsView, store }, none)
  | .markAsRead post => .ok ({ scene with store := scene.store.markAsRead post.managedObject }, none)
  | .setFavorite post isFavorite =>
    .ok ({ scene with store := scene.store.setFavorite post.managedObject isFavorite }, none)

end PostsScene

end ZemogaSocial
