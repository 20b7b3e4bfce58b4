import ZemogaSocial.Scenes.PostsScene

namespace ZemogaSocial

/-- `post` is the snapshot that the list handed over; the screen never loads it again. -/
structure PostDetailView where
  isFavorite : Bool := false
  post : Post

namespace PostDetailView

def markAsRead (view : PostDetailView) (store : PostStore) : PostStore :=
  store.markAsRead view.post.managedObject

def onAppear (view : PostDetailView) (store : PostStore) : PostDetailView × PostStore :=
  let store := view.markAsRead store
  ({ view with isFavorite := view.post.isFavorite }, store)

def markAsFavorite (view : PostDetailView) (store : PostStore) : PostDetailView × PostStore :=
  let view := { view with isFavorite := !view.post.isFavorite }
  (view, store.setFavorite view.post.managedObject view.isFavorite)

end PostDetailView

structure PostDetailScene where
  store : PostStore
  detail : PostDetailView

namespace PostDetailScene

inductive Event where
  | appear
  | star
  deriving DecidableEq, Repr

def appear (scene : PostDetailScene) : PostDetailScene :=
  let (detail, store) := scene.detail.onAppear scene.store
  { scene with detail, store }

def tapStar (scene : PostDetailScene) : PostDetailScene :=
  let (detail, store) := scene.detail.markAsFavorite scene.store
  { scene with detail, store }

def handle (scene : PostDetailScene) :
    Event → Except (Abort (Rows PostObject)) (PostDetailScene × Unit)
  | .appear => .ok (scene.appear, ())
  | .star => .ok (scene.tapStar, ())

/-- What the handlers are to the two lists that share the store. -/
def written (scene : PostDetailScene) : Event → PostsScene.Event
  | .appear => .markAsRead scene.detail.post
  | .star => .setFavorite scene.detail.post !scene.detail.post.isFavorite

theorem handle_written {scene next : PostDetailScene} {event : Event} {done : Unit} {posts : PostsScene}
    (shared : posts.store = scene.store) (ok : scene.handle event = .ok (next, done)) :
    posts.handle (scene.written event) = .ok ({ posts with store := next.store }, none) := by
  cases event with
  | appear =>
    cases ok
    rw [written, PostsScene.handle, shared]
    rfl
  | star =>
    cases ok
    rw [written, PostsScene.handle, shared]
    rfl

/-- The favourite marks stored for the post of the screen, of which there is one if it is stored. -/
def storedStars (scene : PostDetailScene) : List Bool :=
  (scene.store.table.rows.filter fun object => object.id == scene.detail.post.id).map PostObject.isFavorite

theorem storedStars_appear (scene : PostDetailScene) : scene.appear.storedStars = scene.storedStars := by
  have rows := PostStore.markAsRead_filter scene.store scene.detail.post.managedObject
  have stars := congrArg (List.map PostObject.isFavorite) rows
  rw [List.map_map] at stars
  exact stars

theorem storedStars_tapStar (scene : PostDetailScene) :
    scene.tapStar.storedStars = scene.storedStars.map fun _ => !scene.detail.post.isFavorite := by
  have rows := PostStore.setFavorite_filter scene.store scene.detail.post.managedObject
    !scene.detail.post.isFavorite
  have stars := congrArg (List.map PostObject.isFavorite) rows
  have before : scene.storedStars.map (fun _ => !scene.detail.post.isFavorite) =
      (scene.store.table.rows.filter fun object => object.id == scene.detail.post.id).map
        fun _ => !scene.detail.post.isFavorite := by
    rw [storedStars, List.map_map]
    rfl
  rw [List.map_map] at stars
  rw [before]
  exact stars

end PostDetailScene

end ZemogaSocial
