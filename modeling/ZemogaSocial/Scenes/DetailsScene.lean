import Mathlib.Logic.Function.Basic
import ZemogaSocial.Network.DataRequest
import ZemogaSocial.Scenes.Screen
import ZemogaSocial.Transition.Pending
import ZemogaSocial.Transition.Run

namespace ZemogaSocial

open Transition

/-- A `UserView` with its `userID`, or a `CommentView` with its `postId`. -/
structure DetailView (α : Type) where
  argument : Int64
  screen : Screen α := {}

structure Lookup where
  view : Nat
  argument : Int64
  deriving DecidableEq, Repr

inductive DetailEvent (α : Type) where
  | appear (view : Nat)
  | timer (ticket : Nat)
  | response (ticket : Nat) (reply : Option (List α))

/-- One table, the calls over it that have not completed, and the views that were ever opened. -/
structure Details (α ω : Type) [RealmObject ω] where
  store : Store ω
  pending : Pending Lookup
  views : Nat → DetailView α

namespace Details

variable {α ω : Type} [RealmObject ω]

abbrev Completion (α : Type) := Option (Lookup × Option (List α))

def complete (details : Details α ω) (view : Nat) (retrieved : Option (List α)) : Details α ω :=
  let shown := (details.views view).screen.loaded id retrieved
  { details with views := Function.update details.views view { details.views view with screen := shown } }

def load (get : Store ω → Int64 → Store ω × Option (List α)) (details : Details α ω) (view : Nat) :
    Details α ω × Completion α :=
  let argument := (details.views view).argument
  let (store, cached) := get details.store argument
  match cached with
  | some values =>
    ({ details with store }.complete view (some values), some (⟨view, argument⟩, some values))
  | none => ({ details with store, pending := details.pending.issue ⟨view, argument⟩ }, none)

def respond (receive : Store ω → Option (List α) → Except (Abort (Rows ω)) (Store ω × Option (List α)))
    (details : Details α ω) (ticket : Nat) (reply : Option (List α)) :
    Except (Abort (Rows ω)) (Details α ω × Completion α) :=
  match details.pending.awaiting ticket with
  | none => .ok (details, none)
  | some lookup =>
    match receive details.store reply with
    | .error abort => .error abort
    | .ok (store, retrieved) =>
      .ok ({ details with store, pending := details.pending.settle ticket }.complete lookup.view retrieved,
        some (lookup, retrieved))

def handle (load : Details α ω → Nat → Details α ω × Completion α)
    (receive : Store ω → Option (List α) → Except (Abort (Rows ω)) (Store ω × Option (List α)))
    (details : Details α ω) : DetailEvent α → Except (Abort (Rows ω)) (Details α ω × Completion α)
  | .appear view => .ok (load details view)
  | .timer ticket => .ok ({ details with pending := details.pending.fire ticket }, none)
  | .response ticket reply => respond receive details ticket reply

@[simp] theorem complete_store (details : Details α ω) (view : Nat) (retrieved : Option (List α)) :
    (details.complete view retrieved).store = details.store := rfl

@[simp] theorem complete_pending (details : Details α ω) (view : Nat) (retrieved : Option (List α)) :
    (details.complete view retrieved).pending = details.pending := rfl

end Details

namespace UserView

def loadUsers (details : Details User UserObject) (view : Nat) :
    Details User UserObject × Details.Completion User := Details.load DataRequest.getUsers details view

def handle (details : Details User UserObject) (event : DetailEvent User) :
    Except (Abort (Rows UserObject)) (Details User UserObject × Details.Completion User) :=
  details.handle loadUsers DataRequest.receiveUsers event

end UserView

namespace CommentView

def loadComments (details : Details Comment CommentObject) (view : Nat) :
    Details Comment CommentObject × Details.Completion Comment :=
  Details.load DataRequest.getComments details view

def handle (details : Details Comment CommentObject) (event : DetailEvent Comment) :
    Except (Abort (Rows CommentObject)) (Details Comment CommentObject × Details.Completion Comment) :=
  details.handle loadComments DataRequest.receiveComments event

end CommentView

structure DetailsScene where
  users : Details User UserObject
  comments : Details Comment CommentObject

namespace DetailsScene

inductive Event where
  | users (event : DetailEvent User)
  | comments (event : DetailEvent Comment)

structure Completions where
  users : Details.Completion User
  comments : Details.Completion Comment

def launch (users : Rows UserObject) (comments : Rows CommentObject) (userIDs postIds : Nat → Int64) :
    DetailsScene where
  users := ⟨⟨false, users⟩, .none, fun view => { argument := userIDs view }⟩
  comments := ⟨⟨false, comments⟩, .none, fun view => { argument := postIds view }⟩

def handle (scene : DetailsScene) :
    Event → Except (Abort (Rows UserObject × Rows CommentObject)) (DetailsScene × Completions)
  | .users event =>
    match UserView.handle scene.users event with
    | .ok (users, completion) => .ok ({ scene with users }, ⟨completion, none⟩)
    | .error abort => .error ⟨abort.reason, abort.durable, scene.comments.store.table⟩
  | .comments event =>
    match CommentView.handle scene.comments event with
    | .ok (comments, completion) => .ok ({ scene with comments }, ⟨none, completion⟩)
    | .error abort => .error ⟨abort.reason, scene.users.store.table, abort.durable⟩

end DetailsScene

end ZemogaSocial
