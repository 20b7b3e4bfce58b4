import ZemogaSocial.Keyed.Classes
import ZemogaSocial.Scenes.DetailsScene

namespace ZemogaSocial

open Transition

/-- The column that the query of a detail screen compares with its argument. -/
class DetailObject (ω : Type) where
  owner : ω → Int64

instance : DetailObject UserObject := ⟨UserObject.id⟩
instance : DetailObject CommentObject := ⟨CommentObject.postId⟩

def Store.matching {ω : Type} [RealmObject ω] [DetailObject ω] (store : Store ω) (argument : Int64) : List ω :=
  Keyed.classRows DetailObject.owner argument store.table.rows

namespace Details

variable {α ω : Type} [RealmObject ω] [DetailObject ω] [Persistable α ω]

/-- `getUsers` and `getComments` differ in the column they compare only. -/
def getMatching (store : Store ω) (argument : Int64) : Store ω × Option (List α) :=
  (store.opened, DataRequest.cacheHit (some ((store.matching argument).map Persistable.ofManaged)))

def react (details : Details α ω) (event : DetailEvent α) :
    Except (Abort (Rows ω)) (Details α ω × Completion α) :=
  details.handle (load getMatching) (DataRequest.receive Store.saveAll) event

theorem userView_handle : UserView.handle = react := rfl

theorem commentView_handle : CommentView.handle = react := rfl

def argument (details : Details α ω) (view : Nat) : Int64 := (details.views view).argument

def storedValues (details : Details α ω) (argument : Int64) : List α :=
  (details.store.matching argument).map Persistable.ofManaged

theorem load_hit {details : Details α ω} {view : Nat}
    (stored : details.store.matching (details.argument view) ≠ []) :
    details.load getMatching view =
      ({ details with store := details.store.opened }.complete view
        (some (details.storedValues (details.argument view))),
        some (⟨view, details.argument view⟩, some (details.storedValues (details.argument view)))) := by
  have values : details.storedValues (details.argument view) ≠ [] :=
    fun none => stored (List.map_eq_nil_iff.mp none)
  have hit : getMatching details.store (details.argument view) =
      (details.store.opened, some (details.storedValues (details.argument view))) :=
    congrArg (Prod.mk details.store.opened) (DataRequest.cacheHit_cons values)
  unfold load
  simp only [argument] at hit ⊢
  rw [hit]

theorem load_miss {details : Details α ω} {view : Nat}
    (absent : details.store.matching (details.argument view) = []) :
    details.load getMatching view = ({ details with
      store := details.store.opened
      pending := details.pending.issue ⟨view, details.argument view⟩ }, none) := by
  have miss : (getMatching details.store (details.argument view) : Store ω × Option (List α)) =
      (details.store.opened, none) := by
    unfold getMatching
    rw [absent]
    rfl
  unfold load
  simp only [argument] at miss ⊢
  rw [miss]

theorem respond_failed {details : Details α ω} {ticket : Nat} {lookup : Lookup}
    (found : details.pending.awaiting ticket = some lookup) :
    details.react (.response ticket none) = .ok
      ({ details with pending := details.pending.settle ticket }.complete lookup.view none,
        some (lookup, none)) := by
  simp only [react, handle, respond, found, DataRequest.receive]

theorem respond_delivery {details : Details α ω} {ticket : Nat} {lookup : Lookup} {values : List α}
    (found : details.pending.awaiting ticket = some lookup) :
    details.react (.response ticket (some values)) = match details.store.opened.saveAll values with
      | .ok store => .ok
        ({ details with store, pending := details.pending.settle ticket }.complete lookup.view (some values),
          some (lookup, some values))
      | .error abort => .error abort := by
  simp only [react, handle, respond, found, DataRequest.receive, DataRequest.saveAndDeliver]
  cases details.store.opened.saveAll values <;> rfl

theorem respond_stray {details : Details α ω} {ticket : Nat} {reply : Option (List α)}
    (unknown : details.pending.awaiting ticket = none) :
    details.react (.response ticket reply) = .ok (details, none) := by
  simp only [react, handle, respond, unknown]

inductive Reaction (details : Details α ω) : DetailEvent α → Details α ω → Completion α → Prop where
  | hit {view : Nat} (stored : details.store.matching (details.argument view) ≠ []) :
      Reaction details (.appear view)
        ({ details with store := details.store.opened }.complete view
          (some (details.storedValues (details.argument view))))
        (some (⟨view, details.argument view⟩, some (details.storedValues (details.argument view))))
  | miss {view : Nat} (absent : details.store.matching (details.argument view) = []) :
      Reaction details (.appear view) { details with
        store := details.store.opened
        pending := details.pending.issue ⟨view, details.argument view⟩ } none
  | timer (ticket : Nat) :
      Reaction details (.timer ticket) { details with pending := details.pending.fire ticket } none
  | stray {ticket : Nat} {reply : Option (List α)} (unknown : details.pending.awaiting ticket = none) :
      Reaction details (.response ticket reply) details none
  | failed {ticket : Nat} {lookup : Lookup} (found : details.pending.awaiting ticket = some lookup) :
      Reaction details (.response ticket none)
        ({ details with pending := details.pending.settle ticket }.complete lookup.view none)
        (some (lookup, none))
  | delivered {ticket : Nat} {lookup : Lookup} {values : List α} {store : Store ω}
      (found : details.pending.awaiting ticket = some lookup)
      (saved : details.store.opened.saveAll values = .ok store) :
      Reaction details (.response ticket (some values))
        ({ details with store, pending := details.pending.settle ticket }.complete lookup.view (some values))
        (some (lookup, some values))

theorem react_reaction {details next : Details α ω} {event : DetailEvent α} {done : Completion α}
    (ok : details.react event = .ok (next, done)) : Reaction details event next done := by
  cases event with
  | appear view =>
    have loaded : details.load getMatching view = (next, done) := Except.ok.inj ok
    by_cases absent : details.store.matching (details.argument view) = []
    · rw [load_miss absent] at loaded
      cases loaded
      exact .miss absent
    · rw [load_hit absent] at loaded
      cases loaded
      exact .hit absent
  | timer ticket =>
    cases ok
    exact .timer ticket
  | response ticket reply =>
    cases found : details.pending.awaiting ticket with
    | none =>
      rw [respond_stray found] at ok
      cases ok
      exact .stray found
    | some lookup =>
      cases reply with
      | none =>
        rw [respond_failed found] at ok
        cases ok
        exact .failed found
      | some values =>
        rw [respond_delivery found] at ok
        cases saved : details.store.opened.saveAll values with
        | error abort =>
          rw [saved] at ok
          cases ok
        | ok store =>
          rw [saved] at ok
          cases ok
          exact .delivered found saved

end Details

namespace DetailsScene

theorem handle_users {scene next : DetailsScene} {event : DetailEvent User} {done : Completions}
    (ok : scene.handle (.users event) = .ok (next, done)) :
    ∃ users completion, scene.users.react event = .ok (users, completion) ∧
      next = { scene with users } ∧ done = ⟨completion, none⟩ := by
  rw [handle, Details.userView_handle] at ok
  cases reacted : scene.users.react event with
  | error abort =>
    rw [reacted] at ok
    cases ok
  | ok result =>
    rw [reacted] at ok
    cases ok
    exact ⟨result.1, result.2, rfl, rfl, rfl⟩

theorem handle_comments {scene next : DetailsScene} {event : DetailEvent Comment} {done : Completions}
    (ok : scene.handle (.comments event) = .ok (next, done)) :
    ∃ comments completion, scene.comments.react event = .ok (comments, completion) ∧
      next = { scene with comments } ∧ done = ⟨none, completion⟩ := by
  rw [handle, Details.commentView_handle] at ok
  cases reacted : scene.comments.react event with
  | error abort =>
    rw [reacted] at ok
    cases ok
  | ok result =>
    rw [reacted] at ok
    cases ok
    exact ⟨result.1, result.2, rfl, rfl, rfl⟩

theorem abort_users (scene : DetailsScene) (event : DetailEvent User) (benign : AbortReason → Prop) :
    (∀ abort, scene.handle (.users event) = .error abort → benign abort.reason) ↔
      ∀ abort, scene.users.react event = .error abort → benign abort.reason := by
  rw [handle, Details.userView_handle]
  cases scene.users.react event <;> simp

theorem abort_comments (scene : DetailsScene) (event : DetailEvent Comment) (benign : AbortReason → Prop) :
    (∀ abort, scene.handle (.comments event) = .error abort → benign abort.reason) ↔
      ∀ abort, scene.comments.react event = .error abort → benign abort.reason := by
  rw [handle, Details.commentView_handle]
  cases scene.comments.react event <;> simp

end DetailsScene

end ZemogaSocial
