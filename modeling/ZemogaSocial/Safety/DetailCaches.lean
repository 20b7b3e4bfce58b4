import ZemogaSocial.Safety.DetailLoads
import ZemogaSocial.Scenes.HomeScene

namespace ZemogaSocial

open Transition

/-- The copy made of a stored object is of the same user, or of the same post. -/
class LawfulDetail (α : Type) {ω : outParam Type} [DetailObject ω] [Persistable α ω] : Prop where
  owner_ofManaged (object : ω) :
    DetailObject.owner (Persistable.managedObject (Persistable.ofManaged object : α) : ω) = DetailObject.owner object

instance : LawfulDetail User := ⟨fun _ => rfl⟩
instance : LawfulDetail Comment := ⟨fun _ => rfl⟩

namespace Details

section Complete

variable {α ω : Type} [RealmObject ω]

theorem complete_views (details : Details α ω) (view : Nat) (retrieved : Option (List α)) :
    (details.complete view retrieved).views = Function.update details.views view
      { details.views view with screen := (details.views view).screen.loaded id retrieved } := rfl

theorem complete_argument (details : Details α ω) (view : Nat) (retrieved : Option (List α)) (other : Nat) :
    (details.complete view retrieved).argument other = details.argument other := by
  rw [argument, argument, complete_views]
  by_cases same : other = view
  · subst same
    rw [Function.update_self]
  · rw [Function.update_of_ne same]

theorem complete_shown (details : Details α ω) (view : Nat) (retrieved : Option (List α)) (other : Nat) :
    ((details.complete view retrieved).views other).screen.shown =
      if other = view then retrieved.getD (details.views view).screen.shown
      else (details.views other).screen.shown := by
  rw [complete_views]
  by_cases same : other = view
  · subst same
    rw [Function.update_self, if_pos rfl]
    cases retrieved <;> rfl
  · rw [Function.update_of_ne same, if_neg same]

end Complete

variable {α ω : Type} [RealmObject ω] [DetailObject ω] [Persistable α ω]

def ownedBy (argument : Int64) (value : α) : Prop :=
  DetailObject.owner (Persistable.managedObject value : ω) = argument

/-- A list that arrives holds what it was asked for and nothing else; a server may change its mind. -/
def OwnAnswers (details : Details α ω) : DetailEvent α → Prop
  | .response ticket (some values) =>
    ∀ lookup ∈ details.pending.awaiting ticket, ∀ value ∈ values, ownedBy lookup.argument value
  | _ => True

instance (details : Details α ω) : ∀ event, Decidable (details.OwnAnswers event)
  | .response ticket (some values) =>
    inferInstanceAs (Decidable (∀ lookup ∈ details.pending.awaiting ticket, ∀ value ∈ values,
      DetailObject.owner (Persistable.managedObject value : ω) = lookup.argument))
  | .response _ none | .appear _ | .timer _ => inferInstanceAs (Decidable True)

/-- The cache for the argument holds these rows, and no call for it is under way. -/
structure Settled (argument : Int64) (rows : List ω) (details : Details α ω) : Prop where
  stored : details.store.matching argument = rows
  quiet : ∀ call ∈ details.pending.calls, call.tag.argument ≠ argument

theorem matching_delivered {details : Details α ω} {argument : Int64} {lookup : Lookup} {values : List α}
    {store : Store ω} (saved : details.store.opened.saveAll values = .ok store)
    (own : ∀ value ∈ values, ownedBy lookup.argument value) (other : lookup.argument ≠ argument) :
    store.matching argument = details.store.matching argument := by
  have rows := (Store.saveAll_result details.store.opened_realm saved).2
  have nothing : Keyed.classRows DetailObject.owner argument (values.map Persistable.managedObject : List ω) = [] := by
    apply List.filter_eq_nil_iff.mpr
    intro object member same
    obtain ⟨value, listed, rfl⟩ := List.mem_map.mp member
    exact other ((own value listed).symm.trans (beq_iff_eq.mp same))
  unfold Store.matching
  rw [rows, Keyed.classRows_append, nothing, List.append_nil]
  rfl

theorem settled_preserved {argument : Int64} {rows : List ω} {details next : Details α ω}
    {event : DetailEvent α} {done : Completion α} (nonempty : rows ≠ []) (settled : Settled argument rows details)
    (own : details.OwnAnswers event) (ok : details.react event = .ok (next, done)) :
    Settled argument rows next := by
  cases react_reaction ok with
  | hit stored => exact ⟨settled.stored, settled.quiet⟩
  | miss absent =>
    refine ⟨settled.stored, ?_⟩
    intro call waiting same
    rcases List.mem_append.mp waiting with old | new
    · exact settled.quiet call old same
    · rw [List.mem_singleton.mp new] at same
      have asked : details.argument _ = argument := same
      rw [asked, settled.stored] at absent
      exact nonempty absent
  | timer ticket =>
    refine ⟨settled.stored, ?_⟩
    intro call waiting
    obtain ⟨old, stored, rfl⟩ := List.mem_map.mp waiting
    have apart := settled.quiet old stored
    split <;> exact apart
  | stray unknown => exact settled
  | failed found =>
    exact ⟨settled.stored, fun call waiting => settled.quiet call (List.mem_of_mem_filter waiting)⟩
  | delivered found saved =>
    obtain ⟨call, waiting, _, tag⟩ := Pending.awaiting_mem found
    have other := settled.quiet call waiting
    rw [tag] at other
    apply Settled.mk
    · exact (matching_delivered saved (own _ found) other).trans settled.stored
    · exact fun call waiting => settled.quiet call (List.mem_of_mem_filter waiting)

theorem settled_answer {argument : Int64} {rows : List ω} {details next : Details α ω}
    {event : DetailEvent α} {view : Nat} {retrieved : Option (List α)} (settled : Settled argument rows details)
    (ok : details.react event = .ok (next, some (⟨view, argument⟩, retrieved))) :
    retrieved = some (rows.map Persistable.ofManaged) := by
  have waits : ∀ ticket, details.pending.awaiting ticket ≠ some ⟨view, argument⟩ := by
    intro ticket found
    obtain ⟨call, waiting, _, tag⟩ := Pending.awaiting_mem found
    exact settled.quiet call waiting (by rw [tag])
  generalize told : some (Lookup.mk view argument, retrieved) = done at ok
  cases react_reaction ok with
  | hit stored =>
    cases told
    rw [storedValues, settled.stored]
  | failed found =>
    cases told
    exact absurd found (waits _)
  | delivered found saved =>
    cases told
    exact absurd found (waits _)
  | miss absent => cases told
  | timer ticket => cases told
  | stray unknown => cases told

/-- Calls are for the argument of their screen, and a screen shows what is its argument's. -/
structure ShowsOwn (details : Details α ω) : Prop where
  calls : ∀ call ∈ details.pending.calls, call.tag.argument = details.argument call.tag.view
  shown : ∀ view, ∀ value ∈ (details.views view).screen.shown, ownedBy (details.argument view) value

theorem ShowsOwn.settled {details : Details α ω} (own : details.ShowsOwn) (store : Store ω) (ticket : Nat) :
    ({ details with store, pending := details.pending.settle ticket } : Details α ω).ShowsOwn :=
  ⟨fun call waiting => own.calls call (List.mem_of_mem_filter waiting), own.shown⟩

theorem ShowsOwn.complete {details : Details α ω} (own : details.ShowsOwn) {view : Nat}
    {retrieved : Option (List α)} (delivers : ∀ rows, retrieved = some rows →
      ∀ value ∈ rows, ownedBy (details.argument view) value) : (details.complete view retrieved).ShowsOwn := by
  apply ShowsOwn.mk
  · intro call waiting
    rw [complete_argument]
    exact own.calls call waiting
  · intro other value shown
    rw [complete_shown] at shown
    rw [complete_argument]
    split at shown
    · rename_i same
      subst same
      cases retrieved with
      | none => exact own.shown other value shown
      | some rows => exact delivers rows rfl value shown
    · exact own.shown other value shown

theorem showsOwn_preserved [LawfulDetail α] {details next : Details α ω} {event : DetailEvent α}
    {done : Completion α} (own : details.ShowsOwn) (answers : details.OwnAnswers event)
    (ok : details.react event = .ok (next, done)) : next.ShowsOwn := by
  cases react_reaction ok with
  | hit stored =>
    rename_i view
    have opened : ({ details with store := details.store.opened } : Details α ω).ShowsOwn := ⟨own.calls, own.shown⟩
    apply opened.complete
    intro rows same value member
    cases same
    obtain ⟨object, listed, rfl⟩ := List.mem_map.mp member
    exact (LawfulDetail.owner_ofManaged object).trans (Keyed.mem_classRows.mp listed).2
  | miss absent =>
    refine ⟨?_, own.shown⟩
    intro call waiting
    rcases List.mem_append.mp waiting with old | new
    · exact own.calls call old
    · rw [List.mem_singleton.mp new]
      rfl
  | timer ticket =>
    refine ⟨?_, own.shown⟩
    intro call waiting
    obtain ⟨old, stored, rfl⟩ := List.mem_map.mp waiting
    have before := own.calls old stored
    split <;> exact before
  | stray unknown => exact own
  | failed found =>
    apply (own.settled details.store _).complete
    intro rows same
    cases same
  | delivered found saved =>
    apply (own.settled _ _).complete
    intro rows same value member
    cases same
    obtain ⟨call, waiting, _, rfl⟩ := Pending.awaiting_mem found
    have asked := own.calls call waiting
    exact (answers _ found value member).trans asked

theorem showsOwn_launch (store : Store ω) (arguments : Nat → Int64) :
    (⟨store, .none, fun view => { argument := arguments view }⟩ : Details α ω).ShowsOwn := by
  apply ShowsOwn.mk
  · intro call waiting
    cases waiting
  · intro view value shown
    cases shown

theorem react_argument {details next : Details α ω} {event : DetailEvent α} {done : Completion α}
    (ok : details.react event = .ok (next, done)) (view : Nat) : next.argument view = details.argument view := by
  cases react_reaction ok with
  | hit stored => exact complete_argument ..
  | miss absent => rfl
  | timer ticket => rfl
  | stray unknown => rfl
  | failed found => exact complete_argument ..
  | delivered found saved => exact complete_argument ..

end Details

namespace HomeView

/-- The servers of the users and of the comments send nothing they were not asked for. -/
def OwnAnswers (home : HomeView) : Event → Prop
  | .details event => DetailsScene.Each Details.OwnAnswers Details.OwnAnswers home.details event
  | _ => True

instance (home : HomeView) : ∀ event, Decidable (home.OwnAnswers event)
  | .details event => inferInstanceAs (Decidable (DetailsScene.Each Details.OwnAnswers Details.OwnAnswers
      home.details event))
  | .lists _ | .appear _ | .star _ => inferInstanceAs (Decidable True)

structure ShowsOwn (home : HomeView) : Prop where
  matched : home.Matched
  users : home.details.users.ShowsOwn
  comments : home.details.comments.ShowsOwn

theorem matched_preserved {home next : HomeView} {event : Event} {done : Completions} (matched : home.Matched)
    (ok : home.handle event = .ok (next, done)) : next.Matched := by
  have posts := screens_post ok
  have arguments : (∀ n, next.details.users.argument n = home.details.users.argument n) ∧
      ∀ n, next.details.comments.argument n = home.details.comments.argument n := by
    cases handle_reaction ok with
    | lists handled => exact ⟨fun _ => rfl, fun _ => rfl⟩
    | appeared screen => exact ⟨fun _ => rfl, fun _ => rfl⟩
    | starred screen => exact ⟨fun _ => rfl, fun _ => rfl⟩
    | details handled =>
      rename_i event _ _
      cases event with
      | users event =>
        obtain ⟨users, completion, reacted, rfl, rfl⟩ := DetailsScene.handle_users handled
        exact ⟨Details.react_argument reacted, fun _ => rfl⟩
      | comments event =>
        obtain ⟨comments, completion, reacted, rfl, rfl⟩ := DetailsScene.handle_comments handled
        exact ⟨fun _ => rfl, Details.react_argument reacted⟩
  apply Matched.mk
  · intro n
    rw [arguments.1, matched.userIDs, posts]
  · intro n
    rw [arguments.2, matched.postIds, posts]

theorem showsOwn_preserved {home next : HomeView} {event : Event} {done : Completions} (own : home.ShowsOwn)
    (answers : home.OwnAnswers event) (ok : home.handle event = .ok (next, done)) : next.ShowsOwn := by
  have matched := matched_preserved own.matched ok
  cases handle_reaction ok with
  | lists handled => exact ⟨matched, own.users, own.comments⟩
  | appeared screen => exact ⟨matched, own.users, own.comments⟩
  | starred screen => exact ⟨matched, own.users, own.comments⟩
  | details handled =>
    rename_i event _ _
    cases event with
    | users event =>
      obtain ⟨users, completion, reacted, rfl, rfl⟩ := DetailsScene.handle_users handled
      exact ⟨matched, Details.showsOwn_preserved own.users answers reacted, own.comments⟩
    | comments event =>
      obtain ⟨comments, completion, reacted, rfl, rfl⟩ := DetailsScene.handle_comments handled
      exact ⟨matched, own.users, Details.showsOwn_preserved own.comments answers reacted⟩

/-- However the loads of the screens interleave, and whatever is stored, a screen never shows the user
    or the comments of another screen's post. -/
theorem screens_show_own (stored : Tables) (opened : Nat → Post) (events : List Event) (final : HomeView)
    (answers : Along handle OwnAnswers (launch stored opened) events)
    (completed : run handle (launch stored opened) events = .ok final) (screen : Nat) :
    (final.screens screen).post = opened screen ∧
      (∀ user ∈ (final.details.users.views screen).screen.shown, user.id = (opened screen).userID) ∧
      ∀ comment ∈ (final.details.comments.views screen).screen.shown, comment.postId = (opened screen).id := by
  have initial : (launch stored opened).ShowsOwn ∧ ((launch stored opened).screens screen).post = opened screen := by
    exact ⟨⟨launch_matched stored opened, Details.showsOwn_launch .., Details.showsOwn_launch ..⟩, rfl⟩
  have kept : ∀ (state : HomeView) event next done, state.ShowsOwn ∧ (state.screens screen).post = opened screen →
      state.OwnAnswers event → state.handle event = .ok (next, done) →
      next.ShowsOwn ∧ (next.screens screen).post = opened screen := by
    intro state event next done own allowed ok
    exact ⟨showsOwn_preserved own.1 allowed ok, (screens_post ok screen).trans own.2⟩
  obtain ⟨own, post⟩ := run_invariant kept initial answers completed
  refine ⟨post, ?_, ?_⟩
  · intro user shown
    rw [← post, ← own.matched.userIDs]
    exact own.users.shown screen user shown
  · intro comment shown
    rw [← post, ← own.matched.postIds]
    exact own.comments.shown screen comment shown

/-- Screen 0 is opened from post 7 of user 1, the others from post 8 of user 2. -/
def twoPosts : Nat → Post
  | 0 => ⟨7, 1, "", "", false, false⟩
  | _ => ⟨8, 2, "", "", false, false⟩

def crossedLoads : List Event :=
  [.details (.users (.appear 0)), .details (.users (.appear 1)), .details (.users (.timer 1)),
    .details (.users (.timer 0)), .details (.users (.response 1 (some [⟨2, "", "", "", ""⟩]))),
    .details (.users (.response 0 (some [⟨1, "", "", "", ""⟩]))), .appear 0, .details (.users (.appear 2))]

theorem screens_show_own_crossed : ∃ final, run handle (launch ⟨.empty, .empty, .empty⟩ twoPosts) crossedLoads =
    .ok final ∧ ∀ user ∈ (final.details.users.views 1).screen.shown, user.id = (twoPosts 1).userID := by
  have answers : Along handle OwnAnswers (launch ⟨.empty, .empty, .empty⟩ twoPosts) crossedLoads := by
    decide +kernel
  have completes : ∃ final, run handle (launch ⟨.empty, .empty, .empty⟩ twoPosts) crossedLoads = .ok final :=
    ⟨_, rfl⟩
  obtain ⟨final, completed⟩ := completes
  exact ⟨final, completed, (screens_show_own _ twoPosts crossedLoads final answers completed 1).2.1⟩

/-- What the caches hold for one user and for the comments of one post. -/
structure Settled (userID postId : Int64) (users : List UserObject) (comments : List CommentObject)
    (home : HomeView) : Prop where
  users : home.details.users.Settled userID users
  comments : home.details.comments.Settled postId comments

/-- A completed load of that user or of these comments. -/
structure Tells (userID postId : Int64) (users : List UserObject) (comments : List CommentObject)
    (done : Completions) : Prop where
  users : ∀ view retrieved, done.details.users = some (⟨view, userID⟩, retrieved) →
    retrieved = some (users.map User.ofManaged)
  comments : ∀ view retrieved, done.details.comments = some (⟨view, postId⟩, retrieved) →
    retrieved = some (comments.map Comment.ofManaged)

variable {userID postId : Int64} {users : List UserObject} {comments : List CommentObject}

theorem settled_preserved {home next : HomeView} {event : Event} {done : Completions}
    (someUsers : users ≠ []) (someComments : comments ≠ [])
    (settled : home.Settled userID postId users comments) (answers : home.OwnAnswers event)
    (ok : home.handle event = .ok (next, done)) : next.Settled userID postId users comments := by
  cases handle_reaction ok with
  | lists handled => exact ⟨settled.users, settled.comments⟩
  | appeared screen => exact ⟨settled.users, settled.comments⟩
  | starred screen => exact ⟨settled.users, settled.comments⟩
  | details handled =>
    rename_i event _ _
    cases event with
    | users event =>
      obtain ⟨after, completion, reacted, rfl, rfl⟩ := DetailsScene.handle_users handled
      exact ⟨Details.settled_preserved someUsers settled.users answers reacted, settled.comments⟩
    | comments event =>
      obtain ⟨after, completion, reacted, rfl, rfl⟩ := DetailsScene.handle_comments handled
      exact ⟨settled.users, Details.settled_preserved someComments settled.comments answers reacted⟩

theorem tells_silent {done : Completions} (noUsers : done.details.users = none)
    (noComments : done.details.comments = none) : Tells userID postId users comments done := by
  apply Tells.mk
  · intro view retrieved told
    rw [noUsers] at told
    cases told
  · intro view retrieved told
    rw [noComments] at told
    cases told

theorem settled_tells {home next : HomeView} {event : Event} {done : Completions}
    (settled : home.Settled userID postId users comments) (ok : home.handle event = .ok (next, done)) :
    Tells userID postId users comments done := by
  cases handle_reaction ok with
  | lists handled => exact tells_silent rfl rfl
  | appeared screen => exact tells_silent rfl rfl
  | starred screen => exact tells_silent rfl rfl
  | details handled =>
    rename_i event _ _
    cases event with
    | users event =>
      obtain ⟨after, completion, reacted, rfl, rfl⟩ := DetailsScene.handle_users handled
      have silent : Tells userID postId users comments { details := ⟨none, none⟩ } := tells_silent rfl rfl
      refine ⟨?_, silent.comments⟩
      intro view retrieved told
      have same : completion = some (⟨view, userID⟩, retrieved) := told
      rw [same] at reacted
      exact Details.settled_answer settled.users reacted
    | comments event =>
      obtain ⟨after, completion, reacted, rfl, rfl⟩ := DetailsScene.handle_comments handled
      have silent : Tells userID postId users comments { details := ⟨none, none⟩ } := tells_silent rfl rfl
      refine ⟨silent.users, ?_⟩
      intro view retrieved told
      have same : completion = some (⟨view, postId⟩, retrieved) := told
      rw [same] at reacted
      exact Details.settled_answer settled.comments reacted

/-- Once the caches hold a user and the comments of a post and nothing is under way for them, no
    event changes these rows or asks the network for them, whatever the servers have come to say. -/
theorem details_never_refresh (home : HomeView) (userID postId : Int64) (users : List UserObject)
    (comments : List CommentObject) (someUsers : users ≠ []) (someComments : comments ≠ [])
    (settled : home.Settled userID postId users comments) (events : List Event)
    (answers : Along handle OwnAnswers home events) :
    Along handle (fun state event => ∀ next done, state.handle event = .ok (next, done) →
      next.Settled userID postId users comments ∧ Tells userID postId users comments done) home events := by
  have kept : ∀ state event next done, Settled userID postId users comments state → state.OwnAnswers event →
      state.handle event = .ok (next, done) → Settled userID postId users comments next :=
    fun _ _ _ _ before sent ok => settled_preserved someUsers someComments before sent ok
  apply along_of_invariant kept _ settled answers
  intro state event before sent next done ok
  exact ⟨kept state event next done before sent ok, settled_tells before ok⟩

def cached : Tables where
  posts := .empty
  users := ⟨[{ id := 1, name := "old" }], by decide⟩
  comments := ⟨[{ id := 5, postId := 7 }], by decide⟩

/-- The server has a new name for user 1 and a new comment on post 7, which nobody asks for. -/
def laterVisit : List Event :=
  [.details (.users (.appear 0)), .details (.comments (.appear 1)), .details (.comments (.timer 0)),
    .details (.comments (.response 0 (some [⟨6, 8, "", "", ""⟩]))), .details (.comments (.appear 0))]

theorem details_never_refresh_later :
    Along handle (fun state event => ∀ next done, state.handle event = .ok (next, done) →
      next.Settled 1 7 [{ id := 1, name := "old" }] [{ id := 5, postId := 7 }] ∧
        Tells 1 7 [{ id := 1, name := "old" }] [{ id := 5, postId := 7 }] done)
      (launch cached twoPosts) laterVisit := by
  have settled : (launch cached twoPosts).Settled 1 7 [{ id := 1, name := "old" }] [{ id := 5, postId := 7 }] := by
    apply Settled.mk
    · exact ⟨by decide, fun _ waiting => nomatch waiting⟩
    · exact ⟨by decide, fun _ waiting => nomatch waiting⟩
  have answers : Along handle OwnAnswers (launch cached twoPosts) laterVisit := by decide +kernel
  exact details_never_refresh _ 1 7 _ _ (by decide) (by decide) settled laterVisit answers

end HomeView

end ZemogaSocial
