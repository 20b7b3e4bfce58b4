import ZemogaSocial.Safety.DetailLoads
import ZemogaSocial.Safety.PostLoads
import ZemogaSocial.Transition.Busy

namespace ZemogaSocial

open Transition

/-- While a load of the screen is outstanding, its flag is up and its empty text is not shown. -/
structure Screen.TellsTruth {α : Type} (screen : Screen α) (outstanding : Prop) : Prop where
  loading : outstanding → screen.isLoading = true
  hidden : outstanding → screen.showsNothingText = false

theorem Screen.tellsTruth_iff {α : Type} {screen : Screen α} {outstanding : Prop} :
    screen.TellsTruth outstanding ↔ (outstanding → screen.isLoading = true) := by
  apply Iff.intro Screen.TellsTruth.loading
  intro loading
  exact ⟨loading, fun busy => Screen.loading_hides_text (loading busy)⟩

namespace PostsScene

def mine (owner : Owner) : Owner → Bool := fun tag => decide (tag = owner)

def TruthAfter (owner : Owner) (scene : PostsScene) (event : Event) : Prop :=
  ∀ next done, scene.handle event = .ok (next, done) →
    (next.screen owner).TellsTruth (next.pending.Outstanding (mine owner)) ∧
    ∀ retrieved, done = some (owner, retrieved) → (next.screen owner).isLoading = false

def Event.raises : Event → Bool
  | .reload => true
  | _ => false

def flagEffect (owner : Owner) (scene : PostsScene) (event : Event) : BusyEffect :=
  match event with
  | .response ticket _ =>
    if scene.pending.awaiting ticket = some owner then
      .finished (decide ((scene.pending.settle ticket).Outstanding (mine owner)))
    else .quiet
  | event =>
    if event.starts = some owner then
      if scene.store.table.rows = [] then .started event.raises
      else .finished (decide (scene.pending.Outstanding (mine owner)))
    else .quiet

def CalmFlag (owner : Owner) (scene : PostsScene) (event : Event) : Prop :=
  (scene.flagEffect owner event).Calm (scene.screen owner).isLoading

theorem flagEffect_response (owner : Owner) (scene : PostsScene) (ticket : Nat)
    (reply : Option (List PostJSON)) : scene.flagEffect owner (.response ticket reply) =
      if scene.pending.awaiting ticket = some owner then
        .finished (decide ((scene.pending.settle ticket).Outstanding (mine owner)))
      else .quiet := rfl

theorem flagEffect_starts {scene : PostsScene} {event : Event} {owner started : Owner}
    (starts : event.starts = some started) : scene.flagEffect owner event =
      if started = owner then
        if scene.store.table.rows = [] then .started event.raises
        else .finished (decide (scene.pending.Outstanding (mine owner)))
      else .quiet := by
  cases event <;> cases starts <;> simp [flagEffect, Event.starts]

theorem readied_isLoading {scene : PostsScene} {event : Event} {owner : Owner}
    (starts : event.starts = some owner) :
    ((scene.readied event).screen owner).isLoading =
      ((scene.screen owner).isLoading || event.raises) := by
  cases event <;> cases starts <;> simp [readied, screen, Event.raises]

theorem readied_other {scene : PostsScene} {event : Event} {owner started : Owner}
    (starts : event.starts = some started) (other : started ≠ owner) :
    (scene.readied event).screen owner = scene.screen owner := by
  cases event <;> cases starts <;> cases owner <;> first | rfl | exact absurd rfl other

theorem complete_isLoading (scene : PostsScene) (owner : Owner) (retrieved : Option (List Post)) :
    ((scene.complete owner retrieved).screen owner).isLoading = false := by
  rw [complete_screen_self, Screen.loaded_isLoading]

def Follows (owner : Owner) (scene : PostsScene) (effect : BusyEffect) (next : PostsScene) : Prop :=
  (next.screen owner).isLoading = effect.flag (scene.screen owner).isLoading ∧
  (next.pending.Outstanding (mine owner) ↔ effect.Outstanding (scene.pending.Outstanding (mine owner)))

theorem follows_quiet {owner : Owner} {scene next : PostsScene}
    (flag : (next.screen owner).isLoading = (scene.screen owner).isLoading)
    (calls : next.pending.Outstanding (mine owner) ↔ scene.pending.Outstanding (mine owner)) :
    scene.Follows owner .quiet next := ⟨flag, calls⟩

theorem follows_settled (owner : Owner) {scene : PostsScene} {ticket : Nat} {waiting : Owner}
    (found : scene.pending.awaiting ticket = some waiting) (store : PostStore) (retrieved : Option (List Post))
    (reply : Option (List PostJSON)) :
    scene.Follows owner (scene.flagEffect owner (.response ticket reply))
      ({ scene with store, pending := scene.pending.settle ticket }.complete waiting retrieved) := by
  rw [flagEffect_response]
  by_cases same : waiting = owner
  · subst same
    rw [if_pos found]
    apply And.intro (complete_isLoading ..)
    rw [complete_pending]
    exact decide_eq_true_iff.symm
  · have other : scene.pending.awaiting ticket ≠ some owner := by
      rw [found]
      exact fun equal => same (Option.some.inj equal)
    rw [if_neg other]
    apply follows_quiet
    · rw [complete_screen_other _ (Ne.symm same)]
      cases owner <;> rfl
    · rw [complete_pending]
      exact Pending.outstanding_settle_other found (decide_eq_false same)

theorem follows_hit {owner started : Owner} {scene : PostsScene} {event : Event}
    (starts : event.starts = some started) (stored : scene.store.table.rows ≠ []) (posts : List Post) :
    scene.Follows owner (scene.flagEffect owner event)
      ({ scene.readied event with store := scene.store.opened }.complete started (some posts)) := by
  have pending : (scene.readied event).pending = scene.pending := by cases event <;> rfl
  rw [flagEffect_starts starts]
  by_cases same : started = owner
  · subst same
    rw [if_pos rfl, if_neg stored]
    apply And.intro (complete_isLoading ..)
    rw [complete_pending, pending]
    exact decide_eq_true_iff.symm
  · rw [if_neg same]
    apply follows_quiet
    · rw [complete_screen_other _ (Ne.symm same)]
      refine Eq.trans ?_ (congrArg Screen.isLoading (readied_other starts same))
      cases owner <;> rfl
    · rw [complete_pending, pending]

theorem follows_miss {owner started : Owner} {scene : PostsScene} {event : Event}
    (starts : event.starts = some started) (empty : scene.store.table.rows = []) :
    scene.Follows owner (scene.flagEffect owner event)
      { scene.readied event with store := scene.store.opened, pending := scene.pending.issue started } := by
  rw [flagEffect_starts starts]
  by_cases same : started = owner
  · subst same
    rw [if_pos rfl, if_pos empty]
    apply And.intro
    · have raised : ((scene.readied event).screen started).isLoading = _ := readied_isLoading starts
      cases started <;> exact raised
    · exact iff_of_true (Pending.outstanding_issue.mpr (.inr (decide_eq_true rfl))) True.intro
  · rw [if_neg same]
    apply follows_quiet
    · refine Eq.trans ?_ (congrArg Screen.isLoading (readied_other starts same))
      cases owner <;> rfl
    · have other : mine owner started = false := decide_eq_false same
      simp [Pending.outstanding_issue, other]

theorem flagEffect_spec (owner : Owner) {scene next : PostsScene} {event : Event} {done : Completion}
    (ok : scene.handle event = .ok (next, done)) :
    scene.Follows owner (scene.flagEffect owner event) next := by
  cases handle_reaction ok with
  | hit starts stored => exact follows_hit starts stored _
  | miss starts empty => exact follows_miss starts empty
  | timer ticket => exact follows_quiet (by cases owner <;> rfl) Pending.outstanding_fire
  | stray unknown =>
    rw [flagEffect_response, unknown]
    exact follows_quiet rfl .rfl
  | failed found => exact follows_settled owner found _ _ _
  | delivered found long rows => exact follows_settled owner found _ _ _
  | deleted ids => exact follows_quiet (by cases owner <;> rfl) .rfl
  | cleared => exact follows_quiet (by cases owner <;> rfl) .rfl
  | read post => exact follows_quiet (by cases owner <;> rfl) .rfl
  | starred post isFavorite => exact follows_quiet (by cases owner <;> rfl) .rfl

theorem completion_isLoading {scene next : PostsScene} {event : Event} {owner : Owner}
    {retrieved : Option (List Post)}
    (ok : scene.handle event = .ok (next, some (owner, retrieved))) :
    (next.screen owner).isLoading = false := by
  cases handle_reaction ok with
  | hit => exact complete_isLoading ..
  | failed => exact complete_isLoading ..
  | delivered => exact complete_isLoading ..

theorem truthAfter_iff {owner : Owner} {scene next : PostsScene} {event : Event} {done : Completion}
    (ok : scene.handle event = .ok (next, done)) : scene.TruthAfter owner event ↔
      Truthful (fun scene => (scene.screen owner).isLoading)
        (fun scene => scene.pending.Outstanding (mine owner)) next := by
  apply Iff.intro
  · intro truth
    exact (truth next done ok).1.loading
  · intro truth other result same
    rw [ok] at same
    cases same
    refine ⟨Screen.tellsTruth_iff.mpr truth, ?_⟩
    intro retrieved completion
    subst completion
    exact completion_isLoading ok

theorem truthAfter_iff_calmFlag {owner : Owner} {scene final : PostsScene} {events : List Event}
    (idle : ¬ scene.pending.Outstanding (mine owner)) (completed : run handle scene events = .ok final) :
    Along handle (TruthAfter owner) scene events ↔ Along handle (CalmFlag owner) scene events := by
  have spec : ∀ state event next out, handle state event = .ok (next, out) →
      Follows owner state (flagEffect owner state event) next := fun _ _ _ _ ok => flagEffect_spec owner ok
  have truth : Truthful (fun scene => (scene.screen owner).isLoading)
      (fun scene => scene.pending.Outstanding (mine owner)) scene := fun busy => absurd busy idle
  exact along_truth_iff_calm _ _ (flagEffect owner) spec (fun _ _ _ _ ok => truthAfter_iff ok) truth
    completed

def flagEffects (owner : Owner) (scene : PostsScene) (events : List Event) : List BusyEffect :=
  (steps handle scene events).map fun step => step.state.flagEffect owner step.event

theorem calmFlag_iff_timely {owner : Owner} {scene final : PostsScene} {events : List Event}
    (raised : (scene.screen owner).isLoading = true) (completed : run handle scene events = .ok final) :
    Along handle (CalmFlag owner) scene events ↔ BusyEffect.TimelyAfter [] (scene.flagEffects owner events) := by
  have spec : ∀ state event next out, handle state event = .ok (next, out) →
      (next.screen owner).isLoading = (flagEffect owner state event).flag (state.screen owner).isLoading := by
    intro state event next out ok
    exact (flagEffect_spec owner ok).1
  exact along_calm_iff_timely _ (flagEffect owner) spec [] raised completed

end PostsScene

namespace Details

section Screens

variable {α ω : Type} [RealmObject ω]

def mine (view : Nat) : Lookup → Bool := fun lookup => decide (lookup.view = view)

def isLoading (details : Details α ω) (view : Nat) : Bool := (details.views view).screen.isLoading

theorem complete_isLoading (details : Details α ω) (view : Nat) (retrieved : Option (List α)) :
    (details.complete view retrieved).isLoading view = false := by
  simp only [isLoading, complete, Function.update_self, Screen.loaded_isLoading]

theorem complete_other (details : Details α ω) {view other : Nat} (different : view ≠ other)
    (retrieved : Option (List α)) :
    (details.complete other retrieved).isLoading view = details.isLoading view := by
  simp only [isLoading, complete, Function.update_of_ne different]

end Screens

variable {α ω : Type} [RealmObject ω] [DetailObject ω]

def flagEffect (view : Nat) (details : Details α ω) : DetailEvent α → BusyEffect
  | .appear other =>
    if other = view then
      if (details.store.matching (details.argument view)).isEmpty then .started false
      else .finished (decide (details.pending.Outstanding (mine view)))
    else .quiet
  | .response ticket _ =>
    if (details.pending.awaiting ticket).any (mine view) then
      .finished (decide ((details.pending.settle ticket).Outstanding (mine view)))
    else .quiet
  | .timer _ => .quiet

def CalmFlag (view : Nat) (details : Details α ω) (event : DetailEvent α) : Prop :=
  (details.flagEffect view event).Calm (details.isLoading view)

def Follows (view : Nat) (details : Details α ω) (effect : BusyEffect) (next : Details α ω) : Prop :=
  next.isLoading view = effect.flag (details.isLoading view) ∧
  (next.pending.Outstanding (mine view) ↔ effect.Outstanding (details.pending.Outstanding (mine view)))

theorem follows_settled (view : Nat) {details : Details α ω} {ticket : Nat} {lookup : Lookup}
    (found : details.pending.awaiting ticket = some lookup) (store : Store ω) (retrieved : Option (List α))
    (reply : Option (List α)) :
    details.Follows view (details.flagEffect view (.response ticket reply))
      ({ details with store, pending := details.pending.settle ticket }.complete lookup.view retrieved) := by
  have effect : details.flagEffect view (.response ticket reply) = if mine view lookup then
      .finished (decide ((details.pending.settle ticket).Outstanding (mine view))) else .quiet := by
    simp only [flagEffect, found, Option.any_some]
  rw [effect]
  by_cases same : lookup.view = view
  · subst same
    have here : mine lookup.view lookup = true := decide_eq_true rfl
    rw [if_pos here]
    exact ⟨complete_isLoading .., decide_eq_true_iff.symm⟩
  · have other : mine view lookup = false := decide_eq_false same
    rw [if_neg (by simp [other])]
    exact ⟨complete_other _ (Ne.symm same) _, Pending.outstanding_settle_other found other⟩

variable [Persistable α ω]

def TruthAfter (view : Nat) (details : Details α ω) (event : DetailEvent α) : Prop :=
  ∀ next done, details.react event = .ok (next, done) →
    (next.views view).screen.TellsTruth (next.pending.Outstanding (mine view)) ∧
    ∀ lookup retrieved, done = some (lookup, retrieved) → lookup.view = view →
      next.isLoading view = false

theorem flagEffect_spec (view : Nat) {details next : Details α ω} {event : DetailEvent α}
    {done : Completion α} (ok : details.react event = .ok (next, done)) :
    details.Follows view (details.flagEffect view event) next := by
  cases react_reaction ok with
  | hit stored =>
    rename_i shown
    rw [flagEffect]
    by_cases same : shown = view
    · subst same
      rw [if_pos rfl, if_neg (by simpa using stored)]
      exact ⟨complete_isLoading .., decide_eq_true_iff.symm⟩
    · rw [if_neg same]
      exact ⟨complete_other _ (Ne.symm same) _, .rfl⟩
  | miss absent =>
    rename_i shown
    rw [flagEffect]
    by_cases same : shown = view
    · subst same
      rw [if_pos rfl, if_pos (by simpa using absent)]
      refine ⟨(Bool.or_false _).symm, iff_of_true ?_ True.intro⟩
      exact Pending.outstanding_issue.mpr (.inr (decide_eq_true rfl))
    · have other : mine view ⟨shown, details.argument shown⟩ = false := decide_eq_false same
      rw [if_neg same]
      refine ⟨rfl, ?_⟩
      simp [BusyEffect.Outstanding, Pending.outstanding_issue, other]
  | timer ticket => exact ⟨rfl, Pending.outstanding_fire⟩
  | stray unknown =>
    rw [flagEffect, unknown]
    exact ⟨rfl, .rfl⟩
  | failed found => exact follows_settled view found _ _ _
  | delivered found saved => exact follows_settled view found _ _ _

theorem completion_isLoading {details next : Details α ω} {event : DetailEvent α} {lookup : Lookup}
    {retrieved : Option (List α)} (ok : details.react event = .ok (next, some (lookup, retrieved))) :
    next.isLoading lookup.view = false := by
  cases react_reaction ok with
  | hit => exact complete_isLoading ..
  | failed => exact complete_isLoading ..
  | delivered => exact complete_isLoading ..

theorem truthAfter_iff {view : Nat} {details next : Details α ω} {event : DetailEvent α}
    {done : Completion α} (ok : details.react event = .ok (next, done)) : details.TruthAfter view event ↔
      Truthful (fun details => details.isLoading view)
        (fun details => details.pending.Outstanding (mine view)) next := by
  apply Iff.intro
  · intro truth
    exact (truth next done ok).1.loading
  · intro truth other result same
    rw [ok] at same
    cases same
    refine ⟨Screen.tellsTruth_iff.mpr truth, ?_⟩
    intro lookup retrieved completion shown
    subst completion
    subst shown
    exact completion_isLoading ok

theorem truthAfter_iff_calmFlag {view : Nat} {details final : Details α ω} {events : List (DetailEvent α)}
    (idle : ¬ details.pending.Outstanding (mine view)) (completed : run react details events = .ok final) :
    Along react (TruthAfter view) details events ↔ Along react (CalmFlag view) details events := by
  have spec : ∀ (state : Details α ω) event next out, react state event = .ok (next, out) →
      Follows view state (flagEffect view state event) next := fun _ _ _ _ ok => flagEffect_spec view ok
  have truth : Truthful (fun details : Details α ω => details.isLoading view)
      (fun details => details.pending.Outstanding (mine view)) details := fun busy => absurd busy idle
  exact along_truth_iff_calm _ _ (flagEffect view) spec (fun _ _ _ _ ok => truthAfter_iff ok) truth completed

def flagEffects (view : Nat) (details : Details α ω) (events : List (DetailEvent α)) : List BusyEffect :=
  (steps react details events).map fun step => step.state.flagEffect view step.event

theorem calmFlag_iff_timely {view : Nat} {details final : Details α ω} {events : List (DetailEvent α)}
    (raised : details.isLoading view = true) (completed : run react details events = .ok final) :
    Along react (CalmFlag view) details events ↔ BusyEffect.TimelyAfter [] (details.flagEffects view events) := by
  have spec : ∀ (state : Details α ω) event next out, react state event = .ok (next, out) →
      next.isLoading view = (flagEffect view state event).flag (state.isLoading view) := by
    intro state event next out ok
    exact (flagEffect_spec view ok).1
  exact along_calm_iff_timely _ (flagEffect view) spec [] raised completed

end Details

/-- In a run that completes, the flag of a screen tells the truth after every handler exactly when
    each load of the screen that goes to the network starts under a raised flag, and none completes
    while another one of the screen is outstanding. -/
theorem loading_flags_iff
    (owner : Owner) (scene sceneAfter : PostsScene) (events : List PostsScene.Event)
    (idle : ¬ scene.pending.Outstanding (PostsScene.mine owner))
    (completed : run PostsScene.handle scene events = .ok sceneAfter)
    (view : Nat) (users usersAfter : Details User UserObject) (userEvents : List (DetailEvent User))
    (usersIdle : ¬ users.pending.Outstanding (Details.mine view))
    (usersCompleted : run UserView.handle users userEvents = .ok usersAfter)
    (comments commentsAfter : Details Comment CommentObject) (commentEvents : List (DetailEvent Comment))
    (commentsIdle : ¬ comments.pending.Outstanding (Details.mine view))
    (commentsCompleted : run CommentView.handle comments commentEvents = .ok commentsAfter) :
    (Along PostsScene.handle (PostsScene.TruthAfter owner) scene events ↔
      Along PostsScene.handle (PostsScene.CalmFlag owner) scene events) ∧
    (Along UserView.handle (Details.TruthAfter view) users userEvents ↔
      Along UserView.handle (Details.CalmFlag view) users userEvents) ∧
    (Along CommentView.handle (Details.TruthAfter view) comments commentEvents ↔
      Along CommentView.handle (Details.CalmFlag view) comments commentEvents) := by
  refine ⟨?_, ?_, ?_⟩
  · exact PostsScene.truthAfter_iff_calmFlag idle completed
  · exact Details.truthAfter_iff_calmFlag usersIdle usersCompleted
  · exact Details.truthAfter_iff_calmFlag commentsIdle commentsCompleted

/-- From launch on no flag has to be known: a load that misses the table starts before any completion of
    its screen since launch or since the last tap on its reload button, and none completes while another
    one of the screen is outstanding. -/
theorem launched_flags_iff
    (owner : Owner) (posts : Rows PostObject) (scene : PostsScene) (events : List PostsScene.Event)
    (completed : run PostsScene.handle (.launch posts) events = .ok scene)
    (view : Nat) (stored : Rows UserObject) (known : Rows CommentObject) (userIDs postIds : Nat → Int64)
    (users : Details User UserObject) (userEvents : List (DetailEvent User))
    (usersCompleted : run UserView.handle (DetailsScene.launch stored known userIDs postIds).users userEvents =
      .ok users)
    (comments : Details Comment CommentObject) (commentEvents : List (DetailEvent Comment))
    (commentsCompleted : run CommentView.handle (DetailsScene.launch stored known userIDs postIds).comments
      commentEvents = .ok comments) :
    (Along PostsScene.handle (PostsScene.TruthAfter owner) (.launch posts) events ↔
      BusyEffect.TimelyAfter [] (PostsScene.flagEffects owner (.launch posts) events)) ∧
    (Along UserView.handle (Details.TruthAfter view) (DetailsScene.launch stored known userIDs postIds).users
        userEvents ↔
      BusyEffect.TimelyAfter []
        (Details.flagEffects view (DetailsScene.launch stored known userIDs postIds).users userEvents)) ∧
    (Along CommentView.handle (Details.TruthAfter view) (DetailsScene.launch stored known userIDs postIds).comments
        commentEvents ↔
      BusyEffect.TimelyAfter []
        (Details.flagEffects view (DetailsScene.launch stored known userIDs postIds).comments commentEvents)) := by
  refine ⟨?_, ?_, ?_⟩
  · apply (PostsScene.truthAfter_iff_calmFlag Pending.not_outstanding_none completed).trans
    exact PostsScene.calmFlag_iff_timely (by cases owner <;> rfl) completed
  · apply (Details.truthAfter_iff_calmFlag Pending.not_outstanding_none usersCompleted).trans
    exact Details.calmFlag_iff_timely rfl usersCompleted
  · apply (Details.truthAfter_iff_calmFlag Pending.not_outstanding_none commentsCompleted).trans
    exact Details.calmFlag_iff_timely rfl commentsCompleted

instance (owner : Owner) (scene : PostsScene) (event : PostsScene.Event) :
    Decidable (scene.CalmFlag owner event) :=
  inferInstanceAs (Decidable (BusyEffect.Calm _ _))

instance {α ω : Type} [RealmObject ω] [DetailObject ω] (view : Nat) (details : Details α ω)
    (event : DetailEvent α) : Decidable (details.CalmFlag view event) :=
  inferInstanceAs (Decidable (BusyEffect.Calm _ _))

def openedTwice {α : Type} (rows : List α) : List (DetailEvent α) :=
  [.appear 0, .timer 0, .response 0 (some rows), .appear 0]

theorem loading_flags_one_at_a_time :
    Along PostsScene.handle (PostsScene.TruthAfter .postsView) (PostsScene.launch .empty)
      PostsScene.oneAtATime ∧
    Along UserView.handle (Details.TruthAfter 0) DetailsScene.newInstallation.users
      (openedTwice [DetailsScene.author]) ∧
    Along CommentView.handle (Details.TruthAfter 0) DetailsScene.newInstallation.comments
      (openedTwice [⟨2, 8, "", "", ""⟩]) := by
  have both := loading_flags_iff .postsView (PostsScene.launch .empty) _ PostsScene.oneAtATime (by decide) rfl
    0 DetailsScene.newInstallation.users _ (openedTwice [DetailsScene.author]) (by decide) rfl
    DetailsScene.newInstallation.comments _ (openedTwice [⟨2, 8, "", "", ""⟩]) (by decide) rfl
  refine ⟨both.1.mpr ?_, both.2.1.mpr ?_, both.2.2.mpr ?_⟩
  · decide +kernel
  · decide +kernel
  · decide +kernel

namespace PostsScene

def failedThenBack : List Event :=
  [.appear .postsView, .timer 0, .response 0 none, .appear .postsView]

theorem loading_flag_down_while_outstanding :
    (∃ final, run handle (launch .empty) failedThenBack = .ok final ∧
      final.pending.Outstanding (mine .postsView) ∧ final.postsView.isLoading = false ∧
      final.postsView.showsNothingText = true) ∧
    ∃ final, run UserView.handle DetailsScene.newInstallation.users
        [.appear 0, .timer 0, .response 0 none, .appear 0] = .ok final ∧
      final.pending.Outstanding (Details.mine 0) ∧ final.isLoading 0 = false ∧
      (final.views 0).screen.showsNothingText = true :=
  ⟨⟨_, rfl, by decide, rfl, rfl⟩, _, rfl, by decide, rfl, rfl⟩

end PostsScene

end ZemogaSocial
