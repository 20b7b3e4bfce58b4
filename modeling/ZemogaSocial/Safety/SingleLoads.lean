import ZemogaSocial.Safety.Survival
import ZemogaSocial.Safety.SwipedLists

namespace ZemogaSocial

open Transition

namespace PostsScene

/-- A list that arrives is long enough for the marking loop and names each post once. -/
def Sound : Event → Prop
  | .response _ (some json) => 20 ≤ json.length ∧ (json.map PostJSON.id).Nodup
  | _ => True

instance : ∀ event, Decidable (Sound event)
  | .response _ (some json) => inferInstanceAs (Decidable (20 ≤ json.length ∧ (json.map PostJSON.id).Nodup))
  | .response _ none | .appear _ | .reload | .timer _ | .deletePost _ | .deleteAll | .markAsRead _
  | .setFavorite _ _ => inferInstanceAs (Decidable True)

def EmptyWhileWaiting (scene : PostsScene) : Prop := scene.pending.calls ≠ [] → scene.store.table.rows = []

theorem rows_nil_of_keys {left right : Rows PostObject} (empty : left.rows = [])
    (keys : ∀ id ∈ right.keys, id ∈ left.keys) : right.rows = [] := by
  apply Keyed.Table.keys_eq_nil.mp
  apply List.eq_nil_iff_forall_not_mem.mpr
  intro id stored
  have before := keys id stored
  rw [Keyed.Table.keys_eq_nil.mpr empty] at before
  cases before

theorem emptyWhileWaiting_preserved {scene next : PostsScene} {event : Event} {done : Completion}
    (empty : scene.EmptyWhileWaiting) (single : scene.pending.calls.length ≤ 1)
    (ok : scene.handle event = .ok (next, done)) : next.EmptyWhileWaiting := by
  intro waiting
  cases handle_reaction ok with
  | hit starts stored =>
    rw [complete_pending] at waiting
    rw [complete_store]
    have pending : (scene.readied event).pending = scene.pending := by cases event <;> rfl
    exact empty (pending ▸ waiting)
  | miss starts absent => exact absent
  | timer ticket => exact empty (Pending.fire_nonempty waiting)
  | stray unknown => exact empty waiting
  | failed found =>
    rw [complete_pending] at waiting
    exact absurd (Pending.settle_single single found) waiting
  | delivered found long rows =>
    rw [complete_pending] at waiting
    exact absurd (Pending.settle_single single found) waiting
  | deleted ids =>
    apply rows_nil_of_keys (empty waiting)
    intro id stored
    exact (PostStore.delete_keys.mp stored).1
  | cleared => rfl
  | read post =>
    apply rows_nil_of_keys (empty waiting)
    rw [PostStore.markAsRead_keys]
    exact fun _ stored => stored
  | starred post isFavorite =>
    apply rows_nil_of_keys (empty waiting)
    rw [PostStore.setFavorite_keys]
    exact fun _ stored => stored

theorem safe_of_emptyWhileWaiting {scene : PostsScene} {event : Event} (empty : scene.EmptyWhileWaiting)
    (sound : Sound event) (inRange : scene.InRange event) : scene.Safe event := by
  cases event with
  | response ticket reply =>
    cases reply with
    | none => exact True.intro
    | some json =>
      intro waits
      obtain ⟨owner, found⟩ := Option.ne_none_iff_exists'.mp waits
      have absent := Keyed.Table.keys_eq_nil.mpr (empty (Pending.awaiting_nonempty found))
      refine ⟨sound.1, sound.2, ?_⟩
      intro id _
      rw [absent]
      exact List.not_mem_nil
  | deletePost offsets => exact inRange
  | _ => exact True.intro

end PostsScene

namespace Details

variable {α ω : Type} [RealmObject ω] [DetailObject ω]

def AbsentWhileWaiting (details : Details α ω) : Prop :=
  ∀ call ∈ details.pending.calls, details.store.matching call.tag.argument = []

/-- No two outstanding calls are for one user, or for the comments of one post. -/
def SingleLoads (details : Details α ω) : Prop :=
  (details.pending.calls.map fun call => call.tag.argument).Nodup

instance (details : Details α ω) : Decidable details.SingleLoads :=
  inferInstanceAs (Decidable (details.pending.calls.map fun call => call.tag.argument).Nodup)

theorem landsOnAbsent_of_waiting {details : Details α ω} (absent : details.AbsentWhileWaiting)
    (event : DetailEvent α) : details.LandsOnAbsent event := by
  cases event with
  | response ticket reply =>
    cases reply with
    | none => exact True.intro
    | some values =>
      intro lookup found
      obtain ⟨call, stored, _, rfl⟩ := Pending.awaiting_mem found
      exact absent call stored
  | _ => exact True.intro

variable [Persistable α ω]

theorem absentWhileWaiting_preserved {server : List α} {details next : Details α ω} {event : DetailEvent α}
    {done : Completion α} (absent : details.AbsentWhileWaiting) (single : details.SingleLoads)
    (answers : Answers server details event) (ok : details.react event = .ok (next, done)) :
    next.AbsentWhileWaiting := by
  intro call waiting
  cases react_reaction ok with
  | hit stored => exact absent call waiting
  | miss missing =>
    rcases List.mem_append.mp waiting with old | new
    · exact absent call old
    · rw [List.mem_singleton.mp new]
      exact missing
  | timer ticket =>
    obtain ⟨old, stored, rfl⟩ := List.mem_map.mp waiting
    have before := absent old stored
    split <;> exact before
  | stray unknown => exact absent call waiting
  | failed found => exact absent call (List.mem_of_mem_filter waiting)
  | delivered found saved =>
    have rows := (Store.saveAll_result details.store.opened_realm saved).2
    obtain ⟨settled, stored, rfl, rfl⟩ := Pending.awaiting_mem found
    obtain ⟨old, apart⟩ := List.mem_filter.mp waiting
    have different : call.tag.argument ≠ settled.tag.argument := by
      intro same
      have equal : call = settled := List.inj_on_of_nodup_map single old stored same
      subst equal
      simp at apart
    unfold Store.matching
    rw [complete_store, rows, Keyed.classRows_append, answers _ found]
    have others : Keyed.classRows DetailObject.owner call.tag.argument
        (objects (answer server settled.tag.argument) : List ω) = [] := by
      rw [objects_answer]
      exact Keyed.classRows_other different
    rw [List.append_eq_nil_iff]
    exact ⟨absent call old, others⟩

theorem safe_of_landsOnAbsent {server : List α} {details : Details α ω} {event : DetailEvent α}
    (distinct : ((objects server : List ω).map RealmObject.primaryKey).Nodup)
    (from_server : FromServer server details) (answers : Answers server details event)
    (lands : details.LandsOnAbsent event) : details.Safe event := by
  have fresh := (freshSaves_iff_landsOnAbsent distinct from_server answers).mpr lands
  cases event with
  | response ticket reply =>
    cases reply with
    | none => exact True.intro
    | some values =>
      intro waits
      obtain ⟨lookup, found⟩ := Option.ne_none_iff_exists'.mp waits
      exact (Store.saveAll_ok_iff details.store.opened_realm).mp ((freshSaves_delivery_iff found).mp fresh)
  | _ => exact True.intro

end Details

namespace HomeView

/-- What the user and the server do: swipes are on rows shown, lists of posts are sound, and details
    are the server's answers. -/
def Sound (server : DetailServer) (home : HomeView) : Event → Prop
  | .lists event => PostsScene.Sound event ∧ home.posts.InRange event
  | .details event => DetailsScene.Answers server home.details event
  | .appear _ | .star _ => True

/-- One list of posts at most is under way, and one request for each user and for the comments of
    each post. -/
structure SingleLoads (home : HomeView) : Prop where
  posts : home.posts.pending.calls.length ≤ 1
  users : home.details.users.SingleLoads
  comments : home.details.comments.SingleLoads

instance (server : DetailServer) (home : HomeView) : ∀ event, Decidable (home.Sound server event)
  | .lists event => inferInstanceAs (Decidable (PostsScene.Sound event ∧ home.posts.InRange event))
  | .details event => inferInstanceAs (Decidable (DetailsScene.Each (Details.Answers server.users)
      (Details.Answers server.comments) home.details event))
  | .appear _ | .star _ => inferInstanceAs (Decidable True)

instance (home : HomeView) : Decidable home.SingleLoads :=
  decidable_of_iff (home.posts.pending.calls.length ≤ 1 ∧ home.details.users.SingleLoads ∧
    home.details.comments.SingleLoads)
    ⟨fun all => ⟨all.1, all.2.1, all.2.2⟩, fun all => ⟨all.posts, all.users, all.comments⟩⟩

structure AbsentWhileWaiting (server : DetailServer) (home : HomeView) : Prop where
  posts : home.posts.EmptyWhileWaiting
  users : home.details.users.AbsentWhileWaiting
  comments : home.details.comments.AbsentWhileWaiting
  fromServer : DetailsScene.FromServer server home.details

theorem safe_of_absentWhileWaiting {server : DetailServer} {home : HomeView} {event : Event}
    (absent : home.AbsentWhileWaiting server) (sound : home.Sound server event) : home.Safe event := by
  cases event with
  | lists event => exact PostsScene.safe_of_emptyWhileWaiting absent.posts sound.1 sound.2
  | appear screen => exact True.intro
  | star screen => exact True.intro
  | details event =>
    cases event with
    | users event =>
      exact Details.safe_of_landsOnAbsent (DetailsScene.distinct_users server) absent.fromServer.1 sound
        (Details.landsOnAbsent_of_waiting absent.users event)
    | comments event =>
      exact Details.safe_of_landsOnAbsent (DetailsScene.distinct_comments server) absent.fromServer.2 sound
        (Details.landsOnAbsent_of_waiting absent.comments event)

theorem absentWhileWaiting_preserved {server : DetailServer} {home next : HomeView} {event : Event}
    {done : Completions} (absent : home.AbsentWhileWaiting server) (sound : home.Sound server event)
    (single : home.SingleLoads) (ok : home.handle event = .ok (next, done)) :
    next.AbsentWhileWaiting server := by
  have posts : next.posts.EmptyWhileWaiting := by
    rcases handle_written ok with ⟨_, same⟩ | ⟨mark, _, handled⟩
    · rw [same]
      exact absent.posts
    · exact PostsScene.emptyWhileWaiting_preserved absent.posts single.posts handled
  cases handle_reaction ok with
  | lists handled => exact ⟨posts, absent.users, absent.comments, absent.fromServer⟩
  | appeared screen => exact ⟨posts, absent.users, absent.comments, absent.fromServer⟩
  | starred screen => exact ⟨posts, absent.users, absent.comments, absent.fromServer⟩
  | details handled =>
    have kept := DetailsScene.fromServer_preserved absent.fromServer sound handled
    rename_i event _ _
    cases event with
    | users event =>
      obtain ⟨users, completion, reacted, rfl, rfl⟩ := DetailsScene.handle_users handled
      have loads := Details.absentWhileWaiting_preserved absent.users single.users sound reacted
      exact ⟨posts, loads, absent.comments, kept⟩
    | comments event =>
      obtain ⟨comments, completion, reacted, rfl, rfl⟩ := DetailsScene.handle_comments handled
      have loads := Details.absentWhileWaiting_preserved absent.comments single.comments sound reacted
      exact ⟨posts, absent.users, loads, kept⟩

/-- Where no two loads of the same thing overlap, no order of events ends the process. -/
theorem home_survives_single_loads (server : DetailServer) (home : HomeView)
    (idle : home.posts.pending.calls = [] ∧ home.details.users.pending.calls = [] ∧
      home.details.comments.pending.calls = [])
    (stored : DetailsScene.FromServer server home.details) (events : List Event)
    (sound : Along handle (Sound server) home events)
    (single : Along handle (fun home _ => home.SingleLoads) home events) :
    ∃ final, run handle home events = .ok final := by
  have initial : home.AbsentWhileWaiting server := by
    apply AbsentWhileWaiting.mk _ _ _ stored
    · exact fun waiting => absurd idle.1 waiting
    · intro call waiting
      rw [idle.2.1] at waiting
      cases waiting
    · intro call waiting
      rw [idle.2.2] at waiting
      cases waiting
  have survives : ∃ final, run handle home events = .ok final ∧ final.AbsentWhileWaiting server := by
    refine run_completes ?_ initial (sound.both single)
    intro state event absent both
    obtain ⟨next, done, ok⟩ := (handle_completes_iff state event).mpr (safe_of_absentWhileWaiting absent both.1)
    exact ⟨next, done, ok, absentWhileWaiting_preserved absent both.1 both.2 ok⟩
  obtain ⟨final, completed, _⟩ := survives
  exact ⟨final, completed⟩

/-- The list is filled, the first post is opened, starred and then deleted while its comments are
    still awaited. -/
def sampleVisit : List Event :=
  [.lists (.appear .postsView), .lists (.timer 0), .lists (.response 0 (some PostsScene.sampleServer)),
    .appear 0, .details (.users (.appear 0)), .details (.comments (.appear 0)), .details (.users (.timer 0)),
    .star 0, .details (.users (.response 0 (some [DetailsScene.author]))), .lists (.appear .favoritesView),
    .lists (.deletePost ⟨[0, 2], by decide⟩), .details (.users (.appear 1)), .details (.comments (.timer 0)),
    .details (.comments (.response 0 none))]

def firstPost : Post := ⟨0, 1, "", "", false, false⟩

theorem home_survives_sample_visit :
    ∃ final, run handle (launch ⟨.empty, .empty, .empty⟩ fun _ => firstPost) sampleVisit = .ok final := by
  have sound : Along handle (Sound DetailsScene.sampleServer)
      (launch ⟨.empty, .empty, .empty⟩ fun _ => firstPost) sampleVisit := by decide +kernel
  have single : Along handle (fun home _ => home.SingleLoads)
      (launch ⟨.empty, .empty, .empty⟩ fun _ => firstPost) sampleVisit := by decide +kernel
  have stored : DetailsScene.FromServer DetailsScene.sampleServer
      (launch ⟨.empty, .empty, .empty⟩ fun _ => firstPost).details := by
    apply And.intro
    · intro object member
      cases member
    · intro object member
      cases member
  exact home_survives_single_loads DetailsScene.sampleServer _ ⟨rfl, rfl, rfl⟩ stored sampleVisit sound single

end HomeView

end ZemogaSocial
