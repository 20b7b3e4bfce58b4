import ZemogaSocial.Refinement.RealmStores

namespace ZemogaSocial

open ObjectStore Transition

section Results

variable {α ε δ : Type*} {result : Except ε α} {f : ε → δ}

theorem mapError_ok {value : α} (same : result.mapError f = .ok value) : result = .ok value := by
  cases result with
  | ok other => exact congrArg Except.ok (Except.ok.inj same)
  | error cause => cases same

theorem mapError_error {raised : δ} (same : result.mapError f = .error raised) :
    ∃ cause, result = .error cause ∧ f cause = raised := by
  cases result with
  | ok value => cases same
  | error cause => exact ⟨cause, rfl, Except.error.inj same⟩

end Results

namespace PostsScene

/-- The call of the store that an event comes to, if its handler gets there. -/
def called (scene : PostsScene) : Event → Option StoreOp
  | .response ticket (some json) =>
    match scene.pending.awaiting ticket, DataRequest.markFirst (json.map Post.decode) with
    | some _, .ok networkPosts => some (.savePosts networkPosts)
    | _, _ => none
  | .deletePost offsets =>
    match PostsView.postsAt scene.postsView.shown offsets.indices with
    | .ok postsToDelete => some (.delete postsToDelete)
    | .error _ => none
  | .deleteAll => some .deleteAll
  | .markAsRead post => some (.markAsRead post.managedObject)
  | .setFavorite post isFavorite => some (.setFavorite post.managedObject isFavorite)
  | .response _ none | .appear _ | .reload | .timer _ => none

/-- What a handler leaves on disk. -/
def left (scene : PostsScene) (event : Event) : Except (Abort (Rows PostObject)) (Rows PostObject) :=
  (scene.handle event).map fun result => result.1.store.table

theorem left_silent {scene : PostsScene} {event : Event} (silent : scene.called event = none) :
    scene.left event = .ok scene.store.table ∨
      ∃ i, scene.left event = .error ⟨.indexOutOfRange i, scene.store.table⟩ := by
  cases event with
  | appear owner => exact .inl (congrArg Except.ok (scene.loadData_table owner))
  | reload => exact .inl (congrArg Except.ok (loadData_table _ _))
  | timer ticket => exact .inl rfl
  | deleteAll | markAsRead | setFavorite => cases silent
  | deletePost offsets =>
    rw [called] at silent
    cases collected : PostsView.postsAt scene.postsView.shown offsets.indices with
    | ok objects =>
      rw [collected] at silent
      cases silent
    | error reason =>
      obtain ⟨i, _, _, rfl⟩ := PostsView.postsAt_abort collected
      refine .inr ⟨i, ?_⟩
      simp only [left, handle, deletePost, PostsView.deletePost, collected, Except.map]
  | response ticket reply =>
    cases found : scene.pending.awaiting ticket with
    | none =>
      refine .inl ?_
      simp only [left, handle, respond, found, Except.map]
    | some owner =>
      cases reply with
      | none =>
        refine .inl ?_
        simp only [left, handle, respond_failed found, Except.map, complete_store]
      | some json =>
        by_cases long : 20 ≤ (json.map Post.decode).length
        · rw [called, found, DataRequest.markFirst_long long] at silent
          cases silent
        · have short : json.length < 20 := by simpa using long
          refine .inr ⟨json.length, ?_⟩
          simp only [left, handle, respond_short found short, Except.map]

theorem left_called {scene : PostsScene} {event : Event} {op : StoreOp} (call : scene.called event = some op) :
    (scene.left event).mapError Failure.aborted =
      (PostStore.perform scene.store.opened op).map fun result => result.1.table := by
  cases event with
  | appear | reload | timer => cases call
  | deleteAll | markAsRead | setFavorite =>
    cases call
    rfl
  | deletePost offsets =>
    rw [called] at call
    cases collected : PostsView.postsAt scene.postsView.shown offsets.indices with
    | error reason =>
      rw [collected] at call
      cases call
    | ok objects =>
      rw [collected] at call
      cases call
      simp only [left, handle, deletePost, PostsView.deletePost, collected, PostStore.perform, Except.map]
      rfl
  | response ticket reply =>
    cases reply with
    | none => cases call
    | some json =>
      rw [called] at call
      cases found : scene.pending.awaiting ticket with
      | none =>
        rw [found] at call
        cases call
      | some owner =>
        cases marked : DataRequest.markFirst (json.map Post.decode) with
        | error i =>
          rw [found, marked] at call
          cases call
        | ok posts =>
          rw [found, marked] at call
          cases call
          simp only [left, handle, respond, found, DataRequest.receivePosts, marked, DataRequest.saveAndDeliver,
            PostStore.perform]
          cases PostStore.savePosts scene.store.opened posts with
          | ok store => simp [Except.map, Except.mapError]
          | error abort => simp [Except.map, Except.mapError]

end PostsScene

namespace Details

variable {α ω : Type} [RealmObject ω] [DetailObject ω] [Persistable α ω]

/-- The values that the save loop of an event goes through. -/
def called (details : Details α ω) : DetailEvent α → Option (List α)
  | .response ticket (some values) => (details.pending.awaiting ticket).map fun _ => values
  | .response _ none | .appear _ | .timer _ => none

def left (details : Details α ω) (event : DetailEvent α) : Except (Abort (Rows ω)) (Rows ω) :=
  (details.react event).map fun result => result.1.store.table

theorem left_silent {details : Details α ω} {event : DetailEvent α} (silent : details.called event = none) :
    details.left event = .ok details.store.table := by
  cases event with
  | timer ticket => rfl
  | appear view =>
    have loaded : details.left (.appear view) = .ok (details.load getMatching view).1.store.table := rfl
    rw [loaded]
    by_cases absent : details.store.matching (details.argument view) = []
    · rw [load_miss absent]
      rfl
    · rw [load_hit absent, complete_store]
      rfl
  | response ticket reply =>
    cases found : details.pending.awaiting ticket with
    | none => simp only [left, respond_stray found, Except.map]
    | some lookup =>
      cases reply with
      | none => simp only [left, respond_failed found, Except.map, complete_store]
      | some values =>
        rw [called, found] at silent
        cases silent

theorem left_called {details : Details α ω} {event : DetailEvent α} {values : List α}
    (call : details.called event = some values) :
    details.left event = (details.store.opened.saveAll values).map fun store => store.table := by
  cases event with
  | timer | appear => cases call
  | response ticket reply =>
    cases reply with
    | none => cases call
    | some values =>
      cases found : details.pending.awaiting ticket with
      | none =>
        rw [called, found] at call
        cases call
      | some lookup =>
        rw [called, found] at call
        cases call
        rw [left, respond_delivery found]
        cases details.store.opened.saveAll values with
        | ok store => simp only [Except.map, complete_store]
        | error abort => rfl

end Details

namespace HomeView

/-- The stores as a handler has them once it has set their `realm`. -/
def stores (home : HomeView) : Stores :=
  ⟨home.posts.store.opened, home.details.users.store.opened, home.details.comments.store.opened⟩

def called (home : HomeView) : Event → Option StoresOp
  | .lists event => (home.posts.called event).map .posts
  | .appear screen => some (.posts (.markAsRead (home.screens screen).post.managedObject))
  | .star screen => some (.posts (.setFavorite (home.screens screen).post.managedObject
      !(home.screens screen).post.isFavorite))
  | .details (.users event) => (home.details.users.called event).map .users
  | .details (.comments event) => (home.details.comments.called event).map .comments

def calls (home : HomeView) : List Event → List StoresOp
  | [] => []
  | event :: rest => (home.called event).toList ++
    match home.handle event with
    | .ok (next, _) => next.calls rest
    | .error _ => []

def left (home : HomeView) (event : Event) : Except (Abort Tables) Tables :=
  (home.handle event).map fun result => result.1.tables

theorem left_lists (home : HomeView) (event : PostsScene.Event) :
    home.left (.lists event) = match home.posts.left event with
      | .ok posts => .ok { home.tables with posts }
      | .error abort => .error ⟨abort.reason, { home.tables with posts := abort.durable }⟩ := by
  unfold left PostsScene.left
  rw [handle]
  cases home.posts.handle event <;> rfl

theorem left_users (home : HomeView) (event : DetailEvent User) :
    home.left (.details (.users event)) = match home.details.users.left event with
      | .ok users => .ok { home.tables with users }
      | .error abort => .error ⟨abort.reason, { home.tables with users := abort.durable }⟩ := by
  unfold left Details.left
  rw [handle, DetailsScene.handle, Details.userView_handle]
  cases home.details.users.react event <;> rfl

theorem left_comments (home : HomeView) (event : DetailEvent Comment) :
    home.left (.details (.comments event)) = match home.details.comments.left event with
      | .ok comments => .ok { home.tables with comments }
      | .error abort => .error ⟨abort.reason, { home.tables with comments := abort.durable }⟩ := by
  unfold left Details.left
  rw [handle, DetailsScene.handle, Details.commentView_handle]
  cases home.details.comments.react event <;> rfl

theorem left_silent {home : HomeView} {event : Event} (silent : home.called event = none) :
    home.left event = .ok home.tables ∨ ∃ i, home.left event = .error ⟨.indexOutOfRange i, home.tables⟩ := by
  cases event with
  | appear | star => cases silent
  | lists event =>
    rw [left_lists]
    rcases PostsScene.left_silent (Option.map_eq_none_iff.mp silent) with kept | ⟨i, trapped⟩
    · exact .inl (by rw [kept]; rfl)
    · exact .inr ⟨i, by rw [trapped]; rfl⟩
  | details event =>
    cases event with
    | users event =>
      rw [left_users, Details.left_silent (Option.map_eq_none_iff.mp silent)]
      exact .inl rfl
    | comments event =>
      rw [left_comments, Details.left_silent (Option.map_eq_none_iff.mp silent)]
      exact .inl rfl

theorem left_called {home : HomeView} {event : Event} {op : StoresOp} (call : home.called event = some op) :
    (home.left event).mapError Failure.aborted = (home.stores.perform op).map fun result => result.1.tables := by
  cases event with
  | appear | star =>
    cases call
    rfl
  | lists event =>
    obtain ⟨op, posts, rfl⟩ := Option.map_eq_some_iff.mp call
    have same : _ = (PostStore.perform home.stores.posts op).map _ := PostsScene.left_called posts
    rw [left_lists, Stores.perform]
    cases performed : PostStore.perform home.stores.posts op with
    | ok result =>
      rw [performed] at same
      rw [mapError_ok same]
      rfl
    | error failure =>
      rw [performed] at same
      obtain ⟨abort, left, rfl⟩ := mapError_error same
      rw [left]
      rfl
  | details event =>
    cases event with
    | users event =>
      obtain ⟨values, users, rfl⟩ := Option.map_eq_some_iff.mp call
      rw [left_users, Details.left_called users, Stores.perform]
      have same : home.stores.users.saveUsers values = home.details.users.store.opened.saveAll values := rfl
      rw [same]
      cases home.details.users.store.opened.saveAll values <;> rfl
    | comments event =>
      obtain ⟨values, comments, rfl⟩ := Option.map_eq_some_iff.mp call
      rw [left_comments, Details.left_called comments, Stores.perform]
      have same : home.stores.comments.saveComments values = home.details.comments.store.opened.saveAll values := rfl
      rw [same]
      cases home.details.comments.store.opened.saveAll values <;> rfl

/-- How a run of the process and its Realm calls have ended. A trap of Swift comes between two of them. -/
inductive OnDisk : Except (Abort Tables) Tables → Execution → Prop where
  | completed {tables : Tables} {group : Group} {execution : Execution} (held : OnRealm tables group)
      (ends : Ends group execution) : OnDisk (.ok tables) execution
  | trapped {index : Nat} {tables : Tables} {group : Group} {execution : Execution} (held : OnRealm tables group)
      (ends : Ends group execution) : OnDisk (.error ⟨.indexOutOfRange index, tables⟩) execution
  | raised {id : Int64} {tables : Tables} {className : String} {group : Group} {execution : Execution}
      (held : OnRealm tables group) (raises : Raises group (.existingPrimaryKey className (.int id)) execution) :
      OnDisk (.error ⟨.existingPrimaryKey id, tables⟩) execution

theorem OnDisk.after {result : Except (Abort Tables) Tables} {group : Group} {execution : Execution}
    {rest : Realm → Execution} (later : OnDisk result (rest { group })) (ends : Ends group execution) :
    OnDisk result (execution.andThen rest) := by
  cases later with
  | completed held last => exact .completed held (ends.andThen last)
  | trapped held last => exact .trapped held (ends.andThen last)
  | raised held raises => exact .raised held (ends.andThen_raises raises)

theorem left_onDisk {home : HomeView} {event : Event} {op : StoresOp} {group : Group}
    (held : OnRealm home.tables group) (call : home.called event = some op) :
    OnDisk (home.left event) (op.program.exec classInfo { group }) := by
  have same := left_called call
  have stored : OnRealm home.stores.tables group := held
  have agrees := perform_agrees ⟨rfl, rfl, rfl⟩ stored op
  cases performed : home.stores.perform op with
  | ok result =>
    rw [performed] at same agrees
    rw [mapError_ok same]
    cases agrees with
    | completed opened held ends => exact .completed held ends
  | error failure =>
    rw [performed] at same agrees
    obtain ⟨abort, left, rfl⟩ := mapError_error same
    rw [left]
    cases agrees with
    | aborted held raises => exact .raised held raises

theorem handled_onDisk {home : HomeView} {group : Group} (event : Event) (held : OnRealm home.tables group) :
    OnDisk (home.left event) ((programOf (home.called event).toList).exec classInfo { group }) := by
  cases call : home.called event with
  | some op =>
    rw [Option.toList_some, exec_once]
    exact left_onDisk held call
  | none =>
    rcases left_silent call with kept | ⟨i, trapped⟩
    · rw [kept]
      exact .completed held ⟨rfl, rfl⟩
    · rw [trapped]
      exact .trapped held ⟨rfl, rfl⟩

theorem left_ok {home next : HomeView} {event : Event} {done : Completions}
    (handled : home.handle event = .ok (next, done)) : home.left event = .ok next.tables := by
  rw [left, handled]
  rfl

theorem left_error {home : HomeView} {event : Event} {abort : Abort Tables}
    (handled : home.handle event = .error abort) : home.left event = .error abort := by
  rw [left, handled]
  rfl

theorem calls_onDisk {home : HomeView} {group : Group} (events : List Event) (held : OnRealm home.tables group) :
    OnDisk ((run handle home events).map tables) ((programOf (home.calls events)).exec classInfo { group }) := by
  induction events generalizing home group with
  | nil => exact .completed held ⟨rfl, rfl⟩
  | cons event rest ih =>
    have first := handled_onDisk event held
    rw [calls, exec_append]
    cases handled : home.handle event with
    | ok result =>
      rw [left_ok handled] at first
      rw [run_cons_ok rest handled]
      cases first with
      | completed held ends => exact (ih held).after ends
    | error abort =>
      rw [left_error handled] at first
      rw [run_cons_error rest handled]
      cases first with
      | trapped held ends => exact .trapped held (ends.andThen ⟨rfl, rfl⟩)
      | raised held raises => exact .raised held (raises.andThen _)

/-- Whatever the order of its events, the process leaves in its file what Realm makes of the calls
    that its handlers come to, up to the call that raises. -/
theorem home_runs_on_realm (home : HomeView) (events : List Event) (group : Group)
    (held : OnRealm home.tables group) :
    OnDisk ((run handle home events).map tables) ((programOf (home.calls events)).exec classInfo { group }) :=
  calls_onDisk events held

def emptyHome : HomeView := launch ⟨.empty, .empty, .empty⟩ fun _ => ⟨4, 1, "a", "b", false, false⟩

/-- Two screens of one post ask for its comments before either answer is saved. -/
def loadedTwice : List Event :=
  [.appear 0, .details (.comments (.appear 0)), .details (.comments (.appear 1)), .details (.comments (.timer 0)),
    .details (.comments (.timer 1)), .details (.comments (.response 0 (some [⟨9, 4, "n", "e", "c"⟩]))), .star 0,
    .details (.comments (.response 1 (some [⟨9, 4, "n", "e", "c"⟩])))]

theorem home_runs_on_realm_twice :
    (∃ durable, run handle emptyHome loadedTwice = .error ⟨.existingPrimaryKey 9, durable⟩) ∧
      OnDisk ((run handle emptyHome loadedTwice).map tables)
        ((programOf (emptyHome.calls loadedTwice)).exec classInfo { group := fun _ => [] }) :=
  ⟨⟨_, rfl⟩, home_runs_on_realm emptyHome loadedTwice _ ⟨rfl, rfl, rfl⟩⟩

end HomeView

end ZemogaSocial
