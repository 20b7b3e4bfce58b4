import ZemogaSocial.Scenes.PostDetailScene

namespace ZemogaSocial.PostDetailScene

open Transition

/-- What a row may come to be: the row of the post may change its favourite mark and become read. -/
structure RowKept (post : Post) (old new : PostObject) : Prop where
  other : old.id ≠ post.id → new = old
  id : new.id = old.id
  userID : new.userID = old.userID
  title : new.title = old.title
  body : new.body = old.body
  read : new.read = old.read ∨ new.read = true

theorem RowKept.refl (post : Post) (object : PostObject) : RowKept post object object :=
  ⟨fun _ => rfl, rfl, rfl, rfl, rfl, .inl rfl⟩

theorem RowKept.trans {post : Post} {first second third : PostObject} (left : RowKept post first second)
    (right : RowKept post second third) : RowKept post first third where
  other := by
    intro different
    rw [right.other (left.id ▸ different), left.other different]
  id := right.id.trans left.id
  userID := right.userID.trans left.userID
  title := right.title.trans left.title
  body := right.body.trans left.body
  read := by
    rcases right.read with same | read
    · rw [same]
      exact left.read
    · exact .inr read

def RowsKept (post : Post) (before after : List PostObject) : Prop := List.Forall₂ (RowKept post) before after

theorem RowsKept.trans {post : Post} {first second third : List PostObject}
    (left : RowsKept post first second) (right : RowsKept post second third) : RowsKept post first third := by
  induction left generalizing third with
  | nil => exact right
  | cons head _ ih =>
    cases right with
    | cons next rest => exact .cons (head.trans next) (ih rest)

/-- The star of the screen is the stored one; a tap inverts it and an appearance leaves it. -/
def Toggles (scene : PostDetailScene) (event : Event) : Prop :=
  ∀ next done, scene.handle event = .ok (next, done) → next.storedStars = [next.detail.isFavorite] ∧
    next.storedStars = match event with
      | .star => scene.storedStars.map not
      | .appear => scene.storedStars

def starAfter (initial : Bool) (events : List Event) : Bool :=
  if events.count .star % 2 = 0 then initial else !initial

structure StarToggles (opened : PostDetailScene) (events : List Event) : Prop where
  each : Along handle Toggles opened events
  parity : ∀ front back reached, events = front ++ back → run handle opened front = .ok reached →
    reached.storedStars = [starAfter opened.detail.post.isFavorite front] ∧
    reached.detail.isFavorite = starAfter opened.detail.post.isFavorite front

/-- The star of the screen is that of the snapshot. -/
def AsOpened (scene : PostDetailScene) : Prop := scene.detail.isFavorite = scene.detail.post.isFavorite

def InStep (scene : PostDetailScene) : Prop := scene.storedStars = [scene.detail.isFavorite]

theorem toggles_iff {scene : PostDetailScene} {event : Event} (inStep : scene.InStep) :
    scene.Toggles event ↔ scene.AsOpened := by
  have star : scene.storedStars = [scene.detail.isFavorite] := inStep
  cases event with
  | appear =>
    have next : scene.Toggles .appear ↔ scene.storedStars = [scene.detail.post.isFavorite] := by
      rw [← storedStars_appear scene]
      apply Iff.intro
      · intro toggles
        exact (toggles scene.appear () rfl).1
      · intro same next done ok
        cases ok
        exact ⟨same, storedStars_appear scene⟩
    rw [next, star, AsOpened, List.singleton_inj]
  | star =>
    have tapped : scene.tapStar.storedStars = [!scene.detail.post.isFavorite] := by
      rw [storedStars_tapStar, star]
      rfl
    have next : scene.Toggles .star ↔ [!scene.detail.post.isFavorite] = scene.storedStars.map not := by
      rw [← tapped]
      apply Iff.intro
      · intro toggles
        exact (toggles scene.tapStar () rfl).2
      · intro same next done ok
        cases ok
        exact ⟨tapped, same⟩
    rw [next, star, AsOpened, List.map_singleton, List.singleton_inj]
    cases scene.detail.isFavorite <;> cases scene.detail.post.isFavorite <;> decide

theorem inStep_preserved {scene next : PostDetailScene} {event : Event} {done : Unit}
    (toggles : scene.Toggles event) (ok : scene.handle event = .ok (next, done)) : next.InStep :=
  (toggles next done ok).1

/-- A tap turns the star away from the snapshot, which the screen keeps. -/
theorem asOpened_iff_last {scene : PostDetailScene} (asOpened : scene.AsOpened) (events : List Event) :
    Along handle (fun state _ => state.AsOpened) scene events ↔
      ∀ event ∈ events.dropLast, event = .appear := by
  induction events generalizing scene with
  | nil => exact iff_of_true True.intro (by simp)
  | cons event rest ih =>
    cases rest with
    | nil =>
      apply iff_of_true
      · exact ⟨asOpened, fun _ _ _ => True.intro⟩
      · simp
    | cons second rest =>
      rw [List.dropLast_cons_cons, List.forall_mem_cons]
      cases event with
      | appear =>
        have next : scene.appear.AsOpened := rfl
        rw [← ih next]
        apply Iff.intro
        · intro both
          exact ⟨rfl, both.2 scene.appear () rfl⟩
        · intro both
          apply And.intro asOpened
          intro next done ok
          cases ok
          exact both.2
      | star =>
        apply iff_of_false
        · intro both
          have later : scene.tapStar.AsOpened := (both.2 scene.tapStar () rfl).1
          have turned : (!scene.detail.post.isFavorite) = scene.detail.post.isFavorite := later
          simp at turned
        · intro both
          cases both.1

def Event.turns (star : Bool) : Event → Bool
  | .appear => star
  | .star => !star

theorem starAfter_cons (initial : Bool) (event : Event) (events : List Event) :
    starAfter initial (event :: events) = starAfter (event.turns initial) events := by
  cases event with
  | appear => simp [starAfter, Event.turns]
  | star =>
    simp only [starAfter, Event.turns, List.count_cons_self]
    rcases Nat.mod_two_eq_zero_or_one (events.count .star) with even | odd
    · have next : (events.count .star + 1) % 2 = 1 := by omega
      simp [even, next]
    · have next : (events.count .star + 1) % 2 = 0 := by omega
      simp [odd, next]

theorem star_after {opened reached : PostDetailScene} {front : List Event} (inStep : opened.InStep)
    (toggles : Along handle Toggles opened front) (completed : run handle opened front = .ok reached) :
    reached.InStep ∧ reached.detail.isFavorite = starAfter opened.detail.isFavorite front := by
  induction front generalizing opened with
  | nil =>
    cases completed
    exact ⟨inStep, rfl⟩
  | cons event rest ih =>
    obtain ⟨next, done, handled, tail⟩ := run_cons_result completed
    have step := toggles.1 next done handled
    obtain ⟨final, star⟩ := ih step.1 (toggles.2 next done handled) tail
    apply And.intro final
    have star_next : next.detail.isFavorite = event.turns opened.detail.isFavorite := by
      have both := step.1.symm.trans step.2
      rw [inStep] at both
      cases event with
      | appear => exact List.singleton_inj.mp both
      | star => exact List.singleton_inj.mp both
    rw [star, star_next, starAfter_cons]

/-- An update of the rows with the id of the post keeps all rows if it keeps those. -/
theorem rowsKept_update {post : Post} {change : PostObject → PostObject}
    (kept : ∀ object, object.id = post.id → RowKept post object (change object)) (rows : List PostObject) :
    RowsKept post rows (rows.map fun object => if object.id == post.id then change object else object) := by
  apply List.forall₂_map_right_iff.mpr
  apply List.forall₂_same.mpr
  intro object _
  split
  · rename_i same
    exact kept object (beq_iff_eq.mp same)
  · exact .refl post object

theorem rowsKept_step {scene next : PostDetailScene} {event : Event} {done : Unit}
    (ok : scene.handle event = .ok (next, done)) : next.detail.post = scene.detail.post ∧
      RowsKept scene.detail.post scene.store.table.rows next.store.table.rows := by
  cases event with
  | appear =>
    cases ok
    have kept : ∀ object, object.id = scene.detail.post.id →
        RowKept scene.detail.post object { object with read := true } := by
      intro object same
      exact ⟨fun other => absurd same other, rfl, rfl, rfl, rfl, .inr rfl⟩
    exact ⟨rfl, rowsKept_update kept scene.store.table.rows⟩
  | star =>
    cases ok
    have kept : ∀ object, object.id = scene.detail.post.id →
        RowKept scene.detail.post object { object with isFavorite := !scene.detail.post.isFavorite } := by
      intro object same
      exact ⟨fun other => absurd same other, rfl, rfl, rfl, rfl, .inl rfl⟩
    exact ⟨rfl, rowsKept_update kept scene.store.table.rows⟩

theorem rowsKept_run (scene : PostDetailScene) (events : List Event) :
    ∃ final, run handle scene events = .ok final ∧ final.detail.post = scene.detail.post ∧
      RowsKept scene.detail.post scene.store.table.rows final.store.table.rows := by
  have every : Along handle (fun _ _ => True) scene events := along_of_forall (fun _ _ => True.intro) scene
  have start : scene.detail.post = scene.detail.post ∧
      RowsKept scene.detail.post scene.store.table.rows scene.store.table.rows :=
    ⟨rfl, List.forall₂_same.mpr fun object _ => .refl _ object⟩
  refine run_completes ?_ start every
  intro state event kept _
  have handled : ∃ next, state.handle event = .ok (next, ()) := by cases event <;> exact ⟨_, rfl⟩
  rcases handled with ⟨next, handled⟩
  have step := rowsKept_step handled
  rw [kept.1] at step
  exact ⟨next, (), handled, step.1, kept.2.trans step.2⟩

theorem along_toggles_iff {scene : PostDetailScene} (inStep : scene.InStep) (asOpened : scene.AsOpened)
    (events : List Event) :
    Along handle Toggles scene events ↔ ∀ event ∈ events.dropLast, event = .appear := by
  have every : Along handle (fun _ _ => True) scene events := along_of_forall (fun _ _ => True.intro) scene
  rw [← asOpened_iff_last asOpened events]
  apply along_iff_of_invariant _ _ inStep every
  · intro state event next done _ _ toggles ok
    exact inStep_preserved toggles ok
  · intro state event star _
    exact toggles_iff star

theorem starToggles_iff {scene : PostDetailScene} (inStep : scene.InStep) (asOpened : scene.AsOpened)
    (events : List Event) : StarToggles scene events ↔ Along handle Toggles scene events := by
  apply Iff.intro
  · intro toggles
    exact toggles.each
  · intro each
    apply StarToggles.mk each
    intro front back reached split completed
    subst split
    obtain ⟨star, flag⟩ := star_after inStep (along_front each) completed
    have stored : reached.storedStars = [reached.detail.isFavorite] := star
    rw [asOpened] at flag
    rw [stored, flag]
    exact ⟨rfl, rfl⟩

/-- From the first appearance on, the star of the screen is the stored one and each tap inverts it
    exactly if nothing follows a tap. Every run keeps the other rows and the other fields of the
    post, which may only become read. -/
theorem star_toggles_iff (scene : PostDetailScene)
    (snapshot : scene.storedStars = [scene.detail.post.isFavorite]) (events : List Event) :
    (StarToggles scene.appear events ↔ ∀ event ∈ events.dropLast, event = .appear) ∧
    ∃ final, run handle scene.appear events = .ok final ∧ final.detail.post = scene.detail.post ∧
      RowsKept scene.detail.post scene.store.table.rows final.store.table.rows := by
  have asOpened : scene.appear.AsOpened := rfl
  have inStep : scene.appear.InStep := (storedStars_appear scene).trans snapshot
  apply And.intro
  · rw [starToggles_iff inStep asOpened, along_toggles_iff inStep asOpened]
  · have appeared : scene.handle .appear = .ok (scene.appear, ()) := rfl
    have first := rowsKept_step appeared
    obtain ⟨final, completed, same, kept⟩ := rowsKept_run scene.appear events
    rw [first.1] at same kept
    exact ⟨final, completed, same, first.2.trans kept⟩

/-- A post that is stored without a star, opened from the list. -/
def unstarred : PostDetailScene where
  store := ⟨true, ⟨[{ id := 1 }], by decide⟩⟩
  detail := { post := { id := 1, userID := 0, title := "", body := "", read := false } }

theorem star_toggles_once : StarToggles unstarred.appear [.appear, .star] :=
  (star_toggles_iff unstarred rfl [.appear, .star]).1.mpr (by decide)

/-- The second tap leaves the star stored; an appearance after the first one hides it. -/
theorem star_stays_after_second_tap :
    unstarred.storedStars = [unstarred.detail.post.isFavorite] ∧
    (∃ final, run handle unstarred.appear [.star, .star] = .ok final ∧ final.storedStars = [true]) ∧
    (∃ final, run handle unstarred.appear [.star, .appear] = .ok final ∧ final.storedStars = [true] ∧
      final.detail.isFavorite = false) ∧
    ¬ StarToggles unstarred.appear [.star, .star] ∧ ¬ StarToggles unstarred.appear [.star, .appear] := by
  refine ⟨rfl, ⟨_, rfl, rfl⟩, ⟨_, rfl, rfl, rfl⟩, ?_, ?_⟩
  · intro toggles
    have twice := (toggles.parity [.star, .star] [] _ rfl rfl).1
    cases twice
  · intro toggles
    have shown := (toggles.parity [.star, .appear] [] _ rfl rfl).2
    cases shown

end ZemogaSocial.PostDetailScene
