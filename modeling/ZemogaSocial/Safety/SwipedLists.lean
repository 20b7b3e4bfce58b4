import ZemogaSocial.Safety.ShownRows

namespace ZemogaSocial

theorem IndexSet.marks_single {offsets : IndexSet} {i count : Nat} (single : offsets.indices = [i])
    (inRange : i < count) :
    offsets.marks count = List.replicate i false ++ true :: List.replicate (count - i - 1) false := by
  apply List.ext_getElem
  · simp only [marks, List.length_map, List.length_range, List.length_append, List.length_cons,
      List.length_replicate]
    omega
  · intro j left right
    simp only [marks, single, List.getElem_map, List.getElem_range, List.mem_singleton]
    rcases Nat.lt_trichotomy j i with before | here | after
    · rw [List.getElem_append_left (by simpa using before), List.getElem_replicate]
      exact decide_eq_false (Nat.ne_of_lt before)
    · subst here
      rw [List.getElem_append_right (by simp)]
      simp
    · obtain ⟨d, rfl⟩ := Nat.exists_eq_add_of_lt after
      rw [List.getElem_append_right (by simp; omega)]
      have offset : i + d + 1 - (List.replicate i false).length = d + 1 := by
        rw [List.length_replicate]
        omega
      simp only [offset, List.getElem_cons_succ, List.getElem_replicate]
      exact decide_eq_false (by omega)

theorem IndexSet.inPlace_single_iff {offsets : IndexSet} {i count : Nat} (single : offsets.indices = [i])
    (inRange : i < count) : Keyed.InPlace (offsets.marks count) ↔ count ≤ i + 2 := by
  rw [marks_single single inRange, Keyed.inPlace_single]
  omega

namespace PostsScene

open Transition

/-- The offsets of a swipe are positions of rows that `PostsView` shows. -/
def InRange (scene : PostsScene) : Event → Prop
  | .deletePost offsets => ∀ i ∈ offsets.indices, i < scene.postsView.shown.length
  | _ => True

/-- The view and the store hold the same posts, and what the store delivers is what the next load of
    the view delivers while there is any. -/
structure SamePosts (scene : PostsScene) : Prop where
  stored : scene.store.loadPostsFromRealm.2 = some scene.storedPosts
  shown : scene.postsView.shown.Perm scene.storedPosts
  delivered : scene.storedPosts ≠ [] →
    (scene.loadData .postsView).2 = some (.postsView, some scene.storedPosts)

def Swiped (scene : PostsScene) (event : Event) : Prop :=
  ∀ next done, scene.handle event = .ok (next, done) → next.SamePosts ∧
    ∀ offsets, event = .deletePost offsets →
      next.postsView.shown = offsets.removeFrom scene.postsView.shown

def InOrder (scene : PostsScene) : Prop := scene.postsView.shown = scene.storedPosts

def OrderKept (scene : PostsScene) (event : Event) : Prop :=
  ∀ next done, scene.handle event = .ok (next, done) → next.InOrder

def SwipedInPlace (scene : PostsScene) : Event → Prop
  | .deletePost offsets => Keyed.InPlace (offsets.marks scene.postsView.shown.length)
  | _ => True

theorem samePosts_of_perm {scene : PostsScene} (shown : scene.postsView.shown.Perm scene.storedPosts) :
    scene.SamePosts := by
  apply SamePosts.mk _ shown
  · intro some
    have stored : scene.store.table.rows ≠ [] := fun none => some (List.map_eq_nil_iff.mpr none)
    rw [loadData_hit stored]
  · rw [PostStore.loadPostsFromRealm_eq]
    rfl

theorem deletePost_perm {scene next : PostsScene} {offsets : IndexSet}
    (same : scene.postsView.shown.Perm scene.storedPosts) (ok : scene.deletePost offsets = .ok next) :
    next.postsView.shown.Perm next.storedPosts := by
  obtain ⟨objects, rfl, ids⟩ := deletePost_result ok
  have distinct : (scene.postsView.shown.map Post.id).Nodup :=
    (same.map Post.id).nodup_iff.mpr scene.storedPosts_distinct
  have kept := IndexSet.removeFrom_sublist offsets scene.postsView.shown
  have left := (distinct.of_map).sublist kept
  apply (List.perm_ext_iff_of_nodup left (storedPosts_distinct _).of_map).mpr
  intro post
  rw [mem_storedPosts, PostStore.mem_delete, ← mem_storedPosts, ← same.mem_iff]
  apply Iff.intro
  · intro shown
    exact ⟨kept.subset shown, removed_id_ne distinct ids shown⟩
  · intro stored
    rcases stored with ⟨shown, spared⟩
    obtain ⟨i, here⟩ := List.getElem?_of_mem shown
    refine IndexSet.mem_removeFrom.mpr ⟨i, here, ?_⟩
    intro inside
    exact spared post.managedObject ((ids _).mpr ⟨i, inside, post, here, rfl⟩) rfl

theorem deletePost_inRange {scene : PostsScene} {offsets : IndexSet}
    (inRange : scene.InRange (.deletePost offsets)) :
    scene.deletePost offsets = .ok { scene with
      store := (scene.store.delete
        ((offsets.indices.filterMap fun i => scene.postsView.shown[i]?).map Post.managedObject)).1
      postsView := { scene.postsView with shown := offsets.removeFrom scene.postsView.shown } } := by
  unfold deletePost PostsView.deletePost
  rw [PostsView.postsAt_inRange inRange]
  rfl

/-- What a swipe collects from the list of the view are the marked rows of the table. -/
theorem swiped_objects {scene : PostsScene} {offsets : IndexSet} {gone : PostObject → Bool}
    (same : scene.postsView.shown = scene.storedPosts) (inRange : scene.InRange (.deletePost offsets))
    (marked : ∀ i object, scene.store.table.rows[i]? = some object →
      gone object = decide (i ∈ offsets.indices)) :
    (offsets.indices.filterMap fun i => scene.postsView.shown[i]?).map Post.managedObject =
      scene.store.table.rows.filter gone := by
  have bounds : ∀ i ∈ offsets.indices, i < scene.store.table.rows.length := by
    intro i member
    have shown := inRange i member
    rw [same, storedPosts, List.length_map] at shown
    exact shown
  rw [← IndexSet.selected_eq marked bounds, same, List.map_filterMap]
  apply List.filterMap_congr
  intro i _
  rw [storedPosts, List.getElem?_map, Option.map_map]
  exact Option.map_id_apply

theorem ofManaged_injective : Function.Injective Post.ofManaged := by
  intro first second equal
  exact congrArg Post.managedObject equal

/-- The list of the view and the table run through the same removals, by position in the one and
    row after row in the other. -/
theorem deletePost_order_iff {scene next : PostsScene} {offsets : IndexSet}
    (same : scene.postsView.shown = scene.storedPosts) (inRange : scene.InRange (.deletePost offsets))
    (ok : scene.deletePost offsets = .ok next) :
    next.postsView.shown = next.storedPosts ↔
      Keyed.InPlace (offsets.marks scene.postsView.shown.length) := by
  have distinct : scene.store.table.rows.Nodup := scene.store.table.distinct.of_map
  obtain ⟨gone, marked⟩ := offsets.exists_mark distinct
  have removed := deletePost_inRange inRange
  rw [ok, swiped_objects same inRange marked] at removed
  cases removed
  have stored : ∀ object ∈ scene.store.table.rows.filter gone, object ∈ scene.store.table.rows :=
    fun object member => (List.mem_filter.mp member).1
  have left : offsets.removeFrom scene.postsView.shown =
      (scene.store.table.rows.filter fun object => !gone object).map Post.ofManaged := by
    rw [same, storedPosts, IndexSet.removeFrom_map, IndexSet.removeFrom_eq marked]
  have length : scene.postsView.shown.length = scene.store.table.rows.length := by
    rw [same, storedPosts, List.length_map]
  show offsets.removeFrom scene.postsView.shown =
    (scene.store.delete (scene.store.table.rows.filter gone)).1.table.rows.map Post.ofManaged ↔ _
  rw [left, PostStore.delete_rows stored, (List.map_injective_iff.mpr ofManaged_injective).eq_iff, eq_comm,
    Keyed.removeEach_order_iff distinct gone, IndexSet.map_marks marked, length]

theorem swiped_of_samePosts {scene : PostsScene} {offsets : IndexSet} (same : scene.SamePosts) :
    scene.Swiped (.deletePost offsets) := by
  intro next done ok
  have deleted := (handle_deletePost ok).1
  apply And.intro (samePosts_of_perm (deletePost_perm same.shown deleted))
  intro others equal
  cases equal
  obtain ⟨objects, rfl, _⟩ := deletePost_result deleted
  rfl

theorem orderKept_iff {scene : PostsScene} {offsets : IndexSet} (same : scene.InOrder)
    (inRange : scene.InRange (.deletePost offsets)) :
    scene.OrderKept (.deletePost offsets) ↔ scene.SwipedInPlace (.deletePost offsets) := by
  have deleted := deletePost_inRange inRange
  have ok : ∃ next, scene.handle (.deletePost offsets) = .ok (next, none) := by
    rw [handle, deleted]
    exact ⟨_, rfl⟩
  rcases ok with ⟨next, ok⟩
  have order := deletePost_order_iff same inRange (handle_deletePost ok).1
  apply Iff.intro
  · intro kept
    exact order.mp (kept next none ok)
  · intro inPlace other done result
    rw [ok] at result
    cases result
    exact order.mpr inPlace

theorem swipe_progress {scene : PostsScene} {event : Event} (same : scene.SamePosts)
    (permitted : (∃ offsets, event = .deletePost offsets) ∧ scene.InRange event) :
    ∃ next done, scene.handle event = .ok (next, done) ∧ next.SamePosts := by
  rcases permitted with ⟨⟨offsets, rfl⟩, inRange⟩
  have deleted := deletePost_inRange inRange
  refine ⟨_, none, ?_, samePosts_of_perm (deletePost_perm same.shown deleted)⟩
  rw [handle, deleted]
  rfl

/-- Swipes from a state in which the view shows the table complete, and after each of them the two
    hold the same posts. They hold them in the same order as long as each swipe removes rows in
    place, and a swipe of one row does so as the last row or the one before it. -/
theorem swiped_lists_agree (scene : PostsScene) (same : scene.postsView.shown = scene.storedPosts)
    (swipes : List IndexSet) (inRange : Along handle InRange scene (swipes.map .deletePost)) :
    (∃ final, run handle scene (swipes.map .deletePost) = .ok final) ∧
    Along handle Swiped scene (swipes.map .deletePost) ∧
    (Along handle OrderKept scene (swipes.map .deletePost) ↔
      Along handle SwipedInPlace scene (swipes.map .deletePost)) ∧
    ∀ (offsets : IndexSet) (i count : Nat), offsets.indices = [i] → i < count →
      (Keyed.InPlace (offsets.marks count) ↔ count ≤ i + 2) := by
  have swipe : ∀ event ∈ swipes.map Event.deletePost, ∃ offsets, event = .deletePost offsets := by
    intro event member
    obtain ⟨offsets, _, rfl⟩ := List.mem_map.mp member
    exact ⟨offsets, rfl⟩
  have permitted := (along_of_forall swipe scene).both inRange
  have posts : scene.SamePosts := samePosts_of_perm (.of_eq same)
  have ordered : scene.InOrder := same
  refine ⟨?_, ?_, ?_, ?_⟩
  · obtain ⟨final, completed, _⟩ := run_completes (fun _ _ => swipe_progress) posts permitted
    exact ⟨final, completed⟩
  · apply along_of_invariant _ _ posts permitted
    · intro state event next done posts allowed ok
      obtain ⟨other, out, handled, kept⟩ := swipe_progress posts allowed
      rw [ok] at handled
      cases handled
      exact kept
    · intro state event posts allowed
      rcases allowed with ⟨⟨offsets, rfl⟩, _⟩
      exact swiped_of_samePosts posts
  · apply along_iff_of_invariant _ _ ordered permitted
    · intro state event next done _ _ kept ok
      exact kept next done ok
    · intro state event equal allowed
      rcases allowed with ⟨⟨offsets, rfl⟩, bounds⟩
      exact orderKept_iff equal bounds
  · intro offsets i count
    exact IndexSet.inPlace_single_iff

instance (scene : PostsScene) : ∀ event, Decidable (scene.InRange event)
  | .deletePost offsets =>
    inferInstanceAs (Decidable (∀ i ∈ offsets.indices, i < scene.postsView.shown.length))
  | .appear _ | .reload | .timer _ | .response _ _ | .deleteAll | .markAsRead _ | .setFavorite _ _ =>
    inferInstanceAs (Decidable True)

def threePosts : Rows PostObject := ⟨[{ id := 1 }, { id := 2 }, { id := 3 }], by decide⟩

/-- The second of three posts is swiped away, then the first of the two left. -/
theorem swiped_lists_agree_near_the_end :
    ∃ before, run handle (launch threePosts) [.appear .postsView] = .ok before ∧
      Along handle OrderKept before [.deletePost ⟨[1], by decide⟩, .deletePost ⟨[0], by decide⟩] := by
  refine ⟨_, rfl, ?_⟩
  refine (swiped_lists_agree _ rfl [⟨[1], by decide⟩, ⟨[0], by decide⟩] (by decide +kernel)).2.2.1.mpr ?_
  refine ⟨(IndexSet.inPlace_single_iff rfl (by decide)).mpr (by decide), ?_⟩
  intro next done ok
  cases ok
  refine ⟨(IndexSet.inPlace_single_iff rfl (by decide)).mpr (by decide), ?_⟩
  intro _ _ _
  exact True.intro

/-- The first of three posts is swiped away: the view shows 2 and 3, the store delivers 3 and 2. -/
theorem swiped_first_of_three :
    ∃ before next, run handle (launch threePosts) [.appear .postsView] = .ok before ∧
      before.postsView.shown = before.storedPosts ∧
      before.handle (.deletePost ⟨[0], by decide⟩) = .ok (next, none) ∧
      next.store.loadPostsFromRealm.2 = some next.storedPosts ∧
      (next.loadData .postsView).2 = some (.postsView, some next.storedPosts) ∧
      next.postsView.shown.map Post.id = [2, 3] ∧ next.storedPosts.map Post.id = [3, 2] :=
  ⟨_, _, rfl, rfl, rfl, rfl, rfl, rfl, rfl⟩

end PostsScene

end ZemogaSocial
