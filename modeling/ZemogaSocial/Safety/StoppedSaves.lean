import ZemogaSocial.Safety.PostLoads

namespace ZemogaSocial

open DataRequest

/-- A new process: the table is as durable as it was, and no store has opened its Realm. -/
def Store.restarted {ω : Type} [RealmObject ω] (store : Store ω) : Store ω := ⟨false, store.table⟩

def AllOrNothing {α : Type} (cached : Option (List α)) (whole : List α) : Prop :=
  cached = none ∨ cached = some whole

section Stops

variable {α ω : Type} [RealmObject ω] [Persistable α ω] [LawfulPersistable α]

theorem load_stopped {store stopped : Store ω} {values : List α} {n : Nat} {p : ω → Bool}
    (absent : ∀ object ∈ store.table.rows, p object = false)
    (selects : ∀ value ∈ values, p (Persistable.managedObject value) = true)
    (stop : store.opened.stoppedAfter n values = some stopped) :
    n ≤ values.length ∧
      (stopped.restarted.load fun store => store.retrieve p).2 = some (values.take n) := by
  obtain ⟨bound, _, rows⟩ := Store.stoppedAfter_rows store.opened_realm stop
  have before : store.opened.table.rows.filter p = [] := by
    apply List.filter_eq_nil_iff.mpr
    intro object member
    simp [absent object member]
  have after : ((values.take n).map Persistable.managedObject).filter p =
      (values.take n).map Persistable.managedObject := by
    apply List.filter_eq_self.mpr
    intro object member
    obtain ⟨value, taken, same⟩ := List.mem_map.mp member
    rw [← same]
    exact selects value (List.mem_of_mem_take taken)
  refine ⟨bound, ?_⟩
  rw [Store.load_eq, Store.restarted, rows, List.filter_append, before, after, List.nil_append, List.map_map]
  simp [Function.comp_def]

theorem cacheHit_take_iff {values : List α} {n : Nat} (bound : n ≤ values.length) :
    AllOrNothing (cacheHit (some (values.take n))) values ↔ n = 0 ∨ n = values.length := by
  by_cases nothing : values.take n = []
  · have length : n = 0 := by
      have taken := congrArg List.length nothing
      rw [List.length_take, List.length_nil] at taken
      omega
    rw [nothing, cacheHit_nil]
    exact iff_of_true (.inl rfl) (.inl length)
  · have started : n ≠ 0 := by
      intro zero
      rw [zero] at nothing
      exact nothing rfl
    rw [cacheHit_cons nothing]
    simp only [AllOrNothing, reduceCtorEq, false_or, Option.some.injEq, started]
    apply Iff.intro
    · intro all
      have length := congrArg List.length all
      rw [List.length_take] at length
      omega
    · intro last
      rw [last, List.take_length]

end Stops

/-- A stop in the save loop leaves all or nothing of the list to the next process exactly when it
    comes before the first commit or after the last one; a raise is one of these stops. -/
theorem stopped_saves_iff (postStore : PostStore) (posts : List Post)
    (empty : postStore.table.rows = []) (commentStore : CommentStore) (comments : List Comment)
    (postId : Int64) (ofPost : ∀ comment ∈ comments, comment.postId = postId)
    (absent : ∀ object ∈ commentStore.table.rows, object.postId ≠ postId) :
    (∀ n stopped, postStore.opened.stoppedAfter n posts = some stopped →
      (AllOrNothing (getPosts stopped.restarted).2 posts ↔ n = 0 ∨ n = posts.length)) ∧
    (∀ abort, postStore.opened.saveAll posts = .error abort →
      ∃ n stopped, postStore.opened.stoppedAfter n posts = some stopped ∧ stopped.table = abort.durable) ∧
    (∀ n stopped, commentStore.opened.stoppedAfter n comments = some stopped →
      (AllOrNothing (getComments stopped.restarted postId).2 comments ↔ n = 0 ∨ n = comments.length)) ∧
    (∀ abort, commentStore.opened.saveAll comments = .error abort →
      ∃ n stopped, commentStore.opened.stoppedAfter n comments = some stopped ∧
        stopped.table = abort.durable) := by
  refine ⟨?_, fun abort => Store.saveAll_abort_stopped, ?_, fun abort => Store.saveAll_abort_stopped⟩
  · intro n stopped stop
    have none : ∀ object ∈ postStore.table.rows, (fun _ : PostObject => true) object = false := by simp [empty]
    have found := load_stopped none (by simp) stop
    have cached : (getPosts stopped.restarted).2 = cacheHit (some (posts.take n)) :=
      congrArg cacheHit found.2
    rw [cached]
    exact cacheHit_take_iff found.1
  · intro n stopped stop
    have none : ∀ object ∈ commentStore.table.rows, (object.postId == postId) = false := by simpa using absent
    have all : ∀ comment ∈ comments, ((Persistable.managedObject comment).postId == postId) = true := by
      intro comment member
      exact beq_iff_eq.mpr (ofPost comment member)
    have found := load_stopped none all stop
    have cached : (getComments stopped.restarted postId).2 = cacheHit (some (comments.take n)) :=
      congrArg cacheHit found.2
    rw [cached]
    exact cacheHit_take_iff found.1

def sampleFetched : List Post := PostsScene.fetched PostsScene.sampleServer

def firstLaunch {ω : Type} [RealmObject ω] : Store ω := ⟨false, .empty⟩

def twoComments : List Comment := [⟨1, 7, "", "", ""⟩, ⟨2, 7, "", "", ""⟩]

theorem stopped_saves_after_the_last_commit :
    ∃ posts comments, (firstLaunch.opened : PostStore).stoppedAfter 20 sampleFetched = some posts ∧
      AllOrNothing (getPosts posts.restarted).2 sampleFetched ∧
      (firstLaunch.opened : CommentStore).stoppedAfter 2 twoComments = some comments ∧
      AllOrNothing (getComments comments.restarted 7).2 twoComments := by
  have all := stopped_saves_iff firstLaunch sampleFetched rfl firstLaunch twoComments 7 (by decide)
    (fun _ stored => nomatch stored)
  have postsStop : ((firstLaunch.opened : PostStore).stoppedAfter 20 sampleFetched).isSome = true := by
    decide +kernel
  have commentsStop : ((firstLaunch.opened : CommentStore).stoppedAfter 2 twoComments).isSome = true := by
    decide +kernel
  obtain ⟨posts, savedPosts⟩ := Option.isSome_iff_exists.mp postsStop
  obtain ⟨comments, savedComments⟩ := Option.isSome_iff_exists.mp commentsStop
  exact ⟨posts, comments, savedPosts, (all.1 20 posts savedPosts).mpr (.inr rfl), savedComments,
    (all.2.2.1 2 comments savedComments).mpr (.inr rfl)⟩

/-- The process is killed after the first of 20 commits, or ended by a repeated id after two of
    three; each time the next cache answer is what was saved so far. -/
theorem stopped_saves_partial :
    (∃ stopped, (firstLaunch.opened : PostStore).stoppedAfter 1 sampleFetched = some stopped ∧
      (getPosts stopped.restarted).2 = some (sampleFetched.take 1) ∧
      ¬ AllOrNothing (getPosts stopped.restarted).2 sampleFetched) ∧
    ∃ durable, (firstLaunch.opened : CommentStore).saveAll (twoComments ++ twoComments.take 1) =
        .error ⟨.existingPrimaryKey 1, durable⟩ ∧
      (getComments ⟨false, durable⟩ 7).2 = some twoComments ∧
      ¬ AllOrNothing (getComments ⟨false, durable⟩ 7).2 (twoComments ++ twoComments.take 1) := by
  refine ⟨⟨_, rfl, rfl, ?_⟩, _, rfl, rfl, ?_⟩
  · intro either
    rcases either with missed | whole
    · cases missed
    · have length := congrArg (Option.map List.length) whole
      revert length
      decide +kernel
  · intro either
    rcases either with missed | whole
    · cases missed
    · have length := congrArg (Option.map List.length) whole
      revert length
      decide +kernel

end ZemogaSocial
