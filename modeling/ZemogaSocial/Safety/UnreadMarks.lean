import ZemogaSocial.Network.DataRequest

namespace ZemogaSocial.DataRequest

/-- The decoded posts in their order, unread in the first 20 places and nowhere else. -/
structure FirstTwentyUnread (json : List PostJSON) (marked : List Post) : Prop where
  contents : (marked.map fun post => { post with read := true }) = json.map Post.decode
  unstarred : ∀ post ∈ marked, post.isFavorite = false
  unread : ∀ i (bound : i < marked.length), marked[i].read = decide (min 20 json.length ≤ i)

/-- The list that is saved is the one that is delivered. -/
def SavesAndDelivers (json : List PostJSON) (marked : List Post) : Prop :=
  ∀ store, receivePosts store (some json) = match PostStore.savePosts store.opened marked with
    | .ok saved => .ok (saved, some marked)
    | .error abort => .error abort

theorem firstUnread_getElem {posts : List Post} {i : Nat} (marked : i < (firstUnread posts).length)
    (bound : i < posts.length) :
    (firstUnread posts)[i] = if i < 20 then { posts[i] with read := false } else posts[i] := by
  simp only [firstUnread, unreadFrom, List.getElem_mapIdx, Nat.zero_le, true_and]

theorem firstUnread_contents (json : List PostJSON) :
    ((firstUnread (json.map Post.decode)).map fun post => { post with read := true }) =
      json.map Post.decode := by
  apply List.ext_getElem
  · rw [List.length_map, firstUnread_length]
  · intro i left right
    rw [List.getElem_map, firstUnread_getElem _ right]
    split
    · rw [List.getElem_map]
      rfl
    · rw [List.getElem_map]
      rfl

theorem firstUnread_marked (json : List PostJSON) :
    FirstTwentyUnread json (firstUnread (json.map Post.decode)) where
  contents := firstUnread_contents json
  unstarred := by
    intro post member
    obtain ⟨i, bound, rfl⟩ := List.getElem_of_mem member
    have inside := bound
    rw [firstUnread_length] at inside
    rw [firstUnread_getElem _ inside]
    split
    · rw [List.getElem_map]
      rfl
    · rw [List.getElem_map]
      rfl
  unread := by
    intro i bound
    have inside := bound
    rw [firstUnread_length] at inside
    have position := inside
    rw [List.length_map] at position
    rw [firstUnread_getElem _ inside, List.getElem_map]
    split
    · exact (decide_eq_false (by omega)).symm
    · exact (decide_eq_true (by omega)).symm

theorem savesAndDelivers_of_marked {json : List PostJSON} {marked : List Post}
    (ok : markFirst (json.map Post.decode) = .ok marked) : SavesAndDelivers json marked := by
  intro store
  rw [receivePosts, ok]
  show saveAndDeliver PostStore.savePosts store marked = _
  unfold saveAndDeliver
  cases PostStore.savePosts store.opened marked <;> rfl

/-- The marking loop stays inside the list, and marks, saves and delivers it as it should, exactly
    if the list has at least 20 posts. -/
theorem first_twenty_unread_iff (json : List PostJSON) :
    (∃ marked, markFirst (json.map Post.decode) = .ok marked ∧ SavesAndDelivers json marked ∧
      FirstTwentyUnread json marked) ↔ 20 ≤ json.length := by
  apply Iff.intro
  · intro marks
    rcases marks with ⟨marked, ok, _⟩
    by_contra few
    have short : (json.map Post.decode).length < 20 := by
      rw [List.length_map]
      omega
    rw [markFirst_short short] at ok
    cases ok
  · intro enough
    have long : 20 ≤ (json.map Post.decode).length := by
      rw [List.length_map]
      exact enough
    have ok := markFirst_long long
    exact ⟨_, ok, savesAndDelivers_of_marked ok, firstUnread_marked json⟩

/-- One post is marked, and then the loop reads the post after it. -/
theorem single_post_traps :
    markFirst ([⟨1, 1, "", ""⟩].map Post.decode) = .error (.indexOutOfRange 1) ∧
      receivePosts ⟨false, .empty⟩ (some [⟨1, 1, "", ""⟩]) = .error ⟨.indexOutOfRange 1, .empty⟩ ∧
      ¬ ∃ marked, markFirst ([⟨1, 1, "", ""⟩].map Post.decode) = .ok marked := by
  refine ⟨rfl, rfl, ?_⟩
  intro marks
  rcases marks with ⟨marked, ok⟩
  cases ok

end ZemogaSocial.DataRequest
