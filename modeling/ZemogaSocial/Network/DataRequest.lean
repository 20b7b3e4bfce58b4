import ZemogaSocial.Persistence.DetailStores
import ZemogaSocial.Persistence.PostStore

namespace ZemogaSocial.DataRequest

section Cached

variable {α : Type}

/-- With at least one row the completion runs at once; otherwise the timer is started. -/
def cacheHit (loaded : Option (List α)) : Option (List α) :=
  match loaded with
  | some rows => if rows.length > 0 then some rows else none
  | none => none

def getPosts (store : PostStore) : PostStore × Option (List Post) :=
  let (store, realmPosts) := store.loadPostsFromRealm
  (store, cacheHit realmPosts)

def getComments (store : CommentStore) (postId : Int64) : CommentStore × Option (List Comment) :=
  let (store, realmComments) := store.loadCommentsFromRealm postId
  (store, cacheHit realmComments)

def getUsers (store : UserStore) (id : Int64) : UserStore × Option (List User) :=
  let (store, realmUsers) := store.loadUsersFromRealm id
  (store, cacheHit realmUsers)

theorem cacheHit_nil : cacheHit (some ([] : List α)) = none := rfl

theorem cacheHit_cons {rows : List α} (stored : rows ≠ []) : cacheHit (some rows) = some rows :=
  if_pos (List.length_pos_iff.mpr stored)

end Cached

section Marking

/-- The body of the marking loop for the indices still to come. -/
def markUnread : List Nat → List Post → Except AbortReason (List Post)
  | [], networkPosts => .ok networkPosts
  | i :: rest, networkPosts =>
    if i = 20 then .ok networkPosts
    else match networkPosts[i]? with
      | some post => markUnread rest (networkPosts.set i { post with read := false })
      | none => .error (.indexOutOfRange i)

/-- `for i in 0...networkPosts.count`: the range includes the count itself. -/
def markFirst (networkPosts : List Post) : Except AbortReason (List Post) :=
  markUnread (List.range (networkPosts.length + 1)) networkPosts

def unreadFrom (start : Nat) (posts : List Post) : List Post :=
  posts.mapIdx fun i post => if start ≤ i ∧ i < 20 then { post with read := false } else post

def firstUnread (posts : List Post) : List Post := unreadFrom 0 posts

theorem unreadFrom_twenty (posts : List Post) : unreadFrom 20 posts = posts := by
  have nothing : ∀ i, ¬ (20 ≤ i ∧ i < 20) := by omega
  simp [unreadFrom, nothing, List.mapIdx_eq_iff]

theorem unreadFrom_set (start : Nat) (posts : List Post) (small : start < 20)
    (bound : start < posts.length) :
    unreadFrom (start + 1) (posts.set start { posts[start] with read := false }) =
      unreadFrom start posts := by
  apply List.ext_getElem
  · simp [unreadFrom]
  · intro i _ _
    simp only [unreadFrom, List.getElem_mapIdx, List.getElem_set]
    by_cases here : start = i
    · subst here
      simp [small]
    · have same : (start + 1 ≤ i ∧ i < 20) ↔ (start ≤ i ∧ i < 20) := by omega
      simp only [here, if_false, same]

/-- From index `start` on, the loop leaves at the `break` before it leaves the list. -/
theorem markUnread_long (count start : Nat) (posts : List Post) (begun : start ≤ 20)
    (long : 20 ≤ posts.length) (reaches : 20 < start + count) :
    markUnread (List.range' start count) posts = .ok (unreadFrom start posts) := by
  induction count generalizing start posts with
  | zero => omega
  | succ count ih =>
    rw [List.range'_succ, markUnread]
    by_cases last : start = 20
    · subst last
      rw [if_pos rfl, unreadFrom_twenty]
    · have bound : start < posts.length := by omega
      rw [if_neg last, List.getElem?_eq_getElem bound]
      have tail := ih (start + 1) (posts.set start { posts[start] with read := false })
        (by omega) (by simpa using long) (by omega)
      rw [unreadFrom_set start posts (by omega) bound] at tail
      exact tail

theorem markUnread_short (count start : Nat) (posts : List Post) (begun : start ≤ posts.length)
    (short : posts.length < 20) (reaches : posts.length < start + count) :
    markUnread (List.range' start count) posts = .error (.indexOutOfRange posts.length) := by
  induction count generalizing start posts with
  | zero => omega
  | succ count ih =>
    have notLast : start ≠ 20 := by omega
    rw [List.range'_succ, markUnread, if_neg notLast]
    by_cases ended : start = posts.length
    · subst ended
      rw [List.getElem?_eq_none (Nat.le_refl _)]
    · have bound : start < posts.length := by omega
      rw [List.getElem?_eq_getElem bound]
      have tail := ih (start + 1) (posts.set start { posts[start] with read := false })
      rw [List.length_set] at tail
      exact tail (by omega) short (by omega)

theorem markFirst_long {posts : List Post} (long : 20 ≤ posts.length) :
    markFirst posts = .ok (firstUnread posts) := by
  unfold markFirst
  rw [List.range_eq_range']
  exact markUnread_long _ 0 posts (by omega) long (by omega)

theorem markFirst_short {posts : List Post} (short : posts.length < 20) :
    markFirst posts = .error (.indexOutOfRange posts.length) := by
  unfold markFirst
  rw [List.range_eq_range']
  exact markUnread_short _ 0 posts (by omega) short (by omega)

theorem firstUnread_length (posts : List Post) : (firstUnread posts).length = posts.length := by
  simp [firstUnread, unreadFrom]

theorem firstUnread_ids (posts : List Post) : (firstUnread posts).map Post.id = posts.map Post.id := by
  apply List.ext_getElem
  · simp [firstUnread, unreadFrom]
  · intro i _ _
    simp only [firstUnread, unreadFrom, List.getElem_map, List.getElem_mapIdx]
    split <;> rfl

end Marking

section Network

variable {α ω : Type} [RealmObject ω] [Persistable α ω]

def saveAndDeliver (save : Store ω → List α → Except (Abort (Rows ω)) (Store ω)) (store : Store ω)
    (values : List α) : Except (Abort (Rows ω)) (Store ω × Option (List α)) :=
  match save store.opened values with
  | .ok store => .ok (store, some values)
  | .error abort => .error abort

/-- The closure of `loadPostsFromNetwork`; the reply is nil when there is no data or it does not
    decode. -/
def receivePosts (store : PostStore) (reply : Option (List PostJSON)) :
    Except (Abort (Rows PostObject)) (PostStore × Option (List Post)) :=
  match reply with
  | none => .ok (store, none)
  | some json =>
    match markFirst (json.map Post.decode) with
    | .ok networkPosts => saveAndDeliver PostStore.savePosts store networkPosts
    | .error reason => .error ⟨reason, store.table⟩

def receive (save : Store ω → List α → Except (Abort (Rows ω)) (Store ω)) (store : Store ω)
    (reply : Option (List α)) : Except (Abort (Rows ω)) (Store ω × Option (List α)) :=
  match reply with
  | none => .ok (store, none)
  | some values => saveAndDeliver save store values

def receiveComments (store : CommentStore) (reply : Option (List Comment)) :
    Except (Abort (Rows CommentObject)) (CommentStore × Option (List Comment)) :=
  receive CommentStore.saveComments store reply

def receiveUsers (store : UserStore) (reply : Option (List User)) :
    Except (Abort (Rows UserObject)) (UserStore × Option (List User)) :=
  receive UserStore.saveUsers store reply

end Network

end ZemogaSocial.DataRequest
