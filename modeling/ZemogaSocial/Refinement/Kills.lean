import ZemogaSocial.Realm.Durability
import ZemogaSocial.Refinement.HomeOnRealm

namespace ZemogaSocial

open ObjectStore Transition

/-- The calls with one write transaction each that a call comes to. -/
def StoresOp.writes : StoresOp → List StoresOp
  | .posts (.savePosts saved) => saved.map fun post => .posts (.savePost post.managedObject)
  | .posts (.delete deleted) => deleted.map fun post => .posts (.delete [post])
  | .posts op => [.posts op]
  | .users values => values.map fun value => .users [value]
  | .comments values => values.map fun value => .comments [value]
  | .loadPosts | .loadUsers _ | .loadComments _ => []
  | op@(.saveUser _) | op@.deleteAllUsers | op@(.saveComment _) | op@.deleteAllComments => [op]

section Execute

variable {infos : String → ClassInfo}

theorem exec_each {β : Type} {call : β → StoresOp} {each : List β → Program} (none : each [] = .done)
    (next : ∀ value rest realm, (each (value :: rest)).exec infos realm =
      ((call value).program.exec infos realm).andThen fun realm => (each rest).exec infos realm)
    (values : List β) (realm : Realm) :
    (programOf (values.map call)).exec infos realm = (each values).exec infos realm := by
  induction values generalizing realm with
  | nil => rw [none]; rfl
  | cons value rest ih =>
    rw [next, List.map_cons, programOf, Program.exec]
    apply congrArg
    funext middle
    exact ih middle

theorem exec_writes (op : StoresOp) (realm : Realm) :
    (programOf op.writes).exec infos realm = op.program.exec infos realm := by
  have saves : ∀ {α ω : Type} [RealmObject ω] [ManagedObject ω] [Persistable α ω] (value : α) (realm : Realm),
      (ManagedObject.saveAll [value]).exec infos realm =
        (ManagedObject.save (Persistable.managedObject value)).exec infos realm := by
    intro α ω _ _ _ value realm
    exact Execution.andThen_done _
  cases op with
  | loadPosts | loadUsers | loadComments => rfl
  | saveUser | deleteAllUsers | saveComment | deleteAllComments => exact exec_once _ realm
  | users values =>
    apply exec_each rfl
    intro value rest realm
    exact congrArg (Execution.andThen · _) (saves value realm).symm
  | comments values =>
    apply exec_each rfl
    intro value rest realm
    exact congrArg (Execution.andThen · _) (saves value realm).symm
  | posts op =>
    cases op with
    | savePosts posts => exact exec_each rfl (fun _ _ _ => rfl) posts realm
    | delete posts =>
      let each : List PostObject → Program := fun posts => ManagedObject.deleteEach PostObject (posts.map PostObject.id)
      have deletes : (programOf (posts.map fun post => .posts (.delete [post]))).exec infos realm =
          (each posts).exec infos realm := by
        apply exec_each rfl
        intro post rest realm
        exact congrArg (Execution.andThen · _) (Execution.andThen_done _).symm
      exact deletes
    | savePost | markAsRead | setFavorite | deleteAll => exact exec_once _ realm

theorem exec_flatMap_writes (ops : List StoresOp) (realm : Realm) :
    (programOf (ops.flatMap StoresOp.writes)).exec infos realm = (programOf ops).exec infos realm := by
  induction ops generalizing realm with
  | nil => rfl
  | cons op rest ih =>
    rw [List.flatMap_cons, exec_append, exec_writes, programOf, Program.exec]
    apply congrArg
    funext middle
    exact ih middle

/-- From outside a transaction: one commit, or none if it raises. -/
structure Once (group : Group) (execution : Execution) : Prop where
  returned : execution.outcome = .returned → ∃ changes, execution.commits = [changes] ∧
    execution.realm.group = Changeset.replay group changes
  raised : execution.outcome ≠ .returned → execution.commits = []

theorem write_operate_once (name : String) (operations : List Row → List Operation) (group : Group) :
    Once group ((Program.write (.operate name operations)).exec infos { group }) := by
  obtain ⟨instructions, performs, _⟩ :=
    performEach_performs (infos name) (operations (group name)) { rows := group name }
  cases performed : Operation.performEach (infos name) { rows := group name } (operations (group name)) with
  | mk table result =>
    rw [performed] at performs
    cases result with
    | error error =>
      rw [write_operate_raised performed]
      exact ⟨by simp, fun _ => rfl⟩
    | ok done =>
      have replayed : table.rows = table.log.foldl Instruction.apply (group name) := by
        cases performs
        rfl
      rw [write_operate_returned performed]
      refine ⟨fun _ => ⟨_, rfl, ?_⟩, by simp⟩
      funext other
      by_cases same : other = name
      · subst same
        simpa [Changeset.replay, drafted] using replayed
      · simp [Changeset.replay, drafted, same]

theorem Once.alone {execution : Execution} {group : Group} (once : Once group execution) :
    Once group (execution.andThen fun realm => { realm }) := by
  rw [Execution.andThen_done]
  exact once

theorem writes_once {op write : StoresOp} (member : write ∈ op.writes) (group : Group) :
    Once group (write.program.exec infos { group }) := by
  cases op with
  | loadPosts | loadUsers | loadComments => cases member
  | saveUser | deleteAllUsers | saveComment | deleteAllComments =>
    cases List.mem_singleton.mp member
    exact write_operate_once _ _ group
  | users values =>
    obtain ⟨value, _, rfl⟩ := List.mem_map.mp member
    exact (write_operate_once _ _ group).alone
  | comments values =>
    obtain ⟨value, _, rfl⟩ := List.mem_map.mp member
    exact (write_operate_once _ _ group).alone
  | posts op =>
    cases op with
    | savePosts posts =>
      obtain ⟨post, _, rfl⟩ := List.mem_map.mp member
      exact write_operate_once _ _ group
    | delete posts =>
      obtain ⟨post, _, rfl⟩ := List.mem_map.mp member
      exact (write_operate_once _ _ group).alone
    | savePost | markAsRead | setFavorite | deleteAll =>
      cases List.mem_singleton.mp member
      exact write_operate_once _ _ group

end Execute

/-- After any of the commits, the file holds what the stores have made of as many writes. -/
theorem committed_writes {writes : List StoresOp} {stores : Stores} {group : Group} {earlier later : List Changeset}
    (once : ∀ write ∈ writes, ∀ group, Once group (write.program.exec classInfo { group }))
    (opened : stores.Opened) (held : OnRealm stores.tables group)
    (split : ((programOf writes).exec classInfo { group }).commits = earlier ++ later) :
    ∃ reached, run Stores.perform stores (writes.take earlier.length) = .ok reached ∧
      earlier.length ≤ writes.length ∧ OnRealm reached.tables (earlier.foldl Changeset.replay group) := by
  induction writes generalizing stores group earlier with
  | nil =>
    have none : earlier = [] := (List.append_eq_nil_iff.mp split.symm).1
    subst none
    exact ⟨stores, rfl, Nat.le_refl _, held⟩
  | cons write rest ih =>
    rw [List.forall_mem_cons] at once
    cases earlier with
    | nil => exact ⟨stores, rfl, Nat.zero_le _, held⟩
    | cons changes earlier =>
      have first := once.1 group
      have agrees := perform_agrees opened held write
      rw [programOf, Program.exec, Execution.andThen] at split
      cases performed : stores.perform write with
      | error failure =>
        rw [performed] at agrees
        cases agrees with
        | aborted held raises =>
          have silent := first.raised (by simp [raises.outcome])
          simp [raises.outcome, silent] at split
      | ok result =>
        rw [performed] at agrees
        cases agrees with
        | completed opened held ends =>
          obtain ⟨written, single, replayed⟩ := first.returned ends.outcome
          simp only [ends.outcome, single, List.cons_append, List.cons.injEq] at split
          obtain ⟨rfl, split⟩ := split
          rw [ends.realm] at split replayed
          cases replayed
          obtain ⟨reached, ran, bound, stored⟩ := ih once.2 opened held split
          refine ⟨reached, ?_, Nat.succ_le_succ bound, stored⟩
          rw [List.length_cons, List.take_succ_cons, run_cons_ok _ performed]
          exact ran

namespace HomeView

/-- A process that is killed after any of its commits, in any order of its events, leaves a file
    that the next one reads as tables: those of as many of its writes as it has committed. -/
theorem killed_between_commits (home : HomeView) (events : List Event) (group : Group)
    (held : OnRealm home.tables group) {earlier later : List Changeset}
    (killed : ((programOf (home.calls events)).exec classInfo { group }).commits = earlier ++ later) :
    ∃ reached, run Stores.perform home.stores
        (((home.calls events).flatMap StoresOp.writes).take earlier.length) = .ok reached ∧
      earlier.length ≤ ((home.calls events).flatMap StoresOp.writes).length ∧
      OnRealm reached.tables (earlier.foldl Changeset.replay group) := by
  rw [← exec_flatMap_writes] at killed
  have stored : OnRealm home.stores.tables group := held
  apply committed_writes _ ⟨rfl, rfl, rfl⟩ stored killed
  intro write member group
  obtain ⟨op, _, here⟩ := List.mem_flatMap.mp member
  exact writes_once here group

theorem killed_between_commits_second :
    let commits := ((programOf (emptyHome.calls loadedTwice)).exec classInfo { group := fun _ => [] }).commits
    ∃ reached, run Stores.perform emptyHome.stores
        (((emptyHome.calls loadedTwice).flatMap StoresOp.writes).take (commits.take 2).length) = .ok reached ∧
      OnRealm reached.tables ((commits.take 2).foldl Changeset.replay fun _ => []) := by
  intro commits
  obtain ⟨reached, ran, _, stored⟩ := killed_between_commits emptyHome loadedTwice (fun _ => []) ⟨rfl, rfl, rfl⟩
    (List.take_append_drop 2 commits).symm
  exact ⟨reached, ran, stored⟩

end HomeView

end ZemogaSocial
