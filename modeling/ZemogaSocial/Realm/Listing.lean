import ZemogaSocial.Realm.FastEnumeration
import ZemogaSocial.Realm.LiveResults

namespace ZemogaSocial

open ObjectStore Keyed Transition

/-- The objects that a collection had when its enumeration started, by their numbers in the file and in
    what the write transaction has made of it. -/
structure Listing where
  inquiry : Inquiry
  file : Roll
  objects : List Nat
  state : Nat

namespace Listing

variable (infos : String → ClassInfo) (name : String)

def roll (listing : Listing) : Roll := (listing.inquiry.realm.log name).foldl Instruction.follow listing.file

def idle (inquiry : Inquiry) : Listing where
  inquiry
  file := .ofLength (inquiry.realm.group name).length
  objects := []
  state := 0

def start (listing : Listing) : Listing :=
  { listing with
    objects := (listing.inquiry.selection.indexes (listing.inquiry.realm.rows name)).map fun index =>
      (listing.roll name).stored[index]?.getD 0
    state := 0 }

def begun (listing : Listing) : Except FastEnumeration.Exception Listing :=
  if listing.state = 0 then
    if listing.inquiry.invalidated then .error .resultsInvalidated else .ok (listing.start name)
  else .ok listing

/-- The next objects, at most as many as fit into the buffer. -/
def batch (listing : Listing) (len : Nat) : List Nat :=
  (listing.objects.drop listing.state).take (min len FastEnumeration.bufferSize)

def next (listing : Listing) (len : Nat) : Listing × Except FastEnumeration.Exception (List (Option Nat)) :=
  if listing.inquiry.invalidated then (listing, .error .noLongerValid)
  else
    let objects := listing.batch len
    ({ listing with state := if objects = [] then 0 else listing.state + objects.length },
      .ok (objects.map (listing.roll name).place))

/-- The rows of the file after an event; `after` is what it has made of the Realm. -/
def fileAfter (listing : Listing) (after : Realm) : Reader.Event → Roll
  | .commitWrite => if after.isInWriteTransaction then listing.file else listing.roll name
  | .cancelWrite | .invalidate => listing.file.restore (listing.roll name)
  | .beginWrite | .operate _ _ | .setValue _ _ | .deleteObjects | .access _ => listing.file

def handle (listing : Listing) : FastEnumeration.Event → Listing × FastEnumeration.Answer
  | .reader event =>
    let handled := listing.inquiry.handle infos name event
    ({ listing with inquiry := handled.1, file := listing.fileAfter name handled.1.realm event }, .reader handled.2)
  | .next len =>
    match listing.begun name with
    | .error exception => (listing, .batch (.error exception))
    | .ok listing =>
      let (listing, rows) := listing.next name len
      (listing, .batch rows)

end Listing

namespace Inquiry

variable {infos : String → ClassInfo} {name : String}

end Inquiry

namespace Listing

variable {infos : String → ClassInfo} {name : String} {listing : Listing}

/-- What an event has done to the rows of a listing, by its instructions. -/
structure Follows (name : String) (before after : Listing) (instructions : List Instruction) : Prop where
  performed : before.inquiry.realm.performed name after.inquiry.realm = instructions
  attached : Accepted Instruction.apply Instruction.Attached (before.inquiry.realm.rows name) instructions
  roll : after.roll name = instructions.foldl Instruction.follow (before.roll name)
  counted : after.file.stored.length = (after.inquiry.realm.group name).length

theorem performed_self (realm : Realm) (name : String) : realm.performed name realm = [] := List.drop_length

theorem roll_length (counted : listing.file.stored.length = (listing.inquiry.realm.group name).length)
    (logged : listing.inquiry.realm.Logged) :
    (listing.roll name).stored.length = (listing.inquiry.realm.rows name).length := by
  rw [roll, logged.replayed name]
  exact foldl_follow_length counted _

theorem roll_closed (closed : listing.inquiry.realm.draft = none) : listing.roll name = listing.file := by
  rw [roll, Realm.log_closed closed]
  rfl

theorem Follows.unchanged (counted : listing.file.stored.length = (listing.inquiry.realm.group name).length) :
    Follows name listing listing [] :=
  ⟨performed_self _ name, True.intro, rfl, counted⟩

theorem Follows.operate (counted : listing.file.stored.length = (listing.inquiry.realm.group name).length)
    (other : String) (operations : List Row → List Operation) :
    ∃ instructions, Follows name listing
      { listing with inquiry := (listing.inquiry.operate infos other operations).1 } instructions := by
  obtain ⟨instructions, appended, _, attached⟩ :=
    listing.inquiry.realm.operate_performs infos name other operations
  refine ⟨instructions, Realm.performed_appended appended, attached, ?_, ?_⟩
  · show ((listing.inquiry.operate infos other operations).1.realm.log name).foldl Instruction.follow listing.file = _
    rw [Inquiry.operate, appended, List.foldl_append]
    rfl
  · have unwritten : (listing.inquiry.operate infos other operations).1.realm.group = listing.inquiry.realm.group :=
      Realm.operate_group _ other operations
    rw [unwritten]
    exact counted

theorem Follows.beginWrite (infos : String → ClassInfo)
    (counted : listing.file.stored.length = (listing.inquiry.realm.group name).length) :
    Follows name listing (listing.handle infos name (.reader .beginWrite)).1 [] := by
  rw [handle, Inquiry.handle]
  cases opened : listing.inquiry.realm.draft with
  | some draft =>
    have refused : listing.inquiry.realm.beginWrite.realm = listing.inquiry.realm := by
      simp [Realm.beginWrite, Realm.isInWriteTransaction, opened]
    rw [refused]
    exact .unchanged counted
  | none =>
    have begun : listing.inquiry.realm.beginWrite.realm =
        { listing.inquiry.realm with draft := some fun name => { rows := listing.inquiry.realm.group name } } := by
      simp [Realm.beginWrite, Realm.isInWriteTransaction, opened]
    rw [begun]
    refine ⟨?_, True.intro, ?_, counted⟩
    · rw [Realm.performed, Realm.log_closed opened]
      rfl
    · exact (roll_closed opened).symm

/-- The file has the rows of the transaction from then on, unless the commit fails. -/
theorem Follows.commitWrite (infos : String → ClassInfo)
    (counted : listing.file.stored.length = (listing.inquiry.realm.group name).length)
    (logged : listing.inquiry.realm.Logged) :
    Follows name listing (listing.handle infos name (.reader .commitWrite)).1 [] := by
  rw [handle, Inquiry.handle]
  cases opened : listing.inquiry.realm.draft with
  | none =>
    have refused : listing.inquiry.realm.commitWrite.realm = listing.inquiry.realm := by
      simp [Realm.commitWrite, opened]
    rw [refused]
    simp only [fileAfter, roll_closed opened, ite_self]
    exact .unchanged counted
  | some draft =>
    cases failed : listing.inquiry.realm.fault with
    | some error =>
      have refused : listing.inquiry.realm.commitWrite.realm =
          { listing.inquiry.realm with faults := listing.inquiry.realm.faults.tail } := by
        simp [Realm.commitWrite, opened, failed]
      have unfinished : Realm.isInWriteTransaction
          { listing.inquiry.realm with faults := listing.inquiry.realm.faults.tail } = true := by
        simp [Realm.isInWriteTransaction, opened]
      rw [refused]
      simp only [fileAfter, unfinished, if_true]
      exact ⟨performed_self _ name, True.intro, rfl, counted⟩
    | none =>
      have committed : listing.inquiry.realm.commitWrite.realm =
          { group := listing.inquiry.realm.rows, faults := listing.inquiry.realm.faults.tail } := by
        simp [Realm.commitWrite, Realm.rows, opened, failed]
      rw [committed]
      exact ⟨List.drop_nil, True.intro, rfl, roll_length counted logged⟩

theorem next_valid (valid : listing.inquiry.invalidated = false) (len : Nat) :
    listing.next name len =
      ({ listing with state := if listing.batch len = [] then 0 else listing.state + (listing.batch len).length },
        .ok ((listing.batch len).map (listing.roll name).place)) :=
  if_neg (by simp [valid])

/-- A batch and what is left after it. -/
theorem batch_append (listing : Listing) (len : Nat) :
    listing.batch len ++ listing.objects.drop (listing.state + (listing.batch len).length) =
      listing.objects.drop listing.state := by
  have taken : listing.batch len = (listing.objects.drop listing.state).take (listing.batch len).length := by
    rw [batch, List.length_take]
    exact List.take_eq_take_min
  rw [← List.drop_drop]
  nth_rewrite 1 [taken]
  exact List.take_append_drop _ _

theorem batch_eq_nil (listing : Listing) (empty : listing.batch FastEnumeration.bufferSize = []) :
    listing.objects.drop listing.state = [] := by
  have positive := FastEnumeration.bufferSize_pos
  rw [batch, List.take_eq_nil_iff] at empty
  rcases empty with small | done
  · omega
  · exact done

theorem start_places (counted : (listing.roll name).stored.length = (listing.inquiry.realm.rows name).length) :
    (listing.start name).objects.map (listing.roll name).place =
      (listing.inquiry.selection.indexes (listing.inquiry.realm.rows name)).map some := by
  rw [start, List.map_map]
  apply List.map_congr_left
  intro index member
  have bound := List.lt_add_of_mem_findIdxs index member
  have inside : index < (listing.roll name).stored.length := by omega
  rw [Function.comp_apply, Roll.place_eq_some, List.getElem?_eq_getElem inside]
  rfl

theorem start_known (counted : (listing.roll name).stored.length = (listing.inquiry.realm.rows name).length) :
    ∀ number ∈ (listing.start name).objects, number < (listing.roll name).inserted := by
  intro number member
  obtain ⟨index, found, rfl⟩ := List.mem_map.mp member
  have bound := List.lt_add_of_mem_findIdxs index found
  have inside : index < (listing.roll name).stored.length := by omega
  rw [List.getElem?_eq_getElem inside, Option.getD_some]
  exact (listing.roll name).known _ (List.getElem_mem inside)

end Listing

end ZemogaSocial
