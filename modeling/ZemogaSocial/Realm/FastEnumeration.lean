import ZemogaSocial.Realm.Results

namespace ZemogaSocial

open ObjectStore

/-- `RLMFastEnumerator` and the state of the loop that it serves. Without a snapshot it reads the results
    of the collection. -/
structure FastEnumeration where
  reader : Reader
  snapshot : Option Results
  registered : Bool
  state : Nat
  count : Nat

namespace FastEnumeration

inductive Event where
  | reader (event : Reader.Event)
  | next (len : Nat)

inductive Exception where
  | outOfBounds (index : OutOfBoundsIndex)
  | resultsInvalidated
  | noLongerValid
  deriving DecidableEq, Repr

inductive Answer where
  | reader (answer : Reader.Answer)
  | batch (rows : Except Exception (List (Option Nat)))

def bufferSize : Nat := 16

theorem bufferSize_pos : 0 < bufferSize := by decide

/-- The loop that fills the buffer. -/
def fill (table : TableAccessor) (count : Nat) :
    Nat → Nat → Results → Except OutOfBoundsIndex (List (Option Nat)) × Results
  | 0, _, results => (.ok [], results)
  | room + 1, index, results =>
    if index < count then
      match results.get table index with
      | (.error error, results) => (.error error, results)
      | (.ok row, results) =>
        let (rows, results) := fill table count room (index + 1) results
        (rows.map (row :: ·), results)
    else (.ok [], results)

variable (infos : String → ClassInfo) (name : String)

/-- An enumeration that nothing has asked for an object yet. -/
def idle (reader : Reader) : FastEnumeration :=
  { reader, snapshot := some .empty, registered := false, state := 0, count := 0 }

/-- The enumerator that `RLMFastEnumerate` makes. -/
def start (reader : Reader) : FastEnumeration :=
  let writing := reader.realm.isInWriteTransaction
  let snapshot := if writing then some (reader.results.snapshot (reader.table name)) else none
  let (count, results) := reader.results.size (reader.table name)
  { reader := { reader with results }, snapshot, registered := !writing, state := 0, count }

/-- The results that the enumerator points to. -/
def results (enumeration : FastEnumeration) : Results := enumeration.snapshot.getD enumeration.reader.results

def detach (enumeration : FastEnumeration) : FastEnumeration :=
  if enumeration.registered then
    { enumeration with
      snapshot := some (enumeration.results.snapshot (enumeration.reader.table name)), registered := false }
  else enumeration

/-- The enumeration after its results have been read. -/
def readWith (enumeration : FastEnumeration) (results : Results) : FastEnumeration :=
  match enumeration.snapshot with
  | some _ => { enumeration with snapshot := some results }
  | none => { enumeration with reader := { enumeration.reader with results } }

def countByEnumerating (enumeration : FastEnumeration) (len : Nat) :
    FastEnumeration × Except Exception (List (Option Nat)) :=
  if enumeration.results.isValid enumeration.reader.detached then
    let (rows, results) := fill (enumeration.reader.table name) enumeration.count (min len bufferSize) enumeration.state
      enumeration.results
    let read := enumeration.readWith results
    match rows with
    | .error error => (read, .error (.outOfBounds error))
    -- the loop of the caller is over, and the next has a state of its own
    | .ok [] => ({ read with snapshot := read.snapshot.map fun _ => .empty, registered := false, state := 0 }, .ok [])
    | .ok rows => ({ read with state := read.state + rows.length }, .ok rows)
  else (enumeration, .error .noLongerValid)

/-- Whoever asks in the state 0 gets a new enumerator, unless the collection has been invalidated. -/
def begun (enumeration : FastEnumeration) : Except Exception FastEnumeration :=
  if enumeration.state = 0 then
    if enumeration.reader.isInvalidated then .error .resultsInvalidated else .ok (start name enumeration.reader)
  else .ok enumeration

def fastEnumerate (enumeration : FastEnumeration) (len : Nat) :
    FastEnumeration × Except Exception (List (Option Nat)) :=
  match enumeration.begun name with
  | .error exception => (enumeration, .error exception)
  | .ok enumeration => enumeration.countByEnumerating name len

/-- What begins or ends a transaction detaches the enumerators before it changes anything. -/
def prepared (enumeration : FastEnumeration) : Reader.Event → FastEnumeration
  | .beginWrite => if enumeration.reader.realm.isInWriteTransaction then enumeration else enumeration.detach name
  | .cancelWrite => if enumeration.reader.realm.isInWriteTransaction then enumeration.detach name else enumeration
  | .invalidate => enumeration.detach name
  | .commitWrite | .operate _ _ | .setValue _ _ | .deleteObjects | .access _ => enumeration

/-- What an event makes of a snapshot of the collection. -/
def adjust (reader : Reader) (after : Realm) (snapshot : Results) : Reader.Event → Results
  | .cancelWrite | .invalidate => snapshot.rollBack (reader.realm.group name) (reader.realm.log name)
  | _ => snapshot.follow (reader.table name) (reader.realm.performed name after)

def handle (enumeration : FastEnumeration) : Event → FastEnumeration × Answer
  | .reader event =>
    let enumeration := enumeration.prepared name event
    let (reader, answer) := enumeration.reader.handle infos name event
    let snapshot := enumeration.snapshot.map fun results => adjust name enumeration.reader reader.realm results event
    ({ enumeration with reader, snapshot }, .reader answer)
  | .next len =>
    let (enumeration, rows) := enumeration.fastEnumerate name len
    (enumeration, .batch rows)

/-- An enumeration that is run to its end. -/
def elements : Nat → FastEnumeration → Except Exception (List (Option Nat))
  | 0, _ => .ok []
  | fuel + 1, enumeration =>
    match enumeration.fastEnumerate name bufferSize with
    | (_, .error exception) => .error exception
    | (_, .ok []) => .ok []
    | (next, .ok rows) => (elements fuel next).map (rows ++ ·)

/-- `reads` is what every single access keeps. -/
theorem fill_steady {table : TableAccessor} {rows : List (Option Nat)} {reads : Results → Prop}
    (steady : ∀ results index, reads results → ∀ bound : index < rows.length,
      ∃ next, results.get table index = (.ok rows[index], next) ∧ reads next)
    (room index : Nat) {results : Results} (start : reads results) :
    ∃ next, fill table rows.length room index results = (.ok ((rows.drop index).take room), next) ∧ reads next := by
  induction room generalizing index results with
  | zero => exact ⟨results, rfl, start⟩
  | succ room ih =>
    rw [fill]
    by_cases bound : index < rows.length
    · obtain ⟨middle, got, kept⟩ := steady results index start bound
      obtain ⟨next, filled, last⟩ := ih (index + 1) kept
      refine ⟨next, ?_, last⟩
      rw [if_pos bound, got, List.drop_eq_getElem_cons bound, List.take_succ_cons]
      simp only [filled]
      rfl
    · refine ⟨results, ?_, start⟩
      rw [if_neg bound, List.drop_eq_nil_of_le (Nat.le_of_not_lt bound)]
      rfl

end FastEnumeration

/-- `Array` of a collection. No batch but the last is empty, so there is one more at most than rows. -/
def Reader.elements (name : String) (reader : Reader) : Except FastEnumeration.Exception (List (Option Nat)) :=
  (FastEnumeration.idle reader).elements name ((reader.table name).rows.length + 1)

end ZemogaSocial
