import ZemogaSocial.Realm.Listing

namespace ZemogaSocial

open ObjectStore Keyed Transition

theorem ObjectStore.Represents.snapshot {table : TableAccessor} {results : Results} {selection : Selection}
    (represents : Represents table results selection) :
    ∃ view, results.snapshot table = .tableView view .never ∧
      view.rowIndexes = (selection.indexes table.rows).map some := by
  cases represents with
  | table =>
    have all : Represents table (.query fun _ => true) (.matching fun _ => true) := .query _
    refine ⟨table.findAll fun _ => true, ?_, rfl⟩
    rw [Results.snapshot, all.evaluated]
    rfl
  | query condition =>
    refine ⟨table.findAll condition, ?_, rfl⟩
    rw [Results.snapshot, (Represents.query condition).evaluated]
    · rfl
    · simp
    · simp
  | @tableView view condition asked current =>
    refine ⟨table.findAll condition, ?_, rfl⟩
    rw [Results.snapshot, (Represents.tableView asked current).evaluated]
    · rfl
    · simp
    · simp

namespace FastEnumeration

variable {infos : String → ClassInfo} {name : String}

/-- Where the rows of a batch come from. -/
inductive Reads (name : String) (enumeration : FastEnumeration) (listing : Listing) : Prop where
  | collection (live : enumeration.snapshot = none) (registered : enumeration.registered = true)
      (closed : listing.inquiry.realm.draft = none)
      (places : listing.objects.map (listing.roll name).place =
        (listing.inquiry.selection.indexes (listing.inquiry.realm.rows name)).map some)
  | snapshot {view : TableView} (frozen : enumeration.snapshot = some (.tableView view .never))
      (unregistered : enumeration.registered = false)
      (places : view.rowIndexes = listing.objects.map (listing.roll name).place)

/-- Between two loops there is no enumerator. -/
structure Lists (name : String) (enumeration : FastEnumeration) (listing : Listing) : Prop where
  shows : Reader.Shows name enumeration.reader listing.inquiry
  counted : listing.file.stored.length = (listing.inquiry.realm.group name).length
  known : ∀ number ∈ listing.objects, number < (listing.roll name).inserted
  state : enumeration.state = listing.state
  count : enumeration.count = listing.objects.length
  source : listing.state = 0 ∧ enumeration.registered = false ∨ Reads name enumeration listing

variable {enumeration : FastEnumeration} {listing : Listing}

theorem Lists.rows (lists : Lists name enumeration listing) :
    (enumeration.reader.table name).rows = listing.inquiry.realm.rows name := by
  rw [Reader.table, lists.shows.realm]

theorem Lists.logged (lists : Lists name enumeration listing) : listing.inquiry.realm.Logged := by
  rw [← lists.shows.realm]
  exact lists.shows.logged

theorem Lists.rollCounted (lists : Lists name enumeration listing) :
    (listing.roll name).stored.length = (listing.inquiry.realm.rows name).length :=
  Listing.roll_length lists.counted lists.logged

theorem idle_lists {reader : Reader} {inquiry : Inquiry} (shows : Reader.Shows name reader inquiry) :
    Lists name (idle reader) (Listing.idle name inquiry) :=
  ⟨shows, List.length_range, by simp [Listing.idle], rfl, rfl, .inl ⟨rfl, rfl⟩⟩

theorem start_lists (lists : Lists name enumeration listing) :
    Lists name (start name enumeration.reader) (listing.start name) ∧
      Reads name (start name enumeration.reader) (listing.start name) := by
  obtain ⟨counted, kept⟩ := lists.shows.represents.size
  have places := Listing.start_places lists.rollCounted
  have reads : Reads name (start name enumeration.reader) (listing.start name) := by
    cases opened : listing.inquiry.realm.draft with
    | none =>
      have closed : enumeration.reader.realm.isInWriteTransaction = false := by
        simp [Realm.isInWriteTransaction, lists.shows.realm, opened]
      exact .collection (by simp [start, closed]) (by simp [start, closed]) opened places
    | some draft =>
      have writing : enumeration.reader.realm.isInWriteTransaction = true := by
        simp [Realm.isInWriteTransaction, lists.shows.realm, opened]
      obtain ⟨view, taken, found⟩ := lists.shows.represents.snapshot
      rw [lists.rows, ← places] at found
      exact .snapshot (by simp [start, writing, taken]) (by simp [start, writing]) found
  have known := Listing.start_known lists.rollCounted
  refine ⟨⟨lists.shows.evaluated kept, lists.counted, known, rfl, ?_, .inr reads⟩, reads⟩
  rw [lists.rows] at counted
  exact counted.trans (List.length_map _).symm

theorem Reads.isValid (reads : Reads name enumeration listing) (lists : Lists name enumeration listing) :
    enumeration.results.isValid enumeration.reader.detached = !listing.inquiry.invalidated := by
  rw [results, lists.shows.detached]
  cases reads with
  | collection live registered closed places =>
    rw [live, Option.getD_none]
    exact lists.shows.represents.isValid _
  | snapshot frozen unregistered places =>
    rw [frozen]
    rfl

theorem filled_lists (lists : Lists name enumeration listing) (valid : listing.inquiry.invalidated = false)
    {len : Nat} {results : Results} (reads : Reads name enumeration listing)
    (filled : fill (enumeration.reader.table name) enumeration.count (min len bufferSize) enumeration.state
      enumeration.results = (.ok ((listing.batch len).map (listing.roll name).place), results))
    (read : Lists name (enumeration.readWith results) listing)
    (kept : Reads name (enumeration.readWith results) listing) :
    (enumeration.countByEnumerating name len).2 = (listing.next name len).2 ∧
      Lists name (enumeration.countByEnumerating name len).1 (listing.next name len).1 := by
  have attached : enumeration.results.isValid enumeration.reader.detached = true := by
    rw [reads.isValid lists, valid]
    rfl
  rw [countByEnumerating, if_pos attached, Listing.next, if_neg (by simp [valid]), filled]
  cases batch : listing.batch len with
  | nil => exact ⟨rfl, read.shows, read.counted, read.known, rfl, read.count, .inl ⟨rfl, rfl⟩⟩
  | cons object rest =>
    refine ⟨rfl, read.shows, read.counted, read.known, ?_, read.count, .inr ?_⟩
    · simp only [List.map_cons, List.length_cons, List.length_map, read.state]
      exact (if_neg (List.cons_ne_nil object rest)).symm
    · cases kept with
      | collection live registered closed places => exact .collection live registered closed places
      | snapshot frozen unregistered places => exact .snapshot frozen unregistered places

/-- The rows of a collection that is written to by nobody are those of its table. -/
theorem collection_lists (lists : Lists name enumeration listing) (valid : listing.inquiry.invalidated = false)
    (len : Nat) (live : enumeration.snapshot = none) (registered : enumeration.registered = true)
    (closed : listing.inquiry.realm.draft = none)
    (places : listing.objects.map (listing.roll name).place =
      (listing.inquiry.selection.indexes (listing.inquiry.realm.rows name)).map some) :
    (enumeration.countByEnumerating name len).2 = (listing.next name len).2 ∧
      Lists name (enumeration.countByEnumerating name len).1 (listing.next name len).1 := by
  have steady : ∀ results index, Represents (enumeration.reader.table name) results listing.inquiry.selection →
      ∀ bound : index < (listing.objects.map (listing.roll name).place).length,
      ∃ next, results.get (enumeration.reader.table name) index =
        (.ok (listing.objects.map (listing.roll name).place)[index], next) ∧
        Represents (enumeration.reader.table name) next listing.inquiry.selection := by
    intro results index represents bound
    obtain ⟨found, kept⟩ := represents.get index
    have inside : index < (listing.inquiry.selection.indexes (listing.inquiry.realm.rows name)).length := by
      rw [places, List.length_map] at bound
      exact bound
    rw [lists.rows, List.getElem?_eq_getElem inside] at found
    refine ⟨_, ?_, kept⟩
    simp only [places, List.getElem_map]
    exact Reader.read_eq found
  obtain ⟨results, filled, kept⟩ := fill_steady steady (min len bufferSize) enumeration.state lists.shows.represents
  rw [List.length_map, ← lists.count, ← List.map_drop, ← List.map_take, lists.state] at filled
  have reads : Reads name (enumeration.readWith results) listing := by
    rw [readWith, live]
    exact .collection rfl registered closed places
  have read : Lists name (enumeration.readWith results) listing := by
    rw [readWith, live] at reads ⊢
    exact ⟨lists.shows.evaluated kept, lists.counted, lists.known, lists.state, lists.count, .inr reads⟩
  apply filled_lists lists valid (.collection live registered closed places) ?_ read reads
  rw [FastEnumeration.results, live, Option.getD_none, lists.state]
  exact filled

theorem snapshot_lists (lists : Lists name enumeration listing) (valid : listing.inquiry.invalidated = false)
    (len : Nat) {view : TableView} (frozen : enumeration.snapshot = some (.tableView view .never))
    (unregistered : enumeration.registered = false)
    (places : view.rowIndexes = listing.objects.map (listing.roll name).place) :
    (enumeration.countByEnumerating name len).2 = (listing.next name len).2 ∧
      Lists name (enumeration.countByEnumerating name len).1 (listing.next name len).1 := by
  have steady : ∀ results index, results = Results.tableView view .never →
      ∀ bound : index < view.rowIndexes.length, ∃ next,
      results.get (enumeration.reader.table name) index = (.ok view.rowIndexes[index], next) ∧
        next = Results.tableView view .never := by
    intro results index same bound
    subst same
    refine ⟨_, ?_, rfl⟩
    simp only [Results.get, Results.tryGet, Results.evaluateQueryIfNeeded, Results.rowIndexes,
      List.getElem?_eq_getElem bound]
  obtain ⟨results, filled, kept⟩ := fill_steady steady (min len bufferSize) enumeration.state rfl
  subst kept
  rw [places, List.length_map, ← lists.count, ← List.map_drop, ← List.map_take, lists.state] at filled
  have reads : Reads name (enumeration.readWith (.tableView view .never)) listing := by
    rw [readWith, frozen]
    exact .snapshot rfl unregistered places
  have read : Lists name (enumeration.readWith (.tableView view .never)) listing := by
    rw [readWith, frozen] at reads ⊢
    exact ⟨lists.shows, lists.counted, lists.known, lists.state, lists.count, .inr reads⟩
  apply filled_lists lists valid (.snapshot frozen unregistered places) ?_ read reads
  rw [FastEnumeration.results, frozen, Option.getD_some, lists.state]
  exact filled

theorem next_lists (lists : Lists name enumeration listing) (reads : Reads name enumeration listing) (len : Nat) :
    (enumeration.countByEnumerating name len).2 = (listing.next name len).2 ∧
      Lists name (enumeration.countByEnumerating name len).1 (listing.next name len).1 := by
  by_cases gone : listing.inquiry.invalidated = true
  · have detached : ¬ enumeration.results.isValid enumeration.reader.detached = true := by
      rw [reads.isValid lists, gone]
      exact Bool.false_ne_true
    rw [countByEnumerating, if_neg detached, Listing.next, if_pos gone]
    exact ⟨rfl, lists⟩
  · have valid : listing.inquiry.invalidated = false := by simpa using gone
    cases reads with
    | collection live registered closed places => exact collection_lists lists valid len live registered closed places
    | snapshot frozen unregistered places => exact snapshot_lists lists valid len frozen unregistered places

theorem elements_lists {started : FastEnumeration} (asked : enumeration.begun name = .ok started)
    (lists : Lists name started listing) (reads : Reads name started listing)
    (valid : listing.inquiry.invalidated = false) {fuel : Nat}
    (enough : listing.objects.length - listing.state < fuel) : enumeration.elements name fuel =
      .ok ((listing.objects.drop listing.state).map (listing.roll name).place) := by
  induction fuel generalizing enumeration started listing with
  | zero => omega
  | succ fuel ih =>
    obtain ⟨same, next⟩ := next_lists lists reads bufferSize
    rw [Listing.next_valid valid] at same next
    have read : enumeration.fastEnumerate name bufferSize = ((started.countByEnumerating name bufferSize).1,
        .ok ((listing.batch bufferSize).map (listing.roll name).place)) := by
      rw [fastEnumerate, asked]
      exact Prod.ext rfl same
    have whole := listing.batch_append bufferSize
    rw [elements, read]
    cases batch : listing.batch bufferSize with
    | nil =>
      rw [listing.batch_eq_nil batch]
      rfl
    | cons object rest =>
      rw [batch] at whole next
      rw [if_neg (List.cons_ne_nil object rest)] at next
      have unasked : ¬ listing.state + (object :: rest).length = 0 := by
        rw [List.length_cons]
        omega
      have continued : (started.countByEnumerating name bufferSize).1.begun name =
          .ok (started.countByEnumerating name bufferSize).1 := by
        apply if_neg
        rw [next.state]
        exact unasked
      have kept : Reads name (started.countByEnumerating name bufferSize).1
          { listing with state := listing.state + (object :: rest).length } := by
        rcases next.source with idle | reads
        · exact absurd idle.1 unasked
        · exact reads
      have fewer : listing.objects.length - (listing.state + (object :: rest).length) < fuel := by
        have lengths := congrArg List.length whole
        rw [List.length_append, List.length_cons, List.length_drop, List.length_drop] at lengths
        rw [List.length_cons]
        omega
      have following := ih continued next kept valid fewer
      rw [← whole, List.map_append, List.map_cons]
      simp only [following]
      rfl

end FastEnumeration

/-- All the objects that the collection stands for, in the order of the table. -/
theorem Reader.elements_shows {name : String} {reader : Reader} {inquiry : Inquiry}
    (shows : Shows name reader inquiry) (valid : inquiry.invalidated = false) :
    reader.elements name = .ok ((inquiry.selection.indexes (inquiry.realm.rows name)).map some) := by
  have idle := FastEnumeration.idle_lists shows
  obtain ⟨lists, reads⟩ := FastEnumeration.start_lists idle
  have asked : (FastEnumeration.idle reader).begun name = .ok (FastEnumeration.start name reader) := by
    have attached : (FastEnumeration.idle reader).reader.isInvalidated = false := (isInvalidated_eq shows).trans valid
    unfold FastEnumeration.begun
    rw [attached]
    rfl
  have enough : ((Listing.idle name inquiry).start name).objects.length - 0 < (reader.table name).rows.length + 1 := by
    have found : ((Listing.idle name inquiry).start name).objects.length ≤ (inquiry.realm.rows name).length := by
      rw [Listing.start, List.length_map, Selection.indexes, List.length_findIdxs]
      exact List.countP_le_length
    have same : (reader.table name).rows = inquiry.realm.rows name := idle.rows
    rw [same]
    exact Nat.lt_succ_of_le found
  rw [elements, FastEnumeration.elements_lists asked lists reads valid enough]
  exact congrArg Except.ok (Listing.start_places idle.rollCounted)

end ZemogaSocial
