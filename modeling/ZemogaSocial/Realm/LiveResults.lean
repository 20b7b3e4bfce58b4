import ZemogaSocial.Realm.Results
import ZemogaSocial.Transition.Simulation

namespace ZemogaSocial

open ObjectStore Keyed Transition

/-- What a collection stands for. Nothing is kept of what has been found before. -/
inductive Selection where
  | all
  | matching (condition : Row → Bool)

namespace Selection

def holds : Selection → Row → Bool
  | .all => fun _ => true
  | .matching condition => condition

def indexes (selection : Selection) (rows : List Row) : List Nat := rows.findIdxs selection.holds

def filter (condition : Row → Bool) : Selection → Selection
  | .all => .matching condition
  | .matching earlier => .matching fun cells => earlier cells && condition cells

def sets (selection : Selection) (key : String) (value : Value) (rows : List Row) : List Operation :=
  (selection.indexes rows).map fun row => .setValue row key value

def deletions : Selection → List Row → List Operation
  | .all, _ => [.clear]
  | .matching condition, rows => (rows.findIdxs condition).reverse.map .delete

def access (selection : Selection) (rows : List Row) : Reader.Access → Reader.Answer
  | .count => .count (selection.indexes rows).length
  | .get index =>
    match (selection.indexes rows)[index]? with
    | some row => .object (some row)
    | none => .outOfBounds { requested := index, validCount := (selection.indexes rows).length }
  | .first =>
    match (selection.indexes rows).head? with
    | some row => .object (some row)
    | none => .noObject
  | .last =>
    match (selection.indexes rows).getLast? with
    | some row => .object (some row)
    | none => .noObject
  | .indexOf row => if row < rows.length then .index ((selection.indexes rows).idxOf? row) else .objectInvalidated
  | .tableView => .rows ((selection.indexes rows).map some)

theorem indexes_all (rows : List Row) : Selection.all.indexes rows = List.range rows.length := by
  unfold indexes holds
  induction rows using List.reverseRecOn with
  | nil => rfl
  | append_singleton rows row ih =>
    rw [List.findIdxs_append, List.length_append, List.length_singleton, List.range_succ, ih]
    simp

theorem idxOf?_some (indexes : List Nat) (row : Nat) : (indexes.map some).idxOf? (some row) = indexes.idxOf? row := by
  induction indexes with
  | nil => rfl
  | cons index rest ih => simp [List.idxOf?_cons, ih]

theorem reduceOption_some (indexes : List Nat) : (indexes.map some).reduceOption = indexes := by
  induction indexes with
  | nil => rfl
  | cons index rest ih => exact congrArg (index :: ·) ih

theorem refusal_deletions (infos : String → ClassInfo) (name : String) (rows : List Row) (selection : Selection) :
    Realm.refusal infos name rows (selection.deletions rows) = .notInWriteTransaction := by
  cases selection with
  | all => rfl
  | matching condition =>
    rw [deletions]
    cases (rows.findIdxs condition).reverse <;> rfl

end Selection

namespace ObjectStore

/-- A collection that, read now, has the objects of the selection. -/
inductive Represents (table : TableAccessor) : Results → Selection → Prop where
  | table : Represents table .table .all
  | query (condition : Row → Bool) : Represents table (.query condition) (.matching condition)
  | tableView {view : TableView} {condition : Row → Bool} (asked : view.query = condition)
      (current : Current table view) : Represents table (.tableView view .auto) (.matching condition)

namespace Represents

variable {table : TableAccessor} {results : Results} {selection : Selection}

theorem found (table : TableAccessor) (condition : Row → Bool) :
    Represents table (.tableView (table.findAll condition) .auto) (.matching condition) :=
  .tableView rfl (.findAll table condition)

theorem isValid (represents : Represents table results selection) (detached : Bool) :
    results.isValid detached = !detached := by
  cases represents <;> rfl

theorem evaluated {condition : Row → Bool} (represents : Represents table results (.matching condition)) :
    results.evaluateQueryIfNeeded table = .tableView (table.findAll condition) .auto := by
  cases represents with
  | query =>
    have current := Current.findAll table condition
    rw [Results.evaluateQueryIfNeeded, current.syncIfNeeded]
    rfl
  | tableView asked current =>
    rw [Results.evaluateQueryIfNeeded, current.syncIfNeeded, asked]

theorem follow (represents : Represents table results selection) (instructions : List Instruction) :
    Represents (table.performAll instructions) (results.follow table instructions) selection := by
  cases represents with
  | table => exact .table
  | query condition => exact .query condition
  | tableView asked current =>
    exact .tableView ((TableView.follow_query _ table instructions).trans asked) (current.follow instructions)

theorem rollBack {rows : List Row} {log : List Instruction} (represents : Represents table results selection)
    (replayed : table.rows = log.foldl Instruction.apply rows) :
    Represents { rows, version := table.version + log.length } (results.rollBack rows log) selection := by
  cases represents with
  | table => exact .table
  | query condition => exact .query condition
  | tableView asked current =>
    exact .tableView ((TableView.rollBack_query _ rows log).trans asked) (current.rollBack replayed)

theorem filter (represents : Represents table results selection) (condition : Row → Bool) :
    Represents table (results.filter condition) (selection.filter condition) := by
  cases represents with
  | table => exact .query condition
  | query earlier => exact .query _
  | tableView asked current =>
    subst asked
    exact .query _

theorem size (represents : Represents table results selection) :
    (results.size table).1 = (selection.indexes table.rows).length ∧
      Represents table (results.size table).2 selection := by
  cases represents with
  | table =>
    refine ⟨?_, .table⟩
    rw [Selection.indexes_all, List.length_range]
    rfl
  | query condition =>
    refine ⟨?_, .query condition⟩
    rw [Selection.indexes, List.length_findIdxs]
    rfl
  | @tableView view condition asked current =>
    have evaluated := (Represents.tableView asked current).evaluated
    simp only [Results.size, evaluated]
    exact ⟨List.length_map _, .found table condition⟩

theorem tryGet (represents : Represents table results selection) (index : Nat) :
    (results.tryGet table index).1 = (selection.indexes table.rows)[index]?.map some ∧
      Represents table (results.tryGet table index).2 selection := by
  have found : ∀ condition, (Results.tableView (table.findAll condition) .auto).rowIndexes[index]? =
      ((Selection.matching condition).indexes table.rows)[index]?.map some := fun _ => List.getElem?_map
  cases represents with
  | table =>
    refine ⟨?_, .table⟩
    rw [Selection.indexes_all, Results.tryGet]
    by_cases bound : index < table.rows.length
    · simp [bound]
    · simp [bound]
  | query condition =>
    simp only [Results.tryGet, (Represents.query condition).evaluated]
    exact ⟨found condition, .found table condition⟩
  | tableView asked current =>
    simp only [Results.tryGet, (Represents.tableView asked current).evaluated]
    exact ⟨found _, .found table _⟩

theorem get (represents : Represents table results selection) (index : Nat) :
    (results.get table index).1 = (match (selection.indexes table.rows)[index]? with
      | some row => .ok (some row)
      | none => .error { requested := index, validCount := (selection.indexes table.rows).length }) ∧
      Represents table (results.get table index).2 selection := by
  obtain ⟨found, next⟩ := represents.tryGet index
  unfold Results.get
  cases present : (selection.indexes table.rows)[index]? with
  | some row =>
    rw [present] at found
    have read : results.tryGet table index = (some (some row), (results.tryGet table index).2) := Prod.ext found rfl
    rw [read]
    exact ⟨rfl, next⟩
  | none =>
    rw [present] at found
    have read : results.tryGet table index = (none, (results.tryGet table index).2) := Prod.ext found rfl
    obtain ⟨counted, kept⟩ := next.size
    rw [read]
    simp only [counted]
    exact ⟨trivial, kept⟩

theorem last (represents : Represents table results selection) :
    (results.last table).1 = (selection.indexes table.rows).getLast?.map some ∧
      Represents table (results.last table).2 selection := by
  have ending : ∀ {results : Results}, Represents table results selection →
      ((results.size table).2.tryGet table ((results.size table).1 - 1)).1 =
        (selection.indexes table.rows).getLast?.map some ∧
      Represents table ((results.size table).2.tryGet table ((results.size table).1 - 1)).2 selection := by
    intro results represents
    obtain ⟨counted, kept⟩ := represents.size
    rw [counted, List.getLast?_eq_getElem?]
    exact kept.tryGet _
  cases represents with
  | table => exact ending .table
  | query condition =>
    rw [Results.last]
    simp only [(Represents.query condition).evaluated]
    exact ending (.found table condition)
  | tableView asked current => exact ending (.tableView asked current)

theorem indexOf (represents : Represents table results selection) {row : Nat} (bound : row < table.rows.length) :
    (results.indexOf table row).1 = (selection.indexes table.rows).idxOf? row ∧
      Represents table (results.indexOf table row).2 selection := by
  have found : ∀ condition, (Results.tableView (table.findAll condition) .auto).rowIndexes.idxOf? (some row) =
      ((Selection.matching condition).indexes table.rows).idxOf? row := fun _ => Selection.idxOf?_some _ row
  cases represents with
  | table =>
    refine ⟨?_, .table⟩
    rw [Selection.indexes_all, Results.indexOf]
    exact ((idxOf?_eq_iff List.nodup_range).mpr (List.getElem?_range bound)).symm
  | query condition =>
    simp only [Results.indexOf, (Represents.query condition).evaluated]
    exact ⟨found condition, .found table condition⟩
  | tableView asked current =>
    simp only [Results.indexOf, (Represents.tableView asked current).evaluated]
    exact ⟨found _, .found table _⟩

theorem getTableview (represents : Represents table results selection) :
    (results.getTableview table).1 = (selection.indexes table.rows).map some ∧
      Represents table (results.getTableview table).2 selection := by
  cases represents with
  | table => exact ⟨rfl, .table⟩
  | query condition =>
    simp only [Results.getTableview, (Represents.query condition).evaluated]
    exact ⟨rfl, .found table condition⟩
  | tableView asked current =>
    simp only [Results.getTableview, (Represents.tableView asked current).evaluated]
    exact ⟨rfl, .found table _⟩

end Represents

theorem attachedRows_findAll (table : TableAccessor) (condition : Row → Bool) :
    (table.findAll condition).attachedRows = (table.rows.findIdxs condition).reverse := by
  have attached : (table.findAll condition).rowIndexes.reduceOption = table.rows.findIdxs condition :=
    Selection.reduceOption_some _
  rw [TableView.attachedRows, attached]
  have sorted : ((table.rows.findIdxs condition).mergeSort fun left right => right ≤ left).Pairwise (· ≥ ·) := by
    have transitive : ∀ a b c : Nat, decide (b ≤ a) = true → decide (c ≤ b) = true → decide (c ≤ a) = true := by
      simp only [decide_eq_true_eq]
      omega
    have total : ∀ a b : Nat, (decide (b ≤ a) || decide (a ≤ b)) = true := by
      simp only [Bool.or_eq_true, decide_eq_true_eq]
      omega
    exact (List.pairwise_mergeSort transitive total _).imp fun below => of_decide_eq_true below
  have descending : (table.rows.findIdxs condition).reverse.Pairwise (· ≥ ·) :=
    List.pairwise_reverse.mpr (List.pairwise_findIdxs.imp Nat.le_of_lt)
  exact ((List.mergeSort_perm _ _).trans (List.reverse_perm _).symm).eq_of_pairwise
    (fun _ _ _ _ above below => Nat.le_antisymm below above) sorted descending

end ObjectStore

namespace Realm

variable {infos : String → ClassInfo} {realm : Realm} {name : String}

theorem performed_appended {before after : Realm} {instructions : List Instruction}
    (appended : after.log name = before.log name ++ instructions) : before.performed name after = instructions := by
  rw [performed, appended, List.drop_left]

theorem operate_congr {draft : String → Table} (opened : realm.draft = some draft)
    {first second : List Row → List Operation} (same : first (draft name).rows = second (draft name).rows) :
    realm.operate infos name first = realm.operate infos name second := by
  simp only [operate, opened, same]

theorem operate_nothing {draft : String → Table} (opened : realm.draft = some draft)
    {operations : List Row → List Operation} (nothing : operations (draft name).rows = []) :
    realm.operate infos name operations = { realm } := by
  obtain ⟨group, _⟩ := realm
  cases opened
  simp [operate, nothing, Operation.performEach]

theorem operate_deletions {draft : String → Table} (opened : realm.draft = some draft) (condition : Row → Bool) :
    (realm.operate infos name fun rows => (rows.findIdxs condition).reverse.map .delete).realm.rows name =
      removeUnordered condition (realm.rows name) := by
  obtain ⟨log, deleted⟩ := performEach_deletions (infos name) condition (draft name)
  simp only [operate, rows, opened, deleted, Function.update_self]

theorem beginWrite_rows (realm : Realm) : realm.beginWrite.realm.rows = realm.rows := by
  unfold beginWrite isInWriteTransaction
  cases opened : realm.draft with
  | none => simp [rows, opened]
  | some draft => simp

theorem commitWrite_rows (realm : Realm) : realm.commitWrite.realm.rows = realm.rows := by
  unfold commitWrite
  cases opened : realm.draft with
  | none => rfl
  | some draft => cases realm.fault <;> simp [rows, opened]

end Realm

/-- A Realm and what a collection in it stands for. -/
structure Inquiry where
  realm : Realm
  invalidated : Bool := false
  selection : Selection

namespace Inquiry

variable (infos : String → ClassInfo) (name : String)

def operate (inquiry : Inquiry) (other : String) (operations : List Row → List Operation) :
    Inquiry × Reader.Answer :=
  let ended := inquiry.realm.operate infos other operations
  ({ inquiry with realm := ended.realm }, .ended ended.outcome)

def handle (inquiry : Inquiry) : Reader.Event → Inquiry × Reader.Answer
  | .beginWrite =>
    ({ inquiry with realm := inquiry.realm.beginWrite.realm }, .ended inquiry.realm.beginWrite.outcome)
  | .commitWrite =>
    ({ inquiry with realm := inquiry.realm.commitWrite.realm }, .ended inquiry.realm.commitWrite.outcome)
  | .cancelWrite =>
    ({ inquiry with realm := inquiry.realm.cancelWrite.realm }, .ended inquiry.realm.cancelWrite.outcome)
  | .invalidate =>
    ({ inquiry with realm := inquiry.realm.invalidate.realm, invalidated := true },
      .ended inquiry.realm.invalidate.outcome)
  | .operate other operations => inquiry.operate infos other operations
  | .setValue key value =>
    if inquiry.realm.isInWriteTransaction then
      if inquiry.invalidated then (inquiry, .resultsInvalidated)
      else inquiry.operate infos name (inquiry.selection.sets key value)
    else (inquiry, .ended (.raised .notInWriteTransaction))
  | .deleteObjects =>
    if inquiry.invalidated then (inquiry, .resultsInvalidated)
    else inquiry.operate infos name inquiry.selection.deletions
  | .access access =>
    if inquiry.invalidated then (inquiry, .resultsInvalidated)
    else (inquiry, inquiry.selection.access (inquiry.realm.rows name) access)

end Inquiry

namespace Reader

variable {infos : String → ClassInfo} {name : String} {reader : Reader} {inquiry : Inquiry}

/-- The collection of the reader has at every moment what it stands for. -/
structure Shows (name : String) (reader : Reader) (inquiry : Inquiry) : Prop where
  realm : reader.realm = inquiry.realm
  logged : reader.realm.Logged
  detached : reader.detached = inquiry.invalidated
  represents : Represents (reader.table name) reader.results inquiry.selection

theorem operate_table (infos : String → ClassInfo) (name : String) (reader : Reader) (other : String)
    (operations : List Row → List Operation) :
    (reader.operate infos name other operations).1.table name =
      (reader.table name).performAll
        (reader.realm.performed name (reader.realm.operate infos other operations).realm) := by
  obtain ⟨instructions, appended, written, _⟩ := reader.realm.operate_performs infos name other operations
  rw [TableAccessor.performAll_eq, table, operate, written, Realm.performed_appended appended]
  rfl

theorem operate_shows (infos : String → ClassInfo) (shows : Shows name reader inquiry) (other : String)
    (operations : List Row → List Operation) :
    (reader.operate infos name other operations).2 = (inquiry.operate infos other operations).2 ∧
      Shows name (reader.operate infos name other operations).1 (inquiry.operate infos other operations).1 := by
  refine ⟨?_, ?_, ?_, ?_, ?_⟩
  · rw [operate, Inquiry.operate, shows.realm]
  · rw [operate, Inquiry.operate, shows.realm]
  · exact shows.logged.operate other operations
  · exact shows.detached
  · rw [operate_table]
    exact shows.represents.follow _

theorem rollBack_shows (shows : Shows name reader inquiry) :
    Shows name (reader.rollBack name) { inquiry with realm := { inquiry.realm with draft := none } } := by
  refine ⟨?_, ?_, shows.detached, ?_⟩
  · rw [rollBack, shows.realm]
  · exact Realm.logged_closed rfl
  · have file : (reader.rollBack name).table name =
        { rows := reader.realm.group name, version := reader.version + (reader.realm.log name).length } := rfl
    rw [file]
    exact shows.represents.rollBack (shows.logged.replayed name)

theorem isInvalidated_eq (shows : Shows name reader inquiry) : reader.isInvalidated = inquiry.invalidated := by
  rw [← shows.detached, isInvalidated, shows.represents.isValid, Bool.not_not]

theorem read_eq {α β : Type*} {read : α × β} {found : α} (same : read.1 = found) : read = (found, read.2) :=
  Prod.ext same rfl

theorem Shows.evaluated {results : Results} (shows : Shows name reader inquiry)
    (kept : Represents (reader.table name) results inquiry.selection) : Shows name { reader with results } inquiry :=
  ⟨shows.realm, shows.logged, shows.detached, kept⟩

theorem read_shows (shows : Shows name reader inquiry) (access : Access) :
    (reader.read name access).2 = inquiry.selection.access (inquiry.realm.rows name) access ∧
      Shows name (reader.read name access).1 inquiry := by
  have rows : (reader.table name).rows = inquiry.realm.rows name := by rw [table, shows.realm]
  have represents := shows.represents
  rw [← rows]
  cases access with
  | count =>
    obtain ⟨counted, kept⟩ := represents.size
    exact ⟨congrArg Answer.count counted, shows.evaluated kept⟩
  | get index =>
    obtain ⟨found, kept⟩ := represents.get index
    rw [Reader.read, Selection.access]
    cases present : (inquiry.selection.indexes (reader.table name).rows)[index]? with
    | some row =>
      rw [present] at found
      rw [read_eq found]
      exact ⟨rfl, shows.evaluated kept⟩
    | none =>
      rw [present] at found
      rw [read_eq found]
      exact ⟨rfl, shows.evaluated kept⟩
  | first =>
    obtain ⟨found, kept⟩ := represents.tryGet 0
    rw [← List.head?_eq_getElem?] at found
    rw [Reader.read, Selection.access, Results.first]
    cases present : (inquiry.selection.indexes (reader.table name).rows).head? with
    | some row =>
      rw [present] at found
      rw [read_eq found]
      exact ⟨rfl, shows.evaluated kept⟩
    | none =>
      rw [present] at found
      rw [read_eq found]
      exact ⟨rfl, shows.evaluated kept⟩
  | last =>
    obtain ⟨found, kept⟩ := represents.last
    rw [Reader.read, Selection.access]
    cases present : (inquiry.selection.indexes (reader.table name).rows).getLast? with
    | some row =>
      rw [present] at found
      rw [read_eq found]
      exact ⟨rfl, shows.evaluated kept⟩
    | none =>
      rw [present] at found
      rw [read_eq found]
      exact ⟨rfl, shows.evaluated kept⟩
  | indexOf row =>
    rw [Reader.read, Selection.access]
    by_cases bound : row < (reader.table name).rows.length
    · obtain ⟨found, kept⟩ := represents.indexOf bound
      rw [if_pos bound, if_pos bound]
      exact ⟨congrArg Answer.index found, shows.evaluated kept⟩
    · rw [if_neg bound, if_neg bound]
      exact ⟨rfl, shows⟩
  | tableView =>
    obtain ⟨found, kept⟩ := represents.getTableview
    exact ⟨congrArg Answer.rows found, shows.evaluated kept⟩

theorem access_shows (infos : String → ClassInfo) (shows : Shows name reader inquiry) (access : Access) :
    (reader.access name access).2 = (inquiry.handle infos name (.access access)).2 ∧
      Shows name (reader.access name access).1 (inquiry.handle infos name (.access access)).1 := by
  rw [Reader.access, Inquiry.handle, isInvalidated_eq shows]
  split
  · exact ⟨rfl, shows⟩
  · exact read_shows shows access

theorem setValue_shows (shows : Shows name reader inquiry) (key : String) (value : Value) :
    (reader.setValue infos name key value).2 = (inquiry.handle infos name (.setValue key value)).2 ∧
      Shows name (reader.setValue infos name key value).1 (inquiry.handle infos name (.setValue key value)).1 := by
  rw [Inquiry.handle, setValue, isInvalidated_eq shows, ← shows.realm]
  cases opened : reader.realm.draft with
  | none =>
    have closed : reader.realm.isInWriteTransaction = false := by rw [Realm.isInWriteTransaction, opened]; rfl
    rw [closed]
    exact ⟨rfl, shows⟩
  | some draft =>
    have writing : reader.realm.isInWriteTransaction = true := by rw [Realm.isInWriteTransaction, opened]; rfl
    rw [writing, if_pos rfl, if_pos rfl]
    by_cases gone : inquiry.invalidated = true
    · rw [if_pos gone, if_pos gone]
      exact ⟨rfl, shows⟩
    · obtain ⟨found, kept⟩ := shows.represents.getTableview
      have rows : (reader.table name).rows = (draft name).rows := by simp [table, Realm.rows, opened]
      have read := shows.evaluated kept
      rw [if_neg gone, if_neg gone, read_eq found, rows]
      simp only
      by_cases nothing : inquiry.selection.indexes (draft name).rows = []
      · have unchanged : reader.realm.operate infos name (inquiry.selection.sets key value) =
            { realm := reader.realm } :=
          Realm.operate_nothing opened (by rw [Selection.sets, nothing]; rfl)
        rw [if_pos (by simp [nothing]), Inquiry.operate, ← shows.realm, unchanged]
        exact ⟨rfl, rfl, shows.logged, shows.detached, kept⟩
      · rw [if_neg (by simpa using nothing)]
        have alike : reader.realm.operate infos name (inquiry.selection.sets key value) =
            reader.realm.operate infos name fun _ => inquiry.selection.sets key value (draft name).rows :=
          Realm.operate_congr opened rfl
        obtain ⟨same, next⟩ :=
          operate_shows infos read name fun _ => inquiry.selection.sets key value (draft name).rows
        rw [Inquiry.operate, ← shows.realm] at same next
        rw [Selection.reduceOption_some, Inquiry.operate, ← shows.realm, alike]
        exact ⟨same, next⟩

theorem cleared_represents (table : TableAccessor) {rows : List Row} {condition : Row → Bool}
    (instructions : List Instruction) (gone : rows.findIdxs condition = []) :
    Represents { rows, version := table.version + instructions.length }
      (.tableView ((table.findAll condition).cleared table instructions) .auto) (.matching condition) := by
  have inSync : ((table.findAll condition).cleared table instructions).lastSeenVersion =
      table.version + instructions.length := by simp [TableView.cleared, TableView.isInSync, TableAccessor.findAll]
  refine .tableView rfl ⟨Nat.le_of_eq inSync, fun _ => ?_⟩
  have asked : ((table.findAll condition).cleared table instructions).query = condition := rfl
  rw [asked, gone]
  rfl

theorem deleteMatching_shows {condition : Row → Bool} {draft : String → Table} (shows : Shows name reader inquiry)
    (asked : inquiry.selection = .matching condition) (opened : reader.realm.draft = some draft)
    (valid : reader.isInvalidated = false) :
    (reader.deleteObjects infos name).2 =
        (inquiry.operate infos name (Selection.matching condition).deletions).2 ∧
      Shows name (reader.deleteObjects infos name).1
        (inquiry.operate infos name (Selection.matching condition).deletions).1 := by
  have represents := shows.represents
  rw [asked] at represents
  have rows : (reader.table name).rows = (draft name).rows := by simp [table, Realm.rows, opened]
  have alike : (reader.realm.operate infos name fun _ => ((draft name).rows.findIdxs condition).reverse.map .delete) =
      reader.realm.operate infos name (Selection.matching condition).deletions := Realm.operate_congr opened rfl
  have deleted : reader.deleteObjects infos name =
      ({ reader with
         realm := (reader.realm.operate infos name (Selection.matching condition).deletions).realm
         version := reader.version + (reader.realm.performed name
           (reader.realm.operate infos name (Selection.matching condition).deletions).realm).length
         results := .tableView (((reader.table name).findAll condition).cleared (reader.table name)
           (reader.realm.performed name
             (reader.realm.operate infos name (Selection.matching condition).deletions).realm)) .auto },
        .ended (reader.realm.operate infos name (Selection.matching condition).deletions).outcome) := by
    have evaluated := represents.evaluated
    have writing : reader.realm.isInWriteTransaction = true := by simp [Realm.isInWriteTransaction, opened]
    rw [deleteObjects, if_neg (by simp [valid])]
    cases results : reader.results with
    | empty =>
      rw [results] at represents
      cases represents
    | table =>
      rw [results] at represents
      cases represents
    | query | tableView =>
      rw [results] at evaluated
      simp only [writing, if_true, evaluated, attachedRows_findAll, rows, alike]
  have gone : ((reader.realm.operate infos name (Selection.matching condition).deletions).realm.rows name).findIdxs
      condition = [] := by
    have left : (reader.realm.operate infos name (Selection.matching condition).deletions).realm.rows name =
        removeUnordered condition (reader.realm.rows name) := Realm.operate_deletions opened condition
    rw [left, List.findIdxs_eq_nil_iff]
    exact fun cells stored => (mem_removeUnordered.mp stored).2
  rw [deleted, Inquiry.operate, ← shows.realm]
  refine ⟨rfl, rfl, shows.logged.operate name _, shows.detached, ?_⟩
  rw [asked]
  exact cleared_represents (reader.table name) _ gone

theorem deleteObjects_shows (shows : Shows name reader inquiry) :
    (reader.deleteObjects infos name).2 = (inquiry.handle infos name .deleteObjects).2 ∧
      Shows name (reader.deleteObjects infos name).1 (inquiry.handle infos name .deleteObjects).1 := by
  have same := isInvalidated_eq shows
  rw [Inquiry.handle]
  by_cases gone : inquiry.invalidated = true
  · rw [deleteObjects, same, if_pos gone, if_pos gone]
    exact ⟨rfl, shows⟩
  have valid : reader.isInvalidated = false := by rw [same]; simpa using gone
  rw [if_neg gone]
  cases opened : reader.realm.draft with
  | none =>
    have closed : reader.deleteObjects infos name = (reader, .ended (.raised .notInWriteTransaction)) := by
      have represents := shows.represents
      rw [deleteObjects, if_neg (by simp [valid])]
      cases results : reader.results with
      | empty =>
        rw [results] at represents
        cases represents
      | table | query | tableView => simp [Realm.isInWriteTransaction, opened]
    rw [closed, Inquiry.operate, ← shows.realm, Realm.operate_closed opened, Selection.refusal_deletions]
    exact ⟨rfl, rfl, shows.logged, shows.detached, shows.represents⟩
  | some draft =>
    cases selection : inquiry.selection with
    | matching condition => exact deleteMatching_shows shows selection opened valid
    | all =>
      have cleared : reader.deleteObjects infos name = reader.operate infos name name fun _ => [.clear] := by
        have represents := shows.represents
        have writing : reader.realm.isInWriteTransaction = true := by simp [Realm.isInWriteTransaction, opened]
        rw [selection] at represents
        rw [deleteObjects, if_neg (by simp [valid])]
        cases results : reader.results with
        | table => simp [writing, Results.evaluateQueryIfNeeded]
        | empty | query | tableView =>
          rw [results] at represents
          cases represents
      rw [cleared]
      exact operate_shows infos shows name fun _ => [.clear]

theorem handle_shows (infos : String → ClassInfo) (shows : Shows name reader inquiry) (event : Event) :
    (reader.handle infos name event).2 = (inquiry.handle infos name event).2 ∧
      Shows name (reader.handle infos name event).1 (inquiry.handle infos name event).1 := by
  cases event with
  | beginWrite =>
    rw [handle, Inquiry.handle, ← shows.realm]
    refine ⟨rfl, rfl, shows.logged.beginWrite, shows.detached, ?_⟩
    have same : table name { reader with realm := reader.realm.beginWrite.realm } = reader.table name := by
      rw [table, Realm.beginWrite_rows]
      rfl
    rw [same]
    exact shows.represents
  | commitWrite =>
    rw [handle, Inquiry.handle, ← shows.realm]
    refine ⟨rfl, rfl, shows.logged.commitWrite, shows.detached, ?_⟩
    have same : table name { reader with realm := reader.realm.commitWrite.realm } = reader.table name := by
      rw [table, Realm.commitWrite_rows]
      rfl
    rw [same]
    exact shows.represents
  | cancelWrite =>
    rw [handle, Inquiry.handle, ← shows.realm, Realm.cancelWrite_closes, shows.realm]
    exact ⟨rfl, rollBack_shows shows⟩
  | invalidate =>
    rw [handle, Inquiry.handle, ← shows.realm, Realm.invalidate_closes, shows.realm]
    have closed := rollBack_shows shows
    exact ⟨rfl, closed.realm, closed.logged, rfl, closed.represents⟩
  | operate other operations => exact operate_shows infos shows other operations
  | setValue key value => exact setValue_shows shows key value
  | deleteObjects => exact deleteObjects_shows shows
  | access access => exact access_shows infos shows access

/-- All objects of the class, in a Realm outside a transaction. -/
def opened (group : Group) (faults : List (Option String)) : Reader :=
  { realm := { group, faults }, results := .table }

end Reader

namespace Inquiry

def opened (group : Group) (faults : List (Option String)) : Inquiry :=
  { realm := { group, faults }, selection := .all }

end Inquiry

namespace Reader

variable {infos : String → ClassInfo} {name : String} {reader : Reader} {inquiry : Inquiry}

end Reader

end ZemogaSocial
