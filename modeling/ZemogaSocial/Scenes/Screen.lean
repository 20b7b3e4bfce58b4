import Mathlib.Data.List.Basic
import Mathlib.Data.List.Nodup

namespace ZemogaSocial

structure Screen (α : Type) where
  isLoading : Bool := true
  shown : List α := []
  deriving Repr

namespace Screen

variable {α : Type}

def loaded (screen : Screen α) (present : List α → List α) (retrieved : Option (List α)) : Screen α :=
  match retrieved with
  | none => { screen with isLoading := false }
  | some rows => { isLoading := false, shown := present rows }

/-- Whether the body shows its "No … to show" text. -/
def showsNothingText (screen : Screen α) : Bool :=
  if screen.shown.length > 0 then false else !screen.isLoading && screen.shown.length == 0

@[simp] theorem loaded_isLoading (screen : Screen α) (present : List α → List α)
    (retrieved : Option (List α)) : (screen.loaded present retrieved).isLoading = false := by
  cases retrieved <;> rfl

@[simp] theorem loaded_some_shown (screen : Screen α) (present : List α → List α) (rows : List α) :
    (screen.loaded present (some rows)).shown = present rows := rfl

@[simp] theorem loaded_none_shown (screen : Screen α) (present : List α → List α) :
    (screen.loaded present none).shown = screen.shown := rfl

theorem loading_hides_text {screen : Screen α} (loading : screen.isLoading = true) :
    screen.showsNothingText = false := by
  simp [showsNothingText, loading]

end Screen

/-- The offsets of a swipe, which iterate in ascending order. -/
structure IndexSet where
  indices : List Nat
  ascending : indices.Pairwise (· < ·)

namespace IndexSet

variable {α : Type}

def removeFrom (offsets : IndexSet) (xs : List α) : List α :=
  (xs.zipIdx.filter fun entry => decide (entry.2 ∉ offsets.indices)).map Prod.fst

/-- For each of `count` rows, whether it is among the offsets. -/
def marks (offsets : IndexSet) (count : Nat) : List Bool :=
  (List.range count).map fun i => decide (i ∈ offsets.indices)

theorem mem_removeFrom {offsets : IndexSet} {xs : List α} {x : α} :
    x ∈ offsets.removeFrom xs ↔ ∃ i, xs[i]? = some x ∧ i ∉ offsets.indices := by
  simp [removeFrom, List.mem_zipIdx_iff_getElem?]

theorem removeFrom_sublist (offsets : IndexSet) (xs : List α) : (offsets.removeFrom xs).Sublist xs := by
  have kept : (offsets.removeFrom xs).Sublist (xs.zipIdx.map Prod.fst) := List.filter_sublist.map Prod.fst
  rw [List.zipIdx_map_fst] at kept
  exact kept

theorem removeFrom_map {β : Type} (offsets : IndexSet) (f : α → β) (xs : List α) :
    offsets.removeFrom (xs.map f) = (offsets.removeFrom xs).map f := by
  rw [removeFrom, removeFrom, List.zipIdx_map, List.filter_map, List.map_map, List.map_map]
  rfl

theorem filterMap_findIdxs (gone : α → Bool) (xs : List α) :
    ((xs.findIdxs gone).filterMap fun i => xs[i]?) = xs.filter gone := by
  have entries : ∀ entry ∈ xs.zipIdx, ((bif gone entry.1 then some entry.2 else none).bind fun i => xs[i]?) =
      (Option.guard gone ∘ Prod.fst) entry := by
    intro entry member
    have here := List.mem_zipIdx_iff_getElem?.mp member
    rw [Function.comp_apply, Option.guard]
    cases gone entry.1
    · rfl
    · exact here
  rw [List.findIdxs_eq_filterMap_zipIdx, List.filterMap_filterMap, List.filterMap_congr entries,
    ← List.filterMap_map, List.zipIdx_map_fst, List.filterMap_eq_filter]

theorem exists_mark [DecidableEq α] (offsets : IndexSet) {xs : List α} (distinct : xs.Nodup) :
    ∃ gone : α → Bool, ∀ i x, xs[i]? = some x → gone x = decide (i ∈ offsets.indices) := by
  apply Exists.intro fun x => decide (xs.idxOf x ∈ offsets.indices)
  intro i x here
  obtain ⟨bound, rfl⟩ := List.getElem?_eq_some_iff.mp here
  show decide (xs.idxOf xs[i] ∈ offsets.indices) = _
  rw [distinct.idxOf_getElem i bound]

section Marked

variable {offsets : IndexSet} {xs : List α} {gone : α → Bool}
  (marked : ∀ i x, xs[i]? = some x → gone x = decide (i ∈ offsets.indices))

include marked

theorem map_marks : xs.map gone = offsets.marks xs.length := by
  apply List.ext_getElem
  · simp [marks]
  · intro i left _
    rw [List.length_map] at left
    simp only [marks, List.getElem_map, List.getElem_range]
    exact marked i xs[i] (List.getElem?_eq_getElem left)

theorem removeFrom_eq : offsets.removeFrom xs = xs.filter fun x => !gone x := by
  have entries : (xs.zipIdx.filter fun entry => decide (entry.2 ∉ offsets.indices)) =
      xs.zipIdx.filter ((fun x => !gone x) ∘ Prod.fst) := by
    apply List.filter_congr
    intro entry member
    have here := List.mem_zipIdx_iff_getElem?.mp member
    rw [Function.comp_apply, marked entry.2 entry.1 here, decide_not]
  rw [removeFrom, entries, ← List.filter_map, List.zipIdx_map_fst]

theorem indices_eq (inRange : ∀ i ∈ offsets.indices, i < xs.length) : offsets.indices = xs.findIdxs gone := by
  have same : ∀ i, i ∈ offsets.indices ↔ i ∈ xs.findIdxs gone := by
    intro i
    rw [List.mem_findIdxs_iff_exists_getElem_pos]
    apply Iff.intro
    · intro member
      have bound := inRange i member
      apply Exists.intro bound
      rw [marked i xs[i] (List.getElem?_eq_getElem bound)]
      exact decide_eq_true member
    · intro selected
      rcases selected with ⟨bound, here⟩
      rw [marked i xs[i] (List.getElem?_eq_getElem bound)] at here
      exact of_decide_eq_true here
  have perm := (List.perm_ext_iff_of_nodup (offsets.ascending.imp Nat.ne_of_lt) List.nodup_findIdxs).mpr same
  exact perm.eq_of_pairwise (fun _ _ _ _ left right => absurd left (Nat.lt_asymm right))
    offsets.ascending List.pairwise_findIdxs

theorem selected_eq (inRange : ∀ i ∈ offsets.indices, i < xs.length) :
    (offsets.indices.filterMap fun i => xs[i]?) = xs.filter gone := by
  rw [indices_eq marked inRange, filterMap_findIdxs]

end Marked

end IndexSet

end ZemogaSocial
