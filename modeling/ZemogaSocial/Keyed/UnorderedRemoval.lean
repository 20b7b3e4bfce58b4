import Mathlib.Data.List.Induction
import Mathlib.Data.List.Nodup

namespace Keyed

variable {ρ : Type*}

/-- The last row is moved into the freed slot, so the order of the others is not kept. -/
def moveLastOver (rows : List ρ) (index : Nat) : List ρ :=
  match rows.getLast? with
  | none => []
  | some last => (rows.set index last).dropLast

/-- Matching rows go one at a time, the highest index first. -/
def removeUnordered (p : ρ → Bool) (rows : List ρ) : List ρ :=
  (rows.findIdxs p).foldr (fun index rest => moveLastOver rest index) rows

theorem moveLastOver_append_cons (front : List ρ) (row : ρ) (back : List ρ) :
    ∃ moved, moveLastOver (front ++ row :: back) front.length = front ++ moved ∧
      moved.Perm back := by
  rcases List.eq_nil_or_concat back with rfl | ⟨back, last, rfl⟩
  · exact ⟨[], by simp [moveLastOver], .nil⟩
  · refine ⟨last :: back, ?_, ?_⟩
    · have shape : front ++ row :: (back ++ [last]) = (front ++ row :: back) ++ [last] := by simp
      have overwritten : ((front ++ row :: back) ++ [last]).set front.length last =
          (front ++ last :: back) ++ [last] := by simp
      rw [List.concat_eq_append, moveLastOver, shape, List.getLast?_concat]
      simp only [overwritten, List.dropLast_concat]
    · rw [List.concat_eq_append]
      exact (List.perm_append_singleton last back).symm

/-- The induction is on the scanned prefix from its end, as the rows are removed; `back` is what
    earlier removals have already left behind it. -/
theorem remove_scanned_prefix (p : ρ → Bool) (front back : List ρ) :
    ((front.findIdxs p).foldr (fun index rest => moveLastOver rest index) (front ++ back)).Perm
      (front.filter (fun row => !p row) ++ back) := by
  induction front using List.reverseRecOn generalizing back with
  | nil => simp
  | append_singleton front row ih =>
    rw [List.findIdxs_append, List.foldr_append, List.append_assoc, List.singleton_append]
    by_cases matched : p row
    · obtain ⟨moved, shape, perm⟩ := moveLastOver_append_cons front row back
      have removed : (front ++ [row]).filter (fun row => !p row) = front.filter (fun row => !p row) := by
        simp [List.filter_append, matched]
      simp only [List.findIdxs_cons, List.findIdxs_nil, matched, ite_true, List.foldr_cons,
        List.foldr_nil, Nat.zero_add, shape, removed]
      exact (ih moved).trans (perm.append_left _)
    · have kept : (front ++ [row]).filter (fun row => !p row) ++ back =
          front.filter (fun row => !p row) ++ row :: back := by
        simp [List.filter_append, matched]
      simp only [List.findIdxs_cons, List.findIdxs_nil, matched, kept]
      exact ih (row :: back)

theorem removeUnordered_perm (p : ρ → Bool) (rows : List ρ) :
    (removeUnordered p rows).Perm (rows.filter (fun row => !p row)) := by
  simpa [removeUnordered] using remove_scanned_prefix p rows []

theorem mem_removeUnordered {p : ρ → Bool} {rows : List ρ} {row : ρ} :
    row ∈ removeUnordered p rows ↔ row ∈ rows ∧ p row = false := by
  rw [(removeUnordered_perm p rows).mem_iff, List.mem_filter]
  simp

end Keyed
