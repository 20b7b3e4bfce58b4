import ZemogaSocial.Keyed.Table

namespace Keyed

variable {κ ρ γ : Type*} [DecidableEq γ]

def classRows (cls : ρ → γ) (c : γ) (rows : List ρ) : List ρ := rows.filter fun row => cls row == c

/-- Of each class the rows hold nothing, or the whole of it in the order of the complete list. -/
def WholeClasses (cls : ρ → γ) (complete rows : List ρ) : Prop :=
  ∀ c, classRows cls c rows = [] ∨ classRows cls c rows = classRows cls c complete

section Classes

variable {cls : ρ → γ} {complete rows : List ρ} {c other : γ}

theorem mem_classRows {row : ρ} : row ∈ classRows cls c rows ↔ row ∈ rows ∧ cls row = c := by
  rw [classRows, List.mem_filter, beq_iff_eq]

theorem classRows_append (left right : List ρ) :
    classRows cls c (left ++ right) = classRows cls c left ++ classRows cls c right :=
  List.filter_append ..

theorem classRows_self : classRows cls c (classRows cls c rows) = classRows cls c rows := by
  apply List.filter_eq_self.mpr
  intro row member
  exact beq_iff_eq.mpr (mem_classRows.mp member).2

theorem classRows_other (different : other ≠ c) : classRows cls other (classRows cls c rows) = [] := by
  apply List.filter_eq_nil_iff.mpr
  intro row member same
  have here : cls row = c := (mem_classRows.mp member).2
  exact different ((beq_iff_eq.mp same).symm.trans here)

theorem wholeClasses_nil : WholeClasses cls complete [] := fun _ => .inl rfl

theorem wholeClasses_subset (whole : WholeClasses cls complete rows) {row : ρ} (stored : row ∈ rows) :
    row ∈ complete := by
  have member : row ∈ classRows cls (cls row) rows := mem_classRows.mpr ⟨stored, rfl⟩
  rcases whole (cls row) with absent | same
  · rw [absent] at member
    cases member
  · rw [same] at member
    exact (mem_classRows.mp member).1

theorem wholeClasses_append (whole : WholeClasses cls complete rows)
    (absent : classRows cls c rows = []) :
    WholeClasses cls complete (rows ++ classRows cls c complete) := by
  intro other
  rw [classRows_append]
  by_cases same : other = c
  · subst same
    rw [absent, classRows_self, List.nil_append]
    exact .inr rfl
  · rw [classRows_other same, List.append_nil]
    exact whole other

end Classes

/-- All keys of a class are new to a table of rows of the complete list exactly when the table has
    no row of that class. -/
theorem classRows_fresh_iff {key : ρ → κ} {cls : ρ → γ} {c : γ} {complete : List ρ} {table : Table key}
    (distinct : (complete.map key).Nodup) (drawn : ∀ row ∈ table.rows, row ∈ complete) :
    (∀ row ∈ classRows cls c complete, key row ∉ table.keys) ↔ classRows cls c table.rows = [] := by
  apply Iff.intro
  · intro fresh
    apply List.eq_nil_iff_forall_not_mem.mpr
    intro row member
    obtain ⟨stored, here⟩ := mem_classRows.mp member
    have offered : row ∈ classRows cls c complete := mem_classRows.mpr ⟨drawn row stored, here⟩
    exact fresh row offered (Table.key_mem stored)
  · intro absent row offered present
    obtain ⟨listed, here⟩ := mem_classRows.mp offered
    obtain ⟨other, stored, sameKey⟩ := Table.mem_keys.mp present
    have same : other = row := List.inj_on_of_nodup_map distinct (drawn other stored) listed sameKey
    have member : row ∈ classRows cls c table.rows := mem_classRows.mpr ⟨same ▸ stored, here⟩
    rw [absent] at member
    cases member

end Keyed
