import Mathlib.Data.List.Induction

namespace Transition

variable {σ ε : Type*}

section Unbroken

variable (step : σ → ε → σ) (starts ends : σ → ε → Prop)

/-- No event of the list ends it. -/
def Unbroken (state : σ) (events : List ε) : Prop :=
  ∀ front event back, events = front ++ event :: back → ¬ ends (front.foldl step state) event

/-- Some event starts it and no later one ends it. -/
def Since (state : σ) (events : List ε) : Prop :=
  ∃ front event back, events = front ++ event :: back ∧ starts (front.foldl step state) event ∧
    Unbroken step ends ((front ++ [event]).foldl step state) back

end Unbroken

variable {step : σ → ε → σ} {starts ends : σ → ε → Prop} {state : σ}

theorem unbroken_nil : Unbroken step ends state [] := by
  intro front event back split
  exact absurd split.symm (by simp)

theorem unbroken_concat {events : List ε} {last : ε} :
    Unbroken step ends state (events ++ [last]) ↔
      Unbroken step ends state events ∧ ¬ ends (events.foldl step state) last := by
  apply Iff.intro
  · intro unbroken
    refine ⟨?_, unbroken events last [] rfl⟩
    intro front event back split
    apply unbroken front event (back ++ [last])
    rw [split, List.append_assoc, List.cons_append]
  · intro both
    rcases both with ⟨earlier, atLast⟩
    intro front event back split
    rcases List.eq_nil_or_concat back with rfl | ⟨rest, final, rfl⟩
    · obtain ⟨rfl, same⟩ := List.append_inj' split rfl
      cases same
      exact atLast
    · rw [List.concat_eq_append, ← List.cons_append, ← List.append_assoc] at split
      obtain ⟨rfl, _⟩ := List.append_inj' split rfl
      exact earlier front event rest rfl

theorem since_concat {events : List ε} {last : ε} :
    Since step starts ends state (events ++ [last]) ↔ starts (events.foldl step state) last ∨
      (Since step starts ends state events ∧ ¬ ends (events.foldl step state) last) := by
  apply Iff.intro
  · intro since
    rcases since with ⟨front, event, back, split, started, unbroken⟩
    rcases List.eq_nil_or_concat back with rfl | ⟨rest, final, rfl⟩
    · obtain ⟨rfl, same⟩ := List.append_inj' split rfl
      cases same
      exact .inl started
    · rw [List.concat_eq_append, ← List.cons_append, ← List.append_assoc] at split
      obtain ⟨rfl, same⟩ := List.append_inj' split rfl
      cases same
      rw [List.concat_eq_append, unbroken_concat, ← List.foldl_append, List.append_assoc,
        List.singleton_append] at unbroken
      exact .inr ⟨⟨front, event, rest, rfl, started, unbroken.1⟩, unbroken.2⟩
  · intro either
    rcases either with started | ⟨⟨front, event, back, rfl, started, unbroken⟩, atLast⟩
    · exact ⟨events, last, [], rfl, started, unbroken_nil⟩
    · refine ⟨front, event, back ++ [last], by simp, started, ?_⟩
      rw [unbroken_concat, ← List.foldl_append, List.append_assoc, List.singleton_append]
      exact ⟨unbroken, atLast⟩

/-- What every event either starts, ends or leaves holds after a run exactly if an event started it
    and none has ended it since, or it held from the beginning and none has ended it. -/
theorem holds_iff_since {holds : σ → Prop}
    (law : ∀ state event, holds (step state event) ↔
      starts state event ∨ (holds state ∧ ¬ ends state event)) (events : List ε) :
    holds (events.foldl step state) ↔
      Since step starts ends state events ∨ (holds state ∧ Unbroken step ends state events) := by
  induction events using List.reverseRecOn with
  | nil =>
    apply Iff.intro
    · intro initial
      exact .inr ⟨initial, unbroken_nil⟩
    · intro either
      rcases either with ⟨front, event, back, split, _⟩ | ⟨initial, _⟩
      · exact absurd split.symm (by simp)
      · exact initial
  | append_singleton events last ih =>
    rw [List.foldl_append, List.foldl_cons, List.foldl_nil, law, ih, since_concat, unbroken_concat, or_and_right,
      or_assoc, and_assoc]

end Transition
