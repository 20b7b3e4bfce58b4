import Mathlib.Data.List.Induction

namespace Transition

variable {σ ε : Type*} {step : σ → ε → σ}

/-- Some event ends what has held until it. -/
def EndedAlong (step : σ → ε → σ) (holds : σ → Prop) (ends : σ → ε → Prop) (state : σ) (events : List ε) :
    Prop :=
  ∃ front event back, events = front ++ event :: back ∧ holds (front.foldl step state) ∧
    ends (front.foldl step state) event

theorem EndedAlong.append {holds : σ → Prop} {ends : σ → ε → Prop} {state : σ} {first : List ε}
    (ended : EndedAlong step holds ends state first) (second : List ε) :
    EndedAlong step holds ends state (first ++ second) := by
  obtain ⟨front, event, back, split, rest⟩ := ended
  refine ⟨front, event, back ++ second, ?_, rest⟩
  rw [split, List.append_assoc, List.cons_append]

/-- What every event keeps or ends is kept or ended by a whole run. -/
theorem holds_until (holds : σ → Prop) {ends : σ → ε → Prop} {state : σ} (events : List ε)
    (kept : ∀ state event, holds state → holds (step state event) ∨ ends state event)
    (initial : holds state) :
    holds (events.foldl step state) ∨ EndedAlong step holds ends state events := by
  induction events using List.reverseRecOn with
  | nil => exact .inl initial
  | append_singleton events event ih =>
    rcases ih with still | ended
    · rw [List.foldl_append]
      rcases kept _ event still with after | ends
      · exact .inl after
      · exact .inr ⟨events, event, [], rfl, still, ends⟩
    · exact .inr (ended.append [event])

end Transition
