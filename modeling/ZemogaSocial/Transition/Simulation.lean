import Mathlib.Logic.Basic

namespace Transition

variable {σ τ ε ω : Type*}

/-- What a machine answers to one event after the other. -/
def answers (handle : σ → ε → σ × ω) : σ → List ε → List ω
  | _, [] => []
  | state, event :: rest => (handle state event).2 :: answers handle (handle state event).1 rest

end Transition
