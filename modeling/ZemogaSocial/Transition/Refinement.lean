import ZemogaSocial.Transition.Run

namespace Transition

variable {σ τ ε α ω : Type*} {handle : σ → ε → Except α (σ × ω)} {step : τ → ε → τ}
  {accepts : τ → ε → Prop} {state final : σ} {spec : τ} {events : List ε}

/-- Each event is accepted in the specification's state that the events before it lead to. -/
def Accepted (step : τ → ε → τ) (accepts : τ → ε → Prop) : τ → List ε → Prop
  | _, [] => True
  | spec, event :: rest => accepts spec event ∧ Accepted step accepts (step spec event) rest

theorem accepted_front {front back : List ε} (accepted : Accepted step accepts spec (front ++ back)) :
    Accepted step accepts spec front := by
  induction front generalizing spec with
  | nil => exact True.intro
  | cons event rest ih => exact ⟨accepted.1, ih accepted.2⟩

theorem accepted_append {front back : List ε} :
    Accepted step accepts spec (front ++ back) ↔
      Accepted step accepts spec front ∧ Accepted step accepts (front.foldl step spec) back := by
  induction front generalizing spec with
  | nil => simp [Accepted]
  | cons event rest ih =>
    rw [List.cons_append, Accepted, ih, Accepted, List.foldl_cons, and_assoc]

theorem run_refines (related : σ → τ → Prop)
    (kept : ∀ state spec event next out, related state spec → handle state event = .ok (next, out) →
      related next (step spec event))
    (start : related state spec) (completed : run handle state events = .ok final) :
    related final (events.foldl step spec) := by
  induction events generalizing state spec with
  | nil =>
    cases completed
    exact start
  | cons event rest ih =>
    obtain ⟨next, out, handled, tail⟩ := run_cons_result completed
    exact ih (kept _ _ _ _ _ start handled) tail

/-- If an event completes exactly where the specification accepts it, so does a whole run. -/
theorem completes_iff_accepted (related : σ → τ → Prop)
    (completes : ∀ state spec event, related state spec →
      ((∃ next out, handle state event = .ok (next, out)) ↔ accepts spec event))
    (kept : ∀ state spec event next out, related state spec → handle state event = .ok (next, out) →
      related next (step spec event))
    (start : related state spec) :
    (∃ final, run handle state events = .ok final) ↔ Accepted step accepts spec events := by
  induction events generalizing state spec with
  | nil => exact iff_of_true ⟨state, rfl⟩ True.intro
  | cons event rest ih =>
    have head := completes state spec event start
    apply Iff.intro
    · intro completes
      rcases completes with ⟨final, completed⟩
      obtain ⟨next, out, handled, tail⟩ := run_cons_result completed
      have later := ih (kept _ _ _ _ _ start handled)
      exact ⟨head.mp ⟨next, out, handled⟩, later.mp ⟨final, tail⟩⟩
    · intro accepted
      obtain ⟨next, out, handled⟩ := head.mpr accepted.1
      have later := ih (kept _ _ _ _ _ start handled)
      obtain ⟨final, tail⟩ := later.mpr accepted.2
      exact ⟨final, (run_cons_ok rest handled).trans tail⟩

/-- Whatever front of the log is replayed, the property holds of what it leads to. -/
def Passes (replay : τ → ε → τ) (property : τ → Prop) (start : τ) (log : List ε) : Prop :=
  ∀ front back, log = front ++ back → property (front.foldl replay start)

theorem passes_append {property : τ → Prop} {first second : List ε} (before : Passes step property spec first)
    (after : Passes step property (first.foldl step spec) second) :
    Passes step property spec (first ++ second) := by
  intro front back cut
  rcases List.append_eq_append_iff.mp cut with ⟨through, rfl, rest⟩ | ⟨kept, split, _⟩
  · rw [List.foldl_append]
    exact after through back rest
  · exact before front kept split

end Transition
