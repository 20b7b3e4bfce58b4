import Mathlib.Data.List.Basic

namespace Transition

variable {σ ε α ω : Type*}

def run (handle : σ → ε → Except α (σ × ω)) : σ → List ε → Except α σ
  | state, [] => .ok state
  | state, event :: rest =>
    match handle state event with
    | .ok (next, _) => run handle next rest
    | .error abort => .error abort

/-- The property holds of every state and event that the run comes to, an aborting event included. -/
def Along (handle : σ → ε → Except α (σ × ω)) (property : σ → ε → Prop) : σ → List ε → Prop
  | _, [] => True
  | state, event :: rest => property state event ∧
      ∀ next out, handle state event = .ok (next, out) → Along handle property next rest

variable {handle : σ → ε → Except α (σ × ω)}

instance Along.decide {property : σ → ε → Prop} [∀ state event, Decidable (property state event)] :
    ∀ state events, Decidable (Along handle property state events)
  | _, [] => isTrue trivial
  | state, event :: rest =>
    match handled : handle state event with
    | .ok (next, _) =>
      have : Decidable (Along handle property next rest) := Along.decide next rest
      decidable_of_iff (property state event ∧ Along handle property next rest)
        (by simp [Along, handled])
    | .error _ => decidable_of_iff (property state event) (by simp [Along, handled])

theorem run_cons_ok {state next : σ} {event : ε} {out : ω} (rest : List ε)
    (handled : handle state event = .ok (next, out)) :
    run handle state (event :: rest) = run handle next rest := by
  simp only [run, handled]

theorem run_cons_error {state : σ} {event : ε} {abort : α} (rest : List ε)
    (handled : handle state event = .error abort) :
    run handle state (event :: rest) = .error abort := by
  simp only [run, handled]

theorem run_cons_result {state final : σ} {event : ε} {rest : List ε}
    (completed : run handle state (event :: rest) = .ok final) :
    ∃ next out, handle state event = .ok (next, out) ∧ run handle next rest = .ok final := by
  cases handled : handle state event with
  | error abort =>
    rw [run_cons_error rest handled] at completed
    cases completed
  | ok result => exact ⟨result.1, result.2, rfl, (run_cons_ok rest handled).symm.trans completed⟩

theorem along_of_forall {allowed : ε → Prop} {events : List ε}
    (holds : ∀ event ∈ events, allowed event) (state : σ) :
    Along handle (fun _ event => allowed event) state events := by
  induction events generalizing state with
  | nil => trivial
  | cons event rest ih =>
    exact ⟨holds event List.mem_cons_self,
      fun next _ _ => ih (fun later member => holds later (List.mem_cons_of_mem _ member)) next⟩

theorem Along.both {left right : σ → ε → Prop} {state : σ} {events : List ε}
    (hl : Along handle left state events) (hr : Along handle right state events) :
    Along handle (fun state event => left state event ∧ right state event) state events := by
  induction events generalizing state with
  | nil => trivial
  | cons event rest ih =>
    refine ⟨⟨hl.1, hr.1⟩, ?_⟩
    intro next out handled
    exact ih (hl.2 next out handled) (hr.2 next out handled)

theorem along_front {property : σ → ε → Prop} {state : σ} {front back : List ε}
    (along : Along handle property state (front ++ back)) : Along handle property state front := by
  induction front generalizing state with
  | nil => trivial
  | cons event rest ih =>
    refine ⟨along.1, ?_⟩
    intro next out handled
    exact ih (along.2 next out handled)

theorem along_completes {state final : σ} {events : List ε} (completed : run handle state events = .ok final) :
    Along handle (fun state event => ∃ next out, handle state event = .ok (next, out)) state events := by
  induction events generalizing state with
  | nil => trivial
  | cons event rest ih =>
    obtain ⟨next, out, handled, tail⟩ := run_cons_result completed
    refine ⟨⟨next, out, handled⟩, ?_⟩
    intro other result same
    rw [handled] at same
    cases same
    exact ih tail

theorem completes_iff_along {state : σ} {events : List ε} {safe : σ → ε → Prop}
    (completes : ∀ state event, (∃ next out, handle state event = .ok (next, out)) ↔ safe state event) :
    (∃ final, run handle state events = .ok final) ↔ Along handle safe state events := by
  induction events generalizing state with
  | nil => exact iff_of_true ⟨state, rfl⟩ True.intro
  | cons event rest ih =>
    apply Iff.intro
    · intro completes_run
      rcases completes_run with ⟨final, completed⟩
      obtain ⟨next, out, handled, tail⟩ := run_cons_result completed
      apply And.intro ((completes state event).mp ⟨next, out, handled⟩)
      intro other result same
      rw [handled] at same
      cases same
      exact ih.mp ⟨final, tail⟩
    · intro along
      obtain ⟨next, out, handled⟩ := (completes state event).mpr along.1
      obtain ⟨final, tail⟩ := ih.mpr (along.2 next out handled)
      exact ⟨final, (run_cons_ok rest handled).trans tail⟩

theorem run_error_iff {benign : α → Prop} {state : σ} {events : List ε} :
    (∀ abort, run handle state events = .error abort → benign abort) ↔
      Along handle (fun state event => ∀ abort, handle state event = .error abort → benign abort)
        state events := by
  induction events generalizing state with
  | nil => simp [run, Along]
  | cons event rest ih =>
    cases handled : handle state event with
    | error abort =>
      rw [run_cons_error rest handled]
      simp [Along, handled]
    | ok result =>
      obtain ⟨next, out⟩ := result
      rw [run_cons_ok rest handled, ih]
      simp [Along, handled]

section Invariant

variable {Inv : σ → Prop} {allowed property other : σ → ε → Prop} {state final : σ} {events : List ε}

theorem run_invariant
    (preserved : ∀ state event next out, Inv state → allowed state event →
      handle state event = .ok (next, out) → Inv next)
    (initial : Inv state) (permitted : Along handle allowed state events)
    (completed : run handle state events = .ok final) : Inv final := by
  induction events generalizing state with
  | nil => cases completed; exact initial
  | cons event rest ih =>
    obtain ⟨next, out, handled, tail⟩ := run_cons_result completed
    exact ih (preserved _ _ _ _ initial permitted.1 handled) (permitted.2 next out handled) tail

theorem run_completes
    (progress : ∀ state event, Inv state → allowed state event →
      ∃ next out, handle state event = .ok (next, out) ∧ Inv next)
    (initial : Inv state) (permitted : Along handle allowed state events) :
    ∃ final, run handle state events = .ok final ∧ Inv final := by
  induction events generalizing state with
  | nil => exact ⟨state, rfl, initial⟩
  | cons event rest ih =>
    obtain ⟨next, out, handled, kept⟩ := progress state event initial permitted.1
    obtain ⟨final, completed, holds⟩ := ih kept (permitted.2 next out handled)
    exact ⟨final, (run_cons_ok rest handled).trans completed, holds⟩

theorem along_of_invariant
    (preserved : ∀ state event next out, Inv state → allowed state event →
      handle state event = .ok (next, out) → Inv next)
    (holds : ∀ state event, Inv state → allowed state event → property state event)
    (initial : Inv state) (permitted : Along handle allowed state events) :
    Along handle property state events := by
  induction events generalizing state with
  | nil => trivial
  | cons event rest ih =>
    refine ⟨holds _ _ initial permitted.1, fun next out handled => ?_⟩
    exact ih (preserved _ _ _ _ initial permitted.1 handled) (permitted.2 next out handled)

/-- Two properties that agree wherever the invariant holds agree along every run; the invariant need
    not survive an event at which both fail. -/
theorem along_iff_of_invariant
    (preserved : ∀ state event next out, Inv state → allowed state event → property state event →
      handle state event = .ok (next, out) → Inv next)
    (agree : ∀ state event, Inv state → allowed state event →
      (property state event ↔ other state event))
    (initial : Inv state) (permitted : Along handle allowed state events) :
    Along handle property state events ↔ Along handle other state events := by
  induction events generalizing state with
  | nil => exact .rfl
  | cons event rest ih =>
    have head := agree _ _ initial permitted.1
    have tail : property state event → ∀ next out, handle state event = .ok (next, out) →
        (Along handle property next rest ↔ Along handle other next rest) := by
      intro holds next out handled
      exact ih (preserved _ _ _ _ initial permitted.1 holds handled) (permitted.2 next out handled)
    apply Iff.intro
    · intro both
      rcases both with ⟨holds, later⟩
      exact ⟨head.mp holds, fun next out handled => (tail holds next out handled).mp (later next out handled)⟩
    · intro both
      rcases both with ⟨holds, later⟩
      have first := head.mpr holds
      exact ⟨first, fun next out handled => (tail first next out handled).mpr (later next out handled)⟩

end Invariant

end Transition
