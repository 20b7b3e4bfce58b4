import Mathlib.Data.List.Induction
import ZemogaSocial.Transition.Ledger

namespace Transition

inductive BusyEffect where
  | quiet
  | started (raises : Bool)
  | finished (others : Bool)
  deriving DecidableEq, Repr

namespace BusyEffect

def flag (before : Bool) : BusyEffect → Bool
  | .quiet => before
  | .started raises => before || raises
  | .finished _ => false

def Outstanding (before : Prop) : BusyEffect → Prop
  | .quiet => before
  | .started _ => True
  | .finished others => others = true

/-- A call is started under a raised flag, and finished only as the last one. -/
def Calm (before : Bool) : BusyEffect → Prop
  | .quiet => True
  | .started raises => before = true ∨ raises = true
  | .finished others => others = false

instance (before : Bool) : ∀ effect, Decidable (Calm before effect)
  | .quiet => inferInstanceAs (Decidable True)
  | .started raises => inferInstanceAs (Decidable (before = true ∨ raises = true))
  | .finished others => inferInstanceAs (Decidable (others = false))

theorem truth_iff_calm {before : Bool} {outstanding : Prop} (truth : outstanding → before = true)
    (effect : BusyEffect) :
    (effect.Outstanding outstanding → effect.flag before = true) ↔ effect.Calm before := by
  cases effect with
  | quiet => exact iff_of_true truth True.intro
  | started raises => simp [Outstanding, flag, Calm]
  | finished others => simp [Outstanding, flag, Calm]

/-- Each completion was followed by a start that raises the flag. -/
def Raised (effects : List BusyEffect) : Prop :=
  ∀ earlier others later, effects = earlier ++ .finished others :: later → .started true ∈ later

/-- A call is started under a flag that nothing done `earlier` has left lowered, and finished only as the
    last one. -/
def Timely (earlier : List BusyEffect) : BusyEffect → Prop
  | .quiet => True
  | .started raises => Raised earlier ∨ raises = true
  | .finished others => others = false

def TimelyAfter : List BusyEffect → List BusyEffect → Prop
  | _, [] => True
  | earlier, effect :: rest => effect.Timely earlier ∧ TimelyAfter (earlier ++ [effect]) rest

theorem raised_concat {effects : List BusyEffect} {last : BusyEffect} :
    Raised (effects ++ [last]) ↔ last = .started true ∨ Raised effects ∧ ∀ others, last ≠ .finished others := by
  constructor
  · intro raised
    by_cases raises : last = .started true
    · exact .inl raises
    · refine .inr ⟨?_, ?_⟩
      · intro earlier others later split
        have among := raised earlier others (later ++ [last]) (by rw [split, List.append_assoc, List.cons_append])
        rcases List.mem_append.mp among with found | found
        · exact found
        · exact absurd (List.mem_singleton.mp found).symm raises
      · intro others finished
        subst finished
        cases raised effects others [] rfl
  · intro either earlier others later split
    rcases List.eq_nil_or_concat later with rfl | ⟨rest, final, rfl⟩
    · obtain ⟨_, same⟩ := List.append_inj' split rfl
      rcases either with rfl | ⟨_, unfinished⟩
      · cases same
      · exact absurd (List.cons.inj same).1 (unfinished others)
    · rw [List.concat_eq_append, ← List.cons_append, ← List.append_assoc] at split
      obtain ⟨front, same⟩ := List.append_inj' split rfl
      rw [List.concat_eq_append, List.mem_append]
      rcases either with rfl | ⟨raised, _⟩
      · exact .inr (same ▸ List.mem_singleton_self _)
      · exact .inl (raised earlier others rest front)

theorem flag_foldl (effects : List BusyEffect) :
    effects.foldl (fun flag effect => effect.flag flag) true = true ↔ Raised effects := by
  induction effects using List.reverseRecOn with
  | nil =>
    refine iff_of_true rfl ?_
    intro earlier others later split
    exact absurd split.symm (by simp)
  | append_singleton effects last ih =>
    rw [List.foldl_append, List.foldl_cons, List.foldl_nil, raised_concat, ← ih]
    cases last <;> simp [flag, or_comm]

end BusyEffect

def Truthful {σ : Type*} (flagOf : σ → Bool) (outstandingOf : σ → Prop) (state : σ) : Prop :=
  outstandingOf state → flagOf state = true

/-- Along a run that completes, the flag tells the truth after every event exactly when all events
    are calm. -/
theorem along_truth_iff_calm {σ ε α ω : Type*} {handle : σ → ε → Except α (σ × ω)}
    {property : σ → ε → Prop} {state final : σ} {events : List ε}
    (flagOf : σ → Bool) (outstandingOf : σ → Prop) (effectOf : σ → ε → BusyEffect)
    (spec : ∀ state event next out, handle state event = .ok (next, out) →
      flagOf next = (effectOf state event).flag (flagOf state) ∧
      (outstandingOf next ↔ (effectOf state event).Outstanding (outstandingOf state)))
    (truthful : ∀ state event next out, handle state event = .ok (next, out) →
      (property state event ↔ Truthful flagOf outstandingOf next))
    (truth : Truthful flagOf outstandingOf state) (completed : run handle state events = .ok final) :
    Along handle property state events ↔
      Along handle (fun state event => (effectOf state event).Calm (flagOf state)) state events := by
  apply along_iff_of_invariant _ _ truth (along_completes completed)
  · intro state event next out _ _ holds handled
    exact (truthful state event next out handled).mp holds
  · intro state event before completes
    rcases completes with ⟨next, out, handled⟩
    have after := spec state event next out handled
    rw [truthful state event next out handled, Truthful, after.1, after.2]
    exact BusyEffect.truth_iff_calm before _

/-- The flag of a run that starts with it raised is told by what the run has done so far. -/
theorem along_calm_iff_timely {σ ε α ω : Type*} {handle : σ → ε → Except α (σ × ω)} {state final : σ}
    {events : List ε} (flagOf : σ → Bool) (effectOf : σ → ε → BusyEffect)
    (spec : ∀ state event next out, handle state event = .ok (next, out) →
      flagOf next = (effectOf state event).flag (flagOf state))
    (earlier : List BusyEffect)
    (told : flagOf state = earlier.foldl (fun flag effect => effect.flag flag) true)
    (completed : run handle state events = .ok final) :
    Along handle (fun state event => (effectOf state event).Calm (flagOf state)) state events ↔
      BusyEffect.TimelyAfter earlier
        ((steps handle state events).map fun step => effectOf step.state step.event) := by
  induction events generalizing state earlier with
  | nil => exact .rfl
  | cons event rest ih =>
    obtain ⟨next, out, handled, tail⟩ := run_cons_result completed
    have first : (effectOf state event).Calm (flagOf state) ↔ (effectOf state event).Timely earlier := by
      cases effectOf state event with
      | quiet => exact .rfl
      | started raises => rw [BusyEffect.Calm, BusyEffect.Timely, told, BusyEffect.flag_foldl]
      | finished others => exact .rfl
    have later := ih (earlier ++ [effectOf state event])
      (by rw [spec state event next out handled, told, List.foldl_append]; rfl) tail
    rw [steps_cons_ok rest handled, List.map_cons, BusyEffect.TimelyAfter, ← first, ← later]
    apply and_congr_right
    intro _
    constructor
    · intro along
      exact along next out handled
    · intro along other result same
      rw [handled] at same
      cases same
      exact along

end Transition
