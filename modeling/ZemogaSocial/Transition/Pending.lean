import Mathlib.Data.List.Nodup

namespace Transition

inductive Phase where
  | timer
  | network
  deriving DecidableEq, Repr

structure Call (τ : Type*) where
  ticket : Nat
  tag : τ
  phase : Phase
  deriving Repr

/-- The outstanding calls. Tickets number the calls in the order of issue, so `issued` separates
    the calls made so far from all later ones. -/
structure Pending (τ : Type*) where
  calls : List (Call τ)
  issued : Nat
  older : ∀ call ∈ calls, call.ticket < issued
  distinct : (calls.map Call.ticket).Nodup

namespace Pending

variable {τ : Type*}

def none : Pending τ := ⟨[], 0, by simp, List.nodup_nil⟩

def issue (pending : Pending τ) (tag : τ) : Pending τ where
  calls := pending.calls ++ [⟨pending.issued, tag, .timer⟩]
  issued := pending.issued + 1
  older := by
    intro call member
    rcases List.mem_append.mp member with old | new
    · exact Nat.lt_succ_of_lt (pending.older call old)
    · rw [List.mem_singleton.mp new]
      exact Nat.lt_succ_self _
  distinct := by
    rw [List.map_append, List.nodup_append]
    refine ⟨pending.distinct, List.nodup_singleton _, ?_⟩
    intro left hl right hr same
    obtain ⟨call, member, rfl⟩ := List.mem_map.mp hl
    rw [List.map_singleton, List.mem_singleton] at hr
    exact absurd (same.trans hr) (Nat.ne_of_lt (pending.older call member))

def fire (pending : Pending τ) (ticket : Nat) : Pending τ where
  calls := pending.calls.map fun call =>
    if call.ticket = ticket then { call with phase := .network } else call
  issued := pending.issued
  older := by
    intro call member
    obtain ⟨old, stored, rfl⟩ := List.mem_map.mp member
    split <;> exact pending.older old stored
  distinct := by
    have tickets : (Call.ticket ∘ fun call : Call τ =>
        if call.ticket = ticket then { call with phase := .network } else call) = Call.ticket := by
      funext call
      simp only [Function.comp_apply]
      split <;> rfl
    rw [List.map_map, tickets]
    exact pending.distinct

/-- The call that a response with this ticket belongs to, if it is on the network. -/
def awaiting (pending : Pending τ) (ticket : Nat) : Option τ :=
  (pending.calls.find? fun call => decide (call.ticket = ticket) && decide (call.phase = .network)).map
    Call.tag

def settle (pending : Pending τ) (ticket : Nat) : Pending τ where
  calls := pending.calls.filter fun call => decide (call.ticket ≠ ticket)
  issued := pending.issued
  older := fun call member => pending.older call (List.mem_of_mem_filter member)
  distinct := pending.distinct.sublist (List.filter_sublist.map _)

theorem awaiting_mem {pending : Pending τ} {ticket : Nat} {tag : τ}
    (found : pending.awaiting ticket = some tag) :
    ∃ call ∈ pending.calls, call.ticket = ticket ∧ call.tag = tag := by
  obtain ⟨call, first, rfl⟩ := Option.map_eq_some_iff.mp found
  have matched := List.find?_some first
  simp only [Bool.and_eq_true, decide_eq_true_eq] at matched
  exact ⟨call, List.mem_of_find?_eq_some first, matched.1, rfl⟩

theorem awaiting_nonempty {pending : Pending τ} {ticket : Nat} {tag : τ}
    (found : pending.awaiting ticket = some tag) : pending.calls ≠ [] := by
  obtain ⟨call, member, _⟩ := awaiting_mem found
  exact List.ne_nil_of_mem member

theorem fire_nonempty {pending : Pending τ} {ticket : Nat} (left : (pending.fire ticket).calls ≠ []) :
    pending.calls ≠ [] := fun idle => left (List.map_eq_nil_iff.mpr idle)

theorem awaiting_tag {pending : Pending τ} {ticket : Nat} {tag : τ} {call : Call τ}
    (found : pending.awaiting ticket = some tag) (member : call ∈ pending.calls)
    (same : call.ticket = ticket) : call.tag = tag := by
  obtain ⟨other, stored, sameOther, rfl⟩ := awaiting_mem found
  have equal : call = other := List.inj_on_of_nodup_map pending.distinct member stored (same.trans sameOther.symm)
  rw [equal]

theorem settle_single {pending : Pending τ} {ticket : Nat} {tag : τ} (single : pending.calls.length ≤ 1)
    (found : pending.awaiting ticket = some tag) : (pending.settle ticket).calls = [] := by
  obtain ⟨call, stored, same, _⟩ := awaiting_mem found
  obtain ⟨only, here⟩ := List.length_eq_one_iff.mp (Nat.le_antisymm single (List.length_pos_of_mem stored))
  apply List.filter_eq_nil_iff.mpr
  intro other member
  rw [here, List.mem_singleton] at stored member
  rw [member, ← stored, same]
  simp

def Outstanding (pending : Pending τ) (mine : τ → Bool) : Prop :=
  ∃ call ∈ pending.calls, mine call.tag = true

instance (pending : Pending τ) (mine : τ → Bool) : Decidable (pending.Outstanding mine) :=
  inferInstanceAs (Decidable (∃ call ∈ pending.calls, mine call.tag = true))

theorem not_outstanding_none {mine : τ → Bool} : ¬ (none : Pending τ).Outstanding mine := by
  rintro ⟨call, member, _⟩
  exact List.not_mem_nil member

theorem outstanding_issue {pending : Pending τ} {mine : τ → Bool} {tag : τ} :
    (pending.issue tag).Outstanding mine ↔ pending.Outstanding mine ∨ mine tag = true := by
  simp [Outstanding, issue, or_and_right, exists_or]

theorem outstanding_fire {pending : Pending τ} {ticket : Nat} {mine : τ → Bool} :
    (pending.fire ticket).Outstanding mine ↔ pending.Outstanding mine := by
  apply Iff.intro
  · intro busy
    rcases busy with ⟨call, member, same⟩
    obtain ⟨old, stored, rfl⟩ := List.mem_map.mp member
    refine ⟨old, stored, ?_⟩
    split at same <;> exact same
  · intro busy
    rcases busy with ⟨call, member, same⟩
    refine ⟨_, List.mem_map_of_mem member, ?_⟩
    split <;> exact same

theorem outstanding_settle_other {pending : Pending τ} {ticket : Nat} {tag : τ} {mine : τ → Bool}
    (found : pending.awaiting ticket = some tag) (other : mine tag = false) :
    (pending.settle ticket).Outstanding mine ↔ pending.Outstanding mine := by
  apply Iff.intro
  · intro busy
    rcases busy with ⟨call, member, same⟩
    exact ⟨call, List.mem_of_mem_filter member, same⟩
  · intro busy
    rcases busy with ⟨call, member, same⟩
    refine ⟨call, List.mem_filter.mpr ⟨member, decide_eq_true ?_⟩, same⟩
    intro settled
    rw [awaiting_tag found member settled, other] at same
    cases same

end Pending

end Transition
