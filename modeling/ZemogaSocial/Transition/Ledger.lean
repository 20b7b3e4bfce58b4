import ZemogaSocial.Transition.Pending
import ZemogaSocial.Transition.Run

namespace Transition

section Steps

variable {σ ε α ω β : Type*}

/-- A completed step: where it began, its event and what it gave out. -/
structure Step (σ ε ω : Type*) where
  state : σ
  event : ε
  out : ω

def steps (handle : σ → ε → Except α (σ × ω)) : σ → List ε → List (Step σ ε ω)
  | _, [] => []
  | state, event :: rest =>
    match handle state event with
    | .ok (next, out) => ⟨state, event, out⟩ :: steps handle next rest
    | .error _ => []

variable {handle : σ → ε → Except α (σ × ω)} {state final : σ} {events : List ε}

theorem steps_cons_ok {next : σ} {event : ε} {out : ω} (rest : List ε)
    (handled : handle state event = .ok (next, out)) :
    steps handle state (event :: rest) = ⟨state, event, out⟩ :: steps handle next rest := by
  simp only [steps, handled]

theorem filterMap_steps_cons {next : σ} {event : ε} {out : ω} (rest : List ε)
    (handled : handle state event = .ok (next, out)) (read : Step σ ε ω → Option β) :
    (steps handle state (event :: rest)).filterMap read =
      (read ⟨state, event, out⟩).toList ++ (steps handle next rest).filterMap read := by
  rw [steps_cons_ok rest handled]
  cases here : read ⟨state, event, out⟩ with
  | none => exact List.filterMap_cons_none here
  | some value => exact List.filterMap_cons_some here

/-- What each step keeps in balance is in balance over a whole run. -/
theorem conserved (held : σ → List β) (gained lost : Step σ ε ω → Option β)
    (balanced : ∀ state event next out, handle state event = .ok (next, out) →
      ((lost ⟨state, event, out⟩).toList ++ held next).Perm
        ((gained ⟨state, event, out⟩).toList ++ held state))
    (completed : run handle state events = .ok final) :
    ((steps handle state events).filterMap lost ++ held final).Perm
      ((steps handle state events).filterMap gained ++ held state) := by
  induction events generalizing state with
  | nil =>
    cases completed
    exact .refl _
  | cons event rest ih =>
    obtain ⟨next, out, handled, tail⟩ := run_cons_result completed
    have first := balanced state event next out handled
    have later := ih tail
    rw [filterMap_steps_cons rest handled, filterMap_steps_cons rest handled, List.append_assoc,
      List.append_assoc]
    -- The head's losses pass the tail's gains to meet the state between the two.
    apply (later.append_left _).trans
    apply (List.perm_append_comm_assoc ..).trans
    apply (first.append_left _).trans
    exact List.perm_append_comm_assoc ..

end Steps

namespace Pending

variable {τ : Type*}

/-- The outstanding calls without their phase. -/
def entries (pending : Pending τ) : List (Nat × τ) := pending.calls.map fun call => (call.ticket, call.tag)

theorem entries_tickets (pending : Pending τ) : pending.entries.map Prod.fst = pending.calls.map Call.ticket := by
  rw [entries, List.map_map]
  rfl

theorem mem_entries {pending : Pending τ} {entry : Nat × τ} :
    entry ∈ pending.entries ↔ ∃ call ∈ pending.calls, (call.ticket, call.tag) = entry := List.mem_map

theorem entry_older {pending : Pending τ} {ticket : Nat} (member : ticket ∈ pending.entries.map Prod.fst) :
    ticket < pending.issued := by
  rw [entries_tickets] at member
  obtain ⟨call, stored, rfl⟩ := List.mem_map.mp member
  exact pending.older call stored

theorem entries_issue (pending : Pending τ) (tag : τ) :
    (pending.issue tag).entries = pending.entries ++ [(pending.issued, tag)] := List.map_append

theorem entries_fire (pending : Pending τ) (ticket : Nat) : (pending.fire ticket).entries = pending.entries := by
  unfold entries fire
  rw [List.map_map]
  apply List.map_congr_left
  intro call _
  simp only [Function.comp_apply]
  split <;> rfl

theorem entries_settle {pending : Pending τ} {ticket : Nat} {tag : τ}
    (found : pending.awaiting ticket = some tag) :
    ((ticket, tag) :: (pending.settle ticket).entries).Perm pending.entries := by
  have tickets : (pending.entries.map Prod.fst).Nodup := by
    rw [entries_tickets]
    exact pending.distinct
  have left : (pending.settle ticket).entries = pending.entries.filter fun entry => decide (entry.1 ≠ ticket) := by
    unfold entries settle
    rw [List.filter_map]
    rfl
  obtain ⟨call, stored, rfl, rfl⟩ := awaiting_mem found
  have here : (call.ticket, call.tag) ∈ pending.entries := mem_entries.mpr ⟨call, stored, rfl⟩
  have split := List.filter_append_perm (fun entry : Nat × τ => decide (entry.1 = call.ticket)) pending.entries
  have single : pending.entries.filter (fun entry => decide (entry.1 = call.ticket)) =
      [(call.ticket, call.tag)] := by
    apply List.perm_singleton.mp
    apply (List.perm_ext_iff_of_nodup (tickets.of_map.filter _) (List.nodup_singleton _)).mpr
    intro entry
    rw [List.mem_filter, List.mem_singleton, decide_eq_true_eq]
    apply Iff.intro
    · intro both
      exact List.inj_on_of_nodup_map tickets both.1 here both.2
    · intro same
      rw [same]
      exact ⟨here, rfl⟩
  rw [single] at split
  rw [left]
  simpa using split

end Pending

/-- How the events of a scene ask for values and its outputs tell the askers of them. -/
structure Requests (σ ε ω τ : Type*) where
  calls : σ → Pending τ
  asks : σ → ε → Option τ
  ticket : ε → Option Nat
  told : ω → Option τ

namespace Requests

variable {σ ε α ω τ : Type*} (requests : Requests σ ε ω τ)

def asked (step : Step σ ε ω) : Option τ := requests.asks step.state step.event

def completed (step : Step σ ε ω) : Option τ := requests.told step.out

/-- The call of an asker who is not told at once. -/
def opened (step : Step σ ε ω) : Option (Nat × τ) :=
  match requests.asked step, requests.completed step with
  | some tag, none => some ((requests.calls step.state).issued, tag)
  | _, _ => none

/-- The call whose response tells its asker. -/
def closed (step : Step σ ε ω) : Option (Nat × τ) :=
  match requests.ticket step.event, requests.completed step with
  | some ticket, some tag => some (ticket, tag)
  | _, _ => none

/-- What one step may do to the calls. -/
inductive Served (step : Step σ ε ω) (next : σ) : Prop where
  | quiet (asks : requests.asked step = none) (told : requests.completed step = none)
      (entries : (requests.calls next).entries = (requests.calls step.state).entries)
      (issued : (requests.calls next).issued = (requests.calls step.state).issued)
  | atOnce (tag : τ) (asks : requests.asked step = some tag) (told : requests.completed step = some tag)
      (unbidden : requests.ticket step.event = none)
      (same : requests.calls next = requests.calls step.state)
  | waits (tag : τ) (asks : requests.asked step = some tag) (told : requests.completed step = none)
      (same : requests.calls next = (requests.calls step.state).issue tag)
  | answered (ticket : Nat) (tag : τ) (asks : requests.asked step = none)
      (told : requests.completed step = some tag) (answers : requests.ticket step.event = some ticket)
      (found : (requests.calls step.state).awaiting ticket = some tag)
      (same : requests.calls next = (requests.calls step.state).settle ticket)

variable {requests} {step : Step σ ε ω} {next : σ}

theorem Served.balanced (served : requests.Served step next) :
    ((requests.closed step).toList ++ (requests.calls next).entries).Perm
      ((requests.opened step).toList ++ (requests.calls step.state).entries) := by
  cases served with
  | quiet asks told entries issued =>
    rw [entries]
    simp [closed, opened, asks, told]
  | atOnce tag asks told unbidden same =>
    rw [same]
    simp [closed, opened, asks, told, unbidden]
  | waits tag asks told same =>
    have opens : requests.opened step = some ((requests.calls step.state).issued, tag) := by
      simp only [opened, asks, told]
    have closes : requests.closed step = none := by
      simp [closed, told]
    rw [same, opens, closes, Pending.entries_issue]
    exact List.perm_append_singleton _ _
  | answered ticket tag asks told answers found same =>
    have opens : requests.opened step = none := by
      simp [opened, asks]
    have closes : requests.closed step = some (ticket, tag) := by
      simp only [closed, answers, told]
    rw [same, opens, closes]
    exact Pending.entries_settle found

theorem Served.numbered (served : requests.Served step next) :
    (requests.opened step).toList.map Prod.fst =
        List.range' (requests.calls step.state).issued (requests.opened step).toList.length ∧
      (requests.calls next).issued =
        (requests.calls step.state).issued + (requests.opened step).toList.length := by
  cases served with
  | quiet asks told entries issued =>
    rw [issued]
    simp [opened, asks]
  | atOnce tag asks told unbidden same =>
    rw [same]
    simp [opened, asks, told]
  | waits tag asks told same =>
    rw [same]
    simp [opened, asks, told, Pending.issue]
  | answered ticket tag asks told answers found same =>
    rw [same]
    simp [opened, asks, Pending.settle]

theorem Served.told (served : requests.Served step next) :
    ((requests.completed step).toList ++ (requests.calls next).entries.map Prod.snd).Perm
      ((requests.asked step).toList ++ (requests.calls step.state).entries.map Prod.snd) := by
  cases served with
  | quiet asks told entries issued =>
    rw [asks, told, entries]
  | atOnce tag asks told unbidden same =>
    rw [asks, told, same]
  | waits tag asks told same =>
    rw [asks, told, same, Pending.entries_issue, List.map_append]
    exact List.perm_append_singleton _ _
  | answered ticket tag asks told answers found same =>
    rw [asks, told, same]
    exact (Pending.entries_settle found).map Prod.snd

variable (requests) in
/-- Each call, opened in the run or outstanding before it, is closed once in the run or outstanding
    after it; and whoever asks is told once, or waits. -/
structure Ledger (initial final : σ) (steps : List (Step σ ε ω)) : Prop where
  calls : (steps.filterMap requests.closed ++ (requests.calls final).entries).Perm
    (steps.filterMap requests.opened ++ (requests.calls initial).entries)
  numbered : (steps.filterMap requests.opened).map Prod.fst =
    List.range' (requests.calls initial).issued (steps.filterMap requests.opened).length
  once : ((steps.filterMap requests.closed ++ (requests.calls final).entries).map Prod.fst).Nodup
  told : (steps.filterMap requests.completed ++ (requests.calls final).entries.map Prod.snd).Perm
    (steps.filterMap requests.asked ++ (requests.calls initial).entries.map Prod.snd)

section Within

variable {σ' ε' ω' : Type*} {part : σ' → σ} {event : ε' → Option ε} {out : ω' → Option ω}

/-- The requests of a part of a larger scene. -/
def within (requests : Requests σ ε ω τ) (part : σ' → σ) (event : ε' → Option ε) (out : ω' → Option ω) :
    Requests σ' ε' ω' τ where
  calls state := requests.calls (part state)
  asks state outer := (event outer).bind fun inner => requests.asks (part state) inner
  ticket outer := (event outer).bind requests.ticket
  told done := (out done).bind requests.told

theorem Served.within {before after : σ'} {outer : ε'} {inner : ε} {done : ω'} {told : ω}
    (served : requests.Served ⟨part before, inner, told⟩ (part after)) (here : event outer = some inner)
    (given : out done = some told) : (requests.within part event out).Served ⟨before, outer, done⟩ after := by
  have asked : (requests.within part event out).asked ⟨before, outer, done⟩ =
      requests.asked ⟨part before, inner, told⟩ := by simp [asked, Requests.within, here]
  have completed : (requests.within part event out).completed ⟨before, outer, done⟩ =
      requests.completed ⟨part before, inner, told⟩ := by simp [completed, Requests.within, given]
  have ticket : (requests.within part event out).ticket outer = requests.ticket inner := by
    simp [Requests.within, here]
  cases served with
  | quiet asks told entries issued => exact .quiet (asked.trans asks) (completed.trans told) entries issued
  | atOnce tag asks told unbidden same =>
    exact .atOnce tag (asked.trans asks) (completed.trans told) (ticket.trans unbidden) same
  | waits tag asks told same => exact .waits tag (asked.trans asks) (completed.trans told) same
  | answered number tag asks told answers found same =>
    exact .answered number tag (asked.trans asks) (completed.trans told) (ticket.trans answers) found same

theorem served_elsewhere {before after : σ'} {outer : ε'} {done : ω'}
    (calls : requests.calls (part after) = requests.calls (part before)) (here : event outer = none)
    (silent : (out done).bind requests.told = none) :
    (requests.within part event out).Served ⟨before, outer, done⟩ after := by
  have entries := congrArg Pending.entries calls
  have issued := congrArg Pending.issued calls
  exact .quiet (by simp [asked, Requests.within, here]) silent entries issued

end Within

section Run

variable {handle : σ → ε → Except α (σ × ω)} {state final : σ} {events : List ε}
  (served : ∀ state event next out, handle state event = .ok (next, out) →
    requests.Served ⟨state, event, out⟩ next)

include served

theorem numbered_run (completed : run handle state events = .ok final) :
    ((steps handle state events).filterMap requests.opened).map Prod.fst =
      List.range' (requests.calls state).issued
        ((steps handle state events).filterMap requests.opened).length := by
  induction events generalizing state with
  | nil => rfl
  | cons event rest ih =>
    obtain ⟨next, out, handled, tail⟩ := run_cons_result completed
    have first := (served state event next out handled).numbered
    rw [filterMap_steps_cons rest handled, List.map_append, List.length_append, ih tail, first.1, first.2,
      List.range'_append_1]

theorem ledger_run (completed : run handle state events = .ok final) :
    requests.Ledger state final (steps handle state events) := by
  have calls := conserved (fun state => (requests.calls state).entries) requests.opened requests.closed
    (fun state event next out handled => (served state event next out handled).balanced) completed
  have told := conserved (fun state => (requests.calls state).entries.map Prod.snd) requests.asked
    requests.completed (fun state event next out handled => (served state event next out handled).told) completed
  have numbered := numbered_run served completed
  apply Ledger.mk calls numbered _ told
  rw [(calls.map Prod.fst).nodup_iff, List.map_append, numbered, List.nodup_append]
  refine ⟨List.nodup_range', ?_, ?_⟩
  · rw [Pending.entries_tickets]
    exact (requests.calls state).distinct
  · intro new hn old ho same
    have later := (List.mem_range'_1.mp hn).1
    have older := Pending.entry_older ho
    omega

end Run

end Requests

end Transition
