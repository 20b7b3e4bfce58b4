import ZemogaSocial.Realm.Instructions
import ZemogaSocial.Realm.ManagedObjects
import ZemogaSocial.Realm.Transaction

namespace ZemogaSocial

open ObjectStore Transition

def Changeset.replay (group : Group) (commit : Changeset) : Group :=
  fun name => (commit name).foldl Instruction.apply (group name)

variable {infos : String → ClassInfo}

def Group.Conforms (infos : String → ClassInfo) (group : Group) : Prop :=
  ∀ name, (infos name).schema.Conforms (group name)

structure Realm.Sound (infos : String → ClassInfo) (realm : Realm) : Prop where
  stored : realm.group.Conforms infos
  seen : realm.rows.Conforms infos
  logged : realm.Logged

/-- The file has gone through the commits one after the other, and each has left it conforming. -/
structure Durable (infos : String → ClassInfo) (realm : Realm) (execution : Execution) : Prop where
  sound : execution.realm.Sound infos
  replayed : execution.realm.group = execution.commits.foldl Changeset.replay realm.group
  passed : Passes Changeset.replay (Group.Conforms infos) realm.group execution.commits

namespace Durable

variable {realm : Realm} {execution : Execution}

theorem andThen {next : Realm → Execution} (first : Durable infos realm execution)
    (rest : ∀ middle : Realm, middle.Sound infos → Durable infos middle (next middle)) :
    Durable infos realm (execution.andThen next) := by
  unfold Execution.andThen
  cases outcome : execution.outcome with
  | threw error => exact first
  | raised exception => exact first
  | returned =>
    have later := rest execution.realm first.sound
    refine ⟨later.sound, ?_, ?_⟩
    · rw [List.foldl_append, ← first.replayed]
      exact later.replayed
    · have passed := later.passed
      rw [first.replayed] at passed
      exact passes_append first.passed passed

end Durable

namespace Realm

variable {realm : Realm}

end Realm

/-- What has made no commit has not changed the file. -/
def Unwritten (realm : Realm) (execution : Execution) : Prop :=
  execution.commits = [] → execution.realm.group = realm.group

namespace Unwritten

variable {realm : Realm} {execution : Execution}

theorem andThen {next : Realm → Execution} (first : Unwritten realm execution)
    (rest : ∀ middle, Unwritten middle (next middle)) : Unwritten realm (execution.andThen next) := by
  unfold Execution.andThen
  cases execution.outcome with
  | threw error => exact first
  | raised exception => exact first
  | returned =>
    intro none
    obtain ⟨earlier, later⟩ := List.append_eq_nil_iff.mp none
    exact (rest execution.realm later).trans (first earlier)

theorem beginWrite (realm : Realm) : Unwritten realm realm.beginWrite := by
  unfold Realm.beginWrite
  split <;> exact fun _ => rfl

theorem commitWrite (realm : Realm) : Unwritten realm realm.commitWrite := by
  unfold Realm.commitWrite
  intro none
  cases opened : realm.draft with
  | none => rfl
  | some draft =>
    cases failed : realm.fault with
    | some error => rfl
    | none => simp [opened, failed] at none

theorem cancelWrite (realm : Realm) : Unwritten realm realm.cancelWrite := by
  unfold Realm.cancelWrite
  split <;> exact fun _ => rfl

theorem settle (ended : Unwritten realm execution) : Unwritten realm (Realm.settle execution) := by
  unfold Realm.settle
  cases execution.outcome with
  | raised exception => exact ended
  | returned =>
    simp only
    split
    · exact ended.andThen commitWrite
    · exact ended
  | threw error =>
    simp only
    split
    · intro none
      have kept : execution.realm.cancelWrite.commits = [] := by
        unfold Realm.cancelWrite
        split <;> rfl
      exact (cancelWrite execution.realm kept).trans (ended none)
    · exact ended

end Unwritten

end ZemogaSocial
