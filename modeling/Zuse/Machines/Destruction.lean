import Zuse.Machines.Revisions

namespace Zuse.Machines

open Data (Conduct Regime)

namespace MachinePersistenceRecord

variable {before middle after machine base result : MachinePersistenceRecord}
  {deletedUsers : List String} {nowMs : Int}

/-- Where a machine is whose destruction was requested, and which ones are destroyed. -/
structure Settled (machine : MachinePersistenceRecord) : Prop where
  doomed : machine.desiredState = .destroyed →
    machine.state = .destroying ∨ machine.state = .failed ∨ machine.state = .destroyed
  destroyed : machine.state = .destroyed → machine.desiredState = .destroyed

/-- A requested destruction stays requested, a destroyed machine stays destroyed, and the
deletion of its account stays requested until the account's identity is deleted. -/
structure Becomes (deletedUsers : List String) (before after : MachinePersistenceRecord) :
    Prop where
  machineId : after.machineId = before.machineId
  accountId : after.accountId = before.accountId
  doomed : before.desiredState = .destroyed → after.desiredState = .destroyed
  absorbed : before.state = .destroyed → after.state = .destroyed
  identity : before.accountDeletionRequestedAtMs.isSome →
    after.accountDeletionRequestedAtMs = none → before.accountId ∈ deletedUsers

theorem Becomes.refl (machine : MachinePersistenceRecord) :
    machine.Becomes deletedUsers machine where
  machineId := rfl
  accountId := rfl
  doomed := id
  absorbed := id
  identity := by
    intro requested cleared
    rw [cleared] at requested
    cases requested

theorem Becomes.trans {earlier : List String} (first : before.Becomes earlier middle)
    (second : middle.Becomes deletedUsers after) (grown : earlier ⊆ deletedUsers) :
    before.Becomes deletedUsers after where
  machineId := second.machineId.trans first.machineId
  accountId := second.accountId.trans first.accountId
  doomed := fun doomed => second.doomed (first.doomed doomed)
  absorbed := fun destroyed => second.absorbed (first.absorbed destroyed)
  identity := by
    intro requested cleared
    cases between : middle.accountDeletionRequestedAtMs with
    | none => exact grown (first.identity requested between)
    | some requestedAtMs =>
      rw [← first.accountId]
      exact second.identity (by rw [between]; rfl) cleared

/-- A record that a pass or request writes over another one of its machine. -/
structure Edits (before after : MachinePersistenceRecord) : Prop where
  machineId : after.machineId = before.machineId
  accountId : after.accountId = before.accountId
  revision : after.revision = before.revision

/-- An edit that leaves what the machine should be and the deletion of its account. -/
structure Tends (before after : MachinePersistenceRecord) : Prop extends Edits before after where
  desiredState : after.desiredState = before.desiredState
  accountDeletionRequestedAtMs :
    after.accountDeletionRequestedAtMs = before.accountDeletionRequestedAtMs

theorem Tends.refl (machine : MachinePersistenceRecord) : machine.Tends machine :=
  ⟨⟨rfl, rfl, rfl⟩, rfl, rfl⟩

theorem Tends.trans (first : before.Tends middle) (second : middle.Tends after) :
    before.Tends after where
  machineId := second.machineId.trans first.machineId
  accountId := second.accountId.trans first.accountId
  revision := second.revision.trans first.revision
  desiredState := second.desiredState.trans first.desiredState
  accountDeletionRequestedAtMs :=
    second.accountDeletionRequestedAtMs.trans first.accountDeletionRequestedAtMs

theorem Becomes.identity_kept
    (same : after.accountDeletionRequestedAtMs = before.accountDeletionRequestedAtMs)
    (requested : before.accountDeletionRequestedAtMs.isSome)
    (cleared : after.accountDeletionRequestedAtMs = none) : before.accountId ∈ deletedUsers := by
  rw [← same, cleared] at requested
  cases requested

theorem Edits.becomes (edits : before.Edits after) (settled : before.Settled)
    (alive : before.desiredState ≠ .destroyed)
    (same : after.accountDeletionRequestedAtMs.isSome ∨
      after.accountDeletionRequestedAtMs = before.accountDeletionRequestedAtMs) :
    before.Becomes deletedUsers after where
  machineId := edits.machineId
  accountId := edits.accountId
  doomed := fun doomed => absurd doomed alive
  absorbed := fun destroyed => absurd (settled.destroyed destroyed) alive
  identity := by
    intro requested cleared
    cases same with
    | inl still =>
      rw [cleared] at still
      cases still
    | inr same => exact Becomes.identity_kept same requested cleared

theorem Tends.alive (tends : before.Tends after) (settled : before.Settled)
    (alive : before.desiredState ≠ .destroyed) (standing : after.state ≠ .destroyed) :
    before.Becomes deletedUsers after ∧ after.Settled := by
  refine ⟨tends.toEdits.becomes settled alive (.inr tends.accountDeletionRequestedAtMs), ?_, ?_⟩
  · intro doomed
    rw [tends.desiredState] at doomed
    exact absurd doomed alive
  · intro destroyed
    exact absurd destroyed standing

theorem Tends.doomed (tends : before.Tends after) (doomed : before.desiredState = .destroyed)
    (standing : before.state ≠ .destroyed)
    (state : after.state = .destroying ∨ after.state = .failed ∨ after.state = .destroyed) :
    before.Becomes deletedUsers after ∧ after.Settled := by
  have still : after.desiredState = .destroyed := tends.desiredState.trans doomed
  refine ⟨⟨tends.machineId, tends.accountId, fun _ => still, ?_, ?_⟩, fun _ => state,
    fun _ => still⟩
  · intro destroyed
    exact absurd destroyed standing
  · exact Becomes.identity_kept tends.accountDeletionRequestedAtMs

theorem Tends.unmoved (tends : before.Tends after) (settled : before.Settled)
    (state : after.state = before.state) :
    before.Becomes deletedUsers after ∧ after.Settled := by
  refine ⟨⟨tends.machineId, tends.accountId, ?_, ?_, ?_⟩, ?_, ?_⟩
  · intro doomed
    exact tends.desiredState.trans doomed
  · intro destroyed
    exact state.trans destroyed
  · exact Becomes.identity_kept tends.accountDeletionRequestedAtMs
  · intro doomed
    rw [state]
    exact settled.doomed (tends.desiredState.symm.trans doomed)
  · intro destroyed
    rw [tends.desiredState]
    exact settled.destroyed (state.symm.trans destroyed)

theorem withProviderFailure_tends (machine : MachinePersistenceRecord) (nowMs : Int)
    (error : MachineProviderError) :
    machine.Tends (machine.withProviderFailure nowMs error) :=
  ⟨⟨rfl, rfl, rfl⟩, rfl, rfl⟩

theorem withProviderFailure_state (machine : MachinePersistenceRecord) (nowMs : Int)
    (error : MachineProviderError) :
    (machine.withProviderFailure nowMs error).state = .failed ∨
      (machine.withProviderFailure nowMs error).state = machine.state := by
  unfold withProviderFailure
  dsimp only
  split
  · exact .inl rfl
  · exact .inr rfl

theorem withProviderFailure_ne_destroyed (error : MachineProviderError)
    (standing : machine.state ≠ .destroyed) :
    (machine.withProviderFailure nowMs error).state ≠ .destroyed := by
  obtain failed | same := machine.withProviderFailure_state nowMs error
  · rw [failed]
    decide
  · rw [same]
    exact standing

theorem withProviderFailure_retries {error : MachineProviderError}
    (attempts : machine.attemptCount + 1 < maxReconcileAttempts) (accepted : error ≠ .rejected) :
    (machine.withProviderFailure nowMs error).state = machine.state := by
  unfold withProviderFailure
  dsimp only
  split
  · rename_i exhausted
    cases exhausted with
    | inl many => exact absurd attempts (Nat.not_lt.mpr many)
    | inr rejected => exact absurd rejected accepted
  · rfl

end MachinePersistenceRecord

namespace MachineWorld

structure Sound (world : MachineWorld) : Prop where
  keyed : world.store.Keyed
  settled : ∀ machineId machine, world.store.getMachine machineId = some machine → machine.Settled

structure Persists (before after : MachineWorld) : Prop where
  follows : before.Follows after
  deletedUsers : before.deletedUsers ⊆ after.deletedUsers
  machines : ∀ machineId machine, before.store.getMachine machineId = some machine →
    ∃ later, after.store.getMachine machineId = some later ∧
      machine.Becomes after.deletedUsers later

theorem Persists.trans {first second third : MachineWorld} (before : first.Persists second)
    (after : second.Persists third) : first.Persists third where
  follows := before.follows.trans after.follows
  deletedUsers := List.Subset.trans before.deletedUsers after.deletedUsers
  machines := by
    intro machineId machine found
    obtain ⟨middle, second, becomes⟩ := before.machines machineId machine found
    obtain ⟨last, third, further⟩ := after.machines machineId middle second
    exact ⟨last, third, becomes.trans further after.deletedUsers⟩

theorem Persists.of_same {before after : MachineWorld}
    (same : ∀ machineId, after.store.getMachine machineId = before.store.getMachine machineId)
    (grown : before.deletedUsers ⊆ after.deletedUsers) : before.Persists after where
  follows := fun machineId machine found =>
    ⟨machine, (same machineId).trans found, Nat.le_refl _, fun _ => rfl⟩
  deletedUsers := grown
  machines := fun machineId machine found =>
    ⟨machine, (same machineId).trans found, .refl machine⟩

theorem Persists.refl (world : MachineWorld) : world.Persists world :=
  .of_same (fun _ => rfl) (List.Subset.refl _)

theorem Sound.of_same {before after : MachineWorld} (sound : before.Sound)
    (same : ∀ machineId, after.store.getMachine machineId = before.store.getMachine machineId) :
    after.Sound where
  keyed := fun machineId machine found =>
    sound.keyed machineId machine ((same machineId).symm.trans found)
  settled := fun machineId machine found =>
    sound.settled machineId machine ((same machineId).symm.trans found)

theorem Sound.refused {world : MachineWorld} (sound : world.Sound) :
    world.Persists (world.withStore world.store) ∧ (world.withStore world.store).Sound :=
  ⟨.of_same (fun _ => rfl) (List.Subset.refl _), sound.of_same fun _ => rfl⟩

variable {before after : MachineWorld} {machine stored base result : MachinePersistenceRecord}

theorem Sound.replaced (sound : before.Sound)
    (found : before.store.getMachine machine.machineId = some stored)
    (written : MemoryState.Puts machine before.store after.store)
    (users : after.deletedUsers = before.deletedUsers)
    (raised : machine.revision = stored.revision + 1)
    (becomes : stored.Becomes before.deletedUsers machine) (settled : machine.Settled) :
    before.Persists after ∧ after.Sound := by
  refine ⟨⟨?_, ?_, ?_⟩, ?_, ?_⟩
  · intro machineId other present
    rw [written machineId]
    split
    · rename_i same
      subst same
      cases found.symm.trans present
      exact ⟨machine, rfl, by omega, by omega⟩
    · exact ⟨other, present, Nat.le_refl _, fun _ => rfl⟩
  · rw [users]
    exact List.Subset.refl _
  · intro machineId other present
    rw [written machineId, users]
    split
    · rename_i same
      subst same
      cases found.symm.trans present
      exact ⟨machine, rfl, becomes⟩
    · exact ⟨other, present, .refl other⟩
  · exact written.keyed sound.keyed
  intro machineId other present
  rw [written machineId] at present
  split at present
  · cases present
    exact settled
  · exact sound.settled machineId other present

theorem Sound.added (sound : before.Sound)
    (absent : before.store.getMachine machine.machineId = none)
    (written : MemoryState.Puts machine before.store after.store)
    (users : after.deletedUsers = before.deletedUsers) (settled : machine.Settled) :
    before.Persists after ∧ after.Sound := by
  refine ⟨⟨?_, ?_, ?_⟩, ?_, ?_⟩
  · exact fun machineId other present =>
      ⟨other, written.kept absent present, Nat.le_refl _, fun _ => rfl⟩
  · rw [users]
    exact List.Subset.refl _
  · exact fun machineId other present =>
      ⟨other, written.kept absent present, .refl other⟩
  · exact written.keyed sound.keyed
  intro machineId other present
  rw [written machineId] at present
  split at present
  · cases present
    exact settled
  · exact sound.settled machineId other present

end MachineWorld

/-- The choices under which a destroyed machine stays destroyed: its final snapshot is not
refused deletion, nor fails to be deleted for the last time that is tried. -/
def AdmitsDeletion (world : MachineWorld) (request : MachineCall) (answer : Answer) : Prop :=
  match request with
  | .deleteSnapshot snapshotId =>
    ∀ failure, answer.error = some failure → failure ≠ .rejected ∧
      ∀ machine ∈ world.store.machines.values,
        machine.finalSnapshotId = some snapshotId → machine.attemptCount + 1 < maxReconcileAttempts
  | _ => True

/-- The events under which a requested destruction stays requested: no subscription ends
whose machine is being destroyed. -/
def PermitsEvent (world : MachineWorld) : MachineInterrupt → Prop
  | .applyBillingEvent input =>
    input.entitlement.status = .ended →
      world.store.billingEvents.contains input.event.key = false →
        ∀ machine, world.store.attachedMachine input.entitlement.entitlementId = some machine →
          machine.desiredState ≠ .destroyed
  | _ => True

def destructionConduct : Conduct MachineWorld MachineCall Answer where
  sound := MachineWorld.Sound
  change := MachineWorld.Persists
  admits := AdmitsDeletion

def destructionRegime : Regime MachineWorld MachineCall Answer MachineOperation where
  sound := MachineWorld.Sound
  change := MachineWorld.Persists
  admits := fun _ => AdmitsDeletion

end Zuse.Machines
