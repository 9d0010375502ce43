import Zuse.Machines.DestructionPasses

namespace Zuse.Machines

open Data (Script)

variable {deletedUsers : List String}

namespace MachinePersistenceRecord

theorem Edits.living {before after : MachinePersistenceRecord}
    (edits : before.Edits after) (settled : before.Settled)
    (alive : before.desiredState ≠ .destroyed) (lives : after.desiredState ≠ .destroyed)
    (standing : after.state ≠ .destroyed)
    (same : after.accountDeletionRequestedAtMs = before.accountDeletionRequestedAtMs) :
    before.Becomes deletedUsers after ∧ after.Settled :=
  ⟨edits.becomes settled alive (.inr same), fun doomed => absurd doomed lives,
    fun destroyed => absurd destroyed standing⟩

end MachinePersistenceRecord

section Requests

variable {world : MachineWorld} {machine base updated : MachinePersistenceRecord}
  {operation : MachineOperation}

structure Seen (machine : MachinePersistenceRecord) (world : MachineWorld) : Prop where
  knows : world.Knows machine
  settled : machine.Settled

theorem Seen.later {later : MachineWorld} (seen : Seen machine world)
    (persists : world.Persists later) : Seen machine later :=
  ⟨seen.knows.later persists.follows, seen.settled⟩

theorem MachineWorld.Sound.seen (sound : world.Sound)
    (found : world.store.getMachine machine.machineId = some machine) : Seen machine world :=
  ⟨.of_get found, sound.settled machine.machineId machine found⟩

theorem MachineOperation.Edits.becomes
    (edits : operation.Edits base updated) (settled : base.Settled) :
    updated.machineId = base.machineId ∧ base.Becomes deletedUsers updated ∧ updated.Settled := by
  obtain ⟨nowMs, edits⟩ := edits
  cases operation with
  | bootStatus tokenHash machineId body =>
    obtain ⟨wanted, standing, rfl⟩ := edits
    have restates := applyBootStatus_restates base nowMs body
    exact ⟨restates.tends.machineId,
      restates.tends.alive settled wanted fun destroyed => standing (restates.state destroyed)⟩
  | cancel accountId machineId =>
    obtain ⟨wanted, standing, recoveryWindowMs, rfl⟩ := edits
    have edits : base.Edits (base.cancelled nowMs recoveryWindowMs) := ⟨rfl, rfl, rfl⟩
    exact ⟨rfl, edits.living settled wanted nofun standing rfl⟩
  | recover accountId machineId =>
    obtain ⟨suspended, renewed, rfl⟩ := edits
    have edits : base.Edits (base.recovered nowMs renewed) := ⟨rfl, rfl, rfl⟩
    have wanted : base.desiredState ≠ .destroyed := by
      intro doomed
      obtain state | state | state := settled.doomed doomed
      all_goals
        rw [suspended] at state
        cases state
    exact ⟨rfl, edits.living settled wanted nofun nofun rfl⟩
  | destroy accountId machineId =>
    obtain ⟨standing, rfl⟩ := edits
    exact ⟨rfl, base.requestMachineDestruction_becomes standing _ (.inr rfl)⟩
  | deleteAccount accountId =>
    obtain ⟨standing, rfl⟩ := edits
    exact ⟨rfl, base.requestMachineDestruction_becomes standing _ (.inl rfl)⟩
  | reportCredentialCleanup accountId environmentId =>
    obtain ⟨_, rfl⟩ := edits
    have becomes : base.Becomes deletedUsers base := .refl base
    exact ⟨rfl, ⟨rfl, rfl, becomes.doomed, becomes.absorbed, becomes.identity⟩,
      ⟨settled.doomed, settled.destroyed⟩⟩
  | _ => exact edits.elim

theorem makes_keeps {request : MachineCall} {known : List MachinePersistenceRecord}
    {answer : Answer} (sound : world.Sound) (seen : ∀ machine ∈ known, Seen machine world)
    (makes : operation.Makes known request) :
    let after := machineService request answer world
    world.Persists after.2 ∧ after.2.Sound ∧
      ∀ machine ∈ request.shows after.1, Seen machine after.2 := by
  intro after
  have written : ∀ base ∈ known, ∀ {updated stored : MachinePersistenceRecord},
      world.store.getMachine updated.machineId = some stored →
      stored.revision = base.revision → updated.machineId = base.machineId →
      (stored = base → base.Becomes world.deletedUsers updated ∧ updated.Settled) →
        let later := world.withStore
          (world.store.putMachine { updated with revision := base.revision + 1 })
        world.Persists later ∧ later.Sound := by
    intro base member updated stored found same machineId becomes
    rw [machineId] at found
    have current := (seen base member).knows.stored found same
    obtain ⟨becomes, settled⟩ := becomes current
    rw [current] at found
    obtain ⟨changed, still, _⟩ := sound.rewritten found becomes settled updated.leaseOwner
      updated.leaseExpiresAtMs
    exact ⟨changed, still⟩
  have leaving : request.leavesServers = true → world.Persists after.2 ∧ after.2.Sound ∧
      ∀ machine ∈ request.shows after.1, Seen machine after.2 := by
    intro leaves
    obtain ⟨changed, still⟩ := sound.left (leavesServers_reads leaves) answer
    refine ⟨changed, still, fun machine shown => still.seen ?_⟩
    have same := MemoryState.getMachine_congr
      (machineService_leaves (leavesServers_reads leaves) answer world).1 machine.machineId
    exact same.trans (shows_stored sound.keyed shown)
  cases request with
  | compareAndSetMachine updated revision =>
    obtain ⟨base, member, rfl, edits⟩ := makes
    obtain ⟨machineId, becomes⟩ := edits.becomes (seen base member).settled
    have kept : world.Persists after.2 ∧ after.2.Sound := by
      obtain replied | ⟨stored, found, same, replied⟩ :=
        MemoryState.compareAndSetMachine_replies updated base.revision answer world
      · rw [show after = _ from replied]
        exact sound.refused
      · rw [show after = _ from replied]
        exact written base member found same machineId fun _ => becomes
    exact ⟨kept.1, kept.2, by intro machine none; cases none⟩
  | completeEnrollment updated tokenHash revision =>
    obtain ⟨base, member, rfl, nowMs, environmentId, publicKey, rfl⟩ := makes
    have restates := enrolled_restates base nowMs environmentId publicKey
    have kept : world.Persists after.2 ∧ after.2.Sound := by
      obtain replied | ⟨stored, found, same, wanted, standing, replied⟩ :=
        MemoryState.completeEnrollment_replies _ tokenHash base.revision answer world
      · rw [show after = _ from replied]
        exact sound.refused
      rw [show after = _ from replied]
      refine written base member found same restates.tends.machineId ?_
      rintro rfl
      exact restates.tends.alive (seen stored member).settled wanted
        fun destroyed => standing (restates.state destroyed)
    exact ⟨kept.1, kept.2, by intro machine none; cases none⟩
  | _ => exact leaving makes

/-- A request keeps a requested destruction. -/
theorem Requesting.persists {α : Type} {script : MachineScript α}
    (requests : Requesting operation script []) :
    script.Keeps machineService destructionConduct (fun _ _ => True) world := by
  have keeps : script.Keeps machineService destructionConduct
      (fun _ last => ∃ known : List MachinePersistenceRecord,
        (∀ machine ∈ known, Seen machine last) ∧ True) world :=
    requests.keeps Seen.later (fun sound seen makes _ => makes_keeps sound seen makes)
      (by intro machine none; cases none)
  exact keeps.mono fun _ _ _ => trivial

end Requests

end Zuse.Machines
