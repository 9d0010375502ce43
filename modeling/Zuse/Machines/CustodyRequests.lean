import Zuse.Machines.CustodyPasses

namespace Zuse.Machines

open Data (Script)

section Records

variable {world : MachineWorld} {base updated : MachinePersistenceRecord} {nowMs : Int}

theorem MachineWorld.covers_of_named (label : updated.providerLabel = base.providerLabel)
    (providerServerId : updated.providerServerId = base.providerServerId)
    (moored : world.Adrift base → ∀ nowMs, nowMs = world.nowMs →
      updated.awaitsCreation nowMs = true) : world.Covers updated := by
  intro server member owned
  by_cases named : base.names server
  · exact .inl (providerServerId.trans named)
  · exact .inr (moored ⟨server, member, owned.trans label, named⟩ world.nowMs rfl)

theorem MachineWorld.Custody.awaits_of_adrift (custody : world.Custody)
    (stored : world.Stored base) (adrift : world.Adrift base) :
    base.awaitsCreation world.nowMs = true := by
  obtain ⟨server, member, label, unnamed⟩ := adrift
  exact (custody.covered base stored server member label).resolve_left unnamed

end Records

section Requests

variable {world : MachineWorld} {base updated : MachinePersistenceRecord}
  {operation : MachineOperation}

theorem MachineOperation.Edits.carries (edits : operation.Edits base updated) :
    Carries base updated ∧ updated.providerServerId = base.providerServerId ∧
      (updated.state = .destroyed → base.state = .destroyed) := by
  obtain ⟨nowMs, edits⟩ := edits
  cases operation with
  | bootStatus tokenHash machineId body =>
    obtain ⟨_, _, rfl⟩ := edits
    have restates := applyBootStatus_restates base nowMs body
    exact ⟨restates.carries, restates.providerServerId, restates.state⟩
  | cancel accountId machineId =>
    obtain ⟨_, _, recoveryWindowMs, rfl⟩ := edits
    exact ⟨⟨rfl, rfl, rfl, rfl⟩, rfl, id⟩
  | recover accountId machineId =>
    obtain ⟨_, renewed, rfl⟩ := edits
    exact ⟨⟨rfl, rfl, rfl, rfl⟩, rfl, nofun⟩
  | destroy accountId machineId | deleteAccount accountId =>
    obtain ⟨_, rfl⟩ := edits
    exact ⟨⟨rfl, rfl, rfl, rfl⟩, rfl, nofun⟩
  | reportCredentialCleanup accountId environmentId =>
    obtain ⟨_, rfl⟩ := edits
    exact ⟨⟨rfl, rfl, rfl, rfl⟩, rfl, id⟩
  | _ => exact edits.elim

variable {answer : Answer}

theorem MachineWorld.Custody.covers_of_edits (custody : world.Custody)
    (stored : world.Stored base) (edits : operation.Edits base updated)
    (admitted : AdmitsCustody operation world (.compareAndSetMachine updated base.revision)
      answer) : world.Covers updated := by
  obtain ⟨carries, providerServerId, _⟩ := edits.carries
  have asked := admitted base stored carries.machineId.symm rfl
  have moored : ¬world.Adrift base → world.Covers updated := by
    intro none
    exact MachineWorld.covers_of_named carries.providerLabel providerServerId
      fun adrift => absurd adrift none
  have idle : (∀ later, base.awaitsCreation later ≠ true) → world.Covers updated := by
    intro idle
    exact custody.covers_of_waits stored
      (waits_of_not providerServerId fun later _ => idle later) carries.providerLabel
  obtain ⟨nowMs, edits⟩ := edits
  cases operation with
  | bootStatus tokenHash machineId body
  | destroy accountId machineId | deleteAccount accountId => exact moored asked
  | recover accountId machineId => exact idle (idle_of_state (by rw [edits.1]; decide))
  | reportCredentialCleanup accountId environmentId => exact idle (idle_of_doomed edits.1)
  | cancel accountId machineId =>
    obtain ⟨_, _, recoveryWindowMs, rfl⟩ := edits
    refine MachineWorld.covers_of_named carries.providerLabel providerServerId ?_
    intro adrift now same
    have paid := asked adrift
    have creating := MachinePersistenceRecord.awaitsCreation_creating
      (custody.awaits_of_adrift stored adrift)
    have state : (base.cancelled nowMs recoveryWindowMs).state = .creating := creating
    simp only [MachinePersistenceRecord.awaitsCreation, MachinePersistenceRecord.wantsReady,
      state, same, paid, decide_true, Bool.true_and, Bool.and_true, Bool.or_eq_true,
      decide_eq_true_eq]
    exact .inr rfl
  | _ => exact edits.elim

theorem makes_custody {request : MachineCall} {known : List MachinePersistenceRecord}
    (custody : world.Custody) (recalls : ∀ machine ∈ known, Recalls world machine)
    (makes : operation.Makes known request)
    (admitted : AdmitsCustody operation world request answer) :
    let after := machineService request answer world
    world.Proceeds after.2 ∧ after.2.Custody ∧
      ∀ machine ∈ request.shows after.1, Recalls after.2 machine := by
  intro after
  have leaving : request.leavesServers = true → world.Proceeds after.2 ∧
      after.2.Custody ∧ ∀ machine ∈ request.shows after.1, Recalls after.2 machine := by
    intro leaves
    obtain ⟨same, servers, nowMs, decided⟩ := machineService_servers leaves answer world
    obtain ⟨changed, still⟩ := MachineWorld.Custody.narrowed custody same
      (servers ▸ List.Subset.refl _) nowMs (decided ▸ List.Subset.refl _)
    exact ⟨changed, still, fun machine shown =>
      still.recalls ((same machine.machineId).trans (shows_stored custody.keyed shown))⟩
  have written : ∀ base ∈ known, ∀ {updated stored : MachinePersistenceRecord},
      world.store.getMachine updated.machineId = some stored →
      stored.revision = base.revision → Carries base updated →
      (updated.state = .destroyed → updated.providerServerId = none) →
      (world.Stored base → world.Covers updated) →
        let later := world.withStore
          (world.store.putMachine { updated with revision := base.revision + 1 })
        world.Proceeds later ∧ later.Custody := by
    intro base member updated stored found same carries gone covers
    rw [carries.machineId] at found
    rw [(recalls base member).knows.stored found same] at found
    obtain ⟨changed, still, _⟩ := custody.rewritten found carries (covers found) gone
      updated.leaseOwner updated.leaseExpiresAtMs
    exact ⟨changed, still⟩
  cases request with
  | compareAndSetMachine updated revision =>
    obtain ⟨base, member, rfl, edits⟩ := makes
    obtain ⟨carries, providerServerId, state⟩ := edits.carries
    have kept : world.Proceeds after.2 ∧ after.2.Custody := by
      obtain replied | ⟨stored, found, same, replied⟩ :=
        MemoryState.compareAndSetMachine_replies updated base.revision answer world
      · rw [show after = _ from replied]
        exact MachineWorld.Custody.refused custody
      rw [show after = _ from replied]
      exact written base member found same carries
        (fun destroyed =>
          providerServerId.trans ((recalls base member).gone (state destroyed)))
        fun stored => custody.covers_of_edits stored edits admitted
    exact ⟨kept.1, kept.2, by intro machine none; cases none⟩
  | completeEnrollment updated tokenHash revision =>
    obtain ⟨base, member, rfl, nowMs, environmentId, publicKey, rfl⟩ := makes
    have restates := enrolled_restates base nowMs environmentId publicKey
    have kept : world.Proceeds after.2 ∧ after.2.Custody := by
      obtain replied | ⟨stored, found, same, _, _, replied⟩ :=
        MemoryState.completeEnrollment_replies _ tokenHash base.revision answer world
      · rw [show after = _ from replied]
        exact MachineWorld.Custody.refused custody
      rw [show after = _ from replied]
      refine written base member found same restates.carries ?_ ?_
      · intro destroyed
        exact restates.providerServerId.trans
          ((recalls base member).gone (restates.state destroyed))
      · intro stored
        exact MachineWorld.covers_of_named restates.providerLabel restates.providerServerId
          fun adrift =>
            absurd adrift (admitted base stored restates.tends.machineId.symm rfl)
    exact ⟨kept.1, kept.2, by intro machine none; cases none⟩
  | _ => exact leaving makes

theorem Requesting.custody {α : Type} {script : MachineScript α}
    (requests : Requesting operation script []) :
    script.Keeps machineService (custodyRegime.conduct operation) (fun _ _ => True) world := by
  have keeps : script.Keeps machineService (custodyRegime.conduct operation)
      (fun _ last => ∃ known : List MachinePersistenceRecord,
        (∀ machine ∈ known, Recalls last machine) ∧ True) world :=
    requests.keeps Recalls.later makes_custody (by intro machine none; cases none)
  exact keeps.mono fun _ _ _ => trivial

end Requests

end Zuse.Machines
