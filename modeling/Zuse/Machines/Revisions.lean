import Zuse.Machines.MachineSystem

namespace Zuse.Machines

open List

open Data (InsertionMap)

variable {world : MachineWorld}

namespace MemoryState

variable {store : MemoryState}

@[simp] theorem getMachine_putMachine (store : MemoryState)
    (machine : MachinePersistenceRecord) (machineId : String) :
    (store.putMachine machine).getMachine machineId =
      if machine.machineId = machineId then some machine else store.getMachine machineId :=
  InsertionMap.get?_set ..

section Recorded

variable {recorded : MemoryState} (machines : recorded.machines = store.machines)
include machines

theorem getMachine_congr (machineId : String) :
    recorded.getMachine machineId = store.getMachine machineId := by
  rw [getMachine, machines]
  rfl

theorem getMachine_recorded (machine : MachinePersistenceRecord) (machineId : String) :
    (recorded.putMachine machine).getMachine machineId =
      if machine.machineId = machineId then some machine else store.getMachine machineId := by
  rw [getMachine_putMachine, getMachine_congr machines]

end Recorded

/-- Every machine is kept under its own id. -/
def Keyed (store : MemoryState) : Prop :=
  ∀ machineId machine, store.getMachine machineId = some machine → machine.machineId = machineId

variable {machine : MachinePersistenceRecord}

/-- What the tables answer once the machine is written. -/
def Puts (machine : MachinePersistenceRecord) (store after : MemoryState) : Prop :=
  ∀ machineId, after.getMachine machineId =
    if machine.machineId = machineId then some machine else store.getMachine machineId

section Puts

variable {after : MemoryState} (puts : Puts machine store after)
include puts

theorem Puts.keyed (keyed : store.Keyed) : after.Keyed := by
  intro machineId stored found
  rw [puts] at found
  split at found
  · rename_i same
    cases found
    exact same
  · exact keyed machineId stored found

theorem Puts.kept (absent : store.getMachine machine.machineId = none)
    {machineId : String} {other : MachinePersistenceRecord}
    (present : store.getMachine machineId = some other) :
    after.getMachine machineId = some other := by
  rw [puts, if_neg]
  · exact present
  · intro same
    rw [same, present] at absent
    cases absent

end Puts

theorem Keyed.put (keyed : store.Keyed) (machine : MachinePersistenceRecord) :
    (store.putMachine machine).Keyed :=
  Puts.keyed (getMachine_putMachine store machine) keyed

theorem Keyed.get_of_mem (keyed : store.Keyed) (member : machine ∈ store.machines.values) :
    store.getMachine machine.machineId = some machine := by
  obtain ⟨machineId, found⟩ := InsertionMap.mem_values.mp member
  rw [keyed machineId machine found]
  exact found

theorem mem_of_getMachine {machineId : String} (found : store.getMachine machineId = some machine) :
    machine ∈ store.machines.values :=
  InsertionMap.mem_values.mpr ⟨machineId, found⟩

theorem Keyed.find (keyed : store.Keyed) {test : MachinePersistenceRecord → Bool}
    {machine : MachinePersistenceRecord}
    (found : store.machines.values.find? test = some machine) :
    store.getMachine machine.machineId = some machine ∧ test machine = true :=
  ⟨keyed.get_of_mem (mem_of_find?_eq_some found), find?_some found⟩

theorem Keyed.mem_listMachines (keyed : store.Keyed) {accountId : String}
    (member : machine ∈ store.listMachines accountId) :
    store.getMachine machine.machineId = some machine := by
  rw [listMachines, mem_insertionSort] at member
  exact keyed.get_of_mem (mem_of_mem_filter member)

theorem compareAndSetMachine_replies (machine : MachinePersistenceRecord)
    (expectedRevision : Nat) (answer : Answer) (world : MachineWorld) :
    machineService (.compareAndSetMachine machine expectedRevision) answer world =
        (false, world.withStore world.store) ∨
      ∃ stored, world.store.getMachine machine.machineId = some stored ∧
        stored.revision = expectedRevision ∧
        machineService (.compareAndSetMachine machine expectedRevision) answer world =
          (true, world.withStore
            (world.store.putMachine { machine with revision := expectedRevision + 1 })) := by
  simp only [machineService, compareAndSetMachine]
  split
  · exact .inl rfl
  rename_i stored found
  split
  · exact .inl rfl
  · rename_i same
    exact .inr ⟨stored, found, not_not.mp same, rfl⟩

theorem completeEnrollment_replies (machine : MachinePersistenceRecord)
    (tokenHash : String) (expectedRevision : Nat) (answer : Answer) (world : MachineWorld) :
    machineService (.completeEnrollment machine tokenHash expectedRevision) answer world =
        (false, world.withStore world.store) ∨
      ∃ stored, world.store.getMachine machine.machineId = some stored ∧
        stored.revision = expectedRevision ∧ stored.desiredState ≠ .destroyed ∧
        stored.state ≠ .destroyed ∧
        machineService (.completeEnrollment machine tokenHash expectedRevision) answer world =
          (true, world.withStore
            (world.store.putMachine { machine with revision := expectedRevision + 1 })) := by
  simp only [machineService, completeEnrollment]
  split
  · exact .inl rfl
  rename_i stored found
  split
  · exact .inl rfl
  · rename_i refused
    simp only [not_or, not_not] at refused
    exact .inr ⟨stored, found, refused.1, refused.2.2.1, refused.2.2.2.2, rfl⟩

theorem saveReconciledMachine_replies (machine : MachinePersistenceRecord) (owner : String)
    (expectedRevision : Nat) (answer : Answer) (world : MachineWorld) :
    machineService (.saveReconciledMachine machine owner expectedRevision) answer world =
        (false, world.withStore world.store) ∨
      ∃ stored, world.store.getMachine machine.machineId = some stored ∧
        stored.revision = expectedRevision ∧
        machineService (.saveReconciledMachine machine owner expectedRevision) answer world =
          (true, world.withStore (world.store.putMachine
            { machine with
              leaseOwner := none
              leaseExpiresAtMs := none
              revision := expectedRevision + 1 })) := by
  simp only [machineService, saveReconciledMachine]
  split
  · exact .inl rfl
  rename_i stored found
  split
  · exact .inl rfl
  · rename_i refused
    simp only [not_or, not_not] at refused
    exact .inr ⟨stored, found, refused.2, rfl⟩

/-- What a claim hands over: no machine, or one that it leases. -/
inductive Claims (world : MachineWorld) (input : ClaimInput) :
    List MachinePersistenceRecord → MachineWorld → Prop where
  | none : Claims world input [] (world.withStore world.store)
  | one {machine : MachinePersistenceRecord}
      (found : world.store.getMachine machine.machineId = some machine) :
      Claims world input [machine.claimed input]
        (world.withStore (world.store.putMachine (machine.claimed input)))

section Claiming

variable {world : MachineWorld} (keyed : world.store.Keyed) (input : ClaimInput) (answer : Answer)
include keyed

theorem claimMachine_claims (machineId : String) :
    let replied := machineService (.claimMachine machineId input) answer world
    Claims world input replied.1.toList replied.2 := by
  simp only [machineService, claimMachine]
  split
  · exact .none
  · rename_i machine found
    split
    · exact .none
    · rw [← keyed machineId machine found] at found
      exact .one found

theorem claimDueMachine_claims :
    let replied := machineService (.claimDueMachines input 1) answer world
    Claims world input replied.1 replied.2 := by
  simp only [machineService, claimDueMachines]
  cases due : (world.store.machines.values.filter fun machine =>
      machine.isDue input.nowMs).insertionSort
        fun left right => left.nextActionAtMs ≤ right.nextActionAtMs with
  | nil => exact .none
  | cons machine rest =>
    have sorted : machine ∈ (world.store.machines.values.filter fun machine =>
        machine.isDue input.nowMs).insertionSort
          fun left right => left.nextActionAtMs ≤ right.nextActionAtMs := by
      rw [due]
      exact mem_cons_self
    rw [mem_insertionSort] at sorted
    exact .one (keyed.get_of_mem (mem_of_mem_filter sorted))

end Claiming

theorem createMachine_cases (store : MemoryState) (input : CreateMachineInput) :
    (store.createMachine input).2 = store ∨
      ∃ entitlement, (store.createMachine input).2 =
        store.putMachine (input.machine entitlement) := by
  unfold createMachine
  dsimp only
  split
  · exact .inl rfl
  split
  · exact .inl rfl
  · split
    · exact .inl rfl
    · rename_i entitlement _
      exact .inr ⟨entitlement, rfl⟩

theorem machineOfBillingEvent_cases (keyed : store.Keyed) {input : ApplyBillingEventInput}
    (about : store.machineOfBillingEvent input = some machine) :
    (store.attachedMachine input.entitlement.entitlementId = some machine ∧
        store.getMachine machine.machineId = some machine ∧ machine.state ≠ .destroyed) ∨
      ∃ stored, store.getMachine stored.machineId = some stored ∧
        stored.state = .suspended ∧ input.entitlement.status = .active ∧
        machine = stored.renewedMachineForBillingEvent input.event.nowMs input.entitlement := by
  unfold machineOfBillingEvent at about
  split at about
  · rename_i attached found
    cases about
    obtain ⟨stored, test⟩ := keyed.find found
    simp only [Bool.and_eq_true, decide_eq_true_eq] at test
    exact .inl ⟨found, stored, test.2⟩
  split at about
  · rename_i renews
    obtain ⟨stored, found, rfl⟩ := Option.map_eq_some_iff.mp about
    obtain ⟨stored, test⟩ := keyed.find found
    simp only [Bool.and_eq_true, decide_eq_true_eq] at test
    exact .inr ⟨_, stored, test.1.2, renews.1, rfl⟩
  · cases about

/-- What a billing event does: nothing where it is known, or it records the entitlement
and updates the machine it is about, creates one, or leaves the machines alone. -/
theorem applyBillingEvent_cases (store : MemoryState) (input : ApplyBillingEventInput) :
    (store.billingEvents.contains input.event.key = true ∧
        (store.applyBillingEvent input).2 = store) ∨
      (store.billingEvents.contains input.event.key = false ∧
        ∃ recorded : MemoryState, recorded.machines = store.machines ∧
          ((∃ machine, store.machineOfBillingEvent input = some machine ∧
              (store.applyBillingEvent input).2 = recorded.putMachine
                { machine.machineForBillingEvent input.event.nowMs input.entitlement
                    input.recoveryWindowMs with
                  revision := machine.revision + 1 }) ∨
            (∃ offerId provisioning, input.provisioning = some provisioning ∧
              input.entitlement.offerId = some offerId ∧
              (store.applyBillingEvent input).2 = recorded.putMachine
                (newMachineForBillingEvent input offerId provisioning)) ∨
            (store.applyBillingEvent input).2 = recorded)) := by
  unfold applyBillingEvent
  split
  · rename_i known
    exact .inl ⟨known, rfl⟩
  rename_i unknown
  refine .inr ⟨(Bool.not_eq_true _).mp unknown,
    { store.upsertEntitlement input.entitlement with
      billingEvents := store.billingEvents ++ [input.event.key] }, rfl, ?_⟩
  split
  · rename_i machine about
    exact .inl ⟨machine, about, rfl⟩
  split
  · rename_i machine created
    unfold machineForNewSubscription at created
    split at created
    · rename_i offerId provisioning offered provisioned
      split at created
      · cases created
        exact .inr (.inl ⟨offerId, provisioning, provisioned, offered, rfl⟩)
      · cases created
    · cases created
  · exact .inr (.inr rfl)

end MemoryState

def MachineCall.writesMachines : MachineCall → Bool
  | .compareAndSetMachine .. => true
  | .completeEnrollment .. => true
  | .claimDueMachines .. => true
  | .claimMachine .. => true
  | .saveReconciledMachine .. => true
  | _ => false

theorem machineService_leaves {request : MachineCall} (reads : request.writesMachines = false)
    (answer : Answer) (world : MachineWorld) :
    (machineService request answer world).2.store.machines = world.store.machines ∧
      world.deletedUsers ⊆ (machineService request answer world).2.deletedUsers := by
  have same : world.store.machines = world.store.machines ∧
      world.deletedUsers ⊆ world.deletedUsers := ⟨rfl, Subset.refl _⟩
  cases request with
  | recoverByLabel label =>
    simp only [machineService, MachineWorld.lookUpServer]
    split
    · exact same
    · exact same
  | create machineId label offer token =>
    simp only [machineService, MachineWorld.createServer]
    split
    · split
      · exact same
      · exact same
    · split
      · exact same
      · exact same
  | delete id =>
    simp only [machineService, MachineWorld.deleteServer]
    split
    · exact same
    · exact same
  | deleteUser accountId =>
    simp only [machineService]
    split
    · exact ⟨rfl, subset_append_left _ _⟩
    · exact same
  | compareAndSetMachine machine revision
  | completeEnrollment machine tokenHash revision
  | claimDueMachines input limit
  | claimMachine machineId input | saveReconciledMachine machine owner revision => cases reads
  | _ => exact same

namespace MachineWorld

def Follows (before after : MachineWorld) : Prop :=
  ∀ machineId machine, before.store.getMachine machineId = some machine →
    ∃ later, after.store.getMachine machineId = some later ∧
      machine.revision ≤ later.revision ∧ (later.revision = machine.revision → later = machine)

theorem Follows.refl (world : MachineWorld) : world.Follows world :=
  fun _ machine found => ⟨machine, found, Nat.le_refl _, fun _ => rfl⟩

theorem Follows.trans {first second third : MachineWorld} (before : first.Follows second)
    (after : second.Follows third) : first.Follows third := by
  intro machineId machine found
  obtain ⟨middle, second, raised, unchanged⟩ := before machineId machine found
  obtain ⟨last, third, further, still⟩ := after machineId middle second
  refine ⟨last, third, Nat.le_trans raised further, ?_⟩
  intro same
  have back : middle.revision = machine.revision := by omega
  rw [still (by omega), unchanged back]

def Knows (world : MachineWorld) (base : MachinePersistenceRecord) : Prop :=
  ∃ stored, world.store.getMachine base.machineId = some stored ∧
    base.revision ≤ stored.revision ∧ (stored.revision = base.revision → stored = base)

variable {base : MachinePersistenceRecord}

theorem Knows.of_get
    (found : world.store.getMachine base.machineId = some base) : world.Knows base :=
  ⟨base, found, Nat.le_refl _, fun _ => rfl⟩

theorem Knows.later {before after : MachineWorld}
    (knows : before.Knows base) (follows : before.Follows after) : after.Knows base := by
  obtain ⟨stored, found, raised, unchanged⟩ := knows
  obtain ⟨later, still, further, same⟩ := follows base.machineId stored found
  refine ⟨later, still, Nat.le_trans raised further, ?_⟩
  intro equal
  rw [same (by omega), unchanged (by omega)]

theorem Knows.stored {stored : MachinePersistenceRecord} (knows : world.Knows base)
    (found : world.store.getMachine base.machineId = some stored)
    (same : stored.revision = base.revision) : stored = base := by
  obtain ⟨other, present, _, unchanged⟩ := knows
  cases found.symm.trans present
  exact unchanged same

theorem Knows.earlier {before after : MachineWorld}
    (knows : before.Knows base) (follows : before.Follows after)
    (current : after.store.getMachine base.machineId = some base) :
    before.store.getMachine base.machineId = some base := by
  obtain ⟨stored, found, raised, unchanged⟩ := knows
  obtain ⟨later, still, further, _⟩ := follows base.machineId stored found
  cases current.symm.trans still
  rw [found, unchanged (by omega)]

end MachineWorld

end Zuse.Machines
