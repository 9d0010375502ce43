import Zuse.Machines.MachineStorePg
import Zuse.Machines.Revisions

namespace Zuse.Machines

open MachineTables

open Data (InsertionMap Table.any_of_same Table.find?_of_same)

def offerKind (offerId : String) : Option String :=
  (findMachineOffer offerId).map fun offer => offer.kind

namespace MachinePersistenceRecord

variable {machine stored other : MachinePersistenceRecord}

theorem conflicts_symm : machine.conflicts other = true → other.conflicts machine = true := by
  simp only [conflicts, Bool.or_eq_true, Bool.and_eq_true, decide_eq_true_eq]
  rintro (((⟨one, two⟩ | ⟨one, two⟩) | ⟨one, two⟩) | ⟨⟨zero, one⟩, two⟩)
  · exact .inl (.inl (.inl ⟨one.symm, two.symm⟩))
  · exact .inl (.inl (.inr ⟨two ▸ one, two.symm⟩))
  · exact .inl (.inr ⟨two ▸ one, two.symm⟩)
  · exact .inr ⟨⟨zero.symm, two ▸ one⟩, two.symm⟩

theorem conflicts_comm (machine other : MachinePersistenceRecord) :
    machine.conflicts other = other.conflicts machine :=
  Bool.eq_iff_iff.mpr ⟨conflicts_symm, conflicts_symm⟩

theorem conflicts_new (token : machine.enrollmentTokenHash = none)
    (environment : machine.environmentId = none) (server : machine.providerServerId = none)
    (request : other.accountId = machine.accountId →
      other.idempotencyKey ≠ machine.idempotencyKey) : machine.conflicts other = false := by
  simp only [conflicts, token, environment, server, Option.isSome_none, Bool.false_and,
    Bool.and_false, Bool.or_false]
  by_cases account : other.accountId = machine.accountId
  · rw [decide_eq_false (request account).symm, Bool.and_false]
  · rw [decide_eq_false (fun same => account same.symm), Bool.false_and]

structure Inserted (stored machine : MachinePersistenceRecord) : Prop where
  accountId : machine.accountId = stored.accountId
  offerId : machine.offerId = stored.offerId
  idempotencyKey : machine.idempotencyKey = stored.idempotencyKey
  provider : machine.provider = stored.provider
  providerLabel : machine.providerLabel = stored.providerLabel
  entitlementId : machine.entitlementId = stored.entitlementId
  createdAtMs : machine.createdAtMs = stored.createdAtMs

theorem written_eq (machineId : machine.machineId = stored.machineId)
    (inserted : stored.Inserted machine) (releaseLease : Bool) :
    stored.written machine releaseLease =
      { machine with
        leaseOwner := if releaseLease then none else machine.leaseOwner
        leaseExpiresAtMs := if releaseLease then none else machine.leaseExpiresAtMs
        revision := stored.revision + 1 } := by
  obtain ⟨accountId, offerId, idempotencyKey, provider, providerLabel, entitlementId,
    createdAtMs⟩ := inserted
  simp only [written, ← machineId, ← accountId, ← offerId, ← idempotencyKey, ← provider,
    ← providerLabel, ← entitlementId, ← createdAtMs]

/-- Two machines that are not destroyed share neither an entitlement nor an account and a
kind of offer. -/
def Separate (machine other : MachinePersistenceRecord) : Prop :=
  machine.state ≠ .destroyed → other.state ≠ .destroyed →
    machine.entitlementId ≠ other.entitlementId ∧
      ∀ kind, offerKind machine.offerId = some kind → offerKind other.offerId = some kind →
        machine.accountId ≠ other.accountId

theorem Separate.symm (separate : machine.Separate other) : other.Separate machine := by
  intro standing also
  obtain ⟨entitlements, kinds⟩ := separate also standing
  exact ⟨entitlements.symm, fun kind one two => (kinds kind two one).symm⟩

theorem Separate.rewritten (separate : stored.Separate other) (inserted : stored.Inserted machine)
    (gone : stored.state = .destroyed → machine.state = .destroyed) :
    machine.Separate other := by
  intro standing also
  have before : stored.state ≠ .destroyed := fun destroyed => standing (gone destroyed)
  rw [inserted.entitlementId, inserted.offerId, inserted.accountId]
  exact separate before also

end MachinePersistenceRecord

def EntitlementPersistenceRecord.undated (entitlement : EntitlementPersistenceRecord) :
    EntitlementPersistenceRecord := { entitlement with createdAtMs := 0 }

def consumedKey (consumed : String × String) : String :=
  (⟨consumed.1, consumed.2, 0⟩ : BillingEvent).key

/-- Both stores hold the same machines and consumed events, and the same entitlements: with
the times of their creation where `dated` holds. -/
structure Agrees (dated : Prop) (memory : MemoryState) (tables : MachineTables) : Prop where
  keyed : memory.Keyed
  machines : ∀ machineId, tables.getMachine machineId = memory.getMachine machineId
  filed : ∀ entitlementId entitlement,
    memory.entitlements.get? entitlementId = some entitlement →
      entitlement.entitlementId = entitlementId
  entitlements : ∀ entitlementId,
    (tables.entitlements.get? entitlementId).map (·.undated) =
      (memory.entitlements.get? entitlementId).map (·.undated)
  created : dated → ∀ entitlementId,
    tables.entitlements.get? entitlementId = memory.entitlements.get? entitlementId
  billingEvents : memory.billingEvents = tables.billingEvents.map consumedKey
  apart : ∀ machineId otherId machine other, memory.getMachine machineId = some machine →
    memory.getMachine otherId = some other → machineId ≠ otherId → machine.conflicts other = false
  separate : ∀ machineId otherId machine other, memory.getMachine machineId = some machine →
    memory.getMachine otherId = some other → machineId ≠ otherId → machine.Separate other

/-- The condition of the statement that saves over a stored record. -/
abbrev MachinePersistenceRecord.Admits (stored : MachinePersistenceRecord)
    (leaseOwner : Option String) (expectedRevision : Option Nat) (tokenHash : Option String) :
    Prop :=
  leaseOwner.all (fun owner => stored.leaseOwner = some owner) = true ∧
    expectedRevision.all (fun revision => stored.revision = revision) = true ∧
    tokenHash.all (fun tokenHash => stored.enrollmentTokenHash = some tokenHash &&
      stored.desiredState ≠ .destroyed && stored.state ≠ .destroying &&
        stored.state ≠ .destroyed) = true

/-- The other machines of the store have the property. -/
def Others (memory : MemoryState) (machine : MachinePersistenceRecord)
    (property : MachinePersistenceRecord → Prop) : Prop :=
  ∀ otherId other, memory.getMachine otherId = some other →
    otherId ≠ machine.machineId → property other

namespace Agrees

variable {dated : Prop} {memory : MemoryState} {tables : MachineTables} {order : RowOrder}
  {machine stored other : MachinePersistenceRecord}

section

variable (agrees : Agrees dated memory tables)
include agrees

theorem mem_rows (order : RowOrder) (machine : MachinePersistenceRecord) :
    machine ∈ memory.machines.values ↔ machine ∈ tables.machineRows order := by
  rw [machineRows, (order.machines_perm _).mem_iff, InsertionMap.mem_values,
    InsertionMap.mem_values]
  exact exists_congr fun machineId => by
    rw [show tables.machines.get? machineId = memory.machines.get? machineId from
      agrees.machines machineId]

theorem get_of_mem (member : machine ∈ memory.machines.values) :
    memory.getMachine machine.machineId = some machine :=
  agrees.keyed.get_of_mem member

theorem eq_of_id (member : machine ∈ memory.machines.values)
    (also : other ∈ memory.machines.values) (same : machine.machineId = other.machineId) :
    machine = other := by
  have here := agrees.get_of_mem member
  rw [same, agrees.get_of_mem also] at here
  cases here
  rfl

theorem indexed (free : Others memory machine (machine.conflicts · = false)) :
    tables.indexed machine = true := by
  rw [MachineTables.indexed, List.all_eq_true]
  intro other member
  obtain ⟨otherId, found⟩ := InsertionMap.mem_values.mp member
  have present : memory.getMachine otherId = some other :=
    (agrees.machines otherId).symm.trans found
  have named := agrees.keyed otherId other present
  by_cases same : other.machineId = machine.machineId
  · rw [decide_eq_true same]
    rfl
  · rw [free otherId other present (fun equal => same (named.trans equal))]
    simp

end

theorem pairs_put {related : MachinePersistenceRecord → MachinePersistenceRecord → Prop}
    (symm : ∀ {first second}, related first second → related second first)
    (before : ∀ machineId otherId first second, memory.getMachine machineId = some first →
      memory.getMachine otherId = some second → machineId ≠ otherId → related first second)
    (new : Others memory machine (related machine)) :
    ∀ machineId otherId first second,
      (memory.putMachine machine).getMachine machineId = some first →
        (memory.putMachine machine).getMachine otherId = some second →
          machineId ≠ otherId → related first second := by
  intro firstId secondId first second one two different
  rw [MemoryState.getMachine_putMachine] at one two
  split at one
  · rename_i here
    cases one
    split at two
    · rename_i there
      exact absurd (here.symm.trans there) different
    · exact new secondId second two (fun same => different (here.symm.trans same.symm))
  split at two
  · rename_i there
    cases two
    exact symm (new firstId first one (fun same => different (same.trans there)))
  · exact before firstId secondId first second one two different

theorem put (agrees : Agrees dated memory tables)
    (free : Others memory machine (machine.conflicts · = false))
    (separate : Others memory machine machine.Separate) :
    Agrees dated (memory.putMachine machine) (tables.putMachine machine) :=
  { agrees with
    keyed := agrees.keyed.put machine
    machines := by
      intro other
      rw [MemoryState.getMachine_putMachine, getMachine, putMachine, InsertionMap.get?_set]
      split
      · rfl
      · exact agrees.machines other
    apart := pairs_put
      (fun free => (MachinePersistenceRecord.conflicts_comm _ _).trans free) agrees.apart free
    separate := pairs_put MachinePersistenceRecord.Separate.symm agrees.separate separate }

theorem rewritten (agrees : Agrees dated memory tables)
    (found : memory.getMachine stored.machineId = some stored)
    (machineId : machine.machineId = stored.machineId) (inserted : stored.Inserted machine)
    (gone : stored.state = .destroyed → machine.state = .destroyed)
    (free : Others memory machine (machine.conflicts · = false)) :
    Agrees dated (memory.putMachine machine) (tables.putMachine machine) := by
  refine agrees.put free ?_
  intro otherId other present elsewhere
  have before := agrees.separate stored.machineId otherId stored other found present
    (fun same => elsewhere (same.symm.trans machineId.symm))
  exact before.rewritten inserted gone

variable (machine) in
theorem insertMachine (agrees : Agrees dated memory tables)
    (absent : memory.getMachine machine.machineId = none)
    (free : Others memory machine (machine.conflicts · = false))
    (separate : Others memory machine machine.Separate) :
    tables.insertMachine machine = some (machine, tables.putMachine machine) ∧
      Agrees dated (memory.putMachine machine) (tables.putMachine machine) := by
  refine ⟨?_, agrees.put free separate⟩
  rw [MachineTables.insertMachine, if_pos]
  refine ⟨?_, agrees.indexed free⟩
  rw [agrees.machines, absent]
  rfl

end Agrees

/-- An entitlement that is recorded again is still of its account and its subscription; and
of the same time, where `dated` holds. -/
structure Refiles (dated : Prop) (tables : MachineTables)
    (entitlement : EntitlementPersistenceRecord) : Prop where
  same : ∀ stored, tables.entitlements.get? entitlement.entitlementId = some stored →
    entitlement.accountId = stored.accountId ∧ entitlement.provider = stored.provider ∧
      entitlement.providerSubscriptionId = stored.providerSubscriptionId
  created : dated → ∀ stored,
    tables.entitlements.get? entitlement.entitlementId = some stored →
      entitlement.createdAtMs = stored.createdAtMs

namespace Agrees

variable {dated : Prop} {memory : MemoryState} {tables : MachineTables} {order : RowOrder}

variable (agrees : Agrees dated memory tables)
include agrees

theorem upserted {entitlement : EntitlementPersistenceRecord}
    (refiles : Refiles dated tables entitlement) :
    Agrees dated (memory.upsertEntitlement entitlement) (tables.upsertEntitlement entitlement) := by
  have named : ∀ stored,
      tables.entitlements.get? entitlement.entitlementId = some stored →
        stored.entitlementId = entitlement.entitlementId := by
    intro stored found
    have same := agrees.entitlements entitlement.entitlementId
    rw [found] at same
    obtain ⟨other, present, equal⟩ := Option.map_eq_some_iff.mp same.symm
    have filed := agrees.filed entitlement.entitlementId other present
    have ids := congrArg (fun item : EntitlementPersistenceRecord => item.entitlementId) equal
    exact ids.symm.trans filed
  have excluded : ∀ stored,
      tables.entitlements.get? entitlement.entitlementId = some stored →
        stored.excluded entitlement =
          { entitlement with createdAtMs := stored.createdAtMs } := by
    intro stored found
    obtain ⟨account, provider, subscription⟩ := refiles.same stored found
    simp only [EntitlementPersistenceRecord.excluded, account, provider, subscription,
      named stored found]
  refine { agrees with
    filed := ?_
    entitlements := ?_
    created := ?_ }
  · intro id stored found
    rw [MemoryState.upsertEntitlement] at found
    obtain ⟨same, rfl⟩ | found := InsertionMap.get?_set_cases found
    · exact same
    · exact agrees.filed id stored found
  · intro id
    rw [MemoryState.upsertEntitlement, upsertEntitlement, InsertionMap.get?_set,
      InsertionMap.get?_set]
    split
    · cases found : tables.entitlements.get? entitlement.entitlementId with
      | none => rfl
      | some stored =>
        dsimp only
        rw [excluded stored found]
        rfl
    · exact agrees.entitlements id
  · intro exact_ id
    rw [MemoryState.upsertEntitlement, upsertEntitlement, InsertionMap.get?_set,
      InsertionMap.get?_set]
    split
    · cases found : tables.entitlements.get? entitlement.entitlementId with
      | none => rfl
      | some stored =>
        dsimp only
        rw [excluded stored found, ← refiles.created exact_ stored found]
    · exact agrees.created exact_ id

variable {machine : MachinePersistenceRecord} {leaseOwner tokenHash : Option String}
  {expectedRevision : Option Nat}

theorem saved {stored : MachinePersistenceRecord} (releaseLease : Bool)
    (found : memory.getMachine machine.machineId = some stored) (inserted : stored.Inserted machine)
    (gone : stored.state = .destroyed → machine.state = .destroyed)
    (free : Others memory machine (machine.conflicts · = false))
    (admits : stored.Admits leaseOwner expectedRevision tokenHash) :
    let record : MachinePersistenceRecord :=
      { machine with
        leaseOwner := if releaseLease then none else machine.leaseOwner
        leaseExpiresAtMs := if releaseLease then none else machine.leaseExpiresAtMs
        revision := stored.revision + 1 }
    tables.save machine leaseOwner releaseLease tokenHash expectedRevision =
        some (true, tables.putMachine record) ∧
      Agrees dated (memory.putMachine record) (tables.putMachine record) := by
  intro record
  have machineId : machine.machineId = stored.machineId :=
    (agrees.keyed _ stored found).symm
  have here : stored.written machine releaseLease = record :=
    MachinePersistenceRecord.written_eq machineId inserted releaseLease
  have present : memory.getMachine stored.machineId = some stored := machineId ▸ found
  have kept : stored.Inserted record :=
    ⟨inserted.accountId, inserted.offerId, inserted.idempotencyKey, inserted.provider,
      inserted.providerLabel, inserted.entitlementId, inserted.createdAtMs⟩
  refine ⟨?_, agrees.rewritten present machineId kept gone free⟩
  unfold save
  rw [agrees.machines, found]
  dsimp only
  have admitted : tables.indexed record = true := agrees.indexed free
  rw [if_pos admits, here, if_pos admitted]

theorem unsaved {releaseLease : Bool}
    (refused : ∀ stored, memory.getMachine machine.machineId = some stored →
      ¬stored.Admits leaseOwner expectedRevision tokenHash) :
    tables.save machine leaseOwner releaseLease tokenHash expectedRevision =
      some (false, tables) := by
  unfold save
  rw [agrees.machines]
  cases found : memory.getMachine machine.machineId with
  | none => rfl
  | some stored =>
    dsimp only
    rw [if_neg (refused stored found)]

end Agrees

end Zuse.Machines
