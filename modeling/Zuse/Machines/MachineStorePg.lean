import Zuse.Machines.MachineStore

namespace Zuse.Machines

open Data (InsertionMap)
open Billing (EntitlementStatus)

/-! The machine store in the database: the tables of machines, entitlements and billing
events, and the statements on them. -/

structure MachineTables where
  machines : InsertionMap String MachinePersistenceRecord
  entitlements : InsertionMap String EntitlementPersistenceRecord
  billingEvents : List (String × String)

/-- An order in which the database visits rows where a query names none. -/
structure RowOrder where
  machines : List MachinePersistenceRecord → List MachinePersistenceRecord
  entitlements : List EntitlementPersistenceRecord → List EntitlementPersistenceRecord
  machines_perm : ∀ rows, (machines rows).Perm rows
  entitlements_perm : ∀ rows, (entitlements rows).Perm rows

def RowOrder.inserted : RowOrder := ⟨id, id, fun _ => .refl _, fun _ => .refl _⟩

/-- What a transaction returns and leaves, unless one of its statements fails. -/
abbrev PgResult (α : Type) := Option (α × MachineTables)

namespace MachinePersistenceRecord

def written (stored machine : MachinePersistenceRecord) (releaseLease : Bool) :
    MachinePersistenceRecord :=
  { stored with
    environmentId := machine.environmentId
    providerServerId := machine.providerServerId
    label := machine.label
    state := machine.state
    desiredState := machine.desiredState
    statusCode := machine.statusCode
    bootPhase := machine.bootPhase
    stableFailureCode := machine.stableFailureCode
    lastError := machine.lastError
    enrollmentTokenHash := machine.enrollmentTokenHash
    enrollmentExpiresAtMs := machine.enrollmentExpiresAtMs
    enrolledEnvironmentPublicKey := machine.enrolledEnvironmentPublicKey
    finalSnapshotId := machine.finalSnapshotId
    finalSnapshotDeleteAtMs := machine.finalSnapshotDeleteAtMs
    paidThroughMs := machine.paidThroughMs
    recoveryDeadlineMs := machine.recoveryDeadlineMs
    accountDeletionRequestedAtMs := machine.accountDeletionRequestedAtMs
    credentialCleanupRequestedAtMs := machine.credentialCleanupRequestedAtMs
    credentialCleanupDeadlineMs := machine.credentialCleanupDeadlineMs
    credentialCleanupCompletedAtMs := machine.credentialCleanupCompletedAtMs
    finalSnapshotSkipped := machine.finalSnapshotSkipped
    nextActionAtMs := machine.nextActionAtMs
    attemptCount := machine.attemptCount
    leaseOwner := if releaseLease then none else machine.leaseOwner
    leaseExpiresAtMs := if releaseLease then none else machine.leaseExpiresAtMs
    revision := stored.revision + 1
    updatedAtMs := machine.updatedAtMs
    suspendedAtMs := machine.suspendedAtMs
    destroyedAtMs := machine.destroyedAtMs }

/-- Whether two rows share what a unique index lets only one row have. -/
def conflicts (row other : MachinePersistenceRecord) : Bool :=
  (row.accountId = other.accountId && row.idempotencyKey = other.idempotencyKey) ||
    (row.enrollmentTokenHash.isSome && row.enrollmentTokenHash = other.enrollmentTokenHash) ||
    (row.environmentId.isSome && row.environmentId = other.environmentId) ||
    (row.provider = other.provider && row.providerServerId.isSome &&
      row.providerServerId = other.providerServerId)

end MachinePersistenceRecord

def EntitlementPersistenceRecord.excluded (stored entitlement : EntitlementPersistenceRecord) :
    EntitlementPersistenceRecord :=
  { stored with
    kind := entitlement.kind
    offerId := entitlement.offerId
    status := entitlement.status
    periodStartMs := entitlement.periodStartMs
    paidThroughMs := entitlement.paidThroughMs
    endedAtMs := entitlement.endedAtMs
    creditBalance := entitlement.creditBalance
    updatedAtMs := entitlement.updatedAtMs }

namespace MachineTables

variable (tables : MachineTables) (order : RowOrder)

def empty : MachineTables := ⟨.empty, .empty, []⟩

def getMachine (machineId : String) : Option MachinePersistenceRecord :=
  tables.machines.get? machineId

def machineRows : List MachinePersistenceRecord := order.machines tables.machines.values

def entitlementRows : List EntitlementPersistenceRecord :=
  order.entitlements tables.entitlements.values

/-- Whether the unique indexes admit a row beside those of the other machines. -/
def indexed (row : MachinePersistenceRecord) : Bool :=
  tables.machines.values.all fun other =>
    other.machineId = row.machineId || !row.conflicts other

def putMachine (row : MachinePersistenceRecord) : MachineTables :=
  { tables with machines := tables.machines.set row.machineId row }

def insertMachine (row : MachinePersistenceRecord) : PgResult MachinePersistenceRecord :=
  if (tables.getMachine row.machineId).isNone ∧ tables.indexed row then
    some (row, tables.putMachine row)
  else none

def save (machine : MachinePersistenceRecord) (leaseOwner : Option String)
    (releaseLease : Bool) (expectedEnrollmentTokenHash : Option String)
    (expectedRevision : Option Nat) : PgResult Bool :=
  match tables.getMachine machine.machineId with
  | none => some (false, tables)
  | some stored =>
    if (leaseOwner.all fun owner => stored.leaseOwner = some owner) ∧
        (expectedRevision.all fun revision => stored.revision = revision) ∧
        (expectedEnrollmentTokenHash.all fun tokenHash =>
          stored.enrollmentTokenHash = some tokenHash && stored.desiredState ≠ .destroyed &&
            stored.state ≠ .destroying && stored.state ≠ .destroyed) then
      if tables.indexed (stored.written machine releaseLease) then
        some (true, tables.putMachine (stored.written machine releaseLease))
      else none
    else some (false, tables)

def upsertEntitlement (entitlement : EntitlementPersistenceRecord) : MachineTables :=
  { tables with
    entitlements := tables.entitlements.set entitlement.entitlementId
      (match tables.entitlements.get? entitlement.entitlementId with
      | none => entitlement
      | some stored => stored.excluded entitlement) }

/-- Whether a machine that is not destroyed is paid for by an entitlement. -/
def isAttached (entitlementId : String) : Bool :=
  (tables.machineRows order).any fun machine =>
    machine.entitlementId = entitlementId && machine.state ≠ .destroyed

def eligibleEntitlement (accountId offerId : String) (nowMs : Int) :
    Option EntitlementPersistenceRecord :=
  (((tables.entitlementRows order).filter fun entitlement =>
    entitlement.pays accountId offerId nowMs &&
      !tables.isAttached order entitlement.entitlementId).insertionSort
        fun left right => left.createdAtMs ≤ right.createdAtMs).head?

def hasActiveMachine (accountId : String) (sameKindOfferIds : List String) : Bool :=
  (tables.machineRows order).any fun machine =>
    machine.accountId = accountId && sameKindOfferIds.contains machine.offerId &&
      machine.state ≠ .destroyed

/-- A machine is created in one transaction; a list of no offers is no SQL. -/
def createMachine (input : CreateMachineInput) : PgResult CreateMachineOutcome :=
  let existing := (tables.machineRows order).find? fun machine =>
    machine.accountId = input.accountId && machine.idempotencyKey = input.idempotencyKey
  match existing with
  | some machine => some (.existing machine, tables)
  | none =>
    if input.sameKindOfferIds = [] then none
    else if tables.hasActiveMachine order input.accountId input.sameKindOfferIds then
      some (.machineLimitReached, tables)
    else
      match tables.eligibleEntitlement order input.accountId input.offerId input.nowMs with
      | none => some (.entitlementRequired, tables)
      | some entitlement =>
        (tables.insertMachine (input.machine entitlement)).map fun inserted =>
          (.created inserted.1, inserted.2)

def claimDueMachines (input : ClaimInput) (limit : Nat) :
    List MachinePersistenceRecord × MachineTables :=
  let due := ((((tables.machineRows order).filter fun machine =>
      machine.isDue input.nowMs).insertionSort
        fun left right => left.nextActionAtMs ≤ right.nextActionAtMs).take limit).map
      fun machine => machine.claimed input
  (order.machines due, due.foldl putMachine tables)

def claimMachine (machineId : String) (input : ClaimInput) :
    Option MachinePersistenceRecord × MachineTables :=
  match tables.getMachine machineId with
  | none => (none, tables)
  | some machine =>
    if machine.nextActionAtMs ≤ input.nowMs ∧ machine.leaseFree input.nowMs then
      (some (machine.claimed input), tables.putMachine (machine.claimed input))
    else (none, tables)

def attachedMachine (entitlementId : String) : Option MachinePersistenceRecord :=
  (tables.machineRows order).find? fun machine =>
    machine.entitlementId = entitlementId && machine.state ≠ .destroyed

def recoverableMachine (input : ApplyBillingEventInput) : Option MachinePersistenceRecord :=
  (tables.machineRows order).find? fun machine =>
    machine.accountId = input.entitlement.accountId &&
      input.sameKindOfferIds.contains machine.offerId && machine.state = .suspended &&
      machine.recoveryDeadlineMs.any (input.event.nowMs < ·)

def machineOfBillingEvent (input : ApplyBillingEventInput) : Option MachinePersistenceRecord :=
  match tables.attachedMachine order input.entitlement.entitlementId with
  | some machine => some machine
  | none =>
    if input.entitlement.status = .active ∧ input.entitlement.offerId.isSome ∧
        input.sameKindOfferIds ≠ [] then
      (tables.recoverableMachine order input).map fun machine =>
        machine.renewedMachineForBillingEvent input.event.nowMs input.entitlement
    else none

/-- The transaction of a billing event; the row lock that it holds lets its save through. -/
def applyBillingEvent (input : ApplyBillingEventInput) : PgResult ApplyBillingEventOutcome :=
  if tables.billingEvents.contains (input.event.provider, input.event.eventId) then
    some (⟨true, false, tables.attachedMachine order input.entitlement.entitlementId⟩, tables)
  else
    let recorded :=
      { tables.upsertEntitlement input.entitlement with
        billingEvents :=
          tables.billingEvents ++ [(input.event.provider, input.event.eventId)] }
    match recorded.machineOfBillingEvent order input with
    | some machine =>
      let updated := machine.machineForBillingEvent input.event.nowMs input.entitlement
        input.recoveryWindowMs
      match recorded.save updated none false none (some machine.revision) with
      | some (true, saved) =>
        some (⟨false, false, some { updated with revision := machine.revision + 1 }⟩, saved)
      | _ => none
    | none =>
      match input.entitlement.offerId, input.provisioning with
      | some offerId, some provisioning =>
        if input.entitlement.status ≠ .active then some (⟨false, false, none⟩, recorded)
        else if input.sameKindOfferIds = [] then none
        else if recorded.hasActiveMachine order input.entitlement.accountId
            input.sameKindOfferIds then
          some (⟨false, false, none⟩, recorded)
        else
          (recorded.insertMachine (newMachineForBillingEvent input offerId
            provisioning)).map fun inserted =>
              (⟨false, true, some inserted.1⟩, inserted.2)
      | _, _ => some (⟨false, false, none⟩, recorded)

end MachineTables

inductive MachineStoreCall where
  | createMachine (input : CreateMachineInput)
  | applyBillingEvent (input : ApplyBillingEventInput)
  | upsertEntitlement (entitlement : EntitlementPersistenceRecord)
  | compareAndSetMachine (machine : MachinePersistenceRecord) (expectedRevision : Nat)
  | completeEnrollment (machine : MachinePersistenceRecord)
      (expectedEnrollmentTokenHash : String) (expectedRevision : Nat)
  | claimDueMachines (input : ClaimInput) (limit : Nat)
  | claimMachine (machineId : String) (input : ClaimInput)
  | saveReconciledMachine (machine : MachinePersistenceRecord) (owner : String)
      (expectedRevision : Nat)

/-- What a call returns; one whose statement fails dies. -/
inductive MachineStoreOutcome where
  | created (outcome : CreateMachineOutcome)
  | applied (outcome : ApplyBillingEventOutcome)
  | upserted
  | saved (done : Bool)
  | due (machines : List MachinePersistenceRecord)
  | claimed (machine : Option MachinePersistenceRecord)
  | died

def MemoryState.perform (current : MemoryState) :
    MachineStoreCall → MachineStoreOutcome × MemoryState
  | .createMachine input => (current.createMachine input).map .created id
  | .applyBillingEvent input => (current.applyBillingEvent input).map .applied id
  | .upsertEntitlement entitlement => (.upserted, current.upsertEntitlement entitlement)
  | .compareAndSetMachine machine expectedRevision =>
    (current.compareAndSetMachine machine expectedRevision).map .saved id
  | .completeEnrollment machine tokenHash expectedRevision =>
    (current.completeEnrollment machine tokenHash expectedRevision).map .saved id
  | .claimDueMachines input limit => (current.claimDueMachines input limit).map .due id
  | .claimMachine machineId input => (current.claimMachine machineId input).map .claimed id
  | .saveReconciledMachine machine owner expectedRevision =>
    (current.saveReconciledMachine machine owner expectedRevision).map .saved id

/-- The outcome of a transaction; one that fails leaves the tables as they were. -/
def MachineTables.commit {α : Type} (tables : MachineTables)
    (outcome : α → MachineStoreOutcome) (result : PgResult α) :
    MachineStoreOutcome × MachineTables :=
  match result with
  | none => (.died, tables)
  | some (value, after) => (outcome value, after)

def MachineTables.perform (tables : MachineTables) (order : RowOrder) :
    MachineStoreCall → MachineStoreOutcome × MachineTables
  | .createMachine input => tables.commit .created (tables.createMachine order input)
  | .applyBillingEvent input => tables.commit .applied (tables.applyBillingEvent order input)
  | .upsertEntitlement entitlement => (.upserted, tables.upsertEntitlement entitlement)
  | .compareAndSetMachine machine expectedRevision =>
    tables.commit .saved (tables.save machine none false none (some expectedRevision))
  | .completeEnrollment machine tokenHash expectedRevision =>
    tables.commit .saved (tables.save machine none false (some tokenHash) (some expectedRevision))
  | .claimDueMachines input limit => (tables.claimDueMachines order input limit).map .due id
  | .claimMachine machineId input => (tables.claimMachine machineId input).map .claimed id
  | .saveReconciledMachine machine owner expectedRevision =>
    tables.commit .saved (tables.save machine (some owner) true none (some expectedRevision))

end Zuse.Machines
