import Zuse.Data.InsertionMap
import Zuse.Machines.MachineRecords

namespace Zuse.Machines

open Data (InsertionMap)
open Billing (EntitlementStatus)

inductive CreateMachineOutcome where
  | created (machine : MachinePersistenceRecord)
  | existing (machine : MachinePersistenceRecord)
  | entitlementRequired
  | machineLimitReached

structure CreateMachineInput where
  accountId : String
  offerId : String
  sameKindOfferIds : List String
  idempotencyKey : String
  machineId : String
  provider : String
  providerLabel : String
  label : Option String := none
  nowMs : Int

structure ClaimInput where
  nowMs : Int
  owner : String
  leaseDurationMs : Int

structure ApplyBillingEventOutcome where
  duplicate : Bool
  machineCreated : Bool
  machine : Option MachinePersistenceRecord

namespace MachinePersistenceRecord

variable (machine : MachinePersistenceRecord)

def leaseFree (nowMs : Int) : Bool :=
  machine.leaseExpiresAtMs.all (· ≤ nowMs)

def claimed (input : ClaimInput) : MachinePersistenceRecord :=
  { machine with
    leaseOwner := some input.owner
    leaseExpiresAtMs := some (input.nowMs + input.leaseDurationMs)
    revision := machine.revision + 1 }

def isDue (nowMs : Int) : Bool :=
  machine.nextActionAtMs ≤ nowMs &&
    (machine.state ≠ .destroyed ||
      (machine.finalSnapshotId.isSome && machine.finalSnapshotDeleteAtMs.isSome)) &&
    machine.leaseFree nowMs

end MachinePersistenceRecord

def CreateMachineInput.machine (input : CreateMachineInput)
    (entitlement : EntitlementPersistenceRecord) : MachinePersistenceRecord where
  machineId := input.machineId
  accountId := input.accountId
  offerId := input.offerId
  idempotencyKey := input.idempotencyKey
  provider := input.provider
  providerLabel := input.providerLabel
  label := input.label
  state := .creating
  desiredState := .ready
  statusCode := .creationQueued
  entitlementId := entitlement.entitlementId
  paidThroughMs := entitlement.paidThroughMs
  nextActionAtMs := input.nowMs
  attemptCount := 0
  revision := 0
  createdAtMs := input.nowMs
  updatedAtMs := input.nowMs

def EntitlementPersistenceRecord.pays (entitlement : EntitlementPersistenceRecord)
    (accountId offerId : String) (nowMs : Int) : Bool :=
  entitlement.accountId = accountId && entitlement.offerId = some offerId &&
    entitlement.status ≠ .ended && entitlement.paidThroughMs.all (nowMs < ·)

def BillingEvent.key (event : BillingEvent) : String :=
  event.provider ++ "|" ++ event.eventId

structure MemoryState where
  machines : InsertionMap String MachinePersistenceRecord
  entitlements : InsertionMap String EntitlementPersistenceRecord
  billingEvents : List String

namespace MemoryState

variable (current : MemoryState)

def empty : MemoryState := ⟨.empty, .empty, []⟩

variable (machine : MachinePersistenceRecord)

def putMachine : MemoryState :=
  { current with machines := current.machines.set machine.machineId machine }

def upsertEntitlement (entitlement : EntitlementPersistenceRecord) : MemoryState :=
  { current with
    entitlements := current.entitlements.set entitlement.entitlementId entitlement }

def listEntitlements (accountId : String) : List EntitlementPersistenceRecord :=
  current.entitlements.values.filter fun entitlement => entitlement.accountId = accountId

def listMachines (accountId : String) : List MachinePersistenceRecord :=
  (current.machines.values.filter fun machine => machine.accountId = accountId).insertionSort
    fun left right => right.createdAtMs ≤ left.createdAtMs

def getMachine (machineId : String) : Option MachinePersistenceRecord :=
  current.machines.get? machineId

def findMachineByEnvironmentId (environmentId : String) : Option MachinePersistenceRecord :=
  current.machines.values.find? fun machine => machine.environmentId = some environmentId

def findMachineByEnrollmentHash (tokenHash : String) : Option MachinePersistenceRecord :=
  current.machines.values.find? fun machine => machine.enrollmentTokenHash = some tokenHash

/-- Whether a machine that is not destroyed is paid for by an entitlement. -/
def isAttached (entitlementId : String) : Bool :=
  current.machines.values.any fun machine =>
    machine.state ≠ .destroyed && machine.entitlementId = entitlementId

def eligibleEntitlement (accountId offerId : String) (nowMs : Int) :
    Option EntitlementPersistenceRecord :=
  current.entitlements.values.find? fun entitlement =>
    entitlement.pays accountId offerId nowMs && !current.isAttached entitlement.entitlementId

def hasActiveMachine (accountId : String) (sameKindOfferIds : List String) : Bool :=
  current.machines.values.any fun machine =>
    machine.accountId = accountId && sameKindOfferIds.contains machine.offerId &&
      machine.state ≠ .destroyed

def createMachine (input : CreateMachineInput) : CreateMachineOutcome × MemoryState :=
  let existing := current.machines.values.find? fun machine =>
    machine.accountId = input.accountId && machine.idempotencyKey = input.idempotencyKey
  match existing with
  | some machine => (.existing machine, current)
  | none =>
    if current.hasActiveMachine input.accountId input.sameKindOfferIds then
      (.machineLimitReached, current)
    else
      match current.eligibleEntitlement input.accountId input.offerId input.nowMs with
      | none => (.entitlementRequired, current)
      | some entitlement =>
        let machine := input.machine entitlement
        (.created machine, current.putMachine machine)

def compareAndSetMachine (expectedRevision : Nat) : Bool × MemoryState :=
  match current.getMachine machine.machineId with
  | none => (false, current)
  | some stored =>
    if stored.revision ≠ expectedRevision then (false, current)
    else (true, current.putMachine { machine with revision := expectedRevision + 1 })

def completeEnrollment
    (expectedEnrollmentTokenHash : String) (expectedRevision : Nat) : Bool × MemoryState :=
  match current.getMachine machine.machineId with
  | none => (false, current)
  | some stored =>
    if stored.revision ≠ expectedRevision ∨
        stored.enrollmentTokenHash ≠ some expectedEnrollmentTokenHash ∨
        stored.desiredState = .destroyed ∨ stored.state = .destroying ∨
        stored.state = .destroyed then
      (false, current)
    else (true, current.putMachine { machine with revision := expectedRevision + 1 })

def claimDueMachines (input : ClaimInput) (limit : Nat) :
    List MachinePersistenceRecord × MemoryState :=
  let due := (((current.machines.values.filter fun machine =>
      machine.isDue input.nowMs).insertionSort
        fun left right => left.nextActionAtMs ≤ right.nextActionAtMs).take limit).map
      fun machine => machine.claimed input
  (due, due.foldl putMachine current)

def claimMachine (machineId : String) (input : ClaimInput) :
    Option MachinePersistenceRecord × MemoryState :=
  match current.getMachine machineId with
  | none => (none, current)
  | some machine =>
    if machine.nextActionAtMs > input.nowMs ∨ machine.leaseFree input.nowMs = false then
      (none, current)
    else (some (machine.claimed input), current.putMachine (machine.claimed input))

def saveReconciledMachine (owner : String) (expectedRevision : Nat) : Bool × MemoryState :=
  match current.getMachine machine.machineId with
  | none => (false, current)
  | some stored =>
    if stored.leaseOwner ≠ some owner ∨ stored.revision ≠ expectedRevision then
      (false, current)
    else
      (true, current.putMachine
        { machine with
          leaseOwner := none, leaseExpiresAtMs := none, revision := expectedRevision + 1 })

def attachedMachine (entitlementId : String) : Option MachinePersistenceRecord :=
  current.machines.values.find? fun machine =>
    machine.entitlementId = entitlementId && machine.state ≠ .destroyed

variable (input : ApplyBillingEventInput)

def recoverableMachine : Option MachinePersistenceRecord :=
  current.machines.values.find? fun machine =>
    machine.accountId = input.entitlement.accountId &&
      input.sameKindOfferIds.contains machine.offerId && machine.state = .suspended &&
      machine.recoveryDeadlineMs.getD 0 > input.event.nowMs

/-- The machine that a billing event is about: the attached one, or one that it renews. -/
def machineOfBillingEvent : Option MachinePersistenceRecord :=
  match current.attachedMachine input.entitlement.entitlementId with
  | some machine => some machine
  | none =>
    if input.entitlement.status = .active ∧ input.entitlement.offerId.isSome ∧
        input.sameKindOfferIds ≠ [] then
      (current.recoverableMachine input).map fun machine =>
        machine.renewedMachineForBillingEvent input.event.nowMs input.entitlement
    else none

def machineForNewSubscription :
    Option MachinePersistenceRecord :=
  match input.entitlement.offerId, input.provisioning with
  | some offerId, some provisioning =>
    if input.entitlement.status = .active ∧
        current.hasActiveMachine input.entitlement.accountId input.sameKindOfferIds = false then
      some (newMachineForBillingEvent input offerId provisioning)
    else none
  | _, _ => none

def applyBillingEvent : ApplyBillingEventOutcome × MemoryState :=
  if current.billingEvents.contains input.event.key then
    (⟨true, false, current.attachedMachine input.entitlement.entitlementId⟩, current)
  else
    let recorded :=
      { current.upsertEntitlement input.entitlement with
        billingEvents := current.billingEvents ++ [input.event.key] }
    match current.machineOfBillingEvent input with
    | some machine =>
      let updated :=
        { machine.machineForBillingEvent input.event.nowMs input.entitlement
            input.recoveryWindowMs with
          revision := machine.revision + 1 }
      (⟨false, false, some updated⟩, recorded.putMachine updated)
    | none =>
      match current.machineForNewSubscription input with
      | some machine => (⟨false, true, some machine⟩, recorded.putMachine machine)
      | none => (⟨false, false, none⟩, recorded)

end MemoryState

end Zuse.Machines
