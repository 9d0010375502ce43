import Zuse.Billing.ProviderMetering

namespace Zuse.Machines

open Billing (EntitlementStatus cloudWorkspaceOfferId)

inductive MachineState where
  | creating
  | bootstrapping
  | enrolling
  | ready
  | suspending
  | suspended
  | resuming
  | destroying
  | destroyed
  | failed
  deriving DecidableEq

inductive DesiredMachineState where
  | ready
  | suspended
  | destroyed
  deriving DecidableEq

inductive MachineStatusCode where
  | creationQueued
  | providerProvisioning
  | bootstrapPending
  | enrollmentPending
  | ready
  | suspensionQueued
  | suspended
  | resumeQueued
  | cancellationScheduled
  | recoveryAvailable
  | destructionQueued
  | destroyed
  | providerUnavailable
  | bootstrapFailed
  | enrollmentFailed
  | reconciliationFailed
  deriving DecidableEq

def MachineStatusCode.text : MachineStatusCode → String
  | .creationQueued => "creation-queued"
  | .providerProvisioning => "provider-provisioning"
  | .bootstrapPending => "bootstrap-pending"
  | .enrollmentPending => "enrollment-pending"
  | .ready => "ready"
  | .suspensionQueued => "suspension-queued"
  | .suspended => "suspended"
  | .resumeQueued => "resume-queued"
  | .cancellationScheduled => "cancellation-scheduled"
  | .recoveryAvailable => "recovery-available"
  | .destructionQueued => "destruction-queued"
  | .destroyed => "destroyed"
  | .providerUnavailable => "provider-unavailable"
  | .bootstrapFailed => "bootstrap-failed"
  | .enrollmentFailed => "enrollment-failed"
  | .reconciliationFailed => "reconciliation-failed"

inductive MachineBootPhase where
  | bootstrapStarted
  | runtimeInstalled
  | developerToolsInstalled
  | zuseStarted
  | accountSetupAvailable
  | serviceStarted
  | failed
  deriving DecidableEq

structure MachinePersistenceRecord where
  machineId : String
  accountId : String
  offerId : String
  idempotencyKey : String
  environmentId : Option String := none
  provider : String
  providerServerId : Option String := none
  providerLabel : String
  label : Option String := none
  state : MachineState
  desiredState : DesiredMachineState
  statusCode : MachineStatusCode
  bootPhase : Option MachineBootPhase := none
  stableFailureCode : Option String := none
  lastError : Option String := none
  entitlementId : String
  enrollmentTokenHash : Option String := none
  enrollmentExpiresAtMs : Option Int := none
  enrolledEnvironmentPublicKey : Option String := none
  finalSnapshotId : Option String := none
  finalSnapshotDeleteAtMs : Option Int := none
  paidThroughMs : Option Int := none
  recoveryDeadlineMs : Option Int := none
  accountDeletionRequestedAtMs : Option Int := none
  credentialCleanupRequestedAtMs : Option Int := none
  credentialCleanupDeadlineMs : Option Int := none
  credentialCleanupCompletedAtMs : Option Int := none
  finalSnapshotSkipped : Bool := false
  nextActionAtMs : Int
  attemptCount : Nat
  leaseOwner : Option String := none
  leaseExpiresAtMs : Option Int := none
  revision : Nat
  createdAtMs : Int
  updatedAtMs : Int
  suspendedAtMs : Option Int := none
  destroyedAtMs : Option Int := none
  deriving DecidableEq

inductive EntitlementKind where
  | persistentMachine
  | cloudWorkspace
  | usageCredits
  deriving DecidableEq

structure EntitlementPersistenceRecord where
  entitlementId : String
  accountId : String
  kind : EntitlementKind
  offerId : Option String := none
  provider : String
  providerSubscriptionId : Option String := none
  status : EntitlementStatus
  periodStartMs : Option Int := none
  paidThroughMs : Option Int := none
  endedAtMs : Option Int := none
  creditBalance : Option Int := none
  createdAtMs : Int
  updatedAtMs : Int
  deriving DecidableEq

/-- `Number.MAX_SAFE_INTEGER`, the time of an action that is never due. -/
def maxSafeInteger : Int := 9007199254740991

structure MachineOffer where
  offerId : String
  kind : String

def persistentStandardOffer : MachineOffer := ⟨"persistent-standard-v1", "persistent"⟩

def machineOffers : List MachineOffer := [persistentStandardOffer]

def findMachineOffer (offerId : String) : Option MachineOffer :=
  machineOffers.find? fun offer => offer.offerId = offerId

def offerIdsOfKind (kind : String) : List String :=
  (machineOffers.filter fun offer => offer.kind = kind).map fun offer => offer.offerId

def maxReconcileAttempts : Nat := 8

def maxReconcileBackoffMs : Int := 15 * 60 * 1000

def retryAt (nowMs : Int) (attemptCount : Nat) : Int :=
  nowMs + min maxReconcileBackoffMs (5000 * 2 ^ min attemptCount maxReconcileAttempts)

inductive MachineProviderError where
  | transient
  | notFound
  | rejected
  deriving DecidableEq

namespace MachinePersistenceRecord

variable (machine : MachinePersistenceRecord) (nowMs : Int)

def withProviderFailure (error : MachineProviderError) : MachinePersistenceRecord :=
  let attemptCount := machine.attemptCount + 1
  let exhausted := attemptCount ≥ maxReconcileAttempts ∨ error = .rejected
  { machine with
    state := if exhausted then .failed else machine.state
    statusCode := if exhausted then .reconciliationFailed else .providerUnavailable
    stableFailureCode := some (if error = .rejected then "provider-rejected"
      else if error = .notFound then "provider-machine-missing"
      else "provider-temporarily-unavailable")
    attemptCount
    nextActionAtMs :=
      if exhausted then nowMs + maxReconcileBackoffMs else retryAt nowMs attemptCount
    updatedAtMs := nowMs }

def withBillingFailure : MachinePersistenceRecord :=
  let attemptCount := machine.attemptCount + 1
  { machine with
    state := .destroying
    statusCode := .reconciliationFailed
    stableFailureCode := some "billing-provider-unavailable"
    attemptCount
    nextActionAtMs := retryAt nowMs attemptCount
    updatedAtMs := nowMs }

def withCancellationBillingFailure : MachinePersistenceRecord :=
  let attemptCount := machine.attemptCount + 1
  { machine with
    statusCode := .reconciliationFailed
    stableFailureCode := some "billing-provider-unavailable"
    attemptCount
    nextActionAtMs := retryAt nowMs attemptCount
    updatedAtMs := nowMs }

def withMissingProviderMachine : MachinePersistenceRecord :=
  { machine with
    state := .failed
    statusCode := .reconciliationFailed
    stableFailureCode := some "provider-machine-missing"
    nextActionAtMs := maxSafeInteger
    updatedAtMs := nowMs }

def requestMachineDestruction
    (accountDeletionRequestedAtMs : Option Int := machine.accountDeletionRequestedAtMs) :
    MachinePersistenceRecord :=
  { machine with
    state := .destroying
    desiredState := .destroyed
    statusCode := .destructionQueued
    accountDeletionRequestedAtMs
    nextActionAtMs := nowMs
    updatedAtMs := nowMs }

def cancelled (recoveryWindowMs : Int) : MachinePersistenceRecord :=
  let paidThroughMs := machine.paidThroughMs.getD nowMs
  { machine with
    desiredState := .suspended
    statusCode := .cancellationScheduled
    paidThroughMs := some paidThroughMs
    recoveryDeadlineMs := some (paidThroughMs + recoveryWindowMs)
    nextActionAtMs := nowMs
    updatedAtMs := nowMs }

def recovered (entitlement : EntitlementPersistenceRecord) : MachinePersistenceRecord :=
  { machine with
    entitlementId := entitlement.entitlementId
    state := .resuming
    desiredState := .ready
    statusCode := .resumeQueued
    paidThroughMs := entitlement.paidThroughMs
    recoveryDeadlineMs := none
    nextActionAtMs := nowMs
    updatedAtMs := nowMs }

def hasReportedHealthyRuntime (phase : Option MachineBootPhase) : Bool :=
  phase = some .zuseStarted || phase = some .accountSetupAvailable

def markMachineReady : MachinePersistenceRecord :=
  { machine with
    state := .ready
    statusCode :=
      if machine.desiredState = .suspended then .cancellationScheduled else .ready
    stableFailureCode := none
    attemptCount := 0
    nextActionAtMs :=
      min (nowMs + 5 * 60 * 1000) (machine.paidThroughMs.getD maxSafeInteger)
    updatedAtMs := nowMs }

end MachinePersistenceRecord

def bootPhaseOrder : MachineBootPhase → Option Nat
  | .bootstrapStarted => some 0
  | .runtimeInstalled => some 1
  | .developerToolsInstalled => some 2
  | .serviceStarted => some 3
  | .zuseStarted => some 4
  | .accountSetupAvailable => some 5
  | .failed => none

namespace MachinePersistenceRecord

variable (machine : MachinePersistenceRecord) (nowMs : Int)

def isDuplicateOrStaleBootPhase (phase : MachineBootPhase) : Bool :=
  match machine.bootPhase with
  | none => false
  | some current =>
    if phase = .failed then
      machine.state = .ready || current = .failed || (bootPhaseOrder current).any (4 ≤ ·)
    else
      (bootPhaseOrder current).any fun currentOrder =>
        (bootPhaseOrder phase).any (· ≤ currentOrder)

structure MachineBootStatusRequest where
  phase : MachineBootPhase
  statusCode : Option MachineStatusCode

def applyBootStatus (body : MachineBootStatusRequest) : MachinePersistenceRecord :=
  if machine.state = .ready ∧ body.phase ≠ .failed then
    { machine with bootPhase := some body.phase, updatedAtMs := nowMs }
  else if body.phase = .failed then
    { machine with
      bootPhase := some body.phase
      state := .failed
      statusCode := .bootstrapFailed
      stableFailureCode := some ((body.statusCode.map (·.text)).getD "bootstrap-failed")
      nextActionAtMs := nowMs + 15 * 60 * 1000
      updatedAtMs := nowMs }
  else
    let progress : MachinePersistenceRecord :=
      { machine with
        bootPhase := some body.phase
        stableFailureCode := none
        lastError := none
        updatedAtMs := nowMs }
    if machine.environmentId.isSome ∧ machine.enrolledEnvironmentPublicKey.isSome ∧
        hasReportedHealthyRuntime (some body.phase) then
      progress.markMachineReady nowMs
    else if machine.environmentId.isSome ∨ body.phase = .serviceStarted ∨
        body.phase = .zuseStarted ∨ body.phase = .accountSetupAvailable then
      { progress with
        state := .enrolling
        statusCode := .enrollmentPending
        nextActionAtMs := nowMs + 60000 }
    else
      { progress with
        state := .bootstrapping
        statusCode := .bootstrapPending
        nextActionAtMs := nowMs + 60000 }

def enrolled (environmentId environmentPublicKey : String) : MachinePersistenceRecord :=
  let enrolledMachine : MachinePersistenceRecord :=
    { machine with
      environmentId := some environmentId
      enrolledEnvironmentPublicKey := some environmentPublicKey
      state := .enrolling
      statusCode :=
        if machine.desiredState = .suspended then .cancellationScheduled
        else .enrollmentPending
      stableFailureCode := none
      attemptCount := 0
      nextActionAtMs := nowMs + 60000
      updatedAtMs := nowMs }
  if hasReportedHealthyRuntime machine.bootPhase then enrolledMachine.markMachineReady nowMs
  else enrolledMachine

def machineForBillingEvent (entitlement : EntitlementPersistenceRecord)
    (recoveryWindowMs : Int) : MachinePersistenceRecord :=
  let paidThroughMs := (entitlement.paidThroughMs <|> machine.paidThroughMs).getD nowMs
  if entitlement.status = .ended then
    { machine with
      desiredState := .suspended
      statusCode := .cancellationScheduled
      paidThroughMs := some paidThroughMs
      recoveryDeadlineMs := some (paidThroughMs + recoveryWindowMs)
      nextActionAtMs := max nowMs paidThroughMs
      updatedAtMs := nowMs }
  else
    { machine with
      paidThroughMs := some paidThroughMs
      nextActionAtMs :=
        if machine.desiredState = .ready then min machine.nextActionAtMs paidThroughMs
        else machine.nextActionAtMs
      updatedAtMs := nowMs }

def renewedMachineForBillingEvent (entitlement : EntitlementPersistenceRecord) :
    MachinePersistenceRecord :=
  { machine with
    entitlementId := entitlement.entitlementId
    state := .resuming
    desiredState := .ready
    statusCode := .resumeQueued
    paidThroughMs := entitlement.paidThroughMs
    recoveryDeadlineMs := none
    nextActionAtMs := nowMs
    attemptCount := 0
    stableFailureCode := none
    lastError := none
    updatedAtMs := nowMs }

end MachinePersistenceRecord

structure BillingProvisioningInput where
  machineId : String
  idempotencyKey : String
  provider : String
  providerLabel : String
  label : Option String := none

structure BillingEvent where
  provider : String
  eventId : String
  nowMs : Int

structure ApplyBillingEventInput where
  sameKindOfferIds : List String
  event : BillingEvent
  entitlement : EntitlementPersistenceRecord
  provisioning : Option BillingProvisioningInput
  recoveryWindowMs : Int

def newMachineForBillingEvent (input : ApplyBillingEventInput) (offerId : String)
    (provisioning : BillingProvisioningInput) : MachinePersistenceRecord where
  machineId := provisioning.machineId
  accountId := input.entitlement.accountId
  offerId
  idempotencyKey := provisioning.idempotencyKey
  provider := provisioning.provider
  providerLabel := provisioning.providerLabel
  label := provisioning.label
  state := .creating
  desiredState := .ready
  statusCode := .creationQueued
  entitlementId := input.entitlement.entitlementId
  paidThroughMs := input.entitlement.paidThroughMs
  nextActionAtMs := input.event.nowMs
  attemptCount := 0
  revision := 0
  createdAtMs := input.event.nowMs
  updatedAtMs := input.event.nowMs

end Zuse.Machines
