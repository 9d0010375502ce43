import Zuse.Data.Scripts
import Zuse.Machines.MachineStore

namespace Zuse.Machines

open Data (Script)

structure MachineControlConfig where
  allowlistedAccountIds : List String
  manualEntitlementsEnabled : Bool
  enrollmentTtlMs : Int
  recoveryWindowMs : Int
  finalSnapshotRetentionMs : Int
  reconcileLeaseMs : Int

inductive PowerState where
  | running
  | off

/-- The calls of passes and requests: to the compute provider, to the billing provider, to
the environments and their tunnels, to the account identities and to the machine store. -/
inductive MachineCall where
  | getProvider (provider : String)
  | recoverByLabel (providerLabel : String)
  | create (machineId providerLabel : String) (offer : MachineOffer) (enrollmentToken : String)
  | inspect (providerServerId : String)
  | powerOff (providerServerId : String)
  | powerOn (providerServerId : String)
  | snapshot (providerServerId label : String)
  | delete (providerServerId : String)
  | deleteSnapshot (snapshotId : String)
  | cancelProviderSubscription (providerId providerSubscriptionId : String)
  | randomToken
  | environmentTunnel (environmentId : String)
  | deprovision (tunnelId : String)
  | deleteEnvironment (environmentId accountId : String)
  | registerEnvironment (environmentId : String)
  | deleteUser (accountId : String)
  | listEntitlements (accountId : String)
  | upsertEntitlement (entitlement : EntitlementPersistenceRecord)
  | listMachines (accountId : String)
  | getMachine (machineId : String)
  | findMachineByEnvironmentId (environmentId : String)
  | findMachineByEnrollmentHash (tokenHash : String)
  | compareAndSetMachine (machine : MachinePersistenceRecord) (expectedRevision : Nat)
  | completeEnrollment (machine : MachinePersistenceRecord)
      (expectedEnrollmentTokenHash : String) (expectedRevision : Nat)
  | claimDueMachines (input : ClaimInput) (limit : Nat)
  | claimMachine (machineId : String) (input : ClaimInput)
  | saveReconciledMachine (machine : MachinePersistenceRecord) (owner : String)
      (expectedRevision : Nat)

abbrev ProviderResult (α : Type) := Except MachineProviderError α

abbrev MachineCall.Reply : MachineCall → Type
  | .getProvider _ => Bool
  | .recoverByLabel _ => ProviderResult (Option String)
  | .create .. => ProviderResult String
  | .inspect _ => ProviderResult (Option PowerState)
  | .powerOff _ => ProviderResult Unit
  | .powerOn _ => ProviderResult Unit
  | .snapshot .. => ProviderResult String
  | .delete _ => ProviderResult Unit
  | .deleteSnapshot _ => ProviderResult Unit
  | .cancelProviderSubscription .. => Bool
  | .randomToken => String
  | .environmentTunnel _ => Option String
  | .deprovision _ => Bool
  | .deleteEnvironment .. => Unit
  | .registerEnvironment _ => Bool
  | .deleteUser _ => Bool
  | .listEntitlements _ => List EntitlementPersistenceRecord
  | .upsertEntitlement _ => Unit
  | .listMachines _ => List MachinePersistenceRecord
  | .getMachine _ => Option MachinePersistenceRecord
  | .findMachineByEnvironmentId _ => Option MachinePersistenceRecord
  | .findMachineByEnrollmentHash _ => Option MachinePersistenceRecord
  | .compareAndSetMachine .. => Bool
  | .completeEnrollment .. => Bool
  | .claimDueMachines .. => List MachinePersistenceRecord
  | .claimMachine .. => Option MachinePersistenceRecord
  | .saveReconciledMachine .. => Bool

abbrev MachineScript := Script MachineCall MachineCall.Reply

abbrev ask (request : MachineCall) : MachineScript request.Reply := Script.perform request

namespace MachinePersistenceRecord

variable (machine : MachinePersistenceRecord) (nowMs : Int)

def retryableCreateFailure : Bool :=
  machine.state = .failed && machine.attemptCount < maxReconcileAttempts &&
    machine.stableFailureCode = some "provider-temporarily-unavailable"

/-- Whether a pass that wants the machine ready looks its server up by label. -/
def awaitsServer : Bool := machine.state = .creating || machine.retryableCreateFailure

/-- Whether a failed lookup or creation is the last one that is tried. -/
def failsForGood (error : MachineProviderError) : Bool :=
  error = .rejected || maxReconcileAttempts ≤ machine.attemptCount + 1

def withUnknownOffer : MachinePersistenceRecord :=
  { machine with
    state := .failed
    statusCode := .reconciliationFailed
    stableFailureCode := some "unknown-offer"
    nextActionAtMs := nowMs + maxReconcileBackoffMs
    updatedAtMs := nowMs }

def withServer (providerServerId : String) : MachinePersistenceRecord :=
  { machine with
    providerServerId := some providerServerId
    state := .bootstrapping
    statusCode := .bootstrapPending
    stableFailureCode := none
    lastError := none
    attemptCount := 0
    nextActionAtMs := nowMs + 60000
    updatedAtMs := nowMs }

def withEnrollmentToken (tokenHash : String) (enrollmentTtlMs : Int) :
    MachinePersistenceRecord :=
  { machine with
    enrollmentTokenHash := some tokenHash
    enrollmentExpiresAtMs := some (nowMs + enrollmentTtlMs)
    statusCode := .providerProvisioning
    updatedAtMs := nowMs }

def withBootTimeout : MachinePersistenceRecord :=
  { machine with
    state := .failed
    statusCode := if machine.state = .bootstrapping then .bootstrapFailed else .enrollmentFailed
    stableFailureCode := some
      (if machine.state = .bootstrapping then "bootstrap-timeout" else "enrollment-timeout")
    nextActionAtMs := maxSafeInteger
    updatedAtMs := nowMs }

def nextInspectionMs : Int :=
  min (nowMs + 5 * 60 * 1000) (machine.paidThroughMs.getD maxSafeInteger)

def asSuspended (suspendedAtMs : Option Int) : MachinePersistenceRecord :=
  { machine with
    state := .suspended
    statusCode := .recoveryAvailable
    suspendedAtMs
    nextActionAtMs := machine.recoveryDeadlineMs.getD maxSafeInteger
    updatedAtMs := nowMs }

def withoutFinalSnapshot (reason : String) : MachinePersistenceRecord :=
  { machine with
    finalSnapshotSkipped := true
    stableFailureCode := some "credential-cleanup-unverified"
    lastError := some ("Final snapshot skipped because " ++ reason)
    updatedAtMs := nowMs }

def asDestroying (nextActionAtMs : Int) : MachinePersistenceRecord :=
  { machine with
    state := .destroying
    statusCode := .destructionQueued
    nextActionAtMs
    updatedAtMs := nowMs }

def withCleanupFailure (stableFailureCode : String) : MachinePersistenceRecord :=
  { machine with
    statusCode := .reconciliationFailed
    stableFailureCode := some stableFailureCode
    attemptCount := machine.attemptCount + 1
    nextActionAtMs := retryAt nowMs (machine.attemptCount + 1)
    updatedAtMs := nowMs }

/-- The record of a destroyed machine; a deferred deletion of the account's identity stays
requested. -/
def asDestroyed (deferred : Bool) : MachinePersistenceRecord :=
  { machine with
    state := .destroyed
    statusCode := .destroyed
    environmentId := none
    providerServerId := none
    enrollmentTokenHash := none
    enrollmentExpiresAtMs := none
    destroyedAtMs := some nowMs
    accountDeletionRequestedAtMs :=
      if deferred then machine.accountDeletionRequestedAtMs else none
    attemptCount := 0
    nextActionAtMs :=
      if deferred then nowMs + 60000
      else machine.finalSnapshotDeleteAtMs.getD maxSafeInteger
    updatedAtMs := nowMs }

end MachinePersistenceRecord

section Targets

variable (sha256Hex : String → String) (config : MachineControlConfig)
  (machine : MachinePersistenceRecord) (nowMs : Int)

/-- Create the server of a machine that has none: save the token it will enroll with, then
ask the provider. -/
def createServer (offer : MachineOffer) : MachineScript MachinePersistenceRecord := do
  let enrollmentToken ← ask .randomToken
  let enrollmentTokenHash := sha256Hex enrollmentToken
  let tokenReady :=
    machine.withEnrollmentToken nowMs enrollmentTokenHash config.enrollmentTtlMs
  let tokenSaved ← ask (.compareAndSetMachine tokenReady machine.revision)
  if tokenSaved = false then pure machine
  else do
    let persistedTokenReady := { tokenReady with revision := machine.revision + 1 }
    let createdResult ← ask (.create machine.machineId machine.providerLabel offer enrollmentToken)
    match createdResult with
    | .error failure => pure (persistedTokenReady.withProviderFailure nowMs failure)
    | .ok created => pure (persistedTokenReady.withServer nowMs created)

def recoverServer : MachineScript MachinePersistenceRecord :=
  match findMachineOffer machine.offerId with
  | none => pure (machine.withUnknownOffer nowMs)
  | some offer => do
      let recoveredResult ← ask (.recoverByLabel machine.providerLabel)
      match recoveredResult with
      | .error failure => pure (machine.withProviderFailure nowMs failure)
      | .ok (some recovered) => pure (machine.withServer nowMs recovered)
      | .ok none => createServer sha256Hex config machine nowMs offer

def inspectBoot : MachineScript MachinePersistenceRecord :=
  match machine.providerServerId with
  | none => pure (machine.withMissingProviderMachine nowMs)
  | some providerServerId => do
      let inspected ← ask (.inspect providerServerId)
      match inspected with
      | .error failure => pure (machine.withProviderFailure nowMs failure)
      | .ok none => pure (machine.withMissingProviderMachine nowMs)
      | .ok (some _) =>
        if machine.enrollmentExpiresAtMs.all (· ≤ nowMs) then
          pure (machine.withBootTimeout nowMs)
        else
          pure { machine with
            attemptCount := 0, nextActionAtMs := nowMs + 60000, updatedAtMs := nowMs }

def resumeServer : MachineScript MachinePersistenceRecord :=
  match machine.providerServerId with
  | none =>
    pure { machine with
      state := .creating
      statusCode := .creationQueued
      nextActionAtMs := nowMs
      updatedAtMs := nowMs }
  | some providerServerId => do
      let result ← ask (.powerOn providerServerId)
      match result with
      | .error failure => pure (machine.withProviderFailure nowMs failure)
      | .ok () =>
        pure { machine with
          state := .ready
          statusCode := .ready
          stableFailureCode := none
          attemptCount := 0
          nextActionAtMs := machine.nextInspectionMs nowMs
          updatedAtMs := nowMs }

def inspectReady : MachineScript MachinePersistenceRecord :=
  match machine.providerServerId with
  | none => pure (machine.withMissingProviderMachine nowMs)
  | some providerServerId => do
      let inspected ← ask (.inspect providerServerId)
      match inspected with
      | .error failure => pure (machine.withProviderFailure nowMs failure)
      | .ok none => pure (machine.withMissingProviderMachine nowMs)
      | .ok (some _) =>
        pure { machine with
          statusCode :=
            if machine.desiredState = .suspended then .cancellationScheduled else .ready
          attemptCount := 0
          nextActionAtMs := machine.nextInspectionMs nowMs
          updatedAtMs := nowMs }

def reconcileReadyTarget : MachineScript MachinePersistenceRecord :=
  if machine.awaitsServer then recoverServer sha256Hex config machine nowMs
  else
    match machine.state with
    | .failed =>
      pure { machine with nextActionAtMs := maxSafeInteger, updatedAtMs := nowMs }
    | .bootstrapping => inspectBoot machine nowMs
    | .enrolling => inspectBoot machine nowMs
    | .resuming => resumeServer machine nowMs
    | .ready => inspectReady machine nowMs
    | _ =>
      pure { machine with
        nextActionAtMs := machine.paidThroughMs.getD maxSafeInteger, updatedAtMs := nowMs }

/-- Cancel the subscription that pays for a machine, where it has one; whether that
succeeded. -/
def cancelSubscription : MachineScript Bool := do
  let entitlements ← ask (.listEntitlements machine.accountId)
  let entitlement := entitlements.find? fun item => item.entitlementId = machine.entitlementId
  match entitlement.bind fun item =>
      item.providerSubscriptionId.map fun subscription => (item.provider, subscription) with
  | none => pure true
  | some (providerId, providerSubscriptionId) =>
    ask (.cancelProviderSubscription providerId providerSubscriptionId)

def suspendServer : MachineScript MachinePersistenceRecord :=
  match machine.providerServerId with
  | none => pure (machine.asSuspended nowMs (some nowMs))
  | some providerServerId => do
      let result ← ask (.powerOff providerServerId)
      match result with
      | .error failure =>
        pure (({ machine with state := .suspending }).withProviderFailure nowMs failure)
      | .ok () => pure { machine.asSuspended nowMs (some nowMs) with attemptCount := 0 }

def reconcileSuspendedTarget : MachineScript MachinePersistenceRecord :=
  if machine.state = .suspended then
    if machine.recoveryDeadlineMs.any (· ≤ nowMs) then
      pure (machine.requestMachineDestruction nowMs)
    else pure (machine.asSuspended nowMs machine.suspendedAtMs)
  else do
    let cancelled ← cancelSubscription machine
    if cancelled = false then pure (machine.withCancellationBillingFailure nowMs)
    else if machine.paidThroughMs.any (nowMs < ·) then
      reconcileReadyTarget sha256Hex config machine nowMs
    else suspendServer machine nowMs

inductive IdentityDeletion where
  | deleted
  | deferred
  | failed

def deleteAccountIdentityWhenInfrastructureIsClean : MachineScript IdentityDeletion := do
  let machines ← ask (.listMachines machine.accountId)
  let anotherMachineIsCleaning := machines.any fun other =>
    other.machineId ≠ machine.machineId && other.state ≠ .destroyed
  if anotherMachineIsCleaning then pure .deferred
  else do
    let entitlements ← ask (.listEntitlements machine.accountId)
    let billed := entitlements.any fun entitlement =>
      entitlement.kind = .cloudWorkspace &&
        (entitlement.status = .active || entitlement.status = .grace)
    if billed then pure .deferred
    else do
      let deleted ← ask (.deleteUser machine.accountId)
      pure (if deleted then .deleted else .failed)

/-- Delete the final snapshot of a destroyed machine once its retention has ended. -/
def expireFinalSnapshot : MachineScript MachinePersistenceRecord :=
  match machine.finalSnapshotId with
  | none => pure machine
  | some snapshotId =>
    if machine.finalSnapshotDeleteAtMs.getD maxSafeInteger ≤ nowMs then do
      let deleted ← ask (.deleteSnapshot snapshotId)
      match deleted with
      | .error failure => pure (machine.withProviderFailure nowMs failure)
      | .ok () =>
        pure { machine with
          finalSnapshotId := none
          finalSnapshotDeleteAtMs := none
          nextActionAtMs := maxSafeInteger
          updatedAtMs := nowMs }
    else pure machine

def reconcileDestroyed : MachineScript MachinePersistenceRecord :=
  match machine.accountDeletionRequestedAtMs with
  | none => expireFinalSnapshot machine nowMs
  | some _ => do
      let identity ← deleteAccountIdentityWhenInfrastructureIsClean machine
      match identity with
      | .failed => pure (machine.withCleanupFailure nowMs "identity-deletion-failed")
      | .deferred =>
        pure { machine with nextActionAtMs := nowMs + 60000, updatedAtMs := nowMs }
      | .deleted =>
        expireFinalSnapshot { machine with accountDeletionRequestedAtMs := none } nowMs

def finishDestruction : MachineScript MachinePersistenceRecord :=
  match machine.accountDeletionRequestedAtMs with
  | none => pure (machine.asDestroyed nowMs false)
  | some _ => do
      let identity ← deleteAccountIdentityWhenInfrastructureIsClean machine
      match identity with
      | .failed =>
        pure { machine.withCleanupFailure nowMs "identity-deletion-failed" with
          state := .destroying }
      | .deferred => pure (machine.asDestroyed nowMs true)
      | .deleted => pure (machine.asDestroyed nowMs false)

def deleteServer : MachineScript MachinePersistenceRecord :=
  match machine.providerServerId with
  | none => finishDestruction machine nowMs
  | some providerServerId => do
      let deleted ← ask (.delete providerServerId)
      match deleted with
      | .error failure => pure (machine.withProviderFailure nowMs failure)
      | .ok () => finishDestruction machine nowMs

def endSubscription : MachineScript MachinePersistenceRecord := do
  let cancelled ← cancelSubscription machine
  if cancelled = false then pure (machine.withBillingFailure nowMs)
  else deleteServer machine nowMs

/-- Deprovision the tunnel of an environment, where it has one; whether that succeeded. -/
def deprovisionTunnel (environmentId : String) : MachineScript Bool := do
  let tunnelId ← ask (.environmentTunnel environmentId)
  match tunnelId with
  | none => pure true
  | some tunnelId => ask (.deprovision tunnelId)

def releaseEnvironment : MachineScript MachinePersistenceRecord :=
  match machine.environmentId with
  | none => endSubscription machine nowMs
  | some environmentId => do
      let deprovisioned ← deprovisionTunnel environmentId
      if deprovisioned = false then
        pure { machine.withCleanupFailure nowMs "tunnel-cleanup-failed" with
          state := .destroying }
      else do
        ask (.deleteEnvironment environmentId machine.accountId)
        endSubscription machine nowMs

def snapshotServer : MachineScript MachinePersistenceRecord :=
  match machine.providerServerId with
  | none => releaseEnvironment machine nowMs
  | some providerServerId =>
    if machine.finalSnapshotId.isSome ∨ machine.finalSnapshotSkipped = true then
      releaseEnvironment machine nowMs
    else do
      let destroying := { machine with state := .destroying }
      let poweredOff ← ask (.powerOff providerServerId)
      match poweredOff with
      | .error failure => pure (destroying.withProviderFailure nowMs failure)
      | .ok () => do
          let snapshot ← ask (.snapshot providerServerId ("final-" ++ machine.machineId))
          match snapshot with
          | .error failure => pure (destroying.withProviderFailure nowMs failure)
          | .ok snapshotId =>
            releaseEnvironment
              { machine with
                finalSnapshotId := some snapshotId
                finalSnapshotDeleteAtMs := some (nowMs + config.finalSnapshotRetentionMs) }
              nowMs

def credentialCleanupTimeoutMs : Int := 5 * 60 * 1000

def startServer (providerServerId : String) (powerState : PowerState) :
    MachineScript (ProviderResult Unit) :=
  match powerState with
  | .running => pure (.ok ())
  | .off => ask (.powerOn providerServerId)

/-- Ask a server to remove its credentials, and start it where it is off. -/
def requestCredentialCleanup (providerServerId : String) :
    MachineScript MachinePersistenceRecord := do
  let inspected ← ask (.inspect providerServerId)
  match inspected with
  | .error failure => pure (machine.withProviderFailure nowMs failure)
  | .ok none =>
    snapshotServer config
      (machine.withoutFinalSnapshot nowMs "the provider server was missing") nowMs
  | .ok (some powerState) => do
      let poweredOn ← startServer providerServerId powerState
      match poweredOn with
      | .error failure => pure (machine.withProviderFailure nowMs failure)
      | .ok () =>
        pure { machine.asDestroying nowMs (nowMs + 30000) with
          credentialCleanupRequestedAtMs := some nowMs
          credentialCleanupDeadlineMs := some (nowMs + credentialCleanupTimeoutMs) }

/-- Whether a pass first sees to it that the server's credentials are gone. -/
def MachinePersistenceRecord.awaitsCleanup : Bool :=
  machine.providerServerId.isSome && machine.finalSnapshotId.isNone &&
    !machine.finalSnapshotSkipped && machine.credentialCleanupCompletedAtMs.isNone

def destroyServer : MachineScript MachinePersistenceRecord :=
  if machine.awaitsCleanup = false then snapshotServer config machine nowMs
  else if machine.environmentId.isNone then
    snapshotServer config (machine.withoutFinalSnapshot nowMs
      "no environment could verify credential cleanup") nowMs
  else if machine.credentialCleanupRequestedAtMs.isNone then
    requestCredentialCleanup config machine nowMs (machine.providerServerId.getD "")
  else if machine.credentialCleanupDeadlineMs.getD 0 > nowMs then
    pure (machine.asDestroying nowMs
      (min (nowMs + 30000) (machine.credentialCleanupDeadlineMs.getD (nowMs + 30000))))
  else
    snapshotServer config
      (machine.withoutFinalSnapshot nowMs "credential cleanup was not verified") nowMs

def reconcileDestroyedTarget : MachineScript MachinePersistenceRecord :=
  if machine.state = .destroyed then reconcileDestroyed machine nowMs
  else destroyServer config machine nowMs

def reconcileOne : MachineScript MachinePersistenceRecord := do
  let selected ← ask (.getProvider machine.provider)
  if selected = false then
    pure { machine with
      statusCode := .providerUnavailable
      stableFailureCode := some "machine-provider-not-configured"
      nextActionAtMs := nowMs + maxReconcileBackoffMs
      updatedAtMs := nowMs }
  else
    match machine.desiredState with
    | .ready => reconcileReadyTarget sha256Hex config machine nowMs
    | .suspended => reconcileSuspendedTarget sha256Hex config machine nowMs
    | .destroyed => reconcileDestroyedTarget config machine nowMs

end Targets

variable (sha256Hex : String → String) (config : MachineControlConfig)

def reconcileClaimed (claimed : List MachinePersistenceRecord) (owner : String)
    (nowMs : Int) : MachineScript Unit :=
  Script.forEach claimed fun machine => do
    let reconciled ← reconcileOne sha256Hex config machine nowMs
    let _saved ← ask (.saveReconciledMachine reconciled owner reconciled.revision)
    pure ()

def reconcileMachines (owner : String) (nowMs : Int) : MachineScript Unit := do
  let claimed ← ask (.claimDueMachines ⟨nowMs, owner, config.reconcileLeaseMs⟩ 1)
  reconcileClaimed sha256Hex config claimed owner nowMs

def reconcileMachine (machineId owner : String) (nowMs : Int) : MachineScript Unit := do
  let claimed ← ask (.claimMachine machineId ⟨nowMs, owner, config.reconcileLeaseMs⟩)
  reconcileClaimed sha256Hex config claimed.toList owner nowMs

end Zuse.Machines
