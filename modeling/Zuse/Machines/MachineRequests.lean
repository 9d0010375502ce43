import Zuse.Machines.MachineReconciler

namespace Zuse.Machines

open Data (Script)

/-! Requests about machines: each reads the record, decides, and writes it back if nothing
else was written meanwhile. -/

section Requests

variable (nowMs : Int)

def MachinePersistenceRecord.acceptsEnrollment (machine : MachinePersistenceRecord) : Bool :=
  machine.enrollmentExpiresAtMs.any (nowMs < ·) &&
    (machine.desiredState = .ready ||
      (machine.desiredState = .suspended && machine.paidThroughMs.getD 0 > nowMs)) &&
    machine.state ≠ .destroying && machine.state ≠ .destroyed

/-- Whether a machine that was read again is still the one that the token speaks for. -/
def MachinePersistenceRecord.stillEnrolls (machine : MachinePersistenceRecord)
    (tokenHash : String) : Bool :=
  machine.enrollmentTokenHash = some tokenHash && machine.desiredState ≠ .destroyed &&
    machine.state ≠ .destroying && machine.state ≠ .destroyed

def reportBoot (machineId tokenHash : String)
    (body : MachinePersistenceRecord.MachineBootStatusRequest) :
    Nat → MachinePersistenceRecord → MachineScript Unit
  | 0, _ => pure ()
  | attempts + 1, current =>
    if current.isDuplicateOrStaleBootPhase body.phase then pure ()
    else do
      let updated := current.applyBootStatus nowMs body
      let saved ← ask (.compareAndSetMachine updated current.revision)
      if saved then pure ()
      else do
        let reloaded ← ask (.getMachine machineId)
        match reloaded with
        | none => pure ()
        | some machine =>
          if machine.stillEnrolls tokenHash then
            reportBoot machineId tokenHash body attempts machine
          else pure ()

def bootStatus (tokenHash machineId : String)
    (body : MachinePersistenceRecord.MachineBootStatusRequest) : MachineScript Unit := do
  let found ← ask (.findMachineByEnrollmentHash tokenHash)
  match found with
  | none => pure ()
  | some machine =>
    if machine.acceptsEnrollment nowMs ∧ machine.machineId = machineId then
      reportBoot nowMs machineId tokenHash body 3 machine
    else pure ()

def completeEnrollment (machineId tokenHash environmentId environmentPublicKey : String) :
    Nat → MachinePersistenceRecord → MachineScript Unit
  | 0, _ => pure ()
  | attempts + 1, enrollmentBase => do
      let completedMachine := enrollmentBase.enrolled nowMs environmentId environmentPublicKey
      let completed ← ask (.completeEnrollment completedMachine tokenHash enrollmentBase.revision)
      if completed then pure ()
      else do
        let current ← ask (.getMachine machineId)
        match current with
        | none => pure ()
        | some machine =>
          if machine.stillEnrolls tokenHash then
            completeEnrollment machineId tokenHash environmentId environmentPublicKey
              attempts machine
          else pure ()

/-- The enroll route, up to the last write of the machine: what follows hands out the
environment's credential. -/
def enroll (tokenHash machineId environmentId environmentPublicKey : String) :
    MachineScript Unit := do
  let found ← ask (.findMachineByEnrollmentHash tokenHash)
  match found with
  | none => pure ()
  | some machine =>
    let conflicting := machine.enrolledEnvironmentPublicKey.isSome ∧
      (machine.enrolledEnvironmentPublicKey ≠ some environmentPublicKey ∨
        machine.environmentId ≠ some environmentId)
    if machine.acceptsEnrollment nowMs ∧ machine.machineId = machineId ∧ ¬conflicting then do
      let registered ← ask (.registerEnvironment environmentId)
      if registered then
        completeEnrollment nowMs machineId tokenHash environmentId environmentPublicKey 3 machine
      else pure ()
    else pure ()

def getOwnedMachine (machineId accountId : String) :
    MachineScript (Option MachinePersistenceRecord) := do
  let machine ← ask (.getMachine machineId)
  pure (machine.filter fun machine => machine.accountId = accountId)

def cancel (recoveryWindowMs : Int) (accountId machineId : String) :
    MachineScript Unit := do
  let owned ← getOwnedMachine machineId accountId
  match owned with
  | none => pure ()
  | some machine =>
    if machine.state = .destroyed ∨ machine.desiredState = .destroyed then pure ()
    else do
      let _saved ← ask
        (.compareAndSetMachine (machine.cancelled nowMs recoveryWindowMs) machine.revision)
      pure ()

def EntitlementPersistenceRecord.renews (entitlement : EntitlementPersistenceRecord)
    (machine : MachinePersistenceRecord) : Bool :=
  entitlement.offerId = some machine.offerId && entitlement.status = .active &&
    entitlement.paidThroughMs.getD 0 > nowMs

def recover (accountId machineId : String) : MachineScript Unit := do
  let owned ← getOwnedMachine machineId accountId
  match owned with
  | none => pure ()
  | some machine =>
    if machine.state ≠ .suspended ∨ machine.recoveryDeadlineMs.all (· ≤ nowMs) then pure ()
    else do
      let entitlements ← ask (.listEntitlements accountId)
      match entitlements.find? (·.renews nowMs machine) with
      | none => pure ()
      | some renewed => do
          let _saved ← ask
            (.compareAndSetMachine (machine.recovered nowMs renewed) machine.revision)
          pure ()

def destroy (accountId machineId : String) : MachineScript Unit := do
  let owned ← getOwnedMachine machineId accountId
  match owned with
  | none => pure ()
  | some machine =>
    if machine.state = .destroyed then pure ()
    else do
      let saved ← ask
        (.compareAndSetMachine (machine.requestMachineDestruction nowMs) machine.revision)
      if saved then do
        let _cancelled ← cancelSubscription machine
        pure ()
      else pure ()

/-- Request the destruction of a machine, again while something else was written; whether
it is destroyed or will be. -/
def scheduleDestruction (machineId : String) : Nat → MachinePersistenceRecord → MachineScript Bool
  | 0, _ => pure false
  | attempts + 1, destructionBase => do
      let destructionScheduled ← ask
        (.compareAndSetMachine (destructionBase.requestMachineDestruction nowMs (some nowMs))
          destructionBase.revision)
      if destructionScheduled then pure true
      else do
        let current ← ask (.getMachine machineId)
        match current with
        | none => pure true
        | some machine =>
          if machine.state = .destroyed then pure true
          else scheduleDestruction machineId attempts machine

def scheduleDestructions : List MachinePersistenceRecord → MachineScript Unit
  | [] => pure ()
  | machine :: rest =>
    if machine.state = .destroyed then scheduleDestructions rest
    else do
      let destructionScheduled ← scheduleDestruction nowMs machine.machineId 3 machine
      if destructionScheduled then scheduleDestructions rest else pure ()

def deleteAccount (accountId : String) : MachineScript Unit := do
  let entitlements ← ask (.listEntitlements accountId)
  Script.forEach entitlements fun entitlement =>
    ask (.upsertEntitlement
      { entitlement with status := .ended, endedAtMs := some nowMs, updatedAtMs := nowMs })
  let machines ← ask (.listMachines accountId)
  scheduleDestructions nowMs machines

def reportCredentialCleanup (accountId environmentId : String) : MachineScript Unit := do
  let found ← ask (.findMachineByEnvironmentId environmentId)
  match found with
  | none => pure ()
  | some machine =>
    if machine.accountId = accountId ∧ machine.desiredState = .destroyed ∧
        machine.credentialCleanupRequestedAtMs.isSome then do
      let _saved ← ask
        (.compareAndSetMachine
          { machine with
            credentialCleanupCompletedAtMs := some nowMs
            nextActionAtMs := nowMs
            updatedAtMs := nowMs }
          machine.revision)
      pure ()
    else pure ()

end Requests

end Zuse.Machines
