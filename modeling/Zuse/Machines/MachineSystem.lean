import Zuse.Machines.MachineRequests

namespace Zuse.Machines

open Data (Script Service Operations TransitionSystem)

structure ProviderServer where
  providerServerId : String
  providerLabel : String
  deriving DecidableEq

/-- The store beside what the services outside hold: the servers of the compute provider,
the identities that were deleted, and the time. The last field is history that nothing
reads: the labels, each with the revision of its record then, on whose server a pass
decided, where it found or made one or gave up. -/
structure MachineWorld where
  store : MemoryState
  servers : List ProviderServer
  deletedUsers : List String
  nowMs : Int
  decided : List (String × Nat)

/-- What the environment chooses for a call: whether it fails, and if so whether it took
effect all the same; the id, token or name it replies; and whether the server is off. -/
structure Answer where
  error : Option MachineProviderError := none
  applied : Bool := false
  text : String := ""
  off : Bool := false

namespace Answer

def result (answer : Answer) {α : Type} (value : α) : ProviderResult α :=
  match answer.error with
  | none => .ok value
  | some failure => .error failure

def takesEffect (answer : Answer) : Bool := answer.error.isNone || answer.applied

end Answer

namespace MachineWorld

variable (world : MachineWorld)

def withStore (store : MemoryState) : MachineWorld := { world with store }

def serverOf (providerLabel : String) : Option String :=
  (world.servers.find? fun server => server.providerLabel = providerLabel).map
    fun server => server.providerServerId

/-- Whether the provider can create a server: it never holds two under one label or id. -/
def canCreate (providerLabel providerServerId : String) : Bool :=
  world.servers.all fun server =>
    server.providerLabel ≠ providerLabel && server.providerServerId ≠ providerServerId

def withServer (providerLabel providerServerId : String) : MachineWorld :=
  { world with servers := world.servers ++ [⟨providerServerId, providerLabel⟩] }

def withoutServer (providerServerId : String) : MachineWorld :=
  { world with
    servers := world.servers.filter fun server =>
      server.providerServerId ≠ providerServerId }

def withDecision (providerLabel : String) (decides : MachinePersistenceRecord → Bool) :
    MachineWorld :=
  { world with
    decided := world.decided ++
      (world.store.machines.values.filter fun machine =>
        machine.providerLabel = providerLabel && decides machine).map
          fun machine => (providerLabel, machine.revision) }

def lookUpServer (providerLabel : String) (answer : Answer) :
    ProviderResult (Option String) × MachineWorld :=
  match answer.error with
  | some failure =>
    (.error failure, world.withDecision providerLabel fun machine =>
      machine.failsForGood failure)
  | none =>
    (.ok (world.serverOf providerLabel), world.withDecision providerLabel fun _ =>
      (world.serverOf providerLabel).isSome)

def createServer (providerLabel : String) (answer : Answer) :
    ProviderResult String × MachineWorld :=
  let created :=
    if answer.takesEffect ∧ world.canCreate providerLabel answer.text then
      world.withServer providerLabel answer.text
    else world
  if answer.error = none ∧ world.canCreate providerLabel answer.text then
    (.ok answer.text, created.withDecision providerLabel fun _ => true)
  else
    let failure := answer.error.getD .transient
    (.error failure, created.withDecision providerLabel fun machine =>
      machine.failsForGood failure)

def deleteServer (providerServerId : String) (answer : Answer) :
    ProviderResult Unit × MachineWorld :=
  (answer.result (),
    if answer.takesEffect then world.withoutServer providerServerId else world)

def inspectServer (providerServerId : String) (answer : Answer) :
    ProviderResult (Option PowerState) :=
  answer.result
    (if world.servers.any fun server => server.providerServerId = providerServerId then
      some (if answer.off then .off else .running)
    else none)

end MachineWorld

def machineService : Service MachineWorld MachineCall Answer MachineCall.Reply
  | .getProvider _, answer, world => (answer.error.isNone, world)
  | .recoverByLabel label, answer, world => world.lookUpServer label answer
  | .create _ label _ _, answer, world => world.createServer label answer
  | .inspect id, answer, world => (world.inspectServer id answer, world)
  | .powerOff _, answer, world => (answer.result (), world)
  | .powerOn _, answer, world => (answer.result (), world)
  | .snapshot .., answer, world => (answer.result answer.text, world)
  | .delete id, answer, world => world.deleteServer id answer
  | .deleteSnapshot _, answer, world => (answer.result (), world)
  | .cancelProviderSubscription .., answer, world => (answer.error.isNone, world)
  | .randomToken, answer, world => (answer.text, world)
  | .environmentTunnel _, answer, world =>
    (if answer.off then none else some answer.text, world)
  | .deprovision _, answer, world => (answer.error.isNone, world)
  | .deleteEnvironment .., _, world => ((), world)
  | .registerEnvironment _, answer, world => (answer.error.isNone, world)
  | .deleteUser accountId, answer, world =>
    (answer.error.isNone,
      if answer.takesEffect then
        { world with deletedUsers := world.deletedUsers ++ [accountId] }
      else world)
  | .listEntitlements accountId, _, world =>
    (world.store.listEntitlements accountId, world)
  | .upsertEntitlement entitlement, _, world =>
    ((), world.withStore (world.store.upsertEntitlement entitlement))
  | .listMachines accountId, _, world => (world.store.listMachines accountId, world)
  | .getMachine machineId, _, world => (world.store.getMachine machineId, world)
  | .findMachineByEnvironmentId environmentId, _, world =>
    (world.store.findMachineByEnvironmentId environmentId, world)
  | .findMachineByEnrollmentHash tokenHash, _, world =>
    (world.store.findMachineByEnrollmentHash tokenHash, world)
  | .compareAndSetMachine machine expectedRevision, _, world =>
    let written := world.store.compareAndSetMachine machine expectedRevision
    (written.1, world.withStore written.2)
  | .completeEnrollment machine tokenHash expectedRevision, _, world =>
    let written := world.store.completeEnrollment machine tokenHash expectedRevision
    (written.1, world.withStore written.2)
  | .claimDueMachines input limit, _, world =>
    let claimed := world.store.claimDueMachines input limit
    (claimed.1, world.withStore claimed.2)
  | .claimMachine machineId input, _, world =>
    let claimed := world.store.claimMachine machineId input
    (claimed.1, world.withStore claimed.2)
  | .saveReconciledMachine machine owner expectedRevision, _, world =>
    let written := world.store.saveReconciledMachine machine owner expectedRevision
    (written.1, world.withStore written.2)

inductive MachineOperation where
  | reconcileMachines (owner : String)
  | reconcileMachine (machineId owner : String)
  | bootStatus (tokenHash machineId : String)
      (body : MachinePersistenceRecord.MachineBootStatusRequest)
  | enroll (tokenHash machineId environmentId environmentPublicKey : String)
  | cancel (accountId machineId : String)
  | recover (accountId machineId : String)
  | destroy (accountId machineId : String)
  | deleteAccount (accountId : String)
  | reportCredentialCleanup (accountId environmentId : String)

/-- What happens in one transaction, and the passing of time. -/
inductive MachineInterrupt where
  | createMachine (input : CreateMachineInput)
  | upsertEntitlement (entitlement : EntitlementPersistenceRecord)
  | applyBillingEvent (input : ApplyBillingEventInput)
  | tick (nowMs : Int)

abbrev MachinePool :=
  Operations.Pool MachineWorld MachineCall MachineCall.Reply MachineOperation

abbrev MachineEvent := Operations.Event Answer MachineOperation MachineInterrupt

namespace MachineWorld

variable (world : MachineWorld)

def isUnused (machineId providerLabel : String) : Bool :=
  (world.store.getMachine machineId).isNone &&
    world.store.machines.values.all fun machine => machine.providerLabel ≠ providerLabel

def interrupt : MachineInterrupt → Option MachineWorld
  | .createMachine input =>
    if world.isUnused input.machineId input.providerLabel then
      some (world.withStore (world.store.createMachine input).2)
    else none
  | .upsertEntitlement entitlement =>
    some (world.withStore (world.store.upsertEntitlement entitlement))
  | .applyBillingEvent input =>
    if input.provisioning.all fun drawn =>
        world.isUnused drawn.machineId drawn.providerLabel then
      some (world.withStore (world.store.applyBillingEvent input).2)
    else none
  | .tick nowMs => if world.nowMs ≤ nowMs then some { world with nowMs } else none

end MachineWorld

section Programs

variable (sha256Hex : String → String) (config : MachineControlConfig)

def machineProgram (operation : MachineOperation) (world : MachineWorld) : MachineScript Unit :=
  match operation with
  | .reconcileMachines owner => reconcileMachines sha256Hex config owner world.nowMs
  | .reconcileMachine machineId owner =>
    reconcileMachine sha256Hex config machineId owner world.nowMs
  | .bootStatus tokenHash machineId body => bootStatus world.nowMs tokenHash machineId body
  | .enroll tokenHash machineId environmentId environmentPublicKey =>
    enroll world.nowMs tokenHash machineId environmentId environmentPublicKey
  | .cancel accountId machineId =>
    cancel world.nowMs config.recoveryWindowMs accountId machineId
  | .recover accountId machineId => recover world.nowMs accountId machineId
  | .destroy accountId machineId => destroy world.nowMs accountId machineId
  | .deleteAccount accountId => deleteAccount world.nowMs accountId
  | .reportCredentialCleanup accountId environmentId =>
    reportCredentialCleanup world.nowMs accountId environmentId

def machineOperations :
    Operations MachineWorld MachineCall Answer MachineCall.Reply MachineOperation
      MachineInterrupt where
  service := machineService
  program := machineProgram sha256Hex config
  interrupt := fun which world => world.interrupt which

def MachineWorld.empty (nowMs : Int) : MachineWorld := ⟨.empty, [], [], nowMs, []⟩

def machineSystem (nowMs : Int) :=
  (machineOperations sha256Hex config).system (MachineWorld.empty nowMs)

end Programs

end Zuse.Machines
