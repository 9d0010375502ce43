import Zuse.Machines.Destruction
import Zuse.Machines.ServerCustody

namespace Zuse.Machines

open Data (Script)
open List MachinePersistenceRecord

def MachineCall.leavesServers : MachineCall → Bool
  | .recoverByLabel _ => false
  | .create .. => false
  | .delete _ => false
  | request => !request.writesMachines

variable {request : MachineCall}

theorem leavesServers_reads (leaves : request.leavesServers = true) :
    request.writesMachines = false := by
  cases request with
  | recoverByLabel label | create machineId label offer token | delete id => rfl
  | _ => exact (Bool.not_eq_true' _).mp leaves

section Passes

variable {machine result : MachinePersistenceRecord} {nowMs : Int}

structure Restates (machine result : MachinePersistenceRecord) : Prop where
  tends : machine.Tends result
  providerLabel : result.providerLabel = machine.providerLabel
  offerId : result.offerId = machine.offerId
  providerServerId : result.providerServerId = machine.providerServerId
  state : result.state = .destroyed → machine.state = .destroyed

theorem applyBootStatus_restates (machine : MachinePersistenceRecord) (nowMs : Int)
    (body : MachinePersistenceRecord.MachineBootStatusRequest) :
    Restates machine (machine.applyBootStatus nowMs body) := by
  unfold applyBootStatus
  split
  · exact ⟨⟨⟨rfl, rfl, rfl⟩, rfl, rfl⟩, rfl, rfl, rfl, id⟩
  split
  · exact ⟨⟨⟨rfl, rfl, rfl⟩, rfl, rfl⟩, rfl, rfl, rfl, nofun⟩
  split
  · exact ⟨⟨⟨rfl, rfl, rfl⟩, rfl, rfl⟩, rfl, rfl, rfl, nofun⟩
  · split
    · exact ⟨⟨⟨rfl, rfl, rfl⟩, rfl, rfl⟩, rfl, rfl, rfl, nofun⟩
    · exact ⟨⟨⟨rfl, rfl, rfl⟩, rfl, rfl⟩, rfl, rfl, rfl, nofun⟩

theorem enrolled_restates (machine : MachinePersistenceRecord) (nowMs : Int)
    (environmentId environmentPublicKey : String) :
    Restates machine (machine.enrolled nowMs environmentId environmentPublicKey) := by
  unfold enrolled
  dsimp only
  split
  · exact ⟨⟨⟨rfl, rfl, rfl⟩, rfl, rfl⟩, rfl, rfl, rfl, nofun⟩
  · exact ⟨⟨⟨rfl, rfl, rfl⟩, rfl, rfl⟩, rfl, rfl, rfl, nofun⟩

def Restating (machine : MachinePersistenceRecord)
    (script : MachineScript MachinePersistenceRecord) : Prop :=
  script.Guarded (fun _ request => request.leavesServers = true) (fun _ _ => [])
    (fun known result => ∃ base ∈ known, Restates base result) [machine]

section

variable (tends : machine.Tends result)
  (providerLabel : result.providerLabel = machine.providerLabel)
  (offerId : result.offerId = machine.offerId)
  (providerServerId : result.providerServerId = machine.providerServerId)
include tends providerLabel offerId providerServerId

theorem Restating.done (state : result.state = .destroyed → machine.state = .destroyed) :
    Restating machine (pure result) :=
  ⟨machine, mem_cons_self, tends, providerLabel, offerId, providerServerId, state⟩

theorem Restating.moved (standing : result.state ≠ .destroyed) : Restating machine (pure result) :=
  .done tends providerLabel offerId providerServerId fun destroyed => absurd destroyed standing

end

theorem Restating.asks {rest : request.Reply → MachineScript MachinePersistenceRecord}
    (leaves : request.leavesServers = true) (next : ∀ reply, Restating machine (rest reply)) :
    Restating machine (ask request >>= rest) := ⟨leaves, next⟩

theorem Restating.failed (machine : MachinePersistenceRecord) (nowMs : Int)
    (failure : MachineProviderError) :
    Restating machine (pure (machine.withProviderFailure nowMs failure)) := by
  refine .done (machine.withProviderFailure_tends nowMs failure) rfl rfl rfl ?_
  intro destroyed
  obtain failed | same := machine.withProviderFailure_state nowMs failure
  · rw [failed] at destroyed
    cases destroyed
  · exact same.symm.trans destroyed

theorem Restating.missing (machine : MachinePersistenceRecord) (nowMs : Int) :
    Restating machine (pure (machine.withMissingProviderMachine nowMs)) :=
  .moved ⟨⟨rfl, rfl, rfl⟩, rfl, rfl⟩ rfl rfl rfl nofun

theorem inspectBoot_restates : Restating machine (inspectBoot machine nowMs) := by
  unfold inspectBoot
  split
  · exact .missing machine nowMs
  refine .asks rfl fun inspected => ?_
  cases inspected with
  | error failure => exact .failed machine nowMs failure
  | ok server =>
    cases server with
    | none => exact .missing machine nowMs
    | some powerState =>
      dsimp only
      split
      · exact .moved ⟨⟨rfl, rfl, rfl⟩, rfl, rfl⟩ rfl rfl rfl
          nofun
      · exact .done ⟨⟨rfl, rfl, rfl⟩, rfl, rfl⟩ rfl rfl rfl id

theorem resumeServer_restates : Restating machine (resumeServer machine nowMs) := by
  unfold resumeServer
  split
  · exact .moved ⟨⟨rfl, rfl, rfl⟩, rfl, rfl⟩ rfl rfl rfl nofun
  refine .asks rfl fun result => ?_
  cases result with
  | error failure => exact .failed machine nowMs failure
  | ok on =>
    exact .moved ⟨⟨rfl, rfl, rfl⟩, rfl, rfl⟩ rfl rfl rfl nofun

theorem inspectReady_restates : Restating machine (inspectReady machine nowMs) := by
  unfold inspectReady
  split
  · exact .missing machine nowMs
  refine .asks rfl fun inspected => ?_
  cases inspected with
  | error failure => exact .failed machine nowMs failure
  | ok server =>
    cases server with
    | none => exact .missing machine nowMs
    | some powerState => exact .done ⟨⟨rfl, rfl, rfl⟩, rfl, rfl⟩ rfl rfl rfl id

theorem reconcileReadyTarget_restates {sha256Hex : String → String}
    {config : MachineControlConfig} (served : ¬machine.awaitsServer = true) :
    Restating machine (reconcileReadyTarget sha256Hex config machine nowMs) := by
  unfold reconcileReadyTarget
  rw [if_neg served]
  split
  · exact .done ⟨⟨rfl, rfl, rfl⟩, rfl, rfl⟩ rfl rfl rfl id
  · exact inspectBoot_restates
  · exact inspectBoot_restates
  · exact resumeServer_restates
  · exact inspectReady_restates
  · exact .done ⟨⟨rfl, rfl, rfl⟩, rfl, rfl⟩ rfl rfl rfl id

theorem suspendServer_restates : Restating machine (suspendServer machine nowMs) := by
  unfold suspendServer
  split
  · exact .moved ⟨⟨rfl, rfl, rfl⟩, rfl, rfl⟩ rfl rfl rfl nofun
  refine .asks rfl fun result => ?_
  cases result with
  | error failure =>
    have standing : ({ machine with state := .suspending } :
        MachinePersistenceRecord).state ≠ .destroyed := by
      nofun
    exact .moved ⟨⟨rfl, rfl, rfl⟩, rfl, rfl⟩ rfl rfl rfl
      (withProviderFailure_ne_destroyed failure standing)
  | ok off =>
    exact .moved ⟨⟨rfl, rfl, rfl⟩, rfl, rfl⟩ rfl rfl rfl nofun

end Passes

section Destroying

variable {knows : MachineWorld → Prop} {world : MachineWorld}
  {hands : MachineScript MachinePersistenceRecord → MachineWorld → Prop}
  {machine result : MachinePersistenceRecord} {nowMs : Int}

/-- What is known lasts over each call that leaves the records and the servers alone. -/
def Asks (knows : MachineWorld → Prop)
    (hands : MachineScript MachinePersistenceRecord → MachineWorld → Prop) : Prop :=
  ∀ {request : MachineCall} {rest : request.Reply → MachineScript MachinePersistenceRecord}
    {world : MachineWorld}, request.leavesServers = true → knows world →
      (∀ reply later, knows later → hands (rest reply) later) → hands (ask request >>= rest) world

section

variable (asks : Asks knows hands) (known : knows world)
include asks known

theorem Asks.cancelSubscription {rest : Bool → MachineScript MachinePersistenceRecord}
    (next : ∀ cancelled later, knows later → hands (rest cancelled) later) :
    hands (cancelSubscription machine >>= rest) world := by
  refine @asks (.listEntitlements machine.accountId) (fun _ => _ >>= rest) world rfl known ?_
  intro entitlements later known
  dsimp only [Script.bind]
  split
  · exact next true later known
  · exact asks rfl known next

theorem Asks.deprovisionTunnel {environmentId : String}
    {rest : Bool → MachineScript MachinePersistenceRecord}
    (next : ∀ deprovisioned later, knows later → hands (rest deprovisioned) later) :
    hands (deprovisionTunnel environmentId >>= rest) world := by
  refine @asks (.environmentTunnel environmentId) (fun _ => _ >>= rest) world rfl known ?_
  intro tunnelId later known
  cases tunnelId with
  | none => exact next true later known
  | some tunnelId => exact asks rfl known next

theorem Asks.startServer {providerServerId : String} {powerState : PowerState}
    {rest : ProviderResult Unit → MachineScript MachinePersistenceRecord}
    (next : ∀ poweredOn later, knows later → hands (rest poweredOn) later) :
    hands (startServer providerServerId powerState >>= rest) world := by
  cases powerState with
  | running => exact next (.ok ()) world known
  | off => exact asks rfl known next

end

/-- What is known of a machine that is being destroyed also lasts over its edits, and is
enough to hand over any of them that does not end the destruction. -/
structure Dooms (dooms : MachinePersistenceRecord → MachineWorld → Prop)
    (hands : MachineScript MachinePersistenceRecord → MachineWorld → Prop) : Prop where
  asks : ∀ machine, Asks (dooms machine) hands
  edit : ∀ {machine edited world}, dooms machine world → Restates machine edited →
    edited.state = machine.state → dooms edited world
  done : ∀ {machine result world}, dooms machine world → Restates machine result →
    result.state = .destroying ∨ result.state = .failed ∨ result.state = machine.state →
      hands (pure result) world

variable {dooms : MachinePersistenceRecord → MachineWorld → Prop} {config : MachineControlConfig}

variable (rules : Dooms dooms hands)
include rules

theorem Dooms.failsAs {draft : MachinePersistenceRecord} (doomed : dooms machine world)
    (restates : Restates machine draft)
    (state : draft.state = .destroying ∨ draft.state = machine.state)
    (failure : MachineProviderError) :
    hands (pure (draft.withProviderFailure nowMs failure)) world := by
  have tends := restates.tends.trans (draft.withProviderFailure_tends nowMs failure)
  obtain failed | same := draft.withProviderFailure_state nowMs failure
  · refine rules.done doomed ⟨tends, restates.providerLabel, restates.offerId,
      restates.providerServerId, ?_⟩ (.inr (.inl failed))
    rw [failed]
    nofun
  · refine rules.done doomed ⟨tends, restates.providerLabel, restates.offerId,
      restates.providerServerId, ?_⟩ ?_
    · rw [same]
      exact restates.state
    · rw [same]
      exact state.imp_right .inr

theorem Dooms.failed (doomed : dooms machine world) (failure : MachineProviderError) :
    hands (pure (machine.withProviderFailure nowMs failure)) world :=
  rules.failsAs doomed ⟨.refl machine, rfl, rfl, rfl, id⟩ (.inr rfl) failure

variable (deletes : ∀ {machine world}, dooms machine world →
  hands (deleteServer machine nowMs) world) (doomed : dooms machine world)
include deletes doomed

theorem Dooms.ends : hands (endSubscription machine nowMs) world := by
  refine Asks.cancelSubscription (rules.asks machine) doomed ?_
  intro cancelled later doomed
  split
  · exact rules.done doomed ⟨⟨⟨rfl, rfl, rfl⟩, rfl, rfl⟩, rfl, rfl, rfl, nofun⟩ (.inl rfl)
  · exact deletes doomed

theorem Dooms.releases : hands (releaseEnvironment machine nowMs) world := by
  unfold releaseEnvironment
  split
  · exact rules.ends deletes doomed
  refine Asks.deprovisionTunnel (rules.asks machine) doomed ?_
  intro deprovisioned later doomed
  split
  · exact rules.done doomed ⟨⟨⟨rfl, rfl, rfl⟩, rfl, rfl⟩, rfl, rfl, rfl, nofun⟩ (.inl rfl)
  · refine rules.asks machine rfl doomed ?_
    intro _ latest doomed
    exact rules.ends deletes doomed

theorem Dooms.snapshots : hands (snapshotServer config machine nowMs) world := by
  have destroying : Restates machine { machine with state := .destroying } :=
    ⟨⟨⟨rfl, rfl, rfl⟩, rfl, rfl⟩, rfl, rfl, rfl, nofun⟩
  unfold snapshotServer
  split
  · exact rules.releases deletes doomed
  split
  · exact rules.releases deletes doomed
  refine rules.asks machine rfl doomed ?_
  intro poweredOff later doomed
  cases poweredOff with
  | error failure => exact rules.failsAs doomed destroying (.inl rfl) failure
  | ok off =>
    refine rules.asks machine rfl doomed ?_
    intro snapshot latest doomed
    cases snapshot with
    | error failure => exact rules.failsAs doomed destroying (.inl rfl) failure
    | ok snapshotId =>
      exact rules.releases deletes
        (rules.edit doomed ⟨⟨⟨rfl, rfl, rfl⟩, rfl, rfl⟩, rfl, rfl, rfl, id⟩ rfl)

theorem Dooms.withoutSnapshot (reason : String) :
    hands (snapshotServer config (machine.withoutFinalSnapshot nowMs reason) nowMs) world :=
  rules.snapshots deletes
    (rules.edit doomed ⟨⟨⟨rfl, rfl, rfl⟩, rfl, rfl⟩, rfl, rfl, rfl, id⟩ rfl)

theorem Dooms.cleansCredentials (providerServerId : String) :
    hands (requestCredentialCleanup config machine nowMs providerServerId) world := by
  refine rules.asks machine rfl doomed ?_
  intro inspected later doomed
  cases inspected with
  | error failure => exact rules.failed doomed failure
  | ok server =>
    cases server with
    | none => exact rules.withoutSnapshot deletes doomed _
    | some powerState =>
      refine Asks.startServer (rules.asks machine) doomed ?_
      intro poweredOn latest doomed
      cases poweredOn with
      | error failure => exact rules.failed doomed failure
      | ok done =>
        exact rules.done doomed ⟨⟨⟨rfl, rfl, rfl⟩, rfl, rfl⟩, rfl, rfl, rfl, nofun⟩ (.inl rfl)

theorem Dooms.destroys : hands (destroyServer config machine nowMs) world := by
  unfold destroyServer
  split
  · exact rules.snapshots deletes doomed
  split
  · exact rules.withoutSnapshot deletes doomed _
  split
  · exact rules.cleansCredentials deletes doomed _
  · split
    · exact rules.done doomed ⟨⟨⟨rfl, rfl, rfl⟩, rfl, rfl⟩, rfl, rfl, rfl, nofun⟩ (.inl rfl)
    · exact rules.withoutSnapshot deletes doomed _

end Destroying

section Requests

variable {operation : MachineOperation} {machine : MachinePersistenceRecord}
  {known : List MachinePersistenceRecord} {nowMs : Int} {machineId tokenHash accountId : String}

def MachineCall.shows : (request : MachineCall) → request.Reply → List MachinePersistenceRecord
  | .getMachine _, machine => machine.toList
  | .findMachineByEnrollmentHash _, machine => machine.toList
  | .findMachineByEnvironmentId _, machine => machine.toList
  | .listMachines _, machines => machines
  | _, _ => []

theorem shows_stored {world : MachineWorld} (keyed : world.store.Keyed) {answer : Answer}
    (shown : machine ∈ request.shows (machineService request answer world).1) :
    world.store.getMachine machine.machineId = some machine := by
  cases request with
  | getMachine machineId =>
    have found : world.store.getMachine machineId = some machine := Option.mem_toList.mp shown
    rw [keyed machineId machine found]
    exact found
  | findMachineByEnrollmentHash tokenHash => exact (keyed.find (Option.mem_toList.mp shown)).1
  | findMachineByEnvironmentId environmentId =>
    exact (keyed.find (Option.mem_toList.mp shown)).1
  | listMachines accountId => exact keyed.mem_listMachines shown
  | _ => cases shown

def MachineOperation.Edits (operation : MachineOperation)
    (base updated : MachinePersistenceRecord) : Prop :=
  ∃ nowMs : Int, match operation with
    | .bootStatus _ _ body => base.desiredState ≠ .destroyed ∧ base.state ≠ .destroyed ∧
        updated = base.applyBootStatus nowMs body
    | .cancel .. => base.desiredState ≠ .destroyed ∧ base.state ≠ .destroyed ∧
        ∃ recoveryWindowMs, updated = base.cancelled nowMs recoveryWindowMs
    | .recover .. => base.state = .suspended ∧ ∃ renewed, updated = base.recovered nowMs renewed
    | .destroy .. => base.state ≠ .destroyed ∧ updated = base.requestMachineDestruction nowMs
    | .deleteAccount _ => base.state ≠ .destroyed ∧
        updated = base.requestMachineDestruction nowMs (some nowMs)
    | .reportCredentialCleanup .. => base.desiredState = .destroyed ∧
        updated = { base with
          credentialCleanupCompletedAtMs := some nowMs
          nextActionAtMs := nowMs
          updatedAtMs := nowMs }
    | _ => False

def MachineOperation.Makes (operation : MachineOperation)
    (known : List MachinePersistenceRecord) : MachineCall → Prop
  | .compareAndSetMachine updated revision =>
    ∃ base ∈ known, base.revision = revision ∧ operation.Edits base updated
  | .completeEnrollment updated _ revision =>
    ∃ base ∈ known, base.revision = revision ∧ ∃ nowMs environmentId publicKey,
      updated = base.enrolled nowMs environmentId publicKey
  | request => request.leavesServers = true

def Requesting (operation : MachineOperation) {α : Type} (script : MachineScript α)
    (known : List MachinePersistenceRecord) : Prop :=
  script.Guarded operation.Makes MachineCall.shows (fun _ _ => True) known

theorem Requesting.asks {α : Type}
    {rest : request.Reply → MachineScript α} (makes : operation.Makes known request)
    (next : ∀ reply, Requesting operation (rest reply) (request.shows reply ++ known)) :
    Requesting operation (ask request >>= rest) known := ⟨makes, next⟩

theorem acceptsEnrollment_wanted (accepts : machine.acceptsEnrollment nowMs = true) :
    machine.desiredState ≠ .destroyed ∧ machine.state ≠ .destroyed := by
  simp only [acceptsEnrollment, Bool.and_eq_true, Bool.or_eq_true,
    decide_eq_true_eq] at accepts
  refine ⟨?_, accepts.2⟩
  intro doomed
  rw [doomed] at accepts
  obtain ⟨⟨⟨_, ready | ⟨suspended, _⟩⟩, _⟩, _⟩ := accepts
  · cases ready
  · cases suspended

theorem stillEnrolls_wanted (still : machine.stillEnrolls tokenHash = true) :
    machine.desiredState ≠ .destroyed ∧ machine.state ≠ .destroyed := by
  simp only [stillEnrolls, Bool.and_eq_true,
    decide_eq_true_eq] at still
  exact ⟨still.1.1.2, still.2⟩

variable {body : MachinePersistenceRecord.MachineBootStatusRequest}

theorem reportBoot_requests {hash id : String} (attempts : Nat)
    (wanted : machine.desiredState ≠ .destroyed ∧ machine.state ≠ .destroyed)
    (member : machine ∈ known) :
    Requesting (.bootStatus hash id body)
      (reportBoot nowMs machineId tokenHash body attempts machine) known := by
  induction attempts generalizing machine known with
  | zero => trivial
  | succ attempts ih =>
    unfold reportBoot
    split
    · trivial
    refine .asks ⟨machine, member, rfl, nowMs, wanted.1, wanted.2, rfl⟩ fun saved => ?_
    cases saved with
    | true => trivial
    | false =>
      refine .asks rfl fun reloaded => ?_
      cases reloaded with
      | none => trivial
      | some current =>
        dsimp only
        split
        · rename_i still
          exact ih (stillEnrolls_wanted still) mem_cons_self
        · trivial

theorem bootStatus_requests :
    Requesting (.bootStatus tokenHash machineId body)
      (bootStatus nowMs tokenHash machineId body) [] := by
  refine .asks rfl fun found => ?_
  cases found with
  | none => trivial
  | some machine =>
    dsimp only
    split
    · rename_i accepts
      exact reportBoot_requests 3 (acceptsEnrollment_wanted accepts.1) mem_cons_self
    · trivial

variable {environmentId publicKey : String}

theorem completeEnrollment_requests (attempts : Nat) (member : machine ∈ known) :
    Requesting operation
      (completeEnrollment nowMs machineId tokenHash environmentId publicKey attempts machine)
      known := by
  induction attempts generalizing machine known with
  | zero => trivial
  | succ attempts ih =>
    refine .asks ⟨machine, member, rfl, nowMs, environmentId, publicKey, rfl⟩ fun completed => ?_
    cases completed with
    | true => trivial
    | false =>
      refine .asks rfl fun current => ?_
      cases current with
      | none => trivial
      | some machine =>
        dsimp only
        split
        · exact ih mem_cons_self
        · trivial

theorem enroll_requests :
    Requesting (.enroll tokenHash machineId environmentId publicKey)
      (enroll nowMs tokenHash machineId environmentId publicKey) [] := by
  refine .asks rfl fun found => ?_
  cases found with
  | none => trivial
  | some machine =>
    dsimp only
    split
    · refine .asks rfl fun registered => ?_
      cases registered with
      | true => exact completeEnrollment_requests 3 mem_cons_self
      | false => trivial
    · trivial

theorem getOwnedMachine_requests {α : Type}
    {rest : Option MachinePersistenceRecord → MachineScript α}
    (absent : ∀ known, Requesting operation (rest none) known)
    (found : ∀ machine, Requesting operation (rest (some machine)) [machine]) :
    Requesting operation (getOwnedMachine machineId accountId >>= rest) [] := by
  refine ⟨rfl, fun machine => ?_⟩
  cases machine with
  | none => exact absent []
  | some machine =>
    change Requesting operation
      (rest ((some machine).filter fun machine => machine.accountId = accountId)) [machine]
    rw [Option.filter_some]
    split
    · exact found machine
    · exact absent [machine]

theorem cancel_requests {recoveryWindowMs : Int} :
    Requesting (.cancel accountId machineId) (cancel nowMs recoveryWindowMs accountId machineId)
      [] := by
  refine getOwnedMachine_requests (fun _ => trivial) ?_
  intro machine
  dsimp only
  split
  · trivial
  · rename_i living
    obtain ⟨standing, wanted⟩ := not_or.mp living
    exact ⟨⟨machine, mem_cons_self, rfl, nowMs, wanted, standing, recoveryWindowMs, rfl⟩,
      fun _ => trivial⟩

theorem recover_requests :
    Requesting (.recover accountId machineId) (recover nowMs accountId machineId) [] := by
  refine getOwnedMachine_requests (fun _ => trivial) ?_
  intro machine
  dsimp only
  split
  · trivial
  rename_i recoverable
  have suspended := not_not.mp (not_or.mp recoverable).1
  refine .asks rfl fun entitlements => ?_
  split
  · trivial
  · rename_i renewed _
    exact ⟨⟨machine, mem_cons_self, rfl, nowMs, suspended, renewed, rfl⟩, fun _ => trivial⟩

theorem cancelSubscription_requests : Requesting operation (cancelSubscription machine) known := by
  refine .asks rfl fun entitlements => ?_
  dsimp only
  split
  · trivial
  · exact ⟨rfl, fun _ => trivial⟩

theorem destroy_requests :
    Requesting (.destroy accountId machineId) (destroy nowMs accountId machineId) [] := by
  refine getOwnedMachine_requests (fun _ => trivial) ?_
  intro machine
  dsimp only
  split
  · trivial
  rename_i standing
  refine .asks ⟨machine, mem_cons_self, rfl, nowMs, standing, rfl⟩ fun saved => ?_
  cases saved with
  | false => trivial
  | true =>
    have cancels : Requesting (.destroy accountId machineId) (cancelSubscription machine)
        [machine] := cancelSubscription_requests
    apply Script.Guarded.bind
    exact cancels

theorem scheduleDestruction_requests (attempts : Nat) (standing : machine.state ≠ .destroyed)
    (member : machine ∈ known) :
    Requesting (.deleteAccount accountId) (scheduleDestruction nowMs machineId attempts machine)
      known := by
  induction attempts generalizing machine known with
  | zero => trivial
  | succ attempts ih =>
    refine .asks ⟨machine, member, rfl, nowMs, standing, rfl⟩ fun scheduled => ?_
    cases scheduled with
    | true => trivial
    | false =>
      refine .asks rfl fun current => ?_
      cases current with
      | none => trivial
      | some machine =>
        dsimp only
        split
        · trivial
        · rename_i standing
          exact ih standing mem_cons_self

theorem scheduleDestructions_requests {machines : List MachinePersistenceRecord}
    (members : machines ⊆ known) :
    Requesting (.deleteAccount accountId) (scheduleDestructions nowMs machines) known := by
  induction machines generalizing known with
  | nil => trivial
  | cons machine rest ih =>
    obtain ⟨member, others⟩ := cons_subset.mp members
    unfold scheduleDestructions
    split
    · exact ih others
    rename_i standing
    apply Script.Guarded.bind
    refine Script.Guarded.widened ?_ (scheduleDestruction_requests 3 standing member)
    intro done wider among _
    cases done with
    | true => exact ih fun _ other => among (others other)
    | false => trivial

theorem deleteAccount_requests :
    Requesting (.deleteAccount accountId) (deleteAccount nowMs accountId) [] := by
  refine .asks rfl fun entitlements => ?_
  apply Script.Guarded.bind
  refine Script.Guarded.forEach (fun entitlement known => ⟨rfl, fun _ => trivial⟩) ?_
  intro known
  exact Requesting.asks rfl fun machines =>
    scheduleDestructions_requests (subset_append_left _ _)

theorem reportCredentialCleanup_requests :
    Requesting (.reportCredentialCleanup accountId environmentId)
      (reportCredentialCleanup nowMs accountId environmentId) [] := by
  refine .asks rfl fun found => ?_
  cases found with
  | none => trivial
  | some machine =>
    dsimp only
    split
    · rename_i requested
      exact ⟨⟨machine, mem_cons_self, rfl, nowMs, requested.2.1, rfl⟩, fun _ => trivial⟩
    · trivial

end Requests

end Zuse.Machines
