import Zuse.Machines.CustodyRequests
import Zuse.Machines.DestructionRuns

namespace Zuse.Machines

open Option MachineWorld MemoryState

open Data (Operations TransitionSystem)
open Billing (EntitlementStatus)
open MachinePersistenceRecord (awaitsCreation_creating awaitsCreation wantsReady)

section Interrupts

variable {world : MachineWorld}

theorem MachineWorld.isUnused_absent {machineId providerLabel : String}
    (unused : world.isUnused machineId providerLabel = true) :
    world.store.getMachine machineId = none ∧
      ∀ other, world.Stored other → other.providerLabel ≠ providerLabel := by
  obtain ⟨absent, labels⟩ := (Bool.and_eq_true _ _).mp unused
  refine ⟨isNone_iff_eq_none.mp absent, ?_⟩
  intro other stored
  exact of_decide_eq_true (List.all_eq_true.mp labels other (mem_of_getMachine stored))

theorem createMachine_custody (custody : world.Custody) {input : CreateMachineInput}
    (unused : world.isUnused input.machineId input.providerLabel = true) :
    world.Proceeds (world.withStore (world.store.createMachine input).2) ∧
      (world.withStore (world.store.createMachine input).2).Custody := by
  obtain same | ⟨entitlement, created⟩ := world.store.createMachine_cases input
  · rw [same]
    exact Custody.refused custody
  · obtain ⟨absent, labels⟩ := isUnused_absent unused
    have put := world.store.getMachine_putMachine (input.machine entitlement)
    rw [created]
    exact custody.added absent labels put rfl rfl rfl nofun

theorem machineForBillingEvent_carries (machine : MachinePersistenceRecord) (nowMs : Int)
    (entitlement : EntitlementPersistenceRecord) (recoveryWindowMs : Int) :
    let updated := machine.machineForBillingEvent nowMs entitlement recoveryWindowMs
    Carries machine updated ∧ updated.providerServerId = machine.providerServerId ∧
      updated.state = machine.state ∧
        updated.paidThroughMs =
          some ((entitlement.paidThroughMs <|> machine.paidThroughMs).getD nowMs) ∧
        ((entitlement.status = .ended ∧ updated.desiredState = .suspended) ∨
          (entitlement.status ≠ .ended ∧ updated.desiredState = machine.desiredState)) := by
  unfold MachinePersistenceRecord.machineForBillingEvent
  split
  · rename_i ended
    exact ⟨⟨rfl, rfl, rfl, rfl⟩, rfl, rfl, rfl, .inl ⟨ended, rfl⟩⟩
  · rename_i continues
    exact ⟨⟨rfl, rfl, rfl, rfl⟩, rfl, rfl, rfl, .inr ⟨continues, rfl⟩⟩

theorem machineForBillingEvent_awaits {machine : MachinePersistenceRecord} {nowMs now : Int}
    {entitlement : EntitlementPersistenceRecord} {recoveryWindowMs : Int}
    (awaits : machine.awaitsCreation now = true)
    (paid : (entitlement.status ≠ .ended ∧ machine.desiredState = .ready) ∨
      (entitlement.paidThroughMs <|> machine.paidThroughMs).getD nowMs > now) :
    (machine.machineForBillingEvent nowMs entitlement recoveryWindowMs).awaitsCreation now =
      true := by
  obtain ⟨_, _, state, paidThroughMs, desired⟩ :=
    machineForBillingEvent_carries machine nowMs entitlement recoveryWindowMs
  have creating := awaitsCreation_creating awaits
  have wants := MachinePersistenceRecord.awaitsCreation_wants awaits
  simp only [awaitsCreation, wantsReady,
    Bool.and_eq_true, Bool.or_eq_true, decide_eq_true_eq] at wants ⊢
  refine ⟨state.trans creating, ?_⟩
  rw [paidThroughMs, any_some, decide_eq_true_eq]
  obtain ⟨continues, ready⟩ | later := paid
  · obtain ⟨ended, _⟩ | ⟨_, same⟩ := desired
    · exact absurd ended continues
    · exact .inl (same.trans ready)
  obtain ⟨_, suspended⟩ | ⟨_, same⟩ := desired
  · exact .inr ⟨suspended, later⟩
  · obtain ready | ⟨suspended, _⟩ := wants
    · exact .inl (same.trans ready)
    · exact .inr ⟨same.trans suspended, later⟩

theorem applyBillingEvent_custody (custody : world.Custody) {input : ApplyBillingEventInput}
    (unused : input.provisioning.all (fun drawn =>
      world.isUnused drawn.machineId drawn.providerLabel) = true)
    (permitted : PermitsCustody world (.applyBillingEvent input)) :
    world.Proceeds (world.withStore (world.store.applyBillingEvent input).2) ∧
      (world.withStore (world.store.applyBillingEvent input).2).Custody := by
  obtain ⟨_, same⟩ | ⟨unknown, recorded, machines, cases⟩ :=
    world.store.applyBillingEvent_cases input
  · rw [same]
    exact Custody.refused custody
  have written : ∀ base updated : MachinePersistenceRecord, world.Stored base →
      Carries base updated → world.Covers updated →
      (updated.state = .destroyed → updated.providerServerId = none) →
      ∀ {revision}, revision = base.revision + 1 →
        let after := world.withStore (recorded.putMachine { updated with revision })
        world.Proceeds after ∧ after.Custody := by
    intro base updated found carries covers gone revision raised after
    let record : MachinePersistenceRecord := { updated with revision }
    have machineId : record.machineId = base.machineId := carries.machineId
    exact custody.replaced found machineId carries.providerLabel carries.offerId raised
      (getMachine_recorded machines record) rfl rfl rfl covers gone
  obtain ⟨machine, about, updated⟩ | ⟨offerId, provisioning, drawn, _, created⟩ | unchanged :=
    cases
  · rw [updated]
    obtain ⟨attached, found, standing⟩ | ⟨base, found, suspended, active, rfl⟩ :=
      machineOfBillingEvent_cases custody.keyed about
    · obtain ⟨carries, providerServerId, state, _, _⟩ := machineForBillingEvent_carries
        machine input.event.nowMs input.entitlement input.recoveryWindowMs
      refine written machine _ found carries ?_ ?_ rfl
      · refine covers_of_named carries.providerLabel providerServerId ?_
        intro adrift now same
        rw [same]
        exact machineForBillingEvent_awaits (custody.awaits_of_adrift found adrift)
          (permitted unknown machine attached adrift)
      · exact fun destroyed => absurd (state.symm.trans destroyed) standing
    · let renewed := base.renewedMachineForBillingEvent input.event.nowMs input.entitlement
      let updated := renewed.machineForBillingEvent input.event.nowMs input.entitlement
        input.recoveryWindowMs
      obtain ⟨renews, providerServerId, state, _, _⟩ := machineForBillingEvent_carries
        renewed input.event.nowMs input.entitlement input.recoveryWindowMs
      have carries : Carries base updated :=
        ⟨renews.machineId, renews.providerLabel, renews.offerId, renews.revision⟩
      refine written base _ found carries ?_ ?_ rfl
      · refine covers_of_named carries.providerLabel providerServerId ?_
        intro adrift
        exact absurd (custody.awaits_of_adrift found adrift)
          (idle_of_state (by rw [suspended]; decide) world.nowMs)
      · intro destroyed
        cases state.symm.trans destroyed
  · obtain ⟨absent, labels⟩ := isUnused_absent (by
      rw [drawn] at unused
      exact unused)
    rw [created]
    exact custody.added absent labels (getMachine_recorded machines _) rfl rfl rfl
      (by intro destroyed; cases destroyed)
  · rw [unchanged]
    exact custody.narrowed (getMachine_congr machines) (List.Subset.refl _) rfl (List.Subset.refl _)

theorem tick_custody {nowMs : Int} (custody : world.Custody) (later : world.nowMs ≤ nowMs)
    (permitted : PermitsCustody world (.tick nowMs)) :
    world.Proceeds { world with nowMs } ∧ ({ world with nowMs } : MachineWorld).Custody := by
  refine ⟨{ Custody.proceeds_refl world with nowMs := later },
    { custody with covered := ?_ }⟩
  intro machine stored server member label
  by_cases named : machine.names server
  · exact .inl named
  have adrift : world.Adrift machine := ⟨server, member, label, named⟩
  have awaits := custody.awaits_of_adrift stored adrift
  refine .inr ?_
  rw [awaitsCreation, awaitsCreation_creating awaits]
  exact permitted machine stored adrift

end Interrupts

section Runs

variable {sha256Hex : String → String} {config : MachineControlConfig} {nowMs : Int}

theorem machineOperations_custody :
    (machineOperations sha256Hex config).Conducted custodyRegime PermitsCustody where
  refl := Custody.proceeds_refl
  trans := Proceeds.trans
  program := by
    intro operation world _
    cases operation with
    | reconcileMachines owner => exact reconcileMachines_custody owner (Int.le_refl _)
    | reconcileMachine machineId owner =>
      exact reconcileMachine_custody machineId owner (Int.le_refl _)
    | bootStatus tokenHash machineId body => exact bootStatus_requests.custody
    | enroll tokenHash machineId environmentId publicKey => exact enroll_requests.custody
    | cancel accountId machineId => exact cancel_requests.custody
    | recover accountId machineId => exact recover_requests.custody
    | destroy accountId machineId => exact destroy_requests.custody
    | deleteAccount accountId => exact deleteAccount_requests.custody
    | reportCredentialCleanup accountId environmentId =>
      exact reportCredentialCleanup_requests.custody
  interrupt := by
    intro which world next custody permitted happened
    cases which with
    | createMachine input =>
      obtain ⟨unused, same⟩ := ite_none_right_eq_some.mp happened
      cases same
      exact createMachine_custody custody unused
    | upsertEntitlement entitlement =>
      cases happened
      exact custody.narrowed (fun _ => rfl) (List.Subset.refl _) rfl (List.Subset.refl _)
    | applyBillingEvent input =>
      obtain ⟨unused, same⟩ := ite_none_right_eq_some.mp happened
      cases same
      exact applyBillingEvent_custody custody unused permitted
    | tick later =>
      obtain ⟨after, same⟩ := ite_none_right_eq_some.mp happened
      cases same
      exact tick_custody custody after permitted

theorem empty_custody : (MachineWorld.empty nowMs).Custody where
  keyed := by
    intro machineId machine found
    cases found
  labelled := by
    intro first second found
    cases found
  placed := by
    intro server member
    cases member
  single := by
    intro first member
    cases member
  offered := by
    intro machine found
    cases found
  covered := by
    intro machine found
    cases found
  gone := by
    intro machine found
    cases found

def MachineOperation.isPass : MachineOperation → Bool
  | .reconcileMachines _ => true
  | .reconcileMachine .. => true
  | _ => false

/-- Where no pass is in flight every server of a machine's label is named by its record or
looked up by the next pass; and a destroyed machine has no server. -/
def ServersKept (pool : MachinePool) : Prop :=
  ((∀ current ∈ pool.running, current.1.isPass = true → current.2 = .done ()) →
    ∀ machine, pool.state.Stored machine → ∀ server ∈ pool.state.servers,
      server.providerLabel = machine.providerLabel →
        machine.names server ∨ machine.looksUp pool.state.nowMs = true) ∧
  ∀ machine, pool.state.Stored machine → machine.state = .destroyed →
    ∀ server ∈ pool.state.servers, server.providerLabel ≠ machine.providerLabel

def Mooring : MachinePool → MachineEvent → Prop :=
  Operations.Admitted AdmitsCustody PermitsCustody

theorem serversKept_of_run {events : List MachineEvent} {pool : MachinePool}
    (ran : (machineSystem sha256Hex config nowMs).run events = some pool)
    (moored : (machineSystem sha256Hex config nowMs).EachStep Mooring
      (machineSystem sha256Hex config nowMs).init events) : ServersKept pool := by
  have conducted : (machineOperations sha256Hex config).Conducted custodyRegime
      PermitsCustody := machineOperations_custody
  have begun : (machineOperations sha256Hex config).Proper custodyRegime
      (machineSystem sha256Hex config nowMs).init := Operations.initial_proper empty_custody
  obtain ⟨proper, _⟩ := Operations.runFrom_proper conducted begun ran moored
  have custody : pool.state.Custody := proper.state
  refine ⟨?_, ?_⟩
  · intro _ machine stored server member label
    exact (custody.covered machine stored server member label).imp_right
      MachinePersistenceRecord.looksUp_of_awaitsCreation
  intro machine stored destroyed server member label
  cases custody.covered machine stored server member label with
  | inl named =>
    have named : machine.providerServerId = some server.providerServerId := named
    rw [custody.gone machine stored destroyed] at named
    cases named
  | inr awaits =>
    rw [awaitsCreation_creating awaits] at destroyed
    cases destroyed

end Runs

section Example

def serverCreated : List MachineEvent :=
  [.interrupt (.upsertEntitlement (sampleEntitlement .active)),
    .interrupt (.createMachine sampleMachineInput),
    .begin (.reconcileMachine "machine_1" "worker"),
    .proceed 0 {}, .proceed 0 {}, .proceed 0 {},
    .proceed 0 { text := "token" }, .proceed 0 {}, .proceed 0 { text := "server_1" }]

/-- The new server reports that it boots before the pass that created it saves its id. -/
theorem not_serversKept : ¬ ∀ events (pool : MachinePool),
    (machineSystem id sampleConfig 0).run events = some pool → ServersKept pool := by
  intro claim
  let events : List MachineEvent := serverCreated ++
    [.begin (.bootStatus "token" "machine_1" ⟨.bootstrapStarted, none⟩),
      .proceed 1 {}, .proceed 1 {}, .proceed 0 {}, .proceed 1 {}, .proceed 0 {}]
  have lost : ((machineSystem id sampleConfig 0).run events).any (fun pool : MachinePool =>
      pool.running.isEmpty && pool.state.servers = [⟨"server_1", "zuse-machine-1"⟩] &&
        (pool.state.store.getMachine "machine_1").any fun machine =>
          machine.machineId = "machine_1" && machine.providerLabel = "zuse-machine-1" &&
            machine.providerServerId = none && machine.looksUp pool.state.nowMs = false) =
      true := by decide +kernel
  obtain ⟨pool, ran, rest⟩ := (any_eq_true _ _).mp lost
  simp only [Bool.and_eq_true, decide_eq_true_eq] at rest
  obtain ⟨⟨quiet, servers⟩, rest⟩ := rest
  obtain ⟨machine, found, rest⟩ := (any_eq_true _ _).mp rest
  simp only [Bool.and_eq_true, decide_eq_true_eq] at rest
  obtain ⟨⟨⟨machineId, label⟩, unnamed⟩, unsought⟩ := rest
  have stored : pool.state.Stored machine := by
    rw [Stored, machineId]
    exact found
  have none : ∀ current ∈ pool.running, current.1.isPass = true → current.2 = .done () := by
    rw [List.isEmpty_iff.mp quiet]
    intro current member
    cases member
  have kept := (claim events pool ran).1 none machine stored ⟨"server_1", "zuse-machine-1"⟩
    (by rw [servers]; exact List.mem_singleton_self _) label.symm
  cases kept with
  | inl named =>
    have named : machine.providerServerId = some "server_1" := named
    rw [unnamed] at named
    cases named
  | inr sought =>
    rw [unsought] at sought
    cases sought

/-- A check of one step that needs no record of the store but those listed. -/
def mooringCheck (pool : MachinePool) : MachineEvent → Bool
  | .proceed index choice =>
    choice.error.isNone && (pool.running[index]?).all fun (_, script) =>
      match script with
      | .done _ => true
      | .call (.create _ label _ _) _ =>
        pool.state.canCreate label choice.text &&
          pool.state.store.machines.values.all fun machine =>
            machine.awaitsCreation pool.state.nowMs &&
              !pool.state.decided.contains (label, machine.revision)
      | .call (.compareAndSetMachine ..) _ =>
        pool.state.store.machines.values.all fun machine =>
          pool.state.servers.all fun server =>
            machine.providerServerId = some server.providerServerId
      | .call (.completeEnrollment ..) _ => false
      | .call _ _ => true
  | .interrupt (.applyBillingEvent _) => false
  | .interrupt (.tick _) => false
  | _ => true

theorem mooring_of_check (pool : MachinePool) (event : MachineEvent)
    (checked : mooringCheck pool event = true) : Mooring pool event := by
  cases event with
  | begin operation | abandon index => trivial
  | interrupt which =>
    cases which with
    | createMachine input | upsertEntitlement entitlement => trivial
    | applyBillingEvent input | tick nowMs => cases checked
  | proceed index choice =>
    obtain ⟨succeeds, checked⟩ := (Bool.and_eq_true _ _).mp checked
    have succeeds : choice.error = none := isNone_iff_eq_none.mp succeeds
    intro operation request rest runs
    rw [runs, all_some] at checked
    have stored : ∀ {machine}, pool.state.Stored machine →
        machine ∈ pool.state.store.machines.values := mem_of_getMachine
    cases request with
    | recoverByLabel label =>
      intro failure failed
      rw [succeeds] at failed
      cases failed
    | create machineId label offer token =>
      simp only [Bool.and_eq_true, List.all_eq_true, Bool.not_eq_true'] at checked
      obtain ⟨free, waiting⟩ := checked
      refine ⟨?_, ?_⟩
      · intro _ _ machine present _
        obtain ⟨awaits, undecided⟩ := waiting machine (stored present)
        refine ⟨awaits, fun member => ?_⟩
        rw [List.contains_iff_mem.mpr member] at undecided
        cases undecided
      · intro failure failed
        simp only [MachineWorld.createServer, succeeds, free, and_self, if_true] at failed
        cases failed
    | compareAndSetMachine machine revision =>
      simp only [List.all_eq_true, decide_eq_true_eq] at checked
      intro machine present _ _ adrift
      obtain ⟨server, member, _, unnamed⟩ := adrift
      exact absurd (checked machine (stored present) server member) unnamed
    | completeEnrollment machine tokenHash revision => cases checked
    | _ => trivial

/-- The server of a machine is created, the machine boots and is then destroyed. -/
theorem serversKept_of_created : ∃ events, ∃ pool : MachinePool,
    (machineSystem id sampleConfig 0).run events = some pool ∧ ServersKept pool ∧
      pool.state.servers = [] ∧
        (pool.state.store.getMachine "machine_1").any (fun machine =>
          machine.state = .destroyed) = true := by
  let events : List MachineEvent := serverCreated ++
    [.proceed 0 {}, .begin (.bootStatus "token" "machine_1" ⟨.bootstrapStarted, none⟩),
      .proceed 1 {}, .proceed 1 {},
      .begin (.destroy "account" "machine_1"),
      .proceed 2 {}, .proceed 2 {}, .proceed 2 {}, .proceed 2 {},
      .begin (.reconcileMachine "machine_1" "worker"),
      .proceed 3 {}, .proceed 3 {}, .proceed 3 {}, .proceed 3 {}, .proceed 3 {}, .proceed 3 {}]
  have reached : ((machineSystem id sampleConfig 0).run events).any (fun pool : MachinePool =>
      pool.state.servers = [] &&
        (pool.state.store.getMachine "machine_1").any fun machine =>
          machine.state = .destroyed) = true := by decide +kernel
  have checked : (machineSystem id sampleConfig 0).EachStep
      (fun pool event => mooringCheck pool event = true)
      (machineSystem id sampleConfig 0).init events := by decide +kernel
  obtain ⟨pool, ran, rest⟩ := (any_eq_true _ _).mp reached
  simp only [Bool.and_eq_true, decide_eq_true_eq] at rest
  exact ⟨events, pool, ran, serversKept_of_run ran (checked.mono _ mooring_of_check), rest⟩

end Example

end Zuse.Machines
