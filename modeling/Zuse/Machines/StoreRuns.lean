import Zuse.Machines.DestructionRuns
import Zuse.Machines.StoreEquivalence

namespace Zuse.Machines

open List

open Data (InsertionMap TransitionSystem)
open Billing (EntitlementStatus)
open MachineTables (perform)

theorem Agrees.step {dated : Prop} {memory : MemoryState} {tables : MachineTables}
    (agrees : Agrees dated memory tables) (order : RowOrder) {call : MachineStoreCall}
    (alike : Alike dated memory tables call) :
    (memory.perform call).1.Same (tables.perform order call).1 ∧
      Agrees dated (memory.perform call).2 (tables.perform order call).2 := by
  cases call with
  | createMachine input =>
    obtain ⟨after, creates, still⟩ := agrees.createMachine order alike
    simp only [perform, creates]
    exact ⟨rfl, still⟩
  | applyBillingEvent input =>
    obtain ⟨after, applies, still⟩ := agrees.applyBillingEvent order alike
    simp only [perform, applies]
    exact ⟨rfl, still⟩
  | upsertEntitlement entitlement => exact ⟨rfl, agrees.upserted alike⟩
  | compareAndSetMachine machine expectedRevision =>
    obtain ⟨after, saves, still⟩ := agrees.compareAndSetMachine alike
    simp only [perform, saves]
    exact ⟨rfl, still⟩
  | completeEnrollment machine tokenHash expectedRevision =>
    have completes := agrees.completeEnrollment tokenHash alike
    obtain ⟨after, saves, still⟩ := completes
    simp only [perform, saves]
    exact ⟨rfl, still⟩
  | claimDueMachines input limit => exact agrees.claimDueMachines order alike
  | claimMachine machineId input =>
    obtain ⟨after, claims, still⟩ := agrees.claimMachine machineId input
    simp only [perform, claims]
    exact ⟨rfl, still⟩
  | saveReconciledMachine machine owner expectedRevision =>
    have reconciles := agrees.saveReconciledMachine owner alike
    obtain ⟨after, saves, still⟩ := reconciles
    simp only [perform, saves]
    exact ⟨rfl, still⟩

structure MachineStores where
  memory : MemoryState
  tables : MachineTables
  outcomes : List (MachineStoreOutcome × MachineStoreOutcome)

/-- Each call goes to both stores; the database visits its rows in any order. -/
def machineStores : TransitionSystem MachineStores (MachineStoreCall × RowOrder) where
  init := ⟨.empty, .empty, []⟩
  step := fun stores event =>
    let inMemory := stores.memory.perform event.1
    let inTables := stores.tables.perform event.2 event.1
    some ⟨inMemory.2, inTables.2, stores.outcomes ++ [(inMemory.1, inTables.1)]⟩

/-- Both stores are one store: they returned the same and hold the same; an entitlement is
attached to one machine that is not destroyed and an account has one of a kind; and an event
that was consumed changes nothing. -/
structure OneStore (stores : MachineStores) : Prop where
  outcomes : ∀ pair ∈ stores.outcomes, pair.1.Same pair.2
  machines : ∀ machineId, stores.tables.getMachine machineId = stores.memory.getMachine machineId
  entitlements : ∀ entitlementId, stores.tables.entitlements.get? entitlementId =
    stores.memory.entitlements.get? entitlementId
  billingEvents : stores.memory.billingEvents = stores.tables.billingEvents.map consumedKey
  attached : ∀ first ∈ stores.memory.machines.values,
    ∀ second ∈ stores.memory.machines.values, first.state ≠ .destroyed →
      second.state ≠ .destroyed → first.entitlementId = second.entitlementId →
        first = second
  kinds : ∀ first ∈ stores.memory.machines.values,
    ∀ second ∈ stores.memory.machines.values, first.state ≠ .destroyed →
      second.state ≠ .destroyed → first.accountId = second.accountId →
        ∀ kind, offerKind first.offerId = some kind → offerKind second.offerId = some kind →
          first = second
  repeated : ∀ order input,
    (input.event.provider, input.event.eventId) ∈ stores.tables.billingEvents →
      (stores.memory.applyBillingEvent input).2 = stores.memory ∧
        ∃ outcome, stores.tables.applyBillingEvent order input = some (outcome, stores.tables)

section Runs

variable {dated : Prop} {stores : MachineStores}
  {events : List (MachineStoreCall × RowOrder)}

/-- The stores agree after calls that they answer alike: on all but the times of creation
of entitlements, and on these where `dated` holds. -/
theorem agrees_of_run (ran : machineStores.run events = some stores)
    (alike : machineStores.EachStep
      (fun stores event => Alike dated stores.memory stores.tables event.1)
      machineStores.init events) :
    Agrees dated stores.memory stores.tables ∧ ∀ pair ∈ stores.outcomes, pair.1.Same pair.2 := by
  have empty : Agrees dated machineStores.init.memory machineStores.init.tables := by
    constructor
    case keyed =>
      intro id machine found
      cases found
    case machines => exact fun _ => rfl
    case filed =>
      intro id entitlement found
      cases found
    case entitlements => exact fun _ => rfl
    case created => exact fun _ _ => rfl
    case billingEvents => rfl
    case apart =>
      intro id other machine rival found
      cases found
    case separate =>
      intro id other machine rival found
      cases found
  have kept : ∀ (before : MachineStores) (event : MachineStoreCall × RowOrder) next,
      Agrees dated before.memory before.tables ∧ (∀ pair ∈ before.outcomes, pair.1.Same pair.2) →
      Alike dated before.memory before.tables event.1 →
      machineStores.step before event = some next →
        Agrees dated next.memory next.tables ∧ ∀ pair ∈ next.outcomes, pair.1.Same pair.2 := by
    intro before event next known alike stepped
    obtain ⟨first, still⟩ := known.1.step event.2 alike
    cases stepped
    refine ⟨still, ?_⟩
    intro pair member
    cases Data.mem_concat.mp member with
    | inl earlier => exact known.2 pair earlier
    | inr new =>
      rw [new]
      exact first
  have start : Agrees dated machineStores.init.memory machineStores.init.tables ∧
      ∀ pair ∈ machineStores.init.outcomes, pair.1.Same pair.2 := by
    refine ⟨empty, ?_⟩
    intro pair member
    cases member
  exact alike.invariant _ kept ran start

theorem oneStore_of_run (ran : machineStores.run events = some stores)
    (alike : machineStores.EachStep
      (fun stores event => Alike True stores.memory stores.tables event.1)
      machineStores.init events) : OneStore stores := by
  obtain ⟨agrees, same⟩ := agrees_of_run ran alike
  have apart : ∀ {first second : MachinePersistenceRecord},
      first ∈ stores.memory.machines.values → second ∈ stores.memory.machines.values →
        first ≠ second → first.Separate second := by
    intro first second member also different
    exact agrees.separate _ _ first second (agrees.get_of_mem member) (agrees.get_of_mem also)
      (fun ids => different (agrees.eq_of_id member also ids))
  refine ⟨same, agrees.machines, agrees.created trivial, agrees.billingEvents, ?_, ?_, ?_⟩
  · intro first member second also standing standing' entitlements
    by_contra different
    exact (apart member also different standing standing').1 entitlements
  · intro first member second also standing standing' accounts kind one two
    by_contra different
    exact (apart member also different standing standing').2 kind one two accounts
  intro order input consumed
  have key : stores.memory.billingEvents.contains input.event.key = true := by
    rw [contains_iff_mem, agrees.billingEvents]
    exact mem_map.mpr ⟨_, consumed, rfl⟩
  have pair := contains_iff_mem.mpr consumed
  refine ⟨?_, ?_⟩
  · unfold MemoryState.applyBillingEvent
    rw [if_pos key]
  · unfold MachineTables.applyBillingEvent
    rw [if_pos pair]
    exact ⟨_, rfl⟩

theorem coversKind_offerIdsOfKind {offerId kind : String}
    (known : offerKind offerId = some kind) : CoversKind offerId (offerIdsOfKind kind) := by
  have listed : ∀ other, offerKind other = some kind → other ∈ offerIdsOfKind kind := by
    intro other same
    obtain ⟨offer, found, ofKind⟩ := Option.map_eq_some_iff.mp same
    have named := find?_some found
    rw [← of_decide_eq_true named]
    refine mem_map.mpr ⟨offer, mem_filter.mpr ⟨mem_of_find?_eq_some found, ?_⟩, rfl⟩
    exact decide_eq_true ofKind
  refine ⟨ne_nil_of_mem (listed offerId known), ?_⟩
  intro other same third ofKind
  rw [known] at same
  cases same
  exact listed third ofKind

end Runs

def creation : List (MachineStoreCall × RowOrder) :=
  [(.upsertEntitlement (sampleEntitlement .active), .inserted),
    (.createMachine sampleMachineInput, .inserted),
    (.applyBillingEvent (sampleBillingEvent "evt_1" .active), .inserted)]

theorem oneStore_of_creation :
    ∃ stores, machineStores.run creation = some stores ∧ OneStore stores := by
  have ran : (machineStores.run creation).isSome := by decide +kernel
  obtain ⟨stores, ran⟩ := Option.isSome_iff_exists.mp ran
  refine ⟨stores, ran, oneStore_of_run ran ?_⟩
  have ofKind : offerKind sampleMachineInput.offerId = some "persistent" := by decide
  refine ⟨?_, ?_, ?_, trivial⟩
  · constructor
    case same =>
      intro stored found
      cases found
    case created =>
      intro _ stored found
      cases found
  · refine fun _ => ⟨coversKind_offerIdsOfKind ofKind, rfl, ?_⟩
    intro first eligible other member pays unattached different
    cases eligible
    exact absurd (mem_singleton.mp member) different
  refine ⟨fun consumed member => ?_, fun _ => ⟨?_, ?_, ?_⟩⟩
  · cases member
  · constructor
    case same =>
      intro stored found
      cases found
      exact ⟨rfl, rfl, rfl⟩
    case created =>
      intro _ stored found
      cases found
      rfl
  · nofun
  · nofun

def renewalEntitlement : EntitlementPersistenceRecord :=
  { sampleEntitlement .active with
    entitlementId := "ent_2"
    providerSubscriptionId := some "sub_2"
    paidThroughMs := some 5000
    createdAtMs := 1
    updatedAtMs := 1 }

/-- The machine that is created for the sample entitlement, after it was suspended. -/
def suspendedMachine : MachinePersistenceRecord :=
  { sampleMachineInput.machine (sampleEntitlement .active) with
    state := .suspended
    desiredState := .suspended
    recoveryDeadlineMs := some 2000
    leaseOwner := some "worker"
    leaseExpiresAtMs := some 300000 }

def recovery : List (MachineStoreCall × RowOrder) :=
  [(.upsertEntitlement (sampleEntitlement .active), .inserted),
    (.createMachine sampleMachineInput, .inserted),
    (.claimMachine "machine_1" ⟨0, "worker", 300000⟩, .inserted),
    (.saveReconciledMachine suspendedMachine "worker" 1, .inserted),
    (.upsertEntitlement renewalEntitlement, .inserted),
    (.compareAndSetMachine
      ({ suspendedMachine with leaseOwner := none, leaseExpiresAtMs := none }.recovered 1
        renewalEntitlement) 2, .inserted)]

/-- Entitlements that were written have distinct times of creation. -/
def MachineStores.DistinctlyDated (stores : MachineStores) : Prop :=
  ∀ first ∈ stores.tables.entitlements.values, ∀ second ∈ stores.tables.entitlements.values,
    first.createdAtMs = second.createdAtMs → first = second

instance (stores : MachineStores) : Decidable stores.DistinctlyDated :=
  inferInstanceAs (Decidable (∀ first ∈ _, ∀ second ∈ _, _ → _))

/-- The database keeps the old entitlement of the recovered machine. -/
theorem not_oneStore : ¬ ∀ (events : List (MachineStoreCall × RowOrder))
    (stores : MachineStores), machineStores.run events = some stores →
      stores.DistinctlyDated → OneStore stores := by
  intro claim
  have detached : (machineStores.run recovery).any (fun stores =>
      decide stores.DistinctlyDated &&
        (stores.memory.getMachine "machine_1").any (fun machine =>
          (stores.tables.getMachine "machine_1").any fun row =>
            machine.entitlementId = "ent_2" && row.entitlementId = "ent_1" &&
              row.state = .resuming)) = true := by
    decide +kernel
  obtain ⟨stores, ran, rest⟩ := (Option.any_eq_true _ _).mp detached
  simp only [Bool.and_eq_true, decide_eq_true_eq] at rest
  obtain ⟨machine, inMemory, rest'⟩ := (Option.any_eq_true _ _).mp rest.2
  obtain ⟨row, inTables, differs⟩ := (Option.any_eq_true _ _).mp rest'
  simp only [Bool.and_eq_true, decide_eq_true_eq] at differs
  have same := (claim recovery stores ran rest.1).machines "machine_1"
  rw [inMemory, inTables] at same
  cases same
  exact absurd (differs.1.1.symm.trans differs.1.2) (by decide)

end Zuse.Machines
