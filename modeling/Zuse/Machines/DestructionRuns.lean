import Zuse.Machines.DestructionRequests

namespace Zuse.Machines

open Option

open Data (Conduct Operations TransitionSystem)
open Billing (EntitlementStatus)

section Interrupts

variable {world next : MachineWorld}

theorem createMachine_persists (sound : world.Sound) {input : CreateMachineInput}
    (unused : world.isUnused input.machineId input.providerLabel = true) :
    world.Persists (world.withStore (world.store.createMachine input).2) ∧
      (world.withStore (world.store.createMachine input).2).Sound := by
  obtain same | ⟨entitlement, created⟩ := world.store.createMachine_cases input
  · rw [same]
    exact sound.refused
  rw [created]
  have absent : world.store.getMachine (input.machine entitlement).machineId = none :=
    isNone_iff_eq_none.mp ((Bool.and_eq_true _ _).mp unused).1
  exact sound.added absent (world.store.getMachine_putMachine _) rfl ⟨nofun, nofun⟩

variable {machine : MachinePersistenceRecord} {entitlement : EntitlementPersistenceRecord}

theorem machineForBillingEvent_tends {nowMs : Int} {recoveryWindowMs : Int}
    (continues : entitlement.status ≠ .ended) :
    machine.Tends (machine.machineForBillingEvent nowMs entitlement recoveryWindowMs) ∧
      (machine.machineForBillingEvent nowMs entitlement recoveryWindowMs).state =
        machine.state := by
  unfold MachinePersistenceRecord.machineForBillingEvent
  rw [if_neg continues]
  exact ⟨⟨⟨rfl, rfl, rfl⟩, rfl, rfl⟩, rfl⟩

theorem machineForBillingEvent_becomes (nowMs : Int) (recoveryWindowMs : Int)
    (deletedUsers : List String) (settled : machine.Settled)
    (wanted : entitlement.status = .ended → machine.desiredState ≠ .destroyed) :
    let updated := machine.machineForBillingEvent nowMs entitlement recoveryWindowMs
    machine.Becomes deletedUsers updated ∧ updated.Settled := by
  intro updated
  by_cases ended : entitlement.status = .ended
  · have alive := wanted ended
    have standing : machine.state ≠ .destroyed :=
      fun destroyed => alive (settled.destroyed destroyed)
    have suspends : updated = { machine with
        desiredState := .suspended
        statusCode := .cancellationScheduled
        paidThroughMs := updated.paidThroughMs
        recoveryDeadlineMs := updated.recoveryDeadlineMs
        nextActionAtMs := updated.nextActionAtMs
        updatedAtMs := nowMs } := by
      simp only [updated, MachinePersistenceRecord.machineForBillingEvent, ended, if_true]
    rw [suspends]
    have edits : machine.Edits { machine with
        desiredState := .suspended
        statusCode := .cancellationScheduled
        paidThroughMs := updated.paidThroughMs
        recoveryDeadlineMs := updated.recoveryDeadlineMs
        nextActionAtMs := updated.nextActionAtMs
        updatedAtMs := nowMs } := ⟨rfl, rfl, rfl⟩
    exact edits.living settled alive nofun standing rfl
  · obtain ⟨tends, state⟩ := machineForBillingEvent_tends ended
    exact tends.unmoved settled state

theorem renewed_becomes (nowMs : Int) (recoveryWindowMs : Int) (deletedUsers : List String)
    (settled : machine.Settled) (suspended : machine.state = .suspended)
    (active : entitlement.status = .active) :
    let renewed := machine.renewedMachineForBillingEvent nowMs entitlement
    let updated := renewed.machineForBillingEvent nowMs entitlement recoveryWindowMs
    machine.Becomes deletedUsers updated ∧ updated.Settled := by
  intro renewed updated
  have wanted : machine.desiredState ≠ .destroyed := by
    intro doomed
    obtain state | state | state := settled.doomed doomed
    all_goals
      rw [suspended] at state
      cases state
  have edits : machine.Edits renewed := ⟨rfl, rfl, rfl⟩
  obtain ⟨becomes, living⟩ : machine.Becomes deletedUsers renewed ∧ renewed.Settled :=
    edits.living settled wanted nofun nofun rfl
  have continues : entitlement.status ≠ .ended := by
    rw [active]
    nofun
  obtain ⟨tends, state⟩ := machineForBillingEvent_tends continues
  obtain ⟨further, last⟩ := tends.unmoved living state
  exact ⟨becomes.trans further (List.Subset.refl deletedUsers), last⟩

theorem applyBillingEvent_persists (sound : world.Sound) {input : ApplyBillingEventInput}
    (unused : input.provisioning.all (fun drawn =>
      world.isUnused drawn.machineId drawn.providerLabel) = true)
    (permitted : PermitsEvent world (.applyBillingEvent input)) :
    world.Persists (world.withStore (world.store.applyBillingEvent input).2) ∧
      (world.withStore (world.store.applyBillingEvent input).2).Sound := by
  obtain ⟨_, same⟩ | ⟨unknown, recorded, machines, cases⟩ :=
    world.store.applyBillingEvent_cases input
  · rw [same]
    exact sound.refused
  have written : ∀ base updated : MachinePersistenceRecord,
      world.store.getMachine base.machineId = some base →
      base.Becomes world.deletedUsers updated → updated.Settled →
      ∀ {revision}, revision = base.revision + 1 →
        let after := world.withStore (recorded.putMachine { updated with revision })
        world.Persists after ∧ after.Sound := by
    intro base updated found becomes settled revision raised after
    let record : MachinePersistenceRecord := { updated with revision }
    have here : world.store.getMachine record.machineId = some base := by
      rw [show record.machineId = base.machineId from becomes.machineId]
      exact found
    have becoming : base.Becomes world.deletedUsers record :=
      ⟨becomes.machineId, becomes.accountId, becomes.doomed, becomes.absorbed, becomes.identity⟩
    exact sound.replaced here (MemoryState.getMachine_recorded machines record) rfl raised becoming
      ⟨settled.doomed, settled.destroyed⟩
  obtain ⟨machine, about, updated⟩ | ⟨offerId, provisioning, drawn, _, created⟩ | unchanged :=
    cases
  · rw [updated]
    obtain ⟨attached, found, standing⟩ | ⟨base, found, suspended, active, rfl⟩ :=
      MemoryState.machineOfBillingEvent_cases sound.keyed about
    · have wanted := fun ended => permitted ended unknown machine attached
      obtain ⟨becomes, still⟩ := machineForBillingEvent_becomes input.event.nowMs
        input.recoveryWindowMs world.deletedUsers (sound.settled _ machine found) wanted
      exact written machine _ found becomes still rfl
    · obtain ⟨becomes, still⟩ := renewed_becomes input.event.nowMs input.recoveryWindowMs
        world.deletedUsers (sound.settled _ base found) suspended active
      exact written base _ found becomes still rfl
  · rw [created]
    have absent : world.store.getMachine provisioning.machineId = none := by
      rw [drawn] at unused
      exact isNone_iff_eq_none.mp ((Bool.and_eq_true _ _).mp unused).1
    exact sound.added absent (MemoryState.getMachine_recorded machines _) rfl
      ⟨(by intro doomed; cases doomed), (by intro destroyed; cases destroyed)⟩
  · rw [unchanged]
    have stored := MemoryState.getMachine_congr machines
    exact ⟨.of_same stored (List.Subset.refl _), sound.of_same stored⟩

end Interrupts

section Runs

variable {sha256Hex : String → String} {config : MachineControlConfig} {nowMs : Int}

theorem machineOperations_conducted :
    (machineOperations sha256Hex config).Conducted destructionRegime PermitsEvent where
  refl := MachineWorld.Persists.refl
  trans := MachineWorld.Persists.trans
  program := by
    intro operation world _
    cases operation with
    | reconcileMachines owner => exact reconcileMachines_keeps owner
    | reconcileMachine machineId owner => exact reconcileMachine_keeps machineId owner
    | bootStatus tokenHash machineId body => exact bootStatus_requests.persists
    | enroll tokenHash machineId environmentId publicKey => exact enroll_requests.persists
    | cancel accountId machineId => exact cancel_requests.persists
    | recover accountId machineId => exact recover_requests.persists
    | destroy accountId machineId => exact destroy_requests.persists
    | deleteAccount accountId => exact deleteAccount_requests.persists
    | reportCredentialCleanup accountId environmentId => exact
      reportCredentialCleanup_requests.persists
  interrupt := by
    intro which world next sound permitted happened
    cases which with
    | createMachine input =>
      obtain ⟨unused, same⟩ := ite_none_right_eq_some.mp happened
      cases same
      exact createMachine_persists sound unused
    | upsertEntitlement entitlement =>
      cases happened
      exact ⟨.of_same (fun _ => rfl) (List.Subset.refl _), sound.of_same fun _ => rfl⟩
    | applyBillingEvent input =>
      obtain ⟨unused, same⟩ := ite_none_right_eq_some.mp happened
      cases same
      exact applyBillingEvent_persists sound unused permitted
    | tick later =>
      obtain ⟨_, same⟩ := ite_none_right_eq_some.mp happened
      cases same
      exact ⟨.of_same (fun _ => rfl) (List.Subset.refl _), sound.of_same fun _ => rfl⟩

theorem empty_sound : (MachineWorld.empty nowMs).Sound where
  keyed := by
    intro machineId machine found
    cases found
  settled := by
    intro machineId machine found
    cases found

/-- A machine whose destruction is requested stays so and is only being destroyed, failed
or destroyed; a destroyed machine stays destroyed; and the deletion of its account stays
requested until the account's identity is deleted. -/
def NeverUndone (before after : MachineWorld) : Prop :=
  ∀ machineId machine, before.store.getMachine machineId = some machine →
    ∃ later, after.store.getMachine machineId = some later ∧
      (machine.desiredState = .destroyed → later.desiredState = .destroyed ∧
        (later.state = .destroying ∨ later.state = .failed ∨ later.state = .destroyed)) ∧
      (machine.state = .destroyed → later.state = .destroyed) ∧
      (machine.accountDeletionRequestedAtMs.isSome →
        later.accountDeletionRequestedAtMs = none → machine.accountId ∈ after.deletedUsers)

/-- The steps after which a requested destruction stands. -/
def Undisturbing : MachinePool → MachineEvent → Prop :=
  Operations.Admitted (fun _ => AdmitsDeletion) PermitsEvent

/-- In every run whose steps are undisturbing, whatever happens between two of its states
undoes no destruction that was requested in the first. -/
theorem neverUndone_of_run {earlier later : List MachineEvent} {middle last : MachinePool}
    (ran : (machineSystem sha256Hex config nowMs).run earlier = some middle)
    (calm : (machineSystem sha256Hex config nowMs).EachStep Undisturbing
      (machineSystem sha256Hex config nowMs).init earlier)
    (wentOn : (machineSystem sha256Hex config nowMs).runFrom middle later = some last)
    (stillCalm : (machineSystem sha256Hex config nowMs).EachStep Undisturbing middle later) :
    NeverUndone middle.state last.state := by
  have conducted : (machineOperations sha256Hex config).Conducted destructionRegime
      PermitsEvent := machineOperations_conducted
  have begun : (machineOperations sha256Hex config).Proper destructionRegime
      (machineSystem sha256Hex config nowMs).init := Operations.initial_proper empty_sound
  obtain ⟨proper, _⟩ := Operations.runFrom_proper conducted begun ran calm
  obtain ⟨still, persists⟩ := Operations.runFrom_proper conducted proper wentOn stillCalm
  intro machineId machine found
  obtain ⟨final, stored, becomes⟩ := persists.machines machineId machine found
  refine ⟨final, stored, ?_, becomes.absorbed, becomes.identity⟩
  intro doomed
  have remains := becomes.doomed doomed
  exact ⟨remains, (still.state.settled machineId final stored).doomed remains⟩

theorem admitsDeletion_of_success {world : MachineWorld} {request : MachineCall}
    {answer : Answer} (succeeds : answer.error = none) :
    AdmitsDeletion world request answer := by
  unfold AdmitsDeletion
  split
  · intro failure failed
    rw [succeeds] at failed
    cases failed
  · trivial

end Runs

section Example

def sampleConfig : MachineControlConfig where
  allowlistedAccountIds := []
  manualEntitlementsEnabled := false
  enrollmentTtlMs := 30 * 60 * 1000
  recoveryWindowMs := 7 * 24 * 60 * 60 * 1000
  finalSnapshotRetentionMs := 14 * 24 * 60 * 60 * 1000
  reconcileLeaseMs := 5 * 60 * 1000

def sampleEntitlement (status : EntitlementStatus) : EntitlementPersistenceRecord where
  entitlementId := "ent_1"
  accountId := "account"
  kind := .persistentMachine
  offerId := some "persistent-standard-v1"
  provider := "stripe"
  providerSubscriptionId := some "sub_1"
  status
  paidThroughMs := some 1000
  createdAtMs := 0
  updatedAtMs := 0

def sampleMachineInput : CreateMachineInput where
  accountId := "account"
  offerId := "persistent-standard-v1"
  sameKindOfferIds := ["persistent-standard-v1"]
  idempotencyKey := "key"
  machineId := "machine_1"
  provider := "hetzner"
  providerLabel := "zuse-machine-1"
  nowMs := 0

def sampleBillingEvent (eventId : String) (status : EntitlementStatus) :
    ApplyBillingEventInput where
  sameKindOfferIds := ["persistent-standard-v1"]
  event := ⟨"stripe", eventId, 0⟩
  entitlement := sampleEntitlement status
  provisioning := none
  recoveryWindowMs := 1000

def destructionRequested : List MachineEvent :=
  [.interrupt (.upsertEntitlement (sampleEntitlement .active)),
    .interrupt (.createMachine sampleMachineInput),
    .begin (.destroy "account" "machine_1"),
    .proceed 0 {},
    .proceed 0 {}]

/-- The provider reports that the subscription, which the destruction cancels, has ended:
the machine should be suspended again. -/
theorem not_neverUndone : ¬ ∀ earlier later (middle last : MachinePool),
    (machineSystem id sampleConfig 0).run earlier = some middle →
    (machineSystem id sampleConfig 0).runFrom middle later = some last →
      NeverUndone middle.state last.state := by
  intro claim
  have undone : ((machineSystem id sampleConfig 0).run destructionRequested).any (fun middle =>
      ((machineSystem id sampleConfig 0).runFrom middle
        [.interrupt (.applyBillingEvent (sampleBillingEvent "evt_1" .ended))]).any fun last =>
          (middle.state.store.getMachine "machine_1").any fun machine =>
            (last.state.store.getMachine "machine_1").any fun later =>
              machine.desiredState = .destroyed && later.desiredState = .suspended) =
      true := by decide +kernel
  obtain ⟨middle, ran, rest⟩ := (any_eq_true _ _).mp undone
  obtain ⟨last, wentOn, rest⟩ := (any_eq_true _ _).mp rest
  obtain ⟨machine, before, rest⟩ := (any_eq_true _ _).mp rest
  obtain ⟨later, after, states⟩ := (any_eq_true _ _).mp rest
  simp only [Bool.and_eq_true, decide_eq_true_eq] at states
  obtain ⟨final, stored, kept, _⟩ := claim _ _ middle last ran wentOn "machine_1" machine before
  cases after.symm.trans stored
  have still := (kept states.1).1
  rw [states.2] at still
  cases still

/-- A pass destroys the machine, and a renewal that comes late changes nothing. -/
theorem neverUndone_of_requested : ∃ middle last : MachinePool,
    (machineSystem id sampleConfig 0).run destructionRequested = some middle ∧
      NeverUndone middle.state last.state ∧
        (last.state.store.getMachine "machine_1").any (fun machine =>
          machine.state = .destroyed) = true := by
  let later : List MachineEvent :=
    [.interrupt (.applyBillingEvent (sampleBillingEvent "evt_1" .active)),
      .begin (.reconcileMachine "machine_1" "worker"),
      .proceed 1 {}, .proceed 1 {}, .proceed 1 {}, .proceed 1 {}, .proceed 1 {}]
  have reached : ((machineSystem id sampleConfig 0).run destructionRequested).any (fun middle =>
      ((machineSystem id sampleConfig 0).runFrom middle later).any fun last =>
        (last.state.store.getMachine "machine_1").any fun machine =>
          machine.state = .destroyed) = true := by decide +kernel
  obtain ⟨middle, ran, rest⟩ := (any_eq_true _ _).mp reached
  obtain ⟨last, wentOn, destroyed⟩ := (any_eq_true _ _).mp rest
  have proceeds : ∀ index pool, Undisturbing pool (.proceed index {}) :=
    fun _ _ _ _ _ _ => admitsDeletion_of_success rfl
  have calm : ∀ event ∈ destructionRequested, ∀ pool, Undisturbing pool event := by
    intro event member pool
    simp only [destructionRequested, List.mem_cons, List.not_mem_nil, or_false] at member
    obtain rfl | rfl | rfl | rfl | rfl := member
    · trivial
    · trivial
    · trivial
    · exact proceeds 0 pool
    · exact proceeds 0 pool
  have stillCalm : ∀ event ∈ later, ∀ pool, Undisturbing pool event := by
    intro event member pool
    simp only [later, List.mem_cons, List.not_mem_nil, or_false] at member
    obtain rfl | rfl | rfl | rfl | rfl | rfl | rfl := member
    · nofun
    · trivial
    all_goals exact proceeds 1 pool
  exact ⟨middle, last, ran, neverUndone_of_run ran (.of_forall _ calm _) wentOn
    (.of_forall _ stillCalm _), destroyed⟩

end Example

end Zuse.Machines
