import Zuse.Machines.BillingSubscriptions
import Zuse.Machines.StoreAgreement

namespace Zuse.Machines

open Data (InsertionMap TransitionSystem)
open Billing (EntitlementStatus)

variable {status : EntitlementStatus} {paidThrough : Option Int}

namespace MachinePersistenceRecord

/-- Whether an entitlement pays for a machine that is not destroyed. -/
def AttachedTo (machine : MachinePersistenceRecord) (entitlementId : String) : Prop :=
  machine.entitlementId = entitlementId ∧ machine.state ≠ .destroyed

/-- A machine is paid as long as its subscription says, and suspended where that ended. -/
structure Follows (machine : MachinePersistenceRecord) (status : EntitlementStatus)
    (paidThrough : Option Int) (recoveryWindowMs : Int) : Prop where
  paidThroughMs : paidThrough.isSome → machine.paidThroughMs = paidThrough
  suspended : status = .ended →
    machine.desiredState = .suspended ∧ machine.statusCode = .cancellationScheduled ∧
      ∃ paidThroughMs nowMs, machine.paidThroughMs = some paidThroughMs ∧
        machine.recoveryDeadlineMs = some (paidThroughMs + recoveryWindowMs) ∧
        machine.nextActionAtMs = max nowMs paidThroughMs

variable {machine stored : MachinePersistenceRecord}
  {entitlement : EntitlementPersistenceRecord} {recoveryWindowMs : Int}

theorem machineForBillingEvent_follows (machine : MachinePersistenceRecord) (nowMs : Int)
    (entitlement : EntitlementPersistenceRecord) (recoveryWindowMs : Int) :
    (machine.machineForBillingEvent nowMs entitlement recoveryWindowMs).Follows
      entitlement.status entitlement.paidThroughMs recoveryWindowMs := by
  have paid : entitlement.paidThroughMs.isSome →
      some ((entitlement.paidThroughMs <|> machine.paidThroughMs).getD nowMs) =
        entitlement.paidThroughMs := by
    intro given
    obtain ⟨paidThroughMs, paid⟩ := Option.isSome_iff_exists.mp given
    rw [paid]
    rfl
  unfold machineForBillingEvent
  split
  · exact ⟨paid, fun _ => ⟨rfl, rfl, _, nowMs, rfl, rfl, rfl⟩⟩
  · rename_i lasting
    exact ⟨paid, fun ended => absurd ended lasting⟩

theorem newMachineForBillingEvent_follows (input : ApplyBillingEventInput)
    (offerId : String) (provisioning : BillingProvisioningInput)
    (active : input.entitlement.status = .active) :
    (newMachineForBillingEvent input offerId provisioning).Follows input.entitlement.status
      input.entitlement.paidThroughMs recoveryWindowMs := by
  constructor
  case paidThroughMs => exact fun _ => rfl
  case suspended =>
    intro ended
    rw [active] at ended
    cases ended

theorem Follows.written (follows : machine.Follows status paidThrough recoveryWindowMs)
    (stored : MachinePersistenceRecord) (releaseLease : Bool) :
    (stored.written machine releaseLease).Follows status paidThrough recoveryWindowMs :=
  ⟨follows.paidThroughMs, follows.suspended⟩

end MachinePersistenceRecord

namespace MachineTables

variable {tables after : MachineTables} {order : RowOrder} {entitlementId : String}
  {machine stored : MachinePersistenceRecord}

/-- Rows are filed under their ids, and one machine is attached to an entitlement. -/
structure Prepared (tables : MachineTables) (entitlementId : String) : Prop where
  keyed : ∀ machineId machine, tables.getMachine machineId = some machine →
    machine.machineId = machineId
  once : ∀ machineId otherId machine other, tables.getMachine machineId = some machine →
    tables.getMachine otherId = some other → machine.AttachedTo entitlementId →
      other.AttachedTo entitlementId → machineId = otherId

def Followed (tables : MachineTables) (entitlementId : String) (status : EntitlementStatus)
    (paidThrough : Option Int) (recoveryWindowMs : Int) : Prop :=
  ∀ machineId machine, tables.getMachine machineId = some machine →
    machine.AttachedTo entitlementId → machine.Follows status paidThrough recoveryWindowMs

theorem mem_machineRows : machine ∈ tables.machineRows order ↔
    ∃ machineId, tables.getMachine machineId = some machine := by
  rw [machineRows, (order.machines_perm _).mem_iff]
  exact InsertionMap.mem_values

theorem getMachine_putMachine (tables : MachineTables) (row : MachinePersistenceRecord)
    (machineId : String) : (tables.putMachine row).getMachine machineId =
      if row.machineId = machineId then some row else tables.getMachine machineId :=
  InsertionMap.get?_set tables.machines row.machineId machineId row

theorem attached_of_attachedMachine
    (found : tables.attachedMachine order entitlementId = some machine) :
    (∃ machineId, tables.getMachine machineId = some machine) ∧
      machine.AttachedTo entitlementId := by
  have attached := List.find?_some found
  simp only [Bool.and_eq_true, decide_eq_true_eq] at attached
  exact ⟨mem_machineRows.mp (List.mem_of_find?_eq_some found), attached⟩

theorem not_attached_of_attachedMachine
    (absent : tables.attachedMachine order entitlementId = none) (machineId : String)
    (machine : MachinePersistenceRecord) (found : tables.getMachine machineId = some machine) :
    ¬machine.AttachedTo entitlementId := by
  have others := List.find?_eq_none.mp absent machine (mem_machineRows.mpr ⟨machineId, found⟩)
  simp only [Bool.and_eq_true, decide_eq_true_eq] at others
  exact others

theorem written_of_save {releaseLease : Bool} {expectedRevision : Option Nat}
    (saved : tables.save machine none releaseLease none expectedRevision = some (true, after)) :
    ∃ stored, tables.getMachine machine.machineId = some stored ∧
      after = tables.putMachine (stored.written machine releaseLease) := by
  unfold save at saved
  split at saved
  · cases saved
  rename_i stored found
  refine ⟨stored, found, ?_⟩
  split at saved
  · split at saved
    · cases saved
      rfl
    · cases saved
  · cases saved

theorem Prepared.put (prepared : tables.Prepared entitlementId)
    (once : machine.AttachedTo entitlementId → ∀ otherId other, otherId ≠ machine.machineId →
      tables.getMachine otherId = some other → ¬other.AttachedTo entitlementId) :
    (tables.putMachine machine).Prepared entitlementId := by
  constructor
  case keyed =>
    intro machineId other found
    rw [getMachine_putMachine] at found
    split at found
    · rename_i same
      cases found
      exact same
    · exact prepared.keyed machineId other found
  case once =>
    intro firstId secondId first second one two attached also
    rw [getMachine_putMachine] at one two
    split at one
    · rename_i here
      cases one
      split at two
      · rename_i there
        exact here.symm.trans there
      · rename_i elsewhere
        exact absurd also (once attached secondId second (fun same => elsewhere same.symm) two)
    rename_i elsewhere
    split at two
    · cases two
      exact absurd attached (once also firstId first (fun same => elsewhere same.symm) one)
    · exact prepared.once firstId secondId first second one two attached also

theorem followed_put {recoveryWindowMs : Int}
    (follows : machine.AttachedTo entitlementId →
      machine.Follows status paidThrough recoveryWindowMs)
    (others : ∀ otherId other, otherId ≠ machine.machineId →
      tables.getMachine otherId = some other → ¬other.AttachedTo entitlementId) :
    (tables.putMachine machine).Followed entitlementId status paidThrough
      recoveryWindowMs := by
  intro machineId other found attached
  rw [getMachine_putMachine] at found
  split at found
  · cases found
    exact follows attached
  · rename_i elsewhere
    exact absurd attached (others machineId other (fun same => elsewhere same.symm) found)

structure Applied (tables : MachineTables) (input : ApplyBillingEventInput)
    (after : MachineTables) : Prop where
  billingEvents : after.billingEvents =
    tables.billingEvents ++ [(input.event.provider, input.event.eventId)]
  filed : ∃ stored, after.entitlements.get? input.entitlement.entitlementId = some stored ∧
    stored.status = input.entitlement.status ∧
    stored.periodStartMs = input.entitlement.periodStartMs ∧
    stored.paidThroughMs = input.entitlement.paidThroughMs
  prepared : after.Prepared input.entitlement.entitlementId
  followed : after.Followed input.entitlement.entitlementId input.entitlement.status
    input.entitlement.paidThroughMs input.recoveryWindowMs

theorem upsertEntitlement_filed (tables : MachineTables)
    (entitlement : EntitlementPersistenceRecord) :
    ∃ stored, (tables.upsertEntitlement entitlement).entitlements.get?
        entitlement.entitlementId = some stored ∧
      stored.status = entitlement.status ∧
      stored.periodStartMs = entitlement.periodStartMs ∧
      stored.paidThroughMs = entitlement.paidThroughMs := by
  simp only [upsertEntitlement, InsertionMap.get?_set, if_true]
  split
  · exact ⟨_, rfl, rfl, rfl, rfl⟩
  · exact ⟨_, rfl, rfl, rfl, rfl⟩

variable {input : ApplyBillingEventInput} {outcome : ApplyBillingEventOutcome}

theorem attached_or_renewed (found : tables.machineOfBillingEvent order input = some machine) :
    (∃ machineId, tables.getMachine machineId = some machine) ∧
        machine.AttachedTo input.entitlement.entitlementId ∨
      tables.attachedMachine order input.entitlement.entitlementId = none ∧
        ∃ machineId stored, tables.getMachine machineId = some stored ∧
          machine = stored.renewedMachineForBillingEvent input.event.nowMs input.entitlement := by
  unfold machineOfBillingEvent at found
  split at found
  · rename_i attached present
    cases found
    exact .inl (attached_of_attachedMachine present)
  rename_i absent
  split at found
  · obtain ⟨stored, recoverable, renewed⟩ := Option.map_eq_some_iff.mp found
    obtain ⟨machineId, present⟩ :=
      mem_machineRows.mp (List.mem_of_find?_eq_some recoverable)
    exact .inr ⟨absent, machineId, stored, present, renewed.symm⟩
  · cases found

theorem applied_of_save (recorded : MachineTables) {machineId : String}
    (prepared : tables.Prepared input.entitlement.entitlementId)
    (recorded_machines : recorded.machines = tables.machines)
    (billingEvents : recorded.billingEvents =
      tables.billingEvents ++ [(input.event.provider, input.event.eventId)])
    (filed : ∃ stored, recorded.entitlements.get? input.entitlement.entitlementId =
        some stored ∧ stored.status = input.entitlement.status ∧
      stored.periodStartMs = input.entitlement.periodStartMs ∧
      stored.paidThroughMs = input.entitlement.paidThroughMs)
    (found : tables.getMachine machineId = some stored)
    (follows : machine.Follows input.entitlement.status input.entitlement.paidThroughMs
      input.recoveryWindowMs)
    (named : machine.machineId = stored.machineId)
    (others : ∀ otherId other, otherId ≠ machineId →
      tables.getMachine otherId = some other → ¬other.AttachedTo input.entitlement.entitlementId)
    (saved : recorded.save machine none false none (some stored.revision) = some (true, after)) :
    Applied tables input after := by
  obtain ⟨row, present, rfl⟩ := written_of_save saved
  have same : row = stored := by
    have here : tables.getMachine machine.machineId = some row := by
      rw [← present]
      exact (congrArg (fun rows => rows.get? machine.machineId) recorded_machines).symm
    rw [named, prepared.keyed machineId stored found] at here
    cases here.symm.trans found
    rfl
  subst same
  have rows : ∀ otherId, recorded.getMachine otherId = tables.getMachine otherId :=
    fun otherId => congrArg (fun rows => rows.get? otherId) recorded_machines
  have before : recorded.Prepared input.entitlement.entitlementId := by
    constructor
    case keyed =>
      intro otherId other
      rw [rows]
      exact prepared.keyed otherId other
    case once =>
      intro firstId secondId first second
      rw [rows, rows]
      exact prepared.once firstId secondId first second
  have apart : ∀ otherId other, otherId ≠ (row.written machine false).machineId →
      recorded.getMachine otherId = some other →
        ¬other.AttachedTo input.entitlement.entitlementId := by
    intro otherId other elsewhere there
    rw [rows] at there
    have id := prepared.keyed machineId row found
    exact others otherId other (fun same => elsewhere (same.trans id.symm)) there
  exact ⟨billingEvents, filed, before.put fun _ => apart,
    followed_put (fun _ => follows.written row false) apart⟩

theorem unchanged_of_duplicate
    (consumed : (input.event.provider, input.event.eventId) ∈ tables.billingEvents)
    (applies : tables.applyBillingEvent order input = some (outcome, after)) :
    outcome.duplicate = true ∧ after = tables := by
  unfold applyBillingEvent at applies
  rw [if_pos (List.contains_iff_mem.mpr consumed)] at applies
  cases applies
  exact ⟨rfl, rfl⟩

theorem applied_of_applyBillingEvent (prepared : tables.Prepared input.entitlement.entitlementId)
    (new : (input.event.provider, input.event.eventId) ∉ tables.billingEvents)
    (applies : tables.applyBillingEvent order input = some (outcome, after)) :
    outcome.duplicate = false ∧ Applied tables input after := by
  unfold applyBillingEvent at applies
  rw [if_neg (fun consumed => new (List.contains_iff_mem.mp consumed))] at applies
  have filed := tables.upsertEntitlement_filed input.entitlement
  let recorded : MachineTables :=
    { tables.upsertEntitlement input.entitlement with
      billingEvents := tables.billingEvents ++ [(input.event.provider, input.event.eventId)] }
  dsimp only at applies
  split at applies
  · rename_i machine about
    split at applies
    · rename_i saved through
      cases applies
      refine ⟨rfl, ?_⟩
      have follows := machine.machineForBillingEvent_follows input.event.nowMs
        input.entitlement input.recoveryWindowMs
      have carried : ∀ machine : MachinePersistenceRecord,
          (machine.machineForBillingEvent input.event.nowMs input.entitlement
            input.recoveryWindowMs).machineId = machine.machineId := by
        intro machine
        unfold MachinePersistenceRecord.machineForBillingEvent
        split
        · rfl
        · rfl
      cases attached_or_renewed about with
      | inl attached =>
        obtain ⟨⟨machineId, found⟩, attached⟩ := attached
        refine applied_of_save recorded prepared rfl rfl filed found follows (carried machine)
          ?_ through
        intro otherId other elsewhere there also
        exact elsewhere (prepared.once otherId machineId other machine there found also attached)
      | inr renewed =>
        obtain ⟨absent, machineId, stored, found, rfl⟩ := renewed
        refine applied_of_save recorded prepared rfl rfl filed found follows (carried _) ?_ through
        intro otherId other _ there
        exact not_attached_of_attachedMachine absent otherId other there
    · cases applies
  · rename_i about
    have absent : tables.attachedMachine order input.entitlement.entitlementId = none := by
      unfold machineOfBillingEvent at about
      split at about
      · cases about
      · assumption
    have unattached := not_attached_of_attachedMachine absent
    have untouched : Applied tables input recorded := by
      refine ⟨rfl, filed, ⟨prepared.keyed, prepared.once⟩, ?_⟩
      intro machineId machine found attached
      exact absurd attached (unattached machineId machine found)
    split at applies
    · rename_i offerId provisioning _ _
      split at applies
      · cases applies
        exact ⟨rfl, untouched⟩
      · rename_i lasting
        split at applies
        · cases applies
        · split at applies
          · cases applies
            exact ⟨rfl, untouched⟩
          · obtain ⟨inserted, through, same⟩ := Option.map_eq_some_iff.mp applies
            cases same
            unfold insertMachine at through
            split at through
            · cases through
              refine ⟨rfl, rfl, filed, ?_, ?_⟩
              · exact untouched.prepared.put fun _ otherId other _ there =>
                  unattached otherId other there
              · refine followed_put (fun _ => ?_) fun otherId other _ there =>
                  unattached otherId other there
                exact MachinePersistenceRecord.newMachineForBillingEvent_follows input offerId
                  provisioning (not_not.mp lasting)
            · cases through
    · cases applies
      exact ⟨rfl, untouched⟩

end MachineTables

end Zuse.Machines
