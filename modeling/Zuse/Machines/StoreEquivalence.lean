import Zuse.Machines.StoreAgreement

namespace Zuse.Machines

open Data (InsertionMap Table.any_of_same Table.find?_of_same Table.head?_insertionSort
  Table.take_insertionSort_perm)
open Billing (EntitlementStatus)
open List MachineTables MachinePersistenceRecord List

def MachineStoreOutcome.Same : MachineStoreOutcome → MachineStoreOutcome → Prop
  | .due first, .due second => first.Perm second
  | first, second => first = second

/-- A record that is saved over the one of the expected revision keeps what only an insert
sets, leaves a destroyed machine destroyed and takes no unique value of another machine. -/
def Rewrites (memory : MemoryState) (machine : MachinePersistenceRecord)
    (expectedRevision : Nat) : Prop :=
  ∀ stored, memory.getMachine machine.machineId = some stored →
    stored.revision = expectedRevision →
      stored.Inserted machine ∧ (stored.state = .destroyed → machine.state = .destroyed) ∧
        ∀ otherId other, memory.getMachine otherId = some other →
          otherId ≠ machine.machineId → machine.conflicts other = false

def CoversKind (offerId : String) (sameKindOfferIds : List String) : Prop :=
  sameKindOfferIds ≠ [] ∧ ∀ kind, offerKind offerId = some kind →
    ∀ other, offerKind other = some kind → other ∈ sameKindOfferIds

/-- A machine is created with a new id, for the entitlement that is the oldest of those that
pay for it. -/
structure CreatesAlike (memory : MemoryState) (tables : MachineTables)
    (input : CreateMachineInput) : Prop where
  offers : CoversKind input.offerId input.sameKindOfferIds
  fresh : memory.getMachine input.machineId = none
  oldest : ∀ first,
    memory.eligibleEntitlement input.accountId input.offerId input.nowMs = some first →
      ∀ other ∈ memory.entitlements.values,
        other.pays input.accountId input.offerId input.nowMs = true →
          memory.isAttached other.entitlementId = false → other ≠ first →
            ∀ one two, tables.entitlements.get? first.entitlementId = some one →
              tables.entitlements.get? other.entitlementId = some two →
                one.createdAtMs < two.createdAtMs

/-- A billing event that renews no suspended machine and brings a new machine with new
ids. -/
structure AppliesAlike (dated : Prop) (memory : MemoryState) (tables : MachineTables)
    (input : ApplyBillingEventInput) : Prop where
  refiles : Refiles dated tables input.entitlement
  renews : memory.attachedMachine input.entitlement.entitlementId = none →
    input.entitlement.status = .active → input.entitlement.offerId.isSome →
      input.sameKindOfferIds ≠ [] → memory.recoverableMachine input = none
  provisions : ∀ offerId provisioning, input.entitlement.offerId = some offerId →
    input.provisioning = some provisioning → input.entitlement.status = .active →
      memory.attachedMachine input.entitlement.entitlementId = none →
        CoversKind offerId input.sameKindOfferIds ∧
          memory.getMachine provisioning.machineId = none ∧
            ∀ otherId other, memory.getMachine otherId = some other →
              other.accountId = input.entitlement.accountId →
                other.idempotencyKey ≠ provisioning.idempotencyKey

def Alike (dated : Prop) (memory : MemoryState) (tables : MachineTables) : MachineStoreCall → Prop
  | .createMachine input =>
    (∀ machine ∈ memory.machines.values, machine.accountId = input.accountId →
      machine.idempotencyKey ≠ input.idempotencyKey) → CreatesAlike memory tables input
  | .applyBillingEvent input =>
    (∀ consumed ∈ tables.billingEvents, consumedKey consumed = input.event.key →
      consumed = (input.event.provider, input.event.eventId)) ∧
    ((input.event.provider, input.event.eventId) ∉ tables.billingEvents →
      AppliesAlike dated memory tables input)
  | .upsertEntitlement entitlement => Refiles dated tables entitlement
  | .compareAndSetMachine machine expectedRevision =>
    Rewrites memory machine expectedRevision
  | .completeEnrollment machine _ expectedRevision =>
    Rewrites memory machine expectedRevision
  | .claimDueMachines input limit =>
    let due := (memory.machines.values.filter fun machine =>
      machine.isDue input.nowMs).insertionSort
        fun left right => left.nextActionAtMs ≤ right.nextActionAtMs
    ∀ taken ∈ due.take limit, ∀ left ∈ due.drop limit, taken.nextActionAtMs < left.nextActionAtMs
  | .claimMachine .. => True
  | .saveReconciledMachine machine _ expectedRevision =>
    Rewrites memory machine expectedRevision

namespace Agrees

variable {dated : Prop} {memory : MemoryState} {tables : MachineTables} {order : RowOrder}
  {machine stored : MachinePersistenceRecord}

section

variable (agrees : Agrees dated memory tables)
include agrees

variable {expectedRevision : Nat}

theorem saves_alike {leaseOwner tokenHash : Option String} {releaseLease : Bool}
    {written : Bool × MemoryState} (rewrites : Rewrites memory machine expectedRevision)
    (absent : memory.getMachine machine.machineId = none → written = (false, memory))
    (refused : ∀ stored, memory.getMachine machine.machineId = some stored →
      ¬stored.Admits leaseOwner (some expectedRevision) tokenHash → written = (false, memory))
    (done : ∀ stored, memory.getMachine machine.machineId = some stored →
      stored.Admits leaseOwner (some expectedRevision) tokenHash →
        written = (true, memory.putMachine { machine with
          leaseOwner := if releaseLease then none else machine.leaseOwner
          leaseExpiresAtMs := if releaseLease then none else machine.leaseExpiresAtMs
          revision := stored.revision + 1 })) :
    ∃ after, tables.save machine leaseOwner releaseLease tokenHash (some expectedRevision) =
        some (written.1, after) ∧ Agrees dated written.2 after := by
  cases found : memory.getMachine machine.machineId with
  | none =>
    rw [absent found]
    refine ⟨tables, agrees.unsaved ?_, agrees⟩
    intro stored present
    rw [found] at present
    cases present
  | some stored =>
    by_cases admits : stored.Admits leaseOwner (some expectedRevision) tokenHash
    · obtain ⟨inserted, gone, free⟩ := rewrites stored found (of_decide_eq_true admits.2.1)
      obtain ⟨saves, still⟩ := agrees.saved releaseLease found inserted gone free admits
      rw [done stored found admits]
      exact ⟨_, saves, still⟩
    rw [refused stored found admits]
    refine ⟨tables, agrees.unsaved ?_, agrees⟩
    intro other present
    rw [found] at present
    cases present
    exact admits

theorem compareAndSetMachine (rewrites : Rewrites memory machine expectedRevision) :
    let written := memory.compareAndSetMachine machine expectedRevision
    ∃ after, tables.save machine none false none (some expectedRevision) =
        some (written.1, after) ∧ Agrees dated written.2 after := by
  refine agrees.saves_alike rewrites ?_ ?_ ?_
  · intro absent
    simp only [MemoryState.compareAndSetMachine, absent]
  · intro stored found refused
    have stale : stored.revision ≠ expectedRevision := 
      fun current => refused (by simp [Admits, current])
    simp only [MemoryState.compareAndSetMachine, found]
    rw [if_pos stale]
  · intro stored found admits
    have current := of_decide_eq_true admits.2.1
    simp [MemoryState.compareAndSetMachine, found, current]

theorem completeEnrollment (tokenHash : String)
    (rewrites : Rewrites memory machine expectedRevision) :
    let written := memory.completeEnrollment machine tokenHash expectedRevision
    ∃ after, tables.save machine none false (some tokenHash) (some expectedRevision) =
        some (written.1, after) ∧ Agrees dated written.2 after := by
  refine agrees.saves_alike rewrites ?_ ?_ ?_
  · intro absent
    simp only [MemoryState.completeEnrollment, absent]
  · intro stored found refused
    simp only [MemoryState.completeEnrollment, found]
    rw [if_pos]
    by_contra accepts
    simp only [not_or, not_not] at accepts
    obtain ⟨current, token, wanted, standing, left⟩ := accepts
    exact refused (by
      simp [Admits, current, token, wanted, standing, left])
  intro stored found admits
  simp only [Admits, Option.all_some, Bool.and_eq_true,
    decide_eq_true_eq] at admits
  obtain ⟨_, current, ⟨⟨token, wanted⟩, standing⟩, left⟩ := admits
  simp [MemoryState.completeEnrollment, found, current, token, wanted, standing, left]

theorem saveReconciledMachine (owner : String)
    (rewrites : Rewrites memory machine expectedRevision) :
    let written := memory.saveReconciledMachine machine owner expectedRevision
    ∃ after, tables.save machine (some owner) true none (some expectedRevision) =
        some (written.1, after) ∧ Agrees dated written.2 after := by
  refine agrees.saves_alike rewrites ?_ ?_ ?_
  · intro absent
    simp only [MemoryState.saveReconciledMachine, absent]
  · intro stored found refused
    simp only [MemoryState.saveReconciledMachine, found]
    rw [if_pos]
    by_contra accepts
    simp only [not_or, not_not] at accepts
    exact refused (by simp [Admits, accepts.1, accepts.2])
  · intro stored found admits
    have owned := of_decide_eq_true admits.1
    have current := of_decide_eq_true admits.2.1
    simp [MemoryState.saveReconciledMachine, found, owned, current]

theorem claimed (input : ClaimInput) (found : memory.getMachine machine.machineId = some machine) :
    Agrees dated (memory.putMachine (machine.claimed input))
      (tables.putMachine (machine.claimed input)) := by
  have inserted : machine.Inserted (machine.claimed input) := ⟨rfl, rfl, rfl, rfl, rfl, rfl, rfl⟩
  refine agrees.rewritten found rfl inserted id ?_
  intro otherId other present elsewhere
  exact agrees.apart machine.machineId otherId machine other found present elsewhere.symm

theorem claimMachine (machineId : String) (input : ClaimInput) :
    let claimed := memory.claimMachine machineId input
    ∃ after, tables.claimMachine machineId input = (claimed.1, after) ∧
      Agrees dated claimed.2 after := by
  cases found : memory.getMachine machineId with
  | none =>
    have same := (agrees.machines machineId).trans found
    refine ⟨tables, ?_, ?_⟩
    · simp only [MachineTables.claimMachine, MemoryState.claimMachine, same, found]
    · simp only [MemoryState.claimMachine, found]
      exact agrees
  | some machine =>
    have named := agrees.keyed machineId machine found
    rw [← named] at found
    have same := (agrees.machines machine.machineId).trans found
    by_cases taken : machine.nextActionAtMs > input.nowMs ∨ machine.leaseFree input.nowMs = false
    · have held : ¬(machine.nextActionAtMs ≤ input.nowMs ∧
          machine.leaseFree input.nowMs = true) := by
        rintro ⟨due, free⟩
        cases taken with
        | inl later => omega
        | inr leased =>
          rw [leased] at free
          cases free
      refine ⟨tables, ?_, ?_⟩
      · simp only [MachineTables.claimMachine, MemoryState.claimMachine, ← named,
          same, found, if_pos taken, if_neg held]
      · simp only [MemoryState.claimMachine, ← named, found, if_pos taken]
        exact agrees
    · have free : machine.nextActionAtMs ≤ input.nowMs ∧ machine.leaseFree input.nowMs = true := by
        simp only [not_or, Int.not_lt, Bool.not_eq_false, gt_iff_lt] at taken
        exact taken
      refine ⟨tables.putMachine (machine.claimed input), ?_, ?_⟩
      · simp only [MachineTables.claimMachine, MemoryState.claimMachine, ← named,
          same, found, if_neg taken, if_pos free]
      · simp only [MemoryState.claimMachine, ← named, found, if_neg taken]
        exact agrees.claimed input found

theorem reordered {others : MachineTables}
    (machines : ∀ machineId, others.getMachine machineId = tables.getMachine machineId)
    (entitlements : others.entitlements = tables.entitlements)
    (billingEvents : others.billingEvents = tables.billingEvents) :
    Agrees dated memory others :=
  { agrees with
    machines := fun machineId => (machines machineId).trans (agrees.machines machineId)
    entitlements := entitlements ▸ agrees.entitlements
    created := entitlements ▸ agrees.created
    billingEvents := billingEvents ▸ agrees.billingEvents }

theorem claimedAll (input : ClaimInput) {machines : List MachinePersistenceRecord}
    (distinct : (machines.map fun machine => machine.machineId).Nodup)
    (stored : ∀ machine ∈ machines, memory.getMachine machine.machineId = some machine) :
    Agrees dated
      ((machines.map fun machine => machine.claimed input).foldl MemoryState.putMachine memory)
      ((machines.map fun machine => machine.claimed input).foldl MachineTables.putMachine
        tables) := by
  induction machines generalizing memory tables with
  | nil => exact agrees
  | cons machine rest ih =>
    obtain ⟨absent, others⟩ := nodup_cons.mp distinct
    refine ih (agrees.claimed input (stored machine mem_cons_self)) others ?_
    intro other member
    rw [MemoryState.getMachine_putMachine, if_neg]
    · exact stored other (mem_cons_of_mem machine member)
    · intro same
      exact absent (mem_map.mpr ⟨other, member, same.symm⟩)

theorem rows_perm (order : RowOrder) : memory.machines.values.Perm (tables.machineRows order) := by
  have filed : ∀ id machine, tables.machines.get? id = some machine → machine.machineId = id :=
    fun id machine found => agrees.keyed id machine ((agrees.machines id).symm.trans found)
  have here : memory.machines.values.Nodup := by
    apply Nodup.of_map (fun machine : MachinePersistenceRecord => machine.machineId)
    rw [InsertionMap.values_map_key agrees.keyed]
    exact memory.machines.keys_nodup
  have there : tables.machines.values.Nodup := by
    apply Nodup.of_map (fun machine : MachinePersistenceRecord => machine.machineId)
    rw [InsertionMap.values_map_key filed]
    exact tables.machines.keys_nodup
  have visited : (tables.machineRows order).Nodup :=
    (order.machines_perm tables.machines.values).nodup_iff.mpr there
  exact (perm_ext_iff_of_nodup here visited).mpr (agrees.mem_rows order)

end

theorem foldl_putMachine (news : List MachinePersistenceRecord) (tables : MachineTables) :
    (news.foldl MachineTables.putMachine tables).machines =
        news.foldl (fun map row => map.set row.machineId row) tables.machines ∧
      (news.foldl MachineTables.putMachine tables).entitlements = tables.entitlements ∧
      (news.foldl MachineTables.putMachine tables).billingEvents = tables.billingEvents := by
  induction news generalizing tables with
  | nil => exact ⟨rfl, rfl, rfl⟩
  | cons first rest ih => exact ih (tables.putMachine first)

section

variable (agrees : Agrees dated memory tables)
include agrees

theorem claimDueMachines (order : RowOrder) {input : ClaimInput} {limit : Nat}
    (alike : Alike dated memory tables (.claimDueMachines input limit)) :
    (memory.claimDueMachines input limit).1.Perm (tables.claimDueMachines order input limit).1 ∧
      Agrees dated (memory.claimDueMachines input limit).2
        (tables.claimDueMachines order input limit).2 := by
  let due := (memory.machines.values.filter fun machine =>
    machine.isDue input.nowMs).insertionSort
      fun left right => left.nextActionAtMs ≤ right.nextActionAtMs
  let rows := ((tables.machineRows order).filter fun machine =>
    machine.isDue input.nowMs).insertionSort
      fun left right => left.nextActionAtMs ≤ right.nextActionAtMs
  have taken : (due.take limit).Perm (rows.take limit) :=
    Table.take_insertionSort_perm ((agrees.rows_perm order).filter _) alike
  have known : ∀ machine ∈ due.take limit, machine ∈ memory.machines.values := by
    intro machine member
    have sorted := (mem_insertionSort _).mp (mem_of_mem_take member)
    exact mem_of_mem_filter sorted
  have ids : ((memory.machines.values).map fun machine => machine.machineId).Nodup := by
    rw [InsertionMap.values_map_key agrees.keyed]
    exact memory.machines.keys_nodup
  have distinct : ((due.take limit).map fun machine => machine.machineId).Nodup := by
    have whole : (due.map fun machine => machine.machineId).Nodup := by
      have perm := (perm_insertionSort
        (fun left right : MachinePersistenceRecord =>
          left.nextActionAtMs ≤ right.nextActionAtMs)
        (memory.machines.values.filter fun machine => machine.isDue input.nowMs)).map
          fun machine => machine.machineId
      exact perm.nodup_iff.mpr (ids.sublist ((filter_sublist).map _))
    exact whole.sublist ((take_sublist limit due).map _)
  have perm := taken.map fun machine => machine.claimed input
  refine ⟨perm.trans (order.machines_perm _).symm, ?_⟩
  have claims := agrees.claimedAll input distinct fun machine member =>
    agrees.get_of_mem (known machine member)
  have claimedIds : (((due.take limit).map fun machine =>
      machine.claimed input).map fun machine => machine.machineId).Nodup := by
    rw [map_map]
    exact distinct
  have otherIds : (((rows.take limit).map fun machine =>
      machine.claimed input).map fun machine => machine.machineId).Nodup :=
    (perm.map fun machine : MachinePersistenceRecord =>
      machine.machineId).nodup_iff.mp claimedIds
  obtain ⟨machines, entitlements, events⟩ := foldl_putMachine
    ((due.take limit).map fun machine => machine.claimed input) tables
  obtain ⟨machines', entitlements', events'⟩ := foldl_putMachine
    ((rows.take limit).map fun machine => machine.claimed input) tables
  refine claims.reordered ?_ (entitlements'.trans entitlements.symm) (events'.trans events.symm)
  intro machineId
  have members : ∀ machine, machine ∈ (due.take limit).map (fun machine =>
      machine.claimed input) ↔ machine ∈ (rows.take limit).map fun machine =>
        machine.claimed input := fun _ => perm.mem_iff
  have same := Table.find?_of_same
    (fun machine : MachinePersistenceRecord => machine.machineId = machineId) members (by
      intro first member second also one two
      have equal := (of_decide_eq_true one).trans (of_decide_eq_true two).symm
      exact inj_on_of_nodup_map claimedIds member also equal)
  rw [getMachine, getMachine]
  rw [show (tables.claimDueMachines order input limit).2.machines = _ from machines', machines,
    InsertionMap.get?_foldl_set otherIds, InsertionMap.get?_foldl_set claimedIds, same]

theorem isAttached (order : RowOrder) (entitlementId : String) :
    tables.isAttached order entitlementId = memory.isAttached entitlementId := by
  rw [MemoryState.isAttached, Table.any_of_same _ (agrees.mem_rows order)]
  unfold MachineTables.isAttached
  congr 1
  funext machine
  rw [Bool.and_comm]

theorem hasActiveMachine (order : RowOrder) (accountId : String) (sameKindOfferIds : List String) :
    tables.hasActiveMachine order accountId sameKindOfferIds =
      memory.hasActiveMachine accountId sameKindOfferIds :=
  (Table.any_of_same _ (agrees.mem_rows order)).symm

theorem unique_of_separate {entitlementId : String} :
    ∀ first ∈ memory.machines.values, ∀ second ∈ memory.machines.values,
      (first.entitlementId = entitlementId && first.state ≠ .destroyed) = true →
        (second.entitlementId = entitlementId && second.state ≠ .destroyed) = true →
          first = second := by
  intro first member second also one two
  simp only [Bool.and_eq_true, decide_eq_true_eq] at one two
  by_contra different
  have ids : first.machineId ≠ second.machineId :=
    fun same => different (agrees.eq_of_id member also same)
  have separate := agrees.separate _ _ first second (agrees.get_of_mem member)
    (agrees.get_of_mem also) ids
  exact (separate one.2 two.2).1 (one.1.trans two.1.symm)

theorem attachedMachine (order : RowOrder) (entitlementId : String) :
    tables.attachedMachine order entitlementId = memory.attachedMachine entitlementId :=
  (Table.find?_of_same _ (agrees.mem_rows order) agrees.unique_of_separate).symm

theorem existing (order : RowOrder) (accountId idempotencyKey : String) :
    (tables.machineRows order).find? (fun machine =>
        machine.accountId = accountId && machine.idempotencyKey = idempotencyKey) =
      memory.machines.values.find? fun machine =>
        machine.accountId = accountId && machine.idempotencyKey = idempotencyKey := by
  refine (Table.find?_of_same _ (agrees.mem_rows order) ?_).symm
  intro first member second also one two
  simp only [Bool.and_eq_true, decide_eq_true_eq] at one two
  by_contra different
  have ids : first.machineId ≠ second.machineId :=
    fun same => different (agrees.eq_of_id member also same)
  have free := agrees.apart _ _ first second (agrees.get_of_mem member) (agrees.get_of_mem also) ids
  simp [conflicts, one.1, one.2, two.1, two.2] at free

theorem recoverableMachine_none (order : RowOrder) {input : ApplyBillingEventInput}
    (none : memory.recoverableMachine input = none) :
    tables.recoverableMachine order input = .none := by
  refine find?_eq_none.mpr ?_
  intro machine member selected
  have absent := find?_eq_none.mp none machine ((agrees.mem_rows order machine).mpr member)
  refine absent ?_
  simp only [Bool.and_eq_true, decide_eq_true_eq] at selected ⊢
  obtain ⟨rest, deadline⟩ := selected
  obtain ⟨recoveryDeadlineMs, found, later⟩ := (Option.any_eq_true _ _).mp deadline
  rw [found]
  exact ⟨rest, of_decide_eq_true later⟩

end

section

variable {second first : EntitlementPersistenceRecord} (same : first.undated = second.undated)
include same

theorem id_of_undated : first.entitlementId = second.entitlementId := by
  have named : first.undated.entitlementId = second.undated.entitlementId := by rw [same]
  exact named

theorem pays_of_undated (accountId offerId : String) (nowMs : Int) :
    first.pays accountId offerId nowMs = second.pays accountId offerId nowMs := by
  have pays : ∀ entitlement : EntitlementPersistenceRecord,
      entitlement.undated.pays accountId offerId nowMs =
        entitlement.pays accountId offerId nowMs := fun _ => rfl
  rw [← pays, same, pays]

end

variable {input : CreateMachineInput}

theorem eligibleEntitlement (agrees : Agrees dated memory tables) (order : RowOrder)
    (alike : CreatesAlike memory tables input) :
    (tables.eligibleEntitlement order input.accountId input.offerId input.nowMs).map (·.undated) =
      (memory.eligibleEntitlement input.accountId input.offerId input.nowMs).map (·.undated) := by
  have filedRow : ∀ id row, tables.entitlements.get? id = some row → row.entitlementId = id := by
    intro id row found
    have same := agrees.entitlements id
    rw [found] at same
    obtain ⟨other, present, equal⟩ := Option.map_eq_some_iff.mp same.symm
    exact (id_of_undated equal).symm.trans (agrees.filed id other present)
  -- a row of the table and the entitlement that the memory holds for it
  have counterpart : ∀ row, row ∈ tables.entitlementRows order →
      ∃ held ∈ memory.entitlements.values, held.undated = row.undated := by
    intro row member
    obtain ⟨id, found⟩ := InsertionMap.mem_values.mp ((order.entitlements_perm _).mem_iff.mp member)
    have same := agrees.entitlements id
    rw [found] at same
    obtain ⟨held, present, equal⟩ := Option.map_eq_some_iff.mp same.symm
    exact ⟨held, InsertionMap.mem_values.mpr ⟨id, present⟩, equal⟩
  let selected := fun entitlement : EntitlementPersistenceRecord =>
    entitlement.pays input.accountId input.offerId input.nowMs &&
      !tables.isAttached order entitlement.entitlementId
  have selects : ∀ {held row : EntitlementPersistenceRecord}, held.undated = row.undated →
      selected row = (held.pays input.accountId input.offerId input.nowMs &&
        !memory.isAttached held.entitlementId) := by
    intro held row same
    simp only [selected, pays_of_undated same, agrees.isAttached, id_of_undated same]
  cases first : memory.eligibleEntitlement input.accountId input.offerId input.nowMs with
  | none =>
    have empty : (tables.entitlementRows order).filter selected = [] := by
      rw [filter_eq_nil_iff]
      intro row member chosen
      obtain ⟨held, holds, same⟩ := counterpart row member
      rw [selects same] at chosen
      exact find?_eq_none.mp first held holds chosen
    unfold MachineTables.eligibleEntitlement
    rw [show (tables.entitlementRows order).filter _ = [] from empty]
    rfl
  | some held =>
    have holds := mem_of_find?_eq_some first
    have chosen := find?_some first
    obtain ⟨id, present⟩ := InsertionMap.mem_values.mp holds
    have same := agrees.entitlements id
    rw [present] at same
    obtain ⟨row, found, equal⟩ := Option.map_eq_some_iff.mp same
    have member : row ∈ (tables.entitlementRows order).filter selected := by
      refine mem_filter.mpr ⟨?_, ?_⟩
      · exact (order.entitlements_perm _).mem_iff.mpr (InsertionMap.mem_values.mpr ⟨id, found⟩)
      · rw [selects equal.symm]
        exact chosen
    have least := Table.head?_insertionSort
      (fun entitlement : EntitlementPersistenceRecord => entitlement.createdAtMs) member ?_
    · unfold MachineTables.eligibleEntitlement
      rw [show (((tables.entitlementRows order).filter _).insertionSort _).head? = some row
        from least, Option.map_some, Option.map_some, equal]
    intro other among different
    obtain ⟨rowMember, otherChosen⟩ := mem_filter.mp among
    obtain ⟨rival, rivalHeld, rivalSame⟩ := counterpart other rowMember
    rw [selects rivalSame, Bool.and_eq_true] at otherChosen
    have free : memory.isAttached rival.entitlementId = false := by
      simpa using otherChosen.2
    obtain ⟨otherId, otherFound⟩ := InsertionMap.mem_values.mp
      ((order.entitlements_perm _).mem_iff.mp rowMember)
    have ids : rival.entitlementId = otherId :=
      (id_of_undated rivalSame).trans (filedRow otherId other otherFound)
    have heldId := agrees.filed id held present
    have apart : rival ≠ held := by
      intro equalHeld
      rw [equalHeld, heldId] at ids
      rw [← ids, found] at otherFound
      cases otherFound
      exact different rfl
    exact alike.oldest held first rival rivalHeld otherChosen.1 free apart row other
      (heldId ▸ found) (ids ▸ otherFound)

theorem separate_new {sameKindOfferIds : List String}
    (covers : CoversKind machine.offerId sameKindOfferIds)
    (alone : memory.hasActiveMachine machine.accountId sameKindOfferIds = false)
    (free : ∀ other ∈ memory.machines.values, other.state ≠ .destroyed →
      other.entitlementId ≠ machine.entitlementId) :
    Others memory machine machine.Separate := by
  intro otherId other present _ _ standing
  have member := InsertionMap.mem_values.mpr ⟨otherId, present⟩
  refine ⟨(free other member standing).symm, ?_⟩
  intro kind one two same
  have listed := covers.2 kind one other.offerId two
  have none := any_eq_false.mp alone other member
  simp only [same, contains_iff_mem.mpr listed, standing, decide_true, Bool.and_self,
    ne_eq, not_false_eq_true, not_true_eq_false] at none

theorem createMachine (agrees : Agrees dated memory tables) (order : RowOrder)
    (alike : Alike dated memory tables (.createMachine input)) :
    ∃ after, tables.createMachine order input = some ((memory.createMachine input).1, after) ∧
      Agrees dated (memory.createMachine input).2 after := by
  unfold MachineTables.createMachine MemoryState.createMachine
  rw [agrees.existing order]
  cases existing : memory.machines.values.find? fun machine =>
      machine.accountId = input.accountId && machine.idempotencyKey = input.idempotencyKey with
  | some machine => exact ⟨tables, rfl, agrees⟩
  | none =>
    have unused : ∀ machine ∈ memory.machines.values, machine.accountId = input.accountId →
        machine.idempotencyKey ≠ input.idempotencyKey := by
      intro machine member account key
      exact find?_eq_none.mp existing machine member (by simp [account, key])
    have alike := alike unused
    rw [if_neg alike.offers.1, agrees.hasActiveMachine order]
    cases active : memory.hasActiveMachine input.accountId input.sameKindOfferIds with
    | true => exact ⟨tables, rfl, agrees⟩
    | false =>
      have same := agrees.eligibleEntitlement order alike
      cases held : memory.eligibleEntitlement input.accountId input.offerId input.nowMs with
      | none =>
        rw [held, Option.map_none, Option.map_eq_none_iff] at same
        rw [same]
        exact ⟨tables, rfl, agrees⟩
      | some entitlement =>
        rw [held] at same
        obtain ⟨row, found, undated⟩ := Option.map_eq_some_iff.mp same
        rw [found]
        have creates : input.machine row = input.machine entitlement := by
          have paid : row.undated.paidThroughMs = entitlement.undated.paidThroughMs := by
            rw [undated]
          simp only [CreateMachineInput.machine, id_of_undated undated,
            show row.paidThroughMs = entitlement.paidThroughMs from paid]
        have chosen := find?_some held
        obtain ⟨_, unattached⟩ := (Bool.and_eq_true _ _).mp chosen
        have free : ∀ other ∈ memory.machines.values, other.state ≠ .destroyed →
            other.entitlementId ≠ entitlement.entitlementId := by
          intro other member standing attached
          have none := any_eq_false.mp (Bool.not_inj unattached) other member
          exact none (by simp [attached, standing])
        have apart : Others memory (input.machine entitlement)
            ((input.machine entitlement).conflicts · = false) := by
          intro otherId other present _
          have member := InsertionMap.mem_values.mpr ⟨otherId, present⟩
          exact conflicts_new rfl rfl rfl (unused other member)
        obtain ⟨inserts, still⟩ := agrees.insertMachine _ alike.fresh apart
          (separate_new alike.offers active free)
        dsimp only
        rw [creates, inserts]
        exact ⟨_, rfl, still⟩

theorem recorded (agrees : Agrees dated memory tables) {input : ApplyBillingEventInput}
    (refiles : Refiles dated tables input.entitlement) :
    Agrees dated
      { memory.upsertEntitlement input.entitlement with
        billingEvents := memory.billingEvents ++ [input.event.key] }
      { tables.upsertEntitlement input.entitlement with
        billingEvents :=
          tables.billingEvents ++ [(input.event.provider, input.event.eventId)] } :=
  { agrees.upserted refiles with
    billingEvents := by
      rw [map_append, agrees.billingEvents]
      rfl }

theorem machineForBillingEvent_inserted (machine : MachinePersistenceRecord) (nowMs : Int)
    (entitlement : EntitlementPersistenceRecord) (recoveryWindowMs : Int) :
    let updated := machine.machineForBillingEvent nowMs entitlement recoveryWindowMs
    machine.Inserted updated ∧ updated.machineId = machine.machineId ∧
      updated.state = machine.state ∧
        ∀ other, updated.conflicts other = machine.conflicts other := by
  unfold machineForBillingEvent
  split
  · exact ⟨⟨rfl, rfl, rfl, rfl, rfl, rfl, rfl⟩, rfl, rfl, fun _ => rfl⟩
  · exact ⟨⟨rfl, rfl, rfl, rfl, rfl, rfl, rfl⟩, rfl, rfl, fun _ => rfl⟩

theorem applyBillingEvent (agrees : Agrees dated memory tables) (order : RowOrder)
    {input : ApplyBillingEventInput}
    (alike : Alike dated memory tables (.applyBillingEvent input)) :
    ∃ after, tables.applyBillingEvent order input =
        some ((memory.applyBillingEvent input).1, after) ∧
      Agrees dated (memory.applyBillingEvent input).2 after := by
  obtain ⟨keys, alike⟩ := alike
  have consumed : memory.billingEvents.contains input.event.key =
      tables.billingEvents.contains (input.event.provider, input.event.eventId) := by
    apply Bool.eq_iff_iff.mpr
    rw [contains_iff_mem, contains_iff_mem, agrees.billingEvents, mem_map]
    constructor
    · rintro ⟨event, member, same⟩
      rw [← keys event member same]
      exact member
    · exact fun member => ⟨_, member, rfl⟩
  unfold MachineTables.applyBillingEvent MemoryState.applyBillingEvent
  rw [consumed]
  by_cases known : (input.event.provider, input.event.eventId) ∈ tables.billingEvents
  · rw [if_pos (contains_iff_mem.mpr known), if_pos (contains_iff_mem.mpr known),
      agrees.attachedMachine order]
    exact ⟨tables, rfl, agrees⟩
  have unknown : ¬tables.billingEvents.contains
      (input.event.provider, input.event.eventId) = true :=
    fun member => known (contains_iff_mem.mp member)
  have alike := alike known
  have recorded := agrees.recorded alike.refiles
  rw [if_neg unknown, if_neg unknown]
  dsimp only
  have attached := recorded.attachedMachine order input.entitlement.entitlementId
  cases about : memory.attachedMachine input.entitlement.entitlementId with
  | some machine =>
    have chosen := find?_some about
    have member := mem_of_find?_eq_some about
    simp only [Bool.and_eq_true, decide_eq_true_eq] at chosen
    have found := agrees.get_of_mem member
    let updated := machine.machineForBillingEvent input.event.nowMs input.entitlement
      input.recoveryWindowMs
    obtain ⟨inserted, machineId, state, conflicts⟩ := machineForBillingEvent_inserted machine
      input.event.nowMs input.entitlement input.recoveryWindowMs
    have present : memory.getMachine updated.machineId = some machine := by
      rw [show updated.machineId = machine.machineId from machineId]
      exact found
    have apart : Others memory updated (updated.conflicts · = false) := by
      intro otherId other known elsewhere
      rw [conflicts]
      exact agrees.apart machine.machineId otherId machine other found known
        (fun same => elsewhere (same.symm.trans machineId.symm))
    have admits : machine.Admits none (some machine.revision) none :=
      ⟨rfl, decide_eq_true rfl, rfl⟩
    obtain ⟨saves, still⟩ := recorded.saved false present inserted
      (fun destroyed => absurd destroyed chosen.2) apart admits
    have here : memory.machineOfBillingEvent input = some machine := by
      rw [MemoryState.machineOfBillingEvent, about]
    have there := attached.trans about
    unfold machineOfBillingEvent
    rw [here, there]
    dsimp only
    rw [saves]
    exact ⟨_, rfl, still⟩
  | none =>
    have absent := attached.trans about
    have here : memory.machineOfBillingEvent input = none := by
      rw [MemoryState.machineOfBillingEvent, about]
      dsimp only
      split
      · rename_i renewable
        rw [alike.renews about renewable.1 renewable.2.1 renewable.2.2]
        rfl
      · rfl
    unfold machineOfBillingEvent
    rw [here, absent]
    have there : (if input.entitlement.status = .active ∧
        input.entitlement.offerId.isSome ∧ input.sameKindOfferIds ≠ [] then
          (recoverableMachine
            { tables.upsertEntitlement input.entitlement with
              billingEvents := tables.billingEvents ++
                [(input.event.provider, input.event.eventId)] } order input).map
            fun machine => machine.renewedMachineForBillingEvent input.event.nowMs input.entitlement
        else none) = none := by
      split
      · rename_i renewable
        have none := alike.renews about renewable.1 renewable.2.1 renewable.2.2
        rw [recorded.recoverableMachine_none order none]
        rfl
      · rfl
    rw [there]
    unfold MemoryState.machineForNewSubscription
    cases offered : input.entitlement.offerId with
    | none => exact ⟨_, rfl, recorded⟩
    | some offerId =>
      cases provisioned : input.provisioning with
      | none => exact ⟨_, rfl, recorded⟩
      | some provisioning =>
        dsimp only
        by_cases active : input.entitlement.status = .active
        · obtain ⟨covers, fresh, unused⟩ :=
            alike.provisions offerId provisioning offered provisioned active about
          rw [if_neg (not_not.mpr active), if_neg covers.1, recorded.hasActiveMachine order]
          have same : MemoryState.hasActiveMachine
              { memory.upsertEntitlement input.entitlement with
                billingEvents := memory.billingEvents ++ [input.event.key] }
              input.entitlement.accountId input.sameKindOfferIds =
                memory.hasActiveMachine input.entitlement.accountId input.sameKindOfferIds := rfl
          rw [same]
          cases alone : memory.hasActiveMachine input.entitlement.accountId
              input.sameKindOfferIds with
          | true =>
            rw [if_pos rfl, if_neg (fun both => Bool.false_ne_true both.2.symm)]
            exact ⟨_, rfl, recorded⟩
          | false =>
            rw [if_neg Bool.false_ne_true, if_pos ⟨active, rfl⟩]
            let created := newMachineForBillingEvent input offerId provisioning
            have apart : Others memory created (created.conflicts · = false) := by
              intro otherId other present _
              exact conflicts_new rfl rfl rfl (unused otherId other present)
            have free : ∀ other ∈ memory.machines.values,
                other.state ≠ .destroyed → other.entitlementId ≠ created.entitlementId := by
              intro other member standing same
              have none := find?_eq_none.mp about other member
              refine none ?_
              simp only [Bool.and_eq_true, decide_eq_true_eq]
              exact ⟨same, standing⟩
            obtain ⟨inserts, still⟩ := recorded.insertMachine created fresh apart
              (separate_new covers alone free)
            rw [inserts]
            exact ⟨_, rfl, still⟩
        · rw [if_pos active, if_neg (fun both => active both.1)]
          exact ⟨_, rfl, recorded⟩

end Agrees

end Zuse.Machines
