import Zuse.Domain.Engine.SessionDomain

namespace Zuse.Domain

open Zuse.Data List LedgerWorld JobTable DispatchInput

/-! The job table keeps its jobs, and a settled table has nothing to cancel. -/

namespace LedgerWorld

section

variable (world : LedgerWorld)
include world

theorem ids_subset_insert (job : PendingJob) :
    world.table.rows.map (·.id) ⊆ (world.insert job).table.rows.map (·.id) := by
  rw [insert, JobTable.insert]
  split
  · exact List.Subset.refl _
  · exact map_subset _ (subset_append_left _ _)

theorem id_mem_insert (job : PendingJob) : job.id ∈ (world.insert job).table.rows.map (·.id) := by
  rw [insert, JobTable.insert]
  split
  · assumption
  · rw [write, map_append]
    exact mem_append_right _ (mem_singleton.mpr rfl)

theorem ids_subset_insertAll (jobs : List PendingJob) :
    world.table.rows.map (·.id) ⊆ (jobs.foldl insert world).table.rows.map (·.id) := by
  induction jobs generalizing world with
  | nil => exact List.Subset.refl _
  | cons job rest ih => exact List.Subset.trans (world.ids_subset_insert job) (ih _)

variable {jobs : List PendingJob}

theorem id_mem_insertAll {job : PendingJob} (member : job ∈ jobs) :
    job.id ∈ (jobs.foldl insert world).table.rows.map (·.id) := by
  induction jobs generalizing world with
  | nil => cases member
  | cons head rest ih =>
    rcases mem_cons.mp member with rfl | later
    · exact (world.insert job).ids_subset_insertAll rest (world.id_mem_insert job)
    · exact ih _ later

theorem insertAll_known (known : ∀ job ∈ jobs, job.id ∈ world.table.rows.map (·.id)) :
    jobs.foldl insert world = world := by
  induction jobs with
  | nil => rfl
  | cons job rest ih =>
    have ignored : world.insert job = world := by
      rw [insert, JobTable.insert, if_pos (known job mem_cons_self)]
      simp [write]
    rw [foldl_cons, ignored]
    exact ih fun other member => known other (mem_cons_of_mem _ member)

theorem ids_subset_update {condition : Job → Bool} {set : Job → Job}
    (same : ∀ row, (set row).id = row.id) :
    world.table.rows.map (·.id) ⊆ (world.table.update condition set).2.rows.map (·.id) := by
  rw [world.map_update condition same]
  exact List.Subset.refl _

end

variable {world : LedgerWorld}

theorem ids_step {next : LedgerWorld} {label : LedgerStep}
    (stepped : ledgerSystem.step world label = some next) :
    world.table.rows.map (·.id) ⊆ next.table.rows.map (·.id) := by
  cases label with
  | wait millis =>
    cases stepped
    exact List.Subset.refl _
  | enqueue jobs =>
    cases stepped
    exact world.ids_subset_insertAll jobs
  | claimNext input =>
    simp only [ledgerSystem] at stepped
    split at stepped
    · cases stepped
    cases stepped
    rw [claimNext]
    cases world.table.nextCandidate world.now input with
    | none => exact List.Subset.refl _
    | some candidate => exact world.ids_subset_update fun _ => rfl
  | updateClaim | reclaimExpired | cancelUnsettled | requeueAfterProcessLoss
  | cancelAfterProcessLoss =>
    obtain ⟨_, _, _, _, performs, rfl⟩ := step_updates stepped
    exact world.ids_subset_update fun row => (performs.same row).id

def NothingUnsettled (world : LedgerWorld) (sessionId : String) (kinds : List JobKind) : Prop :=
  ∀ job ∈ world.table.rows, job.sessionId = sessionId → job.request.kind ∈ kinds →
    job.status.isUnsettled = false

theorem ids_cancelUnsettled (world : LedgerWorld) (sessionId : String)
    (kinds : List JobKind) (reason : String) :
    (SessionDomain.cancelUnsettled world sessionId kinds reason).table.rows.map (·.id) =
      world.table.rows.map (·.id) :=
  world.map_update _ fun _ => rfl

variable {sessionId : String} {kinds : List JobKind}

theorem cancelUnsettled_nothing (nothing : world.NothingUnsettled sessionId kinds)
    (reason : String) : SessionDomain.cancelUnsettled world sessionId kinds reason = world := by
  have noRow : ∀ row ∈ world.table.rows, Decidable.decide (row.sessionId = sessionId ∧
      row.status.isUnsettled = true ∧ row.request.kind ∈ kinds) = false := by
    intro row stored
    rw [decide_eq_false_iff_not]
    rintro ⟨sameSession, unsettled, kind⟩
    rw [nothing row stored sameSession kind] at unsettled
    cases unsettled
  have none : world.table.rows.filter (fun row => Decidable.decide
      (row.sessionId = sessionId ∧ row.status.isUnsettled = true ∧
        row.request.kind ∈ kinds)) = [] :=
    filter_eq_nil_iff.mpr fun row stored => by simpa using noRow row stored
  have same : world.table.rows.map (fun row => if Decidable.decide
      (row.sessionId = sessionId ∧ row.status.isUnsettled = true ∧
        row.request.kind ∈ kinds) = true then cancelled world.now reason row
      else row) = world.table.rows := by
    refine (map_congr_left fun row stored => ?_).trans (map_id _)
    rw [noRow row stored]
    rfl
  rw [SessionDomain.cancelUnsettled, write, cancelUnsettled, update, none, same]
  simp

theorem nothingUnsettled_cancelUnsettled (world : LedgerWorld) (sessionId : String)
    (kinds : List JobKind) (reason : String) :
    (SessionDomain.cancelUnsettled world sessionId kinds reason).NothingUnsettled sessionId
      kinds := by
  intro job stored sameSession kind
  obtain ⟨row, present, rfl⟩ := mem_update stored
  split
  · rfl
  rename_i unmet
  rw [if_neg unmet] at sameSession kind
  cases unsettled : row.status.isUnsettled with
  | false => rfl
  | true => exact absurd (decide_eq_true ⟨sameSession, unsettled, kind⟩) unmet

theorem NothingUnsettled.cancelUnsettled (nothing : world.NothingUnsettled sessionId kinds)
    (other : String) (cancelledKinds : List JobKind) (reason : String) :
    (SessionDomain.cancelUnsettled world other cancelledKinds reason).NothingUnsettled
      sessionId kinds := by
  intro job stored sameSession kind
  obtain ⟨row, present, rfl⟩ := mem_update stored
  split
  · rfl
  · rename_i unmet
    rw [if_neg unmet] at sameSession kind
    exact nothing row present sameSession kind

end LedgerWorld

namespace SessionDomain

variable {ρ : Type u} {project : StoredEvent SessionEvent → ρ → ρ}

theorem cursor_le_projectRecord (project : StoredEvent SessionEvent → ρ → ρ)
    (projected : Option Nat × ρ) (record : StoredEvent SessionEvent) :
    projected.1.getD 0 ≤ (projectRecord project projected record).1.getD 0 ∧
      record.sequence ≤ (projectRecord project projected record).1.getD 0 := by
  rw [projectRecord]
  split
  · exact ⟨Nat.le_refl _, by assumption⟩
  · exact ⟨Nat.le_max_left _ _, Nat.le_max_right _ _⟩

theorem cursor_le_projectRecords (project : StoredEvent SessionEvent → ρ → ρ)
    (projected : Option Nat × ρ) (records : List (StoredEvent SessionEvent)) :
    projected.1.getD 0 ≤ (records.foldl (projectRecord project) projected).1.getD 0 ∧
      ∀ record ∈ records, record.sequence ≤
        (records.foldl (projectRecord project) projected).1.getD 0 := by
  induction records generalizing projected with
  | nil => exact ⟨Nat.le_refl _, forall_mem_nil _⟩
  | cons head rest ih =>
    obtain ⟨grows, covers⟩ := cursor_le_projectRecord project projected head
    obtain ⟨restGrows, restCovers⟩ := ih (projectRecord project projected head)
    refine ⟨grows.trans restGrows, ?_⟩
    rw [forall_mem_cons]
    exact ⟨covers.trans restGrows, restCovers⟩

theorem projectRecords_known {projected : Option Nat × ρ}
    {records : List (StoredEvent SessionEvent)}
    (known : ∀ record ∈ records, record.sequence ≤ projected.1.getD 0) :
    records.foldl (projectRecord project) projected = projected := by
  induction records with
  | nil => rfl
  | cons head rest ih =>
    rw [forall_mem_cons] at known
    rw [foldl_cons, projectRecord, if_pos known.1]
    exact ih known.2

variable {storage : SqlDispatchStorage SessionEvent} {receipt : CommandReceipt}

theorem mem_receiptEvents {streamId : String} {record : StoredEvent SessionEvent}
    (member : record ∈ receiptEvents storage streamId receipt) : record ∈ storage.events := by
  rw [receiptEvents] at member
  split at member
  · cases member
  · rw [SqlDispatchStorage.eventsInVersionRange, SqlDispatchStorage.byVersion,
      mem_insertionSort] at member
    exact mem_of_mem_filter member

theorem ids_updateJobs (input : DispatchInput) (appended : List (StoredEvent SessionEvent))
    (ledger : LedgerWorld) :
    ledger.table.rows.map (·.id) ⊆ (updateJobs input appended ledger).table.rows.map (·.id) ∧
      ∀ record ∈ appended, ∀ job ∈ jobsForSessionEvent record,
        job.id ∈ (updateJobs input appended ledger).table.rows.map (·.id) := by
  constructor
  · refine List.Subset.trans ?_ (ids_subset_insertAll _ _)
    split <;> split <;> (try simp only [ids_cancelUnsettled]) <;>
      exact List.Subset.refl _
  · intro record member job implied
    exact id_mem_insertAll _ (mem_flatMap.mpr ⟨record, member, implied⟩)

structure Sound (domain : SessionDomain ρ) : Prop where
  sequenced : domain.storage.Sequenced
  projected : ∀ record ∈ domain.storage.events, record.sequence ≤ domain.projectorCursor.getD 0
  enqueued : ∀ record ∈ domain.storage.events, ∀ job ∈ jobsForSessionEvent record,
    job.id ∈ domain.ledger.table.rows.map (·.id)

section Dispatch

variable [PayloadCodec] {domain next : SessionDomain ρ} {emptyModel : ρ}
variable {input : DispatchInput} {eventIds : List String}

theorem run_cases {final : SqlDispatchStorage SessionEvent}
    (ran : input.run storage eventIds = .ok (receipt, final)) :
    final = storage ∨ ∃ append : AppendInput SessionEvent, append.streamId = input.streamId ∧
      storage.append append = .ok (receipt, final) ∧
        (eventIds.length = input.drawn storage → append.events.map Prod.fst = eventIds) := by
  rw [run] at ran
  cases decided : input.decision storage with
  | error failure =>
    rw [decided] at ran
    cases ran
  | ok outcome =>
    cases outcome with
    | inl known =>
      rw [decided] at ran
      cases ran
      exact .inl rfl
    | inr decision =>
      obtain ⟨state, events⟩ := decision
      rw [decided] at ran
      refine .inr ⟨input.appendInput state (eventIds.zip events), rfl, ran, fun length => ?_⟩
      rw [drawn, decided] at length
      exact map_fst_zip length.le

theorem run_sequenced {final : SqlDispatchStorage SessionEvent} (sequenced : storage.Sequenced)
    (length : eventIds.length = input.drawn storage) (nodup : eventIds.Nodup)
    (fresh : ∀ id ∈ eventIds, id ∉ storage.events.map (·.eventId))
    (ran : input.run storage eventIds = .ok (receipt, final)) : final.Sequenced := by
  obtain rfl | ⟨append, -, appended, drawn⟩ := run_cases ran
  · exact sequenced
  have ids := drawn length
  exact (sequenced.append (ids.symm ▸ nodup) (ids.symm ▸ fresh) appended).1

/-- A run commits nothing, or commits the events of its receipt at the end of the log. -/
theorem run_appends {final : SqlDispatchStorage SessionEvent}
    (sequenced : storage.Sequenced) (sequencedFinal : final.Sequenced)
    (ran : input.run storage eventIds = .ok (receipt, final)) :
    final = storage ∨
      final.events = storage.events ++ receiptEvents final input.streamId receipt ∧
        storage.lastSequence ≤ final.lastSequence ∧
        ∀ record ∈ receiptEvents final input.streamId receipt,
          storage.lastSequence < record.sequence := by
  obtain rfl | ⟨append, sameStream, ran, -⟩ := run_cases ran
  · exact .inl rfl
  cases SqlDispatchStorage.append_ok sequenced ran with
  | inl same => exact .inl same
  | inr inserted =>
    obtain ⟨-, newest, isReceipt, rfl⟩ := inserted
    have range := sequencedFinal.range_insert newest
    have appended : receiptEvents (storage.insert append) input.streamId receipt =
        append.stored storage.lastSequence := by
      rw [receiptEvents, isReceipt, ← sameStream]
      split
      · rename_i noEvents
        rw [AppendInput.receipt, map_eq_nil_iff] at noEvents
        rw [AppendInput.stored, noEvents]
        rfl
      · change (storage.insert append).eventsInVersionRange _
          (append.expectedVersion + append.events.length - (append.events.map Prod.fst).length)
          (append.expectedVersion + append.events.length) = _
        rw [length_map, Nat.add_sub_cancel, range]
    rw [appended]
    refine .inr ⟨rfl, Nat.le_add_right _ _, fun record member => ?_⟩
    have listed := mem_map_of_mem (f := (·.sequence)) member
    rw [AppendInput.stored, SqlDispatchStorage.records_sequence, mem_range'_1] at listed
    exact listed.1

theorem Sound.initial : (sessionDomainSystem project emptyModel).init.Sound where
  sequenced := .initial
  projected := forall_mem_nil _
  enqueued := forall_mem_nil _

theorem Sound.dispatch (sound : domain.Sound) (draws : domain.Draws input eventIds)
    (dispatched : domain.dispatchTransactionally project input eventIds =
      .ok (receipt, next)) : next.Sound := by
  rw [dispatchTransactionally] at dispatched
  split at dispatched
  · cases dispatched
  cases ran : input.run domain.storage eventIds with
  | error failure =>
    rw [ran] at dispatched
    cases dispatched
  | ok outcome =>
    obtain ⟨known, storage⟩ := outcome
    rw [ran] at dispatched
    cases dispatched
    have sequenced := run_sequenced sound.sequenced draws.1 draws.2.1 draws.2.2 ran
    have added : ∀ record ∈ storage.events, record ∈ domain.storage.events ∨
        record ∈ receiptEvents storage input.streamId receipt := by
      intro record member
      obtain same | ⟨events, -, -⟩ := run_appends sound.sequenced sequenced ran
      · exact .inl (same ▸ member)
      · rw [events] at member
        exact mem_append.mp member
    obtain ⟨grows, covers⟩ := cursor_le_projectRecords project
      (domain.projectorCursor, domain.readModel)
      (receiptEvents storage input.streamId receipt)
    obtain ⟨kept, enqueued⟩ := ids_updateJobs input
      (receiptEvents storage input.streamId receipt) domain.ledger
    refine ⟨sequenced, ?_, ?_⟩
    · intro record member
      rcases added record member with old | new
      · exact (sound.projected record old).trans grows
      · exact covers record new
    · intro record member job implied
      rcases added record member with old | new
      · exact kept (sound.enqueued record old job implied)
      · exact enqueued record new job implied

theorem Sound.step (sound : domain.Sound) {label : SessionDomainStep}
    (stepped : (sessionDomainSystem project emptyModel).step domain label = some next) :
    next.Sound := by
  cases label with
  | dispatch input eventIds =>
    simp only [sessionDomainSystem] at stepped
    split at stepped
    · rename_i draws
      split at stepped
      · cases stepped
      · rename_i receipt final dispatched
        cases stepped
        exact sound.dispatch draws dispatched
    · cases stepped
  | ledger label =>
    simp only [sessionDomainSystem] at stepped
    split at stepped
    · cases stepped
    · rename_i ledger ledgerStepped
      cases stepped
      exact ⟨sound.sequenced, sound.projected, fun record member job implied =>
        ids_step ledgerStepped (sound.enqueued record member job implied)⟩
  | catchUp =>
    cases stepped
    refine ⟨sound.sequenced, fun record member => ?_, sound.enqueued⟩
    exact (sound.projected record member).trans
      (cursor_le_projectRecords project (domain.projectorCursor, domain.readModel) _).1
  | commitElsewhere rows =>
    cases stepped
    refine ⟨⟨sound.sequenced.exact, sound.sequenced.ordered, ?_⟩, sound.projected, sound.enqueued⟩
    exact fun record member =>
      Nat.le_add_right_of_le (sound.sequenced.bounded record member)
  | closeAdmission | restart | beginForkConstruction sessionId
  | completeForkConstruction sessionId | beginCheckpointRestore
  | completeCheckpointRestore =>
    cases stepped
    exact ⟨sound.sequenced, sound.projected, sound.enqueued⟩

theorem Sound.of_reachable (reachable : (sessionDomainSystem project emptyModel).Reachable domain) :
    domain.Sound :=
  reachable.invariant .initial fun _ _ _ _ sound stepped => sound.step stepped

/-- No job is left that the events of the receipt would cancel again. -/
def NothingToCancel (domain : SessionDomain ρ) (input : DispatchInput)
    (receipt : CommandReceipt) : Prop :=
  let events := receiptEvents domain.storage input.streamId receipt
  (supersedes input events = true → domain.ledger.NothingUnsettled input.streamId supersededKinds) ∧
    (interrupts events = true → domain.ledger.NothingUnsettled input.streamId interruptedKinds)

omit [PayloadCodec] in
theorem interruptedKinds_subset : interruptedKinds ⊆ supersededKinds := by
  decide

omit [PayloadCodec] in
theorem updateJobs_eq_iff (input : DispatchInput)
    {appended : List (StoredEvent SessionEvent)} {ledger : LedgerWorld}
    (known : ∀ record ∈ appended, ∀ job ∈ jobsForSessionEvent record,
      job.id ∈ ledger.table.rows.map (·.id)) :
    updateJobs input appended ledger = ledger ↔
      (supersedes input appended = true → ledger.NothingUnsettled input.streamId supersededKinds) ∧
      (interrupts appended = true → ledger.NothingUnsettled input.streamId interruptedKinds) := by
  have inserted : ∀ cancelled : LedgerWorld,
      cancelled.table.rows.map (·.id) = ledger.table.rows.map (·.id) →
      (appended.flatMap jobsForSessionEvent).foldl insert cancelled =
        cancelled := by
    intro cancelled sameIds
    apply insertAll_known
    intro job member
    obtain ⟨record, isAppended, implied⟩ := mem_flatMap.mp member
    rw [sameIds]
    exact known record isAppended job implied
  rw [updateJobs]
  cases superseding : supersedes input appended <;>
    cases interrupting : interrupts appended
  · rw [if_neg Bool.false_ne_true, if_neg Bool.false_ne_true, inserted _ rfl]
    simp
  · rw [if_neg Bool.false_ne_true, if_pos rfl, inserted _ (ledger.ids_cancelUnsettled _ _ _)]
    constructor
    · intro same
      have settled := ledger.nothingUnsettled_cancelUnsettled input.streamId
        interruptedKinds "Turn interrupted by the user."
      rw [same] at settled
      exact ⟨fun absurd => (Bool.false_ne_true absurd).elim, fun _ => settled⟩
    · exact fun nothing => cancelUnsettled_nothing (nothing.2 rfl) _
  · rw [if_pos rfl, if_neg Bool.false_ne_true, inserted _ (ledger.ids_cancelUnsettled _ _ _)]
    constructor
    · intro same
      have settled := ledger.nothingUnsettled_cancelUnsettled input.streamId
        supersededKinds "Superseded by a new attempt."
      rw [same] at settled
      exact ⟨fun _ => settled, fun absurd => (Bool.false_ne_true absurd).elim⟩
    · exact fun nothing => cancelUnsettled_nothing (nothing.1 rfl) _
  · rw [if_pos rfl, if_pos rfl, inserted _ (by
      rw [ids_cancelUnsettled, ids_cancelUnsettled])]
    constructor
    · intro same
      have superseded := (ledger.nothingUnsettled_cancelUnsettled input.streamId
        supersededKinds "Superseded by a new attempt.").cancelUnsettled input.streamId
          interruptedKinds "Turn interrupted by the user."
      rw [same] at superseded
      refine ⟨fun _ => superseded, fun _ job stored sameSession kind => ?_⟩
      exact superseded job stored sameSession (interruptedKinds_subset kind)
    · intro nothing
      rw [cancelUnsettled_nothing (nothing.1 rfl), cancelUnsettled_nothing (nothing.2 rfl)]

theorem redispatch_iff (reachable : (sessionDomainSystem project emptyModel).Reachable domain)
    {input : DispatchInput} (noAttempt : input.expectedAttempt = none)
    (noProvider : input.expectedProviderSessionId = none) {receipt : CommandReceipt}
    (committed : domain.storage.receipt input.commandId = some receipt)
    (sameStream : receipt.streamId = input.streamId)
    (sameIdentity : identitiesConflict input.receiptIdentity receipt.receiptIdentity =
      false) (eventIds : List String) :
    domain.dispatchTransactionally project input eventIds = .ok (receipt, domain) ↔
      domain.admits input = true ∧ domain.NothingToCancel input receipt := by
  have sound := Sound.of_reachable reachable
  have decision : input.decision domain.storage = .ok (.inl receipt) := by
    have valid : input.validate receipt = .ok receipt :=
      validateCommandReceipt_eq_ok.mpr ⟨rfl, sameStream, sameIdentity⟩
    rw [decision, committed, noAttempt, noProvider]
    simp only [valid]
    rfl
  have ran : input.run domain.storage eventIds = .ok (receipt, domain.storage) := by
    rw [run, decision]
  have events : ∀ record ∈ receiptEvents domain.storage input.streamId receipt,
      record ∈ domain.storage.events := fun _ member => mem_receiptEvents member
  have projected : (receiptEvents domain.storage input.streamId receipt).foldl
      (projectRecord project) (domain.projectorCursor, domain.readModel) =
        (domain.projectorCursor, domain.readModel) :=
    projectRecords_known fun record member =>
      sound.projected record (events record member)
  have jobs := updateJobs_eq_iff input fun record member =>
    sound.enqueued record (events record member)
  rw [dispatchTransactionally, NothingToCancel, ← jobs]
  cases admitted : domain.admits input with
  | false =>
    constructor
    · intro failed
      cases failed
    · rintro ⟨admits, -⟩
      cases admits
  | true =>
    rw [if_neg (by decide)]
    simp only [ran, projected]
    constructor
    · intro same
      have sameLedger := congrArg (·.ledger) (Prod.mk.inj (Except.ok.inj same)).2
      exact ⟨trivial, sameLedger⟩
    · rintro ⟨-, sameLedger⟩
      rw [sameLedger]

end Dispatch

def retryInput : DispatchInput :=
  .plain "retry" "session" (.retryTurn "turn" .retry "input" none 2)

def retriedTurn : List SessionDomainStep :=
  [.dispatch (.plain "create" "session" (.createSession (.plain "session") none)) ["e1"],
    .dispatch (.plain "start" "session" (.startTurn "turn" 1)) ["e2"],
    .dispatch retryInput ["e3", "e4", "e5"]]

def noReadModel (_ : StoredEvent SessionEvent) (readModel : Unit) : Unit := readModel

@[reducible] def retriedSystem : TransitionSystem (SessionDomain Unit) SessionDomainStep :=
  @sessionDomainSystem rejectingCodec Unit noReadModel ()

@[reducible] def redispatched (domain : SessionDomain Unit) :
    Except SessionDomainFailure (CommandReceipt × SessionDomain Unit) :=
  @dispatchTransactionally Unit noReadModel domain rejectingCodec retryInput []

def jobStatuses (domain : SessionDomain Unit) : List JobStatus :=
  domain.ledger.table.rows.map (·.status)

/-- The job of the retry is pending before the duplicate and cancelled after it. -/
def observed (domain : SessionDomain Unit) : Bool :=
  match redispatched domain with
  | .error _ => false
  | .ok (receipt, next) =>
    Decidable.decide (domain.storage.receipt "retry" = some receipt) &&
      Decidable.decide (receipt.streamId = "session") &&
      Decidable.decide (receipt.receiptIdentity = none) &&
      Decidable.decide (jobStatuses domain = [.pending]) &&
      Decidable.decide (jobStatuses next = [.cancelled])

theorem retriedTurn_observed : (retriedSystem.run retriedTurn).map observed = some true := by
  decide +kernel

theorem observed_spec {domain : SessionDomain Unit} (holds : observed domain = true) :
    ∃ receipt next, redispatched domain = .ok (receipt, next) ∧
      domain.storage.receipt "retry" = some receipt ∧ receipt.streamId = "session" ∧
      receipt.receiptIdentity = none ∧ jobStatuses domain = [.pending] ∧
      jobStatuses next = [.cancelled] := by
  rw [observed] at holds
  split at holds
  · cases holds
  · rename_i receipt next dispatched
    simp only [Bool.and_eq_true, decide_eq_true_eq] at holds
    obtain ⟨⟨⟨⟨stored, sameStream⟩, noIdentity⟩, pending⟩, cancelled⟩ := holds
    exact ⟨receipt, next, dispatched, stored, sameStream, noIdentity, pending, cancelled⟩

theorem duplicateRetry_cancels :
    ∃ domain receipt next, retriedSystem.run retriedTurn = some domain ∧
      domain.storage.receipt retryInput.commandId = some receipt ∧
      redispatched domain = .ok (receipt, next) ∧
      jobStatuses domain = [.pending] ∧ jobStatuses next = [.cancelled] := by
  obtain ⟨domain, ran, holds⟩ := Option.map_eq_some_iff.mp retriedTurn_observed
  obtain ⟨receipt, next, dispatched, stored, -, -, pending, cancelled⟩ :=
    observed_spec holds
  exact ⟨domain, receipt, next, ran, stored, dispatched, pending, cancelled⟩

theorem redispatch_iff_of_retriedTurn :
    ∃ domain receipt, retriedSystem.run retriedTurn = some domain ∧
      domain.storage.receipt retryInput.commandId = some receipt ∧
      (redispatched domain = .ok (receipt, domain) ↔
        domain.admits retryInput = true ∧ domain.NothingToCancel retryInput receipt) := by
  obtain ⟨domain, ran, holds⟩ := Option.map_eq_some_iff.mp retriedTurn_observed
  obtain ⟨receipt, next, -, stored, sameStream, -⟩ := observed_spec holds
  exact ⟨domain, receipt, ran, stored, @redispatch_iff Unit noReadModel rejectingCodec
    domain () (TransitionSystem.run_reachable ran) retryInput rfl rfl receipt stored
    sameStream rfl []⟩

end SessionDomain

end Zuse.Domain
