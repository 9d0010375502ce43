import Zuse.Data.Proration
import Zuse.Billing.AccountMetering
import Zuse.Billing.SnapshotStorage

namespace Zuse.Billing

open Zuse.Data List

theorem storageEventId_injective {left right : String} {leftStart rightStart : Int}
    {leftUntil rightUntil : Int}
    (same : storageEventId left leftStart leftUntil = storageEventId right rightStart rightUntil) :
    left = right ∧ leftStart = rightStart ∧ leftUntil = rightUntil := by
  obtain ⟨starts, untils⟩ := colon_right_injective (colon_not_mem_toString_int leftUntil)
    (colon_not_mem_toString_int rightUntil) same
  obtain ⟨names, numbers⟩ := colon_right_injective (colon_not_mem_toString_int leftStart)
    (colon_not_mem_toString_int rightStart) starts
  have versions : ':' ∉ snapshotRateVersion.toList := by decide
  obtain ⟨snapshots, _⟩ := colon_right_injective versions versions names
  exact ⟨append_left_injective snapshots, toString_int_injective numbers,
    toString_int_injective untils⟩

variable {added : List UsageRecord}

namespace BillingStore

variable {store next : BillingStore}

/-- The entries for the storage of a snapshot, in the order that they were recorded. -/
def storageUsages (store : BillingStore) (snapshotId : String) : List UsageRecord :=
  store.usage.filter fun usage => usage.resourceId = snapshotId

/-- Billing of storage only, each interval of a snapshot under its own event. -/
structure StorageSound (store : BillingStore) : Prop where
  sound : store.Sound
  usages : ∀ usage ∈ store.usage, ∃ accountId periodId micros, usage =
    storageUsage accountId periodId usage.resourceId usage.startedAt usage.endedAt micros
  finalizations : ∀ row ∈ store.finalizations, ∃ usage ∈ store.usage,
    row.eventId = usage.providerEventId ∧ row.providerExecutionId = some usage.providerEventId

theorem storageUsages_append (usage : next.usage = store.usage ++ added) (snapshotId : String)
    (owned : ∀ item ∈ added, item.resourceId = snapshotId) :
    next.storageUsages snapshotId = store.storageUsages snapshotId ++ added ∧
      ∀ other, other ≠ snapshotId → next.storageUsages other = store.storageUsages other := by
  rw [storageUsages, usage, filter_append]
  constructor
  · rw [filter_eq_self.mpr fun item member => decide_eq_true (owned item member)]
    rfl
  intro other different
  have none : added.filter (fun item => item.resourceId = other) = [] := by
    rw [filter_eq_nil_iff]
    intro item member same
    rw [decide_eq_true_eq, owned item member] at same
    exact different same.symm
  rw [storageUsages, usage, filter_append, none, append_nil]
  rfl

theorem billStorage_spec (sound : store.StorageSound) {periodId : String}
    (known : (store.period? periodId).isSome = true) (accountId snapshotId : String)
    {start until_ : Int} (micros : Nat)
    (isNew : ∀ usage ∈ store.storageUsages snapshotId,
      ¬(usage.startedAt = start ∧ usage.endedAt = until_)) :
    ∃ billed, store.billStorage accountId periodId snapshotId start until_ micros = some billed ∧
      billed.usage = store.usage ++
        [storageUsage accountId periodId snapshotId start until_ micros] ∧
      billed.periods = store.periods ∧ billed.StorageSound := by
  have unlike {stored : UsageRecord} (member : stored ∈ store.usage) :
      stored.providerEventId ≠ storageEventId snapshotId start until_ := by
    intro same
    obtain ⟨_, _, _, isStorage⟩ := sound.usages stored member
    have event : stored.providerEventId =
        storageEventId stored.resourceId stored.startedAt stored.endedAt := by
      rw [isStorage]
      rfl
    obtain ⟨id, starts, untils⟩ := storageEventId_injective (event.symm.trans same)
    exact isNew stored (mem_filter.mpr ⟨member, decide_eq_true id⟩) ⟨starts, untils⟩
  let event : ProviderEvent :=
    { provider := .box
      eventId := storageEventId snapshotId start until_
      type := "snapshot-storage"
      providerResourceId := some snapshotId
      occurredAtMs := some until_ }
  let item := storageUsage accountId periodId snapshotId start until_ micros
  let batch : ExecutionBatch :=
    { provider := .box
      eventId := storageEventId snapshotId start until_
      providerExecutionId := some (storageEventId snapshotId start until_)
      usage := [item] }
  have recordedSound := recordProviderEvent_sound sound.sound event
  have unfinalized : (store.recordProviderEvent event).2.isFinalized batch = false := by
    rw [isFinalized, isProviderEventFinalized, any_eq_false]
    intro row isRow matched
    obtain ⟨stored, isStored, sameEvent, sameExecution⟩ := sound.finalizations row isRow
    simp only [Bool.and_eq_true, Bool.or_eq_true, decide_eq_true_eq] at matched
    rcases matched.2 with isEvent | ⟨_, isExecution⟩
    · exact unlike isStored (sameEvent.symm.trans isEvent)
    · exact unlike isStored (Option.some.inj (sameExecution.symm.trans isExecution))
  have known_ : (store.recordProviderEvent event).2.hasEvent batch = true := by
    rw [hasEvent, recordProviderEvent, Table.insertNew]
    split
    · rename_i conflict
      exact conflict
    · simp [event, batch]
  have accepted : (store.recordProviderEvent event).2.accepts batch = true := by
    have periods : (batch.usage.all fun usage =>
        ((store.recordProviderEvent event).2.period? usage.periodId).isSome) = true := by
      rw [all_cons, all_nil, Bool.and_true]
      exact known
    have valid : batch.isValid = true := by
      simp [ExecutionBatch.isValid, batch, item, storageUsage]
    rw [accepts, valid, known_, unfinalized, periods]
    rfl
  obtain ⟨⟨metered, billed⟩, recorded⟩ :=
    Option.isSome_iff_exists.mp (recordBatch_isSome recordedSound accepted)
  obtain ⟨_, _, ⟨finalized, _, _⟩ | ⟨_, middle, usages, same⟩⟩ := recordBatch_cases recorded
  · rw [unfinalized] at finalized
    cases finalized
  have result := recordUsages_recorded recordedSound usages
  have appended : billed.usage = store.usage ++ [item] := by
    rw [same]
    refine result.usage.trans ?_
    rw [insertUsages_eq, freshUsages_of_free]
    · rfl
    · intro stored isStored added isAdded
      rw [mem_singleton.mp isAdded]
      obtain ⟨_, _, _, isStorage⟩ := sound.usages stored isStored
      refine UsageRecord.conflicts_eq_false (fun _ event => unlike isStored event) ?_
      intro _ _ execution
      refine absurd ?_ (unlike isStored)
      rw [isStorage] at execution ⊢
      exact Option.some.inj execution
    · exact pairwise_singleton _ _
  have finalizations : billed.finalizations = store.finalizations ++ [batch.finalization] := by
    rw [same]
    rw [result.same.finalizations]
    rfl
  refine ⟨billed, ?_, appended, ?_, recordBatch_sound recordedSound recorded, ?_, ?_⟩
  · exact Option.map_eq_some_iff.mpr ⟨_, recorded, rfl⟩
  · rw [same]
    exact result.same.periods
  · rw [appended]
    intro usage member
    rcases mem_concat.mp member with old | rfl
    · exact sound.usages usage old
    · exact ⟨accountId, periodId, micros, rfl⟩
  rw [appended, finalizations]
  intro row isRow
  rcases mem_concat.mp isRow with old | rfl
  · obtain ⟨usage, member, ids⟩ := sound.finalizations row old
    exact ⟨usage, mem_append_left _ member, ids⟩
  · exact ⟨item, mem_append_right _ mem_cons_self, rfl, rfl⟩

end BillingStore

variable {cost : SnapshotCost}

theorem snapshotStorageCost_some {durationMs : Int} {remainder rateMicros : Nat}
    (priced : snapshotStorageCost durationMs remainder rateMicros = some cost) :
    cost.micros = (durationMs.toNat * rateMicros + remainder) / snapshotMonthMs ∧
      cost.remainder = (durationMs.toNat * rateMicros + remainder) % snapshotMonthMs := by
  unfold snapshotStorageCost at priced
  split at priced
  · cases priced
  dsimp only at priced
  split at priced
  · cases priced
  · cases priced
    exact ⟨rfl, rfl⟩

def StorageProrated (usages : List UsageRecord) (carried : Nat) : Prop :=
  Prorated UsageRecord.startedAt UsageRecord.endedAt UsageRecord.providerCostMicros
    snapshotMonthMicros snapshotMonthMs usages carried

/-- What is billed lies before the cursor, in order. Where the billing is exact, the
remainder is what the last entry carries if it ends at the cursor, and nothing otherwise. -/
structure Carries (exact : Prop) (usages : List UsageRecord) (cursor : Int)
    (remainder : Nat) : Prop where
  ordered : usages.Pairwise fun left right => left.endedAt ≤ right.startedAt
  forward : ∀ usage ∈ usages, usage.startedAt < usage.endedAt
  before : ∀ usage ∈ usages, usage.endedAt ≤ cursor
  prorated : exact → ∃ carried, StorageProrated usages carried ∧
    ((∃ others last, usages = others ++ [last] ∧ last.endedAt = cursor ∧ remainder = carried) ∨
      remainder = 0 ∧ ∀ usage ∈ usages, usage.endedAt < cursor)

namespace Carries

variable {exact : Prop} {usages : List UsageRecord} {cursor : Int} {remainder : Nat}

theorem empty (cursor : Int) : Carries exact [] cursor 0 where
  ordered := List.Pairwise.nil
  forward := forall_mem_nil _
  before := forall_mem_nil _
  prorated := fun _ => ⟨0, .nil, .inr ⟨rfl, forall_mem_nil _⟩⟩

theorem later (carries : Carries exact usages cursor remainder) {next : Int}
    (after : cursor < next) (carried : exact → remainder = 0) :
    Carries exact usages next remainder where
  ordered := carries.ordered
  forward := carries.forward
  before := fun usage member => (carries.before usage member).trans after.le
  prorated := by
    intro isExact
    obtain ⟨last, prorated, _⟩ := carries.prorated isExact
    exact ⟨last, prorated, .inr ⟨carried isExact, fun usage member =>
      lt_of_le_of_lt (carries.before usage member) after⟩⟩

theorem remainder_of_nil (carries : Carries exact [] cursor remainder) (isExact : exact) :
    remainder = 0 := by
  obtain ⟨_, _, ⟨others, last, same, _, _⟩ | ⟨zero, _⟩⟩ := carries.prorated isExact
  · exact absurd same.symm (concat_ne_nil _ _)
  · exact zero

theorem bill (carries : Carries exact usages cursor remainder) {start until_ : Int}
    (after : cursor ≤ start) (forward : start < until_)
    (priced : snapshotStorageCost (until_ - start) (if cursor < start then 0 else remainder)
      snapshotMonthMicros = some cost)
    (usage : UsageRecord) (started : usage.startedAt = start) (ended : usage.endedAt = until_)
    (charged : usage.providerCostMicros = cost.micros) :
    Carries exact (usages ++ [usage]) until_ cost.remainder where
  ordered := by
    refine pairwise_append.mpr ⟨carries.ordered, pairwise_singleton _ _, ?_⟩
    intro earlier isEarlier later isLater
    rw [mem_singleton.mp isLater, started]
    exact (carries.before earlier isEarlier).trans after
  forward := by
    intro other member
    rcases mem_concat.mp member with old | rfl
    · exact carries.forward other old
    · rw [started, ended]
      exact forward
  before := by
    intro other member
    rcases mem_concat.mp member with old | rfl
    · exact ((carries.before other old).trans after).trans forward.le
    · rw [ended]
  prorated := by
    intro isExact
    have length : spanLength UsageRecord.startedAt UsageRecord.endedAt usage =
        (until_ - start).toNat := by
      rw [spanLength, started, ended]
    have onward : usage.startedAt < usage.endedAt := by
      rw [started, ended]
      exact forward
    have costs := snapshotStorageCost_some priced
    obtain ⟨carried, prorated, standing⟩ := carries.prorated isExact
    rw [← charged, ← length] at costs
    -- after a gap nothing is carried, and otherwise what the last entry carries
    by_cases follows : ∃ others last, usages = others ++ [last] ∧ last.endedAt = start ∧
        remainder = carried
    · obtain ⟨others, last, rfl, isLast, rfl⟩ := follows
      have adjacent : ¬cursor < start := by
        rw [← isLast, not_lt]
        exact carries.before last (mem_append_right _ mem_cons_self)
      rw [if_neg adjacent] at costs
      have extended := Prorated.extend prorated (isLast.trans started.symm) onward costs.1
      rw [← costs.2] at extended
      exact ⟨cost.remainder, extended, .inl ⟨others ++ [last], usage, rfl, ended, rfl⟩⟩
    have apart : (if cursor < start then 0 else remainder) = 0 ∧
        ∀ earlier ∈ usages, earlier.endedAt < start := by
      by_cases gap : cursor < start
      · rw [if_pos gap]
        exact ⟨rfl, fun earlier member =>
          lt_of_le_of_lt (carries.before earlier member) gap⟩
      have same : cursor = start := le_antisymm after (not_lt.mp gap)
      rw [if_neg gap, ← same]
      rcases standing with ⟨others, last, split, isLast, isCarried⟩ | nothing
      · exact absurd ⟨others, last, split, isLast.trans same, isCarried⟩ follows
      · exact nothing
    rw [apart.1, Nat.add_zero] at costs
    have begun := Prorated.begin prorated (fun earlier member => by
      rw [started]
      exact apart.2 earlier member) onward costs.1
    rw [← costs.2] at begun
    exact ⟨cost.remainder, begun, .inl ⟨usages, usage, rfl, ended, rfl⟩⟩

end Carries

structure Settles (exact : Prop) (snapshotId : String) (store : BillingStore) (cursor : Int)
    (settled : BillingStore.Settling) (added : List UsageRecord) : Prop where
  storage : settled.store.StorageSound
  usage : settled.store.usage = store.usage ++ added
  periods : settled.store.periods = store.periods
  owned : ∀ item ∈ added, item.resourceId = snapshotId
  after : ∀ item ∈ added, cursor ≤ item.startedAt
  onward : cursor ≤ settled.cursor
  carries : Carries exact (settled.store.storageUsages snapshotId) settled.cursor settled.remainder

variable {accountId : String}

namespace BillingStore

theorem settlePeriods_spec {exact : Prop} {snapshotId : String} {end_ : Int}
    {periods : List BillingPeriod} {settling settled : Settling}
    (sound : settling.store.StorageSound)
    (known : ∀ period ∈ periods, period ∈ settling.store.periods)
    (carries : Carries exact (settling.store.storageUsages snapshotId) settling.cursor
      settling.remainder)
    (before : settling.cursor ≤ end_)
    (settles : settlePeriods accountId snapshotId end_ settling periods = some settled) :
    settled.cursor ≤ end_ ∧ ∃ added,
      Settles exact snapshotId settling.store settling.cursor settled added := by
  induction periods generalizing settling with
  | nil =>
    cases settles
    exact ⟨before, [], sound, (append_nil _).symm, rfl, forall_mem_nil _,
      forall_mem_nil _, le_refl _, carries⟩
  | cons period rest ih =>
    obtain ⟨isKnown, others⟩ := forall_mem_cons.mp known
    rw [settlePeriods] at settles
    split at settles
    · exact ih sound others carries before settles
    rename_i something
    rw [not_le] at something
    obtain ⟨cost, priced, billing⟩ := Option.bind_eq_some_iff.mp settles
    obtain ⟨billed, isBilled, remaining⟩ := Option.bind_eq_some_iff.mp billing
    have after : settling.cursor ≤ max settling.cursor period.periodStartMs :=
      le_max_left _ _
    have found : (settling.store.period? period.periodId).isSome = true := by
      rw [period?, List.find?_isSome]
      exact ⟨period, isKnown, decide_eq_true rfl⟩
    have isNew : ∀ usage ∈ settling.store.storageUsages snapshotId,
        ¬(usage.startedAt = max settling.cursor period.periodStartMs ∧
          usage.endedAt = min end_ period.periodEndMs) := by
      rintro usage member ⟨_, ended⟩
      have early := carries.before usage member
      rw [ended] at early
      exact absurd something (not_lt.mpr (early.trans after))
    obtain ⟨_, same, usage, periods, storage⟩ := billStorage_spec sound found accountId
      snapshotId cost.micros isNew
    cases isBilled.symm.trans same
    let item := storageUsage accountId period.periodId snapshotId
      (max settling.cursor period.periodStartMs) (min end_ period.periodEndMs) cost.micros
    have items := storageUsages_append usage snapshotId (forall_mem_singleton.mpr rfl)
    have carried := carries.bill after something priced item rfl rfl rfl
    rw [← items.1] at carried
    obtain ⟨inside, added, result⟩ := @ih ⟨billed, _, cost.remainder⟩ storage
      (by rw [periods]; exact others) carried (min_le_left _ _) remaining
    refine ⟨inside, item :: added, result.storage, ?_, result.periods.trans periods, ?_,
      ?_, ?_, result.carries⟩
    · rw [result.usage]
      rw [usage, append_assoc, singleton_append]
    · exact forall_mem_cons.mpr ⟨rfl, result.owned⟩
    · refine forall_mem_cons.mpr ⟨after, fun other member => ?_⟩
      exact (after.trans something.le).trans (result.after other member)
    · exact (after.trans something.le).trans result.onward

end BillingStore

/-- What is billed for a snapshot that was retained lies before its checkpoint, which is not
past its stop. -/
structure Accounted (exact : Prop) (cutover : Option Int) (record : CloudSnapshotRecord)
    (usages : List UsageRecord) (retainedAtMs checkpoint : Int) : Prop where
  checkpointed : record.checkpointAtMs = some checkpoint
  after : retainedAtMs ≤ checkpoint
  stopped : ∀ stoppedAtMs, record.stoppedAtMs = some stoppedAtMs → checkpoint ≤ stoppedAtMs
  carries : Carries exact usages checkpoint record.remainder
  within : ∀ usage ∈ usages, ∃ cutoverAtMs, cutover = some cutoverAtMs ∧
    max retainedAtMs cutoverAtMs ≤ usage.startedAt

def IsAccounted (exact : Prop) (cutover : Option Int) (record : CloudSnapshotRecord)
    (usages : List UsageRecord) : Prop :=
  match record.retainedAtMs with
  | none => usages = [] ∧ record.remainder = 0
  | some retainedAtMs =>
    ∃ checkpoint, Accounted exact cutover record usages retainedAtMs checkpoint

variable {record : CloudSnapshotRecord}

theorem Accounted.advance {exact : Prop} {cutoverAtMs : Int}
    {usages : List UsageRecord} {retainedAtMs checkpoint later : Int}
    (accounted : Accounted exact (some cutoverAtMs) record usages retainedAtMs checkpoint)
    (after : checkpoint ≤ later) (early : later ≤ max checkpoint cutoverAtMs) :
    Carries exact usages later record.remainder := by
  rcases eq_or_lt_of_le after with rfl | moved
  · exact accounted.carries
  have upTo : later ≤ cutoverAtMs :=
    (le_max_iff.mp early).resolve_left (not_le.mpr moved)
  have nothing : usages = [] := by
    rw [eq_nil_iff_forall_not_mem]
    intro usage member
    obtain ⟨_, same, within⟩ := accounted.within usage member
    cases same
    have forward := accounted.carries.forward usage member
    have before := accounted.carries.before usage member
    have started := (le_max_right retainedAtMs cutoverAtMs).trans within
    linarith only [forward, before, started, upTo, moved]
  have carries := accounted.carries
  subst nothing
  exact carries.later moved carries.remainder_of_nil

structure Settled (exact : Prop) (cutover : Option Int) (store : BillingStore)
    (record : CloudSnapshotRecord) (nowMs : Int) (next : CloudSnapshotRecord)
    (billed : BillingStore) (added : List UsageRecord) : Prop where
  storage : billed.StorageSound
  usage : billed.usage = store.usage ++ added
  periods : billed.periods = store.periods
  owned : ∀ item ∈ added, item.resourceId = record.snapshotId
  same : next = { record with
    checkpointAtMs := next.checkpointAtMs
    remainder := next.remainder }
  accounted : IsAccounted exact cutover next (billed.storageUsages record.snapshotId)
  grows : ∀ checkpoint, record.checkpointAtMs = some checkpoint →
    ∃ later, next.checkpointAtMs = some later ∧ checkpoint ≤ later ∧
      ∀ item ∈ added, checkpoint ≤ item.startedAt
  timely : next.checkpointAtMs = record.checkpointAtMs ∨
    ∃ later, next.checkpointAtMs = some later ∧ later ≤ nowMs

variable {cutover : Option Int} {billed : BillingStore} {nowMs : Int}

theorem Settled.field {exact : Prop} {store : BillingStore} {next : CloudSnapshotRecord}
    (settled : Settled exact cutover store record nowMs next billed added) {β : Type u}
    (field : CloudSnapshotRecord → β)
    (apart : ∀ checkpointAtMs remainder,
      field { record with checkpointAtMs, remainder } = field record) :
    field next = field record := by
  rw [settled.same]
  exact apart _ _

namespace BillingStore

variable {store : BillingStore}

section

variable {exact : Prop} (sound : store.StorageSound)
  (accounted : IsAccounted exact cutover record (store.storageUsages record.snapshotId))
include sound accounted

theorem settled_refl (nowMs : Int) : Settled exact cutover store record nowMs record store [] where
  storage := sound
  usage := (append_nil _).symm
  periods := rfl
  owned := forall_mem_nil _
  same := rfl
  accounted := accounted
  grows := fun checkpoint known => ⟨checkpoint, known, le_refl _, forall_mem_nil _⟩
  timely := .inl rfl

theorem settleSnapshot_spec {next : CloudSnapshotRecord}
    (settled : store.settleSnapshot accountId cutover record nowMs = some (next, billed)) :
    ∃ added, Settled exact cutover store record nowMs next billed added := by
  unfold settleSnapshot at settled
  split at settled
  · rename_i cutoverAtMs retainedAtMs isRetained
    have whole := accounted
    rw [IsAccounted, isRetained] at accounted
    obtain ⟨checkpoint, accounted⟩ := accounted
    simp only [accounted.checkpointed, Option.getD_some] at settled
    split at settled
    · rename_i early
      cases settled
      have grown : checkpoint ≤ max checkpoint (min nowMs (record.stoppedAtMs.getD nowMs)) :=
        le_max_left _ _
      have carries := accounted.advance grown (max_le (le_max_left _ _) early)
      refine ⟨[], ⟨sound, (append_nil _).symm, rfl, forall_mem_nil _, rfl, ?_, ?_, ?_⟩⟩
      · rw [isRetained]
        refine ⟨_, rfl, accounted.after.trans grown, ?_, carries, accounted.within⟩
        intro stoppedAtMs stopped
        refine max_le (accounted.stopped stoppedAtMs stopped) ((min_le_right _ _).trans ?_)
        rw [stopped, Option.getD_some]
      · intro old known
        cases accounted.checkpointed.symm.trans known
        exact ⟨_, rfl, grown, forall_mem_nil _⟩
      · rcases le_total (min nowMs (record.stoppedAtMs.getD nowMs)) checkpoint with
          before | after
        · refine .inl ?_
          rw [accounted.checkpointed, max_eq_left before]
        · refine .inr ⟨_, rfl, ?_⟩
          rw [max_eq_right after]
          exact min_le_left _ _
    · split at settled
      · cases settled
        exact ⟨[], settled_refl sound whole nowMs⟩
      · rename_i late _
        obtain ⟨result, loop, same⟩ := Option.map_eq_some_iff.mp settled
        cases same
        have grown : checkpoint ≤ max checkpoint cutoverAtMs := le_max_left _ _
        have carries := accounted.advance grown (le_refl _)
        obtain ⟨inside, added, settles⟩ := settlePeriods_spec sound
          (fun period member => periodsOverlapping_subset member) carries
          (le_of_lt (not_le.mp late)) loop
        have items := storageUsages_append settles.usage record.snapshotId settles.owned
        refine ⟨added, settles.storage, settles.usage, settles.periods, settles.owned, rfl, ?_,
          ?_, ?_⟩
        · rw [isRetained]
          refine ⟨result.cursor, rfl, accounted.after.trans (grown.trans settles.onward), ?_,
            settles.carries, ?_⟩
          · intro stoppedAtMs stopped
            rw [stopped] at inside
            exact inside.trans (min_le_right _ _)
          · rw [items.1]
            intro usage member
            rcases mem_append.mp member with old | new
            · exact accounted.within usage old
            · refine ⟨cutoverAtMs, rfl, le_trans ?_ (settles.after usage new)⟩
              exact max_le_max accounted.after (le_refl _)
        · intro old known
          cases accounted.checkpointed.symm.trans known
          exact ⟨result.cursor, rfl, grown.trans settles.onward,
            fun item member => grown.trans (settles.after item member)⟩
        · exact .inr ⟨result.cursor, rfl, inside.trans (min_le_left _ _)⟩
  · cases settled
    exact ⟨[], settled_refl sound accounted nowMs⟩

end

end BillingStore

end Zuse.Billing
