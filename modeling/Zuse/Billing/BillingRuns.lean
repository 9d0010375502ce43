import Zuse.Billing.LedgerIdentities

namespace Zuse.Billing

open Zuse.Data List Bool

/-- Periods of any policies without entries. -/
structure OpenPeriods where
  periods : List BillingPeriod
  distinct : (periods.map (·.periodId)).Nodup

inductive BillingStep where
  | event (event : ProviderEvent)
  | ensurePeriod (input : BillingStore.PeriodInput)
  | setCap (periodId : String) (capMicros : Nat) (idempotencyKey : String)
  | record (batch : BillingStore.ExecutionBatch)

theorem UsageRecord.conflicts_comm (left right : UsageRecord) :
    left.conflicts right = right.conflicts left := by
  rw [Bool.eq_iff_iff]
  simp only [conflicts, or_eq_true, and_eq_true, decide_eq_true_eq]
  constructor <;>
  · rintro ((sameEntry | ⟨sameProvider, sameEvent⟩) |
      ⟨⟨⟨sameProvider, known⟩, sameExecution⟩, samePeriod⟩)
    · exact .inl (.inl sameEntry.symm)
    · exact .inl (.inr ⟨sameProvider.symm, sameEvent.symm⟩)
    · exact .inr ⟨⟨⟨sameProvider.symm, sameExecution ▸ known⟩, sameExecution.symm⟩, samePeriod.symm⟩

namespace BillingStore

def step (store : BillingStore) : BillingStep → Option BillingStore
  | .event event => some (store.recordProviderEvent event).2
  | .ensurePeriod input => (store.ensurePeriod input).map (·.2)
  | .setCap periodId capMicros idempotencyKey =>
    (store.setCap periodId capMicros idempotencyKey).map (·.2)
  | .record batch => (store.recordProviderExecutionBatch batch).map (·.2)

def recordBatch (store : BillingStore) (batch : ExecutionBatch) : BillingStore :=
  ((store.recordProviderExecutionBatch batch).map (·.2)).getD store

def recordBatches (store : BillingStore) (batches : List ExecutionBatch) : BillingStore :=
  batches.foldl recordBatch store

end BillingStore

def billingSystem (opened : OpenPeriods) : TransitionSystem BillingStore BillingStep where
  init := { BillingStore.empty with periods := opened.periods }
  step := BillingStore.step

namespace BillingStore

variable {store : BillingStore}

theorem init_sound (opened : OpenPeriods) : (billingSystem opened).init.Sound where
  ledgered := forall_mem_nil _
  numbered := forall_mem_nil _
  owned := forall_mem_nil _
  exported := forall_mem_nil _
  cost := fun _ => rfl
  balanced := fun _ _ => balanced_of_empty rfl (fun _ => rfl) rfl
  distinct := opened.distinct

theorem recordProviderEvent_sound (sound : store.Sound) (event : ProviderEvent) :
    (store.recordProviderEvent event).2.Sound :=
  ⟨sound.ledgered, sound.numbered, sound.owned, sound.exported, sound.cost,
    fun period member => (sound.balanced period member).frame rfl (fun _ => rfl) rfl,
    sound.distinct⟩

variable {next : BillingStore} {label : BillingStep}

theorem step_sound (sound : store.Sound) (stepped : store.step label = some next) : next.Sound := by
  cases label with
  | event event =>
    cases stepped
    exact recordProviderEvent_sound sound event
  | ensurePeriod input =>
    obtain ⟨⟨period, _⟩, ensured, rfl⟩ := Option.map_eq_some_iff.mp stepped
    exact ensurePeriod_sound sound ensured
  | setCap periodId capMicros idempotencyKey =>
    obtain ⟨⟨result, _⟩, set, rfl⟩ := Option.map_eq_some_iff.mp stepped
    exact setCap_sound sound set
  | record batch =>
    obtain ⟨⟨metered, _⟩, recorded, rfl⟩ := Option.map_eq_some_iff.mp stepped
    exact recordBatch_sound sound recorded

variable {opened : OpenPeriods}

theorem sound_of_reachable (reachable : (billingSystem opened).Reachable store) : store.Sound :=
  reachable.invariant (init_sound opened) fun _ _ _ _ sound stepped =>
    step_sound sound stepped

/-- What a later store still knows of the batches. -/
structure Keeps (store next : BillingStore) : Prop where
  events : store.events ⊆ next.events
  finalizations : store.finalizations ⊆ next.finalizations

variable {last : BillingStore}

theorem Keeps.trans {middle : BillingStore} (first : store.Keeps middle)
    (second : middle.Keeps last) : store.Keeps last :=
  ⟨List.Subset.trans first.events second.events,
    List.Subset.trans first.finalizations second.finalizations⟩

theorem keeps_of_eq (events : next.events = store.events)
    (finalizations : next.finalizations = store.finalizations) : store.Keeps next := by
  refine ⟨?_, ?_⟩
  · rw [events]
    exact List.Subset.refl _
  · rw [finalizations]
    exact List.Subset.refl _

variable {period : BillingPeriod}

theorem ensurePeriod_keeps {input : PeriodInput}
    (ensured : store.ensurePeriod input = some (period, next)) :
    store.Keeps next := by
  unfold ensurePeriod at ensured
  dsimp only at ensured
  split at ensured
  · split at ensured
    · cases ensured
      exact keeps_of_eq rfl rfl
    · cases ensured
  · split at ensured
    · cases ensured
    · cases ensured
      exact keeps_of_eq rfl rfl

theorem setCap_keeps {periodId : String} {capMicros : Nat} {idempotencyKey : String}
    {result : CapResult}
    (set : store.setCap periodId capMicros idempotencyKey = some (result, next)) :
    store.Keeps next := by
  unfold setCap at set
  dsimp only at set
  split at set
  · split at set
    · cases set
      exact keeps_of_eq rfl rfl
    · obtain ⟨period, _, same⟩ := Option.map_eq_some_iff.mp set
      cases same
      exact keeps_of_eq rfl rfl
  split at set
  · cases set
    exact keeps_of_eq rfl rfl
  · obtain ⟨_, _, same⟩ := Option.map_eq_some_iff.mp set
    cases same
    exact keeps_of_eq rfl rfl

variable {batch : ExecutionBatch} {metered : Bool}

theorem recordBatch_keeps (sound : store.Sound)
    (recorded : store.recordProviderExecutionBatch batch = some (metered, next)) :
    store.Keeps next := by
  obtain ⟨_, _, ⟨_, _, rfl⟩ | ⟨_, middle, usages, rfl⟩⟩ := recordBatch_cases recorded
  · exact keeps_of_eq rfl rfl
  · have same := (recordUsages_recorded sound usages).same
    have kept := keeps_of_eq same.events same.finalizations
    exact ⟨kept.events, List.Subset.trans kept.finalizations (subset_append_left _ _)⟩

theorem step_keeps (sound : store.Sound)
    (stepped : store.step label = some next) : store.Keeps next := by
  cases label with
  | event event =>
    cases stepped
    exact ⟨Table.insertNew_subset, List.Subset.refl _⟩
  | ensurePeriod input =>
    obtain ⟨⟨period, _⟩, ensured, rfl⟩ := Option.map_eq_some_iff.mp stepped
    exact ensurePeriod_keeps ensured
  | setCap periodId capMicros idempotencyKey =>
    obtain ⟨⟨result, _⟩, set, rfl⟩ := Option.map_eq_some_iff.mp stepped
    exact setCap_keeps set
  | record batch =>
    obtain ⟨⟨metered, _⟩, recorded, rfl⟩ := Option.map_eq_some_iff.mp stepped
    exact recordBatch_keeps sound recorded

variable {labels : List BillingStep}

theorem runFrom_keeps (sound : store.Sound)
    (ran : (billingSystem opened).runFrom store labels = some last) : store.Keeps last := by
  induction labels generalizing store with
  | nil =>
    cases ran
    exact keeps_of_eq rfl rfl
  | cons label rest ih =>
    obtain ⟨next, stepped, remaining⟩ := Option.bind_eq_some_iff.mp ran
    exact (step_keeps sound stepped).trans (ih (step_sound sound stepped) remaining)

theorem isFinalized_mono (keeps : store.Keeps next) (finalized : store.isFinalized batch = true) :
    next.isFinalized batch = true := by
  rw [isFinalized, isProviderEventFinalized, any_eq_true] at finalized ⊢
  obtain ⟨row, member, matched⟩ := finalized
  exact ⟨row, keeps.finalizations member, matched⟩

theorem hasEvent_mono (keeps : store.Keeps next) (known : store.hasEvent batch = true) :
    next.hasEvent batch = true := by
  rw [hasEvent, any_eq_true] at known ⊢
  obtain ⟨event, member, matched⟩ := known
  exact ⟨event, keeps.events member, matched⟩

theorem recordBatch_of_finalized (valid : batch.isValid = true)
    (known : store.hasEvent batch = true) (finalized : store.isFinalized batch = true) :
    store.recordProviderExecutionBatch batch = some (false, store) := by
  rw [hasEvent] at known
  rw [isFinalized] at finalized
  rw [recordProviderExecutionBatch, valid, known, finalized]
  rfl

theorem isFinalized_of_recorded
    (recorded : store.recordProviderExecutionBatch batch = some (metered, next)) :
    next.isFinalized batch = true := by
  obtain ⟨_, _, ⟨finalized, _, rfl⟩ | ⟨_, middle, _, rfl⟩⟩ := recordBatch_cases recorded
  · exact finalized
  · rw [isFinalized, isProviderEventFinalized]
    simp [ExecutionBatch.finalization]

theorem record_again (sound : store.Sound)
    (recorded : store.recordProviderExecutionBatch batch = some (metered, next))
    (ran : (billingSystem opened).runFrom next labels = some last) :
    last.recordProviderExecutionBatch batch = some (false, last) := by
  obtain ⟨valid, known, _⟩ := recordBatch_cases recorded
  have later := runFrom_keeps (recordBatch_sound sound recorded) ran
  have event := hasEvent_mono (recordBatch_keeps sound recorded) known
  exact recordBatch_of_finalized valid (hasEvent_mono later event)
    (isFinalized_mono later (isFinalized_of_recorded recorded))

/-- The entries that no recorded entry and none before them conflicts with. -/
def freshUsages (recorded : List UsageRecord) : List UsageRecord → List UsageRecord
  | [] => []
  | usage :: rest =>
    if recorded.any fun stored => stored.conflicts usage then freshUsages recorded rest
    else usage :: freshUsages (recorded ++ [usage]) rest

theorem insertUsages_eq (recorded usages : List UsageRecord) :
    insertUsages recorded usages = recorded ++ freshUsages recorded usages := by
  induction usages generalizing recorded with
  | nil => exact (append_nil recorded).symm
  | cons usage rest ih =>
    rw [insertUsages, foldl_cons, ← insertUsages, Table.insertNew, freshUsages]
    split
    · exact ih recorded
    · rw [ih, append_assoc, singleton_append]

theorem freshUsages_subset (recorded usages : List UsageRecord) :
    freshUsages recorded usages ⊆ usages := by
  induction usages generalizing recorded with
  | nil => exact List.Subset.refl _
  | cons usage rest ih =>
    rw [freshUsages]
    split
    · exact subset_cons_of_subset _ (ih recorded)
    · exact cons_subset_cons _ (ih _)

theorem freshUsages_congr {left right usages : List UsageRecord}
    (same : ∀ usage ∈ usages, (left.any fun stored => stored.conflicts usage) =
      right.any fun stored => stored.conflicts usage) :
    freshUsages left usages = freshUsages right usages := by
  induction usages generalizing left right with
  | nil => rfl
  | cons usage rest ih =>
    obtain ⟨head, tail⟩ := forall_mem_cons.mp same
    rw [freshUsages, freshUsages, head, ih tail]
    have grown : freshUsages (left ++ [usage]) rest = freshUsages (right ++ [usage]) rest := by
      refine ih fun other member => ?_
      rw [any_append, any_append, tail other member]
    rw [grown]

def accepts (store : BillingStore) (batch : ExecutionBatch) : Bool :=
  batch.isValid && store.hasEvent batch && !store.isFinalized batch &&
    batch.usage.all fun usage => (store.period? usage.periodId).isSome

def newUsages (store : BillingStore) (batch : ExecutionBatch) : List UsageRecord :=
  if store.accepts batch then freshUsages store.usage batch.usage else []

theorem recordUsages_isSome (sound : store.Sound) (metered : Bool)
    (usages : List UsageRecord) : (store.recordUsages metered usages).isSome =
      usages.all fun usage => (store.period? usage.periodId).isSome := by
  induction usages generalizing store metered with
  | nil => rfl
  | cons usage rest ih =>
    rw [recordUsages, all_cons]
    cases recorded : store.recordUsage usage with
    | none =>
      have unknown : store.period? usage.periodId = none := by
        rw [recordUsage, Option.map_eq_none_iff] at recorded
        exact recorded
      rw [unknown]
      rfl
    | some result =>
      have head := recordUsage_recorded sound recorded
      have known : (store.period? usage.periodId).isSome = true := by
        obtain ⟨period, found, _⟩ := Option.map_eq_some_iff.mp recorded
        rw [found]
        rfl
      rw [Option.bind_some, ih head.sound, known, Bool.true_and]
      simp only [head.same.period?]

theorem Accumulates.finalize (accumulates : store.Accumulates next)
    (finalizations : List Finalization) :
    store.Accumulates { next with finalizations } :=
  ⟨accumulates.sound.finalize finalizations, accumulates.periods, accumulates.grows,
    accumulates.charged, accumulates.untouched⟩

theorem recordBatch_of_accepts (sound : store.Sound) (accepted : store.accepts batch = true) :
    ∃ middle, store.Recorded batch.usage middle ∧
      store.recordBatch batch = { middle with
        finalizations := middle.finalizations ++ [batch.finalization] } := by
  simp only [accepts, and_eq_true, not_eq_true'] at accepted
  obtain ⟨⟨⟨valid, known⟩, unfinalized⟩, periods⟩ := accepted
  have recorded := recordUsages_isSome sound false batch.usage
  rw [periods] at recorded
  obtain ⟨⟨metered, middle⟩, usages⟩ := Option.isSome_iff_exists.mp recorded
  refine ⟨middle, recordUsages_recorded sound usages, ?_⟩
  rw [hasEvent] at known
  rw [isFinalized] at unfinalized
  rw [recordBatch, recordProviderExecutionBatch, valid, known, unfinalized, usages]
  rfl

theorem recordBatch_of_rejects (sound : store.Sound)
    (rejected : store.accepts batch = false) : store.recordBatch batch = store := by
  rw [recordBatch]
  cases recorded : store.recordProviderExecutionBatch batch with
  | none => rfl
  | some result =>
    obtain ⟨valid, known, ⟨_, _, rfl⟩ | ⟨unfinalized, middle, usages, _⟩⟩ :=
      recordBatch_cases recorded
    · rfl
    · have periods := recordUsages_isSome sound false batch.usage
      rw [usages] at periods
      rw [accepts, valid, known, unfinalized, ← periods] at rejected
      cases rejected

theorem recordBatch_spec (sound : store.Sound) (batch : ExecutionBatch) :
    store.Accumulates (store.recordBatch batch) ∧ (store.recordBatch batch).events = store.events ∧
      (store.recordBatch batch).finalizations =
        store.finalizations ++ (if store.accepts batch then [batch.finalization] else []) ∧
      (store.recordBatch batch).usage = store.usage ++ store.newUsages batch := by
  rw [newUsages]
  cases accepted : store.accepts batch with
  | true =>
    obtain ⟨middle, recorded, result⟩ := recordBatch_of_accepts sound accepted
    rw [result]
    refine ⟨recorded.toAccumulates.finalize _, recorded.same.events, ?_, ?_⟩
    · rw [if_pos rfl, recorded.same.finalizations]
    · rw [if_pos rfl, ← insertUsages_eq]
      exact recorded.usage
  | false =>
    rw [recordBatch_of_rejects sound accepted]
    refine ⟨Accumulates.refl sound, rfl, ?_, ?_⟩
    · exact (append_nil _).symm
    · exact (append_nil _).symm

structure ExecutionBatch.Independent (first second : ExecutionBatch) : Prop where
  event : first.provider = second.provider → first.eventId ≠ second.eventId
  execution : first.provider = second.provider → first.providerExecutionId.isSome →
    first.providerExecutionId ≠ second.providerExecutionId
  usage : ∀ left ∈ first.usage, ∀ right ∈ second.usage, left.conflicts right = false

theorem ExecutionBatch.Independent.symm {first second : ExecutionBatch}
    (independent : first.Independent second) : second.Independent first where
  event := fun same => (independent.event same.symm).symm
  execution := by
    intro same known shared
    exact independent.execution same.symm (shared ▸ known) shared.symm
  usage := by
    intro left isLeft right isRight
    rw [UsageRecord.conflicts_comm]
    exact independent.usage right isRight left isLeft

theorem newUsages_recordBatch (sound : store.Sound) {other : ExecutionBatch}
    (independent : batch.Independent other) :
    (store.recordBatch batch).newUsages other = store.newUsages other := by
  obtain ⟨accumulates, events, finalizations, usage⟩ := recordBatch_spec sound batch
  have unmatched : (if store.accepts batch then [batch.finalization] else []).any
      (fun row => row.provider = other.provider &&
        (row.eventId = other.eventId || other.providerExecutionId.isSome &&
          row.providerExecutionId = other.providerExecutionId)) = false := by
    rw [any_eq_false]
    intro row member matched
    split at member
    · rw [mem_singleton.mp member, and_eq_true, or_eq_true, and_eq_true] at matched
      obtain ⟨provider, event | ⟨known, execution⟩⟩ := matched
      · exact independent.event (of_decide_eq_true provider) (of_decide_eq_true event)
      · have same : batch.providerExecutionId = other.providerExecutionId :=
          of_decide_eq_true execution
        exact independent.execution (of_decide_eq_true provider) (same ▸ known) same
    · cases member
  have finalized : (store.recordBatch batch).isFinalized other = store.isFinalized other := by
    rw [isFinalized, isProviderEventFinalized, finalizations, any_append, unmatched, Bool.or_false]
    rfl
  have accepted : (store.recordBatch batch).accepts other = store.accepts other := by
    rw [accepts, accepts, finalized, hasEvent, events, hasEvent]
    simp only [period?, accumulates.periods]
  have fresh : freshUsages (store.recordBatch batch).usage other.usage =
      freshUsages store.usage other.usage := by
    refine freshUsages_congr fun right isRight => ?_
    have free : (store.newUsages batch).any (fun stored => stored.conflicts right) =
        false := by
      rw [any_eq_false]
      intro left isLeft
      rw [newUsages] at isLeft
      split at isLeft
      · rw [independent.usage left (freshUsages_subset _ _ isLeft) right isRight]
        exact false_ne_true
      · cases isLeft
    rw [usage, any_append, free, Bool.or_false]
  rw [newUsages, newUsages, accepted, fresh]

variable {batches : List ExecutionBatch}

theorem usage_recordBatches (sound : store.Sound)
    (independent : batches.Pairwise ExecutionBatch.Independent) :
    store.Accumulates (store.recordBatches batches) ∧
      (store.recordBatches batches).usage = store.usage ++ batches.flatMap store.newUsages := by
  induction batches generalizing store with
  | nil => exact ⟨Accumulates.refl sound, (append_nil _).symm⟩
  | cons batch rest ih =>
    obtain ⟨apart, independent⟩ := pairwise_cons.mp independent
    obtain ⟨accumulates, _, _, usage⟩ := recordBatch_spec sound batch
    obtain ⟨last, total⟩ := ih accumulates.sound independent
    refine ⟨accumulates.trans last, ?_⟩
    have same : rest.flatMap (store.recordBatch batch).newUsages = rest.flatMap store.newUsages :=
      flatMap_congr fun other member => newUsages_recordBatch sound (apart other member)
    rw [recordBatches, foldl_cons, ← recordBatches, total, usage, same, append_assoc, flatMap_cons]

structure PeriodTotals where
  providerCost : Micros
  includedAllowance : Micros
  overageProviderCost : Micros
  overageCharge : Micros
  absorbed : Micros
  markup : Micros
  outboxCents : Int
  deriving DecidableEq

def totals (store : BillingStore) (periodId : String) : PeriodTotals where
  providerCost := store.providerCost periodId
  includedAllowance := store.ledgerTotal periodId .includedAllowance
  overageProviderCost := store.ledgerTotal periodId .overageProviderCost
  overageCharge := store.ledgerTotal periodId .overageCharge
  absorbed := store.ledgerTotal periodId .manualEntitlementCredit +
    store.ledgerTotal periodId .overshootAbsorbed
  markup := store.ledgerTotal periodId .markup
  outboxCents := store.outboxTotal periodId

theorem totals_of_charge {left right : BillingStore} (leftBalanced : left.Balanced period)
    (rightBalanced : right.Balanced period)
    (cost : left.providerCost period.periodId = right.providerCost period.periodId)
    (charge : left.ledgerTotal period.periodId .overageCharge =
      right.ledgerTotal period.periodId .overageCharge) :
    left.totals period.periodId = right.totals period.periodId := by
  have overage := leftBalanced.overage.trans
    ((congrArg _ (congrArg (· - _) cost)).trans rightBalanced.overage.symm)
  have included := leftBalanced.included.trans
    ((congrArg (min · _) cost).trans rightBalanced.included.symm)
  have absorbed := leftBalanced.absorbed
  rw [cost, ← rightBalanced.absorbed, charge] at absorbed
  rw [totals, totals, cost, included, add_left_cancel absorbed,
    leftBalanced.markup, rightBalanced.markup, overage, leftBalanced.cents,
    rightBalanced.cents, charge]

theorem totals_perm (sound : store.Sound) {permuted : List ExecutionBatch}
    (independent : batches.Pairwise ExecutionBatch.Independent)
    (same : batches.Perm permuted) (member : period ∈ store.periods) :
    (store.recordBatches batches).totals period.periodId =
      (store.recordBatches permuted).totals period.periodId := by
  obtain ⟨left, leftUsage⟩ := usage_recordBatches sound independent
  obtain ⟨right, rightUsage⟩ := usage_recordBatches sound
    (same.pairwise independent fun apart => apart.symm)
  have usages : (store.recordBatches batches).usage.Perm (store.recordBatches permuted).usage := by
    rw [leftUsage, rightUsage]
    exact (same.flatMap_right _).append_left _
  have cost : (store.recordBatches batches).providerCost period.periodId =
      (store.recordBatches permuted).providerCost period.periodId := Table.total_perm usages
  refine totals_of_charge (left.sound.balanced period (left.periods ▸ member))
    (right.sound.balanced period (right.periods ▸ member)) cost ?_
  by_cases touched : ∃ usage ∈ (store.recordBatches batches).usage,
      usage ∉ store.usage ∧ usage.periodId = period.periodId
  · have leftCharged := left.charged period member (.inr touched)
    obtain ⟨usage, isUsage, isNew⟩ := touched
    have rightCharged := right.charged period member
      (.inr ⟨usage, usages.mem_iff.mp isUsage, isNew⟩)
    rw [leftCharged, rightCharged, charge, charge, cost]
  have untouched : ∀ usage ∈ (store.recordBatches batches).usage, usage ∉ store.usage →
      usage.periodId ≠ period.periodId := fun usage isUsage isNew inPeriod =>
    touched ⟨usage, isUsage, isNew, inPeriod⟩
  obtain ⟨leftLedger, _⟩ := left.untouched period.periodId untouched
  obtain ⟨rightLedger, _⟩ := right.untouched period.periodId fun usage isUsage =>
    untouched usage (usages.mem_iff.mpr isUsage)
  rw [leftLedger, rightLedger]

structure LedgerLaws (opened : OpenPeriods) (store : BillingStore) : Prop where
  bounded : ∀ period ∈ store.periods,
    0 ≤ store.ledgerTotal period.periodId .overageCharge ∧
      store.ledgerTotal period.periodId .overageCharge ≤ period.overageCapMicros
  identities : ∀ batch metered next,
    store.recordProviderExecutionBatch batch = some (metered, next) →
      ∀ period ∈ next.periods, (∃ usage ∈ next.usage,
          usage ∉ store.usage ∧ usage.periodId = period.periodId) →
        next.Balanced period ∧ next.IsCharged period
  repeated : ∀ batch metered next labels last,
    store.recordProviderExecutionBatch batch = some (metered, next) →
      (billingSystem opened).runFrom next labels = some last →
        last.recordProviderExecutionBatch batch = some (false, last)
  reordered : ∀ batches permuted : List ExecutionBatch, batches.Perm permuted →
    batches.Pairwise ExecutionBatch.Independent → ∀ period ∈ store.periods,
      (store.recordBatches batches).totals period.periodId =
        (store.recordBatches permuted).totals period.periodId

theorem ledgerLaws_of_reachable {opened : OpenPeriods}
    (reachable : (billingSystem opened).Reachable store) : store.LedgerLaws opened := by
  have sound := sound_of_reachable reachable
  refine ⟨?_, ?_, ?_, ?_⟩
  · intro period member
    exact ⟨(sound.balanced period member).nonneg, (sound.balanced period member).capped⟩
  · intro batch metered next recorded period member touched
    refine ⟨(recordBatch_sound sound recorded).balanced period member, ?_⟩
    obtain ⟨_, _, ⟨_, _, rfl⟩ | ⟨_, middle, usages, rfl⟩⟩ := recordBatch_cases recorded
    · obtain ⟨usage, isUsage, isNew, _⟩ := touched
      exact absurd isUsage isNew
    · have accumulates := (recordUsages_recorded sound usages).toAccumulates
      exact accumulates.charged period (accumulates.periods ▸ member) (.inr touched)
  · intro batch metered next labels last recorded ran
    exact record_again sound recorded ran
  · intro batches permuted same independent period member
    exact totals_perm sound independent same member

def closedPeriod : BillingPeriod where
  periodId := "cloud:account:0"
  accountId := "account"
  providerSubscriptionId := none
  billingProvider := "polar"
  status := .active
  periodStartMs := 0
  periodEndMs := 1000
  policy := defaultCloudBillingPolicy
  overageCapMicros := defaultOverageCapMicros

def closedPeriods : OpenPeriods where
  periods := [closedPeriod]
  distinct := nodup_singleton _

def closingEvent (eventId type : String) (occurredAtMs : Int) : ProviderEvent where
  provider := .box
  eventId
  type
  providerResourceId := some "box"
  occurredAtMs := some occurredAtMs

def closingBatch (eventId : String) (endedAt : Int) (cost : Nat) : ExecutionBatch where
  provider := .box
  eventId
  providerExecutionId := some "box:ready"
  usage :=
    [{ provider := .box
       providerEventId := eventId ++ ":cloud:account:0"
       providerExecutionId := some "box:ready"
       periodId := "cloud:account:0"
       accountId := "account"
       resourceKind := .workspace
       resourceId := "workspace"
       startedAt := 0
       endedAt
       vcpuCount := 2
       memoryMib := 2048
       providerCostMicros := cost }]

def closedTwice : List BillingStep :=
  [.event (closingEvent "archived" "box.archived" 100),
    .event (closingEvent "error" "box.error" 200)]

/-- The execution costs more than what is included; then the cap is changed, and the period
is billed by hand. -/
def billedByHand : List BillingStep :=
  closedTwice ++ [.record (closingBatch "archived" 100 40000000),
    .setCap "cloud:account:0" 6000000 "lower",
    .ensurePeriod ⟨"cloud:account:0", "account", none, "polar", .manual, 0, 1000, none⟩,
    .record (closingBatch "error" 200 7)]

theorem ledgerLaws_of_billedByHand :
    ∃ store, (billingSystem closedPeriods).run billedByHand = some store ∧
      store.ledgerTotal "cloud:account:0" .overageCharge = 5250000 ∧
        store.LedgerLaws closedPeriods := by
  have ran : ((billingSystem closedPeriods).run billedByHand).any (fun store =>
      store.ledgerTotal "cloud:account:0" .overageCharge = 5250000) = true := by decide +kernel
  obtain ⟨store, ran, charged⟩ := (Option.any_eq_true _ _).mp ran
  exact ⟨store, ran, of_decide_eq_true charged,
    ledgerLaws_of_reachable (TransitionSystem.run_reachable ran)⟩

theorem not_orderIndependent :
    ¬∀ (store : BillingStore) (batches permuted : List ExecutionBatch),
      (billingSystem closedPeriods).Reachable store → batches.Perm permuted →
        ∀ period ∈ store.periods, (store.recordBatches batches).totals period.periodId =
          (store.recordBatches permuted).totals period.periodId := by
  intro independent
  have differ : ((billingSystem closedPeriods).run closedTwice).any (fun store =>
      Decidable.decide (closedPeriod ∈ store.periods) &&
        Decidable.decide ((store.recordBatches
          [closingBatch "archived" 100 5, closingBatch "error" 200 7]).totals
            closedPeriod.periodId ≠
          (store.recordBatches
            [closingBatch "error" 200 7, closingBatch "archived" 100 5]).totals
              closedPeriod.periodId)) = true := by decide +kernel
  obtain ⟨store, ran, differ⟩ := (Option.any_eq_true _ _).mp differ
  obtain ⟨member, differ⟩ := and_eq_true_iff.mp differ
  exact of_decide_eq_true differ (independent store _ _ (TransitionSystem.run_reachable ran)
    (List.Perm.swap _ _ _) closedPeriod (of_decide_eq_true member))

end BillingStore

end Zuse.Billing
