import Zuse.Billing.MeteredIntervals

namespace Zuse.Billing

open Zuse.Data List Bool ProviderExecutionEvidence

theorem UsageProvider.text_injective {left right : UsageProvider}
    (same : left.text = right.text) : left = right := by
  cases left <;> cases right <;> first | rfl | exact absurd same (by decide)

theorem UsageRecord.conflicts_eq_false {stored row : UsageRecord}
    (event : stored.provider = row.provider → stored.providerEventId ≠ row.providerEventId)
    (execution : stored.provider = row.provider → row.providerExecutionId.isSome →
      stored.providerExecutionId = row.providerExecutionId → stored.periodId ≠ row.periodId) :
    stored.conflicts row = false := by
  rw [conflicts, eq_false_iff]
  simp only [ne_eq, or_eq_true, and_eq_true, decide_eq_true_eq]
  rintro ((sameEntry | ⟨sameProvider, sameEvent⟩) |
    ⟨⟨⟨sameProvider, known⟩, sameExecution⟩, samePeriod⟩)
  · obtain ⟨provider, events⟩ := colon_left_injective
      stored.provider.text_colonFree row.provider.text_colonFree sameEntry
    exact event (UsageProvider.text_injective provider) events
  · exact event sameProvider sameEvent
  · exact execution sameProvider known sameExecution samePeriod

variable {usages : List UsageRecord}

theorem freshUsages_of_free {recorded : List UsageRecord}
    (free : ∀ stored ∈ recorded, ∀ usage ∈ usages, stored.conflicts usage = false)
    (apart : usages.Pairwise fun left right => left.conflicts right = false) :
    BillingStore.freshUsages recorded usages = usages := by
  induction usages generalizing recorded with
  | nil => rfl
  | cons usage rest ih =>
    obtain ⟨head, tail⟩ := pairwise_cons.mp apart
    have unrecorded : ¬(recorded.any fun stored => stored.conflicts usage) = true := by
      rw [any_eq_true]
      rintro ⟨stored, member, conflict⟩
      rw [free stored member usage mem_cons_self] at conflict
      cases conflict
    rw [BillingStore.freshUsages, if_neg unrecorded, ih ?_ tail]
    intro stored member other isOther
    rcases mem_concat.mp member with old | rfl
    · exact free stored old other (mem_cons_of_mem _ isOther)
    · exact head other isOther

variable {nowMs : Int}

namespace BillingStore

variable {store next : BillingStore} {context : MeteringContext}
  {evidence : ProviderExecutionEvidence} {accountId : String}

def meteredBatch (evidence : ProviderExecutionEvidence) (usage : List UsageRecord) :
    ExecutionBatch where
  provider := evidence.provider
  eventId := evidence.eventId
  providerExecutionId := evidence.providerExecutionId
  usage

structure MeteredBy (store : BillingStore) (context : MeteringContext)
    (evidence : ProviderExecutionEvidence) (accountId : String) (cutoverAt : Int)
    (usage : List UsageRecord) (recorded : Bool) (next : BillingStore) : Prop where
  cutover : context.cutoverAt evidence.provider = some cutoverAt
  after : cutoverAt < evidence.endedAtMs
  covers : billingPeriodsCoverInterval
    (store.periodsOverlapping accountId (max evidence.startedAtMs cutoverAt) evidence.endedAtMs)
    (max evidence.startedAtMs cutoverAt) evidence.endedAtMs = true
  segmented : evidence.segments context accountId (max evidence.startedAtMs cutoverAt)
    (store.periodsOverlapping accountId (max evidence.startedAtMs cutoverAt)
      evidence.endedAtMs) = .ok usage
  batch : store.recordProviderExecutionBatch (meteredBatch evidence usage) = some (recorded, next)

variable {result : MeterResult}

theorem meterPeriods_cases
    (metered : store.meterPeriods context evidence accountId = (result, next)) :
    (next = store ∧ ∀ recorded, result ≠ .metered recorded) ∨
      ∃ cutoverAt usage recorded, result = .metered recorded ∧
        store.MeteredBy context evidence accountId cutoverAt usage recorded next := by
  unfold meterPeriods at metered
  dsimp only at metered
  split at metered
  · cases metered
    exact .inl ⟨rfl, by rintro _ ⟨⟩⟩
  rename_i cutoverAt cutover
  split at metered
  · cases metered
    exact .inl ⟨rfl, by rintro _ ⟨⟩⟩
  rename_i after
  split at metered
  · cases metered
    exact .inl ⟨rfl, by rintro _ ⟨⟩⟩
  rename_i covers
  split at metered
  · cases metered
    exact .inl ⟨rfl, by rintro _ ⟨⟩⟩
  rename_i usage segmented
  split at metered
  · cases metered
    exact .inl ⟨rfl, by rintro _ ⟨⟩⟩
  · rename_i recorded last batch
    cases metered
    exact .inr ⟨cutoverAt, usage, recorded, rfl, cutover, not_le.mp after,
      by simpa using covers, segmented, batch⟩

theorem meterProviderExecution_cases
    (metered : store.meterProviderExecution context evidence nowMs = (result, next)) :
    (next = store ∧ ∀ recorded, result ≠ .metered recorded) ∨
      ∃ resource entitlement period ensured,
        store.isProviderEventFinalized evidence.provider evidence.eventId
          evidence.providerExecutionId = false ∧
        context.workspace.or context.build = some resource ∧
        billedEntitlement context.entitlements nowMs = some entitlement ∧
        store.ensureCloudBillingPeriod resource.accountId entitlement
          (entitlement.billedFrom nowMs) (entitlement.billedUntil nowMs) nowMs =
            some (period, ensured) ∧
        ((next = ensured ∧ ∀ recorded, result ≠ .metered recorded) ∨
          ∃ cutoverAt usage recorded, result = .metered recorded ∧
            ensured.MeteredBy context evidence resource.accountId cutoverAt usage recorded
              next) := by
  unfold meterProviderExecution at metered
  split at metered
  · cases metered
    exact .inl ⟨rfl, by rintro _ ⟨⟩⟩
  rename_i unfinalized
  split at metered
  · cases metered
    exact .inl ⟨rfl, by rintro _ ⟨⟩⟩
  split at metered
  · cases metered
    exact .inl ⟨rfl, by rintro _ ⟨⟩⟩
  rename_i resource known
  split at metered
  · cases metered
    exact .inl ⟨rfl, by rintro _ ⟨⟩⟩
  unfold ensureAccountCloudBillingPeriod at metered
  cases entitled : billedEntitlement context.entitlements nowMs with
  | none =>
    rw [entitled] at metered
    cases metered
    exact .inl ⟨rfl, by rintro _ ⟨⟩⟩
  | some entitlement =>
    rw [entitled] at metered
    cases opened : store.ensureCloudBillingPeriod resource.accountId entitlement
        (entitlement.billedFrom nowMs) (entitlement.billedUntil nowMs) nowMs with
    | none =>
      simp only [opened, Option.map_none] at metered
      cases metered
      exact .inl ⟨rfl, by rintro _ ⟨⟩⟩
    | some result =>
      obtain ⟨period, ensured⟩ := result
      simp only [opened, Option.map_some] at metered
      exact .inr ⟨resource, entitlement, period, ensured,
        eq_false_iff.mpr unfinalized, known, rfl, opened,
        meterPeriods_cases metered⟩

end BillingStore

/-- An entry of an execution of the account that was finalized as this one. -/
structure TracedTo (accountId : String) (row : Finalization) (usage : UsageRecord) :
    Prop where
  provider : usage.provider = row.provider
  execution : usage.providerExecutionId = row.providerExecutionId
  event : usage.providerEventId = row.eventId ++ ":" ++ usage.periodId
  period : ∃ startMs, usage.periodId = accountPeriodId accountId startMs

theorem TracedTo.free {accountId : String} {left right : Finalization}
    {stored usage : UsageRecord} (isStored : TracedTo accountId left stored)
    (isUsage : TracedTo accountId right usage)
    (event : left.provider = right.provider → left.eventId ≠ right.eventId)
    (execution : left.provider = right.provider → right.providerExecutionId.isSome →
      left.providerExecutionId ≠ right.providerExecutionId) :
    stored.conflicts usage = false := by
  refine UsageRecord.conflicts_eq_false ?_ ?_
  · intro sameProvider sameEvent
    rw [isStored.provider, isUsage.provider] at sameProvider
    obtain ⟨leftStart, isLeft⟩ := isStored.period
    obtain ⟨rightStart, isRight⟩ := isUsage.period
    rw [isStored.event, isUsage.event, isLeft, isRight] at sameEvent
    -- the last part of both names is a start, so the starts are one
    have joined : left.eventId ++ ":" ++ ("cloud:" ++ accountId) ++ ":" ++
        toString leftStart = right.eventId ++ ":" ++ ("cloud:" ++ accountId) ++ ":" ++
          toString rightStart := by
      simpa only [accountPeriodId, String.append_assoc] using sameEvent
    obtain ⟨events, _⟩ := colon_right_injective (colon_not_mem_toString_int leftStart)
      (colon_not_mem_toString_int rightStart) joined
    exact event sameProvider (append_right_injective (append_right_injective events))
  · intro sameProvider known sameExecution _
    rw [isStored.provider, isUsage.provider] at sameProvider
    rw [isUsage.execution] at known
    rw [isStored.execution, isUsage.execution] at sameExecution
    exact execution sameProvider known sameExecution

namespace ProviderExecutionEvidence

variable {evidence : ProviderExecutionEvidence} {context : MeteringContext}
  {accountId : String} {startedAt : Int}

def finalization (evidence : ProviderExecutionEvidence) : Finalization where
  provider := evidence.provider
  eventId := evidence.eventId
  providerExecutionId := evidence.providerExecutionId

variable {periods : List BillingPeriod}

theorem segments_traced (ofAccount : OfAccount accountId periods)
    (segmented : evidence.segments context accountId startedAt periods = .ok usages) :
    ∀ usage ∈ usages, TracedTo accountId evidence.finalization usage := by
  intro usage member
  obtain ⟨period, isPeriod, cost, rfl⟩ := mem_of_segment (segments_forall segmented) member
  exact ⟨rfl, rfl, rfl, period.periodStartMs, (ofAccount period (mem_of_mem_filter isPeriod)).2⟩

theorem segments_free (distinct : (periods.map (·.periodId)).Nodup)
    (segmented : evidence.segments context accountId startedAt periods = .ok usages) :
    usages.Pairwise fun left right => left.conflicts right = false := by
  have segments := segments_forall segmented
  have ids : usages.map (·.periodId) =
      (periods.filter (evidence.hasSegment startedAt)).map (·.periodId) := by
    rw [← forall₂_eq_eq_eq, forall₂_map_left_iff, forall₂_map_right_iff]
    refine segments.imp ?_
    rintro _ period ⟨cost, rfl⟩
    rfl
  have apart : (usages.map (·.periodId)).Nodup := by
    rw [ids]
    exact distinct.sublist (filter_sublist.map _)
  rw [List.Nodup, pairwise_map] at apart
  refine apart.imp_of_mem fun {left right} isLeft isRight different => ?_
  obtain ⟨leftPeriod, _, _, rfl⟩ := mem_of_segment segments isLeft
  obtain ⟨rightPeriod, _, _, rfl⟩ := mem_of_segment segments isRight
  refine UsageRecord.conflicts_eq_false (fun _ same => ?_) fun _ _ _ => different
  exact different (append_left_injective same)

theorem segments_isOk {context : MeteringContext} (accountId : String) (startedAt : Int)
    (costs : ∀ segmentStart segmentEnd, ∃ cost,
      evidence.segmentCost context segmentStart segmentEnd = .ok cost)
    (periods : List BillingPeriod) :
    ∃ usages, evidence.segments context accountId startedAt periods = .ok usages := by
  induction periods with
  | nil => exact ⟨[], rfl⟩
  | cons period rest ih =>
    obtain ⟨usages, segmented⟩ := ih
    obtain ⟨cost, isCost⟩ := costs (max startedAt period.periodStartMs)
      (min evidence.endedAtMs period.periodEndMs)
    rw [segments]
    split
    · exact ⟨usages, segmented⟩
    · rw [isCost, segmented]
      exact ⟨_, rfl⟩

end ProviderExecutionEvidence

inductive AccountStep where
  | event (event : ProviderEvent)
  | ensure (entitlements : List Entitlement) (nowMs : Int)
  | meter (context : MeteringContext) (evidence : ProviderExecutionEvidence) (nowMs : Int)

def BillingStore.accountStep (accountId : String) (store : BillingStore) :
    AccountStep → Option BillingStore
  | .event event => some (store.recordProviderEvent event).2
  | .ensure entitlements nowMs =>
    (store.ensureAccountCloudBillingPeriod accountId entitlements nowMs).map (·.2)
  | .meter context evidence nowMs =>
    if (context.workspace.or context.build).all fun resource =>
        resource.accountId = accountId then
      some (store.meterProviderExecution context evidence nowMs).2
    else none

def accountSystem (accountId : String) : TransitionSystem BillingStore AccountStep where
  init := .empty
  step := BillingStore.accountStep accountId

structure AccountSound (accountId : String) (store : BillingStore) : Prop where
  sound : store.Sound
  ofAccount : OfAccount accountId store.periods
  traced : ∀ usage ∈ store.usage, ∃ row ∈ store.finalizations, TracedTo accountId row usage

namespace BillingStore

variable {store next : BillingStore} {accountId : String}

variable {period : BillingPeriod} {entitlement : Entitlement} {periodStartMs periodEndMs : Int}

theorem ensureCloudBillingPeriod_accountSound (sound : AccountSound accountId store)
    (ensured : store.ensureCloudBillingPeriod accountId entitlement periodStartMs
      periodEndMs nowMs = some (period, next)) : AccountSound accountId next := by
  obtain ⟨usage, finalizations⟩ := ensurePeriod_kept ensured
  refine ⟨ensurePeriod_sound sound.sound ensured,
    ensurePeriod_ofAccount sound.ofAccount rfl rfl ensured, ?_⟩
  rw [usage, finalizations]
  exact sound.traced

theorem periodsOverlapping_subset {startedAtMs endedAtMs : Int} :
    store.periodsOverlapping accountId startedAtMs endedAtMs ⊆ store.periods := by
  intro period member
  exact mem_of_mem_filter ((mem_insertionSort _).mp member)

theorem periodsOverlapping_nodup {column : BillingPeriod → α}
    (distinct : (store.periods.map column).Nodup) (accountId : String)
    (startedAtMs endedAtMs : Int) :
    ((store.periodsOverlapping accountId startedAtMs endedAtMs).map column).Nodup := by
  refine ((perm_insertionSort _ _).map column).nodup_iff.mpr ?_
  exact distinct.sublist (filter_sublist.map _)

variable {context : MeteringContext} {evidence : ProviderExecutionEvidence}

variable {usage : List UsageRecord} {recorded : Bool} {cutoverAt : Int}

section

variable (sound : AccountSound accountId store)
  (unfinalized : store.isProviderEventFinalized evidence.provider evidence.eventId
    evidence.providerExecutionId = false)
  (metered : store.MeteredBy context evidence accountId cutoverAt usage recorded next)
include sound unfinalized metered

theorem MeteredBy.entries :
    next.usage = store.usage ++ usage ∧ next.periods = store.periods ∧
      next.finalizations = store.finalizations ++ [evidence.finalization] := by
  have ofAccount : OfAccount accountId (store.periodsOverlapping accountId
      (max evidence.startedAtMs cutoverAt) evidence.endedAtMs) :=
    fun period member => sound.ofAccount period (periodsOverlapping_subset member)
  have traced := segments_traced ofAccount metered.segmented
  obtain ⟨_, _, ⟨finalized, _, _⟩ | ⟨_, middle, usages, rfl⟩⟩ := recordBatch_cases metered.batch
  · rw [isFinalized, meteredBatch, unfinalized] at finalized
    cases finalized
  have result := recordUsages_recorded sound.sound usages
  refine ⟨?_, result.same.periods, ?_⟩
  · refine result.usage.trans ?_
    rw [insertUsages_eq, meteredBatch, freshUsages_of_free]
    · intro stored isStored added isAdded
      obtain ⟨row, isRow, isTraced⟩ := sound.traced stored isStored
      have unmatched := any_eq_false.mp unfinalized row isRow
      simp only [and_eq_true, or_eq_true, decide_eq_true_eq] at unmatched
      refine isTraced.free (traced added isAdded) ?_ ?_
      · exact fun provider event => unmatched ⟨provider, .inl event⟩
      · exact fun provider known execution =>
          unmatched ⟨provider, .inr ⟨known, execution⟩⟩
    · exact segments_free (periodsOverlapping_nodup sound.sound.distinct _ _ _) metered.segmented
  · rw [result.same.finalizations]
    rfl

theorem MeteredBy.accountSound : AccountSound accountId next := by
  obtain ⟨entries, periods, finalizations⟩ := metered.entries sound unfinalized
  refine ⟨recordBatch_sound sound.sound metered.batch, ?_, ?_⟩
  · rw [periods]
    exact sound.ofAccount
  rw [entries, finalizations]
  intro added member
  rcases mem_append.mp member with old | new
  · obtain ⟨row, isRow, isTraced⟩ := sound.traced added old
    exact ⟨row, mem_append_left _ isRow, isTraced⟩
  have ofAccount : OfAccount accountId (store.periodsOverlapping accountId
      (max evidence.startedAtMs cutoverAt) evidence.endedAtMs) :=
    fun period isPeriod => sound.ofAccount period (periodsOverlapping_subset isPeriod)
  exact ⟨evidence.finalization, mem_append_right _ mem_cons_self,
    segments_traced ofAccount metered.segmented added new⟩

end

theorem recordBatch_isSome (sound : store.Sound) {batch : ExecutionBatch}
    (accepted : store.accepts batch = true) :
    (store.recordProviderExecutionBatch batch).isSome = true := by
  simp only [accepts, and_eq_true, not_eq_true'] at accepted
  obtain ⟨⟨⟨valid, known⟩, unfinalized⟩, periods⟩ := accepted
  have recorded := recordUsages_isSome sound false batch.usage
  rw [periods] at recorded
  obtain ⟨result, usages⟩ := Option.isSome_iff_exists.mp recorded
  rw [hasEvent] at known
  rw [isFinalized] at unfinalized
  rw [recordProviderExecutionBatch, valid, known, unfinalized, usages]
  rfl

theorem accepts_meteredBatch {startedAt : Int} (interval : startedAt < evidence.endedAtMs)
    (recorded : ∃ event ∈ store.events, event.provider = evidence.provider ∧
      event.eventId = evidence.eventId)
    (unfinalized : store.isProviderEventFinalized evidence.provider evidence.eventId
      evidence.providerExecutionId = false) (covers : billingPeriodsCoverInterval
      (store.periodsOverlapping accountId startedAt evidence.endedAtMs) startedAt
        evidence.endedAtMs = true)
    (segmented : evidence.segments context accountId startedAt
      (store.periodsOverlapping accountId startedAt evidence.endedAtMs) = .ok usage) :
    store.accepts (meteredBatch evidence usage) = true := by
  have segments := segments_forall segmented
  have billed : usage ≠ [] := by
    rintro rfl
    have exact_ := segments_exact segmented covers
    have inside : startedAt ∈ Set.Ico startedAt evidence.endedAtMs :=
      Set.left_mem_Ico.mpr interval
    rw [← exact_] at inside
    simp at inside
  have same {item : UsageRecord} (member : item ∈ usage) :
      item.provider = evidence.provider ∧
        item.providerExecutionId = evidence.providerExecutionId ∧
          ∃ period ∈ store.periods, item.periodId = period.periodId := by
    obtain ⟨period, isPeriod, cost, rfl⟩ :=
      mem_of_segment segments member
    exact ⟨rfl, rfl, period, periodsOverlapping_subset (mem_of_mem_filter isPeriod), rfl⟩
  simp only [accepts, and_eq_true, not_eq_true']
  refine ⟨⟨⟨?_, ?_⟩, unfinalized⟩, ?_⟩
  · rw [ExecutionBatch.isValid, and_eq_true, not_eq_true', all_eq_true]
    refine ⟨isEmpty_eq_false_iff.mpr billed, fun item member => ?_⟩
    obtain ⟨provider, execution, _⟩ := same member
    rw [and_eq_true, decide_eq_true_eq, decide_eq_true_eq]
    exact ⟨provider, execution⟩
  · obtain ⟨event, member, provider, id⟩ := recorded
    refine any_eq_true.mpr ⟨event, member, ?_⟩
    rw [and_eq_true, decide_eq_true_eq, decide_eq_true_eq]
    exact ⟨provider, id⟩
  · refine all_eq_true.mpr fun item member => ?_
    obtain ⟨_, _, period, isPeriod, id⟩ := same member
    rw [period?, List.find?_isSome]
    exact ⟨period, isPeriod, decide_eq_true id.symm⟩

theorem meterProviderExecution_finalizes (sound : AccountSound accountId store)
    {resource : MeteredResource} (known : context.workspace.or context.build = some resource)
    (ofAccount : resource.accountId = accountId) (hosted : resource.providerConnectionId = none)
    (ensured : store.ensureAccountCloudBillingPeriod accountId context.entitlements nowMs =
      some (some period, store)) (valid : evidence.isValid nowMs = true)
    (cutover : context.cutoverAt evidence.provider = some cutoverAt)
    (after : cutoverAt < evidence.endedAtMs) (covers : billingPeriodsCoverInterval
      (store.periodsOverlapping accountId (max evidence.startedAtMs cutoverAt) evidence.endedAtMs)
      (max evidence.startedAtMs cutoverAt) evidence.endedAtMs = true)
    (costs : ∀ segmentStart segmentEnd, ∃ cost,
      evidence.segmentCost context segmentStart segmentEnd = .ok cost)
    (recorded : ∃ event ∈ store.events, event.provider = evidence.provider ∧
      event.eventId = evidence.eventId) :
    (store.meterProviderExecution context evidence nowMs).2.isProviderEventFinalized
      evidence.provider evidence.eventId evidence.providerExecutionId = true := by
  cases unfinalized : store.isProviderEventFinalized evidence.provider evidence.eventId
      evidence.providerExecutionId with
  | true =>
    unfold meterProviderExecution
    rw [if_pos unfinalized]
    exact unfinalized
  | false =>
    have ordered : evidence.startedAtMs < evidence.endedAtMs := by
      simp only [isValid, and_eq_true,
        decide_eq_true_eq] at valid
      exact valid.1.1.1.1.1.2
    obtain ⟨usage, segmented⟩ :=
      segments_isOk accountId (max evidence.startedAtMs cutoverAt) costs
        (store.periodsOverlapping accountId (max evidence.startedAtMs cutoverAt) evidence.endedAtMs)
    have accepted := accepts_meteredBatch (max_lt ordered after) recorded unfinalized covers
      segmented
    obtain ⟨⟨metered, next⟩, batch⟩ :=
      Option.isSome_iff_exists.mp (recordBatch_isSome sound.sound accepted)
    have finalized := isFinalized_of_recorded batch
    unfold meteredBatch at batch
    have result : (store.meterProviderExecution context evidence nowMs).2 = next := by
      unfold meterProviderExecution meterPeriods
      simp only [unfinalized, valid, known, hosted, ofAccount, ensured, cutover,
        not_le.mpr after, covers, segmented, batch, Bool.not_true, Bool.false_eq_true,
        if_false, Option.isSome_none]
    rw [result]
    exact finalized

theorem ensureCloudBillingPeriod_unfinalized
    (ensured : store.ensureCloudBillingPeriod accountId entitlement periodStartMs
      periodEndMs nowMs = some (period, next)) (provider : UsageProvider) (eventId : String)
    (execution : Option String) :
    next.isProviderEventFinalized provider eventId execution =
      store.isProviderEventFinalized provider eventId execution := by
  rw [isProviderEventFinalized, (ensurePeriod_kept ensured).2, isProviderEventFinalized]

theorem accountStep_accountSound (sound : AccountSound accountId store) {label : AccountStep}
    (stepped : store.accountStep accountId label = some next) :
    AccountSound accountId next := by
  cases label with
  | event event =>
    cases stepped
    exact ⟨recordProviderEvent_sound sound.sound event, sound.ofAccount, sound.traced⟩
  | ensure entitlements nowMs =>
    obtain ⟨⟨period, _⟩, ensured, rfl⟩ := Option.map_eq_some_iff.mp stepped
    unfold ensureAccountCloudBillingPeriod at ensured
    split at ensured
    · cases ensured
      exact sound
    · obtain ⟨⟨_, _⟩, opened, same⟩ := Option.map_eq_some_iff.mp ensured
      cases same
      exact ensureCloudBillingPeriod_accountSound sound opened
  | meter context evidence nowMs =>
    rw [accountStep] at stepped
    split at stepped
    · rename_i ofAccount
      cases stepped
      cases metered : store.meterProviderExecution context evidence nowMs with
      | mk result last =>
        obtain ⟨rfl, _⟩ | ⟨resource, entitlement, period, ensured, unfinalized, known, _,
            opened, cases_⟩ := meterProviderExecution_cases metered
        · exact sound
        · rw [known, Option.all_some, decide_eq_true_eq] at ofAccount
          rw [ofAccount] at opened cases_
          have ensuredSound := ensureCloudBillingPeriod_accountSound sound opened
          rw [← ensureCloudBillingPeriod_unfinalized opened] at unfinalized
          obtain ⟨rfl, _⟩ | ⟨_, _, _, _, isMetered⟩ := cases_
          · exact ensuredSound
          · exact isMetered.accountSound ensuredSound unfinalized
    · cases stepped

theorem accountSound_of_reachable (reachable : (accountSystem accountId).Reachable store) :
    AccountSound accountId store := by
  have initial : AccountSound accountId (accountSystem accountId).init :=
    ⟨init_sound ⟨[], nodup_nil⟩, forall_mem_nil _, forall_mem_nil _⟩
  exact reachable.invariant initial fun _ _ _ _ sound stepped =>
    accountStep_accountSound sound stepped

/-- An execution that is metered after any history of its account is billed once exactly
when no time of it is in two periods, with the period that the call itself opens. -/
theorem billedOnce_iff_of_reachable (reachable : (accountSystem accountId).Reachable store)
    {context : MeteringContext} {evidence : ProviderExecutionEvidence} {nowMs : Int}
    {resource : MeteredResource} (known : context.workspace.or context.build = some resource)
    (ofAccount : resource.accountId = accountId) {entitlement : Entitlement}
    (entitled : billedEntitlement context.entitlements nowMs = some entitlement)
    {cutoverAt : Int} (cutover : context.cutoverAt evidence.provider = some cutoverAt)
    {recorded : Bool}
    (metered : store.meterProviderExecution context evidence nowMs = (.metered recorded, next)) :
    ∃ entries, next.usage = store.usage ++ entries ∧
      (BilledOnce entries (Set.Ico (max evidence.startedAtMs cutoverAt) evidence.endedAtMs) ↔
        NoneShared (store.spansWith (entitlement.billedFrom nowMs, entitlement.billedUntil nowMs))
          (Set.Ico (max evidence.startedAtMs cutoverAt) evidence.endedAtMs)) := by
  have sound := accountSound_of_reachable reachable
  obtain ⟨_, notMetered⟩ | ⟨_, _, period, ensured, unfinalized, isKnown, isEntitled, opened,
      result⟩ := meterProviderExecution_cases metered
  · exact absurd rfl (notMetered recorded)
  cases known.symm.trans isKnown
  cases entitled.symm.trans isEntitled
  subst ofAccount
  have ensuredSound := ensureCloudBillingPeriod_accountSound sound opened
  rw [← ensureCloudBillingPeriod_unfinalized opened] at unfinalized
  obtain ⟨_, notMetered⟩ | ⟨_, usage, _, _, isMetered⟩ := result
  · exact absurd rfl (notMetered recorded)
  cases cutover.symm.trans isMetered.cutover
  obtain ⟨entries, _, _⟩ := isMetered.entries ensuredSound unfinalized
  refine ⟨usage, ?_, ?_⟩
  · rw [entries, (ensurePeriod_kept opened).1]
  have starts := periodsOverlapping_nodup
    (starts_nodup ensuredSound.ofAccount ensuredSound.sound.distinct)
    resource.accountId (max evidence.startedAtMs cutoverAt) evidence.endedAtMs
  have exact_ := segments_exact isMetered.segmented isMetered.covers
  rw [← NoneShared.congr (ensurePeriod_spans sound.ofAccount rfl opened),
    ← noneShared_overlapping ensuredSound.ofAccount,
    ← segments_disjoint isMetered.segmented starts]
  exact ⟨fun once => once.disjoint, fun apart => ⟨apart, exact_⟩⟩

end BillingStore

namespace BillingStore

variable {store next : BillingStore} {accountId : String}

def renewedEntitlement : Entitlement where
  offerId := some cloudWorkspaceOfferId
  provider := "polar"
  providerSubscriptionId := none
  status := .active
  periodStartMs := none
  paidThroughMs := some (40 * dayMs)

def boxContext : MeteringContext where
  workspace := some { accountId := "account", providerConnectionId := none }
  build := none
  entitlements := [renewedEntitlement]
  providerCutoverAtMs := []
  cutoverAtMs := some 0
  schedule := [
    { provider := .box
      effectiveAt := 0
      baseNanoUsdPerSecond := 0
      cpuNanoUsdPerSecond := 1000
      memoryNanoUsdPerGibSecond := 1000 }]
  reportedCost := none

def boxExecution : ProviderExecutionEvidence where
  provider := .box
  eventId := "archived"
  providerExecutionId := some "box:ready"
  internalResourceId := "workspace"
  startedAtMs := 32 * dayMs
  endedAtMs := 33 * dayMs
  vcpuCount := 2
  memoryMib := 2048

def renewedHistory : List AccountStep :=
  [.ensure [renewedEntitlement] (9 * dayMs),
    .event (closingEvent "archived" "box.archived" (33 * dayMs))]

theorem renewedHistory_metersTwice :
    ∃ store next, (accountSystem "account").run renewedHistory = some store ∧
      store.meterProviderExecution boxContext boxExecution (35 * dayMs) = (.metered true, next) ∧
      store.usage = [] ∧ next.usage.map (fun usage => (usage.startedAt, usage.endedAt)) =
        [(32 * dayMs, 33 * dayMs), (32 * dayMs, 33 * dayMs)] := by
  have ran : ((accountSystem "account").run renewedHistory).any (fun store =>
      let metered := store.meterProviderExecution boxContext boxExecution (35 * dayMs)
      Decidable.decide (metered.1 = .metered true) && Decidable.decide (store.usage = []) &&
        Decidable.decide (metered.2.usage.map (fun usage => (usage.startedAt, usage.endedAt)) =
          [(32 * dayMs, 33 * dayMs), (32 * dayMs, 33 * dayMs)])) = true := by decide +kernel
  obtain ⟨store, isStore, observed⟩ := (Option.any_eq_true _ _).mp ran
  simp only [and_eq_true, decide_eq_true_eq] at observed
  obtain ⟨⟨metered, unused⟩, usage⟩ := observed
  exact ⟨store, _, isStore, Prod.ext metered rfl, unused, usage⟩

theorem billedOnce_iff_of_renewedHistory :
    ∃ store next, (accountSystem "account").run renewedHistory = some store ∧
      store.meterProviderExecution boxContext boxExecution (35 * dayMs) = (.metered true, next) ∧
      ∃ entries, next.usage = store.usage ++ entries ∧
        (BilledOnce entries (Set.Ico (max boxExecution.startedAtMs 0) boxExecution.endedAtMs) ↔
          NoneShared (store.spansWith (renewedEntitlement.billedFrom (35 * dayMs),
              renewedEntitlement.billedUntil (35 * dayMs)))
            (Set.Ico (max boxExecution.startedAtMs 0) boxExecution.endedAtMs)) := by
  obtain ⟨store, next, ran, metered, _, _⟩ := renewedHistory_metersTwice
  exact ⟨store, next, ran, metered, billedOnce_iff_of_reachable
    (TransitionSystem.run_reachable ran) rfl rfl (by decide +kernel) rfl metered⟩

theorem not_billedOnce_of_reachable :
    ¬∀ (accountId : String) (store next : BillingStore) (context : MeteringContext)
      (evidence : ProviderExecutionEvidence) (nowMs cutoverAt : Int)
      (resource : MeteredResource) (recorded : Bool) (entries : List UsageRecord),
      (accountSystem accountId).Reachable store →
        context.workspace.or context.build = some resource →
        resource.accountId = accountId →
        context.cutoverAt evidence.provider = some cutoverAt →
        store.meterProviderExecution context evidence nowMs = (.metered recorded, next) →
        next.usage = store.usage ++ entries →
          BilledOnce entries (Set.Ico (max evidence.startedAtMs cutoverAt) evidence.endedAtMs) := by
  intro billedOnce
  obtain ⟨store, next, ran, metered, unused, usage⟩ := renewedHistory_metersTwice
  have once := billedOnce "account" store next boxContext boxExecution (35 * dayMs) 0
    { accountId := "account", providerConnectionId := none } true next.usage
    (TransitionSystem.run_reachable ran) rfl rfl rfl metered (by rw [unused]; rfl)
  have disjoint : (next.usage.map fun usage => (usage.startedAt, usage.endedAt)).Pairwise
      fun left right => Disjoint (Set.Ico left.1 left.2) (Set.Ico right.1 right.2) :=
    pairwise_map.mpr once.disjoint
  rw [usage] at disjoint
  have apart := (pairwise_cons.mp disjoint).1 _ mem_cons_self
  have inside : 32 * dayMs ∈ Set.Ico (32 * dayMs) (33 * dayMs) := by
    decide
  exact Set.disjoint_left.mp apart inside inside

end BillingStore

end Zuse.Billing
