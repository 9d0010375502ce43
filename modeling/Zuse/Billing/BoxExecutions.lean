import Zuse.Billing.BoxLifecycle

namespace Zuse.Billing

open Zuse.Data List BillingStore BoxLifecycleEvent ProviderExecutionEvidence

/-! The executions of one box, between an opening and the closing right after it. -/

namespace BoxLifecycleEvent

variable (event : BoxLifecycleEvent)

def timeMs : Int := event.occurredAtMs.getD 0

def row : ProviderEvent where
  provider := .box
  eventId := event.id
  type := event.type
  providerResourceId := some event.boxId
  occurredAtMs := event.occurredAtMs

def isClosing : Bool := event.type ∈ closingEventTypes

def isLifecycle : Bool := event.type = openingEventType || event.isClosing

def executionId : String := event.boxId ++ ":" ++ event.id

end BoxLifecycleEvent

structure BoxHistory where
  boxId : String
  events : List BoxLifecycleEvent
  ofBox : ∀ event ∈ events, event.boxId = boxId
  timed : ∀ event ∈ events, event.occurredAtMs = some event.timeMs ∧
    isSafeInteger event.timeMs = true
  ids : (events.map (·.id)).Nodup
  times : (events.map (·.timeMs)).Nodup

variable {closing : BoxLifecycleEvent}

namespace BoxHistory

variable (history : BoxHistory)

/-- The closing is the first event after the opening that opens or closes the box. -/
def IsExecution (opening closing : BoxLifecycleEvent) : Prop :=
  opening ∈ history.events ∧ closing ∈ history.events ∧
    opening.type = openingEventType ∧ closing.isClosing = true ∧
      opening.timeMs < closing.timeMs ∧ ∀ other ∈ history.events, other.isLifecycle = true →
        other.timeMs ≤ opening.timeMs ∨ closing.timeMs ≤ other.timeMs

instance (opening closing : BoxLifecycleEvent) : Decidable (history.IsExecution opening closing) :=
  inferInstanceAs (Decidable (_ ∧ _))

def executionOpening (closing : BoxLifecycleEvent) : Option BoxLifecycleEvent :=
  history.events.find? fun opening => history.IsExecution opening closing

variable {history} {left right : BoxLifecycleEvent}

theorem eq_of_id (isLeft : left ∈ history.events) (isRight : right ∈ history.events)
    (same : left.id = right.id) : left = right :=
  inj_on_of_nodup_map history.ids isLeft isRight same

theorem eq_of_timeMs (isLeft : left ∈ history.events) (isRight : right ∈ history.events)
    (same : left.timeMs = right.timeMs) : left = right :=
  inj_on_of_nodup_map history.times isLeft isRight same

theorem IsExecution.opening_unique (isLeft : history.IsExecution left closing)
    (isRight : history.IsExecution right closing) : left = right := by
  obtain ⟨leftMember, _, leftType, _, leftBefore, leftNext⟩ := isLeft
  obtain ⟨rightMember, _, rightType, _, rightBefore, rightNext⟩ := isRight
  have opens {event : BoxLifecycleEvent} (type : event.type = openingEventType) :
      event.isLifecycle = true := by
    rw [isLifecycle, type, decide_eq_true rfl, Bool.true_or]
  refine eq_of_timeMs leftMember rightMember ?_
  have first := (leftNext right rightMember (opens rightType)).resolve_right
    (not_le.mpr rightBefore)
  have second := (rightNext left leftMember (opens leftType)).resolve_right (not_le.mpr leftBefore)
  exact le_antisymm second first

variable {opening : BoxLifecycleEvent}

theorem IsExecution.closing_unique (isLeft : history.IsExecution opening left)
    (isRight : history.IsExecution opening right) : left = right := by
  obtain ⟨_, leftMember, _, leftType, leftAfter, leftNext⟩ := isLeft
  obtain ⟨_, rightMember, _, rightType, rightAfter, rightNext⟩ := isRight
  have closes {event : BoxLifecycleEvent} (type : event.isClosing = true) :
      event.isLifecycle = true := by
    rw [isLifecycle, type, Bool.or_true]
  refine eq_of_timeMs leftMember rightMember ?_
  have first := (leftNext right rightMember (closes rightType)).resolve_left (not_le.mpr rightAfter)
  have second := (rightNext left leftMember (closes leftType)).resolve_left (not_le.mpr leftAfter)
  exact le_antisymm first second

theorem executionOpening_eq_some :
    history.executionOpening closing = some opening ↔ history.IsExecution opening closing := by
  constructor
  · intro found
    have holds := List.find?_some found
    exact of_decide_eq_true holds
  intro isExecution
  cases found : history.executionOpening closing with
  | none =>
    have absent := List.find?_eq_none.mp found opening isExecution.1
    exact absurd (decide_eq_true isExecution) absent
  | some other =>
    have holds := List.find?_some found
    have isOther : history.IsExecution other closing := of_decide_eq_true holds
    rw [isOther.opening_unique isExecution]

theorem executionId_injective (isLeft : left ∈ history.events)
    (isRight : right ∈ history.events) (same : left.executionId = right.executionId) :
    left = right := by
  rw [executionId, executionId, history.ofBox left isLeft, history.ofBox right isRight] at same
  exact eq_of_id isLeft isRight (append_left_injective same)

end BoxHistory

/-- A known workspace, periods that cover every execution and cost lookups that succeed. -/
structure BoxAccount (history : BoxHistory) where
  accountId : String
  context : BoxContext
  internalResourceId : String
  resource : MeteredResource
  adapter : BoxAdapter
  getUsage : String → Int → Int → Option Int
  cutoverAtMs : Int
  periods : List BillingPeriod
  found : context.workspace.or context.build = some (internalResourceId, resource)
  metered : context.metering.workspace.or context.metering.build = some resource
  owned : resource.accountId = accountId
  hosted : resource.providerConnectionId = none
  adapted : context.adapter = some adapter
  sized : isSafeInteger adapter.vcpuCount = true ∧ 0 ≤ adapter.vcpuCount ∧
    isSafeInteger adapter.memoryMib = true ∧ 0 ≤ adapter.memoryMib
  reports : adapter.getUsage = some getUsage
  costs : ∀ boxId startedAtMs endedAtMs, ∃ cost,
    getUsage boxId startedAtMs endedAtMs = some cost ∧ isSafeInteger cost = true ∧ 0 ≤ cost
  cutover : context.metering.cutoverAt .box = some cutoverAtMs
  ofAccount : OfAccount accountId periods
  distinct : (periods.map (·.periodId)).Nodup
  covered : ∀ opening ∈ history.events, ∀ closing ∈ history.events,
    opening.timeMs < closing.timeMs → cutoverAtMs < closing.timeMs →
      billingPeriodsCoverInterval
        (({ empty with periods } : BillingStore).periodsOverlapping accountId
          (max opening.timeMs cutoverAtMs) closing.timeMs)
        (max opening.timeMs cutoverAtMs) closing.timeMs = true

structure BoxDelivery where
  event : BoxLifecycleEvent
  entitlements : List Entitlement
  nowMs : Int

/-- The provider time is not ahead of the clock by more than metering allows. -/
def BoxDelivery.isDue (delivery : BoxDelivery) : Prop :=
  delivery.event.timeMs ≤ delivery.nowMs + 5 * 60000

namespace BoxAccount

variable {history : BoxHistory} (account : BoxAccount history)

def isFixed (delivery : BoxDelivery) : Bool :=
  (({ empty with periods := account.periods } :
      BillingStore).ensureAccountCloudBillingPeriod account.accountId delivery.entitlements
        delivery.nowMs).any fun ensured =>
    ensured.1.isSome && ensured.2.periods = account.periods

def deliveryContext (delivery : BoxDelivery) : BoxContext :=
  { account.context with
    metering := { account.context.metering with entitlements := delivery.entitlements } }

def step (store : BillingStore) (delivery : BoxDelivery) : Option BillingStore :=
  if delivery.event ∈ history.events ∧ account.isFixed delivery = true then
    some (store.ingestBoxLifecycleEvent (account.deliveryContext delivery) delivery.event
      delivery.nowMs).2
  else none

def system : TransitionSystem BillingStore BoxDelivery where
  init := { empty with periods := account.periods }
  step := account.step

end BoxAccount

variable {pair : LifecyclePair}

namespace BillingStore

variable {store next : BillingStore} {provider : UsageProvider}

variable {resourceId openingType : String} {opening : ProviderEvent} {closedAtMs : Int}

theorem latestOpening_some
    (latest : store.latestOpening provider resourceId openingType closedAtMs = some opening) :
    opening ∈ store.events ∧
      opening.isOpening provider resourceId openingType closedAtMs = true := by
  have member := (mem_insertionSort _).mp (mem_of_mem_head? latest)
  exact mem_filter.mp member

theorem latestOpening_isSome (member : opening ∈ store.events)
    (isOpening : opening.isOpening provider resourceId openingType closedAtMs = true) :
    (store.latestOpening provider resourceId openingType closedAtMs).isSome = true := by
  rw [latestOpening, isSome_head?]
  exact ne_nil_of_mem ((mem_insertionSort _).mpr (mem_filter.mpr ⟨member, isOpening⟩))

variable {closingEventId : String}

theorem storedPair_some (stored : store.storedPair provider closingEventId = some pair) :
    pair ∈ store.pairs ∧ pair.provider = provider ∧ pair.closingEventId = closingEventId := by
  have matched := List.find?_some stored
  simp only [Bool.and_eq_true, decide_eq_true_eq] at matched
  exact ⟨mem_of_find?_eq_some stored, matched⟩

theorem pairProviderOpening_cases {found : Option LifecyclePair}
    (paired : store.pairProviderOpening provider resourceId openingType closingEventId
      closedAtMs = (found, next)) :
    found = store.lifecyclePair provider resourceId openingType closingEventId closedAtMs ∧
      ((found = none ∧ next = store) ∨ ∃ pair pairs, found = some pair ∧
        next = { store with pairs } ∧ ∀ other ∈ pairs, other ∈ store.pairs ∨
          store.storedPair provider closingEventId = none ∧ other = pair) := by
  unfold pairProviderOpening at paired
  split at paired
  · rename_i absent
    cases paired
    exact ⟨absent.symm, .inl ⟨rfl, rfl⟩⟩
  rename_i pair known
  cases paired
  refine ⟨known.symm, .inr ⟨pair, ?_⟩⟩
  split
  · exact ⟨store.pairs, rfl, rfl, fun _ old => .inl old⟩
  rename_i unpaired
  refine ⟨store.pairs ++ [pair], rfl, rfl, ?_⟩
  intro other member
  rcases mem_concat.mp member with old | new
  · exact .inl old
  · exact .inr ⟨Option.not_isSome_iff_eq_none.mp unpaired, new⟩

variable {other : BillingStore}

theorem periodsOverlapping_congr (same : store.periods = other.periods) (accountId : String)
    (startedAtMs endedAtMs : Int) :
    store.periodsOverlapping accountId startedAtMs endedAtMs =
      other.periodsOverlapping accountId startedAtMs endedAtMs := by
  rw [periodsOverlapping, same, periodsOverlapping]

theorem ensurePeriod_frame (same : other.periods = store.periods) (input : PeriodInput) :
    other.ensurePeriod input = (store.ensurePeriod input).map fun ensured =>
      (ensured.1, { other with periods := ensured.2.periods }) := by
  unfold ensurePeriod updatePeriod period? previousCap
  rw [same]
  dsimp only
  split
  · split
    · rfl
    · rfl
  · split
    · rfl
    · rfl

theorem ensureAccountCloudBillingPeriod_frame (same : other.periods = store.periods)
    (accountId : String) (entitlements : List Entitlement) (nowMs : Int) :
    other.ensureAccountCloudBillingPeriod accountId entitlements nowMs =
      (store.ensureAccountCloudBillingPeriod accountId entitlements nowMs).map fun ensured =>
        (ensured.1, { other with periods := ensured.2.periods }) := by
  unfold ensureAccountCloudBillingPeriod
  split
  · show some (none, other) = some (none, { other with periods := store.periods })
    rw [← same]
  · unfold ensureCloudBillingPeriod
    rw [ensurePeriod_frame same, Option.map_map, Option.map_map]
    rfl

end BillingStore

variable {delivery : BoxDelivery}

namespace BoxAccount

variable {history : BoxHistory} {account : BoxAccount history} {store next : BillingStore}

theorem isFixed_ensured (isFixed : account.isFixed delivery = true)
    (periods : store.periods = account.periods) :
    ∃ period, store.ensureAccountCloudBillingPeriod account.accountId delivery.entitlements
      delivery.nowMs = some (some period, store) := by
  obtain ⟨⟨ensured, last⟩, isEnsured, kept⟩ := (Option.any_eq_true _ _).mp isFixed
  simp only [Bool.and_eq_true, decide_eq_true_eq] at kept
  obtain ⟨period, rfl⟩ := Option.isSome_iff_exists.mp kept.1
  have same : store.periods = ({ empty with periods := account.periods } : BillingStore).periods :=
    periods
  refine ⟨period, ?_⟩
  rw [ensureAccountCloudBillingPeriod_frame same, isEnsured, Option.map_some, kept.2, ← periods]

variable (account) in
/-- What a delivery of a closing that has an opening gives as evidence. -/
def evidence (event : BoxLifecycleEvent) (pair : LifecyclePair) : ProviderExecutionEvidence where
  provider := .box
  eventId := event.id
  providerExecutionId := some (event.boxId ++ ":" ++ pair.openingEventId)
  internalResourceId := account.internalResourceId
  startedAtMs := pair.startedAtMs
  endedAtMs := event.timeMs
  vcpuCount := account.adapter.vcpuCount
  memoryMib := account.adapter.memoryMib

variable (account) in
def meteringContext (delivery : BoxDelivery) : MeteringContext :=
  { account.context.metering with
    entitlements := delivery.entitlements
    reportedCost := some (account.getUsage delivery.event.boxId) }

def knownPair (store : BillingStore) (event : BoxLifecycleEvent) : Option LifecyclePair :=
  store.lifecyclePair .box event.boxId openingEventType event.id event.timeMs

theorem step_cases (stepped : account.step store delivery = some next) :
    delivery.event ∈ history.events ∧ account.isFixed delivery = true ∧
      ∃ recorded, (store.recordProviderEvent delivery.event.row).2 = recorded ∧
        ((next = recorded ∧ (delivery.event.isClosing = true →
            knownPair recorded delivery.event = none)) ∨
          delivery.event.isClosing = true ∧ ∃ pair pairs,
            knownPair recorded delivery.event = some pair ∧
              (∀ other ∈ pairs, other ∈ recorded.pairs ∨
                recorded.storedPair .box delivery.event.id = none ∧ other = pair) ∧
              ((next = { recorded with pairs } ∧ delivery.event.timeMs ≤ pair.startedAtMs) ∨
                pair.startedAtMs < delivery.event.timeMs ∧
                  next = (({ recorded with pairs } : BillingStore).meterProviderExecution
                    (account.meteringContext delivery)
                    (account.evidence delivery.event pair) delivery.nowMs).2)) := by
  rw [step] at stepped
  split at stepped
  · rename_i enabled
    obtain ⟨member, isFixed⟩ := enabled
    refine ⟨member, isFixed, _, rfl, ?_⟩
    cases stepped
    obtain ⟨timed, _⟩ := history.timed delivery.event member
    have row : delivery.event.row =
        { provider := .box
          eventId := delivery.event.id
          type := delivery.event.type
          providerResourceId := some delivery.event.boxId
          occurredAtMs := some delivery.event.timeMs } := by
      rw [row, timed]
    rw [row]
    unfold ingestBoxLifecycleEvent
    rw [timed]
    dsimp only
    split
    · rename_i open_
      refine .inl ⟨rfl, fun closing => ?_⟩
      rw [isClosing, decide_eq_true_eq] at closing
      exact absurd closing open_
    · rename_i closing
      rw [not_not] at closing
      cases paired : (store.recordProviderEvent
          { provider := .box
            eventId := delivery.event.id
            type := delivery.event.type
            providerResourceId := some delivery.event.boxId
            occurredAtMs := some delivery.event.timeMs }).2.pairProviderOpening .box
              delivery.event.boxId openingEventType delivery.event.id
              delivery.event.timeMs with
      | mk found last =>
        obtain ⟨known, ⟨rfl, rfl⟩ | ⟨pair, pairs, rfl, rfl, added⟩⟩ :=
          pairProviderOpening_cases paired
        · exact .inl ⟨rfl, fun _ => known.symm⟩
        · refine .inr ⟨decide_eq_true closing, pair, pairs, known.symm, added, ?_⟩
          unfold meterLifecycle deliveryContext
          rw [account.found, account.adapted]
          simp only [account.hosted, account.reports, Option.isSome_none,
            Bool.false_eq_true, if_false]
          split
          · rename_i early
            exact .inl ⟨rfl, early⟩
          · rename_i late
            exact .inr ⟨not_le.mp late, rfl⟩
  · cases stepped

end BoxAccount

namespace BillingStore

variable {store next : BillingStore} {accountId : String}

def executionInterval (store : BillingStore) (executionId : String) : Set Int :=
  {time | ∃ usage ∈ store.usage, usage.providerExecutionId = some executionId ∧
    time ∈ usage.interval}

section

variable {context : MeteringContext} {evidence : ProviderExecutionEvidence} {cutoverAt : Int}
  {usage : List UsageRecord} {recorded : Bool}

theorem execution_ne_of_unfinalized {provider : UsageProvider} {eventId execution : String}
    (unfinalized : store.isProviderEventFinalized provider eventId (some execution) = false)
    {row : Finalization} (member : row ∈ store.finalizations)
    (same : row.provider = provider) : row.providerExecutionId ≠ some execution := by
  have unmatched := any_eq_false.mp unfinalized row member
  simp only [Bool.and_eq_true, Bool.or_eq_true, decide_eq_true_eq] at unmatched
  exact fun isExecution => unmatched ⟨same, .inr ⟨rfl, isExecution⟩⟩

theorem MeteredBy.execution
    (metered : store.MeteredBy context evidence accountId cutoverAt usage recorded next)
    {item : UsageRecord} (member : item ∈ usage) :
    item.providerExecutionId = evidence.providerExecutionId := by
  obtain ⟨_, _, _, rfl⟩ := mem_of_segment (segments_forall metered.segmented) member
  rfl

theorem MeteredBy.kept (sound : store.Sound)
    (metered : store.MeteredBy context evidence accountId cutoverAt usage recorded next) :
    next.events = store.events ∧ next.pairs = store.pairs := by
  obtain ⟨_, _, ⟨_, _, rfl⟩ | ⟨_, middle, usages, rfl⟩⟩ := recordBatch_cases metered.batch
  · exact ⟨rfl, rfl⟩
  · have same := (recordUsages_recorded sound usages).same
    exact ⟨same.events, same.pairs⟩

variable {executionId : String}

section

variable (sound : AccountSound accountId store)
  (unfinalized : store.isProviderEventFinalized evidence.provider evidence.eventId
    evidence.providerExecutionId = false)
  (metered : store.MeteredBy context evidence accountId cutoverAt usage recorded next)
include sound unfinalized metered

theorem MeteredBy.executionInterval (known : evidence.providerExecutionId = some executionId)
    (sameProvider : ∀ row ∈ store.finalizations, row.provider = evidence.provider) :
    next.executionInterval executionId =
      Set.Ico (max evidence.startedAtMs cutoverAt) evidence.endedAtMs := by
  have exact_ := segments_exact metered.segmented metered.covers
  obtain ⟨entries, _, _⟩ := metered.entries sound unfinalized
  rw [← exact_]
  ext time
  simp only [BillingStore.executionInterval, Set.mem_ofPred_eq, Set.mem_iUnion, exists_prop]
  rw [entries]
  constructor
  · rintro ⟨item, member, isExecution, inside⟩
    rcases mem_append.mp member with old | new
    · obtain ⟨row, isRow, traced⟩ := sound.traced item old
      rw [known] at unfinalized
      exact absurd (traced.execution.symm.trans isExecution)
        (execution_ne_of_unfinalized unfinalized isRow (sameProvider row isRow))
    · exact ⟨item, new, inside⟩
  · rintro ⟨item, member, inside⟩
    exact ⟨item, mem_append_right _ member, (metered.execution member).trans known, inside⟩

theorem MeteredBy.executionInterval_other
    (other : evidence.providerExecutionId ≠ some executionId) :
    next.executionInterval executionId = store.executionInterval executionId := by
  obtain ⟨entries, _, _⟩ := metered.entries sound unfinalized
  ext time
  simp only [BillingStore.executionInterval, Set.mem_ofPred_eq]
  rw [entries]
  constructor
  · rintro ⟨item, member, isExecution, inside⟩
    rcases mem_append.mp member with old | new
    · exact ⟨item, old, isExecution, inside⟩
    · exact absurd ((metered.execution new).symm.trans isExecution) other
  · rintro ⟨item, member, isExecution, inside⟩
    exact ⟨item, mem_append_left _ member, isExecution, inside⟩

end

end

end BillingStore

structure BoxSound {history : BoxHistory} (account : BoxAccount history)
    (store : BillingStore) : Prop where
  tables : AccountSound account.accountId store
  periods : store.periods = account.periods
  events : ∀ row ∈ store.events, ∃ event ∈ history.events, row = event.row
  pairs : ∀ pair ∈ store.pairs, ∃ opening ∈ history.events,
    pair.openingEventId = opening.id ∧ pair.startedAtMs = opening.timeMs
  provider : ∀ row ∈ store.finalizations, row.provider = .box
  once : (store.finalizations.map (·.providerExecutionId)).Nodup

namespace BoxAccount

variable {history : BoxHistory} {account : BoxAccount history} {store next : BillingStore}
  {event : BoxLifecycleEvent}

theorem recordProviderEvent_boxSound (sound : BoxSound account store)
    (member : event ∈ history.events) :
    BoxSound account (store.recordProviderEvent event.row).2 := by
  refine ⟨⟨recordProviderEvent_sound sound.tables.sound event.row,
    sound.tables.ofAccount, sound.tables.traced⟩, sound.periods, ?_, sound.pairs,
    sound.provider, sound.once⟩
  intro row isRow
  rw [recordProviderEvent, Table.insertNew] at isRow
  split at isRow
  · exact sound.events row isRow
  · rcases mem_concat.mp isRow with old | new
    · exact sound.events row old
    · exact ⟨event, member, new⟩

variable {pair : LifecyclePair}

section

variable (sound : BoxSound account store)
include sound

theorem knownPair_opening (known : knownPair store event = some pair) :
    ∃ opening ∈ history.events, pair.openingEventId = opening.id ∧
      pair.startedAtMs = opening.timeMs := by
  obtain ⟨latest, isLatest, isPair⟩ := Option.map_eq_some_iff.mp known
  cases stored : store.storedPair .box event.id with
  | some old =>
    rw [stored] at isPair
    rw [← isPair]
    exact sound.pairs old (storedPair_some stored).1
  | none =>
    rw [stored] at isPair
    obtain ⟨member, _⟩ := latestOpening_some isLatest
    obtain ⟨opening, isOpening, rfl⟩ := sound.events latest member
    rw [← isPair]
    exact ⟨opening, isOpening, rfl, rfl⟩

theorem pairs_boxSound {pairs : List LifecyclePair} (known : knownPair store event = some pair)
    (added : ∀ other ∈ pairs, other ∈ store.pairs ∨
      store.storedPair .box event.id = none ∧ other = pair) :
    BoxSound account { store with pairs } := by
  have traced := sound.tables
  refine ⟨⟨?_, traced.ofAccount, traced.traced⟩, sound.periods, sound.events, ?_,
    sound.provider, sound.once⟩
  · exact ⟨traced.sound.ledgered, traced.sound.numbered, traced.sound.owned,
      traced.sound.exported, traced.sound.cost,
      fun period member => (traced.sound.balanced period member).frame rfl (fun _ => rfl) rfl,
      traced.sound.distinct⟩
  · intro other isOther
    rcases added other isOther with old | ⟨_, rfl⟩
    · exact sound.pairs other old
    · exact knownPair_opening sound known

variable {delivery : BoxDelivery}

theorem meter_cases (isFixed : account.isFixed delivery = true) {nowMs : Int}
    (same : delivery.nowMs = nowMs)
    (metered : next = (store.meterProviderExecution (account.meteringContext delivery)
      (account.evidence delivery.event pair) nowMs).2) :
    next = store ∨
      store.isProviderEventFinalized .box delivery.event.id
          (some (delivery.event.boxId ++ ":" ++ pair.openingEventId)) = false ∧
        ∃ usage recorded, store.MeteredBy (account.meteringContext delivery)
          (account.evidence delivery.event pair) account.accountId account.cutoverAtMs usage
          recorded next := by
  cases result : store.meterProviderExecution (account.meteringContext delivery)
      (account.evidence delivery.event pair) nowMs with
  | mk outcome last =>
    rw [result] at metered
    subst metered
    obtain ⟨rfl, _⟩ | ⟨resource, entitlement, period, ensured, unfinalized, known, entitled,
        opened, cases_⟩ := meterProviderExecution_cases result
    · exact .inl rfl
    cases known.symm.trans account.metered
    rw [account.owned] at opened cases_
    obtain ⟨found, isFound⟩ := isFixed_ensured isFixed sound.periods
    have kept : ensured = store := by
      unfold ensureAccountCloudBillingPeriod at isFound
      have isEntitled : billedEntitlement delivery.entitlements delivery.nowMs =
          some entitlement := by
        rw [same]
        exact entitled
      rw [isEntitled, same] at isFound
      simp only [opened, Option.map_some, Option.some.injEq, Prod.mk.injEq] at isFound
      exact isFound.2
    subst kept
    obtain ⟨rfl, _⟩ | ⟨cutoverAt, usage, recorded, _, isMetered⟩ := cases_
    · exact .inl rfl
    · cases isMetered.cutover.symm.trans account.cutover
      exact .inr ⟨unfinalized, usage, recorded, isMetered⟩

theorem metered_boxSound
    (unfinalized : store.isProviderEventFinalized .box delivery.event.id
      (some (delivery.event.boxId ++ ":" ++ pair.openingEventId)) = false)
    {usage : List UsageRecord} {recorded : Bool}
    (metered : store.MeteredBy (account.meteringContext delivery)
      (account.evidence delivery.event pair) account.accountId account.cutoverAtMs usage recorded
      next) :
    BoxSound account next := by
  obtain ⟨_, periods, finalizations⟩ := metered.entries sound.tables unfinalized
  have same := metered.kept sound.tables.sound
  refine ⟨metered.accountSound sound.tables unfinalized, periods.trans sound.periods, ?_, ?_,
    ?_, ?_⟩
  · rw [same.1]
    exact sound.events
  · rw [same.2]
    exact sound.pairs
  · rw [finalizations]
    intro row member
    rcases mem_concat.mp member with old | rfl
    · exact sound.provider row old
    · rfl
  rw [finalizations, map_append]
  refine nodup_append.mpr ⟨sound.once, nodup_singleton _, ?_⟩
  intro execution isOld other isNew
  rw [mem_singleton.mp isNew]
  rintro rfl
  obtain ⟨row, isRow, isExecution⟩ := mem_map.mp isOld
  exact execution_ne_of_unfinalized unfinalized isRow (sound.provider row isRow) isExecution

theorem step_boxSound (stepped : account.step store delivery = some next) :
    BoxSound account next := by
  obtain ⟨member, isFixed, recorded, rfl, cases_⟩ := step_cases stepped
  have recordedSound := recordProviderEvent_boxSound sound member
  obtain ⟨rfl, _⟩ | ⟨_, pair, pairs, known, added, metering⟩ := cases_
  · exact recordedSound
  have pairedSound := pairs_boxSound recordedSound known added
  obtain ⟨rfl, _⟩ | ⟨_, metered⟩ := metering
  · exact pairedSound
  · obtain rfl | ⟨unfinalized, usage, inserted, isMetered⟩ :=
      meter_cases pairedSound isFixed rfl metered
    · exact pairedSound
    · exact metered_boxSound pairedSound unfinalized isMetered

end

theorem init_boxSound : BoxSound account account.system.init where
  tables := ⟨init_sound ⟨account.periods, account.distinct⟩, account.ofAccount, forall_mem_nil _⟩
  periods := rfl
  events := forall_mem_nil _
  pairs := forall_mem_nil _
  provider := forall_mem_nil _
  once := nodup_nil

theorem boxSound_of_reachable (reachable : account.system.Reachable store) :
    BoxSound account store :=
  reachable.invariant init_boxSound fun _ _ _ _ sound stepped => step_boxSound sound stepped

/-- A closing with an opening known is given the opening right before it or, where another
event is right before it, an opening whose execution was already metered. -/
def InTurn (history : BoxHistory) (store : BillingStore) (delivery : BoxDelivery) : Prop :=
  (!delivery.event.isClosing || (knownPair store delivery.event).all fun pair =>
    match history.executionOpening delivery.event with
    | some opening => pair.openingEventId = opening.id
    | none => store.isProviderEventFinalized .box delivery.event.id
        (some (delivery.event.boxId ++ ":" ++ pair.openingEventId))) = true

instance (history : BoxHistory) (store : BillingStore) (delivery : BoxDelivery) :
    Decidable (InTurn history store delivery) :=
  inferInstanceAs (Decidable (_ = true))

theorem knownPair_closing (known : knownPair store event = some pair) :
    pair.closingEventId = event.id := by
  obtain ⟨latest, _, isPair⟩ := Option.map_eq_some_iff.mp known
  cases stored : store.storedPair .box event.id with
  | some old =>
    rw [stored] at isPair
    rw [← isPair]
    exact (storedPair_some stored).2.2
  | none =>
    rw [stored, Option.getD_none] at isPair
    rw [← isPair]

theorem knownPair_recorded (closing : event.isClosing = true) :
    knownPair (store.recordProviderEvent event.row).2 event = knownPair store event := by
  have notOpening : event.row.isOpening .box event.boxId openingEventType event.timeMs =
      false := by
    have different : event.type ≠ openingEventType := by
      intro same
      rw [isClosing, same] at closing
      exact absurd closing (by decide)
    simp [ProviderEvent.isOpening, row, different]
  have latest : (store.recordProviderEvent event.row).2.latestOpening .box event.boxId
      openingEventType event.timeMs =
        store.latestOpening .box event.boxId openingEventType event.timeMs := by
    rw [latestOpening, recordProviderEvent, Table.insertNew]
    split
    · rfl
    · rw [filter_append, filter_cons_of_neg (by simp [notOpening]), filter_nil, append_nil]
      rfl
  rw [knownPair, lifecyclePair, latest]
  rfl

theorem InTurn.opening (inTurn : InTurn history store delivery)
    (closing : delivery.event.isClosing = true)
    (known : knownPair store delivery.event = some pair) :
    (∀ opening, history.IsExecution opening delivery.event → pair.openingEventId = opening.id) ∧
    (store.isProviderEventFinalized .box delivery.event.id
        (some (delivery.event.boxId ++ ":" ++ pair.openingEventId)) = false →
      ∃ opening, history.IsExecution opening delivery.event) := by
  rw [InTurn, closing, known, Option.all_some] at inTurn
  cases found : history.executionOpening delivery.event with
  | some opening =>
    rw [found] at inTurn
    have isExecution := BoxHistory.executionOpening_eq_some.mp found
    refine ⟨fun other isOther => ?_, fun _ => ⟨opening, isExecution⟩⟩
    rw [isOther.opening_unique isExecution]
    exact of_decide_eq_true inTurn
  | none =>
    rw [found] at inTurn
    refine ⟨fun other isOther => ?_, fun unfinalized => ?_⟩
    · rw [BoxHistory.executionOpening_eq_some.mpr isOther] at found
      cases found
    · rw [unfinalized] at inTurn
      cases inTurn

end BoxAccount

structure BoxOrdered {history : BoxHistory} (account : BoxAccount history)
    (store : BillingStore) : Prop extends BoxSound account store where
  paired : ∀ pair ∈ store.pairs, ∀ opening closing, history.IsExecution opening closing →
    pair.closingEventId = closing.id → pair.openingEventId = opening.id
  finalized : ∀ row ∈ store.finalizations, ∃ opening closing,
    history.IsExecution opening closing ∧ row.eventId = closing.id ∧
      row.providerExecutionId = some opening.executionId ∧
      account.cutoverAtMs < closing.timeMs ∧
      store.executionInterval opening.executionId =
        Set.Ico (max opening.timeMs account.cutoverAtMs) closing.timeMs

variable {deliveries : List BoxDelivery}

namespace BoxAccount

variable {history : BoxHistory} {account : BoxAccount history} {store next : BillingStore}

variable {delivery : BoxDelivery}

theorem step_boxOrdered (ordered : BoxOrdered account store)
    (inTurn : InTurn history store delivery)
    (stepped : account.step store delivery = some next) : BoxOrdered account next := by
  have nextSound := step_boxSound ordered.toBoxSound stepped
  obtain ⟨member, isFixed, recorded, rfl, cases_⟩ := step_cases stepped
  have recordedSound := recordProviderEvent_boxSound ordered.toBoxSound member
  obtain ⟨rfl, _⟩ | ⟨closing, pair, pairs, known, added, metering⟩ := cases_
  · exact ⟨nextSound, ordered.paired, ordered.finalized⟩
  have pairedSound := pairs_boxSound recordedSound known added
  rw [knownPair_recorded closing] at known
  obtain ⟨opens, isExecution⟩ := inTurn.opening closing known
  have paired : ∀ other ∈ pairs, ∀ opening closing, history.IsExecution opening closing →
      other.closingEventId = closing.id → other.openingEventId = opening.id := by
    intro other isOther opening last isLast same
    rcases added other isOther with old | ⟨_, rfl⟩
    · exact ordered.paired other old opening last isLast same
    · rw [knownPair_closing known] at same
      obtain rfl := BoxHistory.eq_of_id member isLast.2.1 same
      exact opens opening isLast
  obtain ⟨rfl, _⟩ | ⟨_, metered⟩ := metering
  · exact ⟨nextSound, paired, ordered.finalized⟩
  obtain rfl | ⟨unfinalized, usage, inserted, isMetered⟩ :=
    meter_cases pairedSound isFixed rfl metered
  · exact ⟨nextSound, paired, ordered.finalized⟩
  obtain ⟨opening, isOpening⟩ := isExecution unfinalized
  have opened := opens opening isOpening
  obtain ⟨other, isOther, sameId, started⟩ := knownPair_opening ordered.toBoxSound known
  obtain rfl := BoxHistory.eq_of_id isOther isOpening.1 (sameId.symm.trans opened)
  obtain ⟨_, _, finalizations⟩ := isMetered.entries pairedSound.tables unfinalized
  have execution : (account.evidence delivery.event pair).providerExecutionId =
      some other.executionId := by
    rw [evidence, executionId, opened, history.ofBox _ member, history.ofBox _ isOther]
  refine ⟨nextSound, ?_, ?_⟩
  · rw [(isMetered.kept pairedSound.tables.sound).2]
    exact paired
  rw [finalizations]
  intro row isRow
  rcases mem_concat.mp isRow with old | rfl
  · obtain ⟨first, last, isFirst, sameEvent, sameExecution, after, interval⟩ :=
      ordered.finalized row old
    refine ⟨first, last, isFirst, sameEvent, sameExecution, after, ?_⟩
    have different : (account.evidence delivery.event pair).providerExecutionId ≠
        some first.executionId := by
      intro same
      exact execution_ne_of_unfinalized unfinalized old (ordered.provider row old)
        (sameExecution.trans same.symm)
    rw [isMetered.executionInterval_other pairedSound.tables unfinalized different]
    exact interval
  · refine ⟨other, delivery.event, isOpening, rfl, execution, isMetered.after, ?_⟩
    have interval := isMetered.executionInterval pairedSound.tables unfinalized
      execution pairedSound.provider
    rw [interval, evidence, started]

theorem boxOrdered_of_reachable
    (reachable : (account.system.restrict (InTurn history)).Reachable store) :
    BoxOrdered account store := by
  have initial : BoxOrdered account (account.system.restrict (InTurn history)).init :=
    ⟨init_boxSound, forall_mem_nil _, forall_mem_nil _⟩
  refine reachable.invariant initial fun _ _ _ _ ordered stepped => ?_
  obtain ⟨inTurn, taken⟩ := TransitionSystem.restrict_step.mp stepped
  exact step_boxOrdered ordered inTurn taken

structure Later (store next : BillingStore) : Prop where
  events : store.events ⊆ next.events
  finalizations : store.finalizations ⊆ next.finalizations

variable {event : BoxLifecycleEvent}

theorem recorded_mem (sound : BoxSound account store) (member : event ∈ history.events) :
    event.row ∈ (store.recordProviderEvent event.row).2.events := by
  rw [recordProviderEvent, Table.insertNew]
  split
  · rename_i conflict
    obtain ⟨row, isRow, same⟩ := any_eq_true.mp conflict
    obtain ⟨other, isOther, rfl⟩ := sound.events row isRow
    rw [Bool.and_eq_true, decide_eq_true_eq, decide_eq_true_eq] at same
    rw [← BoxHistory.eq_of_id isOther member same.2]
    exact isRow
  · exact mem_append_right _ mem_cons_self

theorem step_later (sound : BoxSound account store)
    (stepped : account.step store delivery = some next) :
    Later store next ∧ delivery.event.row ∈ next.events := by
  obtain ⟨member, isFixed, recorded, rfl, cases_⟩ := step_cases stepped
  have recordedSound := recordProviderEvent_boxSound sound member
  have grown : store.events ⊆ (store.recordProviderEvent delivery.event.row).2.events :=
    Table.insertNew_subset
  have isRecorded := recorded_mem sound member
  have kept : Later store (store.recordProviderEvent delivery.event.row).2 :=
    ⟨grown, List.Subset.refl _⟩
  obtain ⟨rfl, _⟩ | ⟨_, pair, pairs, known, added, metering⟩ := cases_
  · exact ⟨kept, isRecorded⟩
  have pairedSound := pairs_boxSound recordedSound known added
  obtain ⟨rfl, _⟩ | ⟨_, metered⟩ := metering
  · exact ⟨⟨grown, List.Subset.refl _⟩, isRecorded⟩
  obtain rfl | ⟨unfinalized, usage, inserted, isMetered⟩ :=
    meter_cases pairedSound isFixed rfl metered
  · exact ⟨⟨grown, List.Subset.refl _⟩, isRecorded⟩
  obtain ⟨_, _, finalizations⟩ := isMetered.entries pairedSound.tables unfinalized
  have events := (isMetered.kept pairedSound.tables.sound).1
  refine ⟨⟨?_, ?_⟩, ?_⟩
  · rw [events]
    exact grown
  · rw [finalizations]
    exact subset_append_left _ _
  · rw [events]
    exact isRecorded

variable {opening : BoxLifecycleEvent}

theorem knownPair_isSome (member : opening.row ∈ store.events)
    (sameBox : opening.boxId = event.boxId) (opens : opening.type = openingEventType)
    (timed : opening.occurredAtMs = some opening.timeMs) (before : opening.timeMs ≤ event.timeMs) :
    ∃ pair, knownPair store event = some pair := by
  have isOpening : opening.row.isOpening .box event.boxId openingEventType event.timeMs =
      true := by
    simp [ProviderEvent.isOpening, row, sameBox, opens, timed, before]
  obtain ⟨latest, isLatest⟩ :=
    Option.isSome_iff_exists.mp (latestOpening_isSome member isOpening)
  rw [knownPair, lifecyclePair, isLatest]
  exact ⟨_, rfl⟩

variable (account) in
theorem segmentCost_ok (delivery : BoxDelivery) (pair : LifecyclePair)
    (segmentStart segmentEnd : Int) :
    ∃ cost, (account.evidence delivery.event pair).segmentCost
      (account.meteringContext delivery) segmentStart segmentEnd = .ok cost := by
  obtain ⟨cost, reported, safe, nonneg⟩ :=
    account.costs delivery.event.boxId segmentStart segmentEnd
  refine ⟨cost.toNat, ?_⟩
  simp [segmentCost, meteringContext, reported, safe, nonneg]

theorem step_finalizes (ordered : BoxOrdered account store) (inTurn : InTurn history store delivery)
    (stepped : account.step store delivery = some next) (due : delivery.isDue)
    (isExecution : history.IsExecution opening delivery.event) (known : opening.row ∈ store.events)
    (after : account.cutoverAtMs < delivery.event.timeMs) :
    ∃ row ∈ next.finalizations, row.providerExecutionId = some opening.executionId := by
  have nextOrdered := step_boxOrdered ordered inTurn stepped
  have ⟨isOpening, member, opens, closing, before, _⟩ := isExecution
  obtain ⟨timed, safe⟩ := history.timed opening isOpening
  obtain ⟨pair, isPair⟩ := knownPair_isSome known
    ((history.ofBox opening isOpening).trans (history.ofBox _ member).symm) opens timed before.le
  have opened := (inTurn.opening closing isPair).1 opening isExecution
  obtain ⟨other, isOther, sameId, started⟩ := knownPair_opening ordered.toBoxSound isPair
  obtain rfl := BoxHistory.eq_of_id isOther isOpening (sameId.symm.trans opened)
  obtain ⟨_, isFixed, recorded, rfl, cases_⟩ := step_cases stepped
  have recordedSound := recordProviderEvent_boxSound ordered.toBoxSound member
  rw [knownPair_recorded closing, isPair] at cases_
  obtain ⟨_, absent⟩ | ⟨_, found, pairs, sameFound, added, metering⟩ := cases_
  · cases absent closing
  cases sameFound
  obtain ⟨_, late⟩ | ⟨_, rfl⟩ := metering
  · rw [started] at late
    exact absurd before (not_lt.mpr late)
  have pairedSound :=
    pairs_boxSound recordedSound ((knownPair_recorded closing).trans isPair) added
  obtain ⟨period, ensured⟩ := isFixed_ensured isFixed pairedSound.periods
  have valid : (account.evidence delivery.event pair).isValid delivery.nowMs = true := by
    obtain ⟨safeCpu, cpu, safeMemory, memory⟩ := account.sized
    have endSafe := (history.timed delivery.event member).2
    simp only [isValid, evidence, started, safe, endSafe, before,
      safeCpu, cpu, safeMemory, memory, decide_true, Bool.and_self, Bool.true_and,
      decide_eq_true_eq]
    exact due
  have covers := account.covered other isOther delivery.event member before after
  rw [← started] at covers
  rw [periodsOverlapping_congr
    (show account.periods = store.periods from ordered.periods.symm)] at covers
  have resourceKnown : (account.meteringContext delivery).workspace.or
      (account.meteringContext delivery).build = some account.resource := account.metered
  have finalized := meterProviderExecution_finalizes pairedSound.tables
    resourceKnown account.owned account.hosted ensured valid account.cutover after covers
    (segmentCost_ok account delivery pair)
    ⟨delivery.event.row, recorded_mem ordered.toBoxSound member, rfl, rfl⟩
  obtain ⟨row, isRow, matched⟩ := any_eq_true.mp finalized
  simp only [Bool.and_eq_true, Bool.or_eq_true, decide_eq_true_eq] at matched
  obtain ⟨first, last, isFirst, sameEvent, execution, _⟩ := nextOrdered.finalized row isRow
  refine ⟨row, isRow, ?_⟩
  rcases matched.2 with isEvent | ⟨_, isExecution_⟩
  · have isLast := BoxHistory.eq_of_id isFirst.2.1 member (sameEvent.symm.trans isEvent)
    rw [isLast] at isFirst
    rw [execution, isFirst.opening_unique isExecution]
  · rw [isExecution_, evidence, executionId, opened,
      history.ofBox _ member, history.ofBox _ isOther]

variable {last : BillingStore}

theorem Later.trans {middle : BillingStore} (first : Later store middle)
    (second : Later middle last) : Later store last :=
  ⟨List.Subset.trans first.events second.events,
    List.Subset.trans first.finalizations second.finalizations⟩

section

variable (ordered : BoxOrdered account store)
  (ran : (account.system.restrict (InTurn history)).runFrom store deliveries = some last)
include ordered ran

theorem runFrom_later :
    BoxOrdered account last ∧ Later store last ∧
      ∀ delivery ∈ deliveries, delivery.event.row ∈ last.events := by
  induction deliveries generalizing store with
  | nil =>
    cases ran
    exact ⟨ordered, ⟨List.Subset.refl _, List.Subset.refl _⟩, forall_mem_nil _⟩
  | cons delivery rest ih =>
    obtain ⟨next, stepped, remaining⟩ := Option.bind_eq_some_iff.mp ran
    obtain ⟨inTurn, taken⟩ := TransitionSystem.restrict_step.mp stepped
    obtain ⟨later, delivered⟩ := step_later ordered.toBoxSound taken
    obtain ⟨lastOrdered, grown, others⟩ := ih (step_boxOrdered ordered inTurn taken) remaining
    exact ⟨lastOrdered, later.trans grown, forall_mem_cons.mpr ⟨grown.events delivered, others⟩⟩

theorem runFrom_finalizes (isExecution : history.IsExecution opening closing)
    (known : opening.row ∈ store.events) (after : account.cutoverAtMs < closing.timeMs)
    (delivered : ∃ delivery ∈ deliveries, delivery.event = closing ∧ delivery.isDue) :
    ∃ row ∈ last.finalizations, row.providerExecutionId = some opening.executionId := by
  induction deliveries generalizing store with
  | nil =>
    obtain ⟨_, member, _⟩ := delivered
    cases member
  | cons first rest ih =>
    obtain ⟨next, stepped, remaining⟩ := Option.bind_eq_some_iff.mp ran
    obtain ⟨inTurn, taken⟩ := TransitionSystem.restrict_step.mp stepped
    have nextOrdered := step_boxOrdered ordered inTurn taken
    have later := (step_later ordered.toBoxSound taken).1
    obtain ⟨delivery, member, rfl, due⟩ := delivered
    rcases mem_cons.mp member with rfl | isLater
    · obtain ⟨row, isRow, execution⟩ :=
        step_finalizes ordered inTurn taken due isExecution known after
      obtain ⟨_, grown, _⟩ := runFrom_later nextOrdered remaining
      exact ⟨row, grown.finalizations isRow, execution⟩
    · exact ih nextOrdered remaining (later.events known) ⟨delivery, isLater, rfl, due⟩

end

end BoxAccount

def BillingStore.IsMetered (store : BillingStore) (executionId : String)
    (interval : Set Int) : Prop :=
  (∃ row ∈ store.finalizations, row.providerExecutionId = some executionId) ∧
    store.executionInterval executionId = interval

namespace BoxAccount

variable {history : BoxHistory}

/-- No opening is metered twice. Where every delivery is in turn, each opening is metered
up to the closing right after it once all events and then all closings were delivered. -/
theorem metered_of_delivered (account : BoxAccount history) :
    (∀ store, account.system.Reachable store →
      (store.finalizations.map (·.providerExecutionId)).Nodup) ∧
    ∀ (deliveries redeliveries : List BoxDelivery) (middle last : BillingStore),
      (account.system.restrict (InTurn history)).run deliveries = some middle →
      (account.system.restrict (InTurn history)).runFrom middle redeliveries = some last →
      (∀ event ∈ history.events, ∃ delivery ∈ deliveries, delivery.event = event) →
      (∀ event ∈ history.events, event.isClosing = true →
        ∃ delivery ∈ redeliveries, delivery.event = event ∧ delivery.isDue) →
      ∀ executionId interval, last.IsMetered executionId interval ↔
        ∃ opening closing, history.IsExecution opening closing ∧
          account.cutoverAtMs < closing.timeMs ∧ executionId = opening.executionId ∧
            interval = Set.Ico (max opening.timeMs account.cutoverAtMs) closing.timeMs := by
  refine ⟨fun store reachable => (boxSound_of_reachable reachable).once, ?_⟩
  intro deliveries redeliveries middle last ran reran delivered redelivered executionId interval
  have initial : BoxOrdered account (account.system.restrict (InTurn history)).init :=
    boxOrdered_of_reachable .init
  obtain ⟨middleOrdered, _, stored⟩ := runFrom_later initial ran
  obtain ⟨lastOrdered, _, _⟩ := runFrom_later middleOrdered reran
  constructor
  · rintro ⟨⟨row, isRow, isExecution⟩, rfl⟩
    obtain ⟨opening, closing, between, _, execution, after, billed⟩ :=
      lastOrdered.finalized row isRow
    obtain rfl := Option.some.inj (isExecution.symm.trans execution)
    exact ⟨opening, closing, between, after, rfl, billed⟩
  rintro ⟨opening, closing, between, after, rfl, rfl⟩
  obtain ⟨delivery, member, isOpening⟩ := delivered opening between.1
  have known : opening.row ∈ middle.events := by
    rw [← isOpening]
    exact stored delivery member
  obtain ⟨row, isRow, execution⟩ := runFrom_finalizes middleOrdered reran between known after
    (redelivered closing between.2.1 between.2.2.2.1)
  refine ⟨⟨row, isRow, execution⟩, ?_⟩
  obtain ⟨first, second, isFirst, _, sameExecution, _, billed⟩ :=
    lastOrdered.finalized row isRow
  have same := BoxHistory.executionId_injective isFirst.1 between.1
    (Option.some.inj (sameExecution.symm.trans execution))
  subst same
  rw [isFirst.closing_unique between] at billed
  exact billed

def reopenedEvent (id type : String) (day : Int) : BoxLifecycleEvent where
  id
  type
  occurredAtMs := some (day * dayMs)
  boxId := "bx"

def reopenedEvents : List BoxLifecycleEvent :=
  [reopenedEvent "r1" "box.ready" 1, reopenedEvent "a1" "box.archived" 2,
    reopenedEvent "r2" "box.ready" 3, reopenedEvent "a2" "box.archived" 4]

def reopenedHistory : BoxHistory where
  boxId := "bx"
  events := reopenedEvents
  ofBox := by decide
  timed := by decide
  ids := by decide
  times := by decide

def monthEntitlement : Entitlement where
  offerId := some cloudWorkspaceOfferId
  provider := "polar"
  providerSubscriptionId := none
  status := .active
  periodStartMs := some 0
  paidThroughMs := some (31 * dayMs)

def monthPeriod : BillingPeriod where
  periodId := "cloud:account:0"
  accountId := "account"
  providerSubscriptionId := none
  billingProvider := "polar"
  status := .active
  periodStartMs := 0
  periodEndMs := 31 * dayMs
  policy := defaultCloudBillingPolicy
  overageCapMicros := defaultOverageCapMicros

def reopenedResource : MeteredResource where
  accountId := "account"
  providerConnectionId := none

def reopenedAdapter : BoxAdapter where
  vcpuCount := 2
  memoryMib := 2048
  getUsage := some fun _ _ _ => some 5

def reopenedAccount : BoxAccount reopenedHistory where
  accountId := "account"
  context :=
    { workspace := some ("workspace", reopenedResource)
      build := none
      adapter := some reopenedAdapter
      metering :=
        { workspace := some reopenedResource
          build := none
          entitlements := []
          providerCutoverAtMs := []
          cutoverAtMs := some 0
          schedule := []
          reportedCost := none } }
  internalResourceId := "workspace"
  resource := reopenedResource
  adapter := reopenedAdapter
  getUsage := fun _ _ _ => some 5
  cutoverAtMs := 0
  periods := [monthPeriod]
  found := rfl
  metered := rfl
  owned := rfl
  hosted := rfl
  adapted := rfl
  sized := by decide
  reports := rfl
  costs := fun _ _ _ => ⟨5, rfl, by decide, by decide⟩
  cutover := rfl
  ofAccount := by
    intro period member
    rw [mem_singleton.mp member]
    exact ⟨rfl, by decide +kernel⟩
  distinct := nodup_singleton _
  covered := by decide +kernel

def reopenedDelivery (event : BoxLifecycleEvent) : BoxDelivery where
  event
  entitlements := [monthEntitlement]
  nowMs := 10 * dayMs

def orderedDeliveries : List BoxDelivery := reopenedEvents.map reopenedDelivery

def overtakenDeliveries : List BoxDelivery :=
  [reopenedEvent "r1" "box.ready" 1, reopenedEvent "a2" "box.archived" 4,
    reopenedEvent "a1" "box.archived" 2, reopenedEvent "r2" "box.ready" 3].map reopenedDelivery

def closingRedeliveries : List BoxDelivery :=
  [reopenedEvent "a1" "box.archived" 2, reopenedEvent "a2" "box.archived" 4].map reopenedDelivery

theorem reopened_delivered (same : deliveries.Perm orderedDeliveries) :
    ∀ event ∈ reopenedHistory.events, ∃ delivery ∈ deliveries, delivery.event = event := by
  intro event member
  exact ⟨reopenedDelivery event, same.mem_iff.mpr (mem_map_of_mem member), rfl⟩

theorem reopened_redelivered :
    ∀ event ∈ reopenedHistory.events, event.isClosing = true →
      ∃ delivery ∈ closingRedeliveries, delivery.event = event ∧ delivery.isDue := by
  unfold BoxDelivery.isDue
  decide

theorem metered_of_orderedDeliveries :
    ∃ middle last,
      (reopenedAccount.system.restrict (InTurn reopenedHistory)).run orderedDeliveries =
        some middle ∧
      (reopenedAccount.system.restrict (InTurn reopenedHistory)).runFrom middle
        closingRedeliveries = some last ∧
      ∀ executionId interval, last.IsMetered executionId interval ↔
        ∃ opening closing, reopenedHistory.IsExecution opening closing ∧
          reopenedAccount.cutoverAtMs < closing.timeMs ∧ executionId = opening.executionId ∧
            interval = Set.Ico (max opening.timeMs reopenedAccount.cutoverAtMs) closing.timeMs := by
  have runs : (((reopenedAccount.system.restrict (InTurn reopenedHistory)).run
      orderedDeliveries).any fun middle =>
        ((reopenedAccount.system.restrict (InTurn reopenedHistory)).runFrom middle
          closingRedeliveries).isSome) = true := by decide +kernel
  obtain ⟨middle, ran, resumes⟩ := (Option.any_eq_true _ _).mp runs
  obtain ⟨last, reran⟩ := Option.isSome_iff_exists.mp resumes
  exact ⟨middle, last, ran, reran, (metered_of_delivered reopenedAccount).2 _ _ middle last ran
    reran (reopened_delivered (.refl _)) reopened_redelivered⟩

theorem not_metered_of_overtaken :
    ¬∀ (history : BoxHistory) (account : BoxAccount history)
      (first second redeliveries : List BoxDelivery) (firstLast secondLast : BillingStore),
      account.system.run (first ++ redeliveries) = some firstLast →
        account.system.run (second ++ redeliveries) = some secondLast →
        (∀ event ∈ history.events, ∃ delivery ∈ first, delivery.event = event) →
        (∀ event ∈ history.events, ∃ delivery ∈ second, delivery.event = event) →
        (∀ event ∈ history.events, event.isClosing = true →
          ∃ delivery ∈ redeliveries, delivery.event = event ∧ delivery.isDue) →
        ∀ executionId interval, firstLast.IsMetered executionId interval ↔
          secondLast.IsMetered executionId interval := by
  intro independent
  have firstRuns : ((reopenedAccount.system.run
      (orderedDeliveries ++ closingRedeliveries)).any fun store =>
        (store.finalizations.map (·.providerExecutionId)).contains (some "bx:r2")) = true := by
    decide +kernel
  have secondRuns : ((reopenedAccount.system.run
      (overtakenDeliveries ++ closingRedeliveries)).any fun store =>
        !(store.finalizations.map (·.providerExecutionId)).contains (some "bx:r2")) = true := by
    decide +kernel
  obtain ⟨first, firstRan, metered⟩ := (Option.any_eq_true _ _).mp firstRuns
  obtain ⟨second, secondRan, unmetered⟩ := (Option.any_eq_true _ _).mp secondRuns
  rw [contains_iff_mem, mem_map] at metered
  rw [Bool.not_eq_true', ← Bool.not_eq_true, contains_iff_mem, mem_map] at unmetered
  have overtaken : overtakenDeliveries.Perm orderedDeliveries :=
    List.Perm.map _ (by decide)
  have same := independent reopenedHistory reopenedAccount orderedDeliveries
    overtakenDeliveries closingRedeliveries first second firstRan secondRan
    (reopened_delivered (.refl _)) (reopened_delivered overtaken) reopened_redelivered "bx:r2"
    (first.executionInterval "bx:r2")
  exact unmetered (same.mp ⟨metered, rfl⟩).1

end BoxAccount

end Zuse.Billing
