import Zuse.Data.Table
import Zuse.Billing.CloudBilling

namespace Zuse.Billing

open Zuse.Data

/-! The tables of the billing store and its calls, each of which is one transaction. A call
that throws is `none` and leaves the tables as they were. -/

inductive UsageProvider where
  | e2b
  | box
  | boxd
  deriving DecidableEq

def UsageProvider.text : UsageProvider → String
  | e2b => "e2b"
  | box => "box"
  | boxd => "boxd"

theorem UsageProvider.text_colonFree (provider : UsageProvider) : ':' ∉ provider.text.toList := by
  cases provider <;> decide

inductive ResourceKind where
  | workspace
  | build
  | other
  | snapshot
  deriving DecidableEq

structure BillingPeriod where
  periodId : String
  accountId : String
  providerSubscriptionId : Option String
  billingProvider : String
  status : CloudBillingStatus
  periodStartMs : Int
  periodEndMs : Int
  policy : CloudBillingPolicy
  overageCapMicros : Nat
  deriving DecidableEq

structure ProviderEvent where
  provider : UsageProvider
  eventId : String
  type : String
  providerResourceId : Option String
  occurredAtMs : Option Int

/-- Its writers name a usage entry by its provider and its provider event. -/
structure UsageRecord where
  provider : UsageProvider
  providerEventId : String
  providerExecutionId : Option String
  periodId : String
  accountId : String
  resourceKind : ResourceKind
  resourceId : String
  startedAt : Int
  endedAt : Int
  vcpuCount : Nat
  memoryMib : Nat
  providerCostMicros : Nat
  deriving DecidableEq

def UsageRecord.entryId (usage : UsageRecord) : String :=
  usage.provider.text ++ ":" ++ usage.providerEventId

inductive LedgerKind where
  | providerCost
  | includedAllowance
  | overageProviderCost
  | overageCharge
  | markup
  | manualEntitlementCredit
  | overshootAbsorbed
  deriving DecidableEq

def LedgerKind.text : LedgerKind → String
  | providerCost => "provider-cost"
  | includedAllowance => "included-allowance"
  | overageProviderCost => "overage-provider-cost"
  | overageCharge => "overage-charge"
  | markup => "markup"
  | manualEntitlementCredit => "manual-entitlement-credit"
  | overshootAbsorbed => "overshoot-absorbed"

structure LedgerEntry where
  entryId : String
  periodId : String
  kind : LedgerKind
  amountMicros : Micros
  sourceId : String

structure OutboxEntry where
  outboxId : String
  periodId : String
  provider : String
  amountCents : Int
  idempotencyKey : String

structure Finalization where
  provider : UsageProvider
  eventId : String
  providerExecutionId : Option String

structure CapCommand where
  periodId : String
  idempotencyKey : String
  overageCapMicros : Nat

structure LifecyclePair where
  provider : UsageProvider
  closingEventId : String
  openingEventId : String
  startedAtMs : Int

structure BillingStore where
  events : List ProviderEvent
  pairs : List LifecyclePair
  periods : List BillingPeriod
  usage : List UsageRecord
  ledger : List LedgerEntry
  outbox : List OutboxEntry
  finalizations : List Finalization
  capCommands : List CapCommand

def UsageRecord.conflicts (stored row : UsageRecord) : Bool :=
  stored.entryId = row.entryId ||
    (stored.provider = row.provider && stored.providerEventId = row.providerEventId) ||
    (stored.provider = row.provider && row.providerExecutionId.isSome &&
      stored.providerExecutionId = row.providerExecutionId &&
      stored.periodId = row.periodId)

def LedgerEntry.conflicts (stored row : LedgerEntry) : Bool :=
  stored.entryId = row.entryId || stored.kind = row.kind && stored.sourceId = row.sourceId

def OutboxEntry.conflicts (stored row : OutboxEntry) : Bool :=
  stored.outboxId = row.outboxId ||
    stored.provider = row.provider && stored.idempotencyKey = row.idempotencyKey

namespace BillingStore

variable (store : BillingStore)

def empty : BillingStore where
  events := []
  pairs := []
  periods := []
  usage := []
  ledger := []
  outbox := []
  finalizations := []
  capCommands := []

def period? (periodId : String) : Option BillingPeriod :=
  store.periods.find? fun period => period.periodId = periodId

def updatePeriod (periodId : String) (update : BillingPeriod → BillingPeriod) : BillingStore :=
  { store with
    periods := store.periods.map fun period =>
      if period.periodId = periodId then update period else period }

def periodsOverlapping (accountId : String) (startedAtMs endedAtMs : Int) :
    List BillingPeriod :=
  (store.periods.filter fun period =>
    period.accountId = accountId && period.periodStartMs < endedAtMs &&
      startedAtMs < period.periodEndMs).insertionSort
    fun left right => left.periodStartMs ≤ right.periodStartMs

/-- The arguments of `ensurePeriod`. -/
structure PeriodInput where
  periodId : String
  accountId : String
  providerSubscriptionId : Option String
  billingProvider : String
  status : CloudBillingStatus
  periodStartMs : Int
  periodEndMs : Int
  overageCapMicros : Option Nat

def previousCap (accountId : String) (periodStartMs : Int) : Option Nat :=
  let earlier := store.periods.filter fun period =>
    period.accountId = accountId && period.periodStartMs < periodStartMs
  ((earlier.insertionSort fun left right =>
    right.periodStartMs ≤ left.periodStartMs).head?).map (·.overageCapMicros)

def ensurePeriod (input : PeriodInput) : Option (BillingPeriod × BillingStore) :=
  let existing := store.periods.find? fun period =>
    period.accountId = input.accountId && period.periodStartMs = input.periodStartMs
  match existing with
  | some period =>
    if period.billingProvider = input.billingProvider &&
        (period.providerSubscriptionId.isNone ||
          period.providerSubscriptionId = input.providerSubscriptionId) then
      let updated := { period with
        status := input.status
        periodEndMs := input.periodEndMs
        providerSubscriptionId := input.providerSubscriptionId }
      some (updated, store.updatePeriod period.periodId fun _ => updated)
    else none
  | none =>
    if (store.period? input.periodId).isSome then none
    else
      let period : BillingPeriod :=
        { periodId := input.periodId
          accountId := input.accountId
          providerSubscriptionId := input.providerSubscriptionId
          billingProvider := input.billingProvider
          status := input.status
          periodStartMs := input.periodStartMs
          periodEndMs := input.periodEndMs
          policy := defaultCloudBillingPolicy
          overageCapMicros :=
            (input.overageCapMicros.or
              (store.previousCap input.accountId input.periodStartMs)).getD
                defaultOverageCapMicros }
      some (period, { store with periods := store.periods ++ [period] })

def ledgerTotal (periodId : String) (kind : LedgerKind) : Micros :=
  Table.total (fun entry : LedgerEntry => entry.periodId = periodId && entry.kind = kind)
    (·.amountMicros) store.ledger

def outboxTotal (periodId : String) : Int :=
  Table.total (fun entry : OutboxEntry => entry.periodId = periodId) (·.amountCents) store.outbox

inductive CapResult where
  | updated
  | idempotencyConflict
  | belowIncurred

def setCap (periodId : String) (capMicros : Nat) (idempotencyKey : String) :
    Option (CapResult × BillingStore) :=
  let command := store.capCommands.find? fun command =>
    command.periodId = periodId && command.idempotencyKey = idempotencyKey
  match command with
  | some command =>
    if command.overageCapMicros ≠ capMicros then some (.idempotencyConflict, store)
    else (store.period? periodId).map fun _ => (.updated, store)
  | none =>
    if (capMicros : Int) < store.ledgerTotal periodId .overageCharge then
      some (.belowIncurred, store)
    else
      let recorded : BillingStore := { store with
        capCommands := store.capCommands ++
          [{ periodId, idempotencyKey, overageCapMicros := capMicros }] }
      (store.period? periodId).map fun _ =>
        (.updated, recorded.updatePeriod periodId fun period =>
          { period with overageCapMicros := capMicros })

def recordProviderEvent (event : ProviderEvent) : Bool × BillingStore :=
  let inserted := Table.insertNew (fun stored row : ProviderEvent =>
    stored.provider = row.provider && stored.eventId = row.eventId) store.events event
  (inserted.1, { store with events := inserted.2 })

def isProviderEventFinalized (provider : UsageProvider) (eventId : String)
    (providerExecutionId : Option String) : Bool :=
  store.finalizations.any fun row =>
    row.provider = provider &&
      (row.eventId = eventId ||
        providerExecutionId.isSome && row.providerExecutionId = providerExecutionId)

def insertLedger (entry : LedgerEntry) : BillingStore :=
  { store with ledger := (Table.insertNew LedgerEntry.conflicts store.ledger entry).2 }

def insertFinancial (usage : UsageRecord) (kind : LedgerKind) (amount : Micros) :
    BillingStore :=
  if amount = 0 then store
  else
    store.insertLedger
      { entryId := "ledger:" ++ kind.text ++ ":" ++ usage.entryId
        periodId := usage.periodId
        kind
        amountMicros := amount
        sourceId := usage.entryId }

def costEntry (usage : UsageRecord) : LedgerEntry where
  entryId := "ledger:" ++ usage.entryId
  periodId := usage.periodId
  kind := .providerCost
  amountMicros := usage.providerCostMicros
  sourceId := usage.entryId

def absorbedKind (status : CloudBillingStatus) : LedgerKind :=
  if status = .manual then .manualEntitlementCredit else .overshootAbsorbed

def exportCharge (period : BillingPeriod) : BillingStore :=
  let targetCents := customerOverageCents (store.ledgerTotal period.periodId .overageCharge)
  let deltaCents := targetCents - store.outboxTotal period.periodId
  if deltaCents = 0 then store
  else
    let sequence :=
      (store.outbox.filter fun entry => entry.periodId = period.periodId).length + 1
    let entry : OutboxEntry :=
      { outboxId := "outbox:" ++ period.periodId ++ ":" ++ toString sequence
        periodId := period.periodId
        provider := period.billingProvider
        amountCents := deltaCents
        idempotencyKey := period.periodId ++ ":" ++ toString sequence }
    { store with outbox := (Table.insertNew OutboxEntry.conflicts store.outbox entry).2 }

def insertDeltas (usage : UsageRecord) (status : CloudBillingStatus)
    (deltas : CloudBillingLedgerDeltas) : BillingStore :=
  store
    |>.insertFinancial usage .includedAllowance deltas.includedAllowanceMicros
    |>.insertFinancial usage .overageProviderCost deltas.overageProviderCostMicros
    |>.insertFinancial usage .overageCharge deltas.overageChargeMicros
    |>.insertFinancial usage .markup deltas.markupMicros
    |>.insertFinancial usage (absorbedKind status) deltas.absorbedMicros

/-- One turn of the loop over a batch, and whether it recorded the entry. -/
def recordUsage (usage : UsageRecord) : Option (Bool × BillingStore) :=
  (store.period? usage.periodId).map fun period =>
    let deltas := calculateCloudBillingLedgerDeltas (store.ledgerTotal usage.periodId .providerCost)
      (store.ledgerTotal usage.periodId .overageCharge)
      usage.providerCostMicros period.overageCapMicros (period.status = .manual)
      period.policy
    let inserted := Table.insertNew UsageRecord.conflicts store.usage usage
    if inserted.1 then
      let recorded : BillingStore := { store with usage := inserted.2 }
      (true,
        ((recorded.insertLedger (costEntry usage)).insertDeltas usage period.status
          deltas).exportCharge period)
    else (false, store)

def recordUsages (store : BillingStore) (metered : Bool) :
    List UsageRecord → Option (Bool × BillingStore)
  | [] => some (metered, store)
  | usage :: rest =>
    (store.recordUsage usage).bind fun recorded =>
      recordUsages recorded.2 (metered || recorded.1) rest

structure ExecutionBatch where
  provider : UsageProvider
  eventId : String
  providerExecutionId : Option String
  usage : List UsageRecord

def ExecutionBatch.isValid (batch : ExecutionBatch) : Bool :=
  !batch.usage.isEmpty && batch.usage.all fun item =>
    item.provider = batch.provider && item.providerExecutionId = batch.providerExecutionId

def recordProviderExecutionBatch (batch : ExecutionBatch) : Option (Bool × BillingStore) :=
  if !batch.isValid then none
  else if !store.events.any fun event =>
      event.provider = batch.provider && event.eventId = batch.eventId then none
  else if store.isProviderEventFinalized batch.provider batch.eventId
      batch.providerExecutionId then some (false, store)
  else
    (store.recordUsages false batch.usage).map fun recorded =>
      (recorded.1,
        { recorded.2 with
          finalizations := recorded.2.finalizations ++
            [{ provider := batch.provider
               eventId := batch.eventId
               providerExecutionId := batch.providerExecutionId }] })

end BillingStore

end Zuse.Billing
