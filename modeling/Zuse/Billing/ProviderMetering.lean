import Zuse.Billing.BillingStore
import Zuse.Data.Doubles

namespace Zuse.Billing

open Zuse.Data

/-! Billing periods of an account, and the metering of one provider execution. -/

/-- `Number.isSafeInteger` of an integer. -/
def isSafeInteger (value : Int) : Bool :=
  -9007199254740991 ≤ value && value ≤ 9007199254740991

/-! Calendar months. Days are counted from the first of January 1970, and years are cut
in March so that the leap day ends them. -/

def dayMs : Int := 24 * 60 * 60 * 1000

def monthOfDay (day : Int) : Int × Int :=
  let shifted := day + 719468
  let era := shifted / 146097
  let dayOfEra := shifted - era * 146097
  let yearOfEra :=
    (dayOfEra - dayOfEra / 1460 + dayOfEra / 36524 - dayOfEra / 146096) / 365
  let dayOfYear := dayOfEra - (365 * yearOfEra + yearOfEra / 4 - yearOfEra / 100)
  let marchMonth := (5 * dayOfYear + 2) / 153
  let month := if marchMonth < 10 then marchMonth + 3 else marchMonth - 9
  (yearOfEra + era * 400 + (if month ≤ 2 then 1 else 0), month)

def firstDay (year month : Int) : Int :=
  let carried := if 12 < month then (year + 1, month - 12) else (year, month)
  let shifted := if carried.2 ≤ 2 then carried.1 - 1 else carried.1
  let era := shifted / 400
  let yearOfEra := shifted - era * 400
  let marchMonth := if 2 < carried.2 then carried.2 - 3 else carried.2 + 9
  let dayOfYear := (153 * marchMonth + 2) / 5
  let dayOfEra := yearOfEra * 365 + yearOfEra / 4 - yearOfEra / 100 + dayOfYear
  era * 146097 + dayOfEra - 719468

def calendarBillingPeriod (nowMs : Int) : Int × Int :=
  let month := monthOfDay (nowMs / dayMs)
  (firstDay month.1 month.2 * dayMs, firstDay month.1 (month.2 + 1) * dayMs)

example : calendarBillingPeriod (59 * dayMs) = (59 * dayMs, 90 * dayMs) := by decide

inductive EntitlementStatus where
  | pending
  | active
  | grace
  | ended
  deriving DecidableEq

structure Entitlement where
  offerId : Option String
  provider : String
  providerSubscriptionId : Option String
  status : EntitlementStatus
  periodStartMs : Option Int
  paidThroughMs : Option Int
  deriving DecidableEq

def cloudWorkspaceOfferId : String := "cloud-workspace-standard-v1"

def cloudBillingPeriodStatus (provider : String) (subscriptionStatus : EntitlementStatus)
    (paidThroughMs : Option Int) (nowMs : Int) : CloudBillingStatus :=
  if provider = "manual" then .manual
  else if subscriptionStatus = .pending ∨ subscriptionStatus = .grace then .billingHold
  else if subscriptionStatus = .ended ∧ paidThroughMs.getD 0 ≤ nowMs then .ended
  else .active

def billedEntitlement (entitlements : List Entitlement) (nowMs : Int) : Option Entitlement :=
  entitlements.find? fun item =>
    item.offerId = some cloudWorkspaceOfferId && item.paidThroughMs.all fun through =>
      nowMs < through

namespace Entitlement

variable (entitlement : Entitlement) (nowMs : Int)

def billedFrom : Int :=
  entitlement.periodStartMs.getD (calendarBillingPeriod nowMs).1

def billedUntil : Int :=
  entitlement.paidThroughMs.getD (calendarBillingPeriod nowMs).2

end Entitlement

def accountPeriodId (accountId : String) (periodStartMs : Int) : String :=
  "cloud:" ++ accountId ++ ":" ++ toString periodStartMs

namespace BillingStore

variable (store : BillingStore)

def ensureCloudBillingPeriod (accountId : String) (entitlement : Entitlement)
    (periodStartMs periodEndMs nowMs : Int) : Option (BillingPeriod × BillingStore) :=
  store.ensurePeriod
    { periodId := accountPeriodId accountId periodStartMs
      accountId
      providerSubscriptionId := entitlement.providerSubscriptionId
      billingProvider := entitlement.provider
      status := cloudBillingPeriodStatus entitlement.provider entitlement.status
        (some periodEndMs) nowMs
      periodStartMs
      periodEndMs
      overageCapMicros := none }

def ensureAccountCloudBillingPeriod (accountId : String) (entitlements : List Entitlement)
    (nowMs : Int) : Option (Option BillingPeriod × BillingStore) :=
  match billedEntitlement entitlements nowMs with
  | none => some (none, store)
  | some entitlement =>
    (store.ensureCloudBillingPeriod accountId entitlement (entitlement.billedFrom nowMs)
      (entitlement.billedUntil nowMs) nowMs).map fun ensured =>
        (some ensured.1, ensured.2)

end BillingStore

structure ProviderPrice where
  provider : UsageProvider
  effectiveAt : Int
  baseNanoUsdPerSecond : Nat
  cpuNanoUsdPerSecond : Nat
  memoryNanoUsdPerGibSecond : Nat
  deriving DecidableEq

structure ProviderPriceWindow where
  startedAtMs : Int
  endedAtMs : Int
  price : ProviderPrice

/-- The index of the last row in effect at a time, before all of them where it is `-1`. -/
def latestBeforeStart (rows : List ProviderPrice) (startedAtMs : Int) : Int :=
  match rows.findIdx? fun row => startedAtMs < row.effectiveAt with
  | none => rows.length - 1
  | some firstAfterStart => firstAfterStart - 1

def applicablePrices (rows : List ProviderPrice) (startedAtMs : Int) : List ProviderPrice :=
  (rows.zipIdx.filter fun indexed =>
    decide ((indexed.2 : Int) = latestBeforeStart rows startedAtMs) ||
      decide (startedAtMs < indexed.1.effectiveAt)).map Prod.fst

/-- The schedule cut to an interval, from the last price in effect at its start on. -/
def priceWindows (schedule : List ProviderPrice) (provider : UsageProvider)
    (startedAtMs endedAtMs : Int) : List ProviderPriceWindow :=
  let rows := (schedule.filter fun row =>
    row.provider = provider && row.effectiveAt < endedAtMs).insertionSort
      fun left right => left.effectiveAt ≤ right.effectiveAt
  if latestBeforeStart rows startedAtMs < 0 then []
  else
    let applicable := applicablePrices rows startedAtMs
    applicable.zipIdx.map fun indexed =>
      { startedAtMs := max startedAtMs indexed.1.effectiveAt
        endedAtMs := min endedAtMs ((applicable[indexed.2 + 1]?.map (·.effectiveAt)).getD endedAtMs)
        price := indexed.1 }

/-- A number of the source after one of its operations. -/
def double (number : ℚ) : ℚ := rounded 53 number

def allocatedComputeCostMicros (durationMs : Int) (vcpuCount memoryMib : Nat)
    (price : ProviderPrice) : Nat :=
  let baseRate := double (double price.baseNanoUsdPerSecond * (1024 : Nat))
  let cpuRate := double (double (vcpuCount * double price.cpuNanoUsdPerSecond) * (1024 : Nat))
  let memoryRate := double (memoryMib * double price.memoryNanoUsdPerGibSecond)
  let rate := double (double (baseRate + cpuRate) + memoryRate)
  ⌊double (double (double durationMs.toNat * rate) / (1000000 * 1024 : Nat))⌋₊

/-- What the windows of an execution cost together. -/
def pricedCostMicros (vcpuCount memoryMib : Nat) (prices : List ProviderPriceWindow) : Nat :=
  roundedSum 53 (prices.map fun window =>
    allocatedComputeCostMicros (window.endedAtMs - window.startedAtMs) vcpuCount memoryMib
      window.price)

structure ProviderExecutionEvidence where
  provider : UsageProvider
  eventId : String
  providerExecutionId : Option String
  internalResourceId : String
  startedAtMs : Int
  endedAtMs : Int
  vcpuCount : Int
  memoryMib : Int

structure MeteredResource where
  accountId : String
  providerConnectionId : Option String

/-- What metering reads of the other services. -/
structure MeteringContext where
  workspace : Option MeteredResource
  build : Option MeteredResource
  entitlements : List Entitlement
  providerCutoverAtMs : List (UsageProvider × Int)
  cutoverAtMs : Option Int
  schedule : List ProviderPrice
  reportedCost : Option (Int → Int → Option Int)

inductive MeterError where
  | invalidProviderExecution
  | invalidProviderCost
  | cloudBillingPriceMissing
  | usageUnavailable
  deriving DecidableEq

inductive ProviderMeteringReason where
  | providerBilled
  | unmatched
  | noPeriod
  | cutoverNotConfigured
  | preCutover
  deriving DecidableEq

inductive MeterResult where
  | metered (recorded : Bool)
  | unmetered (reason : Option ProviderMeteringReason)
  | failed (error : MeterError)
  | died
  deriving DecidableEq

/-- The loop of `billingPeriodsCoverInterval`. -/
def periodsCover (endedAtMs : Int) : List BillingPeriod → Int → Bool
  | [], _ => false
  | period :: rest, coveredUntil =>
    if period.periodEndMs ≤ coveredUntil then periodsCover endedAtMs rest coveredUntil
    else if coveredUntil < period.periodStartMs then false
    else if endedAtMs ≤ max coveredUntil period.periodEndMs then true
    else periodsCover endedAtMs rest (max coveredUntil period.periodEndMs)

def billingPeriodsCoverInterval (periods : List BillingPeriod) (startedAtMs endedAtMs : Int) :
    Bool :=
  periodsCover endedAtMs periods startedAtMs

namespace ProviderExecutionEvidence

variable (evidence : ProviderExecutionEvidence) (nowMs : Int)

def isValid : Bool :=
  isSafeInteger evidence.startedAtMs && isSafeInteger evidence.endedAtMs &&
    evidence.startedAtMs < evidence.endedAtMs && isSafeInteger evidence.vcpuCount &&
    0 ≤ evidence.vcpuCount && isSafeInteger evidence.memoryMib &&
    0 ≤ evidence.memoryMib && evidence.endedAtMs ≤ nowMs + 5 * 60000

def segmentCost (context : MeteringContext) (segmentStart segmentEnd : Int) :
    Except MeterError Nat :=
  match context.reportedCost with
  | some reportedCost =>
    match reportedCost segmentStart segmentEnd with
    | none => .error .usageUnavailable
    | some cost =>
      if !isSafeInteger cost || cost < 0 then .error .invalidProviderCost
      else .ok cost.toNat
  | none =>
    let prices := priceWindows context.schedule evidence.provider segmentStart segmentEnd
    if prices.isEmpty then .error .cloudBillingPriceMissing
    else .ok (pricedCostMicros evidence.vcpuCount.toNat evidence.memoryMib.toNat prices)

def segmentUsage (context : MeteringContext) (accountId : String) (period : BillingPeriod)
    (segmentStart segmentEnd : Int) (cost : Nat) : UsageRecord where
  provider := evidence.provider
  providerEventId := evidence.eventId ++ ":" ++ period.periodId
  providerExecutionId := evidence.providerExecutionId
  periodId := period.periodId
  accountId
  resourceKind := if context.workspace.isNone then .build else .workspace
  resourceId := evidence.internalResourceId
  startedAt := segmentStart
  endedAt := segmentEnd
  vcpuCount := evidence.vcpuCount.toNat
  memoryMib := evidence.memoryMib.toNat
  providerCostMicros := cost

def segments (context : MeteringContext) (accountId : String) (startedAt : Int) :
    List BillingPeriod → Except MeterError (List UsageRecord)
  | [] => .ok []
  | period :: rest =>
    let segmentStart := max startedAt period.periodStartMs
    let segmentEnd := min evidence.endedAtMs period.periodEndMs
    if segmentEnd ≤ segmentStart then segments context accountId startedAt rest
    else
      match evidence.segmentCost context segmentStart segmentEnd with
      | .error error => .error error
      | .ok cost =>
        (segments context accountId startedAt rest).map fun usages =>
          evidence.segmentUsage context accountId period segmentStart segmentEnd cost :: usages

end ProviderExecutionEvidence

def MeteringContext.cutoverAt (context : MeteringContext) (provider : UsageProvider) :
    Option Int :=
  ((context.providerCutoverAtMs.find? fun entry => entry.1 = provider).map Prod.snd).or
    context.cutoverAtMs

namespace BillingStore

variable (store : BillingStore)

def meterPeriods (context : MeteringContext) (evidence : ProviderExecutionEvidence)
    (accountId : String) : MeterResult × BillingStore :=
  match context.cutoverAt evidence.provider with
  | none => (.unmetered (some .cutoverNotConfigured), store)
  | some cutoverAt =>
    if evidence.endedAtMs ≤ cutoverAt then (.unmetered (some .preCutover), store)
    else
      let startedAt := max evidence.startedAtMs cutoverAt
      let periods := store.periodsOverlapping accountId startedAt evidence.endedAtMs
      if !billingPeriodsCoverInterval periods startedAt evidence.endedAtMs then
        (.unmetered (some .noPeriod), store)
      else
        match evidence.segments context accountId startedAt periods with
        | .error error => (.failed error, store)
        | .ok usage =>
          match store.recordProviderExecutionBatch
              { provider := evidence.provider
                eventId := evidence.eventId
                providerExecutionId := evidence.providerExecutionId
                usage } with
          | none => (.died, store)
          | some (recorded, next) => (.metered recorded, next)

def meterProviderExecution (context : MeteringContext)
    (evidence : ProviderExecutionEvidence) (nowMs : Int) : MeterResult × BillingStore :=
  if store.isProviderEventFinalized evidence.provider evidence.eventId
      evidence.providerExecutionId then (.unmetered none, store)
  else if !evidence.isValid nowMs then (.failed .invalidProviderExecution, store)
  else
    match context.workspace.or context.build with
    | none => (.unmetered (some .unmatched), store)
    | some resource =>
      if resource.providerConnectionId.isSome then
        (.unmetered (some .providerBilled), store)
      else
        match store.ensureAccountCloudBillingPeriod resource.accountId
            context.entitlements nowMs with
        | none => (.died, store)
        | some (none, next) => (.unmetered (some .noPeriod), next)
        | some (some _, next) => next.meterPeriods context evidence resource.accountId

end BillingStore

end Zuse.Billing
