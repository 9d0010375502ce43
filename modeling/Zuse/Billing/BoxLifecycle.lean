import Mathlib.Data.Prod.Lex
import Mathlib.Data.String.Basic
import Zuse.Billing.AccountMetering

namespace Zuse.Billing

open Zuse.Data

/-! Lifecycle events of boxes, as webhooks and polls deliver them. -/

/-- An event with its `createdAt` parsed. -/
structure BoxLifecycleEvent where
  id : String
  type : String
  occurredAtMs : Option Int
  boxId : String
  deriving DecidableEq

def openingEventType : String := "box.ready"

def closingEventTypes : List String := ["box.archived", "box.error"]

/-- The adapter of the provider, with the resources that it resolves for the box. -/
structure BoxAdapter where
  vcpuCount : Int
  memoryMib : Int
  getUsage : Option (String → Int → Int → Option Int)

/-- What ingestion reads of the other services. -/
structure BoxContext where
  workspace : Option (String × MeteredResource)
  build : Option (String × MeteredResource)
  adapter : Option BoxAdapter
  metering : MeteringContext

inductive BoxIngestionReason where
  | nonFinal
  | unmatched
  | providerBilled

inductive BoxIngestionResult where
  | unmetered (eventInserted : Bool) (reason : BoxIngestionReason)
  | metering (eventInserted : Bool) (result : MeterResult)
  | usageUnavailable

namespace ProviderEvent

def openingKey (event : ProviderEvent) : Int ×ₗ String :=
  toLex (event.occurredAtMs.getD 0, event.eventId)

def isOpening (event : ProviderEvent) (provider : UsageProvider)
    (providerResourceId openingType : String) (closedAtMs : Int) : Bool :=
  event.provider = provider && event.providerResourceId = some providerResourceId &&
    event.type = openingType && event.occurredAtMs.any fun occurredAtMs =>
      occurredAtMs ≤ closedAtMs

end ProviderEvent

namespace BillingStore

variable (store : BillingStore) (provider : UsageProvider) (providerResourceId openingType : String)

def latestOpening (closedAtMs : Int) : Option ProviderEvent :=
  ((store.events.filter fun event =>
    event.isOpening provider providerResourceId openingType closedAtMs).insertionSort
      fun left right => right.openingKey ≤ left.openingKey).head?

def storedPair (closingEventId : String) : Option LifecyclePair :=
  store.pairs.find? fun pair =>
    pair.provider = provider && pair.closingEventId = closingEventId

/-- The opening of a closing: the one it was paired with, or else the latest one stored. -/
def lifecyclePair (closingEventId : String) (closedAtMs : Int) : Option LifecyclePair :=
  (store.latestOpening provider providerResourceId openingType closedAtMs).map fun opening =>
    (store.storedPair provider closingEventId).getD
      { provider
        closingEventId
        openingEventId := opening.eventId
        startedAtMs := opening.occurredAtMs.getD 0 }

def pairProviderOpening
    (closingEventId : String) (closedAtMs : Int) : Option LifecyclePair × BillingStore :=
  match store.lifecyclePair provider providerResourceId openingType closingEventId closedAtMs with
  | none => (none, store)
  | some pair =>
    (some pair,
      if (store.storedPair provider closingEventId).isSome then store
      else { store with pairs := store.pairs ++ [pair] })

def meterLifecycle (context : BoxContext) (event : BoxLifecycleEvent) (occurredAtMs : Int)
    (opening : LifecyclePair) (eventInserted : Bool) (nowMs : Int) :
    BoxIngestionResult × BillingStore :=
  match context.workspace.or context.build with
  | none => (.unmetered eventInserted .unmatched, store)
  | some (internalResourceId, resource) =>
    if resource.providerConnectionId.isSome then
      (.unmetered eventInserted .providerBilled, store)
    else
      match context.adapter with
      | none => (.unmetered eventInserted .unmatched, store)
      | some adapter =>
        if occurredAtMs ≤ opening.startedAtMs then
          (.unmetered eventInserted .unmatched, store)
        else
          match adapter.getUsage with
          | none => (.usageUnavailable, store)
          | some getUsage =>
            let metered := store.meterProviderExecution
              { context.metering with reportedCost := some (getUsage event.boxId) }
              { provider := .box
                eventId := event.id
                providerExecutionId :=
                  some (event.boxId ++ ":" ++ opening.openingEventId)
                internalResourceId
                startedAtMs := opening.startedAtMs
                endedAtMs := occurredAtMs
                vcpuCount := adapter.vcpuCount
                memoryMib := adapter.memoryMib }
              nowMs
            (.metering eventInserted metered.1, metered.2)

def ingestBoxLifecycleEvent (context : BoxContext) (event : BoxLifecycleEvent)
    (nowMs : Int) : BoxIngestionResult × BillingStore :=
  match event.occurredAtMs with
  | none => (.unmetered false .unmatched, store)
  | some occurredAtMs =>
    let recorded := store.recordProviderEvent
      { provider := .box
        eventId := event.id
        type := event.type
        providerResourceId := some event.boxId
        occurredAtMs := some occurredAtMs }
    if event.type ∉ closingEventTypes then (.unmetered recorded.1 .nonFinal, recorded.2)
    else
      let paired := recorded.2.pairProviderOpening .box event.boxId openingEventType
        event.id occurredAtMs
      match paired.1 with
      | none => (.unmetered recorded.1 .unmatched, paired.2)
      | some opening =>
        paired.2.meterLifecycle context event occurredAtMs opening recorded.1 nowMs

end BillingStore

end Zuse.Billing
