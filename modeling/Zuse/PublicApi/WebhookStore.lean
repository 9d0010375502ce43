import Zuse.Data.Text
import Zuse.PublicApi.LedgerStore

namespace Zuse.PublicApi

open Data (Table.orderLimit Table.revise sliceUtf16)

structure DueApiWebhookDelivery where
  delivery : ApiWebhookDelivery
  url : String
  sealedSecret : String

structure FailApiWebhookDelivery where
  deliveryId : String
  nowMs : Int
  error : String
  nextAttemptAtMs : Int
  terminal : Bool

namespace ApiLedger

variable (ledger : ApiLedger)

def createApiWebhook (webhook : ApiWebhook) (activeLimit : Nat) : Bool × ApiLedger :=
  let active := ledger.webhooks.filter fun existing =>
    existing.accountId = webhook.accountId && existing.disabledAtMs.isNone
  if (ledger.webhook? webhook.webhookId).isSome ∨ activeLimit ≤ active.length then
    (false, ledger)
  else (true, { ledger with webhooks := ledger.webhooks ++ [webhook] })

def deleteApiWebhook (accountId webhookId : String) : Bool × ApiLedger :=
  match (ledger.webhook? webhookId).filter fun webhook => webhook.accountId = accountId with
  | none => (false, ledger)
  | some _ =>
    (true,
      { ledger with
        webhooks := ledger.webhooks.filter fun webhook => webhook.webhookId ≠ webhookId
        deliveries := ledger.deliveries.filter fun delivery =>
          delivery.webhookId ≠ webhookId })

def deliveryDue (nowMs : Int) (delivery : ApiWebhookDelivery) : Bool :=
  delivery.status = .pending && delivery.nextAttemptAtMs ≤ nowMs &&
    (ledger.webhook? delivery.webhookId).any fun webhook => webhook.disabledAtMs.isNone

def reviseDelivery (deliveryId : String)
    (update : ApiWebhookDelivery → ApiWebhookDelivery) : ApiLedger :=
  { ledger with
    deliveries :=
      Table.revise ApiWebhookDelivery.deliveryId deliveryId update ledger.deliveries }

def leased (nowMs leaseMs : Int) (delivery : ApiWebhookDelivery) : ApiWebhookDelivery :=
  { delivery with nextAttemptAtMs := nowMs + leaseMs, updatedAtMs := nowMs }

/-- The deliveries that a claim takes: those that have been due the longest. -/
def dueDeliveries (nowMs : Int) (limit : Nat) : List ApiWebhookDelivery :=
  ((ledger.deliveries.filter (ledger.deliveryDue nowMs)).insertionSort fun left right =>
    left.nextAttemptAtMs ≤ right.nextAttemptAtMs).take limit

def claimDueApiWebhookDeliveries (nowMs : Int) (limit : Nat) (leaseMs : Int) :
    List DueApiWebhookDelivery × ApiLedger :=
  let due := ledger.dueDeliveries nowMs limit
  (due.filterMap fun delivery =>
      (ledger.webhook? delivery.webhookId).map fun webhook =>
        ⟨leased nowMs leaseMs delivery, webhook.url, webhook.sealedSecret⟩,
    due.foldl (fun ledger delivery =>
      ledger.reviseDelivery delivery.deliveryId (leased nowMs leaseMs)) ledger)

def completeApiWebhookDelivery (deliveryId : String) (nowMs : Int) : ApiLedger :=
  ledger.reviseDelivery deliveryId fun delivery =>
    { delivery with status := .delivered, updatedAtMs := nowMs }

def failApiWebhookDelivery (input : FailApiWebhookDelivery) : ApiLedger :=
  ledger.reviseDelivery input.deliveryId fun delivery =>
    { delivery with
      status := if input.terminal then .failed else .pending
      attempts := delivery.attempts + 1
      lastError := some input.error
      nextAttemptAtMs := input.nextAttemptAtMs
      updatedAtMs := input.nowMs }

end ApiLedger

def deliveryLeaseMs : Int := 2 * 60000

def deliveryBatchLimit : Nat := 32

def maxDeliveryAttempts : Nat := 20

def apiWebhookRetryDelayMs (attempts : Nat) : Int :=
  min (2 ^ (attempts - 1) * 30000) (60 * 60000)

inductive DeliveryOutcome where
  | unsafeTarget
  | unsealable
  | answered (ok : Bool) (status : Nat)
  | threw (message : String)

def failure (delivery : ApiWebhookDelivery) (nowMs : Int) (error : String)
    (terminal : Bool) : FailApiWebhookDelivery where
  deliveryId := delivery.deliveryId
  nowMs
  error
  nextAttemptAtMs := nowMs + apiWebhookRetryDelayMs (delivery.attempts + 1)
  terminal := terminal || maxDeliveryAttempts ≤ delivery.attempts + 1

def recordDelivery (ledger : ApiLedger) (delivery : ApiWebhookDelivery) (nowMs : Int) :
    DeliveryOutcome → ApiLedger
  | .unsafeTarget =>
    ledger.failApiWebhookDelivery (failure delivery nowMs "unsafe_webhook_url" true)
  | .unsealable =>
    ledger.failApiWebhookDelivery (failure delivery nowMs "payload_unsealable" false)
  | .answered true _ => ledger.completeApiWebhookDelivery delivery.deliveryId nowMs
  | .answered false status =>
    ledger.failApiWebhookDelivery (failure delivery nowMs ("http_" ++ toString status) false)
  | .threw message =>
    ledger.failApiWebhookDelivery
      (failure delivery nowMs (String.ofList (sliceUtf16 500 message.toList)) false)

end Zuse.PublicApi
