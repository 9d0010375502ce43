import Zuse.Data.TransitionSystem
import Zuse.PublicApi.WebhookStore

namespace Zuse.PublicApi

open Data (TransitionSystem)

/-! Runs of any number of dispatchers beside the operations on events and webhooks. -/

/-- A claimed delivery that a dispatcher has in hand; an attempt reads the clock when it
begins. -/
structure DeliveryAttempt where
  due : DueApiWebhookDelivery
  beganAtMs : Option Int := none

/-- The ledger and the attempts in hand. The clock is the time of the latest step; the other
members record what has happened: the webhooks and deliveries that were ever created, and
the deliveries of the failures that were recorded and of the targets that were refused. -/
structure DispatchWorld where
  ledger : ApiLedger := {}
  clock : Int := 0
  attempts : List DeliveryAttempt := []
  webhookIds : List String := []
  enqueued : List ApiWebhookDelivery := []
  failures : List String := []
  refused : List String := []

inductive DispatchStep where
  | tick (nowMs : Int)
  | createWebhook (webhook : ApiWebhook) (activeLimit : Nat)
  | deleteWebhook (accountId webhookId : String)
  | recordEvent (input : RecordApiTurnEventInput)
  | prune (beforeMs : Int)
  | claim
  | start (index : Nat)
  | settle (index : Nat) (outcome : DeliveryOutcome)
  | crash (index : Nat)

namespace DeliveryOutcome

def terminal : DeliveryOutcome → Bool
  | .unsafeTarget => true
  | _ => false

def succeeds : DeliveryOutcome → Bool
  | .answered true _ => true
  | _ => false

def status (outcome : DeliveryOutcome) (delivery : ApiWebhookDelivery) : ApiDeliveryStatus :=
  if outcome.succeeds then .delivered
  else if outcome.terminal ∨ maxDeliveryAttempts ≤ delivery.attempts + 1 then .failed
  else .pending

end DeliveryOutcome

section Dispatch

variable (store : LedgerStore) (deliveryIdFor : String → String → String)

/-- A fanout as the route of events makes it: its deliveries are named by their webhook and
event, and it is enqueued no later than now. -/
def routeFanout (nowMs : Int) (input : RecordApiTurnEventInput) : Bool :=
  input.webhookFanout.all fun fanout =>
    fanout.enqueuedAtMs ≤ nowMs && fanout.targets.all fun target =>
      target.deliveryId = deliveryIdFor target.webhookId fanout.eventId

def DispatchWorld.withLedger (world : DispatchWorld) (ledger : ApiLedger) : DispatchWorld :=
  { world with
    ledger
    enqueued := world.enqueued ++
      (ledger.deliveries.filter fun delivery =>
        !world.ledger.deliveries.any fun old => old.deliveryId = delivery.deliveryId) }

def DispatchWorld.settle (world : DispatchWorld) (index : Nat) (attempt : DeliveryAttempt)
    (nowMs : Int) (outcome : DeliveryOutcome) : DispatchWorld :=
  let delivery := attempt.due.delivery
  { world with
    ledger := recordDelivery world.ledger delivery nowMs outcome
    attempts := world.attempts.eraseIdx index
    failures :=
      if outcome.succeeds then world.failures else world.failures ++ [delivery.deliveryId]
    refused :=
      if outcome.terminal then world.refused ++ [delivery.deliveryId] else world.refused }

def DispatchWorld.step (world : DispatchWorld) : DispatchStep → Option DispatchWorld
  | .tick nowMs => if world.clock ≤ nowMs then some { world with clock := nowMs } else none
  | .createWebhook webhook activeLimit =>
    if webhook.webhookId ∈ world.webhookIds then none
    else
      some
        { world with
          ledger := (world.ledger.createApiWebhook webhook activeLimit).2
          webhookIds := webhook.webhookId :: world.webhookIds }
  | .deleteWebhook accountId webhookId =>
    some { world with ledger := (world.ledger.deleteApiWebhook accountId webhookId).2 }
  | .recordEvent input =>
    if routeFanout deliveryIdFor world.clock input then
      some (world.withLedger (world.ledger.recordApiTurnEvent store input).2)
    else none
  | .prune beforeMs => some { world with ledger := world.ledger.pruneApiData store beforeMs }
  | .claim =>
    let claimed := world.ledger.claimDueApiWebhookDeliveries world.clock deliveryBatchLimit
      deliveryLeaseMs
    some
      { world with
        ledger := claimed.2
        attempts := world.attempts ++ claimed.1.map fun due => { due } }
  | .start index =>
    match world.attempts[index]? with
    | none => none
    | some attempt =>
      if attempt.beganAtMs.isSome then none
      else
        some
          { world with
            attempts :=
              world.attempts.set index { attempt with beganAtMs := some world.clock } }
  | .settle index outcome =>
    match world.attempts[index]? with
    | none => none
    | some attempt =>
      attempt.beganAtMs.map fun nowMs => world.settle index attempt nowMs outcome
  | .crash index =>
    if index < world.attempts.length then
      some { world with attempts := world.attempts.eraseIdx index }
    else none

def dispatchers : TransitionSystem DispatchWorld DispatchStep where
  init := {}
  step := DispatchWorld.step store deliveryIdFor

end Dispatch

/-- An attempt settles in time: its delivery is still pending, or has ended the same way. -/
def DispatchWorld.Timely (world : DispatchWorld) : DispatchStep → Prop
  | .settle index outcome =>
    ∀ attempt ∈ world.attempts[index]?, ∀ delivery ∈ world.ledger.deliveries,
      delivery.deliveryId = attempt.due.delivery.deliveryId →
        delivery.status = .pending ∨ delivery.status = outcome.status attempt.due.delivery
  | _ => True

instance (world : DispatchWorld) (label : DispatchStep) : Decidable (world.Timely label) := by
  cases label with
  | settle index outcome =>
    unfold DispatchWorld.Timely
    infer_instance
  | _ => exact .isTrue trivial

/-- An attempt settles before the lease of its claim runs out. -/
def DispatchWorld.withinLease (world : DispatchWorld) : DispatchStep → Bool
  | .settle index _ =>
    world.attempts[index]?.all fun attempt =>
      world.clock < attempt.due.delivery.nextAttemptAtMs
  | _ => true

end Zuse.PublicApi
