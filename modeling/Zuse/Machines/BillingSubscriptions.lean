import Zuse.Machines.MachineReconciler
import Zuse.Machines.MachineStorePg

namespace Zuse.Machines

open Data (InsertionMap TransitionSystem)
open Billing (EntitlementStatus)

/-! A subscription at a billing provider, and what the routes make of it. -/

def cloudWorkspaceOfferId : String := "cloud-workspace-standard-v1"

/-- A subscription as its provider has it, but for the account of its customer. -/
structure ProviderSubscription where
  status : EntitlementStatus
  offerId : String
  periodStart : Option Int := none
  paidThrough : Option Int := none

structure ReconciledSubscription where
  accountId : String
  providerSubscriptionId : String
  status : EntitlementStatus
  offerId : String
  periodStart : Option Int
  paidThrough : Option Int

def machineProviderLabel (machineId : String) : String :=
  let dashed := ("zuse-" ++ machineId).toList.map fun letter =>
    let lower := letter.toLower
    if lower.isLower ∨ lower.isDigit then lower else '-'
  let single := dashed.destutter fun left right => ¬(left = '-' ∧ right = '-')
  let short := single.take 63
  String.ofList (if short.getLast? = some '-' then short.dropLast else short)

/-- What the routes know of a provider: its name, and the hash that names entitlements. -/
structure BillingContext where
  sha256Hex : String → String
  config : MachineControlConfig
  billingProviderId : String
  providerSubscriptionId : String

namespace BillingContext

variable (context : BillingContext)

def entitlementId : String :=
  "ent_" ++ String.ofList ((context.sha256Hex
    (context.billingProviderId ++ ":" ++ context.providerSubscriptionId)).toList.take 24)

def offer (subscription : ReconciledSubscription) : Option MachineOffer :=
  if subscription.offerId = cloudWorkspaceOfferId then none
  else findMachineOffer subscription.offerId

def shouldProvision (subscription : ReconciledSubscription) : Bool :=
  subscription.status = .active && (offer subscription).isSome &&
    context.config.allowlistedAccountIds.contains subscription.accountId

def entitlement (nowMs : Int) (subscription : ReconciledSubscription) :
    EntitlementPersistenceRecord where
  entitlementId := context.entitlementId
  accountId := subscription.accountId
  kind :=
    if subscription.offerId = cloudWorkspaceOfferId then .cloudWorkspace
    else .persistentMachine
  offerId := some subscription.offerId
  provider := context.billingProviderId
  providerSubscriptionId := some subscription.providerSubscriptionId
  status := subscription.status
  periodStartMs := subscription.periodStart
  paidThroughMs := subscription.paidThrough
  endedAtMs :=
    if subscription.status = .ended ∧ subscription.paidThrough.all (· ≤ nowMs) then
      some nowMs
    else none
  createdAtMs := nowMs
  updatedAtMs := nowMs

/-- What `applyBillingSubscription` asks of the store. -/
def applyBillingSubscription (eventId : String) (nowMs : Int)
    (subscription : ReconciledSubscription) (machineId computeProviderId : String) :
    ApplyBillingEventInput where
  sameKindOfferIds := (offer subscription).elim [] fun offer => offerIdsOfKind offer.kind
  event := ⟨context.billingProviderId, eventId, nowMs⟩
  entitlement := context.entitlement nowMs subscription
  provisioning :=
    if context.shouldProvision subscription then
      some
        { machineId
          idempotencyKey := "billing:" ++ context.entitlementId
          provider := computeProviderId
          providerLabel := machineProviderLabel machineId }
    else none
  recoveryWindowMs := context.config.recoveryWindowMs

end BillingContext

def EntitlementPersistenceRecord.reconciled (entitlement : EntitlementPersistenceRecord)
    (subscription : ReconciledSubscription) (nowMs : Int) : EntitlementPersistenceRecord :=
  { entitlement with
    status := subscription.status
    periodStartMs := subscription.periodStart
    paidThroughMs := subscription.paidThrough
    endedAtMs :=
      if subscription.status = .ended ∧ subscription.paidThrough.getD 0 ≤ nowMs then
        some (entitlement.endedAtMs.getD nowMs)
      else none
    updatedAtMs := nowMs }

inductive BillingHandler where
  | webhook (eventId : String) (nowMs : Int)
  | checkout (accountId : String) (nowMs : Int) (entitlement : EntitlementPersistenceRecord)
  | claim (accountId : String) (nowMs : Int)

/-- A handler, with the version of the subscription that it read. -/
structure RunningHandler where
  handler : BillingHandler
  read : Option (Nat × ReconciledSubscription) := none

/-- The store, the subscription at its provider with all versions that it had, the events
that told of each, the handlers that run, and the answers to deliveries. `applied` is the
newest version that a handler has applied. -/
structure BillingWorld where
  tables : MachineTables
  account : Option String := none
  versions : List ProviderSubscription := []
  emitted : List (String × Nat) := []
  handlers : List RunningHandler := []
  answered : List String := []
  deferred : List String := []
  applied : Nat := 0

inductive BillingStep where
  | change (subscription : ProviderSubscription) (eventId : String)
  /-- A further event tells of the version that the subscription has. -/
  | announce (eventId : String)
  /-- The customer of the subscription is linked to another account, or to none. -/
  | link (account : Option String)
  | deliver (eventId : String) (nowMs : Int)
  | checkout (accountId entitlementId : String) (nowMs : Int)
  | claim (accountId : String) (nowMs : Int)
  | read (index : Nat)
  | apply (index : Nat) (order : RowOrder) (machineId computeProviderId : String)
  | fail (index : Nat)

def claimEventId (accountId providerSubscriptionId : String) : String :=
  "claim:" ++ (accountId ++ ":" ++ providerSubscriptionId)

def BillingHandler.eventId (context : BillingContext) : BillingHandler → Option String
  | .webhook eventId _ => some eventId
  | .checkout .. => none
  | .claim accountId _ => some (claimEventId accountId context.providerSubscriptionId)

namespace BillingWorld

variable (context : BillingContext) (world : BillingWorld)

def consumed (eventId : String) : Bool :=
  world.tables.billingEvents.contains (context.billingProviderId, eventId)

def isNewEvent (eventId : String) : Bool :=
  !(world.emitted.map Prod.fst).contains eventId && !world.consumed context eventId &&
    !"claim:".toList.isPrefixOf eventId.toList

def emit (eventId : String) : BillingWorld :=
  { world with emitted := world.emitted ++ [(eventId, world.versions.length)] }

def begin (handler : BillingHandler) : BillingWorld :=
  { world with handlers := world.handlers ++ [{ handler }] }

def finish (index : Nat) : BillingWorld :=
  { world with handlers := world.handlers.eraseIdx index }

def answer (eventId : String) : BillingWorld :=
  { world with answered := world.answered ++ [eventId] }

def reconcileSubscription : Option ReconciledSubscription :=
  world.account.bind fun accountId => world.versions.getLast?.map fun current =>
    { accountId
      providerSubscriptionId := context.providerSubscriptionId
      status := current.status
      offerId := current.offerId
      periodStart := current.periodStart
      paidThrough := current.paidThrough }

def keep (index : Nat) (running : RunningHandler) (subscription : ReconciledSubscription) :
    BillingWorld :=
  { world with
    handlers := world.handlers.set index
      { running with read := some (world.versions.length, subscription) } }

/-- A handler reads the subscription; one that is linked to no account fails a checkout
and a claim, and defers a webhook. -/
def read (index : Nat) (running : RunningHandler) : BillingWorld :=
  match running.handler, world.reconcileSubscription context with
  | .webhook eventId _, none =>
    { (world.answer eventId).finish index with
      deferred := world.deferred ++ [eventId] }
  | .webhook .., some subscription => world.keep index running subscription
  | .checkout .., none => world.finish index
  | .checkout accountId _ entitlement, some subscription =>
    if subscription.accountId ≠ accountId ∨ entitlement.offerId ≠ some subscription.offerId then
      world.finish index
    else world.keep index running subscription
  | .claim .., none => world.finish index
  | .claim accountId _, some subscription =>
    if subscription.accountId ≠ accountId ∨ subscription.offerId ≠ cloudWorkspaceOfferId then
      world.finish index
    else world.keep index running subscription

/-- A read is applied as a billing event; where a statement fails, nothing is. -/
def applyEvent (index version : Nat) (order : RowOrder) (input : ApplyBillingEventInput)
    (answered : BillingWorld → BillingWorld) : BillingWorld :=
  match world.tables.applyBillingEvent order input with
  | none => world.finish index
  | some (outcome, after) =>
    answered
      { world.finish index with
        tables := after
        applied := if outcome.duplicate then world.applied else max world.applied version }

def apply (index : Nat) (order : RowOrder) (machineId computeProviderId : String)
    (handler : BillingHandler) (version : Nat) (subscription : ReconciledSubscription) :
    BillingWorld :=
  match handler with
  | .webhook eventId nowMs =>
    world.applyEvent index version order
      (context.applyBillingSubscription eventId nowMs subscription machineId computeProviderId)
      fun applied => applied.answer eventId
  | .checkout _ nowMs entitlement =>
    { world.finish index with
      tables := world.tables.upsertEntitlement (entitlement.reconciled subscription nowMs) }
  | .claim accountId nowMs =>
    world.applyEvent index version order
      (context.applyBillingSubscription
        (claimEventId accountId context.providerSubscriptionId) nowMs subscription machineId
        computeProviderId)
      id

def step : BillingStep → Option BillingWorld
  | .change subscription eventId =>
    if world.isNewEvent context eventId then
      some ({ world with versions := world.versions ++ [subscription] }.emit eventId)
    else none
  | .announce eventId =>
    if world.isNewEvent context eventId then some (world.emit eventId) else none
  | .link account => some { world with account }
  | .deliver eventId nowMs =>
    if (world.emitted.map Prod.fst).contains eventId then
      some (world.begin (.webhook eventId nowMs))
    else none
  | .checkout accountId entitlementId nowMs =>
    match world.tables.entitlements.get? entitlementId with
    | none => none
    | some entitlement =>
      if entitlement.accountId = accountId ∧ entitlement.provider = context.billingProviderId ∧
          entitlement.providerSubscriptionId = some context.providerSubscriptionId ∧
          entitlement.status ≠ .ended then
        some (world.begin (.checkout accountId nowMs entitlement))
      else none
  | .claim accountId nowMs =>
    if world.account.all (· = accountId) then
      some ({ world with account := some accountId }.begin (.claim accountId nowMs))
    else none
  | .read index =>
    match world.handlers[index]? with
    | none => none
    | some running =>
      if running.read.isNone then some (world.read context index running) else none
  | .apply index order machineId computeProviderId =>
    match world.handlers[index]? with
    | none => none
    | some running => running.read.map fun read =>
        world.apply context index order machineId computeProviderId running.handler read.1 read.2
  | .fail index => if index < world.handlers.length then some (world.finish index) else none

end BillingWorld

/-- Handlers of one subscription in any order, from tables as other handlers left them. -/
def billingSubscriptions (context : BillingContext) (tables : MachineTables) :
    TransitionSystem BillingWorld BillingStep where
  init := { tables }
  step := BillingWorld.step context

end Zuse.Machines
