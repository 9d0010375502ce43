import Zuse.Domain.Contracts

namespace Zuse.PublicApi

inductive ApiMessageRole where
  | user
  | assistant
  deriving DecidableEq

inductive ApiMessageStatus where
  | pending
  | delivered
  | settled
  | expired
  | failed
  deriving DecidableEq

abbrev TurnSettlementOutcome := Domain.SettlementOutcome

structure ApiMessage where
  messageId : String
  workspaceId : String
  accountId : String
  seq : Nat
  role : ApiMessageRole
  sealedContent : String
  commandId : Option String := none
  turnId : Option String := none
  outcome : Option TurnSettlementOutcome := none
  status : ApiMessageStatus
  createdAtMs : Int
  deliveryAttemptedAtMs : Option Int := none
  deliveredAtMs : Option Int := none
  expiresAtMs : Option Int := none

structure ApiTurnReceipt where
  workspaceId : String
  turnId : String
  outcome : TurnSettlementOutcome
  settledAtMs : Int
  receivedAtMs : Int
  contentDigest : String

structure ApiWebhook where
  webhookId : String
  accountId : String
  url : String
  sealedSecret : String
  createdAtMs : Int
  disabledAtMs : Option Int := none

inductive ApiDeliveryStatus where
  | pending
  | delivered
  | failed
  deriving DecidableEq

structure ApiWebhookDelivery where
  deliveryId : String
  webhookId : String
  accountId : String
  eventId : String
  sealedPayload : String
  status : ApiDeliveryStatus
  attempts : Nat
  nextAttemptAtMs : Int
  lastError : Option String := none
  createdAtMs : Int
  updatedAtMs : Int

structure ApiLedger where
  messages : List ApiMessage := []
  receipts : List ApiTurnReceipt := []
  webhooks : List ApiWebhook := []
  deliveries : List ApiWebhookDelivery := []

structure AppendApiMessageInput where
  messageId : String
  workspaceId : String
  accountId : String
  role : ApiMessageRole
  sealedContent : String
  commandId : Option String := none
  turnId : Option String := none
  outcome : Option TurnSettlementOutcome := none
  status : ApiMessageStatus
  createdAtMs : Int
  expiresAtMs : Option Int := none

structure ApiWebhookTarget where
  webhookId : String
  deliveryId : String

structure ApiTurnWebhookFanout where
  eventId : String
  sealedPayload : String
  enqueuedAtMs : Int
  targets : List ApiWebhookTarget

structure RecordApiTurnEventInput where
  messageId : String
  workspaceId : String
  accountId : String
  turnId : String
  outcome : TurnSettlementOutcome
  sealedContent : String
  contentDigest : String
  nowMs : Int
  receivedAtMs : Int
  webhookFanout : Option ApiTurnWebhookFanout := none
  adoptLegacyReplay : Bool := false

/-- What became of an event; `died` is an error that no caller handles. -/
inductive RecordApiTurnEventOutcome where
  | created (message : ApiMessage) (receipt : ApiTurnReceipt)
  | replay (message : ApiMessage) (receipt : ApiTurnReceipt)
  | prunedReplay (receipt : ApiTurnReceipt)
  | conflict (receipt : ApiTurnReceipt)
  | died

end Zuse.PublicApi
