import Zuse.Data.Table
import Zuse.PublicApi.LedgerRecords

namespace Zuse.PublicApi

open Data (Table.nextRowId Table.orderFirst Table.revise)

/-! The operations of the ledger. The stores differ where an id is taken, and in the closed
deliveries that a prune clears. -/

inductive LedgerStore where
  | memory
  | postgres
  deriving DecidableEq

namespace ApiLedger

variable (ledger : ApiLedger)

def message? (messageId : String) : Option ApiMessage :=
  ledger.messages.find? fun message => message.messageId = messageId

variable (workspaceId turnId : String)

def receipt? : Option ApiTurnReceipt :=
  ledger.receipts.find? fun receipt =>
    receipt.workspaceId = workspaceId && receipt.turnId = turnId

def assistant? : Option ApiMessage :=
  ledger.messages.find? fun message =>
    message.workspaceId = workspaceId && message.role = .assistant && message.turnId = some turnId

def webhook? (webhookId : String) : Option ApiWebhook :=
  ledger.webhooks.find? fun webhook => webhook.webhookId = webhookId

def reviseMessage (messageId : String) (update : ApiMessage → ApiMessage) : ApiLedger :=
  { ledger with
    messages := Table.revise ApiMessage.messageId messageId update ledger.messages }

def nextApiMessageSeq (workspaceId : String) : Nat :=
  Table.nextRowId
    ((ledger.messages.filter fun message => message.workspaceId = workspaceId).map (·.seq))

/-- A message, and whether it was created or exists. -/
structure AppendOutcome where
  created : Bool
  message : ApiMessage

def appendApiMessage (input : AppendApiMessageInput) : AppendOutcome × ApiLedger :=
  match ledger.message? input.messageId with
  | some existing => (⟨false, existing⟩, ledger)
  | none =>
    let assistantAlreadyRecorded :=
      input.role = .user && input.status = .delivered && input.turnId.any fun turnId =>
        (ledger.assistant? input.workspaceId turnId).isSome ||
          (ledger.receipt? input.workspaceId turnId).isSome
    let message : ApiMessage :=
      { messageId := input.messageId
        workspaceId := input.workspaceId
        accountId := input.accountId
        seq := ledger.nextApiMessageSeq input.workspaceId
        role := input.role
        sealedContent := input.sealedContent
        commandId := input.commandId
        turnId := input.turnId
        outcome := input.outcome
        status := if assistantAlreadyRecorded then .settled else input.status
        createdAtMs := input.createdAtMs
        expiresAtMs := input.expiresAtMs }
    (⟨true, message⟩, { ledger with messages := ledger.messages ++ [message] })

def settlementCandidates : List ApiMessage :=
  ledger.messages.filter fun message =>
    message.workspaceId = workspaceId && message.role = .user && message.status ≠ .settled &&
      (message.turnId = some turnId || (message.turnId = none && message.status = .delivered))

def settlesBefore (turnId : String) (left right : ApiMessage) : Prop :=
  (left.turnId = some turnId ∧ right.turnId ≠ some turnId) ∨
    ((left.turnId = some turnId ↔ right.turnId = some turnId) ∧ left.seq ≤ right.seq)

instance (turnId : String) : DecidableRel (settlesBefore turnId) := fun _ _ => by
  unfold settlesBefore
  infer_instance

def settleApiTurnUserMessage : ApiLedger :=
  match Table.orderFirst (settlesBefore turnId)
      (ledger.settlementCandidates workspaceId turnId) with
  | none => ledger
  | some candidate =>
    ledger.reviseMessage candidate.messageId fun message =>
      { message with turnId := some turnId, status := .settled }

def unexpired (message : ApiMessage) (nowMs : Int) : Bool :=
  message.expiresAtMs.all (nowMs < ·)

def claimNextApiCommand (workspaceId : String) (nowMs : Int) : Option ApiMessage × ApiLedger :=
  match Table.orderFirst (fun left right => left.seq ≤ right.seq)
      (ledger.messages.filter fun message =>
        message.workspaceId = workspaceId && message.role = .user &&
          message.status = .pending && unexpired message nowMs) with
  | none => (none, ledger)
  | some first =>
    let attempt := fun message : ApiMessage =>
      { message with
        deliveryAttemptedAtMs := some (max (message.deliveryAttemptedAtMs.getD 0) nowMs) }
    (some (attempt first), ledger.reviseMessage first.messageId attempt)

/-- The turn that an acknowledgement without one settles a message with: the only turn that
answered it, when no earlier message waits for its own. -/
def legacyAckSettlementTurn (message : ApiMessage) (acknowledgedAtMs : Int) : Option String :=
  match message.deliveryAttemptedAtMs with
  | none => none
  | some attemptedAtMs =>
    let workspaceMessages := ledger.messages.filter fun candidate =>
      candidate.workspaceId = message.workspaceId
    let hasEarlierOutstanding := workspaceMessages.any fun candidate =>
      candidate.role = .user && candidate.seq < message.seq &&
        (candidate.status = .pending || candidate.status = .delivered) &&
        unexpired candidate acknowledgedAtMs
    let answers := workspaceMessages.filter fun candidate =>
      candidate.role = .assistant && candidate.status = .settled &&
        message.seq < candidate.seq && candidate.turnId.any fun turnId =>
          (ledger.receipt? message.workspaceId turnId).any fun receipt =>
            attemptedAtMs ≤ receipt.receivedAtMs && receipt.receivedAtMs ≤ acknowledgedAtMs &&
              attemptedAtMs ≤ receipt.settledAtMs &&
              !workspaceMessages.any fun claimed =>
                claimed.role = .user && claimed.messageId ≠ message.messageId &&
                  claimed.turnId = some turnId
    if hasEarlierOutstanding then none
    else
      match answers with
      | [answer] => answer.turnId
      | _ => none

def ackApiCommand (workspaceId messageId : String) (turnId commandTurnId : Option String)
    (nowMs : Int) : Bool × ApiLedger :=
  match (ledger.message? messageId).filter fun message =>
      message.workspaceId = workspaceId && message.role = .user with
  | none => (false, ledger)
  | some message =>
    if message.status = .delivered ∨ message.status = .settled then
      (turnId = none || message.turnId = turnId, ledger)
    else if message.status ≠ .pending then (false, ledger)
    else if turnId ≠ none ∧ message.turnId ≠ none ∧ message.turnId ≠ turnId ∧
        message.turnId ≠ commandTurnId then
      (false, ledger)
    else
      let legacySettlementTurn :=
        if turnId = none then ledger.legacyAckSettlementTurn message nowMs else none
      let settled := legacySettlementTurn.isSome ||
        turnId.any fun turnId => (ledger.assistant? workspaceId turnId).isSome
      (true, ledger.reviseMessage messageId fun message =>
        { message with
          turnId := legacySettlementTurn.or turnId
          status := if settled then .settled else .delivered
          deliveredAtMs := some nowMs })

/-- The delivery to one webhook of the account, unless it has one of the event; `none` is
a delivery whose id is taken. -/
def fanOutTo (accountId : String) (settledAtMs : Int) (fanout : ApiTurnWebhookFanout)
    (ledger : ApiLedger) (target : ApiWebhookTarget) : Option ApiLedger :=
  match (ledger.webhook? target.webhookId).filter fun webhook =>
      webhook.accountId = accountId && webhook.disabledAtMs.isNone &&
        webhook.createdAtMs ≤ settledAtMs with
  | none => some ledger
  | some _ =>
    if ledger.deliveries.any fun delivery =>
        delivery.webhookId = target.webhookId && delivery.eventId = fanout.eventId then
      some ledger
    else if ledger.deliveries.any fun delivery =>
        delivery.deliveryId = target.deliveryId then
      none
    else
      some
        { ledger with
          deliveries := ledger.deliveries ++
            [{ deliveryId := target.deliveryId
               webhookId := target.webhookId
               accountId
               eventId := fanout.eventId
               sealedPayload := fanout.sealedPayload
               status := .pending
               attempts := 0
               nextAttemptAtMs := fanout.enqueuedAtMs
               createdAtMs := fanout.enqueuedAtMs
               updatedAtMs := fanout.enqueuedAtMs }] }

def applyApiWebhookFanout (input : RecordApiTurnEventInput) (receipt : ApiTurnReceipt) :
    Option ApiLedger :=
  match input.webhookFanout with
  | none => some ledger
  | some fanout =>
    fanout.targets.foldlM (fanOutTo input.accountId receipt.settledAtMs fanout) ledger

end ApiLedger

def apiTurnReceiptMatchesInput (receipt : ApiTurnReceipt) (input : RecordApiTurnEventInput) :
    Bool :=
  receipt.outcome = input.outcome && receipt.settledAtMs = input.nowMs &&
    receipt.contentDigest = input.contentDigest

namespace RecordApiTurnEventInput

variable (input : RecordApiTurnEventInput)

def receipt : ApiTurnReceipt where
  workspaceId := input.workspaceId
  turnId := input.turnId
  outcome := input.outcome
  settledAtMs := input.nowMs
  receivedAtMs := input.receivedAtMs
  contentDigest := input.contentDigest

def message (seq : Nat) : ApiMessage where
  messageId := input.messageId
  workspaceId := input.workspaceId
  accountId := input.accountId
  seq
  role := .assistant
  sealedContent := input.sealedContent
  turnId := some input.turnId
  outcome := some input.outcome
  status := .settled
  createdAtMs := input.nowMs

end RecordApiTurnEventInput

namespace ApiLedger

variable (store : LedgerStore) (ledger : ApiLedger)

/-- The ledger with the deliveries of an event; an error undoes the whole operation. -/
def fannedOut (before : ApiLedger) (input : RecordApiTurnEventInput)
    (receipt : ApiTurnReceipt) (outcome : RecordApiTurnEventOutcome) (ledger : ApiLedger) :
    RecordApiTurnEventOutcome × ApiLedger :=
  match ledger.applyApiWebhookFanout input receipt with
  | some after => (outcome, after)
  | none => (.died, before)

def recordApiTurnEvent (input : RecordApiTurnEventInput) : RecordApiTurnEventOutcome × ApiLedger :=
  match ledger.assistant? input.workspaceId input.turnId,
      ledger.receipt? input.workspaceId input.turnId with
  | some replay, none =>
    if input.adoptLegacyReplay = false ∨ replay.messageId ≠ input.messageId ∨
        replay.accountId ≠ input.accountId ∨ replay.outcome ≠ some input.outcome then
      (.died, ledger)
    else
      fannedOut ledger input input.receipt (.replay replay input.receipt)
        { ledger.settleApiTurnUserMessage input.workspaceId input.turnId with
          receipts := ledger.receipts ++ [input.receipt] }
  | some replay, some stored =>
    if apiTurnReceiptMatchesInput stored input = false ∨
        replay.messageId ≠ input.messageId ∨ replay.accountId ≠ input.accountId then
      (.conflict stored, ledger)
    else fannedOut ledger input stored (.replay replay stored) ledger
  | none, some stored =>
    if apiTurnReceiptMatchesInput stored input = false then (.conflict stored, ledger)
    else fannedOut ledger input stored (.prunedReplay stored) ledger
  | none, none =>
    let message := input.message (ledger.nextApiMessageSeq input.workspaceId)
    let settled := ledger.settleApiTurnUserMessage input.workspaceId input.turnId
    let taken := (ledger.message? input.messageId).isSome
    if taken && store = .postgres then (.died, ledger)
    else
      fannedOut ledger input input.receipt (.created message input.receipt)
        { settled with
          messages :=
            if taken then
              Table.revise ApiMessage.messageId input.messageId (fun _ => message) settled.messages
            else settled.messages ++ [message]
          receipts := ledger.receipts ++ [input.receipt] }

def protectedMessages : Nat := 1000

/-- The place of a message among those of its workspace, the newest first. -/
def recencyRank (message : ApiMessage) : Nat :=
  1 + (ledger.messages.filter fun other =>
    other.workspaceId = message.workspaceId && message.seq < other.seq).length

/-- Whether a message stays: it is recent, or new, or not at its end, or an answer whose
receipt is missing. -/
def keepsMessage (beforeMs : Int) (message : ApiMessage) : Bool :=
  ledger.recencyRank message ≤ protectedMessages || beforeMs ≤ message.createdAtMs ||
    (message.role = .assistant && message.turnId.all fun turnId =>
      (ledger.receipt? message.workspaceId turnId).isNone) ||
    (message.status ≠ .settled && message.status ≠ .failed && message.status ≠ .expired)

def prunedDelivery (beforeMs : Int) (delivery : ApiWebhookDelivery) : ApiWebhookDelivery :=
  if delivery.updatedAtMs < beforeMs ∧
      (delivery.status = .delivered ∨ delivery.status = .failed) ∧
      (store = .memory ∨ delivery.sealedPayload ≠ "") then
    { delivery with sealedPayload := "", lastError := none }
  else delivery

def pruneApiData (beforeMs : Int) : ApiLedger :=
  { ledger with
    messages := ledger.messages.filter (ledger.keepsMessage beforeMs)
    deliveries := ledger.deliveries.map (prunedDelivery store beforeMs) }

end ApiLedger

end Zuse.PublicApi
