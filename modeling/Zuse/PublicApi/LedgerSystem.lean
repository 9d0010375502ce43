import Zuse.Data.TransitionSystem
import Zuse.PublicApi.LedgerStore

namespace Zuse.PublicApi

open Data (TransitionSystem)

/-! Runs of the operations on the ledger, with what has happened to its messages. -/

structure CreatedMessage where
  workspaceId : String
  messageId : String
  seq : Nat

/-- A turn that settled a message of a user, or with which one was acknowledged. -/
structure TurnOfMessage where
  workspaceId : String
  turnId : String
  messageId : String

/-- The ledger; the messages in the order of their creation; and the messages of users that
were acknowledged and settled. -/
structure LedgerWorld where
  ledger : ApiLedger := {}
  created : List CreatedMessage := []
  acknowledged : List TurnOfMessage := []
  settled : List TurnOfMessage := []

namespace LedgerWorld

variable (world : LedgerWorld)

def createdIds : List String := world.created.map (·.messageId)

def isNew (message : ApiMessage) : Bool :=
  !world.ledger.messages.any fun old => old.messageId = message.messageId

def newlySettled (message : ApiMessage) : Bool :=
  message.role = .user && message.status = .settled &&
    !world.ledger.messages.any fun old =>
      old.messageId = message.messageId && old.status = .settled

def after (ledger : ApiLedger) : LedgerWorld :=
  { world with
    ledger
    created := world.created ++ (ledger.messages.filter world.isNew).map fun message =>
      ⟨message.workspaceId, message.messageId, message.seq⟩
    settled := world.settled ++ (ledger.messages.filter world.newlySettled).map fun message =>
      ⟨message.workspaceId, message.turnId.getD "", message.messageId⟩ }

end LedgerWorld

inductive LedgerStep where
  | append (input : AppendApiMessageInput)
  | claim (workspaceId : String) (nowMs : Int)
  | acknowledge (workspaceId messageId turnId : String) (commandTurnId : Option String)
      (nowMs : Int)
  | recordEvent (input : RecordApiTurnEventInput)
  | prune (beforeMs : Int)
  | deliver (webhooks : List ApiWebhook) (deliveries : List ApiWebhookDelivery)

/-- Operations on webhooks and deliveries may leave any rows of these. -/
def LedgerWorld.step (store : LedgerStore) (world : LedgerWorld) : LedgerStep → LedgerWorld
  | .append input => world.after (world.ledger.appendApiMessage input).2
  | .claim workspaceId nowMs =>
    world.after (world.ledger.claimNextApiCommand workspaceId nowMs).2
  | .acknowledge workspaceId messageId turnId commandTurnId nowMs =>
    let result := world.ledger.ackApiCommand workspaceId messageId (some turnId) commandTurnId nowMs
    { world.after result.2 with
      acknowledged :=
        if result.1 then world.acknowledged ++ [⟨workspaceId, turnId, messageId⟩]
        else world.acknowledged }
  | .recordEvent input => world.after (world.ledger.recordApiTurnEvent store input).2
  | .prune beforeMs => world.after (world.ledger.pruneApiData store beforeMs)
  | .deliver webhooks deliveries =>
    world.after { world.ledger with webhooks, deliveries }

def ledgerRuns (store : LedgerStore) : TransitionSystem LedgerWorld LedgerStep where
  init := {}
  step := fun world label => some (world.step store label)

/-- What the callers of the ledger and the order of its operations are like where each turn
belongs to one message: a user's message waits or has its turn, ids are not used again, and
no message is acknowledged with a turn whose answer was pruned. -/
def LedgerWorld.Regular (owner : String → String → String) (world : LedgerWorld) : LedgerStep → Prop
  | .append input =>
    input.role = .user ∧
      (input.status = .pending ∨ input.status = .delivered ∧ input.turnId.isSome) ∧
      (∀ turnId ∈ input.turnId, owner input.workspaceId turnId = input.messageId) ∧
      ((world.ledger.message? input.messageId).isSome ∨ input.messageId ∉ world.createdIds)
  | .acknowledge workspaceId messageId turnId _ _ =>
    owner workspaceId turnId = messageId ∧
      ((world.ledger.receipt? workspaceId turnId).isSome →
        (world.ledger.assistant? workspaceId turnId).isSome ∨
          ∀ message ∈ world.ledger.messages, message.messageId = messageId →
            message.status ≠ .pending)
  | .recordEvent input =>
    (world.ledger.receipt? input.workspaceId input.turnId).isSome ∨
      input.messageId ∉ world.createdIds
  | _ => True

instance (owner : String → String → String) (world : LedgerWorld) (label : LedgerStep) :
    Decidable (world.Regular owner label) := by
  cases label with
  | append input
  | acknowledge workspaceId messageId turnId commandTurnId nowMs | recordEvent input =>
    unfold LedgerWorld.Regular
    infer_instance
  | _ => exact .isTrue trivial

end Zuse.PublicApi
