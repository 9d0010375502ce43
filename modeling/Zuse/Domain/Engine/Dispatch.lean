import Zuse.Data.VersionedLog
import Zuse.Domain.Core.Decider

namespace Zuse.Domain

open Zuse.Data

/-! Dispatch of a command over a storage of events and receipts. -/

structure StoredEvent (ε : Type u) where
  eventId : String
  correlationId : String
  causationEventId : Option String
  streamId : String
  streamVersion : Nat
  sequence : Nat
  event : ε

/-- Transport identity committed in the same transaction as a receipt. -/
structure CommandReceiptIdentity where
  fingerprint : String
  commandKind : String
  schemaVersion : Number
  storageIncarnationId : String
  deriving DecidableEq

structure CommandReceipt where
  commandId : String
  streamId : String
  streamVersion : Nat
  eventIds : List String
  result : Option TurnInterruptReceipt
  receiptIdentity : Option CommandReceiptIdentity
  deriving DecidableEq

structure AttemptOwnership where
  requireUninterrupted : Bool
  turnId : String
  attemptId : String
  deriving DecidableEq

structure DispatchInput where
  commandId : String
  streamId : String
  correlationId : Option String
  causationEventId : Option String
  receiptIdentity : Option CommandReceiptIdentity
  expectedAttempt : Option AttemptOwnership
  expectedProviderSessionId : Option String
  command : SessionCommand
  deriving DecidableEq

def DispatchInput.plain (commandId streamId : String) (command : SessionCommand) :
    DispatchInput where
  commandId
  streamId
  correlationId := none
  causationEventId := none
  receiptIdentity := none
  expectedAttempt := none
  expectedProviderSessionId := none
  command

structure AppendInput (ε : Type u) where
  commandId : String
  streamId : String
  correlationId : String
  causationEventId : Option String
  expectedVersion : Nat
  events : List (String × ε)
  result : Option TurnInterruptReceipt
  receiptIdentity : Option CommandReceiptIdentity

inductive DispatchFailure where
  | domain (error : DomainError)
  | attemptOwnershipConflict (turnId expectedAttemptId : String) (actualAttemptId : Option String)
  | providerSessionOwnershipConflict (expectedProviderSessionId : String)
      (actualProviderSessionId : Option String)
  | concurrencyConflict (streamId : String) (expectedVersion actualVersion : Nat)
  | commandReceiptConflict (commandId expectedStreamId actualStreamId : String)
  | commandReceiptIdentityConflict (commandId : String)

/-- Two transport identities that cannot belong to one command. A missing identity
conflicts with none. -/
def identitiesConflict (left right : Option CommandReceiptIdentity) : Bool :=
  match left, right with
  | some left, some right => left ≠ right
  | _, _ => false

def validateCommandReceipt (commandId streamId : String)
    (receiptIdentity : Option CommandReceiptIdentity) (receipt : CommandReceipt) :
    Except DispatchFailure CommandReceipt :=
  if receipt.streamId ≠ streamId then
    .error (.commandReceiptConflict commandId streamId receipt.streamId)
  else if identitiesConflict receiptIdentity receipt.receiptIdentity then
    .error (.commandReceiptIdentityConflict commandId)
  else .ok receipt

theorem validateCommandReceipt_eq_ok {commandId streamId : String}
    {receiptIdentity : Option CommandReceiptIdentity} {receipt result : CommandReceipt} :
    validateCommandReceipt commandId streamId receiptIdentity receipt = .ok result ↔
      result = receipt ∧ receipt.streamId = streamId ∧
        identitiesConflict receiptIdentity receipt.receiptIdentity = false := by
  rw [validateCommandReceipt]
  by_cases sameStream : receipt.streamId = streamId
  · cases conflict : identitiesConflict receiptIdentity receipt.receiptIdentity <;>
      simp [sameStream, eq_comm]
  · simp [sameStream]

namespace AppendInput

variable {ε : Type u} (input : AppendInput ε)

/-- The records of the events, numbered after a stream version and a sequence. -/
def records (streamVersion sequence : Nat) : List (String × ε) → List (StoredEvent ε)
  | [] => []
  | (eventId, event) :: rest =>
    { eventId
      correlationId := input.correlationId
      causationEventId := input.causationEventId
      streamId := input.streamId
      streamVersion := streamVersion + 1
      sequence := sequence + 1
      event } :: records (streamVersion + 1) (sequence + 1) rest

def stored (lastSequence : Nat) : List (StoredEvent ε) :=
  input.records input.expectedVersion lastSequence input.events

def receipt : CommandReceipt where
  commandId := input.commandId
  streamId := input.streamId
  streamVersion := input.expectedVersion + input.events.length
  eventIds := input.events.map Prod.fst
  result := input.result
  receiptIdentity := input.receiptIdentity

end AppendInput

structure DispatchStorage (σ : Type u) (ε : Type v) where
  empty : σ
  receipt : σ → String → Option CommandReceipt
  events : σ → String → List (StoredEvent ε)
  append : σ → AppendInput ε → Except DispatchFailure (CommandReceipt × σ)

structure InMemoryDispatchStorage (ε : Type u) where
  eventLog : List (StoredEvent ε)
  receipts : InsertionMap String CommandReceipt
  named : ∀ commandId receipt, receipts.get? commandId = some receipt →
    receipt.commandId = commandId

namespace InMemoryDispatchStorage

variable {ε : Type u} (storage : InMemoryDispatchStorage ε)

def receipt (commandId : String) :
    Option CommandReceipt :=
  storage.receipts.get? commandId

def eventsFor (streamId : String) : List (StoredEvent ε) :=
  storage.eventLog.filter (·.streamId = streamId)

def push (input : AppendInput ε) : InMemoryDispatchStorage ε where
  eventLog := storage.eventLog ++ input.stored storage.eventLog.length
  receipts := storage.receipts.set input.commandId input.receipt
  named := by
    intro commandId receipt found
    obtain ⟨same, rfl⟩ | found := InsertionMap.get?_set_cases found
    · exact same
    · exact storage.named commandId receipt found

def append (input : AppendInput ε) :
    Except DispatchFailure (CommandReceipt × InMemoryDispatchStorage ε) :=
  match storage.receipt input.commandId with
  | some existing =>
    (validateCommandReceipt input.commandId input.streamId input.receiptIdentity
      existing).map fun receipt => (receipt, storage)
  | none =>
    let actualVersion := (storage.eventsFor input.streamId).length
    if actualVersion ≠ input.expectedVersion then
      .error (.concurrencyConflict input.streamId input.expectedVersion actualVersion)
    else .ok (input.receipt, storage.push input)

end InMemoryDispatchStorage

def inMemoryStorage (ε : Type u) : DispatchStorage (InMemoryDispatchStorage ε) ε where
  empty := { eventLog := [], receipts := .empty, named := by simp }
  receipt := InMemoryDispatchStorage.receipt
  events := InMemoryDispatchStorage.eventsFor
  append := InMemoryDispatchStorage.append

/-- Only existing tool work may append content after its application turn settles. -/
def providerToolReference : MessageContent → Option String
  | .toolResult itemId | .subagentSummary itemId => some itemId
  | .assistant parentItemId | .thinking parentItemId | .toolUse _ _ parentItemId =>
    parentItemId
  | .subagentProgress parentId _ => some parentId
  | _ => none

def SessionEvent.startsAttempt (turnId : String) : SessionEvent → Bool
  | .turnStarted started => started.turnId = turnId
  | .attemptStarted started => started.turnId = turnId
  | _ => false

section Engine

variable [PayloadCodec]

/-- A tool use of the turn, under the item id that a late message refers to. -/
def SessionEvent.anchors (turnId reference : String) : SessionEvent → Bool
  | .messagePersisted message =>
    message.turnId = some turnId && message.kind = "tool_use" &&
      match decodeContent message.contentJson with
      | some (.toolUse itemId _ _) => itemId = reference
      | _ => false
  | _ => false

/-- The scan for the tool use, from the newest event back to the start of the turn's
latest attempt. -/
def anchoredInAttempt (turnId reference : String) : List SessionEvent → Bool
  | [] => false
  | event :: older =>
    if event.startsAttempt turnId then false
    else event.anchors turnId reference || anchoredInAttempt turnId reference older

namespace DispatchInput

variable (input : DispatchInput) (state : SessionState)

/-- A provider may extend the thread of the newest turn after that turn settled. -/
def ownsTail (expected : AttemptOwnership) : Bool :=
  match input.command with
  | .bindProviderThread .. =>
    (state.turns.get? expected.turnId).map (·.ordinal) = some state.turnCount
  | _ => false

def ownsToolTail (log : List SessionEvent) (expected : AttemptOwnership) : Bool :=
  match input.expectedProviderSessionId, state.turns.get? expected.turnId, input.command with
  | some _, some turn, .persistMessage message =>
    if turn.status = .completed ∧ turn.ordinal = state.turnCount ∧
        message.turnId = some expected.turnId then
      match (decodeContent message.contentJson).bind providerToolReference with
      | some reference => anchoredInAttempt expected.turnId reference log.reverse
      | none => false
    else false
  | _, _, _ => false

def actualAttemptId (log : List SessionEvent) (expected : AttemptOwnership) : Option String :=
  let turn := state.turns.get? expected.turnId
  if (state.currentTurnId = some expected.turnId ∨ input.ownsTail state expected ∨
        input.ownsToolTail state log expected) ∧
      state.deleted = false ∧ state.archived = false ∧
      (expected.requireUninterrupted = false ∨ turn.bind (·.phase) = some .running) then
    turn.map (·.activeAttemptId)
  else none

def actualProviderSessionId : Option String :=
  if state.deleted ∨ state.archived then none
  else state.providerReservation.map (·.providerSessionId)

def checkProviderSession : Except DispatchFailure Unit :=
  match input.expectedProviderSessionId with
  | none => .ok ()
  | some expected =>
    let actual := actualProviderSessionId state
    if actual = some expected then .ok ()
    else .error (.providerSessionOwnershipConflict expected actual)

def checkAttempt (log : List SessionEvent) :
    Except DispatchFailure Unit :=
  match input.expectedAttempt with
  | none => .ok ()
  | some expected =>
    let actual := input.actualAttemptId state log expected
    if actual = some expected.attemptId then .ok ()
    else .error (.attemptOwnershipConflict expected.turnId expected.attemptId actual)

def checkOwnership (log : List SessionEvent) :
    Except DispatchFailure Unit := do
  input.checkProviderSession state
  input.checkAttempt state log

def validate (receipt : CommandReceipt) : Except DispatchFailure CommandReceipt :=
  validateCommandReceipt input.commandId input.streamId input.receiptIdentity receipt

def appendInput (events : List (String × SessionEvent)) : AppendInput SessionEvent where
  commandId := input.commandId
  streamId := input.streamId
  correlationId := input.correlationId.getD input.commandId
  causationEventId := input.causationEventId
  expectedVersion := state.version
  events
  result :=
    match input.command with
    | .requestTurnInterrupt expectedTurnId _ =>
      some (turnInterruptReceipt state expectedTurnId)
    | _ => none
  receiptIdentity := input.receiptIdentity

end DispatchInput

inductive DispatchPhase where
  | started
  | checked (existing : Option CommandReceipt)
  | decided (log events : List SessionEvent)
  | appending (log : List SessionEvent) (append : AppendInput SessionEvent)
  | finished (outcome : Except DispatchFailure CommandReceipt)

namespace DispatchInput

variable (input : DispatchInput)

def afterReceipt (existing : Option CommandReceipt) : DispatchPhase :=
  match existing, input.expectedAttempt, input.expectedProviderSessionId with
  | some receipt, none, none => .finished (input.validate receipt)
  | existing, _, _ => .checked existing

def afterEvents (existing : Option CommandReceipt) (log : List SessionEvent) : DispatchPhase :=
  let state := evolveAll initialSessionState log
  match input.checkOwnership state log with
  | .error failure => .finished (.error failure)
  | .ok () =>
    match existing with
    | some receipt => .finished (input.validate receipt)
    | none =>
      match decide state input.command with
      | .error error => .finished (.error (.domain error))
      | .ok events => .decided log events

/-- One id from `makeEventId` for each decided event. -/
def afterEventIds (log events : List SessionEvent) (eventIds : List String) : DispatchPhase :=
  .appending log (input.appendInput (evolveAll initialSessionState log) (eventIds.zip events))

end DispatchInput

end Engine

end Zuse.Domain
