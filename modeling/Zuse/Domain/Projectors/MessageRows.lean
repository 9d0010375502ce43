import Zuse.Data.InsertionMap
import Zuse.Domain.Core.Events

namespace Zuse.Domain

open Zuse.Data

/-! The messages of a session: the rows that the projector writes and the list that the
timeline reducer keeps. -/

structure Message (κ : Type u) where
  id : String
  sessionId : String
  role : MessageRole
  content : κ
  createdAt : Millis
  deriving DecidableEq

/-- A row of `messages`, its timestamp read. -/
structure MessageRow where
  id : String
  turnId : Option String
  role : String
  kind : String
  contentJson : String
  parentItemId : Option String
  createdAt : Millis
  sequence : Nat
  checkpointRevision : Option Number
  checkpointFinal : Option Bool

namespace MessageRow

/-- The values of the `INSERT`. -/
def inserted (sequence : Nat) (message : MessageFields) : MessageRow where
  id := message.messageId
  turnId := message.turnId
  role := message.role
  kind := message.kind
  contentJson := message.contentJson
  parentItemId := message.parentItemId
  createdAt := message.createdAt
  sequence
  checkpointRevision := message.checkpointRevision
  checkpointFinal := message.checkpointFinal

/-- The `WHERE` of `ON CONFLICT(id) DO UPDATE`. -/
def accepts (stored excluded : MessageRow) : Bool :=
  stored.checkpointFinal ≠ some true ∧
    ((excluded.checkpointRevision = none ∧ stored.checkpointRevision = none) ∨
      ∃ revision ∈ excluded.checkpointRevision, ∀ held ∈ stored.checkpointRevision, held < revision)

/-- Its `SET`. -/
def updated (stored excluded : MessageRow) : MessageRow :=
  { excluded with
    id := stored.id
    createdAt := stored.createdAt
    sequence := stored.sequence }

end MessageRow

abbrev MessageRows := InsertionMap String MessageRow

/-- What the session projector does to the rows. Those of a deleted session go with it. -/
def projectMessages (rows : MessageRows) (sequence : Nat) : SessionEvent → MessageRows
  | .messagePersisted message =>
    let excluded := MessageRow.inserted sequence message
    match rows.get? message.messageId with
    | none => rows.set message.messageId excluded
    | some stored =>
      if stored.accepts excluded then
        rows.set message.messageId (stored.updated excluded)
      else rows
  | .turnsRolledBack rollback =>
    rows.filter fun row => (row.sequence : Number) ≤ rollback.messageSequence
  | .sessionDeleted _ => .empty
  | _ => rows

/-- The events of a batch take the sequence numbers from the given one on. -/
def projectMessagesFrom (rows : MessageRows) (sequence : Nat) : List SessionEvent → MessageRows
  | [] => rows
  | event :: events =>
    projectMessagesFrom (projectMessages rows sequence event) (sequence + 1) events

/-- What this version of the program can read. -/
structure MessageDecoder (κ : Type u) where
  decodeContent : String → Option κ
  decodeRole : String → Option MessageRole

inductive MessageTimelineEvent (κ : Type u) where
  | messagePersisted (turnId : Option String) (message : Message κ)
  | transcriptRolledBack (removedMessageIds : List String)
  | noop

section Timeline

variable {κ : Type u} (decoder : MessageDecoder κ)

/-- The message that a client reads, where its content and its role decode. -/
def readMessage (sessionId : String) (message : MessageFields) : Option (Message κ) :=
  match decoder.decodeContent message.contentJson, decoder.decodeRole message.role with
  | some content, some role =>
    some
      { id := message.messageId, sessionId, role, content
        createdAt := message.createdAt }
  | _, _ => none

def timelineEventFromDomain (sessionId : String) : SessionEvent → MessageTimelineEvent κ
  | .messagePersisted message =>
    match readMessage decoder sessionId message with
    | none => .noop
    | some read => .messagePersisted message.turnId read
  | .turnsRolledBack rollback => .transcriptRolledBack rollback.removedMessageIds
  | _ => .noop

def applyTimelineEvent (messages : List (Message κ)) : MessageTimelineEvent κ → List (Message κ)
  | .messagePersisted _ message =>
    match messages.findIdx? fun existing => existing.id = message.id with
    | none => messages ++ [message]
    | some index => messages.set index message
  | .transcriptRolledBack removedMessageIds =>
    messages.filter fun message => message.id ∉ removedMessageIds
  | .noop => messages

end Timeline

section Lookup

variable {κ : Type u}

def findMessage (messages : List (Message κ)) (id : String) : Option (Message κ) :=
  messages.find? fun message => message.id = id

theorem find?_replace {α : Type u} {κ : Type v} [DecidableEq κ] {key : α → κ}
    (item : α) (wanted : κ) (items : List α) :
    (match items.findIdx? (fun existing => key existing = key item) with
      | none => items ++ [item]
      | some index => items.set index item).find? (fun other => key other = wanted) =
      if key item = wanted then some item
      else items.find? fun other => key other = wanted := by
  induction items with
  | nil => by_cases same : key item = wanted <;> simp [same]
  | cons first rest ih =>
    by_cases replaced : key first = key item
    · by_cases same : key item = wanted <;> simp [List.findIdx?_cons, replaced, same]
    rw [List.findIdx?_cons, decide_eq_false replaced]
    cases found : rest.findIdx? fun existing => key existing = key item with
    | none | some index =>
      rw [found] at ih
      by_cases same : key first = wanted
      · have differs : key item ≠ wanted := fun equal =>
          replaced (same.trans equal.symm)
        simp [same, differs]
      · simpa [same] using ih

theorem findMessage_persisted (messages : List (Message κ))
    (turnId : Option String) (message : Message κ) (id : String) :
    findMessage (applyTimelineEvent messages (.messagePersisted turnId message)) id =
      if message.id = id then some message else findMessage messages id :=
  @find?_replace (Message κ) String _ Message.id message id messages

theorem findMessage_rolledBack (messages : List (Message κ))
    (removedMessageIds : List String) (id : String) :
    findMessage (applyTimelineEvent messages (.transcriptRolledBack removedMessageIds)) id =
      if id ∈ removedMessageIds then none else findMessage messages id := by
  unfold findMessage applyTimelineEvent
  induction messages with
  | nil => simp
  | cons first rest ih =>
    by_cases removed : first.id ∈ removedMessageIds <;> by_cases same : first.id = id
    · subst same
      simpa [removed] using ih
    · simpa [same] using ih
    · subst same
      simp [removed]
    · simpa [same] using ih

end Lookup

end Zuse.Domain
