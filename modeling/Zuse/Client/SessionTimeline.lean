import Mathlib.Data.List.Sort
import Zuse.Domain.Queries.TimelineSnapshot

namespace Zuse.Client

open Zuse.Data Zuse.Domain

structure SessionStreamCursor where
  epoch : String
  version : Nat
  deriving DecidableEq

inductive SessionTimelinePhase where
  | empty
  | cached
  | synchronizing
  | live
  | stale
  | deleted
  deriving DecidableEq

structure SessionRuntimeObservation where
  attemptId : Option String
  observedAt : Int

structure SessionTimelineProjection (κ φ : Type) where
  messages : List (Message κ)
  olderMessageSequence : Option Nat
  runtimeObservation : Option SessionRuntimeObservation
  rest : φ

/-- What the domain's reducer makes of a durable event and of a projection's turn. -/
class TimelineDomain (κ φ ε : Type) where
  activeAttemptId : φ → Option String
  applyTimelineEvent : SessionTimelineProjection κ φ → ε → SessionTimelineProjection κ φ
  persistedMessageId : ε → Option String

/-- A record of messages under their own ids, in the order in which these were set. -/
structure OptimisticOverlay (κ : Type) where
  messages : List (Message κ)
  distinct : (messages.map Message.id).Nodup

structure SessionTimelineState (κ φ : Type) where
  projection : Option (SessionTimelineProjection κ φ)
  cursor : Option SessionStreamCursor
  /-- Epoch announced by reset-required while the prior projection stays visible. -/
  resetEpoch : Option String
  phase : SessionTimelinePhase
  error : Option String
  optimistic : OptimisticOverlay κ
  /-- Declared full-history count while a snapshot series is assembling. -/
  snapshotMessageCount : Option Nat

inductive SessionTimelineFrame (κ φ ε : Type) where
  | runtime (cursor : SessionStreamCursor) (observation : SessionRuntimeObservation)
  | snapshot (throughVersion : Nat) (projection : SessionTimelineProjection κ φ)
      (cursor : Option SessionStreamCursor) (olderMessageSequence : Option Nat)
      (totalMessageCount : Option Nat) (background : Bool)
  | snapshotChunk (throughVersion : Nat) (messages : List (Message κ))
      (olderMessageSequence : Option Nat) (cursor : Option SessionStreamCursor)
  | event (streamVersion : Nat) (event : ε) (cursor : Option SessionStreamCursor)
  | synchronized (throughVersion : Nat) (cursor : Option SessionStreamCursor)
  | resetRequired (cursor : SessionStreamCursor)

section Messages

variable {κ φ : Type}

/-- A later message takes the value, but not the place, of an earlier one. -/
def byId (messages : List (Message κ)) : List (Message κ) :=
  (messages.foldl (fun map message => map.set message.id message)
    (InsertionMap.empty : InsertionMap String (Message κ))).values

/-- The number that a key of a record stands for: a canonical numeral below `2 ^ 32 - 1`. -/
def arrayIndex (key : String) : Option Nat :=
  let number := key.toList.foldl (fun number digit => 10 * number + (digit.toNat - 48)) 0
  if (key = "0" ∨ key.toList.head?.all (· ≠ '0')) ∧ key ≠ "" ∧ key.toList.all Char.isDigit ∧
      number < 4294967295 then
    some number
  else none

namespace OptimisticOverlay

/-- `Object.values`: what array indices name comes first and ascends, the rest follows as it
was set. -/
def values (overlay : OptimisticOverlay κ) : List (Message κ) :=
  ((overlay.messages.filter fun message => (arrayIndex message.id).isSome).insertionSort
      fun left right => (arrayIndex left.id).getD 0 ≤ (arrayIndex right.id).getD 0) ++
    overlay.messages.filter fun message => (arrayIndex message.id).isNone

theorem mem_values {overlay : OptimisticOverlay κ} {message : Message κ} :
    message ∈ overlay.values ↔ message ∈ overlay.messages := by
  rw [values, List.mem_append, List.mem_insertionSort, List.mem_filter, List.mem_filter,
    ← and_or_left]
  cases arrayIndex message.id <;> simp

def empty : OptimisticOverlay κ := ⟨[], List.nodup_nil⟩

def without (overlay : OptimisticOverlay κ) (durable : Message κ → Bool) : OptimisticOverlay κ where
  messages := overlay.messages.filter fun message => !durable message
  distinct := overlay.distinct.sublist (List.filter_sublist.map _)

/-- `optimistic[message.id] = message` -/
def set (overlay : OptimisticOverlay κ) (message : Message κ) : OptimisticOverlay κ where
  messages :=
    if message.id ∈ overlay.messages.map Message.id then
      overlay.messages.map fun other => if other.id = message.id then message else other
    else overlay.messages ++ [message]
  distinct := by
    split
    next =>
      have sameIds : (overlay.messages.map fun other =>
          if other.id = message.id then message else other).map Message.id =
          overlay.messages.map Message.id := by
        rw [List.map_map]
        refine List.map_congr_left fun other _ => ?_
        by_cases same : other.id = message.id <;> simp [same]
      exact sameIds ▸ overlay.distinct
    next absent =>
      rw [List.map_append, List.nodup_append]
      refine ⟨overlay.distinct, List.nodup_singleton _, ?_⟩
      intro left member right isRight same
      exact absent (List.mem_singleton.mp isRight ▸ same ▸ member)

end OptimisticOverlay

def emptySessionTimelineState : SessionTimelineState κ φ where
  projection := none
  cursor := none
  resetEpoch := none
  phase := .empty
  error := none
  optimistic := .empty
  snapshotMessageCount := none

def restoreSessionTimelineState (projection : Option (SessionTimelineProjection κ φ))
    (cursor : Option SessionStreamCursor) : SessionTimelineState κ φ :=
  match projection, cursor with
  | some projection, some cursor =>
    { (emptySessionTimelineState : SessionTimelineState κ φ) with
      projection := some { projection with runtimeObservation := none }
      cursor := some cursor
      phase := .cached }
  | _, _ => emptySessionTimelineState

def reconcileOptimisticMessages (projection : SessionTimelineProjection κ φ)
    (optimistic : OptimisticOverlay κ) :
    SessionTimelineProjection κ φ × OptimisticOverlay κ :=
  let retained := optimistic.without fun message =>
    message.id ∈ projection.messages.map Message.id
  ({ projection with messages := projection.messages ++ retained.values }, retained)

/-- Prepends one older page without changing the durable event cursor. -/
def prependSessionTimelineMessages (state : SessionTimelineState κ φ)
    (messages : List (Message κ)) (olderMessageSequence : Option Nat) :
    SessionTimelineState κ φ :=
  match state.projection with
  | none => state
  | some projection =>
    { state with
      projection := some
        { projection with
          messages :=
            if messages = [] then projection.messages
            else byId (messages ++ projection.messages)
          olderMessageSequence } }

/-- A same-cursor head refresh must not discard pages already read locally. -/
def preserveSessionTimelineHistory (previous : Option (SessionTimelineProjection κ φ))
    (previousCursor : Option SessionStreamCursor) (next : SessionTimelineProjection κ φ)
    (nextCursor : SessionStreamCursor) : SessionTimelineProjection κ φ :=
  match previous with
  | none => next
  | some previous =>
    if previousCursor ≠ some nextCursor ∨ next.olderMessageSequence = none then next
    else
      let first := next.messages.head?.map Message.id
      match previous.messages.findIdx? (fun message => some message.id = first) with
      | none | some 0 => next
      | some index =>
        { next with
          messages := previous.messages.take index ++ next.messages
          olderMessageSequence := previous.olderMessageSequence }

def cursorForFrame (state : SessionTimelineState κ φ) (version : Nat)
    (cursor : Option SessionStreamCursor) : SessionStreamCursor :=
  cursor.getD { epoch := (state.cursor.map SessionStreamCursor.epoch).getD "legacy", version }

def invalidCursorState (state : SessionTimelineState κ φ) (message : String) :
    SessionTimelineState κ φ :=
  { state with phase := .stale, error := some message }

end Messages

section Reduce

variable {κ φ ε : Type} (state : SessionTimelineState κ φ)

def reduceRuntime (ε : Type) [TimelineDomain κ φ ε] (frameCursor : SessionStreamCursor)
    (observation : SessionRuntimeObservation) : SessionTimelineState κ φ :=
  match state.projection with
  | none => state
  | some projection =>
    if state.phase ≠ .live ∨ state.cursor ≠ some frameCursor ∨
        TimelineDomain.activeAttemptId κ ε projection.rest ≠ observation.attemptId ∨
        observation.observedAt <
          (projection.runtimeObservation.map SessionRuntimeObservation.observedAt).getD (-1)
    then state
    else
      { state with
        projection := some { projection with runtimeObservation := some observation } }

def reduceSnapshot (throughVersion : Nat) (projection : SessionTimelineProjection κ φ)
    (frameCursor : Option SessionStreamCursor) (olderMessageSequence : Option Nat)
    (totalMessageCount : Option Nat) (background : Bool) : SessionTimelineState κ φ :=
  let cursor := cursorForFrame state throughVersion frameCursor
  if cursor.version ≠ throughVersion then
    invalidCursorState state
      s!"Snapshot cursor {cursor.version} does not match version {throughVersion}"
  else if ∃ epoch ∈ state.resetEpoch, cursor.epoch ≠ epoch then
    invalidCursorState state
      ("Expected reset snapshot for epoch " ++ state.resetEpoch.getD "" ++
        ", received " ++ cursor.epoch)
  else if state.resetEpoch = none ∧ ∃ held ∈ state.cursor, cursor.epoch ≠ held.epoch then
    invalidCursorState state
      ("Snapshot changed epoch from " ++ (state.cursor.map SessionStreamCursor.epoch).getD "" ++
        s!" to {cursor.epoch} without a reset")
  else if state.resetEpoch = none ∧
      ∃ held ∈ state.cursor, held.epoch = cursor.epoch ∧ cursor.version < held.version then
    state
  else
    let reconciled := reconcileOptimisticMessages
      (preserveSessionTimelineHistory
        (if state.resetEpoch = none then state.projection else none) state.cursor
        { projection with
          olderMessageSequence := olderMessageSequence.or projection.olderMessageSequence }
        cursor)
      state.optimistic
    { state with
      projection := some reconciled.1
      optimistic := reconciled.2
      cursor := some cursor
      resetEpoch := none
      phase := .synchronizing
      error := none
      snapshotMessageCount := if background then none else totalMessageCount }

def reduceSnapshotChunk (throughVersion : Nat) (messages : List (Message κ))
    (olderMessageSequence : Option Nat) (frameCursor : Option SessionStreamCursor) :
    SessionTimelineState κ φ :=
  let cursor := cursorForFrame state throughVersion frameCursor
  if state.projection.isNone ∨ state.cursor ≠ some cursor ∨ cursor.version ≠ throughVersion then
    invalidCursorState state
      s!"Snapshot chunk for {cursor.epoch}:{throughVersion} arrived without its snapshot"
  else prependSessionTimelineMessages state messages olderMessageSequence

def reduceSynchronized (throughVersion : Nat) (frameCursor : Option SessionStreamCursor) :
    SessionTimelineState κ φ :=
  let cursor := cursorForFrame state throughVersion frameCursor
  let arrivedAt := (state.cursor.map SessionStreamCursor.epoch).getD "none" ++ ":" ++
    toString ((state.cursor.map SessionStreamCursor.version).getD 0)
  match state.projection, state.cursor with
  | some projection, some held =>
    if state.resetEpoch.isSome ∨ held.epoch ≠ cursor.epoch ∨ held.version < cursor.version ∨
        cursor.version ≠ throughVersion then
      invalidCursorState state
        (s!"Synchronization through {cursor.epoch}:{throughVersion} " ++ s!"arrived at {arrivedAt}")
    else if ∃ count ∈ state.snapshotMessageCount, projection.messages.length ≠ count then
      invalidCursorState state
        (s!"Snapshot declared {state.snapshotMessageCount.getD 0} messages " ++
          s!"but assembled {projection.messages.length}")
    else { state with phase := .live, error := none, snapshotMessageCount := none }
  | _, _ =>
    invalidCursorState state
      (s!"Synchronization through {cursor.epoch}:{throughVersion} " ++ s!"arrived at {arrivedAt}")

def reduceResetRequired (frameCursor : SessionStreamCursor) : SessionTimelineState κ φ :=
  if state.resetEpoch = some frameCursor.epoch then state
  else
    { state with
      resetEpoch := some frameCursor.epoch
      phase := .synchronizing
      error := none }

def reduceEvent [TimelineDomain κ φ ε] (streamVersion : Nat) (event : ε)
    (frameCursor : Option SessionStreamCursor) : SessionTimelineState κ φ :=
  let cursor := cursorForFrame state streamVersion frameCursor
  let expectedVersion := (state.cursor.map SessionStreamCursor.version).getD 0 + 1
  if cursor.version ≠ streamVersion then
    invalidCursorState state
      s!"Event cursor {cursor.version} does not match version {streamVersion}"
  else if state.resetEpoch.isSome then
    invalidCursorState state "Received an event before the required reset snapshot"
  else if ∃ held ∈ state.cursor, cursor.epoch ≠ held.epoch then
    invalidCursorState state
      ("Event changed epoch from " ++ (state.cursor.map SessionStreamCursor.epoch).getD "" ++
        s!" to {cursor.epoch} without a reset")
  else if ∃ held ∈ state.cursor, held.epoch = cursor.epoch ∧ cursor.version ≤ held.version then
    state
  else
    match state.projection with
    | none => invalidCursorState state "Received an event without a retained projection"
    | some projection =>
      if streamVersion ≠ expectedVersion then
        invalidCursorState state s!"Expected version {expectedVersion}, received {streamVersion}"
      else
        { state with
          projection := some (TimelineDomain.applyTimelineEvent
            { projection with runtimeObservation := none } event)
          optimistic :=
            match TimelineDomain.persistedMessageId κ φ event with
            | none => state.optimistic
            | some id => state.optimistic.without fun message => message.id = id
          cursor := some cursor
          phase := if state.phase = .live then .live else .synchronizing
          error := none }

/-- Projection and replay version advance in this one synchronous operation. -/
def reduceSessionTimelineFrame [TimelineDomain κ φ ε] (frame : SessionTimelineFrame κ φ ε) :
    SessionTimelineState κ φ :=
  if state.phase = .deleted then state
  else
    match frame with
    | .runtime cursor observation => reduceRuntime state ε cursor observation
    | .snapshot throughVersion projection cursor older total background =>
      reduceSnapshot state throughVersion projection cursor older total background
    | .snapshotChunk throughVersion messages older cursor =>
      reduceSnapshotChunk state throughVersion messages older cursor
    | .event streamVersion event cursor => reduceEvent state streamVersion event cursor
    | .synchronized throughVersion cursor => reduceSynchronized state throughVersion cursor
    | .resetRequired cursor => reduceResetRequired state cursor

end Reduce

end Zuse.Client
