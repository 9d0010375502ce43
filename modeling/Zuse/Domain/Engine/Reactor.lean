import Zuse.Data.InsertionMap
import Zuse.Data.OrderedDelivery
import Zuse.Data.TransitionSystem

namespace Zuse.Domain

open Zuse.Data

/-! A reactor follows an event log with commands. Its runner remembers in a cursor how
far it has come and names each command after the event and its place there. -/

structure ReactorEvent (ε : Type u) where
  eventId : String
  correlationId : String
  sequence : Nat
  body : ε

structure ReactorCommand (γ : Type v) where
  streamId : String
  command : γ

structure ReactorDispatchInput (γ : Type v) extends ReactorCommand γ where
  commandId : String
  correlationId : String
  causationEventId : String

structure ReactorDefinition (ε : Type u) (γ : Type v) where
  name : String
  react : ReactorEvent ε → List (ReactorCommand γ)

/-- The rows of `events` in sequence order, which is `INTEGER PRIMARY KEY AUTOINCREMENT`;
`event_id` is `UNIQUE`. -/
structure ReactorLog (ε : Type u) where
  events : List (ReactorEvent ε)
  ordered : events.Pairwise fun left right => left.sequence < right.sequence
  positive : ∀ event ∈ events, 0 < event.sequence
  distinct : (events.map ReactorEvent.eventId).Nodup

namespace ReactorLog

variable {ε : Type u} (log : ReactorLog ε)

def eventsAfter (sequence : Nat) : List (ReactorEvent ε) :=
  log.events.filter fun event => sequence < event.sequence

def lastSequence : Nat := (log.events.getLast?.map ReactorEvent.sequence).getD 0

end ReactorLog

namespace ReactorDefinition

variable {ε : Type u} {γ : Type v} (reactor : ReactorDefinition ε γ)

def cursorName : String := "reactor:" ++ reactor.name

def commandId (eventId : String) (index : Nat) : String :=
  reactor.cursorName ++ ":" ++ eventId ++ ":" ++ toString index

def input (event : ReactorEvent ε) (index : Nat) (command : ReactorCommand γ) :
    ReactorDispatchInput γ where
  toReactorCommand := command
  commandId := reactor.commandId event.eventId index
  correlationId := event.correlationId
  causationEventId := event.eventId

def inputs (event : ReactorEvent ε) : List (ReactorDispatchInput γ) :=
  (reactor.react event).mapIdx (reactor.input event)

end ReactorDefinition

def commandGroups {γ : Type v} (inputs : List (ReactorDispatchInput γ)) :
    InsertionMap String (List (ReactorDispatchInput γ)) :=
  inputs.foldl (fun groups input =>
    groups.set input.streamId ((groups.get? input.streamId).getD [] ++ [input])) .empty

/-- Where a call of `catchUp` stands. Its `cursor` is the local variable. -/
inductive CatchUp (ε : Type u) (γ : Type v)
  | idle
  | sequential (cursor : Nat) (current : Option (ReactorEvent ε × List (ReactorDispatchInput γ)))
      (remaining : List (ReactorEvent ε))
  /-- Groups that no fiber has taken yet, what each fiber has left of its group, and the
  events to commit when all are done. -/
  | concurrent (cursor : Nat) (waiting active : List (List (ReactorDispatchInput γ)))
      (uncommitted : List (ReactorEvent ε))

structure ReactorWorld (ε : Type u) (γ : Type v) where
  /-- The reactor's row in `projector_cursors`. -/
  lastSequence : Option Nat
  effects : List (ReactorDispatchInput γ)
  catchUp : CatchUp ε γ
  /-- What the last successful `catchUp` returned. -/
  returned : Option Nat

namespace ReactorWorld

variable {ε : Type u} {γ : Type v} (world : ReactorWorld ε γ)

def cursor : Nat := world.lastSequence.getD 0

/-- `dispatch` is idempotent per `commandId`. -/
def dispatch (input : ReactorDispatchInput γ) : ReactorWorld ε γ :=
  { world with effects := deliver (·.commandId) world.effects input }

def commitCursor (sequence : Nat) : ReactorWorld ε γ :=
  { world with
    lastSequence := some ((world.lastSequence.map (max · sequence)).getD sequence) }

/-- A call with `dispatchConcurrency` 1 that nothing interrupts. -/
def catchUpSequentially (log : ReactorLog ε) (reactor : ReactorDefinition ε γ) :
    ReactorWorld ε γ :=
  (log.eventsAfter world.cursor).foldl (fun world event =>
    ((reactor.inputs event).foldl dispatch world).commitCursor event.sequence) world

def initial : ReactorWorld ε γ where
  lastSequence := none
  effects := []
  catchUp := .idle
  returned := none

end ReactorWorld

inductive CatchUpStep where
  /-- Read the cursor and the events after it; with concurrency also react to them. -/
  | begin
  | react
  | take
  | dispatch (fiber : Nat)
  | commit
  | finish
  | fail

section CatchUp

variable {ε : Type u} {γ : Type v} (log : ReactorLog ε) (reactor : ReactorDefinition ε γ)
  (dispatchConcurrency : Nat) (world : ReactorWorld ε γ)

def ReactorWorld.beginCatchUp : ReactorWorld ε γ :=
  let cursor := world.cursor
  let pendingEvents := log.eventsAfter cursor
  if max 1 dispatchConcurrency = 1 then
    { world with catchUp := .sequential cursor none pendingEvents }
  else
    { world with
      catchUp := .concurrent cursor (commandGroups (pendingEvents.flatMap reactor.inputs)).values []
        pendingEvents }

def ReactorWorld.step : CatchUpStep → Option (ReactorWorld ε γ)
  | .begin =>
    match world.catchUp with
    | .idle => some (world.beginCatchUp log reactor dispatchConcurrency)
    | _ => none
  | .react =>
    match world.catchUp with
    | .sequential cursor none (event :: remaining) =>
      some { world with
        catchUp := .sequential cursor (some (event, reactor.inputs event)) remaining }
    | _ => none
  | .take =>
    match world.catchUp with
    | .concurrent cursor (group :: waiting) active uncommitted =>
      if active.length < dispatchConcurrency then
        some { world with
          catchUp := .concurrent cursor waiting (active ++ [group]) uncommitted }
      else none
    | _ => none
  | .dispatch fiber =>
    match world.catchUp with
    | .sequential cursor (some (event, input :: inputs)) remaining =>
      some { world.dispatch input with
        catchUp := .sequential cursor (some (event, inputs)) remaining }
    | .concurrent cursor waiting active uncommitted =>
      match active[fiber]? with
      | some [input] =>
        some { world.dispatch input with
          catchUp := .concurrent cursor waiting (active.eraseIdx fiber) uncommitted }
      | some (input :: inputs) =>
        some { world.dispatch input with
          catchUp := .concurrent cursor waiting (active.set fiber inputs) uncommitted }
      | _ => none
    | _ => none
  | .commit =>
    match world.catchUp with
    | .sequential _ (some (event, [])) remaining =>
      some { world.commitCursor event.sequence with
        catchUp := .sequential event.sequence none remaining }
    | .concurrent _ [] [] (event :: uncommitted) =>
      some { world.commitCursor event.sequence with
        catchUp := .concurrent event.sequence [] [] uncommitted }
    | _ => none
  | .finish =>
    match world.catchUp with
    | .sequential cursor none [] =>
      some { world with catchUp := .idle, returned := some cursor }
    | .concurrent cursor [] [] [] =>
      some { world with catchUp := .idle, returned := some cursor }
    | _ => none
  | .fail =>
    match world.catchUp with
    | .idle => none
    | _ => some { world with catchUp := .idle }

def catchUpSystem : TransitionSystem (ReactorWorld ε γ) CatchUpStep where
  init := .initial
  step := fun world => world.step log reactor dispatchConcurrency

end CatchUp

end Zuse.Domain
