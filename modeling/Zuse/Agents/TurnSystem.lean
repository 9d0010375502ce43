import Zuse.Data.TransitionSystem
import Zuse.Agents.TurnProtocol

namespace Zuse.Agents

open Zuse.Data

/-! The handle as a system in which every event, send and interrupt is one step, with a log
of what became of the turns. -/

/-- The arguments of `makeTurnScopedSessionHandle`, which dies on an attempt without a
turn. -/
class HandleInput where
  initialTurnId : Option AgentTurnId
  initialAttemptId : Option AttemptId
  bound : initialAttemptId.isSome = true → initialTurnId.isSome = true

def ownership [input : HandleInput] : Option ProviderAttemptOwnership :=
  match input.initialTurnId, input.initialAttemptId with
  | some turnId, some attemptId => some { turnId, attemptId }
  | _, _ => none

inductive TurnLogEntry where
  | opened (turnId : AgentTurnId) (released : Deferred)
  /-- An envelope of the stream, and whether it was routed by the origin of its item. -/
  | emitted (envelope : ProviderEventEnvelope) (byOrigin : Bool)
  | adopted (turnId : AgentTurnId) (released : Deferred)
  | sendFailed (turnId : AgentTurnId) (released : Deferred)

structure TurnWorld where
  state : TurnState
  finished : Bool
  ended : Bool
  goalOwned : Bool
  injected : List AgentEvent
  failed : Bool
  nextDeferred : Deferred
  completed : List Deferred
  waiting : List (AgentTurnId × Deferred)
  log : List TurnLogEntry

inductive TurnStep where
  /-- An event of the driver, the random id for a turn that it opens, and whether a close
  of the provider succeeds. -/
  | event (event : ProviderDriverEvent) (turnId : AgentTurnId) (closes : Bool)
  | injected (closes : Bool)
  | send (turnId : AgentTurnId) (goal : Bool) (succeeds : Bool)
  | interrupt (turnId : AgentTurnId)
  | streamEnd (closes : Bool)

def openedIds (log : List TurnLogEntry) : List AgentTurnId :=
  log.filterMap fun entry =>
    match entry with
    | .opened turnId _ => some turnId
    | _ => none

def ActiveTurn.initial (turnId : AgentTurnId) : ActiveTurn where
  turnId
  released := 0
  sent := false
  origin := .application
  children := .empty
  completedChildren := []
  pendingCompletion := none

def ProviderEventEnvelope.owned (ownership : Option ProviderAttemptOwnership)
    (envelope : ProviderEventEnvelope) : ProviderEventEnvelope :=
  match ownership with
  | none => envelope
  | some owner =>
    match envelope with
    | .session event _ => .session event (some owner)
    | .turn turnId event own =>
      if turnId ≠ owner.turnId then .turn turnId event own
      else .turn turnId event (some owner)

namespace TurnWorld

variable [input : HandleInput] (world : TurnWorld)

def initialTurn : Option AgentTurnId :=
  if ownership.isSome then none else input.initialTurnId

def init : TurnWorld where
  state := { active := initialTurn.map ActiveTurn.initial, itemTurns := .empty }
  finished := false
  ended := false
  goalOwned := false
  injected := []
  failed := false
  nextDeferred := 1
  completed := []
  waiting := []
  log := initialTurn.toList.map fun turnId => TurnLogEntry.opened turnId 0

/-- The release of a batch sets `finished`. -/
def finishes (batch : NormalizedBatch) : Bool :=
  match ownership with
  | none => true
  | some owner => batch.events.any fun envelope => envelope.isCompletedOf owner.turnId

def releaseBatch (batch : NormalizedBatch) (byOrigin : Bool) : TurnWorld :=
  { world with
    completed := batch.released.toList ++ world.completed
    finished := world.finished || batch.released.isSome && finishes batch
    log := world.log ++ batch.events.map fun envelope =>
      TurnLogEntry.emitted (envelope.owned ownership) byOrigin }

variable (turnId : AgentTurnId)

def openProviderTurn : TurnWorld :=
  let modified := world.state.openProviderTurn turnId world.nextDeferred
  let opened := { world with
    state := modified.2
    nextDeferred := world.nextDeferred + 1
    log := if world.state.active.isNone then
        world.log ++ [TurnLogEntry.opened turnId world.nextDeferred]
      else world.log }
  opened.releaseBatch modified.1 false

def normalizeAgentEvent (event : AgentEvent) (closes : Bool) : TurnWorld :=
  if world.state.quiesces world.goalOwned event && !closes then { world with failed := true }
  else
    let modified := world.state.normalize event
    { world with state := modified.2 }.releaseBatch modified.1
      (!event.isSession && (world.state.originTurn event).isSome)

def normalize (event : ProviderDriverEvent) (turnId : AgentTurnId) (closes : Bool) :
    TurnWorld :=
  match event with
  | .agent (.nativeTurnStarted native) =>
    if world.goalOwned then world
    else world.normalizeAgentEvent (.nativeTurnStarted native) closes
  | .questionCallbackReleased _ _ =>
    world.releaseBatch { events := [sessionEnvelope event] } false
  | .agent .providerTurnStarted => world.openProviderTurn turnId
  | .agent event => world.normalizeAgentEvent event closes

def finalizeUnexpectedExit (closes : Bool) : TurnWorld :=
  if world.state.quiescesAtExit world.goalOwned && !closes then
    { world with failed := true }
  else
    let modified := world.state.finalize
    { world with state := modified.2, ended := true }.releaseBatch modified.1 false

def failSend : TurnWorld :=
  let modified := world.state.withdraw turnId
  { world with
    state := modified.2
    completed := modified.1.toList ++ world.completed
    log := world.log ++ modified.1.toList.map fun released => TurnLogEntry.sendFailed turnId
      released }

/-- The send after the `Ref.modify` that admitted it. -/
def operate (goal succeeds : Bool) : TurnWorld :=
  let operated := { world with goalOwned := world.goalOwned || goal }
  if succeeds then operated else operated.failSend turnId

def admitSend (goal succeeds : Bool) : TurnWorld :=
  let modified := world.state.admitSend turnId world.nextDeferred
  let admitted := { world with
    state := modified.2
    nextDeferred := world.nextDeferred + 1 }
  match modified.1 with
  | .skip => admitted
  | .refuse => admitted.failSend turnId
  | .operate =>
    { admitted with
      log := if world.state.active.isNone then
          world.log ++ [TurnLogEntry.opened turnId world.nextDeferred]
        else world.log }.operate turnId goal succeeds
  | .adopt released =>
    { admitted with
      completed := released :: world.completed
      log := world.log ++
        ((world.state.active.map fun active : ActiveTurn =>
            TurnLogEntry.adopted active.turnId released).toList ++
          [TurnLogEntry.opened turnId world.nextDeferred]) }.operate turnId goal succeeds

def send (goal succeeds : Bool) : TurnWorld :=
  match ownership with
  | some owner =>
    if turnId ≠ owner.turnId ∨ world.finished then world
    else if world.ended then world
    else world.admitSend turnId goal succeeds
  | none =>
    if world.ended then world else world.admitSend turnId goal succeeds

def interrupt : TurnWorld :=
  match world.state.active with
  | some active =>
    if active.turnId = turnId then
      { world with
        injected :=
          if active.pendingCompletion.isSome || world.goalOwned then
            world.injected ++ [.interrupted]
          else world.injected
        waiting := world.waiting ++ [(turnId, active.released)] }
    else world
  | none => world

def streams : Bool := !world.ended && !world.failed

def isFresh : Bool :=
  turnId ∉ openedIds world.log && ownership.all fun owner => owner.turnId ≠ turnId

/-- A send is for the turn that the handle owns, for a new turn, or for the active one. -/
def maySend : Bool :=
  (ownership.any fun owner => owner.turnId = turnId) ||
    turnId ∉ openedIds world.log || world.state.active.any fun active =>
      active.turnId = turnId

def step : TurnStep → Option TurnWorld
  | .event event turnId closes =>
    if world.streams ∧ world.isFresh turnId then some (world.normalize event turnId closes)
    else none
  | .injected closes =>
    match world.injected with
    | [] => none
    | event :: rest =>
      if world.streams then
        some ({ world with injected := rest }.normalizeAgentEvent event closes)
      else none
  | .send turnId goal succeeds =>
    if world.maySend turnId then some (world.send turnId goal succeeds) else none
  | .interrupt turnId => some (world.interrupt turnId)
  | .streamEnd closes =>
    if world.streams then some (world.finalizeUnexpectedExit closes) else none

end TurnWorld

def turnSystem [HandleInput] : TransitionSystem TurnWorld TurnStep where
  init := TurnWorld.init
  step := fun world label => world.step label

end Zuse.Agents
