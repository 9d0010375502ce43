import Zuse.Data.InsertionMap
import Zuse.Agents.AgentEvents

namespace Zuse.Agents

open Zuse.Data

/-! The handle that scopes provider events to turns: the state that it keeps, and the
functions that its handlers apply to it. -/

abbrev Deferred := Nat

inductive ChildKind where
  | subagent
  | background
  deriving DecidableEq

structure NativeChild extends ToolUse where
  nativeChildId : String
  childKind : ChildKind

inductive TurnOrigin where
  | application
  | provider
  deriving DecidableEq

structure ActiveTurn where
  turnId : AgentTurnId
  released : Deferred
  sent : Bool
  origin : TurnOrigin
  children : InsertionMap AgentItemId NativeChild
  completedChildren : List AgentItemId
  /-- The reason of a `Completed` that waits for the children. -/
  pendingCompletion : Option CompletedReason

def maxItemTurns : Nat := 4096

structure NormalizedBatch where
  events : List ProviderEventEnvelope
  released : Option Deferred := none

def NormalizedBatch.empty : NormalizedBatch := { events := [] }

def sessionEnvelope (event : ProviderDriverEvent) : ProviderEventEnvelope :=
  .session event none

def turnEnvelope (turnId : AgentTurnId) (event : AgentEvent) : ProviderEventEnvelope :=
  .turn turnId event none

abbrev ItemTurns := InsertionMap AgentItemId AgentTurnId

namespace ItemTurns

variable (itemTurns : ItemTurns)

def rememberItem (event : AgentEvent) (turnId : AgentTurnId) : ItemTurns :=
  match event with
  | .toolUse use =>
    let remembered := (itemTurns.delete use.itemId).set use.itemId turnId
    if maxItemTurns < remembered.size then
      match remembered.keys.head? with
      | some oldest => remembered.delete oldest
      | none => remembered
    else remembered
  | _ => itemTurns

def originTurnOf (event : AgentEvent) : Option AgentTurnId :=
  if event.isTerminal then none
  else (event.parentItemId.bind itemTurns.get?).or (event.toolItemId.bind itemTurns.get?)

end ItemTurns

def NativeChild.ofToolUse (use : ToolUse) : NativeChild where
  toToolUse := use
  nativeChildId :=
    ((use.subagent.map (·.childSessionId)).or use.backgroundTask).getD use.itemId
  childKind := if use.subagent.isNone then .background else .subagent

def NativeChild.stopped (child : NativeChild) : AgentEvent :=
  match child.childKind with
  | .background =>
    .toolResult
      { itemId := child.itemId
        output := "Background task stopped when its parent execution ended."
        isError := true
        backgroundOutcome := some .stopped }
  | .subagent =>
    .subagentSummary
      { itemId := child.itemId
        childSessionId := some child.nativeChildId
        presentation := some ((child.subagent.map (·.presentation)).getD .detached)
        agentName := "Delegated work"
        model := "unknown"
        turns := 0
        durationMs := 0
        summary := "Child stopped when its parent execution ended."
        isError := true }

def NativeChild.rootCompleted (child : NativeChild) : AgentEvent :=
  .subagentProgress
    { childId := child.itemId
      parentId := child.itemId
      childSessionId := child.nativeChildId
      status := "running"
      rootCompleted := some true
      durationMs := 0
      turns := 0
      toolCalls := 0
      tokens := 0
      contextPercentage := 0
      toolsUsed := []
      errorCount := 0 }

namespace ActiveTurn

variable (active : ActiveTurn)

def stoppedChildren : List ProviderEventEnvelope :=
  active.children.values.map fun child => turnEnvelope active.turnId child.stopped

def isBackgroundChild (itemId : AgentItemId) : Bool :=
  (active.children.get? itemId).any fun child => child.childKind = .background

/-- The event is of a child that a turn with a pending completion still waits for. -/
def knows (event : AgentEvent) : Bool :=
  let byParent := event.parentItemId.any active.children.has
  match event with
  | .subagentSummary summary => active.children.has summary.itemId
  | .toolUse use => if use.subagent.isSome then active.children.has use.itemId else byParent
  | .toolResult result =>
    if active.isBackgroundChild result.itemId then active.children.has result.itemId
    else byParent
  | .subagentProgress progress =>
    active.children.values.any fun child => child.nativeChildId = progress.childSessionId
  | _ => byParent

/-- A turn with a pending completion drops what is not of its children. -/
def drops (event : AgentEvent) : Bool :=
  active.pendingCompletion.isSome && !event.isTerminal && !event.isStatus && !active.knows event

end ActiveTurn

structure TurnState where
  active : Option ActiveTurn
  itemTurns : ItemTurns

namespace TurnState

variable (state : TurnState)

/-- `normalize` of a `ProviderTurnStarted`. -/
def openProviderTurn (turnId : AgentTurnId) (released : Deferred) : NormalizedBatch × TurnState :=
  match state.active with
  | some _ => (.empty, state)
  | none =>
    ({ events := [turnEnvelope turnId .providerTurnStarted] },
      { state with
        active := some
          { turnId
            released
            sent := true
            origin := .provider
            children := .empty
            completedChildren := []
            pendingCompletion := none } })

def originTurn (event : AgentEvent) : Option AgentTurnId :=
  (state.itemTurns.originTurnOf event).filter fun origin =>
    some origin ≠ state.active.map (·.turnId)

variable (active : ActiveTurn)

def deliver (event : AgentEvent) : NormalizedBatch × TurnState :=
  ({ events := [turnEnvelope active.turnId event] },
    { state with itemTurns := state.itemTurns.rememberItem event active.turnId })

def registerChild (use : ToolUse) : NormalizedBatch × TurnState :=
  if use.itemId ∈ active.completedChildren then (.empty, state)
  else
    ({ events := [turnEnvelope active.turnId (.toolUse use)] },
      { active := some { active with
          children := active.children.set use.itemId (.ofToolUse use) }
        itemTurns := state.itemTurns.rememberItem (.toolUse use) active.turnId })

def settleChild (itemId : AgentItemId) (event : AgentEvent) : NormalizedBatch × TurnState :=
  let children := active.children.delete itemId
  let events := [turnEnvelope active.turnId event]
  match active.pendingCompletion with
  | some reason =>
    if children.size = 0 then
      ({ events := events ++ [turnEnvelope active.turnId (.completed reason)]
         released := some active.released },
        { state with active := none })
    else
      ({ events },
        { state with
          active := some { active with
            children
            completedChildren := active.completedChildren ++ [itemId] } })
  | none =>
    ({ events },
      { state with
        active := some { active with
          children
          completedChildren := active.completedChildren ++ [itemId] } })

def parkCompletion (reason : CompletedReason) : NormalizedBatch × TurnState :=
  match active.pendingCompletion with
  | some _ => (.empty, state)
  | none =>
    ({ events := active.children.values.map fun child =>
        turnEnvelope active.turnId child.rootCompleted },
      { state with active := some { active with pendingCompletion := some reason } })

def endTurn (events : List AgentEvent) (session : List ProviderEventEnvelope) :
    NormalizedBatch × TurnState :=
  ({ events :=
      active.stoppedChildren ++ events.map (turnEnvelope active.turnId) ++ session
     released := some active.released },
    { state with active := none })

def statusMessage : AgentStatus → String
  | .idle => "idle"
  | .starting => "starting"
  | .running => "running"
  | .waiting => "waiting"
  | .closed => "closed"
  | .error => "error"

/-- A `Status` that does not wait for children. -/
def changeStatus (status : AgentStatus) : NormalizedBatch × TurnState :=
  let session := [sessionEnvelope (.agent (.status status))]
  match status with
  | .idle => state.endTurn active [.completed .ended] session
  | .closed | .error =>
    state.endTurn active
      [.error ("Provider entered " ++ statusMessage status ++ " state"), .completed .error] session
  | _ => ({ events := session }, state)

/-- `normalize` of an event of the active turn. -/
def normalizeActive (event : AgentEvent) : NormalizedBatch × TurnState :=
  if active.drops event then (.empty, state)
  else
    match event with
    | .toolUse use =>
      if use.subagent.isSome ∨ use.backgroundTask.isSome then
        state.registerChild active use
      else state.deliver active event
    | .subagentSummary summary => state.settleChild active summary.itemId event
    | .toolResult result =>
      if active.isBackgroundChild result.itemId then
        state.settleChild active result.itemId event
      else state.deliver active event
    | .completed reason =>
      if 0 < active.children.size ∧ reason = .ended then
        state.parkCompletion active reason
      else state.endTurn active [event] []
    | .status status =>
      if 0 < active.children.size ∧ status = .idle then state.parkCompletion active .ended
      else state.changeStatus active status
    | .interrupted => state.endTurn active [event, .completed .interrupted] []
    | .error _ => state.endTurn active [event, .completed .error] []
    | _ => state.deliver active event

/-- `normalize` of an event while no turn is active. -/
def normalizeIdle (event : AgentEvent) : NormalizedBatch × TurnState :=
  match event with
  | .status _ | .userQuestion _ _ | .userQuestionResolved _ =>
    ({ events := [sessionEnvelope (.agent event)] }, state)
  | _ => (.empty, state)

/-- The `Ref.modify` of `normalize`. -/
def normalize (event : AgentEvent) : NormalizedBatch × TurnState :=
  if event.isSession then ({ events := [sessionEnvelope (.agent event)] }, state)
  else
    match state.originTurn event with
    | some origin =>
      ({ events := [turnEnvelope origin event] },
        { state with itemTurns := state.itemTurns.rememberItem event origin })
    | none =>
      match state.active with
      | some active => state.normalizeActive active event
      | none => state.normalizeIdle event

/-- The `Ref.modify` of `finalizeUnexpectedExit`. -/
def finalize : NormalizedBatch × TurnState :=
  match state.active with
  | none => (.empty, state)
  | some active =>
    state.endTurn active
      [.error "Provider event stream ended before the turn settled", .completed .error] []

/-- `normalize` closes the provider before the event ends a turn whose children or goal
may still run. -/
def quiesces (goalOwned : Bool) (event : AgentEvent) : Bool :=
  state.active.any fun active =>
    (0 < active.children.size || goalOwned) &&
      match event with
      | .status .closed | .status .error | .interrupted | .error _
      | .completed .error | .completed .interrupted => true
      | _ => false

/-- `finalizeUnexpectedExit` closes the provider first. -/
def quiescesAtExit (goalOwned : Bool) : Bool :=
  state.active.any fun active => 0 < active.children.size || goalOwned

/-- What a send does after its `Ref.modify`. -/
inductive SendDecision where
  | skip
  | operate
  | adopt (released : Deferred)
  | refuse

/-- The `Ref.modify` of `admitSend`. -/
def admitSend (turnId : AgentTurnId) (released : Deferred) : SendDecision × TurnState :=
  match state.active with
  | some active =>
    if active.turnId = turnId then
      if active.sent then (.skip, state)
      else (.operate, { state with active := some { active with sent := true } })
    else if active.origin = .provider then
      (.adopt active.released,
        { state with
          active := some { active with
            turnId
            released
            sent := true
            origin := .application } })
    else (.refuse, state)
  | none =>
    (.operate,
      { state with
        active := some
          { turnId
            released
            sent := true
            origin := .application
            children := .empty
            completedChildren := []
            pendingCompletion := none } })

/-- The `Ref.modify` after a send failed. -/
def withdraw (turnId : AgentTurnId) : Option Deferred × TurnState :=
  match state.active with
  | some active =>
    if active.turnId = turnId then (some active.released, { state with active := none })
    else (none, state)
  | none => (none, state)

end TurnState

end Zuse.Agents
