import Zuse.Data.TransitionSystem
import Zuse.Domain.Core.Decider

namespace Zuse.Domain

open Zuse.Data

/-! What the decider promises about the events it returns. A command folds
several events, so the promise is stated event by event, at the state each one is
folded into; every invariant of the aggregate is then derived from it alone. -/

namespace SessionState

def Current (state : SessionState) (turnId : String) (turn : TurnState) : Prop :=
  state.currentTurnId = some turnId ∧ state.turns.get? turnId = some turn

def Scoped (state : SessionState) (providerThreadId : String) : Prop :=
  scopeProviderThreadId state.sessionIdText providerThreadId = providerThreadId

def Permits (state : SessionState) : SessionEvent → Prop
  | .sessionCreated _ => False
  | .sessionResumeSet .. => False
  | .sessionModelSet .. => state.currentTurnId = none ∧ state.queuedTurns.size = 0
  | .sessionProviderSet .. => state.currentTurnId = none ∧ state.queuedTurns.size = 0
  | .providerThreadUpdated thread =>
    state.Scoped thread.id ∧
      ∀ known, state.providerThreads.get? thread.id = some known →
        known.firstTurnOrdinal.isSome → thread.firstTurnOrdinal = known.firstTurnOrdinal
  | .activeProviderThreadSet providerThreadId _ =>
    ∀ id, providerThreadId = some id → state.Scoped id ∧ state.providerThreads.has id = true
  | .turnStarted started =>
    state.currentTurnId = none ∧ state.scheduledSuccessor = none ∧
      started.ordinal = some (state.turnCount + 1) ∧
      started.attemptId = some (attemptIdFor started.turnId 1) ∧
      (started.providerThreadId = some none ∨
        started.providerThreadId = some state.activeProviderThreadId)
  | .attemptProviderTurnBound turnId attemptId reference _ =>
    (∃ turn, state.Current turnId turn ∧ turn.activeAttemptId = attemptId) ∧
      state.attemptProviderTurns.get? attemptId = none ∧
      (∀ other, state.attemptProviderTurns.get? other ≠ some reference) ∧
      some reference.provider = state.providerId ∧ state.archived = false
  | .attemptStarted started =>
    ∃ turn, state.Current started.turnId turn ∧ turn.status ≠ .finalizing ∧
      started.ordinal = turn.attempts.size + 1 ∧
      started.attemptId = attemptIdFor started.turnId started.ordinal ∧
      started.reason ≠ .initial ∧ started.turnOrdinal = turn.ordinal ∧
      started.providerThreadId = turn.providerThreadId ∧
      started.turnRequestedAt = turn.requestedAt
  | .providerRecoveryRequested turnId attemptId _ _ _ =>
    ∃ turn, state.Current turnId turn ∧ turn.activeAttemptId = attemptId
  | .providerTurnRequested turnId attemptId _ _ _ =>
    ∃ turn, state.Current turnId turn ∧ some turn.activeAttemptId = attemptId
  | .turnsRolledBack rollback =>
    state.currentTurnId = none ∧ state.queuedTurns.size = 0 ∧
      state.providerReservation = none ∧ rollback.throughOrdinal.isInt = true ∧
      0 ≤ rollback.throughOrdinal ∧ rollback.throughOrdinal ≤ state.turnCount ∧
      rollback.rolledBackTurnIds = some
        ((state.turns.values.filter fun turn =>
          rollback.throughOrdinal < turn.ordinal).map (·.id))
  | .turnFinalizationRequested turnId attemptId _ _ =>
    ∃ turn, state.Current turnId turn ∧ turn.status ≠ .finalizing ∧ turn.activeAttemptId = attemptId
  | .turnSettled turnId _ _ =>
    (∃ turn, state.Current turnId turn) ∧ ∀ segmentId, state.openSegments.get? segmentId = none
  | .turnInterruptRequested turnId attemptId _ =>
    ∃ turn, state.Current turnId turn ∧ state.currentTurnPhase = some .running ∧
      some turn.activeAttemptId = attemptId
  | .turnInterruptAcknowledged turnId _ => ∃ turn, state.Current turnId turn
  | .turnInterruptFailed turnId _ _ => ∃ turn, state.Current turnId turn
  | .queuedTurnEnqueued queued => state.queuedTurns.get? queued.queueId = none
  | .queuedTurnUpdated queueId _ _ _ => state.queuedTurns.has queueId = true
  | .queuedTurnRemoved queueId _ => state.queuedTurns.has queueId = true
  | .queuedTurnClaimed queueId _ => state.queuedTurns.has queueId = true
  | .queuedTurnsReordered queueIds _ =>
    ∀ queueId, queueId ∈ queueIds ↔ state.queuedTurns.has queueId = true
  | .successorTurnScheduled successor _ =>
    state.currentTurnId = none ∨ state.currentTurnId = some successor.predecessorTurnId
  | .scheduledSuccessorReady successor _ =>
    state.currentTurnId = none ∧ state.scheduledSuccessor = some successor
  | .segmentOpened turnId segmentId _ _ =>
    state.currentTurnId = some turnId ∧ state.openSegments.get? segmentId = none
  | .segmentSettled turnId segmentId _ _ =>
    ∃ segment, state.openSegments.get? segmentId = some segment ∧ segment.turnId = turnId
  | .permissionRequested request => request.requestId ∉ state.pendingPermissionIds
  | .permissionResolved requestId decision _ _ =>
    requestId ∈ state.pendingPermissionIds ∧
      (requestId ∉ state.expiredPermissionIds ∨ decision = "Deny")
  | .permissionExpired requestId _ =>
    requestId ∈ state.pendingPermissionIds ∧ requestId ∉ state.expiredPermissionIds
  | .planExpired itemId _ _ => itemId ∉ state.expiredPlanIds
  | .questionExpired itemId _ =>
    itemId ∉ state.resolvedQuestionIds ∧ itemId ∉ state.expiredQuestionIds
  | .questionResolved itemId _ => itemId ∉ state.resolvedQuestionIds
  | .providerSessionReserved .. => state.archived = false
  | _ => True

def Emits (state : SessionState) (event : SessionEvent) : Prop :=
  match event with
  | .sessionCreated created =>
    state.exists_ = false ∧ ∃ fields : SessionCreatedFields, created = fields.event
  | event => state.exists_ = true ∧ state.deleted = false ∧ state.Permits event

end SessionState

variable [PayloadCodec]

def EmitsAll (state : SessionState) : List SessionEvent → Prop
  | [] => True
  | event :: rest => state.Emits event ∧ EmitsAll (evolve state event) rest

@[simp] theorem emitsAll_nil (state : SessionState) : EmitsAll state [] ↔ True := Iff.rfl

@[simp] theorem emitsAll_cons (state : SessionState) (event : SessionEvent)
    (rest : List SessionEvent) :
    EmitsAll state (event :: rest) ↔ state.Emits event ∧ EmitsAll (evolve state event) rest :=
  Iff.rfl

@[simp] theorem emitsAll_append (state : SessionState) (before after : List SessionEvent) :
    EmitsAll state (before ++ after) ↔
      EmitsAll state before ∧ EmitsAll (evolveAll state before) after := by
  induction before generalizing state with
  | nil => simp
  | cons event rest ih => simp [ih, and_assoc]

theorem EmitsAll.invariant {property : SessionState → Prop}
    (preserved : ∀ state event, property state → state.Emits event → property (evolve state event))
    {state : SessionState} {events : List SessionEvent}
    (emitted : EmitsAll state events) (holds : property state) :
    property (evolveAll state events) := by
  induction events generalizing state with
  | nil => exact holds
  | cons event rest ih => exact ih emitted.2 (preserved state event holds emitted.1)

end Zuse.Domain
