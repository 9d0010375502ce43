import Mathlib.Data.Finset.Basic
import Zuse.Data.InsertionMap
import Zuse.Domain.Core.Events
import Zuse.Domain.Core.Ids

namespace Zuse.Domain

open Zuse.Data

structure OpenSegment where
  turnId : String
  kind : SegmentKind

structure MessageCheckpointState where
  revision : Number
  final : Bool

abbrev ProviderThreadState := ProviderThreadSnapshot

structure AttemptState where
  id : String
  ordinal : Nat
  reason : AttemptReason
  status : AttemptStatus
  startedAt : Millis
  completedAt : Option Millis

/-- One counted user turn. The turn keeps its id and ordinal across attempts;
only `activeAttemptId` moves when a retry or recovery starts. -/
structure TurnState where
  id : String
  ordinal : Nat
  status : TurnStatus
  phase : Option TurnPhase
  providerThreadId : Option String
  activeAttemptId : String
  attempts : InsertionMap String AttemptState
  requestedAt : Millis
  completedAt : Option Millis

structure AttemptRecovery where
  sourceAttemptId : String
  reference : ProviderTurnReference

structure ProviderReservation where
  providerId : String
  providerSessionId : String

structure SessionState where
  exists_ : Bool
  sessionId : Option String
  chatId : Option String
  projectId : Option String
  title : Option String
  titleProvenance : TitleProvenance
  model : Option String
  status : Option SessionStatus
  queuePaused : Bool
  runtimeMode : Option RuntimeMode
  worktreeId : Option String
  permissionMode : Option PermissionMode
  archived : Bool
  deleted : Bool
  providerThreads : InsertionMap String ProviderThreadState
  activeProviderThreadId : Option String
  turns : InsertionMap String TurnState
  attemptRecoveries : InsertionMap String AttemptRecovery
  attemptProviderTurns : InsertionMap String ProviderTurnReference
  turnCount : Nat
  currentTurnId : Option String
  currentTurnPhase : Option TurnPhase
  lastSettledTurnId : Option String
  lastSettlementOutcome : Option SettlementOutcome
  settledTurnIds : Finset String
  queuedTurns : InsertionMap String QueuedTurn
  queueOrder : List String
  scheduledSuccessor : Option ScheduledSuccessor
  openSegments : InsertionMap String OpenSegment
  messageIds : Finset String
  messageCheckpoints : InsertionMap String MessageCheckpointState
  pendingPermissionIds : Finset String
  expiredPermissionIds : Finset String
  expiredQuestionIds : Finset String
  expiredPlanIds : Finset String
  resolvedQuestionIds : Finset String
  providerId : Option String
  attachedProviderId : Option String
  attachedProviderSessionId : Option String
  providerReservation : Option ProviderReservation
  version : Nat

def initialSessionState : SessionState where
  exists_ := false
  sessionId := none
  chatId := none
  projectId := none
  title := none
  titleProvenance := .manual
  model := none
  status := none
  queuePaused := false
  runtimeMode := none
  worktreeId := none
  permissionMode := none
  archived := false
  deleted := false
  providerThreads := .empty
  activeProviderThreadId := none
  turns := .empty
  attemptRecoveries := .empty
  attemptProviderTurns := .empty
  turnCount := 0
  currentTurnId := none
  currentTurnPhase := none
  lastSettledTurnId := none
  lastSettlementOutcome := none
  settledTurnIds := ∅
  queuedTurns := .empty
  queueOrder := []
  scheduledSuccessor := none
  openSegments := .empty
  messageIds := ∅
  messageCheckpoints := .empty
  pendingPermissionIds := ∅
  expiredPermissionIds := ∅
  expiredQuestionIds := ∅
  expiredPlanIds := ∅
  resolvedQuestionIds := ∅
  providerId := none
  attachedProviderId := none
  attachedProviderSessionId := none
  providerReservation := none
  version := 0

namespace SessionState

variable (state : SessionState)

def sessionIdText : String := state.sessionId.getD ""

def currentTurn : Option TurnState :=
  state.currentTurnId.bind state.turns.get?

def withProviderThread (providerThread : ProviderThreadState) (makeActive : Bool) : SessionState :=
  { state with
    providerThreads := state.providerThreads.set providerThread.id providerThread
    activeProviderThreadId :=
      if makeActive then some providerThread.id else state.activeProviderThreadId }

/-- `nativeHeadId` is `none` when the event leaves the head unspecified. -/
def bindLegacyResume (nativeThreadId : String)
    (nativeHeadId : Option (Option String)) (at_ : Millis) : SessionState :=
  let provider := state.providerId.getD "unknown"
  let id := providerThreadIdFor state.sessionIdText provider nativeThreadId
  let existing := state.providerThreads.get? id
  let currentOrdinal := state.currentTurn.map (·.ordinal)
  state.withProviderThread
    { id
      provider
      nativeThreadId
      nativeHeadId := nativeHeadId.getD (existing.bind (·.nativeHeadId))
      status := if state.currentTurnId = none then .idle else .active
      firstTurnOrdinal := (existing.bind (·.firstTurnOrdinal)).or currentOrdinal
      lastTurnOrdinal := currentOrdinal.or (existing.bind (·.lastTurnOrdinal))
      createdAt := (existing.map (·.createdAt)).getD at_
      updatedAt := at_ }
    true

def retireActiveProviderThread (at_ : Millis) : SessionState :=
  match state.activeProviderThreadId.bind state.providerThreads.get? with
  | none => { state with activeProviderThreadId := none }
  | some active =>
    { state with
      providerThreads := state.providerThreads.set active.id
        { active with status := .closed, updatedAt := at_ }
      activeProviderThreadId := none }

def withTurn (turn : TurnState) : SessionState :=
  { state with
    turns := state.turns.set turn.id turn
    turnCount := max state.turnCount turn.ordinal }

def withTurnPhase (turnId : String) (phase : TurnPhase) : SessionState :=
  match state.turns.get? turnId with
  | none => state
  | some turn =>
    if state.currentTurnId = some turnId then
      { state with
        turns := state.turns.set turnId { turn with phase := some phase }
        currentTurnPhase := some phase }
    else state

def applySessionCreated (event : SessionCreatedEvent) : SessionState :=
  let created := { state with
    exists_ := true
    sessionId := some event.sessionId
    chatId := some event.chatId
    projectId := some event.projectId
    title := event.title
    titleProvenance := titleProvenanceOrManual event.titleProvenance
    providerId := event.providerId
    model := event.model
    status := event.status
    runtimeMode := event.runtimeMode
    worktreeId := event.worktreeId.getD none
    permissionMode := event.permissionMode
    queuePaused := event.queuePaused.getD false }
  match event.cursor with
  | none => created
  | some legacyCursor =>
    created.bindLegacyResume legacyCursor (some none) event.createdAt

def applySessionStatusSet (status : SessionStatus) : SessionState :=
  match state.currentTurn with
  | none => { state with status := some status }
  | some current =>
    if status = .running ∧ current.status = .starting then
      { state.withTurn { current with status := .running } with status := some status }
    else { state with status := some status }

def applyTurnStarted (event : TurnStartedEvent) : SessionState :=
  let ordinal := event.ordinal.getD (state.turnCount + 1)
  let attemptId := event.attemptId.getD (attemptIdFor event.turnId 1)
  let providerThreadId :=
    match event.providerThreadId with
    | none => state.activeProviderThreadId
    | some threadId => threadId.map (scopeProviderThreadId state.sessionIdText)
  let attempt : AttemptState :=
    { id := attemptId, ordinal := 1, reason := .initial, status := .running,
      startedAt := event.startedAt, completedAt := none }
  let turn : TurnState :=
    { id := event.turnId
      ordinal
      status := .starting
      phase := some .running
      providerThreadId
      activeAttemptId := attemptId
      attempts := InsertionMap.empty.set attemptId attempt
      requestedAt := event.startedAt
      completedAt := none }
  let withThread :=
    match providerThreadId.bind state.providerThreads.get? with
    | none => state.withTurn turn
    | some thread =>
      (state.withTurn turn).withProviderThread
        { thread with
          status := .active
          firstTurnOrdinal := thread.firstTurnOrdinal.or (some ordinal)
          lastTurnOrdinal := some ordinal
          updatedAt := event.startedAt }
        false
  { withThread with
    currentTurnId := some event.turnId
    currentTurnPhase := some .running }

def applyAttemptStarted (event : AttemptStartedEvent) : SessionState :=
  match state.turns.get? event.turnId with
  | none => state
  | some turn =>
    let superseded :=
      match turn.attempts.get? turn.activeAttemptId with
      | none => turn.attempts
      | some previous =>
        if previous.status = AttemptStatus.running then
          turn.attempts.set previous.id
            { previous with
              status := .superseded
              completedAt := some event.startedAt }
        else turn.attempts
    let attempts := superseded.set event.attemptId
      { id := event.attemptId, ordinal := event.ordinal, reason := event.reason,
        status := .running, startedAt := event.startedAt, completedAt := none }
    { state.withTurn { turn with
        status := .starting
        phase := some .running
        activeAttemptId := event.attemptId
        attempts } with
      currentTurnPhase :=
        if state.currentTurnId = some event.turnId then some .running
        else state.currentTurnPhase }

def applyTurnsRolledBack (event : TurnsRolledBackEvent) : SessionState :=
  { state with
    turns := state.turns.mapValues fun turn =>
      if event.throughOrdinal < turn.ordinal then { turn with status := .rolledBack }
      else turn
    messageIds := state.messageIds \ event.removedMessageIds.toFinset
    messageCheckpoints :=
      event.removedMessageIds.foldl InsertionMap.delete state.messageCheckpoints
    providerThreads := state.providerThreads.mapValues fun thread =>
      { thread with status := .closed, updatedAt := event.rolledBackAt }
    pendingPermissionIds := ∅
    expiredPermissionIds := state.expiredPermissionIds ∪ state.pendingPermissionIds
    activeProviderThreadId := none
    lastSettledTurnId := none
    lastSettlementOutcome := none }

def applyTurnSettled (turnId : String)
    (outcome : SettlementOutcome) (settledAt : Millis) : SessionState :=
  let turns :=
    match state.turns.get? turnId with
    | none => state.turns
    | some turn =>
      let attempts :=
        match turn.attempts.get? turn.activeAttemptId with
        | none => turn.attempts
        | some active =>
          turn.attempts.set active.id
            { active with
              status := outcome.attemptStatus
              completedAt := some settledAt }
      (state.withTurn { turn with
        status := outcome.turnStatus
        phase := none
        attempts
        completedAt := some settledAt }).turns
  let withIdleThread :=
    match state.activeProviderThreadId.bind state.providerThreads.get? with
    | none => state
    | some activeThread =>
      if activeThread.status = ProviderThreadStatus.active then
        state.withProviderThread
          { activeThread with status := .idle, updatedAt := settledAt } false
      else state
  { withIdleThread with
    turns
    currentTurnId := none
    currentTurnPhase := none
    lastSettledTurnId := some turnId
    lastSettlementOutcome := some outcome
    settledTurnIds := insert turnId state.settledTurnIds }

def removeQueuedTurn (queueId : String) : SessionState :=
  { state with
    queuedTurns := state.queuedTurns.delete queueId
    queueOrder := state.queueOrder.filter (· ≠ queueId) }

/-- Release the reservation when it names the provider session of the event. -/
def releaseReservation (providerSessionId : Option String) :
    SessionState :=
  { state with
    providerReservation :=
      if state.providerReservation.map (·.providerSessionId) = providerSessionId then none
      else state.providerReservation }

section Codec

variable [PayloadCodec]

def evolveMessage (state : SessionState) (event : MessageFields) : SessionState :=
  let answered : Option String :=
    if event.kind = "user_question_answer" then
      match decodeContent event.contentJson with
      | some (.userQuestionAnswer itemId _) => some itemId
      | _ => none
    else none
  { state with
    expiredQuestionIds :=
      answered.elim state.expiredQuestionIds state.expiredQuestionIds.erase
    resolvedQuestionIds :=
      answered.elim state.resolvedQuestionIds (insert · state.resolvedQuestionIds)
    messageIds := insert event.messageId state.messageIds
    messageCheckpoints :=
      match event.checkpointRevision with
      | none => state.messageCheckpoints
      | some revision =>
        state.messageCheckpoints.set event.messageId
          { revision, final := event.checkpointFinal = some true } }

def apply (state : SessionState) : SessionEvent → SessionState
  | .sessionCreated created => state.applySessionCreated created
  | .sessionTitleSet title titleProvenance _ =>
    { state with title := some title
                 titleProvenance := titleProvenanceOrManual titleProvenance }
  | .sessionModelSet model _ =>
    { state with
      model := some model
      attachedProviderId := none
      attachedProviderSessionId := none
      providerReservation := none }
  | .sessionProviderSet providerId model updatedAt =>
    { state.retireActiveProviderThread updatedAt with
      providerId := some providerId
      model := some model
      attachedProviderId := none
      attachedProviderSessionId := none
      providerReservation := none }
  | .sessionRuntimeModeSet runtimeMode _ => { state with runtimeMode := some runtimeMode }
  | .sessionPermissionModeSet permissionMode _ =>
    { state with permissionMode := some permissionMode }
  | .sessionWorktreeSet worktreeId updatedAt =>
    if state.worktreeId = worktreeId then state
    else
      { state.retireActiveProviderThread updatedAt with
        worktreeId
        providerReservation := none }
  | .sessionStatusSet status _ => state.applySessionStatusSet status
  | .sessionQueuePausedSet paused _ => { state with queuePaused := paused }
  | .sessionResumeSet cursor providerEventCursor updatedAt =>
    state.bindLegacyResume (cursor.getD "") providerEventCursor updatedAt
  | .providerThreadUpdated providerThread =>
    let id := scopeProviderThreadId state.sessionIdText providerThread.id
    let previous := state.providerThreads.get? id
    state.withProviderThread
      { providerThread with
        id
        createdAt := (previous.map (·.createdAt)).getD providerThread.createdAt }
      false
  | .activeProviderThreadSet providerThreadId _ =>
    { state with
      activeProviderThreadId :=
        providerThreadId.map (scopeProviderThreadId state.sessionIdText) }
  | .sessionArchived _ => { state with archived := true, providerReservation := none }
  | .sessionUnarchived _ => { state with archived := false }
  | .sessionDeleted _ => { state with deleted := true, providerReservation := none }
  | .turnStarted started => state.applyTurnStarted started
  | .attemptProviderTurnBound turnId attemptId reference _ =>
    match (state.turns.get? turnId).bind (·.attempts.get? attemptId) with
    | none => state
    | some _ =>
      if state.attemptProviderTurns.has attemptId then state
      else
        { state with
          attemptProviderTurns :=
            state.attemptProviderTurns.set attemptId reference }
  | .attemptStarted started => state.applyAttemptStarted started
  | .providerRecoveryRequested _ attemptId sourceAttemptId reference _ =>
    { state with
      attemptRecoveries :=
        state.attemptRecoveries.set attemptId { sourceAttemptId, reference } }
  | .providerTurnRequested .. => state
  | .turnsRolledBack rollback => state.applyTurnsRolledBack rollback
  | .turnFinalizationRequested turnId _ _ _ =>
    match state.turns.get? turnId with
    | none => state
    | some turn => state.withTurn { turn with status := .finalizing }
  | .turnSettled turnId outcome settledAt => state.applyTurnSettled turnId outcome settledAt
  | .turnInterruptRequested turnId _ _ => state.withTurnPhase turnId .interruptRequested
  | .turnInterruptAcknowledged turnId _ =>
    state.withTurnPhase turnId .interruptAcknowledged
  | .turnInterruptFailed turnId _ _ => state.withTurnPhase turnId .running
  | .queuedTurnEnqueued queued =>
    { state with
      queuedTurns := state.queuedTurns.set queued.queueId queued
      queueOrder := state.queueOrder ++ [queued.queueId] }
  | .queuedTurnUpdated queueId inputJson _ ready =>
    match state.queuedTurns.get? queueId with
    | none => state
    | some current =>
      { state with
        queuedTurns :=
          state.queuedTurns.set queueId { current with inputJson, ready } }
  | .queuedTurnRemoved queueId _ => state.removeQueuedTurn queueId
  | .queuedTurnsReordered queueIds _ => { state with queueOrder := queueIds }
  | .queuedTurnClaimed queueId _ => state.removeQueuedTurn queueId
  | .successorTurnScheduled successor _ => { state with scheduledSuccessor := some successor }
  | .scheduledSuccessorReady _ _ => { state with scheduledSuccessor := none }
  | .messagePersisted message => state.evolveMessage message
  | .segmentOpened turnId segmentId kind _ =>
    { state with openSegments := state.openSegments.set segmentId { turnId, kind } }
  | .segmentSettled _ segmentId _ _ =>
    { state with openSegments := state.openSegments.delete segmentId }
  | .permissionRequested request =>
    { state with pendingPermissionIds := insert request.requestId state.pendingPermissionIds }
  | .permissionResolved requestId _ _ _ =>
    { state with
      expiredPermissionIds := state.expiredPermissionIds.erase requestId
      pendingPermissionIds := state.pendingPermissionIds.erase requestId }
  | .permissionExpired requestId _ =>
    { state with expiredPermissionIds := insert requestId state.expiredPermissionIds }
  | .planExpired itemId _ _ =>
    { state with expiredPlanIds := insert itemId state.expiredPlanIds }
  | .questionExpired itemId _ =>
    { state with expiredQuestionIds := insert itemId state.expiredQuestionIds }
  | .questionResolved itemId _ =>
    { state with
      expiredQuestionIds := state.expiredQuestionIds.erase itemId
      resolvedQuestionIds := insert itemId state.resolvedQuestionIds }
  | .providerSessionReserved providerId providerSessionId _ =>
    { state with providerReservation := some { providerId, providerSessionId } }
  | .providerAttached providerId providerSessionId _ =>
    { state with
      attachedProviderId := some providerId
      attachedProviderSessionId := providerSessionId
      providerReservation :=
        if state.providerReservation.map (·.providerSessionId) = providerSessionId then
          state.providerReservation
        else none }
  | .providerStopRequested _ providerSessionId _ =>
    state.releaseReservation providerSessionId
  | .providerDetached _ providerSessionId _ =>
    { state.releaseReservation providerSessionId with
      attachedProviderId := none
      attachedProviderSessionId := none }

end Codec

section Changes

variable (state : SessionState)

theorem retireActiveProviderThread_changes (at_ : Millis) :
    ∃ threads, state.retireActiveProviderThread at_ =
      { state with providerThreads := threads, activeProviderThreadId := none } := by
  unfold retireActiveProviderThread
  split
  · exact ⟨_, rfl⟩
  · exact ⟨_, rfl⟩

theorem withTurnPhase_changes (turnId : String) (phase : TurnPhase) :
    ∃ turns currentPhase, state.withTurnPhase turnId phase =
      { state with turns, currentTurnPhase := currentPhase } := by
  unfold withTurnPhase
  split
  · exact ⟨_, _, rfl⟩
  · split
    · exact ⟨_, _, rfl⟩
    · exact ⟨_, _, rfl⟩

theorem applySessionStatusSet_changes (status : SessionStatus) :
    ∃ turns turnCount, state.applySessionStatusSet status =
      { state with status := some status, turns, turnCount } := by
  unfold applySessionStatusSet
  split
  · exact ⟨_, _, rfl⟩
  · split
    · exact ⟨_, _, rfl⟩
    · exact ⟨_, _, rfl⟩

theorem applyTurnStarted_changes (started : TurnStartedEvent) :
    ∃ turns turnCount threads, state.applyTurnStarted started =
      { state with
        turns
        turnCount
        providerThreads := threads
        currentTurnId := some started.turnId
        currentTurnPhase := some .running } := by
  unfold applyTurnStarted
  simp only
  split
  · exact ⟨_, _, _, rfl⟩
  · exact ⟨_, _, _, rfl⟩

theorem applyAttemptStarted_changes (started : AttemptStartedEvent) :
    ∃ turns turnCount currentPhase, state.applyAttemptStarted started =
      { state with turns, turnCount, currentTurnPhase := currentPhase } := by
  unfold applyAttemptStarted
  split
  · exact ⟨_, _, _, rfl⟩
  · exact ⟨_, _, _, rfl⟩

theorem applyTurnSettled_changes (turnId : String) (outcome : SettlementOutcome)
    (settledAt : Millis) :
    ∃ turns threads, state.applyTurnSettled turnId outcome settledAt =
      { state with
        turns
        providerThreads := threads
        currentTurnId := none
        currentTurnPhase := none
        lastSettledTurnId := some turnId
        lastSettlementOutcome := some outcome
        settledTurnIds := insert turnId state.settledTurnIds } := by
  unfold applyTurnSettled
  simp only
  split
  · exact ⟨_, _, rfl⟩
  · split
    · exact ⟨_, _, rfl⟩
    · exact ⟨_, _, rfl⟩

variable [PayloadCodec]

theorem apply_sessionWorktreeSet_changes (worktreeId : Option String) (updatedAt : Millis) :
    ∃ threads active reservation, state.apply (.sessionWorktreeSet worktreeId updatedAt) =
      { state with
        worktreeId
        providerThreads := threads
        activeProviderThreadId := active
        providerReservation := reservation } := by
  rw [apply]
  split
  · rename_i same
    subst same
    exact ⟨_, _, _, rfl⟩
  · obtain ⟨threads, retired⟩ := state.retireActiveProviderThread_changes updatedAt
    rw [retired]
    exact ⟨_, _, _, rfl⟩

theorem apply_attemptProviderTurnBound_changes (turnId attemptId : String)
    (reference : ProviderTurnReference) (boundAt : Millis) :
    ∃ bound, state.apply (.attemptProviderTurnBound turnId attemptId reference boundAt) =
      { state with attemptProviderTurns := bound } := by
  rw [apply]
  split
  · exact ⟨_, rfl⟩
  · split
    · exact ⟨_, rfl⟩
    · exact ⟨_, rfl⟩

theorem apply_turnFinalizationRequested_changes (turnId attemptId : String)
    (outcome : SettlementOutcome) (settledAt : Millis) :
    ∃ turns turnCount,
      state.apply (.turnFinalizationRequested turnId attemptId outcome settledAt) =
        { state with turns, turnCount } := by
  rw [apply]
  split
  · exact ⟨_, _, rfl⟩
  · exact ⟨_, _, rfl⟩

theorem apply_queuedTurnUpdated_changes (queueId inputJson : String) (updatedAt : Millis)
    (ready : Bool) :
    ∃ queuedTurns, state.apply (.queuedTurnUpdated queueId inputJson updatedAt ready) =
      { state with queuedTurns } := by
  rw [apply]
  split
  · exact ⟨_, rfl⟩
  · exact ⟨_, rfl⟩

end Changes

/-- The part of the aggregate that no configuration, provider or turn event touches. -/
structure Conversation where
  exists_ : Bool
  sessionId : Option String
  deleted : Bool
  queuedTurns : InsertionMap String QueuedTurn
  queueOrder : List String
  messageIds : Finset String
  messageCheckpoints : InsertionMap String MessageCheckpointState
  pendingPermissionIds : Finset String
  expiredPermissionIds : Finset String
  expiredQuestionIds : Finset String
  expiredPlanIds : Finset String
  resolvedQuestionIds : Finset String
  scheduledSuccessor : Option ScheduledSuccessor

def conversation : Conversation where
  exists_ := state.exists_
  sessionId := state.sessionId
  deleted := state.deleted
  queuedTurns := state.queuedTurns
  queueOrder := state.queueOrder
  messageIds := state.messageIds
  messageCheckpoints := state.messageCheckpoints
  pendingPermissionIds := state.pendingPermissionIds
  expiredPermissionIds := state.expiredPermissionIds
  expiredQuestionIds := state.expiredQuestionIds
  expiredPlanIds := state.expiredPlanIds
  resolvedQuestionIds := state.resolvedQuestionIds
  scheduledSuccessor := state.scheduledSuccessor

end SessionState

/-- The events that leave the conversation alone although their branch of the fold
distinguishes cases. -/
def SessionEvent.executes : SessionEvent → Bool
  | .sessionProviderSet .. | .sessionWorktreeSet .. | .sessionStatusSet ..
  | .turnStarted _ | .attemptProviderTurnBound .. | .attemptStarted _
  | .turnFinalizationRequested .. | .turnSettled .. | .turnInterruptRequested ..
  | .turnInterruptAcknowledged .. | .turnInterruptFailed .. => true
  | _ => false

/-- The events that move only the status, the turns, the phase of the current one and the
provider turns that are bound. -/
def SessionEvent.adjusts : SessionEvent → Bool
  | .sessionStatusSet .. | .attemptProviderTurnBound .. | .attemptStarted _
  | .turnFinalizationRequested .. | .turnInterruptRequested .. | .turnInterruptAcknowledged ..
  | .turnInterruptFailed .. => true
  | _ => false

section Adjusts

variable [PayloadCodec] (state : SessionState) {event : SessionEvent}

theorem SessionState.apply_adjusts (adjusts : event.adjusts = true) :
    ∃ status turns turnCount attemptProviderTurns currentTurnPhase, state.apply event =
      { state with status, turns, turnCount, attemptProviderTurns, currentTurnPhase } := by
  cases event with
  | sessionStatusSet status =>
    obtain ⟨_, _, changed⟩ := state.applySessionStatusSet_changes status
    exact ⟨_, _, _, _, _, changed⟩
  | attemptProviderTurnBound turnId attemptId reference boundAt =>
    obtain ⟨_, changed⟩ :=
      state.apply_attemptProviderTurnBound_changes turnId attemptId reference boundAt
    exact ⟨_, _, _, _, _, changed⟩
  | attemptStarted started =>
    obtain ⟨_, _, _, changed⟩ := state.applyAttemptStarted_changes started
    exact ⟨_, _, _, _, _, changed⟩
  | turnFinalizationRequested turnId attemptId outcome settledAt =>
    obtain ⟨_, _, changed⟩ :=
      state.apply_turnFinalizationRequested_changes turnId attemptId outcome settledAt
    exact ⟨_, _, _, _, _, changed⟩
  | turnInterruptRequested turnId =>
    obtain ⟨_, _, changed⟩ := state.withTurnPhase_changes turnId .interruptRequested
    exact ⟨_, _, _, _, _, changed⟩
  | turnInterruptAcknowledged turnId =>
    obtain ⟨_, _, changed⟩ := state.withTurnPhase_changes turnId .interruptAcknowledged
    exact ⟨_, _, _, _, _, changed⟩
  | turnInterruptFailed turnId =>
    obtain ⟨_, _, changed⟩ := state.withTurnPhase_changes turnId .running
    exact ⟨_, _, _, _, _, changed⟩
  | _ => cases adjusts

theorem SessionState.conversation_apply (executes : event.executes = true) :
    (state.apply event).conversation = state.conversation := by
  by_cases adjusts : event.adjusts = true
  · obtain ⟨_, _, _, _, _, changed⟩ := state.apply_adjusts adjusts
    rw [changed]
    rfl
  cases event with
  | sessionProviderSet providerId model updatedAt =>
    obtain ⟨_, changed⟩ := state.retireActiveProviderThread_changes updatedAt
    rw [apply, changed]
    rfl
  | sessionWorktreeSet worktreeId updatedAt =>
    obtain ⟨_, _, _, changed⟩ := state.apply_sessionWorktreeSet_changes worktreeId updatedAt
    rw [changed]
    rfl
  | turnStarted started =>
    obtain ⟨_, _, _, changed⟩ := state.applyTurnStarted_changes started
    rw [apply, changed]
    rfl
  | turnSettled turnId outcome settledAt =>
    obtain ⟨_, _, changed⟩ := state.applyTurnSettled_changes turnId outcome settledAt
    rw [apply, changed]
    rfl
  | _ => first | exact absurd rfl adjusts | cases executes

end Adjusts

section Evolve

variable [PayloadCodec]

def evolve (state : SessionState) (event : SessionEvent) : SessionState :=
  { state.apply event with version := state.version + 1 }

/-- The source copies the message collections once for a run of messages; the
values are those of the plain fold. -/
def evolveAll (state : SessionState) (events : List SessionEvent) : SessionState :=
  events.foldl evolve state

variable (state : SessionState)
include state

@[simp] theorem evolve_version (event : SessionEvent) :
    (evolve state event).version = state.version + 1 := rfl

@[simp] theorem evolveAll_nil : evolveAll state [] = state := rfl

@[simp] theorem evolveAll_cons (event : SessionEvent) (events : List SessionEvent) :
    evolveAll state (event :: events) = evolveAll (evolve state event) events := rfl

@[simp] theorem evolveAll_append (before after : List SessionEvent) :
    evolveAll state (before ++ after) = evolveAll (evolveAll state before) after :=
  List.foldl_append

@[simp] theorem evolveAll_version (events : List SessionEvent) :
    (evolveAll state events).version = state.version + events.length := by
  induction events generalizing state with
  | nil => rfl
  | cons event rest ih =>
    rw [evolveAll_cons, ih, evolve_version, List.length_cons]
    omega

end Evolve

end Zuse.Domain
