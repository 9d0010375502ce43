import Zuse.Domain.Core.Commands

namespace Zuse.Domain

/-- A provider-native conversation handle owned by a session. The native id is a
reference the driver needs to resume; the app id is the identity. -/
structure ProviderThreadSnapshot where
  id : String
  provider : String
  nativeThreadId : String
  nativeHeadId : Option String
  status : ProviderThreadStatus
  firstTurnOrdinal : Option Nat
  lastTurnOrdinal : Option Nat
  createdAt : Millis
  updatedAt : Millis
  deriving DecidableEq

/-- Older creation events lack the fields that are optional here. -/
structure SessionCreatedEvent where
  delegation : Option SessionDelegation
  sessionId : String
  chatId : String
  projectId : String
  createdAt : Millis
  title : Option String
  titleProvenance : Option TitleProvenance
  providerId : Option String
  model : Option String
  status : Option SessionStatus
  cursor : Option String
  runtimeMode : Option RuntimeMode
  agentsJson : Option (Option String)
  worktreeId : Option (Option String)
  forkedFromSessionId : Option (Option String)
  forkedFromMessageId : Option (Option String)
  permissionMode : Option PermissionMode
  toolSearch : Option Bool
  queuePaused : Option Bool
  providerStartJson : Option String
  deriving DecidableEq

def SessionCreatedFields.event (created : SessionCreatedFields) : SessionCreatedEvent where
  delegation := created.delegation
  sessionId := created.sessionId
  chatId := created.chatId
  projectId := created.projectId
  createdAt := created.createdAt
  title := some created.title
  titleProvenance := created.titleProvenance
  providerId := some created.providerId
  model := some created.model
  status := some created.status
  cursor := created.cursor
  runtimeMode := some created.runtimeMode
  agentsJson := some created.agentsJson
  worktreeId := some created.worktreeId
  forkedFromSessionId := some created.forkedFromSessionId
  forkedFromMessageId := some created.forkedFromMessageId
  permissionMode := some created.permissionMode
  toolSearch := some created.toolSearch
  queuePaused := some created.queuePaused
  providerStartJson := created.providerStartJson

structure AttemptStartedEvent where
  turnId : String
  attemptId : String
  ordinal : Nat
  reason : AttemptReason
  startedAt : Millis
  turnOrdinal : Nat
  providerThreadId : Option String
  turnRequestedAt : Millis
  deriving DecidableEq

structure TurnStartedEvent where
  turnId : String
  startedAt : Millis
  ordinal : Option Nat
  attemptId : Option String
  providerThreadId : Option (Option String)
  deriving DecidableEq

structure TurnsRolledBackEvent where
  rolledBackTurnIds : Option (List String)
  throughOrdinal : Number
  messageSequence : Number
  removedMessageIds : List String
  rolledBackAt : Millis
  deriving DecidableEq

/-- A queued turn as its enqueuing event carries it and as the state keeps it. -/
structure QueuedTurn where
  queueId : String
  inputJson : String
  position : Number
  createdAt : Millis
  ready : Bool
  deriving DecidableEq

structure ScheduledSuccessor where
  predecessorTurnId : String
  turnId : String
  queueId : String
  inputJson : String
  deriving DecidableEq

structure PermissionRequestedEvent where
  inputOwner : Option InputRequestOwner
  requestId : String
  turnId : String
  payloadJson : String
  requestedAt : Millis
  deriving DecidableEq

inductive SessionEvent where
  | sessionCreated (created : SessionCreatedEvent)
  | sessionTitleSet (title : String) (titleProvenance : Option TitleProvenance) (updatedAt : Millis)
  | sessionModelSet (model : String) (updatedAt : Millis)
  | sessionProviderSet (providerId model : String) (updatedAt : Millis)
  | sessionRuntimeModeSet (runtimeMode : RuntimeMode) (updatedAt : Millis)
  | sessionPermissionModeSet (permissionMode : PermissionMode) (updatedAt : Millis)
  | sessionWorktreeSet (worktreeId : Option String) (updatedAt : Millis)
  | sessionStatusSet (status : SessionStatus) (updatedAt : Millis)
  | sessionQueuePausedSet (paused : Bool) (updatedAt : Millis)
  | sessionResumeSet (cursor : Option String)
      (providerEventCursor : Option (Option String)) (updatedAt : Millis)
  | providerThreadUpdated (providerThread : ProviderThreadSnapshot)
  | activeProviderThreadSet (providerThreadId : Option String) (updatedAt : Millis)
  | sessionArchived (archivedAt : Millis)
  | sessionUnarchived (unarchivedAt : Millis)
  | sessionDeleted (deletedAt : Millis)
  | turnStarted (started : TurnStartedEvent)
  | attemptProviderTurnBound (turnId attemptId : String)
      (reference : ProviderTurnReference) (boundAt : Millis)
  | attemptStarted (started : AttemptStartedEvent)
  | providerRecoveryRequested (turnId attemptId sourceAttemptId : String)
      (reference : ProviderTurnReference) (requestedAt : Millis)
  | providerTurnRequested (turnId : String) (attemptId : Option String)
      (providerInputJson : String) (providerStartJson : Option String) (requestedAt : Millis)
  | turnsRolledBack (rollback : TurnsRolledBackEvent)
  | turnFinalizationRequested (turnId attemptId : String)
      (outcome : SettlementOutcome) (settledAt : Millis)
  | turnSettled (turnId : String) (outcome : SettlementOutcome) (settledAt : Millis)
  | turnInterruptRequested (turnId : String) (attemptId : Option String) (requestedAt : Millis)
  | turnInterruptAcknowledged (turnId : String) (acknowledgedAt : Millis)
  | turnInterruptFailed (turnId reason : String) (failedAt : Millis)
  | queuedTurnEnqueued (queued : QueuedTurn)
  | queuedTurnUpdated (queueId inputJson : String) (updatedAt : Millis) (ready : Bool)
  | queuedTurnRemoved (queueId : String) (removedAt : Millis)
  | queuedTurnsReordered (queueIds : List String) (reorderedAt : Millis)
  | queuedTurnClaimed (queueId : String) (claimedAt : Millis)
  | successorTurnScheduled (successor : ScheduledSuccessor) (scheduledAt : Millis)
  | scheduledSuccessorReady (successor : ScheduledSuccessor) (readyAt : Millis)
  | messagePersisted (message : MessageFields)
  | segmentOpened (turnId segmentId : String) (kind : SegmentKind) (openedAt : Millis)
  | segmentSettled (turnId segmentId : String) (outcome : SettlementOutcome) (settledAt : Millis)
  | permissionRequested (request : PermissionRequestedEvent)
  | permissionResolved (requestId decision : String) (decisionJson : Option String)
      (resolvedAt : Millis)
  | permissionExpired (requestId : String) (expiredAt : Millis)
  | planExpired (itemId : String) (reason : ExpiryReason) (expiredAt : Millis)
  | questionExpired (itemId : String) (expiredAt : Millis)
  | questionResolved (itemId : String) (resolvedAt : Millis)
  | providerSessionReserved (providerId providerSessionId : String) (reservedAt : Millis)
  | providerAttached (providerId : String) (providerSessionId : Option String) (attachedAt : Millis)
  | providerStopRequested (providerId : String) (providerSessionId : Option String)
      (requestedAt : Millis)
  | providerDetached (providerId : String) (providerSessionId : Option String) (detachedAt : Millis)
  deriving DecidableEq

end Zuse.Domain
