import Zuse.Domain.Contracts

namespace Zuse.Domain

structure SessionCreatedFields where
  delegation : Option SessionDelegation
  sessionId : String
  chatId : String
  projectId : String
  createdAt : Millis
  title : String
  titleProvenance : Option TitleProvenance
  providerId : String
  model : String
  status : SessionStatus
  cursor : Option String
  runtimeMode : RuntimeMode
  agentsJson : Option String
  worktreeId : Option String
  forkedFromSessionId : Option String
  forkedFromMessageId : Option String
  permissionMode : PermissionMode
  toolSearch : Bool
  queuePaused : Bool
  providerStartJson : Option String
  deriving DecidableEq

def SessionCreatedFields.plain (sessionId : String) : SessionCreatedFields where
  delegation := none
  sessionId := sessionId
  chatId := "chat"
  projectId := "project"
  createdAt := 0
  title := "New session"
  titleProvenance := none
  providerId := "codex"
  model := "model"
  status := .idle
  cursor := none
  runtimeMode := defaultRuntimeMode
  agentsJson := none
  worktreeId := none
  forkedFromSessionId := none
  forkedFromMessageId := none
  permissionMode := defaultPermissionMode
  toolSearch := false
  queuePaused := false
  providerStartJson := none

/-- A provider-native thread to bind at creation. The app id is derived from
provider and native id. -/
structure ProviderThreadSeed where
  provider : String
  nativeThreadId : String
  nativeHeadId : Option String
  deriving DecidableEq

structure MessageFields where
  inputOwner : Option InputRequestOwner
  messageId : String
  turnId : Option String
  role : String
  kind : String
  contentJson : String
  parentItemId : Option String
  checkpointRevision : Option Number
  checkpointFinal : Option Bool
  createdAt : Millis
  deriving DecidableEq

inductive RetryReason where
  | retry
  | providerRecovery
  deriving DecidableEq

def RetryReason.attemptReason : RetryReason → AttemptReason
  | .retry => .retry
  | .providerRecovery => .providerRecovery

structure ReserveProviderSession where
  ownerAttempt : Option AttemptRef
  expectedModel : Option String
  expectedWorktreeId : Option (Option String)
  providerId : String
  providerSessionId : String
  reservedAt : Millis
  deriving DecidableEq

/-- A field that may be absent or null is an `Option (Option _)`. -/
inductive SessionCommand where
  | createSession (created : SessionCreatedFields) (providerThread : Option ProviderThreadSeed)
  | createSessionWithInitialTurn (created : SessionCreatedFields)
      (providerThread : Option ProviderThreadSeed)
      (turnId messageId messageContentJson providerInputJson : String)
  | setTitle (title : String) (titleProvenance : Option TitleProvenance) (updatedAt : Millis)
  | setModel (model : String) (updatedAt : Millis)
  | setProvider (resumeThreadId : Option String) (expectedProviderThreadId : Option (Option String))
      (providerId model : String) (updatedAt : Millis)
  | setRuntimeMode (runtimeMode : RuntimeMode) (updatedAt : Millis)
  | setPermissionMode (permissionMode : PermissionMode) (updatedAt : Millis)
  | setWorktree (worktreeId : Option String) (updatedAt : Millis) (forceProjection : Bool)
  | setStatus (status : SessionStatus) (updatedAt : Millis)
  | setQueuePaused (paused : Bool) (updatedAt : Millis)
  | releaseInitialTurn (expectedTurnId providerInputJson : String)
      (providerStartJson : Option String) (requestedAt : Millis)
  | bindAttemptProviderTurn (turnId attemptId : String)
      (reference : ProviderTurnReference) (boundAt : Millis)
  | bindProviderThread (nativeThreadId : String)
      (nativeHeadId : Option (Option String)) (updatedAt : Millis)
  | expireAttempt (turnId expectedAttemptId : String) (expiredAt : Millis)
  | recoverTurn (turnId expectedAttemptId : String) (requestedAt : Millis)
  | retryTurn (turnId : String) (reason : RetryReason) (providerInputJson : String)
      (providerStartJson : Option String) (requestedAt : Millis)
  | archiveSession (archivedAt : Millis)
  | unarchiveSession (unarchivedAt : Millis)
  | deleteSession (deletedAt : Millis)
  | startTurn (turnId : String) (startedAt : Millis)
  | submitTurn (turnId messageId role kind contentJson : String)
      (parentItemId : Option String) (providerInputJson : String) (createdAt : Millis)
  | rollbackTurns (throughOrdinal messageSequence : Number)
      (removedMessageIds : List String) (rolledBackAt : Millis)
  | finalizeTurn (turnId : String) (outcome : SettlementOutcome) (settledAt : Millis)
  | settleTurn (turnId : String) (outcome : SettlementOutcome) (settledAt : Millis)
  | requestTurnInterrupt (expectedTurnId : Option String) (requestedAt : Millis)
  | acknowledgeTurnInterrupt (turnId : String) (acknowledgedAt : Millis)
  | failTurnInterrupt (turnId reason : String) (failedAt : Millis)
  | enqueueTurn (queueId inputJson : String) (position : Number) (createdAt : Millis) (ready : Bool)
  | updateQueuedTurn (queueId inputJson : String) (updatedAt : Millis) (ready : Bool)
  | claimQueuedTurn (queueId : String) (claimedAt : Millis)
  | removeQueuedTurn (queueId : String) (removedAt : Millis)
  | reorderQueuedTurns (queueIds : List String) (reorderedAt : Millis)
  | steerQueuedTurn (expectedTurnId queueId successorTurnId : String) (requestedAt : Millis)
  | persistMessage (message : MessageFields)
  | openSegment (turnId segmentId : String) (kind : SegmentKind) (openedAt : Millis)
  | settleSegment (turnId segmentId : String) (outcome : SettlementOutcome) (settledAt : Millis)
  | requestPermission (inputOwner : Option InputRequestOwner)
      (requestId turnId payloadJson : String) (requestedAt : Millis)
  | resolvePermission (requestId decision : String) (decisionJson : Option String)
      (resolvedAt : Millis)
  | expirePermission (requestId : String) (expiredAt : Millis)
  | expirePlan (itemId : String) (reason : ExpiryReason) (expiredAt : Millis)
  | expireQuestion (itemId : String) (expiredAt : Millis)
  | resolveQuestion (itemId : String) (resolvedAt : Millis)
  | reserveProviderSession (reservation : ReserveProviderSession)
  | attachProvider (providerId : String) (providerSessionId : Option String) (attachedAt : Millis)
  | requestProviderStop (requestedAt : Millis)
  | detachProvider (detachedAt : Millis) (expectedProviderSessionId : Option (Option String))
  deriving DecidableEq

end Zuse.Domain
