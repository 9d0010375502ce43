import Zuse.Data.Text
import Zuse.Domain.Core.State

namespace Zuse.Domain

open Zuse.Data

inductive DomainError where
  | sessionNotFound
  | sessionAlreadyExists
  | sessionDeletedConflict
  | validationFailed (message : String)
  | turnAlreadyRunning (turnId : String)
  | turnNotRunning (turnId : String)
  | turnConflict (expectedTurnId : String) (actualTurnId : Option String)
  | queuedTurnNotFound (queueId : String)
  | segmentNotOpen (segmentId : String)
  | permissionNotPending (requestId : String)

abbrev Decision := Except DomainError (List SessionEvent)

variable (state : SessionState)

/-- Result persisted with an interrupt command receipt before any side effect. -/
def turnInterruptReceipt (expectedTurnId : Option String) :
    TurnInterruptReceipt :=
  match state.currentTurnId with
  | none => .noActiveTurn expectedTurnId
  | some actualTurnId =>
    match expectedTurnId with
    | none => .requested actualTurnId
    | some expected =>
      if actualTurnId = expected then .requested actualTurnId
      else .turnMismatch expected actualTurnId

/-- The provider sessions to stop, by provider session id. The reservation
overrides the attachment when both name one session. -/
def providerStopTargets : InsertionMap (Option String) String :=
  let attached :=
    match state.attachedProviderId with
    | none => InsertionMap.empty
    | some providerId => InsertionMap.empty.set state.attachedProviderSessionId providerId
  match state.providerReservation with
  | none => attached
  | some reservation =>
    attached.set (some reservation.providerSessionId) reservation.providerId

def providerStops (requestedAt : Millis) : List SessionEvent :=
  (providerStopTargets state).entries.map fun (providerSessionId, providerId) =>
    .providerStopRequested providerId providerSessionId requestedAt

def providerThreadSeedEvents (sessionId : String) (seed : Option ProviderThreadSeed)
    (at_ : Millis) : List SessionEvent :=
  match seed with
  | none => []
  | some seed =>
    let id := providerThreadIdFor sessionId seed.provider seed.nativeThreadId
    [.providerThreadUpdated
      { id
        provider := seed.provider
        nativeThreadId := seed.nativeThreadId
        nativeHeadId := seed.nativeHeadId
        status := .notLoaded
        firstTurnOrdinal := none
        lastTurnOrdinal := none
        createdAt := at_
        updatedAt := at_ },
    .activeProviderThreadSet (some id) at_]

def seededProviderThreadId (sessionId : String) (seed : Option ProviderThreadSeed) :
    Option String :=
  seed.map fun seed => providerThreadIdFor sessionId seed.provider seed.nativeThreadId

def decideCreateSession (created : SessionCreatedFields)
    (providerThread : Option ProviderThreadSeed) : Decision :=
  if state.exists_ then .error .sessionAlreadyExists
  else
    let titleProvenance := titleProvenanceOrManual created.titleProvenance
    .ok (.sessionCreated { created with titleProvenance := some titleProvenance }.event ::
      providerThreadSeedEvents created.sessionId providerThread created.createdAt)

def decideCreateSessionWithInitialTurn
    (created : SessionCreatedFields) (providerThread : Option ProviderThreadSeed)
    (turnId messageId messageContentJson providerInputJson : String) : Decision :=
  if state.exists_ then .error .sessionAlreadyExists
  else
    let providerTurn : List SessionEvent :=
      if created.queuePaused then []
      else
        [.providerTurnRequested turnId (some (attemptIdFor turnId 1)) providerInputJson
          created.providerStartJson created.createdAt]
    .ok (.sessionCreated created.event ::
      providerThreadSeedEvents created.sessionId providerThread created.createdAt ++
      [.messagePersisted
        { inputOwner := none
          messageId
          turnId := some turnId
          role := "user"
          kind := "user"
          contentJson := messageContentJson
          parentItemId := none
          checkpointRevision := none
          checkpointFinal := none
          createdAt := created.createdAt },
      .turnStarted
        { turnId
          startedAt := created.createdAt
          ordinal := some 1
          attemptId := some (attemptIdFor turnId 1)
          providerThreadId :=
            some (seededProviderThreadId created.sessionId providerThread) },
      .sessionStatusSet .booting created.createdAt] ++ providerTurn)

def decideSetTitle (title : String)
    (titleProvenance : Option TitleProvenance) (updatedAt : Millis) : Decision :=
  let title := trim title
  let titleProvenance := titleProvenanceOrManual titleProvenance
  if title = "" then .error (.validationFailed "title cannot be empty")
  else if titleProvenance = .automatic ∧ state.titleProvenance ≠ .pending then .ok []
  else if state.title = some title ∧ state.titleProvenance = titleProvenance then .ok []
  else .ok [.sessionTitleSet title (some titleProvenance) updatedAt]

/-- The transcript marker of a provider or model switch, when there is a transcript
to mark. -/
def modelSwitchMarker (toProviderId : Option String)
    (toModel : String) (updatedAt : Millis) : List SessionEvent :=
  match state.providerId, state.model, toProviderId with
  | some fromProviderId, some fromModel, some toProviderId =>
    if state.messageIds = ∅ then []
    else
      [.messagePersisted
        { inputOwner := none
          messageId := "model-switch:" ++ state.sessionIdText ++ ":" ++ toString state.version
          turnId := none
          role := "system"
          kind := "model_switch"
          contentJson := jsonObject
            [("_tag", jsonString "model_switch"), ("fromProviderId", jsonString fromProviderId),
              ("fromModel", jsonString fromModel),
              ("toProviderId", jsonString toProviderId),
              ("toModel", jsonString toModel),
              ("context", jsonString
                (if fromProviderId = toProviderId then "preserved" else "handoff"))]
          parentItemId := none
          checkpointRevision := none
          checkpointFinal := none
          createdAt := updatedAt }]
  | _, _, _ => []

/-- The part that `SetModel` and `SetProvider` share once the change is allowed. -/
def switchEvents (toProviderId : Option String) (model : String)
    (updatedAt : Millis) (changed : SessionEvent)
    (resumed : Option ProviderThreadState) : List SessionEvent :=
  let resume : List SessionEvent :=
    match resumed with
    | none => []
    | some resumed =>
      [.providerThreadUpdated { resumed with status := .idle, updatedAt },
        .activeProviderThreadSet (some resumed.id) updatedAt]
  providerStops state updatedAt ++ modelSwitchMarker state toProviderId model updatedAt ++
    [changed] ++ resume ++ [.sessionStatusSet .idle updatedAt]

def busyForSwitch : Bool :=
  state.currentTurnId.isSome || state.queuedTurns.size > 0

def switchWhileBusyMessage : String :=
  "Finish or stop the active turn and clear queued messages before switching " ++
  "provider or model."

def decideSetModel (model : String) (updatedAt : Millis) : Decision :=
  if state.model = some model then .ok []
  else if busyForSwitch state then .error (.validationFailed switchWhileBusyMessage)
  else
    .ok (switchEvents state state.providerId model updatedAt
      (.sessionModelSet model updatedAt) none)

def decideSetProvider (resumeThreadId : Option String)
    (expectedProviderThreadId : Option (Option String)) (providerId model : String)
    (updatedAt : Millis) : Decision :=
  let resumed := resumeThreadId.bind state.providerThreads.get?
  if state.model = some model ∧ state.providerId = some providerId then .ok []
  else if busyForSwitch state then .error (.validationFailed switchWhileBusyMessage)
  else if (∃ expected ∈ expectedProviderThreadId, expected ≠ state.activeProviderThreadId) ∨
      (resumeThreadId.isSome ∧ resumed.map (·.provider) ≠ some providerId) then
    .error (.validationFailed
      "Provider history changed while switching. Retry the provider selection.")
  else
    .ok (switchEvents state (some providerId) model updatedAt
      (.sessionProviderSet providerId model updatedAt) resumed)

def decideBindProviderThread (nativeThreadId : String)
    (nativeHeadId : Option (Option String)) (updatedAt : Millis) : Decision :=
  let provider := state.providerId.getD "unknown"
  let id := providerThreadIdFor state.sessionIdText provider nativeThreadId
  let existing := state.providerThreads.get? id
  let nativeHeadId := nativeHeadId.getD (existing.bind (·.nativeHeadId))
  let unchanged := existing.any fun thread =>
    thread.nativeHeadId = nativeHeadId ∧ thread.status ≠ .closed ∧ thread.status ≠ .error
  if state.activeProviderThreadId = some id ∧ unchanged then .ok []
  else
    let currentOrdinal := state.currentTurn.map (·.ordinal)
    let activate : List SessionEvent :=
      if state.activeProviderThreadId = some id then []
      else [.activeProviderThreadSet (some id) updatedAt]
    .ok (.providerThreadUpdated
      { id
        provider
        nativeThreadId
        nativeHeadId
        status := if state.currentTurn = none then .idle else .active
        firstTurnOrdinal := (existing.bind (·.firstTurnOrdinal)).or currentOrdinal
        lastTurnOrdinal := currentOrdinal.or (existing.bind (·.lastTurnOrdinal))
        createdAt := (existing.map (·.createdAt)).getD updatedAt
        updatedAt } :: activate)

/-- The current turn, when it is the named one and its active attempt is the
named one. -/
def ownedTurn (turnId attemptId : String) : Option TurnState :=
  if state.currentTurnId = some turnId then
    (state.turns.get? turnId).filter fun turn => turn.activeAttemptId = attemptId
  else none

def decideBindAttemptProviderTurn (turnId attemptId : String)
    (reference : ProviderTurnReference) (boundAt : Millis) : Decision :=
  if (ownedTurn state turnId attemptId).isNone ∨ state.archived then
    .error (.validationFailed "Native execution must belong to the active attempt")
  else if some reference.provider ≠ state.providerId ∨ reference.nativeThreadId = "" ∨
      reference.nativeTurnId = "" then
    .error (.validationFailed "Invalid native execution reference")
  else
    match state.attemptProviderTurns.get? attemptId with
    | some existing =>
      if existing = reference then .ok []
      else .error (.validationFailed "An attempt cannot change its native execution")
    | none =>
      if state.attemptProviderTurns.entries.any fun entry =>
          entry.1 ≠ attemptId ∧ entry.2 = reference then
        .error (.validationFailed "Native execution already belongs to another attempt")
      else .ok [.attemptProviderTurnBound turnId attemptId reference boundAt]

def checkpointPendingMessage : String :=
  "Checkpoint capture must finish before retrying this turn."

def nextAttempt (turn : TurnState) (turnId : String) (reason : AttemptReason)
    (startedAt : Millis) : AttemptStartedEvent :=
  let ordinal := turn.attempts.size + 1
  { turnId
    attemptId := attemptIdFor turnId ordinal
    ordinal
    reason
    startedAt
    turnOrdinal := turn.ordinal
    providerThreadId := turn.providerThreadId
    turnRequestedAt := turn.requestedAt }

def decideRecoverTurn (turnId expectedAttemptId : String) (requestedAt : Millis) : Decision :=
  match ownedTurn state turnId expectedAttemptId with
  | none =>
    .error (.validationFailed "Recovery must own an active, uninterrupted turn")
  | some turn =>
    if state.archived ∨ turn.phase ≠ some .running then
      .error (.validationFailed "Recovery must own an active, uninterrupted turn")
    else
      let prior := state.attemptRecoveries.get? expectedAttemptId
      let reference := (prior.map (·.reference)).or
        (state.attemptProviderTurns.get? expectedAttemptId)
      match reference.filter fun reference =>
        some reference.provider = state.providerId with
      | none =>
        .error (.validationFailed "Recovery requires proven native execution identity")
      | some reference =>
        if turn.status = .finalizing then
          .error (.validationFailed checkpointPendingMessage)
        else
          let started := nextAttempt turn turnId .providerRecovery requestedAt
          .ok (providerStops state requestedAt ++ [.attemptStarted started,
            .sessionStatusSet .booting requestedAt,
            .providerRecoveryRequested turnId started.attemptId
              ((prior.map (·.sourceAttemptId)).getD expectedAttemptId) reference
              requestedAt])

variable (turnId : String) (outcome : SettlementOutcome)

def settlementStatus : SessionStatus :=
  if state.scheduledSuccessor.any fun successor =>
      successor.predecessorTurnId = turnId then .running
  else if outcome = .error then .error
  else .idle

def settleOpenSegments (settledAt : Millis) : List SessionEvent :=
  (state.openSegments.entries.filter fun entry => entry.2.turnId = turnId).map
    fun entry => .segmentSettled turnId entry.1 outcome settledAt

def releaseSuccessor (settledAt : Millis) :
    List SessionEvent :=
  match state.scheduledSuccessor with
  | none => []
  | some successor =>
    if successor.predecessorTurnId = turnId then
      [.scheduledSuccessorReady successor settledAt]
    else []

/-- Answer a request about a turn that is not current: nothing to do once it is
settled, a conflict otherwise. -/
def notCurrent : Decision :=
  if turnId ∈ state.settledTurnIds then .ok []
  else .error (.turnConflict turnId state.currentTurnId)

def decideSettleTurn (settledAt : Millis) : Decision :=
  if state.currentTurnId ≠ some turnId then notCurrent state turnId
  else
    .ok (settleOpenSegments state turnId outcome settledAt ++
      [.turnSettled turnId outcome settledAt,
        .sessionStatusSet (settlementStatus state turnId outcome) settledAt] ++
      releaseSuccessor state turnId settledAt)

def ingestionExpiredMessage : String :=
  "The Agent Engine stopped ingesting this execution. Delivery was not repeated " ++
  "automatically; review the provider result before retrying."

def decideExpireAttempt (turnId expectedAttemptId : String) (expiredAt : Millis) : Decision :=
  match ownedTurn state turnId expectedAttemptId with
  | none =>
    .error (.validationFailed "Expired ingestion no longer owns this attempt")
  | some turn =>
    match decideRecoverTurn state turnId expectedAttemptId expiredAt with
    | .ok recovery => .ok recovery
    | .error _ =>
      let interrupted : Bool := turn.phase ≠ some .running ∨ state.archived
      let explanation : List SessionEvent :=
        if interrupted then []
        else
          [.messagePersisted
            { inputOwner := none
              messageId := "ingestion-expired:" ++ expectedAttemptId
              turnId := some turnId
              role := "system"
              kind := "error"
              contentJson := jsonObject
                [("_tag", jsonString "error"), ("message", jsonString ingestionExpiredMessage)]
              parentItemId := none
              checkpointRevision := none
              checkpointFinal := none
              createdAt := expiredAt }]
      match decideSettleTurn state turnId
          (if interrupted then .interrupted else .error) expiredAt with
      | .error failure => .error failure
      | .ok settlement =>
        .ok (providerStops state expiredAt ++ explanation ++ settlement)

def decideRetryTurn (reason : RetryReason)
    (providerInputJson : String) (providerStartJson : Option String)
    (requestedAt : Millis) : Decision :=
  if state.currentTurnId ≠ some turnId then
    .error (.turnConflict turnId state.currentTurnId)
  else
    match state.turns.get? turnId with
    | none => .error (.turnConflict turnId state.currentTurnId)
    | some turn =>
      if turn.status = .finalizing then
        .error (.validationFailed checkpointPendingMessage)
      else
        let started := nextAttempt turn turnId reason.attemptReason requestedAt
        .ok [.attemptStarted started, .sessionStatusSet .booting requestedAt,
          .providerTurnRequested turnId (some started.attemptId) providerInputJson
            providerStartJson requestedAt]

def activeAttemptOrFirst : String :=
  ((state.turns.get? turnId).map (·.activeAttemptId)).getD (attemptIdFor turnId 1)

def decideReleaseInitialTurn
    (expectedTurnId providerInputJson : String) (providerStartJson : Option String)
    (requestedAt : Millis) : Decision :=
  if state.archived then .error (.validationFailed "cannot release an archived session")
  else if state.queuePaused = false ∨ state.currentTurnId ≠ some expectedTurnId ∨
      state.currentTurnPhase ≠ some .running then
    .error (.validationFailed "initial turn is not paused at the expected turn")
  else
    .ok
      [.sessionQueuePausedSet false requestedAt,
        .providerTurnRequested expectedTurnId
          (some (activeAttemptOrFirst state expectedTurnId)) providerInputJson
          providerStartJson requestedAt]

def startedTurn (startedAt : Millis) : SessionEvent :=
  .turnStarted
    { turnId
      startedAt
      ordinal := some (state.turnCount + 1)
      attemptId := some (attemptIdFor turnId 1)
      providerThreadId := some state.activeProviderThreadId }

def decideStartTurn (startedAt : Millis) : Decision :=
  match state.currentTurnId with
  | none => .ok [startedTurn state turnId startedAt]
  | some currentTurnId => .error (.turnAlreadyRunning currentTurnId)

def decideSubmitTurn (turnId messageId role kind contentJson : String)
    (parentItemId : Option String) (providerInputJson : String) (createdAt : Millis) :
    Decision :=
  match state.currentTurnId with
  | some currentTurnId => .error (.turnAlreadyRunning currentTurnId)
  | none =>
    .ok
      [.messagePersisted
        { inputOwner := none
          messageId
          turnId := some turnId
          role
          kind
          contentJson
          parentItemId
          checkpointRevision := none
          checkpointFinal := none
          createdAt },
      startedTurn state turnId createdAt,
      .sessionStatusSet .booting createdAt,
      .providerTurnRequested turnId (some (attemptIdFor turnId 1)) providerInputJson none createdAt]

def decideRollbackTurns (throughOrdinal messageSequence : Number)
    (removedMessageIds : List String) (rolledBackAt : Millis) : Decision :=
  if state.currentTurnId.isSome ∨ state.queuedTurns.size > 0 ∨ state.providerReservation.isSome then
    .error (.validationFailed "Stop active work and clear queued messages before rollback.")
  else if throughOrdinal.isInt = false ∨ throughOrdinal < 0 ∨ state.turnCount < throughOrdinal then
    .error (.validationFailed "Invalid rollback boundary.")
  else
    .ok
      [.turnsRolledBack
        { rolledBackTurnIds := some
            ((state.turns.values.filter fun turn => throughOrdinal < turn.ordinal).map (·.id))
          throughOrdinal
          messageSequence
          removedMessageIds
          rolledBackAt },
      .activeProviderThreadSet none rolledBackAt]

def decideFinalizeTurn (settledAt : Millis) : Decision :=
  if state.currentTurnId ≠ some turnId then notCurrent state turnId
  else if (state.turns.get? turnId).any fun turn => turn.status = .finalizing then .ok []
  else
    .ok [.turnFinalizationRequested turnId (activeAttemptOrFirst state turnId) outcome settledAt]

def interruptPending : Bool :=
  state.currentTurnPhase = some .interruptRequested ∨
    state.currentTurnPhase = some .interruptAcknowledged

def decideRequestTurnInterrupt (expectedTurnId : Option String) (requestedAt : Millis) : Decision :=
  match turnInterruptReceipt state expectedTurnId with
  | .noActiveTurn _ => .ok []
  | .turnMismatch _ _ => .ok []
  | .requested turnId =>
    if interruptPending state then .ok []
    else
      .ok [.turnInterruptRequested turnId (some (activeAttemptOrFirst state turnId)) requestedAt]

def decideAcknowledgeTurnInterrupt (acknowledgedAt : Millis) : Decision :=
  if state.currentTurnId ≠ some turnId then notCurrent state turnId
  else if state.currentTurnPhase = some .interruptAcknowledged then .ok []
  else .ok [.turnInterruptAcknowledged turnId acknowledgedAt]

def decideFailTurnInterrupt (turnId reason : String) (failedAt : Millis) : Decision :=
  if state.currentTurnId ≠ some turnId then notCurrent state turnId
  else .ok [.turnInterruptFailed turnId reason failedAt]

def decideReorderQueuedTurns (queueIds : List String) (reorderedAt : Millis) : Decision :=
  let known := queueIds.filter state.queuedTurns.has
  let remaining := state.queueOrder.filter fun id => id ∉ known
  .ok [.queuedTurnsReordered (known ++ remaining) reorderedAt]

def decideSteerQueuedTurn
    (expectedTurnId queueId successorTurnId : String) (requestedAt : Millis) : Decision :=
  let successorOf := fun (queued : QueuedTurn) =>
    ({ predecessorTurnId := expectedTurnId
       turnId := successorTurnId
       queueId
       inputJson := queued.inputJson } : ScheduledSuccessor)
  if state.currentTurnId = some expectedTurnId then
    match state.queuedTurns.get? queueId with
    | none => .error (.queuedTurnNotFound queueId)
    | some queued =>
      let interrupt : List SessionEvent :=
        if interruptPending state then []
        else
          [.turnInterruptRequested expectedTurnId
            (some (activeAttemptOrFirst state expectedTurnId)) requestedAt]
      .ok (.queuedTurnClaimed queueId requestedAt :: interrupt ++
        [.successorTurnScheduled (successorOf queued) requestedAt])
  else if state.currentTurnId = none ∧ expectedTurnId ∈ state.settledTurnIds then
    match state.queuedTurns.get? queueId with
    | none => .error (.queuedTurnNotFound queueId)
    | some queued =>
      .ok
        [.queuedTurnClaimed queueId requestedAt,
          .successorTurnScheduled (successorOf queued) requestedAt,
          .scheduledSuccessorReady (successorOf queued) requestedAt]
  else .error (.turnConflict expectedTurnId state.currentTurnId)

def maxSafeInteger : Number := 9007199254740991

def isSafeInteger (number : Number) : Bool :=
  number.isInt && decide (-maxSafeInteger ≤ number) && decide (number ≤ maxSafeInteger)

def decidePersistMessage (message : MessageFields) : Decision :=
  if message.checkpointRevision.isNone ≠ message.checkpointFinal.isNone then
    .error (.validationFailed "checkpoint revision and final must be provided together")
  else
    match message.checkpointRevision with
    | none =>
      if state.messageCheckpoints.has message.messageId then .ok []
      else .ok [.messagePersisted message]
    | some revision =>
      if isSafeInteger revision = false ∨ revision < 1 then
        .error (.validationFailed "checkpoint revision must be a positive safe integer")
      else if (state.messageCheckpoints.get? message.messageId).any fun current =>
          current.final ∨ revision ≤ current.revision then .ok []
      else .ok [.messagePersisted message]

def decideReserveProviderSession (command : ReserveProviderSession) : Decision :=
  let activeAttempt := state.currentTurn.map (·.activeAttemptId)
  if (∃ currentTurnId ∈ state.currentTurnId,
      command.ownerAttempt.map (·.turnId) ≠ some currentTurnId ∨
        command.ownerAttempt.map (·.attemptId) ≠ activeAttempt) then
    .error (.validationFailed "an active attempt owns provider startup")
  else if state.currentTurnId = none ∧ command.ownerAttempt.isSome then
    .error (.validationFailed "provider startup attempt is no longer active")
  else if (command.expectedModel.isSome ∧ command.expectedModel ≠ state.model) ∨
      (∃ expected ∈ command.expectedWorktreeId, expected ≠ state.worktreeId) then
    .error (.validationFailed "provider configuration changed before reservation")
  else if state.archived then
    .error (.validationFailed "cannot start a provider for an archived session")
  else if state.providerId.isSome ∧ state.providerId ≠ some command.providerId then
    .error (.validationFailed "provider reservation must match the selected provider")
  else if state.providerReservation.map (·.providerSessionId) =
      some command.providerSessionId then .ok []
  else
    .ok (providerStops state command.reservedAt ++
      [.providerSessionReserved command.providerId command.providerSessionId command.reservedAt])

def detachEvents (detachedAt : Millis) : List SessionEvent :=
  match state.attachedProviderId with
  | none => []
  | some providerId =>
    [.providerDetached providerId state.attachedProviderSessionId detachedAt]

def decideAttachProvider (providerId : String)
    (providerSessionId : Option String) (attachedAt : Millis) : Decision :=
  if state.attachedProviderId = some providerId ∧
      state.attachedProviderSessionId = providerSessionId then .ok []
  else
    .ok (detachEvents state attachedAt ++
      [.providerAttached providerId providerSessionId attachedAt])

def decideDetachProvider (detachedAt : Millis)
    (expectedProviderSessionId : Option (Option String)) : Decision :=
  if (∃ expected ∈ expectedProviderSessionId,
      state.attachedProviderSessionId ≠ expected) then .ok []
  else .ok (detachEvents state detachedAt)

def decideExisting : SessionCommand → Decision
  | .createSession .. => .error .sessionAlreadyExists
  | .createSessionWithInitialTurn .. => .error .sessionAlreadyExists
  | .setTitle title titleProvenance updatedAt =>
    decideSetTitle state title titleProvenance updatedAt
  | .setModel model updatedAt => decideSetModel state model updatedAt
  | .setProvider resumeThreadId expectedProviderThreadId providerId model updatedAt =>
    decideSetProvider state resumeThreadId expectedProviderThreadId providerId model updatedAt
  | .setRuntimeMode runtimeMode updatedAt =>
    if state.runtimeMode = some runtimeMode then .ok []
    else .ok [.sessionRuntimeModeSet runtimeMode updatedAt]
  | .setPermissionMode permissionMode updatedAt =>
    if state.permissionMode = some permissionMode then .ok []
    else .ok [.sessionPermissionModeSet permissionMode updatedAt]
  | .setWorktree worktreeId updatedAt forceProjection =>
    if state.worktreeId = worktreeId ∧ forceProjection = false then .ok []
    else .ok [.sessionWorktreeSet worktreeId updatedAt]
  | .setStatus status updatedAt =>
    if state.status = some status then .ok []
    else .ok [.sessionStatusSet status updatedAt]
  | .setQueuePaused paused updatedAt =>
    if state.queuePaused = paused then .ok []
    else .ok [.sessionQueuePausedSet paused updatedAt]
  | .bindProviderThread nativeThreadId nativeHeadId updatedAt =>
    decideBindProviderThread state nativeThreadId nativeHeadId updatedAt
  | .bindAttemptProviderTurn turnId attemptId reference boundAt =>
    decideBindAttemptProviderTurn state turnId attemptId reference boundAt
  | .expireAttempt turnId expectedAttemptId expiredAt =>
    decideExpireAttempt state turnId expectedAttemptId expiredAt
  | .recoverTurn turnId expectedAttemptId requestedAt =>
    decideRecoverTurn state turnId expectedAttemptId requestedAt
  | .retryTurn turnId reason providerInputJson providerStartJson requestedAt =>
    decideRetryTurn state turnId reason providerInputJson providerStartJson requestedAt
  | .archiveSession archivedAt =>
    if state.archived then .ok [] else .ok [.sessionArchived archivedAt]
  | .releaseInitialTurn expectedTurnId providerInputJson providerStartJson requestedAt =>
    decideReleaseInitialTurn state expectedTurnId providerInputJson providerStartJson requestedAt
  | .unarchiveSession unarchivedAt =>
    if state.archived then .ok [.sessionUnarchived unarchivedAt] else .ok []
  | .deleteSession deletedAt => .ok [.sessionDeleted deletedAt]
  | .startTurn turnId startedAt => decideStartTurn state turnId startedAt
  | .rollbackTurns throughOrdinal messageSequence removedMessageIds rolledBackAt =>
    decideRollbackTurns state throughOrdinal messageSequence removedMessageIds rolledBackAt
  | .finalizeTurn turnId outcome settledAt =>
    decideFinalizeTurn state turnId outcome settledAt
  | .settleTurn turnId outcome settledAt => decideSettleTurn state turnId outcome settledAt
  | .requestTurnInterrupt expectedTurnId requestedAt =>
    decideRequestTurnInterrupt state expectedTurnId requestedAt
  | .acknowledgeTurnInterrupt turnId acknowledgedAt =>
    decideAcknowledgeTurnInterrupt state turnId acknowledgedAt
  | .failTurnInterrupt turnId reason failedAt =>
    decideFailTurnInterrupt state turnId reason failedAt
  | .enqueueTurn queueId inputJson position createdAt ready =>
    if state.queuedTurns.has queueId then .ok []
    else .ok [.queuedTurnEnqueued { queueId, inputJson, position, createdAt, ready }]
  | .updateQueuedTurn queueId inputJson updatedAt ready =>
    if state.queuedTurns.has queueId then
      .ok [.queuedTurnUpdated queueId inputJson updatedAt ready]
    else .error (.queuedTurnNotFound queueId)
  | .claimQueuedTurn queueId claimedAt =>
    if (state.queuedTurns.get? queueId).any (·.ready) then
      .ok [.queuedTurnClaimed queueId claimedAt]
    else .ok []
  | .removeQueuedTurn queueId removedAt =>
    if state.queuedTurns.has queueId then .ok [.queuedTurnRemoved queueId removedAt]
    else .ok []
  | .reorderQueuedTurns queueIds reorderedAt =>
    decideReorderQueuedTurns state queueIds reorderedAt
  | .submitTurn turnId messageId role kind contentJson parentItemId providerInputJson createdAt =>
    decideSubmitTurn state turnId messageId role kind contentJson parentItemId
      providerInputJson createdAt
  | .steerQueuedTurn expectedTurnId queueId successorTurnId requestedAt =>
    decideSteerQueuedTurn state expectedTurnId queueId successorTurnId requestedAt
  | .persistMessage message => decidePersistMessage state message
  | .openSegment turnId segmentId kind openedAt =>
    if state.currentTurnId ≠ some turnId then .error (.turnNotRunning turnId)
    else if state.openSegments.has segmentId then .ok []
    else .ok [.segmentOpened turnId segmentId kind openedAt]
  | .settleSegment turnId segmentId outcome settledAt =>
    if (state.openSegments.get? segmentId).any fun segment => segment.turnId = turnId then
      .ok [.segmentSettled turnId segmentId outcome settledAt]
    else .error (.segmentNotOpen segmentId)
  | .requestPermission inputOwner requestId turnId payloadJson requestedAt =>
    if requestId ∈ state.pendingPermissionIds then .ok []
    else
      .ok [.permissionRequested { inputOwner, requestId, turnId, payloadJson, requestedAt }]
  | .expirePermission requestId expiredAt =>
    if requestId ∈ state.pendingPermissionIds ∧ requestId ∉ state.expiredPermissionIds then
      .ok [.permissionExpired requestId expiredAt]
    else .ok []
  | .resolvePermission requestId decision decisionJson resolvedAt =>
    if requestId ∈ state.pendingPermissionIds ∧
        (requestId ∉ state.expiredPermissionIds ∨ decision = "Deny") then
      .ok [.permissionResolved requestId decision decisionJson resolvedAt]
    else .error (.permissionNotPending requestId)
  | .expirePlan itemId reason expiredAt =>
    if itemId ∈ state.expiredPlanIds then .ok []
    else .ok [.planExpired itemId reason expiredAt]
  | .expireQuestion itemId expiredAt =>
    if itemId ∈ state.resolvedQuestionIds ∨ itemId ∈ state.expiredQuestionIds then .ok []
    else .ok [.questionExpired itemId expiredAt]
  | .resolveQuestion itemId resolvedAt =>
    if itemId ∈ state.resolvedQuestionIds then .ok []
    else .ok [.questionResolved itemId resolvedAt]
  | .reserveProviderSession command => decideReserveProviderSession state command
  | .attachProvider providerId providerSessionId attachedAt =>
    decideAttachProvider state providerId providerSessionId attachedAt
  | .requestProviderStop requestedAt => .ok (providerStops state requestedAt)
  | .detachProvider detachedAt expectedProviderSessionId =>
    decideDetachProvider state detachedAt expectedProviderSessionId

def decide (command : SessionCommand) : Decision :=
  match command with
  | .createSession created providerThread =>
    decideCreateSession state created providerThread
  | .createSessionWithInitialTurn created providerThread turnId messageId
      messageContentJson providerInputJson =>
    decideCreateSessionWithInitialTurn state created providerThread turnId messageId
      messageContentJson providerInputJson
  | command =>
    if state.exists_ = false ∨ state.sessionId = none then .error .sessionNotFound
    else if state.deleted then .error .sessionDeletedConflict
    else decideExisting state command

end Zuse.Domain
