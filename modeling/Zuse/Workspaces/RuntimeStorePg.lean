import Zuse.Workspaces.RuntimeTables
import Zuse.Workspaces.WorkspaceLifecycle

namespace Zuse.Workspaces.StorePg

/-! The operations of a runtime in `CloudWorkspaceStorePg`. A comparison with `NULL` selects
no row. -/

variable (tables : RuntimeTables)

def unexpiredIntent (nowMs : Int) : Option CloudWorkspaceLaunchIntentRecord :=
  tables.launchIntent.filter (nowMs < ·.expiresAtMs)

variable (workspace : RuntimeWorkspace)

/-- `mark_expired` -/
def markExpired (nowMs : Int) : RuntimeWorkspace :=
  if workspace.record.state = .deleted then workspace
  else
    { workspace with
      record :=
        { workspace.record with
          state := .failed
          statusCode := "launch-intent-expired"
          revision := workspace.record.revision + 1
          updatedAtMs := nowMs } }

def getLaunchIntent (nowMs : Int) : Option CloudWorkspaceLaunchIntentRecord × RuntimeTables :=
  (unexpiredIntent tables nowMs,
    { tables with
      launchIntent := unexpiredIntent tables nowMs
      workspace :=
        if tables.launchIntent.any (·.expiresAtMs ≤ nowMs) then
          tables.workspace.map (markExpired · nowMs)
        else tables.workspace })

def completeLaunchIntent (input : CompleteLaunchIntentInput) :
    CompleteLaunchIntentOutcome × RuntimeTables :=
  match tables.workspace with
  | none => (.workspaceMissing, tables)
  | some workspace =>
    let intentCommandId := tables.launchIntent.map (·.commandId)
    if intentCommandId ≠ some input.commandId ∧
        ¬(intentCommandId.isNone ∧ workspace.canRecoverMissingLaunchIntent input) then
      (.rejected, tables)
    else
      let completed := workspace.completeLaunchWorkspace input
      (.completed completed,
        { tables.withWorkspace completed with launchIntent := none })

/-- What `updated` and `replayed` both ask of the row. -/
def mayEnroll (input : RuntimeBootstrapEnrollmentInput) : Bool :=
  workspace.record.runtimeBootTokenHash = some input.bootTokenHash &&
    unexpired workspace.record.runtimeBootTokenExpiresAtMs input.nowMs &&
    workspace.record.desiredState = .ready &&
    workspace.record.providerSandboxId.isSome && workspace.record.state ≠ .deleted

/-- The runtime of the request is the one of the row, whose generation counts from zero
here. -/
def sameRuntime (input : RuntimeBootstrapEnrollmentInput) :
    Bool :=
  let config := workspace.record.requestConfig
  config.runtimeGeneration.getD 0 = input.generation &&
    config.gatewayEpoch.getD (config.runtimeGeneration.getD 0) = input.gatewayEpoch

def receiptMatches (prior : RuntimeBootstrapReceipt)
    (input : RuntimeBootstrapEnrollmentInput) : Bool :=
  prior.bootTokenHash = input.bootTokenHash &&
    prior.credentialKeyThumbprint = input.credentialKeyThumbprint &&
    prior.signingKeyThumbprint = input.signingKeyThumbprint &&
    prior.generation = input.generation && prior.gatewayEpoch = input.gatewayEpoch &&
    prior.runtimeCredentialHash = input.runtimeCredentialHash

/-- `enrollmentDurationMs`: where it is `NULL` it is stripped, and the member stays. -/
def enrolledTimings (timings : StartupTimings) (nowMs : Int) : StartupTimings :=
  { timings with
    enrolledAt := some nowMs
    runtimeReadyAt := some nowMs
    enrollmentDurationMs :=
      (timings.allocatedAt.map (nowMs - ·)).or timings.enrollmentDurationMs }

/-- `configPatch`, and the columns beside it. -/
def enrolled (input : RuntimeBootstrapEnrollmentInput) : RuntimeWorkspace where
  record :=
    { workspace.record with
      runtimeCredentialHash := some input.runtimeCredentialHash
      runtimeState := .connecting
      state := .setup
      statusCode := "runtime-authenticating"
      requestConfig :=
        { workspace.record.requestConfig with
          runtimeSigningKeyThumbprint := some input.signingKeyThumbprint
          runtimeGeneration := some input.generation
          gatewayEpoch := some input.gatewayEpoch
          runtimeCredentialExpiresAtMs := some input.runtimeCredentialExpiresAtMs
          runtimeBootstrapReceipt := some input.receipt }
      nextActionAtMs :=
        workspace.record.preserveRuntimeOperationDeadline (input.nowMs + 30000)
      revision := workspace.record.revision + 1
      updatedAtMs := input.nowMs }
  members :=
    { workspace.members with
      runtimeSigningPublicJwk := some input.signingPublicJwk
      runtimeCredentialKeyThumbprint := some input.credentialKeyThumbprint
      startupTimings := enrolledTimings workspace.members.startupTimings input.nowMs }

def enrollRuntimeBoot (input : RuntimeBootstrapEnrollmentInput) :
    Option RuntimeBootstrapEnrollmentOutcome × RuntimeTables :=
  match tables.workspace with
  | none => (none, tables)
  | some workspace =>
    match workspace.record.requestConfig.runtimeBootstrapReceipt with
    | none =>
      if mayEnroll workspace input ∧ sameRuntime workspace input then
        (some
          { created := true
            workspace := enrolled workspace input
            receipt := input.receipt
            launchIntent := unexpiredIntent tables input.nowMs },
          tables.withWorkspace (enrolled workspace input))
      else (none, tables)
    | some prior =>
      if mayEnroll workspace input ∧ receiptMatches prior input then
        (some
          { created := false
            workspace := workspace
            receipt := prior
            launchIntent := unexpiredIntent tables input.nowMs }, tables)
      else (none, tables)

variable (input : RuntimeRepositoryReadyInput)

def mayBecomeReady :
    Bool :=
  workspace.record.runtimeCredentialHash = some input.currentCredentialHash &&
    unexpired workspace.record.requestConfig.runtimeCredentialExpiresAtMs input.nowMs &&
    workspace.record.state ≠ .deleted && workspace.record.desiredState = .ready &&
    !(["restart-queued", "resume-runtime-recovery-queued"].contains workspace.record.statusCode) &&
    !workspace.record.requestConfig.cloudMailboxFenceRequired

/-- `runtime_state='online' AND status_code IN (...)` -/
def agentOnline : Bool :=
  workspace.record.runtimeState = .online &&
    ["agent-starting", "agent-running", "ready"].contains workspace.record.statusCode

def launched : Bool :=
  workspace.record.requestConfig.sessionHeadVersion.isSome &&
    !workspace.record.requestConfig.runtimeSessionRecoveryPending

def readyState :
    CloudWorkspaceState :=
  if agentOnline workspace then workspace.record.state
  else if input.repositoryReady ≠ some false ∧ launched workspace then .ready
  else .setup

def readyStatusCode :
    String :=
  if agentOnline workspace then workspace.record.statusCode
  else if input.repositoryReady = some false then
    input.preparationPhase.getD "syncing-repository"
  else if launched workspace then
    if workspace.members.cloudCommandEnrollmentProtocolVersion.isSome then "ready"
    else "agent-running"
  else "agent-starting"

def readyCommandProtocol : Option Nat × Option Nat :=
  if input.commandProtocolVersion.isNone then
    if input.repositoryReady = some false then
      (workspace.members.cloudCommandProtocolVersion,
        workspace.members.cloudCommandRuntimeGeneration)
    else (none, none)
  else
    (input.commandProtocolVersion, some (workspace.record.requestConfig.runtimeGeneration.getD 1))

/-- `jsonb_build_object` writes `null` where its value is `NULL`. -/
def readyDeviceBridge : Option (Option Nat) :=
  some (input.deviceBridgeVersion.or
    (if input.repositoryReady = some false then
      workspace.members.deviceBridgeVersion.join
    else none))

def readyDeadline : Int :=
  workspace.record.preserveRuntimeOperationDeadline
    (if workspace.record.requestConfig.cloudMailboxWakePending then
      min workspace.record.nextActionAtMs input.nowMs
    else if launched workspace then input.nextIdleAtMs
    else min workspace.record.nextActionAtMs (input.nowMs + 30000))

def readied : RuntimeWorkspace where
  record :=
    { workspace.record with
      runtimeState := .online
      state := readyState workspace input
      statusCode := readyStatusCode workspace input
      nextActionAtMs := readyDeadline workspace input
      runningSinceMs := some (workspace.record.runningSinceMs.getD input.nowMs)
      revision := workspace.record.revision + 1
      updatedAtMs := input.nowMs
      lastActivityAtMs := input.nowMs }
  members :=
    { workspace.members with
      runtimeProcessManaged := true
      deviceBridgeVersion := readyDeviceBridge workspace input
      cloudCommandProtocolVersion := (readyCommandProtocol workspace input).1
      cloudCommandRuntimeGeneration := (readyCommandProtocol workspace input).2
      startupTimings :=
        { workspace.members.startupTimings with
          connectedAt :=
            some (workspace.members.startupTimings.connectedAt.getD input.nowMs)
          repositoryReadyAt :=
            if input.repositoryReady = some false then
              workspace.members.startupTimings.repositoryReadyAt
            else
              some (workspace.members.startupTimings.repositoryReadyAt.getD input.nowMs) } }

def markRuntimeRepositoryReady : Option RuntimeWorkspace × RuntimeTables :=
  match tables.workspace with
  | none => (none, tables)
  | some workspace =>
    if mayBecomeReady workspace input then
      (some (readied workspace input), tables.withWorkspace (readied workspace input))
    else (none, tables)

def acknowledgeRuntimeBoot (input : RuntimeBootstrapAcknowledgementInput) : Bool × RuntimeTables :=
  match tables.workspace with
  | none => (false, tables)
  | some workspace =>
    match workspace.record.requestConfig.runtimeBootstrapReceipt with
    | none => (false, tables)
    | some receipt =>
      if canAcknowledgeRuntimeBoot workspace.record receipt input = false then
        (false, tables)
      else if receipt.acknowledgedAtMs.isSome then (true, tables)
      else if workspace.record.runtimeCredentialHash = some input.currentCredentialHash then
        (true, tables.withWorkspace
          { workspace with
            record :=
              { workspace.record with
                runtimeBootTokenHash := none
                runtimeBootTokenExpiresAtMs := none
                requestConfig :=
                  { workspace.record.requestConfig with
                    runtimeBootstrapReceipt :=
                      some { receipt with acknowledgedAtMs := some input.nowMs } }
                revision := workspace.record.revision + 1
                updatedAtMs := max input.nowMs (workspace.record.updatedAtMs + 1) } })
      else (false, tables)

def renewed (input : RuntimeCredentialRenewalInput) :
    RuntimeWorkspace :=
  { workspace with
    record :=
      { workspace.record with
        runtimeCredentialHash := some input.nextCredentialHash
        requestConfig :=
          { workspace.record.requestConfig with
            runtimeCredentialExpiresAtMs := some input.expiresAtMs
            runtimeCredentialRenewal := some input.receipt } } }

def renewRuntimeCredential (input : RuntimeCredentialRenewalInput) :
    Option RuntimeCredentialRenewalReceipt × RuntimeTables :=
  match tables.workspace with
  | none => (none, tables)
  | some workspace =>
    let prior := workspace.record.requestConfig.runtimeCredentialRenewal
    match runtimeCredentialRenewalDecision (some workspace) input prior with
    | .reject => (none, tables)
    | .replay => (prior, tables)
    | .renew =>
      (some input.receipt, tables.withWorkspace (renewed workspace input))

variable (config : RequestConfig)

/-- No lifecycle of the mailbox deletes the workspace, whatever fence it names. -/
def noDeleteLifecycle : Bool :=
  config.cloudMailboxLifecyclePending.map (·.action) ≠ some .delete &&
    config.cloudMailboxLifecycleDelivered.map (·.action) ≠ some .delete

def admitsActivity (accountId : String) (runtimeOnly : Bool) : Bool :=
  workspace.record.accountId = accountId &&
    (!runtimeOnly || workspace.record.desiredState = .ready &&
      !([.paused, .pausing, .archived, .failed].contains workspace.record.state)) &&
    workspace.record.state ≠ .deleted && workspace.record.desiredState ≠ .deleted &&
    noDeleteLifecycle workspace.record.requestConfig

def activityDeadline (nowMs nextIdleAtMs : Int) : Int :=
  workspace.record.preserveRuntimeOperationDeadline
    (if workspace.record.requestConfig.cloudMailboxWakePending then
      workspace.record.nextActionAtMs
    else if workspace.record.state = .paused then nowMs
    else if workspace.record.state = .ready then nextIdleAtMs
    else workspace.record.nextActionAtMs)

def resumed (members : RuntimeMembers) (nowMs : Int) : RuntimeMembers :=
  { members with
    startupTimings := { requestedAt := some nowMs, resumeRequestedAt := some nowMs } }

def active (nowMs nextIdleAtMs : Int) : RuntimeWorkspace where
  record :=
    { workspace.record with
      desiredState :=
        if workspace.record.state = .paused then .ready
        else workspace.record.desiredState
      statusCode :=
        if workspace.record.state = .paused then "resume-queued"
        else workspace.record.statusCode
      nextActionAtMs := activityDeadline workspace nowMs nextIdleAtMs
      lastActivityAtMs := nowMs
      revision := workspace.record.revision + 1
      updatedAtMs := nowMs }
  members :=
    if workspace.record.state = .paused then resumed workspace.members nowMs
    else workspace.members

def recordActivity (accountId : String) (nowMs nextIdleAtMs : Int) (runtimeOnly : Bool) :
    Option RuntimeWorkspace × RuntimeTables :=
  match tables.workspace with
  | none => (none, tables)
  | some workspace =>
    if admitsActivity workspace accountId runtimeOnly then
      (some (active workspace nowMs nextIdleAtMs),
        tables.withWorkspace (active workspace nowMs nextIdleAtMs))
    else (none, tables)

def admitsWake (accountId : String) : Bool :=
  workspace.record.accountId = accountId &&
    !([.archived, .archiving, .deleted, .deleting].contains workspace.record.state) &&
    !([.archived, .deleted].contains workspace.record.desiredState) &&
    noDeleteLifecycle workspace.record.requestConfig

def resuming : Bool :=
  [.paused, .pausing].contains workspace.record.state ||
    workspace.record.state = .ready && workspace.record.runtimeState ≠ .online

def wakeConfig (nowMs : Int) : RequestConfig :=
  { (if config.cloudMailboxWakePending then config
      else
        { config with
          cloudMailboxRuntimeSeenAt := none
          cloudMailboxProgressAt := none
          cloudMailboxProgressRevision := none
          cloudMailboxFenceRequired := false }) with
    cloudMailboxWakePending := true
    cloudMailboxWakeRequestedAt :=
      if config.cloudMailboxWakePending ∧ config.cloudMailboxWakeRequestedAt.isSome then
        config.cloudMailboxWakeRequestedAt
      else some nowMs
    cloudMailboxWakeRevision := some (config.cloudMailboxWakeRevision.elim 1 (· + 1)) }

def woken (nowMs : Int) : RuntimeWorkspace where
  record :=
    { workspace.record with
      desiredState := .ready
      statusCode :=
        if resuming workspace then "resume-queued" else workspace.record.statusCode
      requestConfig := wakeConfig workspace.record.requestConfig nowMs
      nextActionAtMs := nowMs
      lastActivityAtMs := nowMs
      revision := workspace.record.revision + 1
      updatedAtMs := nowMs }
  members :=
    if resuming workspace then resumed workspace.members nowMs else workspace.members

def requestMailboxWake (accountId : String) (nowMs _nextIdleAtMs : Int) :
    Option RuntimeWorkspace × RuntimeTables :=
  match tables.workspace with
  | none => (none, tables)
  | some workspace =>
    if admitsWake workspace accountId then
      (some (woken workspace nowMs), tables.withWorkspace (woken workspace nowMs))
    else (none, tables)

/-- A row whose document is exchanged and whose next action is due at another time. -/
def revised (nextActionAtMs nowMs : Int) : RuntimeWorkspace :=
  { workspace with
    record :=
      { workspace.record with
        requestConfig := config
        nextActionAtMs := nextActionAtMs
        revision := workspace.record.revision + 1
        updatedAtMs := nowMs } }

def polled (nowMs nextCheckAtMs : Int) : RuntimeWorkspace :=
  let config := workspace.record.requestConfig
  revised workspace
    { config with
      cloudMailboxWakeRevision := some (config.cloudMailboxWakeRevision.getD 1)
      cloudMailboxRuntimeSeenAt := some nowMs }
    (workspace.record.preserveRuntimeOperationDeadline nextCheckAtMs) nowMs

/-- A row that is not written is read, and an absent revision reads as zero. -/
def recordMailboxRuntimePoll (runtime : MailboxRuntime) (nowMs nextCheckAtMs : Int) :
    Option Nat × RuntimeTables :=
  match tables.workspace with
  | none => (none, tables)
  | some workspace =>
    let config := workspace.record.requestConfig
    if workspace.record.serves runtime ∧ config.cloudMailboxRuntimeSeenAt.isNone then
      (some (config.cloudMailboxWakeRevision.getD 1),
        tables.withWorkspace (polled workspace nowMs nextCheckAtMs))
    else if workspace.record.serves runtime then
      (some (config.cloudMailboxWakeRevision.getD 0), tables)
    else (none, tables)

def servesWake (runtime : MailboxRuntime) (wakeRevision : Nat) : Bool :=
  workspace.record.serves runtime &&
    workspace.record.requestConfig.cloudMailboxWakeRevision = some wakeRevision

def progressConfig (input : MailboxProgressInput) : RequestConfig :=
  { config with
    cloudMailboxProgressRevision := some input.mailboxRevision
    cloudMailboxProgressAt := some input.nowMs
    cloudMailboxFenceRequired := config.cloudMailboxFenceRequired || input.fenceRequired }

def progressed (input : MailboxProgressInput) :
    RuntimeWorkspace :=
  revised workspace (progressConfig workspace.record.requestConfig input)
    (if input.fenceRequired then input.nowMs
    else workspace.record.preserveRuntimeOperationDeadline input.nextCheckAtMs)
    input.nowMs

def recordMailboxRuntimeProgress (input : MailboxProgressInput) : Bool × RuntimeTables :=
  match tables.workspace with
  | none => (false, tables)
  | some workspace =>
    let config := workspace.record.requestConfig
    if servesWake workspace input.runtime input.wakeRevision ∧
        config.cloudMailboxFenceRequired = false ∧
        (input.fenceRequired ∨
          config.cloudMailboxProgressRevision.all (· < input.mailboxRevision)) then
      (true, tables.withWorkspace (progressed workspace input))
    else (false, tables)

def drainedConfig : RequestConfig :=
  { config with
    cloudMailboxWakePending := false
    cloudMailboxWakeRequestedAt := none
    cloudMailboxRuntimeSeenAt := none
    cloudMailboxProgressAt := none
    cloudMailboxProgressRevision := none
    cloudMailboxFenceRequired := false }

def completeMailboxDrain (runtime : MailboxRuntime) (wakeRevision : Nat)
    (nowMs nextIdleAtMs : Int) : Bool × RuntimeTables :=
  match tables.workspace with
  | none => (false, tables)
  | some workspace =>
    if servesWake workspace runtime wakeRevision then
      (true,
        tables.withWorkspace (revised workspace (drainedConfig workspace.record.requestConfig)
          (workspace.record.preserveRuntimeOperationDeadline nextIdleAtMs) nowMs))
    else (false, tables)

/-- The row that is inserted, or that the conflict clause makes of the stored one. -/
def mergedSummary (previous : Option CloudWorkspaceRuntimeSummaryRecord)
    (input : CloudWorkspaceRuntimeSummaryRecord) : CloudWorkspaceRuntimeSummaryRecord :=
  let excluded := { input with nativeAgentAccess := some (input.nativeAgentAccess.getD []) }
  match previous with
  | none => excluded
  | some stored =>
    { excluded with
      lastUserMessageAtMs := input.lastUserMessageAtMs.or stored.lastUserMessageAtMs
      lastActivityAtMs :=
        if stored.runtimeGeneration = input.runtimeGeneration then
          max stored.lastActivityAtMs input.lastActivityAtMs
        else input.lastActivityAtMs
      sessionHeadVersion :=
        if stored.runtimeGeneration = input.runtimeGeneration ∧
            stored.activeSessionId = input.activeSessionId then
          max stored.sessionHeadVersion input.sessionHeadVersion
        else input.sessionHeadVersion }

def keepsSummary (input previous : CloudWorkspaceRuntimeSummaryRecord) : Bool :=
  !(previous.runtimeGeneration < input.runtimeGeneration ||
    input.runtimeGeneration = previous.runtimeGeneration &&
      previous.summaryRevision < input.summaryRevision)

def saveRuntimeSummary (input : CloudWorkspaceRuntimeSummaryRecord) :
    RuntimeSummaryWriteOutcome × RuntimeTables :=
  match tables.workspace with
  | none => (.workspaceMissing, tables)
  | some workspace =>
    if workspace.record.requestConfig.runtimeGeneration.getD 1 ≠ input.runtimeGeneration then
      (.rejectedGeneration, tables)
    else
      match tables.summary.filter (keepsSummary input) with
      | some previous => (.stale previous, tables)
      | none =>
        (.applied (mergedSummary tables.summary input),
          { tables with summary := some (mergedSummary tables.summary input) })

def replacesCheckpoint (checkpoint previous : CloudTranscriptCheckpointRecord) : Bool :=
  previous.runtimeGeneration < checkpoint.runtimeGeneration &&
      previous.streamVersion ≤ checkpoint.streamVersion ||
    checkpoint.runtimeGeneration = previous.runtimeGeneration &&
      checkpoint.streamEpoch = previous.streamEpoch &&
      previous.streamVersion < checkpoint.streamVersion

def saveTranscriptCheckpoint (checkpoint : CloudTranscriptCheckpointRecord) :
    Bool × RuntimeTables :=
  match tables.workspace with
  | none => (false, tables)
  | some workspace =>
    if workspace.record.requestConfig.runtimeGeneration.getD 1 = checkpoint.runtimeGeneration ∧
        (tables.checkpoints.find? (·.sessionId = checkpoint.sessionId)).all
          (replacesCheckpoint checkpoint) then
      (true,
        { tables with
          checkpoints :=
            checkpoint :: tables.checkpoints.filter (·.sessionId ≠ checkpoint.sessionId) })
    else (false, tables)

def step : RuntimeOperation → RuntimeOutcome × RuntimeTables
  | .getLaunchIntent nowMs => (getLaunchIntent tables nowMs).map .launchIntent id
  | .completeLaunchIntent input =>
    (completeLaunchIntent tables input).map .completion id
  | .enrollRuntimeBoot input => (enrollRuntimeBoot tables input).map .enrollment id
  | .markRuntimeRepositoryReady input =>
    (markRuntimeRepositoryReady tables input).map .workspace id
  | .acknowledgeRuntimeBoot input => (acknowledgeRuntimeBoot tables input).map .done id
  | .renewRuntimeCredential input =>
    (renewRuntimeCredential tables input).map .renewal id
  | .recordActivity accountId nowMs nextIdleAtMs runtimeOnly =>
    (recordActivity tables accountId nowMs nextIdleAtMs runtimeOnly).map .workspace id
  | .requestMailboxWake accountId nowMs nextIdleAtMs =>
    (requestMailboxWake tables accountId nowMs nextIdleAtMs).map .workspace id
  | .recordMailboxRuntimePoll runtime nowMs nextCheckAtMs =>
    (recordMailboxRuntimePoll tables runtime nowMs nextCheckAtMs).map .wakeRevision id
  | .recordMailboxRuntimeProgress input =>
    (recordMailboxRuntimeProgress tables input).map .done id
  | .completeMailboxDrain runtime wakeRevision nowMs nextIdleAtMs =>
    (completeMailboxDrain tables runtime wakeRevision nowMs nextIdleAtMs).map .done id
  | .saveRuntimeSummary input => (saveRuntimeSummary tables input).map .summary id
  | .saveTranscriptCheckpoint checkpoint =>
    (saveTranscriptCheckpoint tables checkpoint).map .done id

end Zuse.Workspaces.StorePg
