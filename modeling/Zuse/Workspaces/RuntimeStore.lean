import Zuse.Workspaces.RuntimeTables
import Zuse.Workspaces.WorkspaceLifecycle

namespace Zuse.Workspaces.StoreMemory

variable (tables : RuntimeTables)

def getLaunchIntent (nowMs : Int) : Option CloudWorkspaceLaunchIntentRecord × RuntimeTables :=
  match tables.launchIntent with
  | none => (none, tables)
  | some intent =>
    if nowMs < intent.expiresAtMs then (some intent, tables)
    else
      (none,
        { tables with
          workspace := tables.workspace.map fun workspace =>
            { workspace with
              record :=
                { workspace.record with
                  state := .failed
                  statusCode := "launch-intent-expired"
                  revision := workspace.record.revision + 1
                  updatedAtMs := nowMs } } })

def completeLaunchIntent (input : CompleteLaunchIntentInput) :
    CompleteLaunchIntentOutcome × RuntimeTables :=
  match tables.workspace with
  | none => (.workspaceMissing, tables)
  | some workspace =>
    if tables.launchIntent.map (·.commandId) ≠ some input.commandId ∧
        ¬(tables.launchIntent.isNone ∧ workspace.canRecoverMissingLaunchIntent input) then
      (.rejected, tables)
    else
      let completed := workspace.completeLaunchWorkspace input
      (.completed completed,
        { tables.withWorkspace completed with launchIntent := none })

def enrolledIntent (nowMs : Int) : Option CloudWorkspaceLaunchIntentRecord :=
  if nowMs < (tables.launchIntent.map (·.expiresAtMs)).getD 0 then tables.launchIntent
  else none

variable (workspace : RuntimeWorkspace)

def mayEnroll (input : RuntimeBootstrapEnrollmentInput) : Bool :=
  workspace.record.runtimeBootTokenHash = some input.bootTokenHash &&
    input.nowMs < workspace.record.runtimeBootTokenExpiresAtMs.getD 0 &&
    workspace.record.desiredState = .ready &&
    workspace.record.providerSandboxId.isSome && workspace.record.state ≠ .deleted

def receiptMatches (prior : RuntimeBootstrapReceipt)
    (input : RuntimeBootstrapEnrollmentInput) : Bool :=
  prior.bootTokenHash = input.bootTokenHash &&
    prior.credentialKeyThumbprint = input.credentialKeyThumbprint &&
    prior.signingKeyThumbprint = input.signingKeyThumbprint &&
    prior.generation = input.generation && prior.gatewayEpoch = input.gatewayEpoch

def enrolled (input : RuntimeBootstrapEnrollmentInput) : RuntimeWorkspace where
  record :=
    { workspace.record with
      runtimeCredentialHash := some input.runtimeCredentialHash
      runtimeState := .connecting
      state := .setup
      statusCode := "runtime-authenticating"
      requestConfig :=
        { workspace.record.requestConfig with
          runtimeSigningKeyThumbprint := some input.signingKeyThumbprint
          runtimeGeneration := some input.generation
          gatewayEpoch := some input.gatewayEpoch
          runtimeCredentialExpiresAtMs := some input.runtimeCredentialExpiresAtMs
          runtimeBootstrapReceipt := some input.receipt }
      nextActionAtMs :=
        workspace.record.preserveRuntimeOperationDeadline (input.nowMs + 30000)
      revision := workspace.record.revision + 1
      updatedAtMs := input.nowMs }
  members :=
    { workspace.members with
      runtimeSigningPublicJwk := some input.signingPublicJwk
      runtimeCredentialKeyThumbprint := some input.credentialKeyThumbprint
      startupTimings :=
        { workspace.members.startupTimings with
          enrolledAt := some input.nowMs
          runtimeReadyAt := some input.nowMs
          enrollmentDurationMs :=
            workspace.members.startupTimings.allocatedAt.map (input.nowMs - ·) } }

def enrollRuntimeBoot (input : RuntimeBootstrapEnrollmentInput) :
    Option RuntimeBootstrapEnrollmentOutcome × RuntimeTables :=
  match tables.workspace with
  | none => (none, tables)
  | some workspace =>
    match workspace.record.requestConfig.runtimeBootstrapReceipt.filter fun _ =>
        workspace.record.runtimeBootTokenHash = some input.bootTokenHash with
    | some prior =>
      if receiptMatches prior input ∧ mayEnroll workspace input then
        (some
          { created := false
            workspace := workspace
            receipt := prior
            launchIntent := enrolledIntent tables input.nowMs }, tables)
      else (none, tables)
    | none =>
      if mayEnroll workspace input = false then (none, tables)
      else if input.generation ≠ workspace.record.cloudWorkspaceRuntimeGeneration ∨
          input.gatewayEpoch ≠ workspace.record.cloudWorkspaceGatewayEpoch then
        (none, tables)
      else
        (some
          { created := true
            workspace := enrolled workspace input
            receipt := input.receipt
            launchIntent := enrolledIntent tables input.nowMs },
          tables.withWorkspace (enrolled workspace input))

variable (input : RuntimeRepositoryReadyInput)

/-- The runtime has a credential that has not expired, and nothing else is to happen to
the workspace first. -/
def mayBecomeReady :
    Bool :=
  workspace.record.runtimeCredentialHash = some input.currentCredentialHash &&
    unexpired workspace.record.requestConfig.runtimeCredentialExpiresAtMs input.nowMs &&
    workspace.record.state ≠ .deleted && workspace.record.desiredState = .ready &&
    workspace.record.statusCode ≠ "restart-queued" &&
    workspace.record.statusCode ≠ "resume-runtime-recovery-queued" &&
    !workspace.record.requestConfig.cloudMailboxFenceRequired

def agentOnline : Bool :=
  workspace.record.runtimeState = .online &&
    ["agent-starting", "agent-running", "ready"].contains workspace.record.statusCode

def connectionOnly :
    Bool :=
  input.repositoryReady = some false && !agentOnline workspace

def readyState :
    CloudWorkspaceState :=
  if connectionOnly workspace input ∨ workspace.record.launchPending then .setup
  else .ready

def readyStatusCode :
    String :=
  if connectionOnly workspace input then
    input.preparationPhase.getD "syncing-repository"
  else if workspace.record.launchPending then "agent-starting"
  else workspace.completedLaunchStatus

/-- The protocol of commands that the runtime speaks: a runtime whose repository is ready
says so anew. -/
def readyCommandProtocol : Option Nat × Option Nat :=
  match input.commandProtocolVersion with
  | some version =>
    (some version, some workspace.record.cloudWorkspaceRuntimeGeneration)
  | none =>
    if input.repositoryReady = some false then
      (workspace.members.cloudCommandProtocolVersion,
        workspace.members.cloudCommandRuntimeGeneration)
    else (none, none)

def readyDeviceBridge : Option (Option Nat) :=
  match input.deviceBridgeVersion with
  | some version => some (some version)
  | none =>
    if input.repositoryReady = some false then workspace.members.deviceBridgeVersion
    else some none

def readyDeadline : Int :=
  workspace.record.preserveRuntimeOperationDeadline
    (if workspace.record.requestConfig.cloudMailboxWakePending then
      min workspace.record.nextActionAtMs input.nowMs
    else if workspace.record.launchPending then
      min workspace.record.nextActionAtMs (input.nowMs + 30000)
    else input.nextIdleAtMs)

def readied : RuntimeWorkspace where
  record :=
    { workspace.record with
      runtimeState := .online
      state := readyState workspace input
      statusCode := readyStatusCode workspace input
      nextActionAtMs := readyDeadline workspace input
      runningSinceMs := some (workspace.record.runningSinceMs.getD input.nowMs)
      revision := workspace.record.revision + 1
      updatedAtMs := input.nowMs
      lastActivityAtMs := input.nowMs }
  members :=
    { workspace.members with
      runtimeProcessManaged := true
      deviceBridgeVersion := readyDeviceBridge workspace input
      cloudCommandProtocolVersion := (readyCommandProtocol workspace input).1
      cloudCommandRuntimeGeneration := (readyCommandProtocol workspace input).2
      startupTimings :=
        { workspace.members.startupTimings with
          connectedAt :=
            some (workspace.members.startupTimings.connectedAt.getD input.nowMs)
          repositoryReadyAt :=
            if connectionOnly workspace input then
              workspace.members.startupTimings.repositoryReadyAt
            else
              some (workspace.members.startupTimings.repositoryReadyAt.getD input.nowMs) } }

def markRuntimeRepositoryReady : Option RuntimeWorkspace × RuntimeTables :=
  match tables.workspace with
  | none => (none, tables)
  | some workspace =>
    if mayBecomeReady workspace input then
      (some (readied workspace input), tables.withWorkspace (readied workspace input))
    else (none, tables)

def acknowledged (receipt : RuntimeBootstrapReceipt) (nowMs : Int) : RuntimeWorkspace :=
  { workspace with
    record :=
      { workspace.record with
        runtimeBootTokenHash := none
        runtimeBootTokenExpiresAtMs := none
        requestConfig :=
          { workspace.record.requestConfig with
            runtimeBootstrapReceipt :=
              some { receipt with acknowledgedAtMs := some nowMs } }
        revision := workspace.record.revision + 1
        updatedAtMs := max nowMs (workspace.record.updatedAtMs + 1) } }

def acknowledgeRuntimeBoot (input : RuntimeBootstrapAcknowledgementInput) : Bool × RuntimeTables :=
  match tables.workspace with
  | none => (false, tables)
  | some workspace =>
    match workspace.record.requestConfig.runtimeBootstrapReceipt with
    | none => (false, tables)
    | some receipt =>
      if canAcknowledgeRuntimeBoot workspace.record receipt input = false then
        (false, tables)
      else if receipt.acknowledgedAtMs.isSome then (true, tables)
      else
        (true, tables.withWorkspace (acknowledged workspace receipt input.nowMs))

def renewRuntimeCredential (input : RuntimeCredentialRenewalInput) :
    Option RuntimeCredentialRenewalReceipt × RuntimeTables :=
  let existing := tables.renewals.find? (·.requestId = input.requestId)
  match tables.workspace with
  | none => (none, tables)
  | some workspace =>
    match runtimeCredentialRenewalDecision (some workspace) input existing with
    | .reject => (none, tables)
    | .replay => (existing, tables)
    | .renew =>
      (some input.receipt,
        { tables with
          workspace := some
            { workspace with
              record :=
                { workspace.record with
                  runtimeCredentialHash := some input.nextCredentialHash
                  requestConfig :=
                    { workspace.record.requestConfig with
                      runtimeCredentialExpiresAtMs := some input.expiresAtMs } } }
          renewals :=
            input.receipt :: tables.renewals.filter (·.requestId ≠ input.requestId) })

def admitsActivity (accountId : String) (runtimeOnly : Bool) : Bool :=
  workspace.record.accountId = accountId &&
    !workspace.record.workspaceDeletionRequested &&
    (!runtimeOnly || workspace.record.desiredState = .ready &&
      !([.paused, .pausing, .archived, .failed].contains workspace.record.state))

def activityDeadline (nowMs nextIdleAtMs : Int) : Int :=
  workspace.record.preserveRuntimeOperationDeadline
    (if workspace.record.requestConfig.cloudMailboxWakePending then
      workspace.record.nextActionAtMs
    else if workspace.record.state = .paused then nowMs
    else nextIdleAtMs)

def resumed (members : RuntimeMembers) (nowMs : Int) : RuntimeMembers :=
  { members with
    startupTimings := { requestedAt := some nowMs, resumeRequestedAt := some nowMs } }

def active (nowMs nextIdleAtMs : Int) : RuntimeWorkspace where
  record :=
    { workspace.record with
      desiredState :=
        if workspace.record.state = .paused then .ready
        else workspace.record.desiredState
      statusCode :=
        if workspace.record.state = .paused then "resume-queued"
        else workspace.record.statusCode
      nextActionAtMs := activityDeadline workspace nowMs nextIdleAtMs
      lastActivityAtMs := nowMs
      revision := workspace.record.revision + 1
      updatedAtMs := nowMs }
  members :=
    if workspace.record.state = .paused then resumed workspace.members nowMs
    else workspace.members

def recordActivity (accountId : String) (nowMs nextIdleAtMs : Int) (runtimeOnly : Bool) :
    Option RuntimeWorkspace × RuntimeTables :=
  match tables.workspace with
  | none => (none, tables)
  | some workspace =>
    if admitsActivity workspace accountId runtimeOnly then
      (some (active workspace nowMs nextIdleAtMs),
        tables.withWorkspace (active workspace nowMs nextIdleAtMs))
    else (none, tables)

def safeRevision (revision : Option Nat) : Option Nat :=
  revision.filter fun value => (value : Int) ≤ maxSafeInteger

def admitsWake (accountId : String) : Bool :=
  workspace.record.accountId = accountId &&
    !workspace.record.workspaceDeletionRequested && workspace.record.state ≠ .archived &&
    workspace.record.state ≠ .archiving && workspace.record.desiredState ≠ .archived

def resuming : Bool :=
  workspace.record.state = .paused || workspace.record.state = .pausing ||
    workspace.record.state = .ready && workspace.record.runtimeState ≠ .online

variable (config : RequestConfig)

/-- The document without what a runtime has told of an earlier wake. -/
def withoutRuntimeObservation : RequestConfig :=
  { config with
    cloudMailboxRuntimeSeenAt := none
    cloudMailboxProgressAt := none
    cloudMailboxProgressRevision := none
    cloudMailboxFenceRequired := false }

def wakeConfig (nowMs : Int) : RequestConfig :=
  { (if config.cloudMailboxWakePending then config
      else withoutRuntimeObservation config) with
    cloudMailboxWakePending := true
    cloudMailboxWakeRequestedAt :=
      some ((config.cloudMailboxWakeRequestedAt.filter fun _ =>
        config.cloudMailboxWakePending).getD nowMs)
    cloudMailboxWakeRevision :=
      some ((safeRevision config.cloudMailboxWakeRevision).getD 0 + 1) }

def woken (nowMs : Int) : RuntimeWorkspace where
  record :=
    { workspace.record with
      desiredState := .ready
      statusCode :=
        if resuming workspace then "resume-queued" else workspace.record.statusCode
      requestConfig := wakeConfig workspace.record.requestConfig nowMs
      nextActionAtMs := nowMs
      lastActivityAtMs := nowMs
      revision := workspace.record.revision + 1
      updatedAtMs := nowMs }
  members :=
    if resuming workspace then resumed workspace.members nowMs else workspace.members

def requestMailboxWake (accountId : String) (nowMs _nextIdleAtMs : Int) :
    Option RuntimeWorkspace × RuntimeTables :=
  match tables.workspace with
  | none => (none, tables)
  | some workspace =>
    if admitsWake workspace accountId then
      (some (woken workspace nowMs), tables.withWorkspace (woken workspace nowMs))
    else (none, tables)

/-- A row whose document is exchanged and whose next action is due at another time. -/
def revised (nextActionAtMs nowMs : Int) : RuntimeWorkspace :=
  { workspace with
    record :=
      { workspace.record with
        requestConfig := config
        nextActionAtMs := nextActionAtMs
        revision := workspace.record.revision + 1
        updatedAtMs := nowMs } }

def polled (wakeRevision : Nat) (nowMs nextCheckAtMs : Int) :
    RuntimeWorkspace :=
  revised workspace
    { workspace.record.requestConfig with
      cloudMailboxWakeRevision := some wakeRevision
      cloudMailboxRuntimeSeenAt := some nowMs }
    (workspace.record.preserveRuntimeOperationDeadline nextCheckAtMs) nowMs

def recordMailboxRuntimePoll (runtime : MailboxRuntime) (nowMs nextCheckAtMs : Int) :
    Option Nat × RuntimeTables :=
  match tables.workspace with
  | none => (none, tables)
  | some workspace =>
    if workspace.record.serves runtime then
      let wakeRevision :=
        (safeRevision workspace.record.requestConfig.cloudMailboxWakeRevision).getD 1
      if workspace.record.requestConfig.cloudMailboxRuntimeSeenAt.isSome then
        (some wakeRevision, tables)
      else
        (some wakeRevision,
          tables.withWorkspace (polled workspace wakeRevision nowMs nextCheckAtMs))
    else (none, tables)

def servesWake (runtime : MailboxRuntime) (wakeRevision : Nat) : Bool :=
  workspace.record.serves runtime &&
    workspace.record.requestConfig.cloudMailboxWakeRevision = some wakeRevision

def reached (mailboxRevision : Nat) : Bool :=
  config.cloudMailboxProgressRevision.any (mailboxRevision ≤ ·)

def progressConfig (input : MailboxProgressInput) : RequestConfig :=
  { config with
    cloudMailboxProgressRevision :=
      if reached config input.mailboxRevision then config.cloudMailboxProgressRevision
      else some input.mailboxRevision
    cloudMailboxProgressAt :=
      if reached config input.mailboxRevision then config.cloudMailboxProgressAt
      else some input.nowMs
    cloudMailboxFenceRequired := config.cloudMailboxFenceRequired || input.fenceRequired }

def progressed (input : MailboxProgressInput) :
    RuntimeWorkspace :=
  revised workspace (progressConfig workspace.record.requestConfig input)
    (workspace.record.preserveRuntimeOperationDeadline
      (if input.fenceRequired then input.nowMs else input.nextCheckAtMs))
    input.nowMs

def recordMailboxRuntimeProgress (input : MailboxProgressInput) : Bool × RuntimeTables :=
  match tables.workspace with
  | none => (false, tables)
  | some workspace =>
    let config := workspace.record.requestConfig
    if servesWake workspace input.runtime input.wakeRevision = false then
      (false, tables)
    else if input.fenceRequired = false ∧ config.cloudMailboxFenceRequired then
      (true, tables)
    else if input.fenceRequired = false ∧ reached config input.mailboxRevision then
      (true, tables)
    else if input.fenceRequired ∧ config.cloudMailboxFenceRequired then
      (true, tables)
    else (true, tables.withWorkspace (progressed workspace input))

def drainedConfig : RequestConfig :=
  { withoutRuntimeObservation config with
    cloudMailboxWakePending := false
    cloudMailboxWakeRequestedAt := none }

def completeMailboxDrain (runtime : MailboxRuntime) (wakeRevision : Nat)
    (nowMs nextIdleAtMs : Int) : Bool × RuntimeTables :=
  match tables.workspace with
  | none => (false, tables)
  | some workspace =>
    if servesWake workspace runtime wakeRevision then
      (true,
        tables.withWorkspace (revised workspace (drainedConfig workspace.record.requestConfig)
          (workspace.record.preserveRuntimeOperationDeadline nextIdleAtMs) nowMs))
    else (false, tables)

def mergedSummary (previous : Option CloudWorkspaceRuntimeSummaryRecord)
    (input : CloudWorkspaceRuntimeSummaryRecord) : CloudWorkspaceRuntimeSummaryRecord :=
  let same := previous.filter (·.runtimeGeneration = input.runtimeGeneration)
  { input with
    lastUserMessageAtMs :=
      input.lastUserMessageAtMs.or (previous.bind (·.lastUserMessageAtMs))
    lastActivityAtMs :=
      same.elim input.lastActivityAtMs (max ·.lastActivityAtMs input.lastActivityAtMs)
    sessionHeadVersion :=
      (same.filter (·.activeSessionId = input.activeSessionId)).elim
        input.sessionHeadVersion (max ·.sessionHeadVersion input.sessionHeadVersion) }

def saveRuntimeSummary (input : CloudWorkspaceRuntimeSummaryRecord) :
    RuntimeSummaryWriteOutcome × RuntimeTables :=
  match tables.workspace with
  | none => (.workspaceMissing, tables)
  | some workspace =>
    if workspace.record.cloudWorkspaceRuntimeGeneration ≠ input.runtimeGeneration then
      (.rejectedGeneration, tables)
    else
      match tables.summary.filter fun previous =>
          previous.runtimeGeneration = input.runtimeGeneration ∧
            input.summaryRevision ≤ previous.summaryRevision with
      | some previous => (.stale previous, tables)
      | none =>
        (.applied (mergedSummary tables.summary input),
          { tables with summary := some (mergedSummary tables.summary input) })

/-- The rows of the checkpoints with one of them stored under its session. -/
def withCheckpoint (checkpoints : List CloudTranscriptCheckpointRecord)
    (checkpoint : CloudTranscriptCheckpointRecord) : List CloudTranscriptCheckpointRecord :=
  checkpoint :: checkpoints.filter (·.sessionId ≠ checkpoint.sessionId)

def blocksCheckpoint (checkpoint previous : CloudTranscriptCheckpointRecord) : Bool :=
  checkpoint.runtimeGeneration < previous.runtimeGeneration ||
    checkpoint.streamVersion < previous.streamVersion ||
    previous.runtimeGeneration = checkpoint.runtimeGeneration &&
      (previous.streamEpoch ≠ checkpoint.streamEpoch ||
        checkpoint.streamVersion ≤ previous.streamVersion)

def saveTranscriptCheckpoint (checkpoint : CloudTranscriptCheckpointRecord) :
    Bool × RuntimeTables :=
  match tables.workspace with
  | none => (false, tables)
  | some workspace =>
    if workspace.record.cloudWorkspaceRuntimeGeneration ≠ checkpoint.runtimeGeneration then
      (false, tables)
    else if (tables.checkpoints.find? (·.sessionId = checkpoint.sessionId)).any
        (blocksCheckpoint checkpoint) then
      (false, tables)
    else
      (true,
        { tables with checkpoints := withCheckpoint tables.checkpoints checkpoint })

def step : RuntimeOperation → RuntimeOutcome × RuntimeTables
  | .getLaunchIntent nowMs => (getLaunchIntent tables nowMs).map .launchIntent id
  | .completeLaunchIntent input =>
    (completeLaunchIntent tables input).map .completion id
  | .enrollRuntimeBoot input => (enrollRuntimeBoot tables input).map .enrollment id
  | .markRuntimeRepositoryReady input =>
    (markRuntimeRepositoryReady tables input).map .workspace id
  | .acknowledgeRuntimeBoot input => (acknowledgeRuntimeBoot tables input).map .done id
  | .renewRuntimeCredential input =>
    (renewRuntimeCredential tables input).map .renewal id
  | .recordActivity accountId nowMs nextIdleAtMs runtimeOnly =>
    (recordActivity tables accountId nowMs nextIdleAtMs runtimeOnly).map .workspace id
  | .requestMailboxWake accountId nowMs nextIdleAtMs =>
    (requestMailboxWake tables accountId nowMs nextIdleAtMs).map .workspace id
  | .recordMailboxRuntimePoll runtime nowMs nextCheckAtMs =>
    (recordMailboxRuntimePoll tables runtime nowMs nextCheckAtMs).map .wakeRevision id
  | .recordMailboxRuntimeProgress input =>
    (recordMailboxRuntimeProgress tables input).map .done id
  | .completeMailboxDrain runtime wakeRevision nowMs nextIdleAtMs =>
    (completeMailboxDrain tables runtime wakeRevision nowMs nextIdleAtMs).map .done id
  | .saveRuntimeSummary input => (saveRuntimeSummary tables input).map .summary id
  | .saveTranscriptCheckpoint checkpoint =>
    (saveTranscriptCheckpoint tables checkpoint).map .done id

end Zuse.Workspaces.StoreMemory
