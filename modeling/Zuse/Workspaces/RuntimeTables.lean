import Mathlib.Order.Lattice
import Zuse.Workspaces.WorkspaceRecord

namespace Zuse.Workspaces

/-! What the operations of a runtime read and write: the tables of its workspace. -/

structure StartupTimings where
  requestedAt : Option Int := none
  resumeRequestedAt : Option Int := none
  allocatedAt : Option Int := none
  enrolledAt : Option Int := none
  runtimeReadyAt : Option Int := none
  enrollmentDurationMs : Option Int := none
  connectedAt : Option Int := none
  repositoryReadyAt : Option Int := none
  agentStartedAt : Option Int := none
  messageAcceptedAt : Option Int := none
  launchDurationMs : Option Int := none
  others : List (String × Int) := []
  deriving DecidableEq

/-- The members of the request document that only runtimes go by. The version of a device
bridge is a number, `null` or absent. -/
structure RuntimeMembers where
  startupTimings : StartupTimings := {}
  deviceBridgeVersion : Option (Option Nat) := none
  runtimeProcessManaged : Bool := false
  cloudCommandProtocolVersion : Option Nat := none
  cloudCommandRuntimeGeneration : Option Nat := none
  cloudCommandEnrollmentProtocolVersion : Option Nat := none
  launchErrorCode : Option String := none
  startupFailureDiagnostic : Option String := none
  runtimeSigningPublicJwk : Option String := none
  runtimeCredentialKeyThumbprint : Option String := none
  deriving DecidableEq

structure RuntimeWorkspace where
  record : CloudWorkspaceRecord
  members : RuntimeMembers := {}
  deriving DecidableEq

structure CloudWorkspaceLaunchIntentRecord where
  accountId : String
  chatId : String
  sessionId : String
  turnId : String
  commandId : String
  ciphertext : String
  expiresAtMs : Int
  createdAtMs : Int
  deriving DecidableEq

structure CloudWorkspaceRuntimeSummaryRecord where
  nativeAgentAccess : Option (List String) := none
  runtimeGeneration : Nat
  summaryRevision : Nat
  title : String
  lastActivityAtMs : Int
  lastUserMessageAtMs : Option Int := none
  activeSessionId : Option String := none
  sessionHeadVersion : Nat
  updatedAtMs : Int
  deriving DecidableEq

structure CloudTranscriptCheckpointRecord where
  sessionId : String
  runtimeGeneration : Nat
  streamEpoch : String
  streamVersion : Nat
  objectKey : String
  ciphertextSha256 : String
  ciphertextBytes : Nat
  createdAtMs : Int
  deriving DecidableEq

/-- The rows of one workspace. Only the store in memory keeps receipts of renewals beside
the row. -/
structure RuntimeTables where
  workspace : Option RuntimeWorkspace := none
  launchIntent : Option CloudWorkspaceLaunchIntentRecord := none
  renewals : List RuntimeCredentialRenewalReceipt := []
  summary : Option CloudWorkspaceRuntimeSummaryRecord := none
  checkpoints : List CloudTranscriptCheckpointRecord := []
  deriving DecidableEq

def RuntimeTables.withWorkspace (tables : RuntimeTables) (workspace : RuntimeWorkspace) :
    RuntimeTables :=
  { tables with workspace := some workspace }

structure CompleteLaunchIntentInput where
  commandId : String
  sessionHeadVersion : Nat
  nowMs : Int
  nextActionAtMs : Int

structure RuntimeBootstrapEnrollmentInput where
  bootTokenHash : String
  credentialKeyThumbprint : String
  signingKeyThumbprint : String
  signingPublicJwk : String
  runtimeCredentialHash : String
  runtimeCredentialExpiresAtMs : Int
  generation : Nat
  gatewayEpoch : Nat
  sealedTranscriptKey : String
  capabilities : Option (List String) := none
  nowMs : Int

structure RuntimeRepositoryReadyInput where
  currentCredentialHash : String
  repositoryReady : Option Bool := none
  preparationPhase : Option String := none
  deviceBridgeVersion : Option Nat := none
  commandProtocolVersion : Option Nat := none
  nowMs : Int
  nextIdleAtMs : Int

structure RuntimeBootstrapAcknowledgementInput where
  currentCredentialHash : String
  generation : Nat
  gatewayEpoch : Nat
  nowMs : Int

structure RuntimeCredentialRenewalInput where
  currentCredentialHash : String
  requestId : String
  nextCredentialHash : String
  expiresAtMs : Int
  generation : Nat
  gatewayEpoch : Nat
  nowMs : Int
  verifiedSigningKeyThumbprint : Option String := none

/-- What a poll, a progress report and a drain of the mailbox name their workspace by. -/
structure MailboxRuntime where
  accountId : String
  runtimeGeneration : Nat

structure MailboxProgressInput where
  runtime : MailboxRuntime
  wakeRevision : Nat
  mailboxRevision : Nat
  fenceRequired : Bool
  nowMs : Int
  nextCheckAtMs : Int

inductive RuntimeOperation where
  | getLaunchIntent (nowMs : Int)
  | completeLaunchIntent (input : CompleteLaunchIntentInput)
  | enrollRuntimeBoot (input : RuntimeBootstrapEnrollmentInput)
  | markRuntimeRepositoryReady (input : RuntimeRepositoryReadyInput)
  | acknowledgeRuntimeBoot (input : RuntimeBootstrapAcknowledgementInput)
  | renewRuntimeCredential (input : RuntimeCredentialRenewalInput)
  | recordActivity (accountId : String) (nowMs nextIdleAtMs : Int) (runtimeOnly : Bool)
  | requestMailboxWake (accountId : String) (nowMs nextIdleAtMs : Int)
  | recordMailboxRuntimePoll (runtime : MailboxRuntime) (nowMs nextCheckAtMs : Int)
  | recordMailboxRuntimeProgress (input : MailboxProgressInput)
  | completeMailboxDrain (runtime : MailboxRuntime) (wakeRevision : Nat) (nowMs nextIdleAtMs : Int)
  | saveRuntimeSummary (input : CloudWorkspaceRuntimeSummaryRecord)
  | saveTranscriptCheckpoint (checkpoint : CloudTranscriptCheckpointRecord)

inductive CompleteLaunchIntentOutcome where
  | completed (workspace : RuntimeWorkspace)
  | rejected
  | workspaceMissing
  deriving DecidableEq

structure RuntimeBootstrapEnrollmentOutcome where
  created : Bool
  workspace : RuntimeWorkspace
  receipt : RuntimeBootstrapReceipt
  launchIntent : Option CloudWorkspaceLaunchIntentRecord
  deriving DecidableEq

inductive RuntimeSummaryWriteOutcome where
  | applied (summary : CloudWorkspaceRuntimeSummaryRecord)
  | stale (summary : CloudWorkspaceRuntimeSummaryRecord)
  | rejectedGeneration
  | workspaceMissing
  deriving DecidableEq

inductive RuntimeOutcome where
  | launchIntent (intent : Option CloudWorkspaceLaunchIntentRecord)
  | completion (outcome : CompleteLaunchIntentOutcome)
  | enrollment (outcome : Option RuntimeBootstrapEnrollmentOutcome)
  | workspace (workspace : Option RuntimeWorkspace)
  | renewal (receipt : Option RuntimeCredentialRenewalReceipt)
  | wakeRevision (revision : Option Nat)
  | summary (outcome : RuntimeSummaryWriteOutcome)
  | done (changed : Bool)
  deriving DecidableEq

def unexpired (expiresAtMs : Option Int) (nowMs : Int) : Bool :=
  expiresAtMs.any (nowMs < ·)

namespace CloudWorkspaceRecord

variable (workspace : CloudWorkspaceRecord)

def runtimeOperationPending : Bool :=
  workspace.requestConfig.runtimeReleaseChangeRequested ||
    workspace.requestConfig.runtimeActivation.any fun operation =>
      operation.phase = .preparing || operation.phase = .launching ||
        operation.phase = .confirming || operation.phase = .rollingBack

def preserveRuntimeOperationDeadline (proposedAtMs : Int) : Int :=
  if workspace.runtimeOperationPending then min workspace.nextActionAtMs proposedAtMs
  else proposedAtMs

def launchPending : Bool :=
  workspace.requestConfig.sessionHeadVersion.isNone ||
    workspace.requestConfig.runtimeSessionRecoveryPending

/-- Whether the workspace is archived or deleted, or on its way there. -/
def retired : Bool :=
  workspace.state = .deleted || workspace.state = .deleting || workspace.state = .archived ||
    workspace.state = .archiving || workspace.desiredState = .deleted ||
    workspace.desiredState = .archived

def serves (runtime : MailboxRuntime) : Bool :=
  workspace.accountId = runtime.accountId &&
    workspace.requestConfig.cloudMailboxWakePending && workspace.state = .ready &&
    workspace.desiredState = .ready && workspace.runtimeState = .online &&
    workspace.cloudWorkspaceRuntimeGeneration = runtime.runtimeGeneration

end CloudWorkspaceRecord

namespace RuntimeWorkspace

variable (workspace : RuntimeWorkspace)

def completedLaunchStatus : String :=
  if workspace.members.cloudCommandEnrollmentProtocolVersion.isSome then "ready"
  else "agent-running"

def completeLaunchWorkspace (input : CompleteLaunchIntentInput) : RuntimeWorkspace :=
  let record := workspace.record
  let timings := workspace.members.startupTimings
  let agentStarts := workspace.completedLaunchStatus ≠ "ready"
  { record :=
      { record with
        runtimeState := .online
        state := .ready
        statusCode := workspace.completedLaunchStatus
        requestConfig :=
          { record.requestConfig with
            runtimeSessionRecoveryPending := false
            sessionHeadVersion :=
              some (max (record.requestConfig.sessionHeadVersion.getD 0) input.sessionHeadVersion) }
        nextActionAtMs := record.preserveRuntimeOperationDeadline
          (if record.requestConfig.cloudMailboxWakePending then
            min record.nextActionAtMs input.nowMs
          else input.nextActionAtMs)
        runningSinceMs := some (record.runningSinceMs.getD input.nowMs)
        revision := record.revision + 1
        updatedAtMs := input.nowMs
        lastActivityAtMs := input.nowMs }
    members :=
      { workspace.members with
        launchErrorCode := none
        startupFailureDiagnostic := none
        startupTimings :=
          { timings with
            connectedAt := some (timings.connectedAt.getD input.nowMs)
            repositoryReadyAt := some (timings.repositoryReadyAt.getD input.nowMs)
            agentStartedAt :=
              if agentStarts then some (timings.agentStartedAt.getD input.nowMs)
              else timings.agentStartedAt
            messageAcceptedAt :=
              if agentStarts then some (timings.messageAcceptedAt.getD input.nowMs)
              else timings.messageAcceptedAt
            launchDurationMs :=
              match timings.requestedAt with
              | some requestedAt =>
                some (timings.launchDurationMs.getD (input.nowMs - requestedAt))
              | none => timings.launchDurationMs } } }

def canRecoverMissingLaunchIntent (input : CompleteLaunchIntentInput) : Bool :=
  input.commandId = "launch:" ++ workspace.record.workspaceId &&
    (workspace.record.statusCode = "agent-starting" ||
      workspace.record.requestConfig.sessionHeadVersion.isSome)

end RuntimeWorkspace

def canAcknowledgeRuntimeBoot (workspace : CloudWorkspaceRecord)
    (receipt : RuntimeBootstrapReceipt) (input : RuntimeBootstrapAcknowledgementInput) :
    Bool :=
  workspace.runtimeCredentialHash = some input.currentCredentialHash &&
    receipt.generation = input.generation && receipt.gatewayEpoch = input.gatewayEpoch &&
    workspace.cloudWorkspaceRuntimeGeneration = input.generation &&
    workspace.cloudWorkspaceGatewayEpoch = input.gatewayEpoch && !workspace.retired

inductive RenewalDecision where
  | reject
  | replay
  | renew

def runtimeCredentialRenewalDecision (workspace : Option RuntimeWorkspace)
    (input : RuntimeCredentialRenewalInput)
    (prior : Option RuntimeCredentialRenewalReceipt) : RenewalDecision :=
  match workspace with
  | none => .reject
  | some ⟨record, _⟩ =>
    if record.retired ∨ record.cloudWorkspaceRuntimeGeneration ≠ input.generation ∨
        record.cloudWorkspaceGatewayEpoch ≠ input.gatewayEpoch then
      .reject
    else
      let proofVerified :=
        record.requestConfig.runtimeSigningKeyThumbprint.any fun signingKey =>
          signingKey ≠ "" && input.verifiedSigningKeyThumbprint = some signingKey
      if input.verifiedSigningKeyThumbprint.isSome ∧ proofVerified = false then .reject
      else
        match prior.filter fun receipt => receipt.requestId = input.requestId with
        | some receipt =>
          if receipt.previousCredentialHash ≠ input.currentCredentialHash ∨
              some receipt.credentialHash ≠ record.runtimeCredentialHash ∨
              receipt.generation ≠ input.generation ∨
              receipt.gatewayEpoch ≠ input.gatewayEpoch then
            .reject
          else if input.nowMs < receipt.expiresAtMs then .replay
          else if proofVerified then .renew
          else .reject
        | none =>
          if record.runtimeCredentialHash ≠ some input.currentCredentialHash then .reject
          else if unexpired record.requestConfig.runtimeCredentialExpiresAtMs
              input.nowMs || proofVerified then
            .renew
          else .reject

def RuntimeBootstrapEnrollmentInput.receipt (input : RuntimeBootstrapEnrollmentInput) :
    RuntimeBootstrapReceipt where
  bootTokenHash := input.bootTokenHash
  credentialKeyThumbprint := input.credentialKeyThumbprint
  signingKeyThumbprint := input.signingKeyThumbprint
  signingPublicJwk := input.signingPublicJwk
  runtimeCredentialHash := input.runtimeCredentialHash
  runtimeCredentialExpiresAtMs := input.runtimeCredentialExpiresAtMs
  generation := input.generation
  gatewayEpoch := input.gatewayEpoch
  sealedTranscriptKey := input.sealedTranscriptKey
  capabilities := input.capabilities
  enrolledAtMs := input.nowMs

def RuntimeCredentialRenewalInput.receipt (input : RuntimeCredentialRenewalInput) :
    RuntimeCredentialRenewalReceipt where
  requestId := input.requestId
  credentialHash := input.nextCredentialHash
  previousCredentialHash := input.currentCredentialHash
  expiresAtMs := input.expiresAtMs
  generation := input.generation
  gatewayEpoch := input.gatewayEpoch

end Zuse.Workspaces
