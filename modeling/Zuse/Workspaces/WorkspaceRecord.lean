import Mathlib.Algebra.Order.Ring.Int

namespace Zuse.Workspaces

/-- `Number.MAX_SAFE_INTEGER`, the time of an action that is never due. -/
def maxSafeInteger : Int := 9007199254740991

inductive CloudWorkspaceState where
  | queued
  | provisioning
  | setup
  | ready
  | pausing
  | paused
  | resuming
  | archiving
  | archived
  | deleting
  | deleted
  | failed
  deriving DecidableEq

inductive CloudWorkspaceDesiredState where
  | ready
  | paused
  | archived
  | deleted
  deriving DecidableEq

inductive RuntimeState where
  | offline
  | connecting
  | online
  deriving DecidableEq

inductive CloudMailboxLifecycleAction where
  | archive
  | delete
  deriving DecidableEq

structure CloudMailboxLifecycleFence where
  action : CloudMailboxLifecycleAction
  destructionFence : Nat
  deriving DecidableEq

structure WorkspaceArchiveManifest where
  operationId : String
  workspaceId : String
  chatId : String
  sessionId : String
  chunks : List String
  archiveSha256 : String
  minLength : 1 ≤ chunks.length
  maxLength : chunks.length ≤ 8192
  deriving DecidableEq

inductive ArchivePhase where
  | uploading
  | verifying
  | retiring
  | retired
  | restoring
  | restored
  deriving DecidableEq

structure WorkspaceArchive where
  id : String
  sourceSandboxId : String
  archivedAtMs : Int
  expiresAtMs : Int
  phase : ArchivePhase
  verifiedChunks : Nat
  manifest : Option WorkspaceArchiveManifest := none
  deriving DecidableEq

inductive RuntimeActivationMode where
  | restartInstalled
  | changeRelease
  deriving DecidableEq

inductive RuntimeActivationPhase where
  | preparing
  | launching
  | confirming
  | rollingBack
  | confirmed
  | failed
  | verificationNeeded
  deriving DecidableEq

structure RuntimeActivation where
  id : String
  mode : Option RuntimeActivationMode := none
  bootstrap : Option Bool := none
  phase : RuntimeActivationPhase
  startedAtMs : Int
  attempts : Nat
  generation : Option Nat := none
  targetVersion : Option String := none
  sealedBootToken : Option String := none
  lastErrorCode : Option String := none
  deriving DecidableEq

structure RuntimeBootstrapReceipt where
  bootTokenHash : String
  credentialKeyThumbprint : String
  signingKeyThumbprint : String
  signingPublicJwk : String
  runtimeCredentialHash : String
  runtimeCredentialExpiresAtMs : Int
  generation : Nat
  gatewayEpoch : Nat
  sealedTranscriptKey : String
  capabilities : Option (List String) := none
  enrolledAtMs : Int
  acknowledgedAtMs : Option Int := none
  deriving DecidableEq

structure RuntimeCredentialRenewalReceipt where
  requestId : String
  credentialHash : String
  previousCredentialHash : String
  expiresAtMs : Int
  generation : Nat
  gatewayEpoch : Nat
  deriving DecidableEq

/-- The members of the request document that a workspace goes by; absent members and those
of another type are `none`, and flags that are not `true` are `false`. -/
structure RequestConfig where
  sizeId : Option String := none
  snapshotRevision : Option String := none
  providerAuthMode : Option String := none
  codexAuthMode : Option String := none
  destructionFence : Option Nat := none
  cloudMailboxLifecyclePending : Option CloudMailboxLifecycleFence := none
  cloudMailboxLifecycleDelivered : Option CloudMailboxLifecycleFence := none
  cloudMailboxWakePending : Bool := false
  cloudMailboxWakeRequestedAt : Option Int := none
  cloudMailboxWakeRevision : Option Nat := none
  cloudMailboxRuntimeSeenAt : Option Int := none
  cloudMailboxProgressAt : Option Int := none
  cloudMailboxProgressRevision : Option Nat := none
  cloudMailboxFenceRequired : Bool := false
  runtimeGeneration : Option Nat := none
  gatewayEpoch : Option Nat := none
  runtimeActivation : Option RuntimeActivation := none
  runtimeReleaseChangeRequested : Bool := false
  runtimeSessionRecoveryPending : Bool := false
  runtimeBootstrapReceipt : Option RuntimeBootstrapReceipt := none
  runtimeCredentialRenewal : Option RuntimeCredentialRenewalReceipt := none
  runtimeCredentialExpiresAtMs : Option Int := none
  runtimeSigningKeyThumbprint : Option String := none
  recoveryArchive : Option WorkspaceArchive := none
  allocationAttempted : Option Bool := none
  sessionHeadVersion : Option Nat := none
  deriving DecidableEq

structure CloudWorkspaceRecord where
  workspaceId : String
  accountId : String
  projectId : String
  buildId : String
  provider : String
  providerSandboxId : Option String := none
  runtimeBootTokenHash : Option String := none
  runtimeBootTokenExpiresAtMs : Option Int := none
  runtimeCredentialHash : Option String := none
  runtimeState : RuntimeState := .offline
  chatId : String
  initialSessionId : String
  state : CloudWorkspaceState
  desiredState : CloudWorkspaceDesiredState
  statusCode : String
  wrappedTranscriptKey : Option String := none
  archiveRequestedAtMs : Option Int := none
  archiveDeleteAtMs : Option Int := none
  deletionTombstoneExpiresAtMs : Option Int := none
  requestConfig : RequestConfig := {}
  nextActionAtMs : Int
  leaseOwner : Option String := none
  leaseExpiresAtMs : Option Int := none
  revision : Nat
  updatedAtMs : Int
  lastActivityAtMs : Int
  runningSinceMs : Option Int := none
  deletedAtMs : Option Int := none
  deriving DecidableEq

structure RuntimeFence where
  runtimeGeneration : Nat
  gatewayEpoch : Nat

namespace CloudWorkspaceRecord

variable (workspace : CloudWorkspaceRecord)

def cloudWorkspaceRuntimeGeneration : Nat :=
  workspace.requestConfig.runtimeGeneration.getD 1

def cloudWorkspaceGatewayEpoch : Nat :=
  workspace.requestConfig.gatewayEpoch.getD workspace.cloudWorkspaceRuntimeGeneration

def nextCloudWorkspaceRuntimeFence : RuntimeFence where
  runtimeGeneration := workspace.requestConfig.runtimeGeneration.getD 0 + 1
  gatewayEpoch := workspace.requestConfig.gatewayEpoch.getD 0 + 1

end CloudWorkspaceRecord

def RequestConfig.withFence (config : RequestConfig) (fence : RuntimeFence) : RequestConfig :=
  { config with
    runtimeGeneration := some fence.runtimeGeneration
    gatewayEpoch := some fence.gatewayEpoch }

end Zuse.Workspaces
