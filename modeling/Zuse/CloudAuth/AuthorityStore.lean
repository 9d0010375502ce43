import Mathlib.Data.List.Basic

namespace Zuse.CloudAuth

/-! The record of an account's login authority, and what the stores do with it. -/

inductive CloudAuthProvider where
  | claude
  | codex
  | cursor
  | grok
  deriving DecidableEq

inductive CloudAuthMethod where
  | subscription
  | apiKey
  | custom
  deriving DecidableEq

inductive CloudAuthProviderState where
  | disconnected
  | authorizing
  | connected
  | expired
  | error
  | missingTool
  | unsupportedForSandbox
  deriving DecidableEq

structure CloudAuthProviderStatus where
  providerId : CloudAuthProvider
  state : CloudAuthProviderState
  method : Option CloudAuthMethod := none
  verifiedAt : Option Int := none
  errorCode : Option String := none
  deriving DecidableEq

inductive CloudAuthAuthorityState where
  | notCreated
  | provisioning
  | ready
  | paused
  | error
  deriving DecidableEq

structure CloudAuthStatus where
  authorityState : CloudAuthAuthorityState
  providers : List CloudAuthProviderStatus
  encryptionKeyId : Option String := none
  encryptionPublicJwk : Option String := none
  updatedAt : Option Int := none
  deriving DecidableEq

inductive AuthorityRecordState where
  | provisioning
  | ready
  | error
  deriving DecidableEq

structure CloudAuthAuthorityRecord where
  status : Option CloudAuthStatus := none
  accountId : String
  provider : String
  providerSandboxId : Option String := none
  storageIncarnationId : String
  authEpoch : Nat
  toolchainVersion : String
  state : AuthorityRecordState
  provisioningLeaseOwner : Option String := none
  provisioningLeaseExpiresAtMs : Option Int := none
  revision : Nat
  createdAtMs : Int
  updatedAtMs : Int
  deriving DecidableEq

structure CloudAuthAuthorityClaim where
  record : CloudAuthAuthorityRecord
  acquired : Bool

structure ClaimInput where
  accountId : String
  provider : String
  candidateStorageIncarnationId : String
  toolchainVersion : String
  leaseOwner : String
  nowMs : Int
  leaseExpiresAtMs : Int
  replaceReady : Bool := false

structure CompletionInput where
  providerSandboxId : String
  storageIncarnationId : String
  toolchainVersion : String
  leaseOwner : String
  nowMs : Int

inductive AuthorityStore where
  | memory
  | postgres
  deriving DecidableEq

def CloudAuthAuthorityRecord.leasedToAnother (existing : CloudAuthAuthorityRecord)
    (input : ClaimInput) : Bool :=
  existing.provisioningLeaseExpiresAtMs.any (input.nowMs < ·) &&
    existing.provisioningLeaseOwner ≠ some input.leaseOwner

def ClaimInput.firstRecord (input : ClaimInput) : CloudAuthAuthorityRecord where
  accountId := input.accountId
  provider := input.provider
  storageIncarnationId := input.candidateStorageIncarnationId
  authEpoch := 1
  toolchainVersion := input.toolchainVersion
  state := .provisioning
  provisioningLeaseOwner := some input.leaseOwner
  provisioningLeaseExpiresAtMs := some input.leaseExpiresAtMs
  revision := 0
  createdAtMs := input.nowMs
  updatedAtMs := input.nowMs

abbrev AuthorityRow := Option CloudAuthAuthorityRecord

namespace AuthorityRow

def saveCloudAuthStatus (row : AuthorityRow) (expectedRevision : Nat)
    (status : CloudAuthStatus) : AuthorityRow :=
  row.map fun existing =>
    if existing.revision = expectedRevision then
      { existing with status := some status, revision := existing.revision + 1 }
    else existing

def claimInMemory (row : AuthorityRow) (input : ClaimInput) :
    CloudAuthAuthorityClaim × AuthorityRow :=
  match row with
  | none => (⟨input.firstRecord, true⟩, some input.firstRecord)
  | some existing =>
    if (existing.state = .ready ∧ input.replaceReady = false) ∨ existing.leasedToAnother input then
      (⟨existing, false⟩, row)
    else
      let replacingReady := existing.state = .ready && input.replaceReady
      let record : CloudAuthAuthorityRecord :=
        { accountId := input.accountId
          provider := input.provider
          storageIncarnationId :=
            if replacingReady then input.candidateStorageIncarnationId
            else existing.storageIncarnationId
          authEpoch := if replacingReady then existing.authEpoch + 1 else existing.authEpoch
          toolchainVersion := input.toolchainVersion
          state := .provisioning
          provisioningLeaseOwner := some input.leaseOwner
          provisioningLeaseExpiresAtMs := some input.leaseExpiresAtMs
          revision := existing.revision + 1
          createdAtMs := existing.createdAtMs
          updatedAtMs := input.nowMs }
      (⟨record, true⟩, some record)

def claimedPg (existing : CloudAuthAuthorityRecord) (input : ClaimInput) :
    CloudAuthAuthorityRecord :=
  { existing with
    provider := input.provider
    status := none
    providerSandboxId := if input.replaceReady then none else existing.providerSandboxId
    storageIncarnationId :=
      if input.replaceReady then input.candidateStorageIncarnationId
      else existing.storageIncarnationId
    authEpoch := if input.replaceReady then existing.authEpoch + 1 else existing.authEpoch
    toolchainVersion := input.toolchainVersion
    state := .provisioning
    provisioningLeaseOwner := some input.leaseOwner
    provisioningLeaseExpiresAtMs := some input.leaseExpiresAtMs
    revision := existing.revision + 1
    updatedAtMs := input.nowMs }

def claimPg (row : AuthorityRow) (input : ClaimInput) : CloudAuthAuthorityClaim × AuthorityRow :=
  let record :=
    match row with
    | none => input.firstRecord
    | some existing =>
      if (input.replaceReady = true ∨ existing.state ≠ .ready) ∧
          existing.leasedToAnother input = false then
        claimedPg existing input
      else existing
  (⟨record, record.state = .provisioning &&
    record.provisioningLeaseOwner = some input.leaseOwner⟩, some record)

def claimCloudAuthAuthority (store : AuthorityStore) (row : AuthorityRow)
    (input : ClaimInput) : CloudAuthAuthorityClaim × AuthorityRow :=
  match store with
  | .memory => row.claimInMemory input
  | .postgres => row.claimPg input

def completed (existing : CloudAuthAuthorityRecord) (input : CompletionInput) :
    CloudAuthAuthorityRecord :=
  { existing with
    providerSandboxId := some input.providerSandboxId
    storageIncarnationId := input.storageIncarnationId
    toolchainVersion := input.toolchainVersion
    state := .ready
    provisioningLeaseOwner := none
    provisioningLeaseExpiresAtMs := none
    revision := existing.revision + 1
    updatedAtMs := input.nowMs }

/-- Whether a store takes a completion; the one in memory takes any of a ready record. -/
def accepts (store : AuthorityStore) (existing : CloudAuthAuthorityRecord)
    (input : CompletionInput) : Bool :=
  match store with
  | .memory =>
    !(existing.state ≠ .ready && existing.provisioningLeaseOwner ≠ some input.leaseOwner)
  | .postgres =>
    existing.provisioningLeaseOwner = some input.leaseOwner ||
      (existing.state = .ready && existing.providerSandboxId = some input.providerSandboxId)

def completeCloudAuthAuthorityProvisioning (store : AuthorityStore) (row : AuthorityRow)
    (input : CompletionInput) : Option CloudAuthAuthorityRecord × AuthorityRow :=
  match row with
  | none => (none, none)
  | some existing =>
    if accepts store existing input then
      (some (completed existing input), some (completed existing input))
    else (none, row)

def advanceCloudAuthEpoch (row : AuthorityRow) (providerSandboxId : String) (nowMs : Int) :
    Option CloudAuthAuthorityRecord × AuthorityRow :=
  match row with
  | none => (none, none)
  | some existing =>
    if existing.state = .ready ∧ existing.providerSandboxId = some providerSandboxId then
      let record :=
        { existing with
          authEpoch := existing.authEpoch + 1
          revision := existing.revision + 1
          updatedAtMs := nowMs }
      (some record, some record)
    else (none, row)

end AuthorityRow

end Zuse.CloudAuth
