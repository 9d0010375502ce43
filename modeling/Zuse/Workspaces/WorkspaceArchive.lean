import Zuse.Workspaces.WorkspaceCalls

namespace Zuse.Workspaces

def archivedWorkspaceRetentionMs : Int := 10 * 24 * 60 * 60 * 1000

def archiveRetryMs : Int := 5000

def operationTtlMs : Int := 60 * 60000

namespace CloudWorkspaceRecord

variable (workspace : CloudWorkspaceRecord)

/-- When an archived workspace expires; an older row may have only its deadline. -/
def archivedWorkspaceExpiry : Option Int :=
  match workspace.archiveRequestedAtMs with
  | none => workspace.archiveDeleteAtMs
  | some requested =>
    some (min (requested + archivedWorkspaceRetentionMs)
      (workspace.archiveDeleteAtMs.getD maxSafeInteger))

def workspaceArchive : Option WorkspaceArchive := workspace.requestConfig.recoveryArchive

def snapshotLayout : Bool :=
  workspace.requestConfig.snapshotRevision.isSome ||
    workspace.requestConfig.providerAuthMode = some "snapshot-native"

def withArchive (workspace changed : CloudWorkspaceRecord) (nowMs : Int)
    (operation : Option WorkspaceArchive) : CloudWorkspaceRecord :=
  { changed with
    requestConfig := { changed.requestConfig with recoveryArchive := operation }
    revision := workspace.revision + 1
    updatedAtMs := nowMs }

end CloudWorkspaceRecord

namespace Pass

/-- The stored manifest of an operation, if it is one of this workspace. -/
def readWorkspaceArchiveManifest (workspace : CloudWorkspaceRecord)
    (archive : WorkspaceArchive) : Pass (Option WorkspaceArchiveManifest) := do
  match ← answered (← ask (.getManifest workspace.workspaceId archive.id)) with
  | none => pure none
  | some manifest =>
    if manifest.workspaceId ≠ workspace.workspaceId ∨
        manifest.operationId ≠ archive.id ∨ manifest.chatId ≠ workspace.chatId ∨
        manifest.sessionId ≠ workspace.initialSessionId then
      throw (.api false)
    else pure (some manifest)

def archiveScript : String := "/var/lib/zuse/project-build/workspace-archive.sh"

def restoredReceipt (archive : WorkspaceArchive) : String :=
  "/home/zuse/.zuse-recovery/" ++ archive.id ++ "/restored"

def failedReceipt (archive : WorkspaceArchive) : String :=
  "/home/zuse/.zuse-recovery/" ++ archive.id ++ "/failed-" ++ toString archive.expiresAtMs

/-- The archive helper takes the place of the process of a sandbox. -/
def launchWorkspaceArchive (workspace : CloudWorkspaceRecord) (archive : WorkspaceArchive)
    (sandboxId : String) : Pass Bool := do
  let project ← ask (.getProject workspace.projectId)
  match project, workspace.wrappedTranscriptKey with
  | true, some envelope =>
    answered (← ask (.openTranscriptKey envelope))
    writeTextFile sandboxId archiveScript
    replaceProcess sandboxId
      { restore := archive.phase = .restoring
        operationId := archive.id
        expiresAtMs := archive.expiresAtMs
        runtimeGeneration := workspace.requestConfig.runtimeGeneration }
    pure true
  | _, _ => pure false

section Lifecycle

variable (sha256Hex : String → String) (provider : SandboxProvider) (api : ApiConfiguration)
  (workspace : CloudWorkspaceRecord) (nowMs : Int)

def update (changed : CloudWorkspaceRecord) (operation : Option WorkspaceArchive) : Pass Unit :=
  save (workspace.withArchive changed nowMs operation)

variable (archive : WorkspaceArchive)

/-- The committed barrier is completed even if an unarchive was requested. -/
def retireSource : Pass Bool := do
  if archive.manifest.all (fun manifest =>
      archive.verifiedChunks ≠ manifest.chunks.length) ∨
      some archive.sourceSandboxId ≠ workspace.providerSandboxId then
    update workspace nowMs
      { workspace with
        statusCode := "archive-backup-incomplete"
        nextActionAtMs := nowMs + operationTtlMs } (some archive)
    pure true
  else
    match ← ask (.kill archive.sourceSandboxId) with
    | .error .transient => throw (.sandbox .transient)
    | .error .rejected => throw (.sandbox .rejected)
    | _ =>
      update workspace nowMs
        { workspace with
          providerSandboxId := none
          runtimeState := .offline
          runningSinceMs := none
          runtimeBootTokenHash := none
          runtimeBootTokenExpiresAtMs := none
          runtimeCredentialHash := none
          statusCode := "archived-without-machine"
          nextActionAtMs := if workspace.desiredState = .ready then nowMs else maxSafeInteger }
        (some { archive with phase := .retired })
      pure true

def restorable (build : CloudProjectBuildRecord) : Bool :=
  !build.customSnapshot && build.snapshotId.isSome &&
    build.providerAuthDeliveryVersion = some 1 && build.codexAuthDeliveryVersion = some 1 &&
    build.templateVersion = provider.templateVersion

def queueRestore : Pass Bool := do
  let build ← ask (.getActiveAccountBuild workspace.accountId workspace.provider)
  match build.filter (restorable provider) with
  | none =>
    update workspace nowMs
      { workspace with
        state := .failed
        statusCode := "archive-restore-image-required"
        nextActionAtMs := maxSafeInteger } (some archive)
    pure true
  | some build =>
    update workspace nowMs
      { workspace with
        state := .queued
        statusCode := "archive-restore-queued"
        buildId := build.buildId
        nextActionAtMs := nowMs
        requestConfig :=
          { workspace.requestConfig with
            runtimeActivation := none
            allocationAttempted := some false
            runtimeSessionRecoveryPending := true } }
      (some { archive with phase := .restoring, expiresAtMs := nowMs + operationTtlMs })
    pure true

def restartsRestore (statusCode : String) : Bool :=
  ["resume-queued", "resume-runtime-recovery-queued", "restart-queued"].contains statusCode

variable (sandboxId : String)

/-- Whether a restore has failed: it has expired, or left a receipt. -/
def restoreFailed : Pass Bool := do
  if archive.expiresAtMs ≤ nowMs then pure true
  else pathExists sandboxId (failedReceipt archive)

def continueRestore : Pass Bool := do
  if restartsRestore workspace.statusCode then
    update workspace nowMs
      { workspace with
        statusCode := "archive-restoring"
        nextActionAtMs := nowMs
        requestConfig :=
          { workspace.requestConfig.withFence workspace.nextCloudWorkspaceRuntimeFence with
            runtimeActivation := none } }
      (some { archive with expiresAtMs := nowMs + operationTtlMs })
    pure true
  else if workspace.desiredState ≠ .ready then
    pause sandboxId
    update workspace nowMs
      { workspace with
        state := if workspace.desiredState = .archived then .archived else .paused
        runtimeState := .offline
        runningSinceMs := none
        nextActionAtMs := maxSafeInteger } (some archive)
    pure true
  else
    match ← inspect sandboxId with
    | none =>
      update workspace nowMs
        { workspace with
          providerSandboxId := none
          state := .queued
          statusCode := "archive-restore-queued"
          runningSinceMs := none
          nextActionAtMs := nowMs } (some archive)
      pure true
    | some sandbox =>
      if sandbox = .paused then resume sandboxId
      if ← pathExists sandboxId (restoredReceipt archive) then
        let value ← readTextFile sandboxId (restoredReceipt archive)
        if value ≠ archive.id then pure true
        else
          update workspace nowMs
            { workspace with
              state := .resuming
              statusCode := "archive-restored"
              nextActionAtMs := nowMs
              requestConfig :=
                { workspace.requestConfig with
                  runtimeActivation := none
                  runtimeSessionRecoveryPending := true } }
            (some { archive with phase := .restored })
          pure true
      else if ← restoreFailed nowMs archive sandboxId then
        pause sandboxId
        update workspace nowMs
          { workspace with
            state := .failed
            statusCode := "archive-restore-failed"
            runningSinceMs := none
            nextActionAtMs := maxSafeInteger } (some archive)
        pure true
      else
        let _ ← launchWorkspaceArchive workspace archive sandboxId
        update workspace nowMs
          { workspace with
            nextActionAtMs := nowMs + archiveRetryMs
            runningSinceMs := some (workspace.runningSinceMs.getD nowMs) } (some archive)
        pure true

def cancelBackup : Pass Bool := do
  if workspace.desiredState = .paused then
    if let some sandboxId := workspace.providerSandboxId then pause sandboxId
    update workspace nowMs
      { workspace with
        state := .paused
        statusCode := "paused"
        runtimeState := .offline
        runningSinceMs := none
        nextActionAtMs := maxSafeInteger
        requestConfig :=
          { workspace.requestConfig with
            runtimeActivation := none
            runtimeSessionRecoveryPending := true } }
      (some { archive with phase := .restored })
    pure true
  else
    update workspace nowMs
      { workspace with
        state := .resuming
        statusCode := "resume-queued"
        nextActionAtMs := nowMs
        requestConfig :=
          { workspace.requestConfig with
            runtimeActivation := none
            runtimeSessionRecoveryPending := true } }
      (some { archive with phase := .restored })
    pure true

def supportsBackup : Bool :=
  api.cloudWorkspaceRecoveryEnabled &&
    api.cloudWorkspaceRecoveryWorkspaceIds.all (·.contains workspace.workspaceId) &&
    !workspace.snapshotLayout && workspace.wrappedTranscriptKey.isSome &&
    provider.supportsFencedProcessReplacement &&
    workspace.requestConfig.providerAuthMode = some "broker-v1" &&
    workspace.requestConfig.codexAuthMode = some "broker-v1"

/-- A new operation: its upload begins, and the runtime loses its credentials. -/
def startBackup : Pass Bool := do
  let id ← ask .randomUUID
  update workspace nowMs
    { workspace with
      runtimeState := .offline
      runtimeCredentialHash := none
      runtimeBootTokenHash := none
      statusCode := "archive-backing-up"
      nextActionAtMs := nowMs
      requestConfig :=
        { workspace.requestConfig.withFence workspace.nextCloudWorkspaceRuntimeFence with
          runtimeActivation := none
          runtimeSessionRecoveryPending := true } }
    (some
      { id
        sourceSandboxId := sandboxId
        archivedAtMs := workspace.archiveRequestedAtMs.getD nowMs
        expiresAtMs := nowMs + operationTtlMs
        phase := .uploading
        verifiedChunks := 0 })
  pure true

/-- Whether a backup has failed: it has expired, or its upload left a receipt. -/
def backupFailed : Pass Bool := do
  if archive.expiresAtMs ≤ nowMs then pure true
  else if archive.phase = .uploading then pathExists sandboxId (failedReceipt archive)
  else pure false

/-- Whether each of some chunks is stored with its digest; the first that is not ends it. -/
def readChunks (archive : WorkspaceArchive) : List String → Pass Bool
  | [] => pure true
  | digest :: rest => do
      match ← answered (← ask (.getChunk workspace.workspaceId archive.id digest)) with
      | none => pure false
      | some object =>
        if sha256Hex object ≠ digest then pure false else readChunks archive rest

def upload : Pass Bool := do
  match ← readWorkspaceArchiveManifest workspace archive with
  | some manifest =>
    update workspace nowMs
      { workspace with statusCode := "archive-verifying", nextActionAtMs := nowMs }
      (some { archive with phase := .verifying, manifest := some manifest })
    pure true
  | none =>
    let _ ← launchWorkspaceArchive workspace archive sandboxId
    update workspace nowMs
      { workspace with
        nextActionAtMs := nowMs + archiveRetryMs
        runningSinceMs := some (workspace.runningSinceMs.getD nowMs) } (some archive)
    pure true

def verify (manifest : WorkspaceArchiveManifest) (sandboxId : String) : Pass Bool := do
  let stop := min (archive.verifiedChunks + 8) manifest.chunks.length
  let read ← readChunks sha256Hex workspace archive
    ((manifest.chunks.take stop).drop archive.verifiedChunks)
  if read then
    update workspace nowMs
      { workspace with statusCode := "archive-verifying", nextActionAtMs := nowMs }
      (some
        { archive with
          verifiedChunks := stop
          phase := if stop = manifest.chunks.length then .retiring else .verifying })
    pure true
  else
    pause sandboxId
    update workspace nowMs
      { workspace with
        statusCode := "archive-backup-incomplete"
        runningSinceMs := none
        nextActionAtMs := nowMs + operationTtlMs } (some archive)
    pure true

def continueBackup : Pass Bool := do
  if archive.phase = .uploading ∧ workspace.runningSinceMs = none ∧ nowMs < archive.expiresAtMs then
    resume sandboxId
    update workspace nowMs
      { workspace with
        statusCode := "archive-backing-up"
        runningSinceMs := some nowMs
        nextActionAtMs := nowMs } (some archive)
    pure true
  else if ← backupFailed nowMs archive sandboxId then
    pause sandboxId
    update workspace nowMs
      { workspace with
        statusCode := "archive-backup-failed"
        runningSinceMs := none
        nextActionAtMs := maxSafeInteger } (some archive)
    pure true
  else
    match archive.phase, archive.manifest with
    | .uploading, _ => upload workspace nowMs archive sandboxId
    | .verifying, some manifest => verify sha256Hex workspace nowMs archive manifest sandboxId
    | _, _ => pure true

def backUp : Pass Bool := do
  match workspace.providerSandboxId, workspace.workspaceArchive with
  | some sandboxId, some archive =>
    if supportsBackup provider api workspace = false then
      update workspace nowMs
        { workspace with
          statusCode := "archive-backup-required"
          nextActionAtMs := nowMs + operationTtlMs } (some archive)
      pure true
    else if archive.phase = .restored ∨
        some archive.archivedAtMs ≠ workspace.archiveRequestedAtMs then
      startBackup workspace nowMs sandboxId
    else continueBackup sha256Hex workspace nowMs archive sandboxId
  | some sandboxId, none =>
    if supportsBackup provider api workspace = false then
      update workspace nowMs
        { workspace with
          statusCode := "archive-backup-required"
          nextActionAtMs := nowMs + operationTtlMs } none
      pure true
    else startBackup workspace nowMs sandboxId
  | none, archive =>
    update workspace nowMs
      { workspace with
        statusCode := "archive-backup-required"
        nextActionAtMs := nowMs + operationTtlMs } archive
    pure true

def expired : Bool :=
  workspace.state = .archived && workspace.desiredState = .archived &&
    workspace.archivedWorkspaceExpiry.any (· ≤ nowMs)

def reconcileWorkspaceArchive : Pass Bool := do
  if workspace.desiredState = .deleted then pure false
  else
    match workspace.workspaceArchive with
    | none =>
      if expired workspace nowMs then backUp sha256Hex provider api workspace nowMs
      else pure false
    | some archive =>
      match archive.phase, workspace.providerSandboxId with
      | .retiring, _ => retireSource workspace nowMs archive
      | .retired, _ =>
        if workspace.desiredState = .ready then
          queueRestore provider workspace nowMs archive
        else pure (expired workspace nowMs)
      | .restoring, some sandboxId => continueRestore workspace nowMs archive sandboxId
      | .restoring, none => pure false
      | .restored, _ =>
        if expired workspace nowMs then backUp sha256Hex provider api workspace nowMs
        else pure false
      | _, _ =>
        if workspace.desiredState ≠ .archived then cancelBackup workspace nowMs archive
        else if expired workspace nowMs then
          backUp sha256Hex provider api workspace nowMs
        else pure false

end Lifecycle

end Pass

end Zuse.Workspaces
