import Zuse.Workspaces.ArchivePasses

namespace Zuse.Workspaces

open Data (TransitionSystem)

namespace CloudWorkspaceRecord

variable (workspace : CloudWorkspaceRecord)

def currentArchive : Option WorkspaceArchive :=
  workspace.workspaceArchive.filter fun archive =>
    archive.phase = .retiring || archive.phase = .retired ||
      ((archive.phase = .uploading || archive.phase = .verifying) &&
        some archive.archivedAtMs = workspace.archiveRequestedAtMs)

/-- The place of the current operation in its phases; none has started at 0. -/
def archiveStage : Nat :=
  match workspace.currentArchive with
  | none => 0
  | some archive =>
    match archive.phase with
    | .uploading => 1
    | .verifying => 2
    | .retiring => 3
    | _ => 4

/-- How many passes that do their part are left: one starts the operation, one wakes the
sandbox, one finds the manifest, each eight chunks take one, and one retires the source. -/
def archiveRank : Nat :=
  match workspace.currentArchive with
  | none => 1028
  | some archive =>
    match archive.phase with
    | .uploading => if workspace.runningSinceMs.isSome then 1026 else 1027
    | .verifying =>
      1 + archive.manifest.elim 0 fun manifest =>
        (manifest.chunks.length - archive.verifiedChunks + 7) / 8
    | .retiring => 1
    | _ => 0

/-- What no pass over an archived workspace changes. -/
structure SameWorkspace (before after : CloudWorkspaceRecord) : Prop where
  workspaceId : after.workspaceId = before.workspaceId
  state : after.state = before.state
  desiredState : after.desiredState = before.desiredState
  archiveRequestedAtMs : after.archiveRequestedAtMs = before.archiveRequestedAtMs
  archiveDeleteAtMs : after.archiveDeleteAtMs = before.archiveDeleteAtMs
  wrappedTranscriptKey : after.wrappedTranscriptKey = before.wrappedTranscriptKey
  snapshotRevision : after.requestConfig.snapshotRevision = before.requestConfig.snapshotRevision
  providerAuthMode : after.requestConfig.providerAuthMode = before.requestConfig.providerAuthMode
  codexAuthMode : after.requestConfig.codexAuthMode = before.requestConfig.codexAuthMode

end CloudWorkspaceRecord

section Backable

variable (provider : SandboxProvider) (api : ApiConfiguration)

/-- An archived workspace that can be backed up, with the time of its request; an operation
under way is one of its sandbox. -/
structure CloudWorkspaceRecord.Backable (workspace : CloudWorkspaceRecord) : Prop where
  state : workspace.state = .archived
  desiredState : workspace.desiredState = .archived
  requested : workspace.archiveRequestedAtMs.isSome
  supported : workspace.archiveStage < 3 →
    Pass.supportsBackup provider api workspace = true ∧ workspace.providerSandboxId.isSome
  restoring : ∀ archive, workspace.workspaceArchive = some archive → archive.phase ≠ .restoring
  source : ∀ archive, workspace.currentArchive = some archive → archive.phase ≠ .retired →
    workspace.providerSandboxId = some archive.sourceSandboxId
  uploading : ∀ archive, workspace.currentArchive = some archive →
    archive.phase = .uploading → archive.verifiedChunks = 0
  verifying : ∀ archive, workspace.currentArchive = some archive →
    archive.phase = .verifying →
      ∃ manifest, archive.manifest = some manifest ∧ archive.verifiedChunks < manifest.chunks.length
  retiring : ∀ archive, workspace.currentArchive = some archive →
    archive.phase = .retiring →
      ∃ manifest, archive.manifest = some manifest ∧ archive.verifiedChunks = manifest.chunks.length

end Backable

/-- A pass after the end of the retention and before that of the operation, in which no
helper has left the receipt of a failure and the sandbox is there. -/
structure ArchivePass.Timely (workspace : CloudWorkspaceRecord) (pass : ArchivePass) :
    Prop where
  expired : workspace.archivedWorkspaceExpiry.any (· ≤ pass.nowMs) = true
  before : ∀ archive, workspace.currentArchive = some archive →
    archive.phase = .uploading ∨ archive.phase = .verifying → pass.nowMs < archive.expiresAtMs
  receipt : pass.failed ≠ .ok true
  pause : pass.pause ≠ .error .notFound
  resume : pass.resume ≠ .error .notFound
  failed : pass.failed ≠ .error .notFound
  writeTextFile : pass.writeTextFile ≠ .error .notFound
  replaceProcess : pass.replaceProcess ≠ .error .notFound

/-- Whether a pass is timely can be computed. -/
instance ArchivePass.decidableTimely (workspace : CloudWorkspaceRecord)
    (pass : ArchivePass) : Decidable (pass.Timely workspace) :=
  decidable_of_iff
    (workspace.archivedWorkspaceExpiry.any (· ≤ pass.nowMs) = true ∧
      (∀ archive ∈ workspace.currentArchive,
        archive.phase = .uploading ∨ archive.phase = .verifying →
          pass.nowMs < archive.expiresAtMs) ∧
      pass.failed ≠ .ok true ∧ pass.pause ≠ .error .notFound ∧
      pass.resume ≠ .error .notFound ∧ pass.failed ≠ .error .notFound ∧
      pass.writeTextFile ≠ .error .notFound ∧ pass.replaceProcess ≠ .error .notFound)
    ⟨fun ⟨expired, before, receipt, pause, resume, failed, wrote, replaced⟩ =>
      ⟨expired, before, receipt, pause, resume, failed, wrote, replaced⟩,
    fun timely => ⟨timely.expired, timely.before, timely.receipt, timely.pause,
      timely.resume, timely.failed, timely.writeTextFile, timely.replaceProcess⟩⟩

/-- A pass in which the provider works, the helper has uploaded a manifest of the
workspace, and the chunks of the operation are read back. -/
structure ArchivePass.Effective (sha256Hex : String → String)
    (workspace : CloudWorkspaceRecord) (pass : ArchivePass) : Prop where
  resume : pass.resume = .ok ()
  failed : pass.failed = .ok false
  kill : pass.kill = .ok () ∨ pass.kill = .error .notFound
  manifest : ∀ archive, workspace.currentArchive = some archive →
    ∃ manifest, pass.manifest archive.id = some (some manifest) ∧
      manifest.workspaceId = workspace.workspaceId ∧ manifest.operationId = archive.id ∧
      manifest.chatId = workspace.chatId ∧ manifest.sessionId = workspace.initialSessionId
  chunks : ∀ archive manifest, workspace.currentArchive = some archive →
    archive.manifest = some manifest → ∀ digest ∈ manifest.chunks,
      ∃ object, pass.chunk archive.id digest = some (some object) ∧ sha256Hex object = digest

structure Advances (before after : ArchiveRow) : Prop where
  stage : after.row.archiveStage = before.row.archiveStage ∨
    after.row.archiveStage = before.row.archiveStage + 1
  chunks : ∀ archive, before.row.currentArchive = some archive →
    ∃ next, after.row.currentArchive = some next ∧ next.id = archive.id ∧
      archive.verifiedChunks ≤ next.verifiedChunks
  operations : after.operations = before.operations ∨
    before.row.archiveStage = 0 ∧ after.row.archiveStage = 1 ∧
      after.operations = before.operations + 1

end Zuse.Workspaces
