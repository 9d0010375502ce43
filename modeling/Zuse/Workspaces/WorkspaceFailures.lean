import Zuse.Workspaces.WorkspaceCalls
import Zuse.Workspaces.WorkspaceLifecycle

namespace Zuse.Workspaces

def retryMs : Int := 5000

namespace CloudWorkspaceRecord

variable (workspace : CloudWorkspaceRecord) (failedAtMs : Int)

/-- The row without its sandbox and the authority of the runtime in it. -/
def withoutSandbox : CloudWorkspaceRecord :=
  { workspace with
    providerSandboxId := none
    runtimeBootTokenHash := none
    runtimeBootTokenExpiresAtMs := none
    runtimeCredentialHash := none
    runtimeState := .offline }

/-- A pass that destroys or archives fails without another change of the row's states. -/
def destructiveFailure (lifecycle : CloudMailboxLifecycleAction)
    (code : SandboxProviderError) : CloudWorkspaceRecord :=
  { (if code = .notFound then workspace.withoutSandbox else workspace) with
    statusCode :=
      (if lifecycle = .delete then "delete" else "archive") ++
        (if code = .rejected then "-rejected" else "-retrying")
    nextActionAtMs :=
      if code = .rejected then maxSafeInteger
      else if code = .notFound then failedAtMs else failedAtMs + retryMs
    revision := workspace.revision + 1
    updatedAtMs := failedAtMs }

def cloudWorkspaceHasRetainedRuntimeData : Bool :=
  workspace.requestConfig.sessionHeadVersion.isSome ||
    workspace.requestConfig.runtimeSessionRecoveryPending ||
    workspace.statusCode = "agent-starting" || workspace.statusCode = "agent-running"

def providerUnavailable : CloudWorkspaceRecord :=
  { workspace with
    state := .failed
    statusCode := "provider-unavailable"
    runtimeState := .offline
    nextActionAtMs := maxSafeInteger
    revision := workspace.revision + 1
    updatedAtMs := failedAtMs }

def sandboxFailure (code : SandboxProviderError) : CloudWorkspaceRecord :=
  match workspace.destructiveMailboxLifecycle, code with
  | some lifecycle, code => workspace.destructiveFailure failedAtMs lifecycle code
  | none, .notFound =>
    if workspace.cloudWorkspaceHasRetainedRuntimeData then
      { workspace.withoutSandbox with
        state := .failed
        desiredState := .ready
        statusCode := "runtime-storage-replaced"
        requestConfig :=
          { workspace.requestConfig with runtimeSessionRecoveryPending := true }
        nextActionAtMs := maxSafeInteger
        revision := workspace.revision + 1
        updatedAtMs := failedAtMs }
    else
      { workspace.withoutSandbox with
        state := .queued
        desiredState := .ready
        statusCode := "provider-sandbox-replacing"
        nextActionAtMs := failedAtMs
        revision := workspace.revision + 1
        updatedAtMs := failedAtMs }
  | none, .transient =>
    { workspace with
      nextActionAtMs := failedAtMs + retryMs
      revision := workspace.revision + 1
      updatedAtMs := failedAtMs }
  | none, .rejected => workspace.providerUnavailable failedAtMs

def apiFailure (unavailable : Bool) : CloudWorkspaceRecord :=
  if unavailable then workspace.providerUnavailable failedAtMs
  else
    { workspace with
      statusCode := "provider-connection-unavailable"
      nextActionAtMs := failedAtMs + retryMs
      revision := workspace.revision + 1
      updatedAtMs := failedAtMs }

/-- The row that is saved after a failure; a lost lease saves nothing. -/
def afterFailure : ReconcileError → Option CloudWorkspaceRecord
  | .sandbox code => some (workspace.sandboxFailure failedAtMs code)
  | .api unavailable => some (workspace.apiFailure failedAtMs unavailable)
  | .providerSelection => some (workspace.providerUnavailable failedAtMs)
  | .leaseLost => none

end CloudWorkspaceRecord

end Zuse.Workspaces
