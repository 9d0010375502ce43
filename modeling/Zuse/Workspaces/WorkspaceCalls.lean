import Zuse.Data.Scripts
import Zuse.Workspaces.WorkspaceRecord

namespace Zuse.Workspaces

open Data (Script)

inductive SandboxProviderError where
  | transient
  | notFound
  | rejected
  deriving DecidableEq

/-- How a pass fails: through its sandbox provider, through an API, because no provider is
selected, or because the row was written since it was read. -/
inductive ReconcileError where
  | sandbox (code : SandboxProviderError)
  | api (unavailable : Bool)
  | providerSelection
  | leaseLost

structure SandboxProvider where
  templateVersion : String
  supportsFencedProcessReplacement : Bool

structure ApiConfiguration where
  cloudWorkspaceRecoveryEnabled : Bool
  cloudWorkspaceRecoveryWorkspaceIds : Option (List String) := none

structure CloudProjectBuildRecord where
  buildId : String
  snapshotId : Option String := none
  customSnapshot : Bool := false
  providerAuthDeliveryVersion : Option Nat := none
  codexAuthDeliveryVersion : Option Nat := none
  templateVersion : String

/-- A process that replaces the one of a sandbox: the archive helper. -/
structure ArchiveProcess where
  restore : Bool
  operationId : String
  expiresAtMs : Int
  runtimeGeneration : Option Nat

inductive SandboxState where
  | running
  | paused
  deriving DecidableEq

abbrev ProviderResult (α : Type) := Except SandboxProviderError α

abbrev ApiResult (α : Type) := Option α

inductive WorkspaceCall where
  | kill (sandboxId : String)
  | pause (sandboxId : String)
  | resume (sandboxId : String)
  | inspect (sandboxId : String)
  | pathExists (sandboxId path : String)
  | readTextFile (sandboxId path : String)
  | writeTextFile (sandboxId path : String)
  | replaceProcess (sandboxId : String) (process : ArchiveProcess)
  | getManifest (workspaceId operationId : String)
  | getChunk (workspaceId operationId digest : String)
  | getProject (projectId : String)
  | getActiveAccountBuild (accountId provider : String)
  | openTranscriptKey (envelope : String)
  | randomUUID
  | saveClaimedWorkspace (workspace : CloudWorkspaceRecord)

abbrev WorkspaceCall.Reply : WorkspaceCall → Type
  | .kill _ => ProviderResult Unit
  | .pause _ => ProviderResult Unit
  | .resume _ => ProviderResult Unit
  | .inspect _ => ProviderResult (Option SandboxState)
  | .pathExists .. => ProviderResult Bool
  | .readTextFile .. => ProviderResult String
  | .writeTextFile .. => ProviderResult Unit
  | .replaceProcess .. => ProviderResult Unit
  | .getManifest .. => ApiResult (Option WorkspaceArchiveManifest)
  | .getChunk .. => ApiResult (Option String)
  | .getProject _ => Bool
  | .getActiveAccountBuild .. => Option CloudProjectBuildRecord
  | .openTranscriptKey _ => ApiResult Unit
  | .randomUUID => String
  | .saveClaimedWorkspace _ => Bool

abbrev WorkspaceScript := Script WorkspaceCall WorkspaceCall.Reply

abbrev Pass := ExceptT ReconcileError WorkspaceScript

namespace Pass

def ask (request : WorkspaceCall) : Pass request.Reply :=
  ExceptT.lift (Script.perform request)

def provided {α : Type} (result : ProviderResult α) : Pass α :=
  match result with
  | .ok value => pure value
  | .error code => throw (.sandbox code)

def answered {α : Type} (result : ApiResult α) : Pass α :=
  match result with
  | some value => pure value
  | none => throw (.api false)

def pause (sandboxId : String) : Pass Unit := do provided (← ask (.pause sandboxId))

def resume (sandboxId : String) : Pass Unit := do provided (← ask (.resume sandboxId))

def inspect (sandboxId : String) : Pass (Option SandboxState) := do
  provided (← ask (.inspect sandboxId))

def pathExists (sandboxId path : String) : Pass Bool := do
  provided (← ask (.pathExists sandboxId path))

def readTextFile (sandboxId path : String) : Pass String := do
  provided (← ask (.readTextFile sandboxId path))

def writeTextFile (sandboxId path : String) : Pass Unit := do
  provided (← ask (.writeTextFile sandboxId path))

def replaceProcess (sandboxId : String) (process : ArchiveProcess) : Pass Unit := do
  provided (← ask (.replaceProcess sandboxId process))

/-- A save fails the pass where another wrote the row or took its lease. -/
def save (workspace : CloudWorkspaceRecord) : Pass Unit := do
  let saved ← ask (.saveClaimedWorkspace workspace)
  if saved then pure () else throw .leaseLost

section Run

variable {σ α β : Type} (answer : (request : WorkspaceCall) → σ → request.Reply × σ)

def runAlone (pass : Pass α) (state : σ) : Except ReconcileError α × σ :=
  Script.run answer pass.run state

@[simp] theorem runAlone_ask (request : WorkspaceCall) (state : σ) :
    runAlone answer (ask request) state =
      (.ok (answer request state).1, (answer request state).2) := rfl

theorem runAlone_bind (pass : Pass α) (next : α → Pass β) (state : σ) :
    runAlone answer (pass >>= next) state =
      match runAlone answer pass state with
      | (.ok value, after) => runAlone answer (next value) after
      | (.error error, after) => (.error error, after) := by
  have ran := Script.run_bind answer pass.run (ExceptT.bindCont next) state
  refine Eq.trans ran ?_
  unfold runAlone
  cases Script.run answer pass.run state with
  | mk result after =>
    cases result with
    | ok value | error error => rfl

@[simp] theorem runAlone_provided (result : ProviderResult α) (state : σ) :
    runAlone answer (provided result) state = (result.mapError .sandbox, state) := by
  cases result with
  | ok value | error code => rfl

@[simp] theorem runAlone_answered (result : ApiResult α) (state : σ) :
    runAlone answer (answered result) state = (result.elim (.error (.api false)) .ok, state) := by
  cases result with
  | some value | none => rfl

end Run

end Pass

end Zuse.Workspaces
