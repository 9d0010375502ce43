import Zuse.Workspaces.WorkspaceArchive
import Zuse.Workspaces.WorkspaceFailures

namespace Zuse.Workspaces

open Data (TransitionSystem)

/-- What the services answer to the calls of a pass. -/
structure ArchivePass where
  nowMs : Int
  failedAtMs : Int := 0
  newId : String := ""
  kill : ProviderResult Unit := .ok ()
  pause : ProviderResult Unit := .ok ()
  resume : ProviderResult Unit := .ok ()
  inspect : ProviderResult (Option SandboxState) := .ok none
  failed : ProviderResult Bool := .ok false
  readTextFile : ProviderResult String := .ok ""
  writeTextFile : ProviderResult Unit := .ok ()
  replaceProcess : ProviderResult Unit := .ok ()
  manifest : String → ApiResult (Option WorkspaceArchiveManifest)
  chunk : String → String → ApiResult (Option String)
  project : Bool := true
  build : Option CloudProjectBuildRecord := none
  transcriptKey : ApiResult Unit := some ()

/-- The row, and how many operations passes have started. -/
structure ArchiveRow where
  row : CloudWorkspaceRecord
  operations : Nat := 0

namespace ArchivePass

variable (pass : ArchivePass)

/-- Each save succeeds: the passes hold the lease one after the other. -/
def answer : (request : WorkspaceCall) → ArchiveRow → request.Reply × ArchiveRow
  | .kill _, state => (pass.kill, state)
  | .pause _, state => (pass.pause, state)
  | .resume _, state => (pass.resume, state)
  | .inspect _, state => (pass.inspect, state)
  | .pathExists .., state => (pass.failed, state)
  | .readTextFile .., state => (pass.readTextFile, state)
  | .writeTextFile .., state => (pass.writeTextFile, state)
  | .replaceProcess .., state => (pass.replaceProcess, state)
  | .getManifest _ operationId, state => (pass.manifest operationId, state)
  | .getChunk _ operationId digest, state => (pass.chunk operationId digest, state)
  | .getProject _, state => (pass.project, state)
  | .getActiveAccountBuild .., state => (pass.build, state)
  | .openTranscriptKey _, state => (pass.transcriptKey, state)
  | .randomUUID, state => (pass.newId, { state with operations := state.operations + 1 })
  | .saveClaimedWorkspace workspace, state => (true, { state with row := workspace })

section Calls

variable (state : ArchiveRow)

theorem runs_provided {α : Type} (request : WorkspaceCall) (reply : ProviderResult α)
    (next : request.Reply → ProviderResult α)
    (answered : next (pass.answer request state).1 = reply)
    (kept : (pass.answer request state).2 = state) :
    Pass.runAlone pass.answer
        (Pass.ask request >>= fun result => Pass.provided (next result)) state =
      (reply.mapError .sandbox, state) := by
  rw [Pass.runAlone_bind, Pass.runAlone_ask]
  dsimp only
  rw [answered, kept, Pass.runAlone_provided]

@[simp] theorem runs_pause (sandboxId : String) :
    Pass.runAlone pass.answer (Pass.pause sandboxId) state =
      (pass.pause.mapError .sandbox, state) :=
  pass.runs_provided state (.pause sandboxId) pass.pause id rfl rfl

@[simp] theorem runs_resume (sandboxId : String) :
    Pass.runAlone pass.answer (Pass.resume sandboxId) state =
      (pass.resume.mapError .sandbox, state) :=
  pass.runs_provided state (.resume sandboxId) pass.resume id rfl rfl

@[simp] theorem runs_pathExists (sandboxId path : String) :
    Pass.runAlone pass.answer (Pass.pathExists sandboxId path) state =
      (pass.failed.mapError .sandbox, state) :=
  pass.runs_provided state (.pathExists sandboxId path) pass.failed id rfl rfl

@[simp] theorem runs_writeTextFile (sandboxId path : String) :
    Pass.runAlone pass.answer (Pass.writeTextFile sandboxId path) state =
      (pass.writeTextFile.mapError .sandbox, state) :=
  pass.runs_provided state (.writeTextFile sandboxId path) pass.writeTextFile id rfl rfl

@[simp] theorem runs_replaceProcess (sandboxId : String) (process : ArchiveProcess) :
    Pass.runAlone pass.answer (Pass.replaceProcess sandboxId process) state =
      (pass.replaceProcess.mapError .sandbox, state) :=
  pass.runs_provided state (.replaceProcess sandboxId process) pass.replaceProcess id rfl
    rfl

end Calls

end ArchivePass

section Passes

variable (sha256Hex : String → String) (provider : SandboxProvider) (api : ApiConfiguration)

def ArchivePass.reconciled (pass : ArchivePass) (state : ArchiveRow) : ArchiveRow :=
  match Pass.runAlone pass.answer
      (Pass.reconcileWorkspaceArchive sha256Hex provider api state.row pass.nowMs) state with
  | (.ok _, after) => after
  | (.error error, after) =>
    { after with row := (after.row.afterFailure pass.failedAtMs error).getD after.row }

def archivePasses (row : CloudWorkspaceRecord) : TransitionSystem ArchiveRow ArchivePass where
  init := { row }
  step := fun state pass => some (pass.reconciled sha256Hex provider api state)

end Passes

end Zuse.Workspaces
