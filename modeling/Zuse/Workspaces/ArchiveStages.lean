import Zuse.Workspaces.ArchiveProgress

namespace Zuse.Workspaces

open Pass CloudWorkspaceRecord

open ArchivePass (runs_resume runs_pathExists)
open ArchivePass (answer reconciled)

/-- A row after a pass that goes on with the operation of the row before it. -/
structure Stores (before after : CloudWorkspaceRecord) (archive : WorkspaceArchive) : Prop
    extends SameWorkspace before after where
  stored : after.workspaceArchive = some archive
  sandbox : archive.phase ≠ .retired → after.providerSandboxId = before.providerSandboxId

variable {workspace : CloudWorkspaceRecord} {archive : WorkspaceArchive}

theorem destructiveFailure_stores (stored : workspace.workspaceArchive = some archive)
    (failedAtMs : Int) (lifecycle : CloudMailboxLifecycleAction) {code : SandboxProviderError}
    (present : code ≠ .notFound) :
    Stores workspace (workspace.destructiveFailure failedAtMs lifecycle code) archive ∧
      (workspace.destructiveFailure failedAtMs lifecycle code).runningSinceMs =
        workspace.runningSinceMs := by
  unfold destructiveFailure
  rw [if_neg present]
  refine ⟨⟨⟨rfl, rfl, rfl, rfl, rfl, rfl, rfl, rfl, rfl⟩, stored, fun _ => rfl⟩, rfl⟩

def ReconcileError.Present : ReconcileError → Prop
  | .sandbox code => code ≠ .notFound
  | .api unavailable => unavailable = false
  | .providerSelection => False
  | .leaseLost => True

variable {error : ReconcileError}

theorem afterFailure_stores (stored : workspace.workspaceArchive = some archive)
    (archived : workspace.state = .archived) (failedAtMs : Int) (present : error.Present) :
    Stores workspace ((workspace.afterFailure failedAtMs error).getD workspace) archive ∧
      ((workspace.afterFailure failedAtMs error).getD workspace).runningSinceMs =
        workspace.runningSinceMs := by
  have destructive : ∃ lifecycle, workspace.destructiveMailboxLifecycle = some lifecycle := by
    unfold destructiveMailboxLifecycle
    split
    · exact ⟨_, rfl⟩
    · rw [if_pos (.inl archived)]
      exact ⟨_, rfl⟩
  obtain ⟨lifecycle, found⟩ := destructive
  cases error with
  | sandbox code =>
    simp only [afterFailure, Option.getD_some, sandboxFailure, found]
    exact destructiveFailure_stores stored failedAtMs lifecycle present
  | api unavailable =>
    cases present
    refine ⟨⟨⟨rfl, rfl, rfl, rfl, rfl, rfl, rfl, rfl, rfl⟩, stored, fun _ => rfl⟩, rfl⟩
  | providerSelection => exact absurd present id
  | leaseLost =>
    exact ⟨⟨⟨rfl, rfl, rfl, rfl, rfl, rfl, rfl, rfl, rfl⟩, stored, fun _ => rfl⟩, rfl⟩

section Stages

variable {sha256Hex : String → String} {provider : SandboxProvider} {api : ApiConfiguration}
  {pass : ArchivePass} {row : CloudWorkspaceRecord} {operations : Nat}
  {archive : WorkspaceArchive}

theorem currentArchive_some (current : row.currentArchive = some archive) :
    row.workspaceArchive = some archive ∧
      (archive.phase = .retiring ∨ archive.phase = .retired ∨
        (archive.phase = .uploading ∨ archive.phase = .verifying) ∧
          some archive.archivedAtMs = row.archiveRequestedAtMs) := by
  obtain ⟨stored, meets⟩ := Option.filter_eq_some_iff.mp current
  refine ⟨stored, ?_⟩
  simpa [or_assoc] using meets

theorem currentArchive_of_stored (stored : row.workspaceArchive = some archive)
    (goesOn : archive.phase = .retiring ∨ archive.phase = .retired ∨
      (archive.phase = .uploading ∨ archive.phase = .verifying) ∧
        some archive.archivedAtMs = row.archiveRequestedAtMs) :
    row.currentArchive = some archive := by
  unfold currentArchive
  rw [stored]
  simpa [or_assoc] using goesOn

section

variable (backable : row.Backable provider api) (timely : pass.Timely row)
include backable timely

theorem expired_of_backable : Pass.expired row pass.nowMs = true := by
  simp only [expired, backable.state, backable.desiredState, timely.expired, decide_true,
    Bool.and_self]

variable (sha256Hex) in
theorem reconcile_due (none_current : row.currentArchive = none) :
    ∃ sandboxId, row.providerSandboxId = some sandboxId ∧
      reconcileWorkspaceArchive sha256Hex provider api row pass.nowMs =
        Pass.startBackup row pass.nowMs sandboxId := by
  have expired := expired_of_backable backable timely
  have stage : row.archiveStage < 3 := by
    simp [archiveStage, none_current]
  obtain ⟨supported, held⟩ := backable.supported stage
  obtain ⟨sandboxId, sandbox⟩ := Option.isSome_iff_exists.mp held
  unfold reconcileWorkspaceArchive
  rw [if_neg (by simp [backable.desiredState])]
  cases stored : row.workspaceArchive with
  | none => simp [expired, backUp, sandbox, stored, supported]
  | some archive =>
    have other := Option.filter_eq_none_iff.mp none_current archive stored
    have restoring := backable.restoring archive stored
    cases phase : archive.phase with
    | uploading | verifying =>
      simp_all [backUp, backable.desiredState]
    | retiring | retired => simp_all
    | restoring => exact absurd phase restoring
    | restored => simp_all [backUp]

variable (sha256Hex) in
theorem reconcile_continues (current : row.currentArchive = some archive)
    (phase : archive.phase = .uploading ∨ archive.phase = .verifying) :
    reconcileWorkspaceArchive sha256Hex provider api row pass.nowMs =
      Pass.continueBackup sha256Hex row pass.nowMs archive archive.sourceSandboxId := by
  have expired := expired_of_backable backable timely
  obtain ⟨stored, goesOn⟩ := currentArchive_some current
  have stage : row.archiveStage < 3 := by
    rcases phase with uploading | verifying
    · simp [archiveStage, current, uploading]
    · simp [archiveStage, current, verifying]
  have supported := (backable.supported stage).1
  have mine : some archive.archivedAtMs = row.archiveRequestedAtMs := by
    rcases phase with uploading | verifying
    · simpa [uploading] using goesOn
    · simpa [verifying] using goesOn
  have sandbox := backable.source archive current (by
    rcases phase with uploading | verifying
    · simp [uploading]
    · simp [verifying])
  unfold reconcileWorkspaceArchive
  rcases phase with uploading | verifying
  · simp [uploading, backable.desiredState, expired, backUp, sandbox, stored, supported, mine]
  · simp [verifying, backable.desiredState, expired, backUp, sandbox, stored, supported, mine]

end

def Reads {α : Type} (pass : ArchivePass) (part : Pass α) (state : ArchiveRow) : Prop :=
  ∃ result, runAlone pass.answer part state = (result, state) ∧
    ∀ error, result = .error error → error.Present

variable (pass row archive) in
theorem manifest_reads (state : ArchiveRow) :
    Reads pass (Pass.readWorkspaceArchiveManifest row archive) state := by
  unfold Reads readWorkspaceArchiveManifest
  rw [runAlone_bind, runAlone_ask]
  dsimp only [answer]
  rw [runAlone_bind, runAlone_answered]
  cases pass.manifest archive.id with
  | none => exact ⟨_, rfl, by rintro error ⟨⟩; rfl⟩
  | some found =>
    cases found with
    | none => exact ⟨_, rfl, by rintro error ⟨⟩⟩
    | some manifest =>
      dsimp only [Option.elim_some]
      split
      · exact ⟨_, rfl, by rintro error ⟨⟩; rfl⟩
      · exact ⟨_, rfl, by rintro error ⟨⟩⟩

variable (archive) in
theorem launch_reads (timely : pass.Timely row) (sandboxId : String) (state : ArchiveRow) :
    Reads pass (Pass.launchWorkspaceArchive row archive sandboxId) state := by
  unfold Reads launchWorkspaceArchive
  rw [runAlone_bind, runAlone_ask]
  dsimp only
  split
  · rw [runAlone_bind, runAlone_ask]
    dsimp only [answer]
    rw [runAlone_bind, runAlone_answered]
    cases pass.transcriptKey with
    | none => exact ⟨_, rfl, by rintro error ⟨⟩; rfl⟩
    | some opened =>
      dsimp only [Option.elim_some]
      rw [runAlone_bind, ArchivePass.runs_writeTextFile]
      cases wrote : pass.writeTextFile with
      | error code =>
        refine ⟨_, rfl, ?_⟩
        rintro error ⟨⟩ rfl
        exact timely.writeTextFile wrote
      | ok _ =>
        dsimp only [Except.mapError]
        rw [runAlone_bind, ArchivePass.runs_replaceProcess]
        cases replaced : pass.replaceProcess with
        | error code =>
          refine ⟨_, rfl, ?_⟩
          rintro error ⟨⟩ rfl
          exact timely.replaceProcess replaced
        | ok _ => exact ⟨_, rfl, by rintro error ⟨⟩⟩
  · exact ⟨_, rfl, by rintro error ⟨⟩⟩

variable (sha256Hex pass row archive) in
theorem chunks_read (digests : List String) (state : ArchiveRow) :
    Reads pass (readChunks sha256Hex row archive digests) state := by
  unfold Reads
  induction digests with
  | nil => exact ⟨_, rfl, by rintro error ⟨⟩⟩
  | cons digest rest ih =>
    unfold readChunks
    rw [runAlone_bind, runAlone_ask]
    dsimp only [answer]
    rw [runAlone_bind, runAlone_answered]
    cases pass.chunk archive.id digest with
    | none => exact ⟨_, rfl, by rintro error ⟨⟩; rfl⟩
    | some found =>
      cases found with
      | none => exact ⟨_, rfl, by rintro error ⟨⟩⟩
      | some object =>
        dsimp only [Option.elim_some]
        split
        · exact ⟨_, rfl, by rintro error ⟨⟩⟩
        · exact ih

theorem manifest_read {state : ArchiveRow} (effective : pass.Effective sha256Hex row)
    (current : row.currentArchive = some archive) :
    ∃ manifest,
      runAlone pass.answer (Pass.readWorkspaceArchiveManifest row archive) state =
        (.ok (some manifest), state) := by
  obtain ⟨manifest, found, workspaceId, operationId, chatId, sessionId⟩ :=
    effective.manifest archive current
  refine ⟨manifest, ?_⟩
  unfold readWorkspaceArchiveManifest
  rw [runAlone_bind, runAlone_ask]
  dsimp only [answer]
  rw [runAlone_bind, runAlone_answered, found]
  dsimp only [Option.elim_some]
  rw [if_neg (by simp [workspaceId, operationId, chatId, sessionId])]
  rfl

variable (sha256Hex pass row archive) in
theorem chunks_read_all (digests : List String) (state : ArchiveRow)
    (all : ∀ digest ∈ digests,
      ∃ object, pass.chunk archive.id digest = some (some object) ∧ sha256Hex object = digest) :
    runAlone pass.answer (readChunks sha256Hex row archive digests) state = (.ok true, state) := by
  induction digests with
  | nil => rfl
  | cons digest rest ih =>
    obtain ⟨object, found, hashed⟩ := all digest List.mem_cons_self
    unfold readChunks
    rw [runAlone_bind, runAlone_ask]
    dsimp only [answer]
    rw [runAlone_bind, runAlone_answered, found]
    dsimp only [Option.elim_some]
    rw [if_neg (not_not_intro hashed)]
    exact ih (fun other member => all other (List.mem_cons_of_mem digest member))

theorem reconciled_of_ok {after : ArchiveRow} {finished : Bool}
    (ran : runAlone pass.answer (reconcileWorkspaceArchive sha256Hex provider api row pass.nowMs)
      ⟨row, operations⟩ = (.ok finished, after)) :
    pass.reconciled sha256Hex provider api ⟨row, operations⟩ = after := by
  unfold reconciled
  rw [ran]

variable (operations) in
theorem runs_of_goesOn {part : Pass Bool}
    (goesOn : reconcileWorkspaceArchive sha256Hex provider api row pass.nowMs = part) :
    runAlone pass.answer (reconcileWorkspaceArchive sha256Hex provider api row pass.nowMs)
      ⟨row, operations⟩ = runAlone pass.answer part ⟨row, operations⟩ :=
  congrArg (fun part => runAlone pass.answer part ⟨row, operations⟩) goesOn

section

variable (backable : row.Backable provider api)
include backable

theorem reconciled_of_error (current : row.currentArchive = some archive) (present : error.Present)
    (ran : runAlone pass.answer (reconcileWorkspaceArchive sha256Hex provider api row pass.nowMs)
      ⟨row, operations⟩ = (.error error, ⟨row, operations⟩)) :
    ∃ next, pass.reconciled sha256Hex provider api ⟨row, operations⟩ = ⟨next, operations⟩ ∧
      Stores row next archive ∧ next.runningSinceMs = row.runningSinceMs := by
  refine ⟨(row.afterFailure pass.failedAtMs error).getD row, ?_,
    afterFailure_stores (currentArchive_some current).1 backable.state pass.failedAtMs present⟩
  unfold reconciled
  rw [ran]

variable (sha256Hex operations) in
theorem due_starts (timely : pass.Timely row) (none_current : row.currentArchive = none) :
    ∃ next started,
      pass.reconciled sha256Hex provider api ⟨row, operations⟩ = ⟨next, operations + 1⟩ ∧
        Stores row next started ∧ started.phase = .uploading ∧ started.verifiedChunks = 0 ∧
        some started.archivedAtMs = row.archiveRequestedAtMs ∧
        row.providerSandboxId = some started.sourceSandboxId := by
  obtain ⟨sandboxId, sandbox, due⟩ :=
    reconcile_due sha256Hex backable timely none_current
  obtain ⟨requestedAtMs, requested⟩ := Option.isSome_iff_exists.mp backable.requested
  have saved := reconciled_of_ok (runs_of_goesOn operations due)
  refine ⟨_, _, saved,
    ⟨⟨rfl, rfl, rfl, rfl, rfl, rfl, rfl, rfl, rfl⟩, rfl, fun _ => rfl⟩, rfl, rfl, ?_, sandbox⟩
  simp [requested]

section

variable (timely : pass.Timely row) (current : row.currentArchive = some archive)
include timely current

variable (sha256Hex operations) in
theorem asleep_goes_on (uploading : archive.phase = .uploading)
    (asleep : row.runningSinceMs = none) :
    ∃ next,
      pass.reconciled sha256Hex provider api ⟨row, operations⟩ = ⟨next, operations⟩ ∧
        Stores row next archive ∧
        (pass.Effective sha256Hex row → next.runningSinceMs.isSome) := by
  have goesOn := reconcile_continues sha256Hex backable timely current (.inl uploading)
  have before := timely.before archive current (.inl uploading)
  unfold continueBackup at goesOn
  rw [if_pos ⟨uploading, asleep, before⟩] at goesOn
  have ran := runs_of_goesOn operations goesOn
  rw [runAlone_bind, runs_resume] at ran
  cases resumed : pass.resume with
  | error code =>
    rw [resumed] at ran
    have present : (ReconcileError.sandbox code).Present := by
      rintro rfl
      exact timely.resume resumed
    obtain ⟨next, saved, stores, _⟩ := reconciled_of_error backable current present ran
    refine ⟨next, saved, stores, ?_⟩
    intro effective
    exact absurd (resumed.symm.trans effective.resume) (by simp)
  | ok _ =>
    rw [resumed] at ran
    have saved := reconciled_of_ok ran
    exact ⟨_, saved,
      ⟨⟨rfl, rfl, rfl, rfl, rfl, rfl, rfl, rfl, rfl⟩, rfl, fun _ => rfl⟩, fun _ => rfl⟩

variable (sha256Hex operations) in
theorem awake_goes_on (uploading : archive.phase = .uploading) (awake : row.runningSinceMs.isSome) :
    ∃ next now,
      pass.reconciled sha256Hex provider api ⟨row, operations⟩ = ⟨next, operations⟩ ∧
        Stores row next now ∧
        ((now = archive ∧ next.runningSinceMs.isSome ∧ ¬ pass.Effective sha256Hex row) ∨
          ∃ manifest, now = { archive with phase := .verifying, manifest := some manifest }) := by
  have goesOn := reconcile_continues sha256Hex backable timely current (.inl uploading)
  have before := timely.before archive current (.inl uploading)
  obtain ⟨since, running⟩ := Option.isSome_iff_exists.mp awake
  unfold continueBackup backupFailed at goesOn
  rw [if_neg (by simp [running]), if_neg (not_le.mpr before), if_pos uploading] at goesOn
  have uploads := runs_of_goesOn operations goesOn
  rw [runAlone_bind, runs_pathExists] at uploads
  cases failed : pass.failed with
  | error code =>
    rw [failed] at uploads
    have present : (ReconcileError.sandbox code).Present := by
      rintro rfl
      exact timely.failed failed
    obtain ⟨next, saved, stores, kept⟩ := reconciled_of_error backable current present uploads
    refine ⟨next, archive, saved, stores, .inl ⟨rfl, kept ▸ awake, ?_⟩⟩
    intro effective
    exact absurd (failed.symm.trans effective.failed) (by simp)
  | ok receipt =>
    cases receipt with
    | true => exact absurd failed timely.receipt
    | false =>
      rw [failed] at uploads
      dsimp only [Except.mapError] at uploads
      rw [if_neg (by simp), uploading] at uploads
      obtain ⟨result, read, presents⟩ := manifest_reads pass row archive ⟨row, operations⟩
      have found : pass.Effective sha256Hex row → ∃ manifest, result = .ok (some manifest) := by
        intro effective
        obtain ⟨manifest, found⟩ := manifest_read effective current
        exact ⟨manifest, congrArg Prod.fst (read.symm.trans found)⟩
      unfold upload at uploads
      rw [runAlone_bind, read] at uploads
      cases result with
      | error error =>
        obtain ⟨next, saved, stores, kept⟩ :=
          reconciled_of_error backable current (presents error rfl) uploads
        exact ⟨next, archive, saved, stores, .inl ⟨rfl, kept ▸ awake, fun effective => by
          cases (found effective).choose_spec⟩⟩
      | ok fetched =>
        cases fetched with
        | some manifest =>
          have saved := reconciled_of_ok uploads
          exact ⟨_, _, saved,
            ⟨⟨rfl, rfl, rfl, rfl, rfl, rfl, rfl, rfl, rfl⟩, rfl, fun _ => rfl⟩,
            .inr ⟨manifest, rfl⟩⟩
        | none =>
          have ineffective : ¬ pass.Effective sha256Hex row := by
            intro effective
            cases (found effective).choose_spec
          dsimp only at uploads
          obtain ⟨launched, launches, launchPresents⟩ := launch_reads
            archive timely archive.sourceSandboxId ⟨row, operations⟩
          rw [runAlone_bind, launches] at uploads
          cases launched with
          | error error =>
            obtain ⟨next, saved, stores, kept⟩ :=
              reconciled_of_error backable current (launchPresents error rfl) uploads
            exact ⟨next, archive, saved, stores, .inl ⟨rfl, kept ▸ awake, ineffective⟩⟩
          | ok _ =>
            have saved := reconciled_of_ok uploads
            exact ⟨_, archive, saved,
              ⟨⟨rfl, rfl, rfl, rfl, rfl, rfl, rfl, rfl, rfl⟩, rfl, fun _ => rfl⟩,
              .inl ⟨rfl, rfl, ineffective⟩⟩

def WorkspaceArchive.verifiedFurther (archive : WorkspaceArchive)
    (manifest : WorkspaceArchiveManifest) : WorkspaceArchive :=
  { archive with
    verifiedChunks := min (archive.verifiedChunks + 8) manifest.chunks.length
    phase :=
      if min (archive.verifiedChunks + 8) manifest.chunks.length = manifest.chunks.length
      then .retiring else .verifying }

variable (sha256Hex operations) in
theorem verifying_goes_on {manifest : WorkspaceArchiveManifest}
    (verifying : archive.phase = .verifying) (known : archive.manifest = some manifest) :
    ∃ next now,
      pass.reconciled sha256Hex provider api ⟨row, operations⟩ = ⟨next, operations⟩ ∧
        Stores row next now ∧
        (now = archive ∧ ¬ pass.Effective sha256Hex row ∨
          now = archive.verifiedFurther manifest) := by
  have goesOn := reconcile_continues sha256Hex backable timely current (.inr verifying)
  have before := timely.before archive current (.inr verifying)
  unfold continueBackup backupFailed at goesOn
  rw [if_neg (not_le.mpr before), verifying, known] at goesOn
  have verifies : _ = runAlone pass.answer
      (verify sha256Hex row pass.nowMs archive manifest archive.sourceSandboxId)
        ⟨row, operations⟩ := runs_of_goesOn operations goesOn
  unfold verify at verifies
  obtain ⟨result, read, presents⟩ := chunks_read sha256Hex pass row archive
    ((manifest.chunks.take (min (archive.verifiedChunks + 8) manifest.chunks.length)).drop
      archive.verifiedChunks) ⟨row, operations⟩
  have whole : pass.Effective sha256Hex row → result = .ok true := by
    intro effective
    have all := chunks_read_all sha256Hex pass row archive
      ((manifest.chunks.take (min (archive.verifiedChunks + 8) manifest.chunks.length)).drop
        archive.verifiedChunks) ⟨row, operations⟩
      (fun digest member => effective.chunks archive manifest current known digest
        (List.mem_of_mem_take (List.mem_of_mem_drop member)))
    exact congrArg Prod.fst (read.symm.trans all)
  rw [runAlone_bind, read] at verifies
  cases result with
  | error error =>
    obtain ⟨next, saved, stores, _⟩ :=
      reconciled_of_error backable current (presents error rfl) verifies
    refine ⟨next, archive, saved, stores, .inl ⟨rfl, ?_⟩⟩
    intro effective
    cases whole effective
  | ok complete =>
    cases complete with
    | true =>
      have saved := reconciled_of_ok verifies
      exact ⟨_, _, saved,
        ⟨⟨rfl, rfl, rfl, rfl, rfl, rfl, rfl, rfl, rfl⟩, rfl, fun _ => rfl⟩, .inr rfl⟩
    | false =>
      have ineffective : ¬ pass.Effective sha256Hex row := by
        intro effective
        cases whole effective
      dsimp only at verifies
      rw [if_neg (by simp), runAlone_bind, ArchivePass.runs_pause] at verifies
      cases paused : pass.pause with
      | error code =>
        have present : (ReconcileError.sandbox code).Present := by
          rintro rfl
          exact timely.pause paused
        rw [paused] at verifies
        obtain ⟨next, saved, stores, _⟩ := reconciled_of_error backable current present verifies
        exact ⟨next, archive, saved, stores, .inl ⟨rfl, ineffective⟩⟩
      | ok _ =>
        rw [paused] at verifies
        have saved := reconciled_of_ok verifies
        exact ⟨_, archive, saved,
          ⟨⟨rfl, rfl, rfl, rfl, rfl, rfl, rfl, rfl, rfl⟩, rfl, fun _ => rfl⟩,
          .inl ⟨rfl, ineffective⟩⟩

end

variable (sha256Hex pass operations) in
theorem retiring_goes_on
    (current : row.currentArchive = some archive) (retiring : archive.phase = .retiring) :
    ∃ next now,
      pass.reconciled sha256Hex provider api ⟨row, operations⟩ = ⟨next, operations⟩ ∧
        Stores row next now ∧
        (now = archive ∧ ¬ pass.Effective sha256Hex row ∨
          now = { archive with phase := .retired }) := by
  have stored := (currentArchive_some current).1
  have sandbox := backable.source archive current (by simp [retiring])
  obtain ⟨manifest, known, verified⟩ := backable.retiring archive current retiring
  have retires : reconcileWorkspaceArchive sha256Hex provider api row pass.nowMs =
      retireSource row pass.nowMs archive := by
    unfold reconcileWorkspaceArchive
    rw [if_neg (by simp [backable.desiredState]), stored]
    dsimp only
    rw [retiring]
  unfold retireSource at retires
  rw [if_neg (by simp [known, verified, sandbox])] at retires
  have killing : runAlone pass.answer (ask (.kill archive.sourceSandboxId))
      ⟨row, operations⟩ = (.ok pass.kill, ⟨row, operations⟩) := rfl
  have ran := runs_of_goesOn operations retires
  rw [runAlone_bind, killing] at ran
  -- The sandbox is gone once it is killed, or was before.
  by_cases gone : pass.kill = .ok () ∨ pass.kill = .error .notFound
  · have after : ∃ next,
        pass.reconciled sha256Hex provider api ⟨row, operations⟩ = ⟨next, operations⟩ ∧
          Stores row next { archive with phase := .retired } := by
      rcases gone with killed | killed
      all_goals
        rw [killed] at ran
        have saved := reconciled_of_ok ran
        exact ⟨_, saved, ⟨rfl, rfl, rfl, rfl, rfl, rfl, rfl, rfl, rfl⟩, rfl,
          fun other => absurd rfl other⟩
    obtain ⟨next, saved, stores⟩ := after
    exact ⟨next, _, saved, stores, .inr rfl⟩
  cases killed : pass.kill with
  | ok _ => exact absurd (.inl killed) gone
  | error code =>
    rw [killed] at ran
    cases code with
    | notFound => exact absurd (.inr killed) gone
    | transient | rejected =>
      obtain ⟨next, saved, stores, _⟩ := reconciled_of_error backable current
        (show (ReconcileError.sandbox _).Present by simp [ReconcileError.Present]) ran
      exact ⟨next, archive, saved, stores, .inl ⟨rfl, fun effective => gone effective.kill⟩⟩

theorem retired_stays
    (current : row.currentArchive = some archive) (retired : archive.phase = .retired) :
    pass.reconciled sha256Hex provider api ⟨row, operations⟩ = ⟨row, operations⟩ := by
  have stored := (currentArchive_some current).1
  have stays : reconcileWorkspaceArchive sha256Hex provider api row pass.nowMs =
      pure (expired row pass.nowMs) := by
    unfold reconcileWorkspaceArchive
    rw [if_neg (by simp [backable.desiredState]), stored]
    dsimp only
    rw [retired, if_neg (by simp [backable.desiredState])]
  exact reconciled_of_ok (by rw [stays]; rfl)

end

end Stages

end Zuse.Workspaces
