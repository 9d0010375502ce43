import Zuse.Workspaces.ArchiveStages

namespace Zuse.Workspaces

open Nat Option WorkspaceArchive

open Data (TransitionSystem)
open CloudWorkspaceRecord (archiveStage archiveRank)

section Runs

variable {sha256Hex : String → String} {provider : SandboxProvider} {api : ApiConfiguration}
  {pass : ArchivePass} {row next : CloudWorkspaceRecord} {operations : Nat}
  {archive now : WorkspaceArchive}

/-- An operation that a pass over a row goes on with. -/
structure WorkspaceArchive.Coherent (workspace : CloudWorkspaceRecord)
    (archive : WorkspaceArchive) : Prop where
  goesOn : archive.phase = .retiring ∨ archive.phase = .retired ∨
    (archive.phase = .uploading ∨ archive.phase = .verifying) ∧
      some archive.archivedAtMs = workspace.archiveRequestedAtMs
  source : archive.phase ≠ .retired → workspace.providerSandboxId = some archive.sourceSandboxId
  uploading : archive.phase = .uploading → archive.verifiedChunks = 0
  verifying : archive.phase = .verifying → ∃ manifest, archive.manifest = some manifest ∧
    archive.verifiedChunks < manifest.chunks.length
  retiring : archive.phase = .retiring → ∃ manifest, archive.manifest = some manifest ∧
    archive.verifiedChunks = manifest.chunks.length

theorem coherent_of_current (backable : row.Backable provider api)
    (current : row.currentArchive = some archive) : archive.Coherent row where
  goesOn := (currentArchive_some current).2
  source := backable.source archive current
  uploading := backable.uploading archive current
  verifying := backable.verifying archive current
  retiring := backable.retiring archive current

theorem Stores.current (stores : Stores row next now) (coherent : now.Coherent row) :
    next.currentArchive = some now := by
  refine currentArchive_of_stored stores.stored ?_
  rw [stores.archiveRequestedAtMs]
  exact coherent.goesOn

theorem Stores.supportsBackup (stores : Stores row next now) :
    Pass.supportsBackup provider api next = Pass.supportsBackup provider api row := by
  unfold Pass.supportsBackup CloudWorkspaceRecord.snapshotLayout
  rw [stores.workspaceId, stores.wrappedTranscriptKey, stores.snapshotRevision,
    stores.providerAuthMode, stores.codexAuthMode]

theorem Stores.backable (stores : Stores row next now) (backable : row.Backable provider api)
    (coherent : now.Coherent row)
    (early : now.phase = .uploading ∨ now.phase = .verifying → row.archiveStage < 3) :
    next.Backable provider api := by
  have current := stores.current coherent
  have only : ∀ other, next.currentArchive = some other → other = now := by
    intro other found
    exact some.inj (found.symm.trans current)
  constructor
  · rw [stores.state]
    exact backable.state
  · rw [stores.desiredState]
    exact backable.desiredState
  · rw [stores.archiveRequestedAtMs]
    exact backable.requested
  · intro stage
    have unverified : now.phase = .uploading ∨ now.phase = .verifying := by
      unfold archiveStage at stage
      rw [current] at stage
      cases phase : now.phase with
      | uploading => exact .inl rfl
      | verifying => exact .inr rfl
      | retiring | retired | restoring | restored => simp [phase] at stage
    have held := backable.supported (early unverified)
    rw [stores.supportsBackup, stores.sandbox (by
      rcases unverified with uploading | verifying
      · simp [uploading]
      · simp [verifying])]
    exact held
  · intro other found
    have same : other = now := some.inj (found.symm.trans stores.stored)
    rw [same]
    intro restoring
    have goesOn := coherent.goesOn
    simp [restoring] at goesOn
  · intro other found live
    cases only other found
    rw [stores.sandbox live]
    exact coherent.source live
  · intro other found
    cases only other found
    exact coherent.uploading
  · intro other found
    cases only other found
    exact coherent.verifying
  · intro other found
    cases only other found
    exact coherent.retiring

structure Progresses (sha256Hex : String → String) (provider : SandboxProvider)
    (api : ApiConfiguration) (pass : ArchivePass) (before after : ArchiveRow) : Prop where
  backable : after.row.Backable provider api
  advances : Advances before after
  rank : after.row.archiveRank ≤ before.row.archiveRank
  effective : pass.Effective sha256Hex before.row →
    after.row.archiveRank ≤ before.row.archiveRank - 1

variable (operations) in
theorem Stores.stays (stores : Stores row next archive) (backable : row.Backable provider api)
    (current : row.currentArchive = some archive) :
    next.Backable provider api ∧ Advances ⟨row, operations⟩ ⟨next, operations⟩ := by
  have coherent := coherent_of_current backable current
  have kept := stores.current coherent
  refine ⟨stores.backable backable coherent ?_, ⟨.inl ?_, ?_, .inl rfl⟩⟩
  · rintro (uploading | verifying)
    · simp [archiveStage, current, uploading]
    · simp [archiveStage, current, verifying]
  · simp only [archiveStage, kept, current]
  · intro other found
    cases current.symm.trans found
    exact ⟨archive, kept, rfl, le_refl _⟩

section

variable (backable : row.Backable provider api)
include backable

theorem progresses_due (timely : pass.Timely row) (none_current : row.currentArchive = none) :
    Progresses sha256Hex provider api pass ⟨row, operations⟩
      (pass.reconciled sha256Hex provider api ⟨row, operations⟩) := by
  obtain ⟨next, started, saved, stores, uploading, unverified, requested, source⟩ :=
    due_starts sha256Hex operations backable timely none_current
  have coherent : started.Coherent row := by
    constructor
    · exact .inr (.inr ⟨.inl uploading, requested⟩)
    · exact fun _ => source
    · exact fun _ => unverified
    · intro verifying
      exact absurd (uploading.symm.trans verifying) (by simp)
    · intro retiring
      exact absurd (uploading.symm.trans retiring) (by simp)
  have current := stores.current coherent
  have stage : row.archiveStage = 0 := by
    simp [archiveStage, none_current]
  have nextStage : next.archiveStage = 1 := by
    simp [archiveStage, current, uploading]
  have rank : next.archiveRank ≤ row.archiveRank - 1 := by
    simp only [archiveRank, current, none_current, uploading]
    split
    · decide
    · decide
  rw [saved]
  refine ⟨stores.backable backable coherent (fun _ => by omega), ⟨.inr ?_, ?_, .inr ?_⟩, ?_,
    fun _ => rank⟩
  · exact nextStage.trans (congrArg (· + 1) stage.symm)
  · intro other found
    exact absurd (none_current.symm.trans found) (by simp)
  · exact ⟨stage, nextStage, rfl⟩
  · exact le_trans rank (sub_le _ _)

section

variable (timely : pass.Timely row) (current : row.currentArchive = some archive)
include timely current

theorem progresses_asleep (uploading : archive.phase = .uploading)
    (asleep : row.runningSinceMs = none) :
    Progresses sha256Hex provider api pass ⟨row, operations⟩
      (pass.reconciled sha256Hex provider api ⟨row, operations⟩) := by
  obtain ⟨next, saved, stores, wakes⟩ := asleep_goes_on sha256Hex operations backable timely
    current uploading asleep
  have kept := stores.current (coherent_of_current backable current)
  obtain ⟨backableNext, advances⟩ := stores.stays operations backable current
  rw [saved]
  refine ⟨backableNext, advances, ?_, ?_⟩
  · simp only [archiveRank, kept, current, uploading, asleep]
    split
    · decide
    · decide
  · intro effective
    simp [archiveRank, kept, current, uploading, asleep, wakes effective]

theorem progresses_awake (uploading : archive.phase = .uploading)
    (awake : row.runningSinceMs.isSome) :
    Progresses sha256Hex provider api pass ⟨row, operations⟩
      (pass.reconciled sha256Hex provider api ⟨row, operations⟩) := by
  obtain ⟨next, now, saved, stores, ⟨rfl, running, ineffective⟩ | ⟨manifest, rfl⟩⟩ :=
    awake_goes_on sha256Hex operations backable timely current uploading awake
  · have kept := stores.current (coherent_of_current backable current)
    obtain ⟨backableNext, advances⟩ := stores.stays operations backable current
    rw [saved]
    refine ⟨backableNext, advances, ?_, fun effective => absurd effective ineffective⟩
    simp [archiveRank, kept, current, uploading, running, awake]
  have before := coherent_of_current backable current
  have unverified := before.uploading uploading
  have nonempty := manifest.minLength
  have coherent : ({ archive with
      phase := .verifying, manifest := some manifest } : WorkspaceArchive).Coherent row := by
    constructor
    · have goesOn := before.goesOn
      simp only [uploading, reduceCtorEq, true_or, true_and, false_or] at goesOn
      exact .inr (.inr ⟨.inr rfl, goesOn⟩)
    · exact fun _ => before.source (by simp [uploading])
    · intro other
      cases other
    · intro _
      refine ⟨manifest, rfl, ?_⟩
      rw [unverified]
      exact nonempty
    · intro other
      cases other
  have later := stores.current coherent
  have stage : row.archiveStage = 1 := by
    simp [archiveStage, current, uploading]
  have nextStage : next.archiveStage = 2 := by
    simp [archiveStage, later]
  have rank : next.archiveRank ≤ row.archiveRank - 1 := by
    have bounded := manifest.maxLength
    simp only [archiveRank, later, current, uploading, awake, if_true, elim_some]
    omega
  rw [saved]
  refine ⟨stores.backable backable coherent (fun _ => by omega), ⟨.inr ?_, ?_, .inl rfl⟩, ?_,
    fun _ => rank⟩
  · exact nextStage.trans (congrArg (· + 1) stage.symm)
  · intro other found
    cases current.symm.trans found
    exact ⟨_, later, rfl, le_refl _⟩
  · exact le_trans rank (sub_le _ _)

theorem progresses_verifying (verifying : archive.phase = .verifying) :
    Progresses sha256Hex provider api pass ⟨row, operations⟩
      (pass.reconciled sha256Hex provider api ⟨row, operations⟩) := by
  have before := coherent_of_current backable current
  obtain ⟨manifest, known, fewer⟩ := before.verifying verifying
  obtain ⟨next, now, saved, stores, ⟨rfl, ineffective⟩ | rfl⟩ :=
    verifying_goes_on sha256Hex operations backable timely current verifying known
  · have kept := stores.current before
    obtain ⟨backableNext, advances⟩ := stores.stays operations backable current
    rw [saved]
    refine ⟨backableNext, advances, ?_, fun effective => absurd effective ineffective⟩
    simp only [archiveRank, kept, current, verifying, le_refl]
  have mine : some archive.archivedAtMs = row.archiveRequestedAtMs := by
    simpa [verifying] using before.goesOn
  have stage : row.archiveStage = 2 := by
    simp [archiveStage, current, verifying]
  by_cases last : min (archive.verifiedChunks + 8) manifest.chunks.length = manifest.chunks.length
  · have retires : (archive.verifiedFurther manifest).phase = .retiring := if_pos last
    have coherent : (archive.verifiedFurther manifest).Coherent row := by
      constructor
      · exact .inl retires
      · exact fun _ => before.source (by simp [verifying])
      · intro other
        exact absurd (retires.symm.trans other) (by simp)
      · intro other
        exact absurd (retires.symm.trans other) (by simp)
      · exact fun _ => ⟨manifest, known, last⟩
    have later := stores.current coherent
    have nextStage : next.archiveStage = 3 := by
      simp [archiveStage, later, retires]
    have rank : next.archiveRank ≤ row.archiveRank - 1 := by
      simp only [archiveRank, later, current, verifying, retires, known, elim_some]
      omega
    rw [saved]
    refine ⟨stores.backable backable coherent (fun _ => by omega),
      ⟨.inr ?_, ?_, .inl rfl⟩, le_trans rank (sub_le _ _), fun _ => rank⟩
    · exact nextStage.trans (congrArg (· + 1) stage.symm)
    · intro other found
      cases current.symm.trans found
      exact ⟨_, later, rfl, by simp only [verifiedFurther]; omega⟩
  · have verifies : (archive.verifiedFurther manifest).phase = .verifying := if_neg last
    have coherent : (archive.verifiedFurther manifest).Coherent row := by
      constructor
      · exact .inr (.inr ⟨.inr verifies, mine⟩)
      · exact fun _ => before.source (by simp [verifying])
      · intro other
        exact absurd (verifies.symm.trans other) (by simp)
      · intro _
        refine ⟨manifest, known, ?_⟩
        simp only [verifiedFurther]
        omega
      · intro other
        exact absurd (verifies.symm.trans other) (by simp)
    have later := stores.current coherent
    have nextStage : next.archiveStage = 2 := by
      simp [archiveStage, later, verifies]
    have rank : next.archiveRank ≤ row.archiveRank - 1 := by
      have stored : (archive.verifiedFurther manifest).manifest = some manifest := known
      have chunks : (archive.verifiedFurther manifest).verifiedChunks =
          archive.verifiedChunks + 8 := by
        simp only [verifiedFurther]
        omega
      simp only [archiveRank, later, current, verifying, verifies, known,
        stored, chunks, elim_some]
      omega
    rw [saved]
    refine ⟨stores.backable backable coherent (fun _ => by omega),
      ⟨.inl (nextStage.trans stage.symm), ?_, .inl rfl⟩, le_trans rank (sub_le _ _),
      fun _ => rank⟩
    intro other found
    cases current.symm.trans found
    exact ⟨_, later, rfl, by simp only [verifiedFurther]; omega⟩

end

theorem progresses_retiring (current : row.currentArchive = some archive)
    (retiring : archive.phase = .retiring) :
    Progresses sha256Hex provider api pass ⟨row, operations⟩
      (pass.reconciled sha256Hex provider api ⟨row, operations⟩) := by
  have before := coherent_of_current backable current
  obtain ⟨next, now, saved, stores, ⟨rfl, ineffective⟩ | rfl⟩ :=
    retiring_goes_on sha256Hex pass operations backable current retiring
  · have kept := stores.current before
    obtain ⟨backableNext, advances⟩ := stores.stays operations backable current
    rw [saved]
    refine ⟨backableNext, advances, ?_, fun effective => absurd effective ineffective⟩
    simp only [archiveRank, kept, current, retiring, le_refl]
  have coherent : ({ archive with phase := .retired } : WorkspaceArchive).Coherent row := by
    constructor
    · exact .inr (.inl rfl)
    · exact fun other => absurd rfl other
    · intro other
      cases other
    · intro other
      cases other
    · intro other
      cases other
  have later := stores.current coherent
  have stage : row.archiveStage = 3 := by
    simp [archiveStage, current, retiring]
  have nextStage : next.archiveStage = 4 := by
    simp [archiveStage, later]
  have rank : next.archiveRank ≤ row.archiveRank - 1 := by
    simp [archiveRank, later]
  rw [saved]
  refine ⟨stores.backable backable coherent ?_, ⟨.inr ?_, ?_, .inl rfl⟩,
    le_trans rank (sub_le _ _), fun _ => rank⟩
  · rintro (other | other)
    · cases other
    · cases other
  · exact nextStage.trans (congrArg (· + 1) stage.symm)
  · intro other found
    cases current.symm.trans found
    exact ⟨_, later, rfl, le_refl _⟩

end

variable (sha256Hex operations) in
theorem progresses (backable : row.Backable provider api) (timely : pass.Timely row) :
    Progresses sha256Hex provider api pass ⟨row, operations⟩
      (pass.reconciled sha256Hex provider api ⟨row, operations⟩) := by
  cases current : row.currentArchive with
  | none => exact progresses_due backable timely current
  | some archive =>
    cases phase : archive.phase with
    | uploading =>
      cases running : row.runningSinceMs with
      | none => exact progresses_asleep backable timely current phase running
      | some since =>
        exact progresses_awake backable timely current phase (by simp [running])
    | verifying => exact progresses_verifying backable timely current phase
    | retiring => exact progresses_retiring backable current phase
    | retired =>
      rw [retired_stays backable current phase]
      refine ⟨backable, ⟨.inl rfl, ?_, .inl rfl⟩, le_refl _, ?_⟩
      · intro other found
        exact ⟨other, found, rfl, le_refl _⟩
      · simp [archiveRank, current, phase]
    | restoring | restored =>
      have goesOn := (currentArchive_some current).2
      simp [phase] at goesOn

theorem archiveRank_le (row : CloudWorkspaceRecord) : row.archiveRank ≤ 1028 := by
  unfold archiveRank
  cases row.currentArchive with
  | none => exact le_refl _
  | some archive =>
    dsimp only
    cases archive.phase with
    | uploading =>
      dsimp only
      split
      · decide
      · decide
    | verifying =>
      cases archive.manifest with
      | none => simp
      | some manifest =>
        have bounded := manifest.maxLength
        simp only [elim_some]
        omega
    | retiring | retired | restoring | restored => simp

theorem retired_of_rank {row : CloudWorkspaceRecord} (done : row.archiveRank = 0) :
    row.archiveStage = 4 := by
  unfold archiveRank at done
  unfold archiveStage
  cases current : row.currentArchive with
  | none => simp [current] at done
  | some archive =>
    rw [current] at done
    cases phase : archive.phase with
    | uploading =>
      simp only [phase] at done
      split at done
      · cases done
      · cases done
    | verifying =>
      simp only [phase] at done
      omega
    | retiring => simp [phase] at done
    | retired | restoring | restored => simp [phase]

/-- An archived workspace with the time of its request is backed up once: each pass keeps or
advances the phase of one operation, whose verified chunks never decrease, and after enough
passes that do their part the sandbox is retired. -/
theorem backsUpOnce {passes : List ArchivePass} {last : ArchiveRow}
    (backable : row.Backable provider api)
    (timely : (archivePasses sha256Hex provider api row).EachStep
      (fun state pass => pass.Timely state.row) ⟨row, 0⟩ passes)
    (ran : (archivePasses sha256Hex provider api row).run passes = some last) :
    (archivePasses sha256Hex provider api row).EachStep
        (fun state pass =>
          Advances state (pass.reconciled sha256Hex provider api state)) ⟨row, 0⟩ passes ∧
      last.operations ≤ 1 ∧
      last.row.archiveRank ≤ row.archiveRank -
        (archivePasses sha256Hex provider api row).stepsMeeting
          (fun state pass => pass.Effective sha256Hex state.row) ⟨row, 0⟩ passes ∧
      (1028 ≤ (archivePasses sha256Hex provider api row).stepsMeeting
          (fun state pass => pass.Effective sha256Hex state.row) ⟨row, 0⟩ passes →
        last.row.archiveStage = 4) := by
  have once : last.row.Backable provider api ∧ last.operations ≤ min 1 last.row.archiveStage := by
    refine TransitionSystem.EachStep.invariant
      (fun state => state.row.Backable provider api ∧
        state.operations ≤ min 1 state.row.archiveStage) ?_ timely ran ⟨backable, ?_⟩
    · rintro ⟨row, operations⟩ pass next ⟨held, bounded⟩ prompt stepped
      cases stepped
      have gone := progresses sha256Hex operations held prompt
      refine ⟨gone.backable, ?_⟩
      have stage := gone.advances.stage
      have counted := gone.advances.operations
      dsimp only at bounded stage counted ⊢
      omega
    · exact zero_le _
  have ranked := TransitionSystem.EachStep.rank_le
    (fun state pass => ArchivePass.Effective sha256Hex state.row pass)
    (fun state => state.row.Backable provider api) (fun state : ArchiveRow => state.row.archiveRank)
    (by
      rintro ⟨row, operations⟩ pass next held prompt stepped
      cases stepped
      exact (progresses sha256Hex operations held prompt).backable)
    (by
      rintro ⟨row, operations⟩ pass next held prompt stepped
      cases stepped
      exact ⟨(progresses sha256Hex operations held prompt).rank,
        (progresses sha256Hex operations held prompt).effective⟩)
    timely ran backable
  refine ⟨?_, by omega, ranked, ?_⟩
  · refine TransitionSystem.EachStep.conclude
      (fun state => state.row.Backable provider api) ?_ timely backable
    rintro ⟨row, operations⟩ pass next held prompt stepped
    cases stepped
    exact ⟨(progresses sha256Hex operations held prompt).backable,
      (progresses sha256Hex operations held prompt).advances⟩
  · intro enough
    have bounded := archiveRank_le row
    dsimp only at ranked
    exact retired_of_rank (by omega)

end Runs

def archivedSample (archiveRequestedAtMs : Option Int) : CloudWorkspaceRecord where
  workspaceId := "workspace"
  accountId := "account"
  projectId := "project"
  buildId := "build"
  provider := "provider"
  providerSandboxId := some "sandbox"
  chatId := "chat"
  initialSessionId := "session"
  state := .archived
  desiredState := .archived
  statusCode := "archived"
  wrappedTranscriptKey := some "key"
  archiveRequestedAtMs
  archiveDeleteAtMs := some 10
  requestConfig :=
    { providerAuthMode := some "broker-v1", codexAuthMode := some "broker-v1" }
  nextActionAtMs := 10
  revision := 1
  updatedAtMs := 0
  lastActivityAtMs := 0

def archiveSampleProvider : SandboxProvider where
  templateVersion := "template"
  supportsFencedProcessReplacement := true

def archiveSampleApi : ApiConfiguration where
  cloudWorkspaceRecoveryEnabled := true

def archiveSamplePass (nowMs : Int) : ArchivePass where
  nowMs
  newId := "operation"
  manifest := fun operationId => some (some
    { operationId
      workspaceId := "workspace"
      chatId := "chat"
      sessionId := "session"
      chunks := ["chunk"]
      archiveSha256 := "archive"
      minLength := by decide
      maxLength := by decide })
  chunk := fun _ digest => some (some digest)

theorem backsUpOnce_sample :
    ((archivePasses id archiveSampleProvider archiveSampleApi
      (archivedSample (some 0))).run
        [archiveSamplePass 20, archiveSamplePass 21, archiveSamplePass 22,
          archiveSamplePass 23, archiveSamplePass 24]).any
      (fun last => last.row.archiveStage = 4 ∧ last.operations ≤ 1) = true := by
  obtain ⟨last, ran, retired⟩ := (any_eq_true _ _).mp
    (show ((archivePasses id archiveSampleProvider archiveSampleApi
      (archivedSample (some 0))).run
        [archiveSamplePass 20, archiveSamplePass 21, archiveSamplePass 22,
          archiveSamplePass 23, archiveSamplePass 24]).any
      (fun last => last.row.archiveStage = 4) = true by decide +kernel)
  have backable : (archivedSample (some 0)).Backable archiveSampleProvider
      archiveSampleApi := by
    constructor
    · rfl
    · rfl
    · rfl
    · intro _
      exact ⟨by decide, rfl⟩
    · intro archive stored
      cases stored
    · intro archive current
      cases current
    · intro archive current
      cases current
    · intro archive current
      cases current
    · intro archive current
      cases current
  have once := (backsUpOnce backable (by decide +kernel) ran).2.1
  rw [ran]
  simpa using ⟨of_decide_eq_true retired, once⟩

/-- For an older row without the time of its request each pass starts another operation. -/
theorem not_backedUpOnce :
    ¬ ∀ (row : CloudWorkspaceRecord) (passes : List ArchivePass) (last : ArchiveRow),
      row.state = .archived → row.desiredState = .archived →
      Pass.supportsBackup archiveSampleProvider archiveSampleApi row = true →
      row.providerSandboxId.isSome → row.workspaceArchive = none →
      (archivePasses id archiveSampleProvider archiveSampleApi row).EachStep
        (fun state pass =>
          pass.Timely state.row ∧ pass.Effective id state.row) ⟨row, 0⟩ passes →
      (archivePasses id archiveSampleProvider archiveSampleApi row).run passes = some last →
        last.operations ≤ 1 := by
  intro claim
  obtain ⟨last, ran, twice⟩ := (any_eq_true _ _).mp
    (show ((archivePasses id archiveSampleProvider archiveSampleApi
      (archivedSample none)).run [archiveSamplePass 20, archiveSamplePass 21]).any
        (fun last => last.operations = 2) = true by decide +kernel)
  have effective : ∀ (row : CloudWorkspaceRecord) (nowMs : Int), row.currentArchive = none →
      (archiveSamplePass nowMs).Effective id row := by
    intro row nowMs none_current
    refine ⟨rfl, rfl, .inl rfl, ?_, ?_⟩
    · intro archive current
      exact absurd (none_current.symm.trans current) (by simp)
    · intro archive manifest current
      exact absurd (none_current.symm.trans current) (by simp)
  have once := claim (archivedSample none) [archiveSamplePass 20, archiveSamplePass 21] last
    rfl rfl (by decide) rfl rfl
    ⟨⟨by decide +kernel, effective _ _ rfl⟩, ⟨by decide +kernel, effective _ _ rfl⟩,
      trivial⟩ ran
  have count := of_decide_eq_true twice
  omega

end Zuse.Workspaces
