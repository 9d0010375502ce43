import Zuse.Workspaces.StoreAgreement

namespace Zuse.Workspaces

open RuntimeWorkspace

open Prod (map_snd)

/-! Wakes of a mailbox in `CloudWorkspaceStorePg`, over any operations of its runtimes. -/

/-- The wake that a drain says it has served. -/
def RuntimeOperation.drained : RuntimeOperation → Option Nat
  | .completeMailboxDrain _ wakeRevision _ _ => some wakeRevision
  | _ => none

def RuntimeWorkspace.wakeRevision (workspace : RuntimeWorkspace) : Nat :=
  workspace.record.requestConfig.cloudMailboxWakeRevision.getD 0

def RuntimeWorkspace.wakePending (workspace : RuntimeWorkspace) : Bool :=
  workspace.record.requestConfig.cloudMailboxWakePending

namespace StorePg

def runs (tables : RuntimeTables) (operations : List RuntimeOperation) : RuntimeTables :=
  operations.foldl (fun reached operation => (step reached operation).2) tables

/-- What an operation leaves of the wakes before it: only a drain of the latest one ends it. -/
structure KeepsWake (operation : RuntimeOperation) (before after : RuntimeWorkspace) : Prop where
  counts : before.wakeRevision ≤ after.wakeRevision
  pending : before.wakePending = true →
    (∀ revision ∈ operation.drained, revision < before.wakeRevision) → after.wakePending = true

variable {tables : RuntimeTables} {workspace : RuntimeWorkspace}

theorem step_keepsWake (operation : RuntimeOperation)
    (present : tables.workspace = some workspace) :
    ∃ after, (step tables operation).2.workspace = some after ∧
      KeepsWake operation workspace after := by
  have stays {operation : RuntimeOperation} : KeepsWake operation workspace workspace :=
    ⟨le_rfl, fun pending _ => pending⟩
  cases operation with
  | completeMailboxDrain runtime wakeRevision nowMs nextIdleAtMs =>
    simp only [step, completeMailboxDrain, present, map_snd, id_eq]
    split
    · rename_i serves
      rw [servesWake, Bool.and_eq_true, decide_eq_true_eq] at serves
      refine ⟨_, rfl, le_rfl, fun _ older => ?_⟩
      have latest : workspace.wakeRevision = wakeRevision := by
        rw [RuntimeWorkspace.wakeRevision, serves.2]
        rfl
      exact absurd latest (older wakeRevision rfl).ne'
    · exact ⟨_, present, stays⟩
  | requestMailboxWake accountId nowMs nextIdleAtMs =>
    simp only [step, requestMailboxWake, present, map_snd, id_eq]
    split
    · refine ⟨_, rfl, ?_, fun _ _ => rfl⟩
      cases known : workspace.record.requestConfig.cloudMailboxWakeRevision <;>
        simp [wakeRevision, woken, wakeConfig, known]
    · exact ⟨_, present, stays⟩
  | recordMailboxRuntimePoll runtime nowMs nextCheckAtMs =>
    simp only [step, recordMailboxRuntimePoll, present, map_snd, id_eq]
    split
    · refine ⟨_, rfl, ?_, fun pending _ => pending⟩
      cases known : workspace.record.requestConfig.cloudMailboxWakeRevision <;>
        simp [wakeRevision, polled, revised, known]
    · split <;> exact ⟨_, present, stays⟩
  | getLaunchIntent nowMs =>
    simp only [step, getLaunchIntent, present, map_snd, id_eq, Option.map_some, markExpired]
    repeat' split
    all_goals exact ⟨_, rfl, le_rfl, fun pending _ => pending⟩
  | _ =>
    simp only [step, completeLaunchIntent, enrollRuntimeBoot, markRuntimeRepositoryReady,
      acknowledgeRuntimeBoot, renewRuntimeCredential, recordActivity,
      recordMailboxRuntimeProgress, saveRuntimeSummary, saveTranscriptCheckpoint, present,
      map_snd, id_eq]
    repeat' split
    all_goals first
      | exact ⟨_, present, stays⟩
      | exact ⟨_, rfl, le_rfl, fun pending _ => pending⟩

theorem runs_counts (operations : List RuntimeOperation)
    (present : tables.workspace = some workspace) :
    ∃ after, (runs tables operations).workspace = some after ∧
      workspace.wakeRevision ≤ after.wakeRevision := by
  induction operations generalizing tables workspace with
  | nil => exact ⟨workspace, present, le_rfl⟩
  | cons operation rest ih =>
    obtain ⟨next, stored, kept⟩ := step_keepsWake operation present
    obtain ⟨after, reached, counts⟩ := ih stored
    exact ⟨after, reached, kept.counts.trans counts⟩

theorem runs_pending {served : Nat} {operations : List RuntimeOperation}
    (present : tables.workspace = some workspace) (pending : workspace.wakePending = true)
    (newer : served < workspace.wakeRevision)
    (stale : ∀ operation ∈ operations, ∀ revision ∈ operation.drained, revision ≤ served) :
    ∃ after, (runs tables operations).workspace = some after ∧ after.wakePending = true ∧
      served < after.wakeRevision := by
  induction operations generalizing tables workspace with
  | nil => exact ⟨workspace, present, pending, newer⟩
  | cons operation rest ih =>
    obtain ⟨next, stored, kept⟩ := step_keepsWake operation present
    have older (revision : Nat) (drained : revision ∈ operation.drained) :
        revision < workspace.wakeRevision :=
      (stale operation List.mem_cons_self revision drained).trans_lt newer
    exact ih stored (kept.pending pending older) (newer.trans_le kept.counts)
      fun later member => stale later (List.mem_cons_of_mem operation member)

theorem poll_counts {runtime : MailboxRuntime} {nowMs nextCheckAtMs : Int} {seen : Nat}
    (polls : (recordMailboxRuntimePoll tables runtime nowMs nextCheckAtMs).1 = some seen) :
    ∃ after, (recordMailboxRuntimePoll tables runtime nowMs nextCheckAtMs).2.workspace =
      some after ∧ after.wakeRevision = seen := by
  rw [recordMailboxRuntimePoll] at polls ⊢
  cases present : tables.workspace with
  | none => simp [present] at polls
  | some workspace =>
    rw [present] at polls
    dsimp only at polls ⊢
    split at polls
    · rename_i first
      cases polls
      rw [if_pos first]
      exact ⟨_, rfl, rfl⟩
    · rename_i again
      rw [if_neg again]
      split at polls
      · rename_i serves
        cases polls
        rw [if_pos serves]
        exact ⟨_, present, rfl⟩
      · cases polls

/-- A wake that is asked for after a runtime has polled stays pending, whatever the runtimes do
then, until a drain names a wake newer than the one polled. -/
theorem wake_outlives_drains {runtime : MailboxRuntime} {polledAtMs nextCheckAtMs : Int}
    {seen : Nat} {between later : List RuntimeOperation} {accountId : String}
    {wokenAtMs nextIdleAtMs : Int}
    (polls : (recordMailboxRuntimePoll tables runtime polledAtMs nextCheckAtMs).1 = some seen)
    (wakes : (requestMailboxWake (runs (recordMailboxRuntimePoll tables runtime polledAtMs
      nextCheckAtMs).2 between) accountId wokenAtMs nextIdleAtMs).1.isSome = true)
    (stale : ∀ operation ∈ later, ∀ revision ∈ operation.drained, revision ≤ seen) :
    ∃ after, (runs (requestMailboxWake (runs (recordMailboxRuntimePoll tables runtime polledAtMs
      nextCheckAtMs).2 between) accountId wokenAtMs nextIdleAtMs).2 later).workspace = some after ∧
        after.wakePending = true ∧ seen < after.wakeRevision := by
  obtain ⟨read, stored, rfl⟩ := poll_counts polls
  obtain ⟨workspace, present, counts⟩ := runs_counts between stored
  rw [requestMailboxWake, present] at wakes ⊢
  dsimp only at wakes ⊢
  split at wakes
  · rename_i admits
    rw [if_pos admits]
    refine runs_pending rfl rfl (counts.trans_lt ?_) stale
    cases known : workspace.record.requestConfig.cloudMailboxWakeRevision <;>
      simp [wakeRevision, woken, wakeConfig, known]
  · cases wakes

theorem wake_outlives_drain :
    ∃ after, (runs (requestMailboxWake (runs (recordMailboxRuntimePoll sampleTables ⟨"account", 1⟩
      5 60).2 []) "account" 8 70).2 [.completeMailboxDrain ⟨"account", 1⟩ 1 20 80]).workspace =
        some after ∧ after.wakePending = true ∧ 1 < after.wakeRevision :=
  wake_outlives_drains (by decide) (by decide) (by simp [RuntimeOperation.drained])

end StorePg

end Zuse.Workspaces
