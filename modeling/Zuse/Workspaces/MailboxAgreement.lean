import Zuse.Workspaces.RuntimeAgreement

namespace Zuse.Workspaces

open Option CloudWorkspaceRecord RuntimeTables

/-! The two stores on activity, the mailbox, summaries and checkpoints. -/

variable {tables : RuntimeTables} {workspace : RuntimeWorkspace}

section

variable {config : RequestConfig}

theorem any_action_filter (lifecycle : Option CloudMailboxLifecycleFence)
    (safe : CloudMailboxLifecycleFence → Bool) (other : lifecycle.map (·.action) ≠ some .delete) :
    (lifecycle.filter safe).any (·.action = .delete) = false := by
  cases lifecycle with
  | none => rfl
  | some fence =>
    rw [map_some, ne_eq, some.injEq] at other
    rw [filter_some]
    split
    · simp [other]
    · rfl

theorem deletionRequested_of_noDelete
    (none : StorePg.noDeleteLifecycle workspace.record.requestConfig) :
    workspace.record.workspaceDeletionRequested =
      (workspace.record.state = .deleted || workspace.record.state = .deleting ||
        workspace.record.desiredState = .deleted) := by
  simp only [StorePg.noDeleteLifecycle, Bool.and_eq_true, decide_eq_true_eq] at none
  rw [workspaceDeletionRequested, pendingMailboxLifecycle,
    deliveredMailboxLifecycle, any_action_filter _ _ none.1,
    any_action_filter _ _ none.2, Bool.or_false, Bool.or_false]

end

/-- No workspace that is being deleted, and no deletion under a fence that is not safe; and
of a workspace that is neither ready nor paused, an idle time that comes to what is due. -/
def ActivityAgrees (workspace : RuntimeWorkspace) (accountId : String)
    (nextIdleAtMs : Int) (runtimeOnly : Bool) : Prop :=
  (StorePg.admitsActivity workspace accountId runtimeOnly → workspace.record.state ≠ .deleting) ∧
  (StoreMemory.admitsActivity workspace accountId runtimeOnly →
    StorePg.noDeleteLifecycle workspace.record.requestConfig ∧
    (workspace.record.requestConfig.cloudMailboxWakePending ∨
      workspace.record.state = .paused ∨ workspace.record.state = .ready ∨
      workspace.record.preserveRuntimeOperationDeadline nextIdleAtMs =
        workspace.record.nextActionAtMs))

theorem preserve_nextAction (record : CloudWorkspaceRecord) :
    record.preserveRuntimeOperationDeadline record.nextActionAtMs = record.nextActionAtMs := by
  rw [preserveRuntimeOperationDeadline, min_self, ite_self]

theorem activityDeadline_eq_iff (nowMs nextIdleAtMs : Int) :
    StoreMemory.activityDeadline workspace nowMs nextIdleAtMs =
        StorePg.activityDeadline workspace nowMs nextIdleAtMs ↔
      workspace.record.requestConfig.cloudMailboxWakePending ∨
        workspace.record.state = .paused ∨ workspace.record.state = .ready ∨
        workspace.record.preserveRuntimeOperationDeadline nextIdleAtMs =
          workspace.record.nextActionAtMs := by
  rw [StoreMemory.activityDeadline, StorePg.activityDeadline]
  by_cases wakes : workspace.record.requestConfig.cloudMailboxWakePending
  · simp [wakes]
  by_cases paused : workspace.record.state = .paused
  · simp [paused]
  by_cases ready : workspace.record.state = .ready
  · simp [ready]
  simp [wakes, paused, ready, preserve_nextAction]

theorem active_eq_iff (nowMs nextIdleAtMs : Int) :
    StoreMemory.active workspace nowMs nextIdleAtMs = StorePg.active workspace nowMs nextIdleAtMs ↔
      StoreMemory.activityDeadline workspace nowMs nextIdleAtMs =
        StorePg.activityDeadline workspace nowMs nextIdleAtMs := by
  constructor
  · intro same
    exact congrArg (·.record.nextActionAtMs) same
  · intro deadline
    rw [StoreMemory.active, deadline]
    rfl

variable {accountId : String}

theorem admitsActivity_eq {runtimeOnly : Bool}
    (none : StorePg.noDeleteLifecycle workspace.record.requestConfig) :
    StoreMemory.admitsActivity workspace accountId runtimeOnly =
      (StorePg.admitsActivity workspace accountId runtimeOnly &&
        decide (workspace.record.state ≠ .deleting)) := by
  rw [StoreMemory.admitsActivity, StorePg.admitsActivity, deletionRequested_of_noDelete none]
  rw [Bool.eq_iff_iff]
  simp only [Bool.and_eq_true, Bool.or_eq_true, Bool.not_eq_true', Bool.or_eq_false_iff,
    decide_eq_true_eq, decide_eq_false_iff_not, ne_eq]
  tauto

theorem recordActivity_agrees (accountId : String) (nowMs nextIdleAtMs : Int) (runtimeOnly : Bool) :
    StoreMemory.recordActivity tables accountId nowMs nextIdleAtMs runtimeOnly =
        StorePg.recordActivity tables accountId nowMs nextIdleAtMs runtimeOnly ↔
      ∀ workspace ∈ tables.workspace,
        ActivityAgrees workspace accountId nextIdleAtMs runtimeOnly := by
  rw [StoreMemory.recordActivity, StorePg.recordActivity]
  cases tables.workspace with
  | none => simp
  | some workspace =>
    simp only [mem_def, some.injEq, forall_eq', ActivityAgrees]
    by_cases lifecycle : StorePg.noDeleteLifecycle workspace.record.requestConfig
    · rw [admitsActivity_eq lifecycle]
      cases StorePg.admitsActivity workspace accountId runtimeOnly with
      | false => simp
      | true =>
        by_cases deleting : workspace.record.state = .deleting
        · simp [deleting]
        · simp [deleting, lifecycle, withWorkspace_inj, active_eq_iff,
            activityDeadline_eq_iff]
    have refused : StorePg.admitsActivity workspace accountId runtimeOnly = false := by
      rw [StorePg.admitsActivity, Bool.eq_false_of_not_eq_true lifecycle, Bool.and_false]
    rw [refused]
    cases StoreMemory.admitsActivity workspace accountId runtimeOnly with
    | false => simp
    | true => simp [lifecycle]

/-- A wake revision that a number of the document holds exactly. -/
def SafeRevision (revision : Option Nat) : Prop :=
  ∀ value ∈ revision, (value : Int) ≤ maxSafeInteger

/-- No deletion under a fence that is not safe, and a wake revision that is. -/
def WakeAgrees (workspace : RuntimeWorkspace) (accountId : String) : Prop :=
  StoreMemory.admitsWake workspace accountId →
    StorePg.noDeleteLifecycle workspace.record.requestConfig ∧
      SafeRevision workspace.record.requestConfig.cloudMailboxWakeRevision

variable {revision : Option Nat}

theorem safeRevision_eq (safe : SafeRevision revision) :
    StoreMemory.safeRevision revision = revision := by
  cases revision with
  | none => rfl
  | some value =>
    rw [StoreMemory.safeRevision, filter_some, if_pos (decide_eq_true (safe value rfl))]

theorem safeRevision_none {value : Nat} (exceeds : ¬(value : Int) ≤ maxSafeInteger) :
    StoreMemory.safeRevision (some value) = none := by
  rw [StoreMemory.safeRevision, filter_some, if_neg (by simpa using exceeds)]

theorem resuming_eq : StoreMemory.resuming workspace = StorePg.resuming workspace := by
  simp [StoreMemory.resuming, StorePg.resuming]

theorem wakeConfig_eq_iff (config : RequestConfig) (nowMs : Int) :
    StoreMemory.wakeConfig config nowMs = StorePg.wakeConfig config nowMs ↔
      SafeRevision config.cloudMailboxWakeRevision := by
  constructor
  · intro same
    have revisions := congrArg RequestConfig.cloudMailboxWakeRevision same
    intro value stored
    by_contra exceeds
    simp only [StoreMemory.wakeConfig, StorePg.wakeConfig, mem_def.mp stored,
      safeRevision_none exceeds] at revisions
    simp at revisions
    rw [revisions] at exceeds
    exact exceeds (by decide)
  · intro safe
    have requested :
        some ((config.cloudMailboxWakeRequestedAt.filter fun _ =>
          config.cloudMailboxWakePending).getD nowMs) =
        if config.cloudMailboxWakePending ∧ config.cloudMailboxWakeRequestedAt.isSome then
          config.cloudMailboxWakeRequestedAt
        else some nowMs := by
      cases config.cloudMailboxWakeRequestedAt with
      | none => simp
      | some requestedAt =>
        rw [filter_some]
        cases config.cloudMailboxWakePending with
        | true | false => simp
    have counted : (config.cloudMailboxWakeRevision.getD 0 + 1) =
        config.cloudMailboxWakeRevision.elim 1 (· + 1) := by
      cases config.cloudMailboxWakeRevision with
      | none | some value => rfl
    rw [StoreMemory.wakeConfig, safeRevision_eq safe, requested, counted]
    rfl

theorem woken_eq_iff (nowMs : Int) :
    StoreMemory.woken workspace nowMs = StorePg.woken workspace nowMs ↔
      SafeRevision workspace.record.requestConfig.cloudMailboxWakeRevision := by
  rw [← wakeConfig_eq_iff _ nowMs]
  constructor
  · intro same
    exact congrArg (·.record.requestConfig) same
  · intro config
    rw [StoreMemory.woken, config, resuming_eq]
    rfl

theorem admitsWake_eq (none : StorePg.noDeleteLifecycle workspace.record.requestConfig) :
    StoreMemory.admitsWake workspace accountId = StorePg.admitsWake workspace accountId := by
  rw [StoreMemory.admitsWake, StorePg.admitsWake, deletionRequested_of_noDelete none]
  rw [Bool.eq_iff_iff]
  simp only [List.mem_cons, List.not_mem_nil, Bool.and_eq_true,
    Bool.not_eq_true', Bool.or_eq_false_iff, decide_eq_true_eq, decide_eq_false_iff_not,
    ne_eq, List.elem_eq_mem]
  tauto

theorem requestMailboxWake_agrees (accountId : String) (nowMs nextIdleAtMs : Int) :
    StoreMemory.requestMailboxWake tables accountId nowMs nextIdleAtMs =
        StorePg.requestMailboxWake tables accountId nowMs nextIdleAtMs ↔
      ∀ workspace ∈ tables.workspace, WakeAgrees workspace accountId := by
  rw [StoreMemory.requestMailboxWake, StorePg.requestMailboxWake]
  cases tables.workspace with
  | none => simp
  | some workspace =>
    simp only [mem_def, some.injEq, forall_eq', WakeAgrees]
    by_cases lifecycle : StorePg.noDeleteLifecycle workspace.record.requestConfig
    · rw [admitsWake_eq lifecycle]
      cases StorePg.admitsWake workspace accountId with
      | false => simp
      | true => simp [lifecycle, withWorkspace_inj, woken_eq_iff]
    have refused : StorePg.admitsWake workspace accountId = false := by
      rw [StorePg.admitsWake, Bool.eq_false_of_not_eq_true lifecycle, Bool.and_false]
    rw [refused]
    cases StoreMemory.admitsWake workspace accountId with
    | false => simp
    | true => simp [lifecycle]

/-- A wake revision that is safe, and stored once the runtime has been seen. -/
def PollAgrees (workspace : RuntimeWorkspace) (runtime : MailboxRuntime) : Prop :=
  workspace.record.serves runtime →
    SafeRevision workspace.record.requestConfig.cloudMailboxWakeRevision ∧
      (workspace.record.requestConfig.cloudMailboxRuntimeSeenAt.isSome →
        workspace.record.requestConfig.cloudMailboxWakeRevision.isSome)

theorem one_ne_of_unsafe (exceeding : ¬SafeRevision revision) (fallback : Nat) :
    (StoreMemory.safeRevision revision).getD 1 ≠ revision.getD fallback := by
  intro same
  apply exceeding
  intro value stored
  by_contra exceeds
  rw [mem_def.mp stored, safeRevision_none exceeds, getD_some] at same
  rw [← same] at exceeds
  exact exceeds (by decide)

theorem recordMailboxRuntimePoll_agrees (runtime : MailboxRuntime) (nowMs nextCheckAtMs : Int) :
    StoreMemory.recordMailboxRuntimePoll tables runtime nowMs nextCheckAtMs =
        StorePg.recordMailboxRuntimePoll tables runtime nowMs nextCheckAtMs ↔
      ∀ workspace ∈ tables.workspace, PollAgrees workspace runtime := by
  rw [StoreMemory.recordMailboxRuntimePoll, StorePg.recordMailboxRuntimePoll]
  cases tables.workspace with
  | none => simp
  | some workspace =>
    simp only [mem_def, some.injEq, forall_eq', PollAgrees]
    cases workspace.record.serves runtime with
    | false => simp
    | true =>
      by_cases safe : SafeRevision workspace.record.requestConfig.cloudMailboxWakeRevision
      · rw [safeRevision_eq safe]
        cases workspace.record.requestConfig.cloudMailboxRuntimeSeenAt with
        | none =>
          simp [safe]
          rfl
        | some seenAt =>
          cases stored : workspace.record.requestConfig.cloudMailboxWakeRevision with
          | none => simp
          | some revision =>
            rw [stored] at safe
            simp [safe]
      · cases workspace.record.requestConfig.cloudMailboxRuntimeSeenAt with
        | none => simp [safe, one_ne_of_unsafe safe 1]
        | some seenAt => simp [safe, one_ne_of_unsafe safe 0]

/-- Progress that is not held back by a fence, and that the row takes as it is told: without
a fence it is new, and with one it is new or told again at once, and nothing is due
before. -/
def ProgressAgrees (workspace : RuntimeWorkspace) (input : MailboxProgressInput) : Prop :=
  let config := workspace.record.requestConfig
  StoreMemory.servesWake workspace input.runtime input.wakeRevision →
    config.cloudMailboxFenceRequired = false ∧
    (input.fenceRequired = false → StoreMemory.reached config input.mailboxRevision = false) ∧
    (input.fenceRequired →
      (StoreMemory.reached config input.mailboxRevision →
        config.cloudMailboxProgressRevision = some input.mailboxRevision ∧
          config.cloudMailboxProgressAt = some input.nowMs) ∧
      workspace.record.preserveRuntimeOperationDeadline input.nowMs = input.nowMs)

theorem not_reached_iff (config : RequestConfig) (mailboxRevision : Nat) :
    config.cloudMailboxProgressRevision.all (· < mailboxRevision) =
      !StoreMemory.reached config mailboxRevision := by
  rw [StoreMemory.reached]
  cases config.cloudMailboxProgressRevision with
  | none => rfl
  | some revision =>
    rw [Bool.eq_iff_iff]
    simp

theorem progressConfig_eq_iff (config : RequestConfig) (input : MailboxProgressInput) :
    StoreMemory.progressConfig config input = StorePg.progressConfig config input ↔
      (StoreMemory.reached config input.mailboxRevision →
        config.cloudMailboxProgressRevision = some input.mailboxRevision ∧
          config.cloudMailboxProgressAt = some input.nowMs) := by
  rw [StoreMemory.progressConfig, StorePg.progressConfig]
  cases StoreMemory.reached config input.mailboxRevision with
  | false => simp
  | true =>
    simp
    exact and_comm

theorem progressed_eq_iff (input : MailboxProgressInput) :
    StoreMemory.progressed workspace input = StorePg.progressed workspace input ↔
      (StoreMemory.reached workspace.record.requestConfig input.mailboxRevision →
        workspace.record.requestConfig.cloudMailboxProgressRevision = some input.mailboxRevision ∧
          workspace.record.requestConfig.cloudMailboxProgressAt = some input.nowMs) ∧
      (input.fenceRequired →
        workspace.record.preserveRuntimeOperationDeadline input.nowMs = input.nowMs) := by
  rw [← progressConfig_eq_iff]
  cases fence : input.fenceRequired with
  | false =>
    constructor
    · intro same
      exact ⟨congrArg (·.record.requestConfig) same, nofun⟩
    · rintro ⟨config, -⟩
      simp only [StoreMemory.progressed, StorePg.progressed, fence, config]
      rfl
  | true =>
    constructor
    · intro same
      have deadline := congrArg (·.record.nextActionAtMs) same
      simp only [StoreMemory.progressed, StorePg.progressed, fence] at deadline
      exact ⟨congrArg (·.record.requestConfig) same, fun _ => deadline⟩
    · rintro ⟨config, deadline⟩
      simp only [StoreMemory.progressed, StorePg.progressed, fence, if_true, config, deadline]
      rfl

theorem recordMailboxRuntimeProgress_agrees (input : MailboxProgressInput) :
    StoreMemory.recordMailboxRuntimeProgress tables input =
        StorePg.recordMailboxRuntimeProgress tables input ↔
      ∀ workspace ∈ tables.workspace, ProgressAgrees workspace input := by
  rw [StoreMemory.recordMailboxRuntimeProgress, StorePg.recordMailboxRuntimeProgress]
  cases tables.workspace with
  | none => simp
  | some workspace =>
    simp only [mem_def, some.injEq, forall_eq', ProgressAgrees, not_reached_iff,
      show StorePg.servesWake workspace input.runtime input.wakeRevision =
        StoreMemory.servesWake workspace input.runtime input.wakeRevision from rfl]
    cases StoreMemory.servesWake workspace input.runtime input.wakeRevision with
    | false => simp
    | true =>
      cases fenced : workspace.record.requestConfig.cloudMailboxFenceRequired with
      | true =>
        cases input.fenceRequired with
        | false | true => simp
      | false =>
        cases fence : input.fenceRequired with
        | true =>
          simp [withWorkspace_inj, progressed_eq_iff, fence]
        | false =>
          cases known : StoreMemory.reached workspace.record.requestConfig
              input.mailboxRevision with
          | true => simp
          | false =>
            simp [withWorkspace_inj, progressed_eq_iff, fence, known]

theorem completeMailboxDrain_agrees (runtime : MailboxRuntime) (wakeRevision : Nat)
    (nowMs nextIdleAtMs : Int) :
    StoreMemory.completeMailboxDrain tables runtime wakeRevision nowMs nextIdleAtMs =
      StorePg.completeMailboxDrain tables runtime wakeRevision nowMs nextIdleAtMs := by
  cases tables.workspace with
  | none | some workspace => rfl

/-- A summary of the runtime that is not older than the one stored, and that names the
agents which may be accessed wherever it is taken. -/
def SummaryAgrees (tables : RuntimeTables) (workspace : RuntimeWorkspace)
    (input : CloudWorkspaceRuntimeSummaryRecord) : Prop :=
  workspace.record.cloudWorkspaceRuntimeGeneration = input.runtimeGeneration →
    (∀ previous ∈ tables.summary, previous.runtimeGeneration ≤ input.runtimeGeneration) ∧
    ((∀ previous ∈ tables.summary, previous.runtimeGeneration = input.runtimeGeneration →
      previous.summaryRevision < input.summaryRevision) → input.nativeAgentAccess.isSome)

section

variable (previous : Option CloudWorkspaceRuntimeSummaryRecord)
  (input : CloudWorkspaceRuntimeSummaryRecord)
include previous input

theorem mergedSummary_access :
    (StorePg.mergedSummary previous input).nativeAgentAccess =
      some (input.nativeAgentAccess.getD []) := by
  cases previous with
  | none | some stored => rfl

theorem mergedSummary_eq_iff :
    StoreMemory.mergedSummary previous input = StorePg.mergedSummary previous input ↔
      input.nativeAgentAccess.isSome := by
  constructor
  · intro same
    have access := congrArg (·.nativeAgentAccess) same
    rw [mergedSummary_access] at access
    exact isSome_iff_exists.mpr ⟨_, access⟩
  intro named
  obtain ⟨access, known⟩ := isSome_iff_exists.mp named
  cases previous with
  | none => simp [StoreMemory.mergedSummary, StorePg.mergedSummary, known]
  | some stored =>
    by_cases generation : stored.runtimeGeneration = input.runtimeGeneration
    · by_cases session : stored.activeSessionId = input.activeSessionId
      · simp [StoreMemory.mergedSummary, StorePg.mergedSummary, known, generation,
          session, filter_some]
      · simp [StoreMemory.mergedSummary, StorePg.mergedSummary, known, generation,
          session, filter_some]
    · simp [StoreMemory.mergedSummary, StorePg.mergedSummary, known, generation, filter_some]

end

theorem saveRuntimeSummary_agrees (input : CloudWorkspaceRuntimeSummaryRecord) :
    StoreMemory.saveRuntimeSummary tables input = StorePg.saveRuntimeSummary tables input ↔
      ∀ workspace ∈ tables.workspace, SummaryAgrees tables workspace input := by
  rw [StoreMemory.saveRuntimeSummary, StorePg.saveRuntimeSummary]
  cases tables.workspace with
  | none => simp
  | some workspace =>
    simp only [mem_def, some.injEq, forall_eq', SummaryAgrees, cloudWorkspaceRuntimeGeneration]
    by_cases current : workspace.record.requestConfig.runtimeGeneration.getD 1 =
        input.runtimeGeneration
    · cases stored : tables.summary with
      | none => simp [current, mergedSummary_eq_iff]
      | some previous =>
        rcases lt_trichotomy previous.runtimeGeneration input.runtimeGeneration with
          older | same | newer
        · simp [current, filter_some, StorePg.keepsSummary, older, older.ne,
            older.le, mergedSummary_eq_iff]
        · by_cases fresh : previous.summaryRevision < input.summaryRevision
          · simp [current, filter_some, StorePg.keepsSummary, same, fresh,
              fresh.not_ge, mergedSummary_eq_iff]
          · simp [current, filter_some, StorePg.keepsSummary, same, fresh, not_lt.mp fresh]
        · simp [current, filter_some, StorePg.keepsSummary, newer.ne',
            newer.ne, newer.not_gt, newer.not_ge]
    · simp [current]

theorem replacesCheckpoint_eq (checkpoint previous : CloudTranscriptCheckpointRecord) :
    StorePg.replacesCheckpoint checkpoint previous =
      !StoreMemory.blocksCheckpoint checkpoint previous := by
  rw [Bool.eq_iff_iff]
  simp only [StorePg.replacesCheckpoint, StoreMemory.blocksCheckpoint, Bool.or_eq_true,
    Bool.and_eq_true, Bool.not_eq_true', Bool.or_eq_false_iff, Bool.and_eq_false_iff,
    decide_eq_true_eq, decide_eq_false_iff_not, ne_eq, not_not]
  by_cases epoch : previous.streamEpoch = checkpoint.streamEpoch
  · simp only [epoch, true_and, and_true]
    omega
  · simp only [epoch, Ne.symm epoch, false_and, or_false, and_false]
    omega

theorem saveTranscriptCheckpoint_agrees (checkpoint : CloudTranscriptCheckpointRecord) :
    StoreMemory.saveTranscriptCheckpoint tables checkpoint =
      StorePg.saveTranscriptCheckpoint tables checkpoint := by
  rw [StoreMemory.saveTranscriptCheckpoint, StorePg.saveTranscriptCheckpoint]
  cases tables.workspace with
  | none => rfl
  | some workspace =>
    simp only [cloudWorkspaceRuntimeGeneration]
    by_cases current : workspace.record.requestConfig.runtimeGeneration.getD 1 =
        checkpoint.runtimeGeneration
    · cases tables.checkpoints.find? (·.sessionId = checkpoint.sessionId) with
      | none => simp [current, StoreMemory.withCheckpoint]
      | some previous =>
        cases blocked : StoreMemory.blocksCheckpoint checkpoint previous with
        | true => simp [current, replacesCheckpoint_eq, blocked]
        | false =>
          simp [current, replacesCheckpoint_eq, blocked, StoreMemory.withCheckpoint]
    · simp [current]

end Zuse.Workspaces
