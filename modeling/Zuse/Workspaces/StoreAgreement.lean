import Zuse.Workspaces.MailboxAgreement

namespace Zuse.Workspaces

open RuntimeTables RuntimeOutcome

open Prod (map_snd)

abbrev Store := RuntimeTables → RuntimeOperation → RuntimeOutcome × RuntimeTables

/-- What the other operations of a store do to renewals: receipts beside the row stay, and
a row does not come by one. -/
structure RuntimeTables.KeepsRenewals (before after : RuntimeTables) : Prop where
  beside : after.renewals = before.renewals
  inRow : (∀ workspace ∈ before.workspace,
      workspace.record.requestConfig.runtimeCredentialRenewal = none) →
    ∀ workspace ∈ after.workspace, workspace.record.requestConfig.runtimeCredentialRenewal = none

/-- The tables that a store comes to, whatever else is done to the workspace between the
operations of its runtime. -/
inductive Store.Reached (store : Store) : RuntimeTables → Prop
  | empty : Reached store {}
  | runtime {tables : RuntimeTables} (operation : RuntimeOperation) :
      Reached store tables → Reached store (store tables operation).2
  | other {before after : RuntimeTables} :
      Reached store before → before.KeepsRenewals after → Reached store after

def Store.trace (store : Store) (tables : RuntimeTables) :
    List RuntimeOperation → List (RuntimeOutcome × RuntimeTables)
  | [] => []
  | operation :: rest =>
    store tables operation :: trace store (store tables operation).2 rest

def Agrees (tables : RuntimeTables) : RuntimeOperation → Prop
  | .getLaunchIntent nowMs => IntentAgrees tables nowMs
  | .completeLaunchIntent _ => True
  | .enrollRuntimeBoot input => ∀ workspace ∈ tables.workspace, EnrollAgrees workspace input
  | .markRuntimeRepositoryReady input =>
    ∀ workspace ∈ tables.workspace, ReadyAgrees workspace input
  | .acknowledgeRuntimeBoot _ => True
  | .renewRuntimeCredential input =>
    ∀ workspace ∈ tables.workspace, RenewalAgrees workspace input
  | .recordActivity accountId _ nextIdleAtMs runtimeOnly =>
    ∀ workspace ∈ tables.workspace, ActivityAgrees workspace accountId nextIdleAtMs runtimeOnly
  | .requestMailboxWake accountId _ _ =>
    ∀ workspace ∈ tables.workspace, WakeAgrees workspace accountId
  | .recordMailboxRuntimePoll runtime _ _ =>
    ∀ workspace ∈ tables.workspace, PollAgrees workspace runtime
  | .recordMailboxRuntimeProgress input =>
    ∀ workspace ∈ tables.workspace, ProgressAgrees workspace input
  | .completeMailboxDrain _ _ _ _ => True
  | .saveRuntimeSummary input =>
    ∀ workspace ∈ tables.workspace, SummaryAgrees tables workspace input
  | .saveTranscriptCheckpoint _ => True

def EachAgrees (tables : RuntimeTables) : List RuntimeOperation → Prop
  | [] => True
  | operation :: rest =>
    Agrees tables operation ∧ EachAgrees (StoreMemory.step tables operation).2 rest

section

variable {tables : RuntimeTables}

theorem map_eq_iff {α : Type} {wrap : α → RuntimeOutcome}
    (injective : Function.Injective wrap) {first second : α × RuntimeTables} :
    first.map wrap id = second.map wrap id ↔ first = second := by
  obtain ⟨outcome, left⟩ := first
  obtain ⟨other, right⟩ := second
  simp [injective.eq_iff]

theorem step_eq_iff (fresh : tables.NoRenewals) (operation : RuntimeOperation) :
    StoreMemory.step tables operation = StorePg.step tables operation ↔
      Agrees tables operation := by
  cases operation with
  | getLaunchIntent nowMs =>
    exact (map_eq_iff fun _ _ => launchIntent.inj).trans (getLaunchIntent_agrees nowMs)
  | completeLaunchIntent input =>
    exact (map_eq_iff fun _ _ => completion.inj).trans
      (iff_true_intro (completeLaunchIntent_agrees input))
  | enrollRuntimeBoot input =>
    exact (map_eq_iff fun _ _ => enrollment.inj).trans (enrollRuntimeBoot_agrees input)
  | markRuntimeRepositoryReady input =>
    exact (map_eq_iff fun _ _ => workspace.inj).trans (markRuntimeRepositoryReady_agrees input)
  | acknowledgeRuntimeBoot input =>
    exact (map_eq_iff fun _ _ => done.inj).trans
      (iff_true_intro (acknowledgeRuntimeBoot_agrees input))
  | renewRuntimeCredential input =>
    exact (map_eq_iff fun _ _ => renewal.inj).trans (renewRuntimeCredential_agrees fresh input)
  | recordActivity accountId nowMs nextIdleAtMs runtimeOnly =>
    exact (map_eq_iff fun _ _ => workspace.inj).trans
      (recordActivity_agrees accountId nowMs nextIdleAtMs runtimeOnly)
  | requestMailboxWake accountId nowMs nextIdleAtMs =>
    exact (map_eq_iff fun _ _ => workspace.inj).trans
      (requestMailboxWake_agrees accountId nowMs nextIdleAtMs)
  | recordMailboxRuntimePoll runtime nowMs nextCheckAtMs =>
    exact (map_eq_iff fun _ _ => wakeRevision.inj).trans
      (recordMailboxRuntimePoll_agrees runtime nowMs nextCheckAtMs)
  | recordMailboxRuntimeProgress input =>
    exact (map_eq_iff fun _ _ => done.inj).trans (recordMailboxRuntimeProgress_agrees input)
  | completeMailboxDrain runtime wakeRevision nowMs nextIdleAtMs =>
    exact (map_eq_iff fun _ _ => done.inj).trans (iff_true_intro
      (completeMailboxDrain_agrees runtime wakeRevision nowMs nextIdleAtMs))
  | saveRuntimeSummary input =>
    exact (map_eq_iff fun _ _ => summary.inj).trans (saveRuntimeSummary_agrees input)
  | saveTranscriptCheckpoint checkpoint =>
    exact (map_eq_iff fun _ _ => done.inj).trans
      (iff_true_intro (saveTranscriptCheckpoint_agrees checkpoint))

def RuntimeTables.receiptInRow (tables : RuntimeTables) :
    Option RuntimeCredentialRenewalReceipt :=
  tables.workspace.bind (·.record.requestConfig.runtimeCredentialRenewal)

theorem RuntimeTables.receiptInRow_none_iff :
    tables.receiptInRow = none ↔ ∀ workspace ∈ tables.workspace,
      workspace.record.requestConfig.runtimeCredentialRenewal = none :=
  Option.bind_eq_none_iff

theorem RuntimeTables.withWorkspace_receiptInRow {before : RuntimeWorkspace}
    (after : RuntimeWorkspace) (present : tables.workspace = some before)
    (same : after.record.requestConfig.runtimeCredentialRenewal =
      before.record.requestConfig.runtimeCredentialRenewal) :
    (tables.withWorkspace after).receiptInRow = tables.receiptInRow := by
  rw [receiptInRow, receiptInRow, present]
  exact same

theorem getLaunchIntent_receiptInRow (nowMs : Int) :
    (StoreMemory.getLaunchIntent tables nowMs).2.receiptInRow = tables.receiptInRow := by
  rw [StoreMemory.getLaunchIntent]
  split
  · rfl
  split
  · rfl
  rw [receiptInRow, receiptInRow]
  cases tables.workspace with
  | none | some workspace => rfl

theorem wakeConfig_receipt (config : RequestConfig) (nowMs : Int) :
    (StoreMemory.wakeConfig config nowMs).runtimeCredentialRenewal =
      config.runtimeCredentialRenewal := by
  rw [StoreMemory.wakeConfig]
  cases config.cloudMailboxWakePending with
  | true | false => rfl

theorem step_receiptInRow (operation : RuntimeOperation) :
    (StoreMemory.step tables operation).2.receiptInRow = tables.receiptInRow := by
  cases present : tables.workspace with
  | none =>
    cases operation with
    | getLaunchIntent nowMs => exact getLaunchIntent_receiptInRow nowMs
    | _ =>
      simp only [StoreMemory.step, StoreMemory.completeLaunchIntent,
        StoreMemory.enrollRuntimeBoot, StoreMemory.markRuntimeRepositoryReady,
        StoreMemory.acknowledgeRuntimeBoot, StoreMemory.renewRuntimeCredential,
        StoreMemory.recordActivity, StoreMemory.requestMailboxWake,
        StoreMemory.recordMailboxRuntimePoll,
        StoreMemory.recordMailboxRuntimeProgress, StoreMemory.completeMailboxDrain,
        StoreMemory.saveRuntimeSummary, StoreMemory.saveTranscriptCheckpoint, present,
        map_snd, id_eq]
  | some workspace =>
    have written := fun changed : RuntimeWorkspace =>
      withWorkspace_receiptInRow changed present
    cases operation with
    | getLaunchIntent nowMs => exact getLaunchIntent_receiptInRow nowMs
    | completeLaunchIntent input =>
      simp only [StoreMemory.step, StoreMemory.completeLaunchIntent, present, map_snd, id_eq]
      split
      · rfl
      · exact written _ rfl
    | enrollRuntimeBoot input =>
      simp only [StoreMemory.step, StoreMemory.enrollRuntimeBoot, present, map_snd, id_eq]
      split
      · split
        · rfl
        · rfl
      split
      · rfl
      split
      · rfl
      · exact written _ rfl
    | markRuntimeRepositoryReady input =>
      simp only [StoreMemory.step, StoreMemory.markRuntimeRepositoryReady, present, map_snd, id_eq]
      split
      · exact written _ rfl
      · rfl
    | acknowledgeRuntimeBoot input =>
      simp only [StoreMemory.step, StoreMemory.acknowledgeRuntimeBoot, present, map_snd, id_eq]
      split
      · rfl
      split
      · rfl
      split
      · rfl
      · exact written _ rfl
    | renewRuntimeCredential input =>
      simp only [StoreMemory.step, StoreMemory.renewRuntimeCredential, present, map_snd, id_eq]
      split
      · rfl
      · rfl
      · rw [receiptInRow, receiptInRow, present]
        rfl
    | recordActivity accountId nowMs nextIdleAtMs runtimeOnly =>
      simp only [StoreMemory.step, StoreMemory.recordActivity, present, map_snd, id_eq]
      split
      · exact written _ rfl
      · rfl
    | requestMailboxWake accountId nowMs nextIdleAtMs =>
      simp only [StoreMemory.step, StoreMemory.requestMailboxWake, present, map_snd, id_eq]
      split
      · exact written _ (wakeConfig_receipt _ _)
      · rfl
    | recordMailboxRuntimePoll runtime nowMs nextCheckAtMs =>
      simp only [StoreMemory.step, StoreMemory.recordMailboxRuntimePoll, present, map_snd, id_eq]
      split
      · split
        · rfl
        · exact written _ rfl
      · rfl
    | recordMailboxRuntimeProgress input =>
      simp only [StoreMemory.step, StoreMemory.recordMailboxRuntimeProgress, present,
        map_snd, id_eq]
      split
      · rfl
      split
      · rfl
      split
      · rfl
      split
      · rfl
      · exact written _ rfl
    | completeMailboxDrain runtime wakeRevision nowMs nextIdleAtMs =>
      simp only [StoreMemory.step, StoreMemory.completeMailboxDrain, present, map_snd, id_eq]
      split
      · exact written _ rfl
      · rfl
    | saveRuntimeSummary input =>
      simp only [StoreMemory.step, StoreMemory.saveRuntimeSummary, present, map_snd, id_eq]
      split
      · rfl
      split
      · rfl
      · rw [receiptInRow, receiptInRow, present]
    | saveTranscriptCheckpoint checkpoint =>
      simp only [StoreMemory.step, StoreMemory.saveTranscriptCheckpoint, present, map_snd, id_eq]
      split
      · rfl
      split
      · rfl
      · rw [receiptInRow, receiptInRow, present]

theorem step_renewals (operation : RuntimeOperation) :
    (StorePg.step tables operation).2.renewals = tables.renewals := by
  cases present : tables.workspace with
  | none =>
    cases operation with
    | getLaunchIntent nowMs => rfl
    | _ =>
      simp only [StorePg.step, StorePg.completeLaunchIntent,
        StorePg.enrollRuntimeBoot, StorePg.markRuntimeRepositoryReady,
        StorePg.acknowledgeRuntimeBoot, StorePg.renewRuntimeCredential,
        StorePg.recordActivity, StorePg.requestMailboxWake,
        StorePg.recordMailboxRuntimePoll, StorePg.recordMailboxRuntimeProgress,
        StorePg.completeMailboxDrain, StorePg.saveRuntimeSummary,
        StorePg.saveTranscriptCheckpoint, present, map_snd, id_eq]
  | some workspace =>
    cases operation with
    | getLaunchIntent nowMs => rfl
    | completeLaunchIntent input =>
      simp only [StorePg.step, StorePg.completeLaunchIntent, present, map_snd, id_eq]
      split
      · rfl
      · rfl
    | enrollRuntimeBoot input =>
      simp only [StorePg.step, StorePg.enrollRuntimeBoot, present, map_snd, id_eq]
      split
      · split
        · rfl
        · rfl
      · split
        · rfl
        · rfl
    | markRuntimeRepositoryReady input =>
      simp only [StorePg.step, StorePg.markRuntimeRepositoryReady, present, map_snd, id_eq]
      split
      · rfl
      · rfl
    | acknowledgeRuntimeBoot input =>
      simp only [StorePg.step, StorePg.acknowledgeRuntimeBoot, present, map_snd, id_eq]
      split
      · rfl
      split
      · rfl
      split
      · rfl
      split
      · rfl
      · rfl
    | renewRuntimeCredential input =>
      simp only [StorePg.step, StorePg.renewRuntimeCredential, present, map_snd, id_eq]
      split
      · rfl
      · rfl
      · rfl
    | recordActivity accountId nowMs nextIdleAtMs runtimeOnly =>
      simp only [StorePg.step, StorePg.recordActivity, present, map_snd, id_eq]
      split
      · rfl
      · rfl
    | requestMailboxWake accountId nowMs nextIdleAtMs =>
      simp only [StorePg.step, StorePg.requestMailboxWake, present, map_snd, id_eq]
      split
      · rfl
      · rfl
    | recordMailboxRuntimePoll runtime nowMs nextCheckAtMs =>
      simp only [StorePg.step, StorePg.recordMailboxRuntimePoll, present, map_snd, id_eq]
      split
      · rfl
      split
      · rfl
      · rfl
    | recordMailboxRuntimeProgress input =>
      simp only [StorePg.step, StorePg.recordMailboxRuntimeProgress, present, map_snd, id_eq]
      split
      · rfl
      · rfl
    | completeMailboxDrain runtime wakeRevision nowMs nextIdleAtMs =>
      simp only [StorePg.step, StorePg.completeMailboxDrain, present, map_snd, id_eq]
      split
      · rfl
      · rfl
    | saveRuntimeSummary input =>
      simp only [StorePg.step, StorePg.saveRuntimeSummary, present, map_snd, id_eq]
      split
      · rfl
      split
      · rfl
      · rfl
    | saveTranscriptCheckpoint checkpoint =>
      simp only [StorePg.step, StorePg.saveTranscriptCheckpoint, present, map_snd, id_eq]
      split
      · rfl
      · rfl

theorem reached_receiptInRow (reached : Store.Reached StoreMemory.step tables) :
    tables.receiptInRow = none := by
  induction reached with
  | empty => rfl
  | runtime operation _ ih => rw [step_receiptInRow, ih]
  | other _ keeps ih =>
    exact receiptInRow_none_iff.mpr (keeps.inRow (receiptInRow_none_iff.mp ih))

theorem reached_renewals (reached : Store.Reached StorePg.step tables) : tables.renewals = [] := by
  induction reached with
  | empty => rfl
  | runtime operation _ ih => rw [step_renewals, ih]
  | other _ keeps ih => rw [keeps.beside, ih]

theorem noRenewals_of_reached (memory : Store.Reached StoreMemory.step tables)
    (pg : Store.Reached StorePg.step tables) : tables.NoRenewals where
  beside := reached_renewals pg
  inRow := receiptInRow_none_iff.mp (reached_receiptInRow memory)

/-- Both stores answer alike and leave the same rows, operation by operation, exactly where
they agree on each. -/
theorem sameMachine_iff (memory : Store.Reached StoreMemory.step tables)
    (pg : Store.Reached StorePg.step tables) (operations : List RuntimeOperation) :
    Store.trace StoreMemory.step tables operations = Store.trace StorePg.step tables operations ↔
      EachAgrees tables operations := by
  induction operations generalizing tables with
  | nil => exact iff_of_true rfl trivial
  | cons operation rest ih =>
    have agreement := step_eq_iff (noRenewals_of_reached memory pg) operation
    rw [Store.trace, Store.trace, List.cons.injEq]
    constructor
    · rintro ⟨same, later⟩
      have pgNext : Store.Reached StorePg.step (StoreMemory.step tables operation).2 := by
        rw [same]
        exact .runtime operation pg
      rw [← same] at later
      exact ⟨agreement.mp same, (ih (.runtime operation memory) pgNext).mp later⟩
    rintro ⟨agrees, later⟩
    have same := agreement.mpr agrees
    have pgNext : Store.Reached StorePg.step (StoreMemory.step tables operation).2 := by
      rw [same]
      exact .runtime operation pg
    refine ⟨same, ?_⟩
    rw [← same]
    exact (ih (.runtime operation memory) pgNext).mpr later

end

def sampleWorkspace : RuntimeWorkspace where
  record :=
    { workspaceId := "workspace"
      accountId := "account"
      projectId := "project"
      buildId := "build"
      provider := "provider"
      providerSandboxId := some "sandbox"
      runtimeCredentialHash := some "credential"
      runtimeState := .online
      chatId := "chat"
      initialSessionId := "session"
      state := .ready
      desiredState := .ready
      statusCode := "ready"
      requestConfig :=
        { cloudMailboxWakePending := true
          cloudMailboxWakeRevision := some 1
          runtimeGeneration := some 1
          gatewayEpoch := some 1
          runtimeCredentialExpiresAtMs := some 100
          sessionHeadVersion := some 1 }
      nextActionAtMs := 50
      revision := 1
      updatedAtMs := 1
      lastActivityAtMs := 1 }
  members := { cloudCommandEnrollmentProtocolVersion := some 1 }

def sampleTables : RuntimeTables := { workspace := some sampleWorkspace }

theorem sampleTables_reached (store : Store) : Store.Reached store sampleTables :=
  .other .empty ⟨rfl, fun _ workspace present => by
    cases present
    rfl⟩

def sampleProgress : MailboxProgressInput where
  runtime := ⟨"account", 1⟩
  wakeRevision := 1
  mailboxRevision := 4
  fenceRequired := false
  nowMs := 10
  nextCheckAtMs := 60

theorem sameMachine_sample :
    EachAgrees sampleTables
      [.recordMailboxRuntimePoll ⟨"account", 1⟩ 5 60, .recordMailboxRuntimeProgress sampleProgress,
        .recordActivity "account" 12 70 true,
        .completeMailboxDrain ⟨"account", 1⟩ 1 20 80] :=
  (sameMachine_iff (sampleTables_reached _) (sampleTables_reached _) _).mp (by decide)

/-- A report that is repeated is a success in memory, and none in the database. -/
theorem not_sameMachine :
    ¬∀ tables, Store.Reached StoreMemory.step tables →
      Store.Reached StorePg.step tables → ∀ operations,
        Store.trace StoreMemory.step tables operations =
          Store.trace StorePg.step tables operations := by
  intro same
  have repeated := same sampleTables (sampleTables_reached _) (sampleTables_reached _)
    [.recordMailboxRuntimeProgress sampleProgress, .recordMailboxRuntimeProgress sampleProgress]
  exact absurd repeated (by decide)

end Zuse.Workspaces
