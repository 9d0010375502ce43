import Zuse.Workspaces.RuntimeStore
import Zuse.Workspaces.RuntimeStorePg

namespace Zuse.Workspaces

open Option RuntimeTables CloudWorkspaceRecord

/-! The two stores, operation by operation: where one does as the other. -/

variable {tables : RuntimeTables} {workspace : RuntimeWorkspace}

/-- The intents of a workspace that are read before they expire. -/
def IntentAgrees (tables : RuntimeTables) (nowMs : Int) : Prop :=
  ∀ intent ∈ tables.launchIntent, nowMs < intent.expiresAtMs

theorem getLaunchIntent_agrees (nowMs : Int) :
    StoreMemory.getLaunchIntent tables nowMs = StorePg.getLaunchIntent tables nowMs ↔
      IntentAgrees tables nowMs := by
  rcases tables with ⟨workspace, _ | intent, renewals, summary, checkpoints⟩
  · simp [StoreMemory.getLaunchIntent, StorePg.getLaunchIntent, StorePg.unexpiredIntent,
      IntentAgrees]
  by_cases live : nowMs < intent.expiresAtMs
  · simp [StoreMemory.getLaunchIntent, StorePg.getLaunchIntent, StorePg.unexpiredIntent,
      IntentAgrees, filter_some, live]
  · simp [StoreMemory.getLaunchIntent, StorePg.getLaunchIntent, StorePg.unexpiredIntent,
      IntentAgrees, filter_some, live]

theorem completeLaunchIntent_agrees (input : CompleteLaunchIntentInput) :
    StoreMemory.completeLaunchIntent tables input = StorePg.completeLaunchIntent tables input := by
  unfold StoreMemory.completeLaunchIntent StorePg.completeLaunchIntent
  cases tables.workspace with
  | none => rfl
  | some workspace =>
    dsimp only
    rw [isNone_map]

theorem acknowledgeRuntimeBoot_agrees (input : RuntimeBootstrapAcknowledgementInput) :
    StoreMemory.acknowledgeRuntimeBoot tables input =
      StorePg.acknowledgeRuntimeBoot tables input := by
  unfold StoreMemory.acknowledgeRuntimeBoot StorePg.acknowledgeRuntimeBoot
  cases tables.workspace with
  | none => rfl
  | some workspace =>
    dsimp only
    cases workspace.record.requestConfig.runtimeBootstrapReceipt with
    | none => rfl
    | some receipt =>
      dsimp only
      split
      · rfl
      rename_i allowed
      have current : workspace.record.runtimeCredentialHash = some input.currentCredentialHash := by
        simp only [canAcknowledgeRuntimeBoot, Bool.and_eq_true, decide_eq_true_eq,
          Bool.not_eq_false] at allowed
        exact allowed.1.1.1.1.1
      rw [if_pos current]
      rfl

/-- A runtime that the store in memory lets enroll. A first enrollment asks for a stored
generation and a stored expiry, and for a duration that was not measured before; a repeated
one for the credential of the receipt. -/
def EnrollAgrees (workspace : RuntimeWorkspace) (input : RuntimeBootstrapEnrollmentInput) :
    Prop :=
  StoreMemory.mayEnroll workspace input →
    match workspace.record.requestConfig.runtimeBootstrapReceipt with
    | none =>
      (input.generation = workspace.record.cloudWorkspaceRuntimeGeneration →
        input.gatewayEpoch = workspace.record.cloudWorkspaceGatewayEpoch →
          workspace.record.requestConfig.runtimeGeneration.isSome ∧
            workspace.record.runtimeBootTokenExpiresAtMs.isSome ∧
            (workspace.members.startupTimings.allocatedAt.isSome ∨
              workspace.members.startupTimings.enrollmentDurationMs.isNone)) ∧
      (StorePg.sameRuntime workspace input →
        workspace.record.requestConfig.runtimeGeneration.isSome ∨
          workspace.record.runtimeBootTokenExpiresAtMs.isNone)
    | some prior =>
      StoreMemory.receiptMatches prior input →
        workspace.record.runtimeBootTokenExpiresAtMs.isSome ∧
          prior.runtimeCredentialHash = input.runtimeCredentialHash

theorem RuntimeTables.withWorkspace_inj {first second : RuntimeWorkspace} :
    tables.withWorkspace first = tables.withWorkspace second ↔ first = second := by
  rw [withWorkspace, withWorkspace]
  simp

theorem unexpired_getD {expiresAtMs : Option Int} {nowMs : Int} (stored : expiresAtMs.isSome) :
    unexpired expiresAtMs nowMs = decide (nowMs < expiresAtMs.getD 0) := by
  obtain ⟨expiry, rfl⟩ := isSome_iff_exists.mp stored
  rfl

theorem enrolledIntent_eq (nowMs : Int) :
    StoreMemory.enrolledIntent tables nowMs = StorePg.unexpiredIntent tables nowMs := by
  unfold StoreMemory.enrolledIntent StorePg.unexpiredIntent
  cases tables.launchIntent with
  | none => exact ite_self _
  | some intent => rw [filter_some]; simp

variable {input : RuntimeBootstrapEnrollmentInput}

theorem mayEnroll_of_expiry (stored : workspace.record.runtimeBootTokenExpiresAtMs.isSome) :
    StorePg.mayEnroll workspace input = StoreMemory.mayEnroll workspace input := by
  rw [StorePg.mayEnroll, StoreMemory.mayEnroll, unexpired_getD stored]

theorem not_mayEnroll_of_noExpiry (missing : workspace.record.runtimeBootTokenExpiresAtMs = none) :
    StorePg.mayEnroll workspace input = false := by
  rw [StorePg.mayEnroll, missing]
  simp [unexpired]

theorem mayEnroll_of_pg (allowed : StorePg.mayEnroll workspace input) :
    StoreMemory.mayEnroll workspace input := by
  cases expiry : workspace.record.runtimeBootTokenExpiresAtMs with
  | none =>
    rw [not_mayEnroll_of_noExpiry expiry] at allowed
    exact absurd allowed Bool.false_ne_true
  | some expiresAtMs =>
    rwa [← mayEnroll_of_expiry (by rw [expiry]; rfl)]

theorem tokenHash_of_mayEnroll (allowed : StoreMemory.mayEnroll workspace input) :
    workspace.record.runtimeBootTokenHash = some input.bootTokenHash := by
  simp only [StoreMemory.mayEnroll, Bool.and_eq_true, decide_eq_true_eq] at allowed
  exact allowed.1.1.1.1

variable {prior : RuntimeBootstrapReceipt}

theorem receiptMatches_pg :
    StorePg.receiptMatches prior input =
      (StoreMemory.receiptMatches prior input &&
        decide (prior.runtimeCredentialHash = input.runtimeCredentialHash)) := rfl

theorem sameRuntime_of_generation
    (stored : workspace.record.requestConfig.runtimeGeneration.isSome) :
    StorePg.sameRuntime workspace input =
      decide (input.generation = workspace.record.cloudWorkspaceRuntimeGeneration ∧
        input.gatewayEpoch = workspace.record.cloudWorkspaceGatewayEpoch) := by
  obtain ⟨generation, known⟩ := isSome_iff_exists.mp stored
  simp [StorePg.sameRuntime, cloudWorkspaceGatewayEpoch,
    cloudWorkspaceRuntimeGeneration, known, eq_comm]

theorem not_sameRuntime_of_noGeneration
    (missing : workspace.record.requestConfig.runtimeGeneration = none)
    (same : input.generation = workspace.record.cloudWorkspaceRuntimeGeneration) :
    StorePg.sameRuntime workspace input = false := by
  rw [cloudWorkspaceRuntimeGeneration] at same
  simp [StorePg.sameRuntime, missing, same]

theorem enrolled_eq_iff (input : RuntimeBootstrapEnrollmentInput) :
    StoreMemory.enrolled workspace input = StorePg.enrolled workspace input ↔
      workspace.members.startupTimings.allocatedAt.isSome ∨
        workspace.members.startupTimings.enrollmentDurationMs.isNone := by
  rw [StoreMemory.enrolled, StorePg.enrolled, StorePg.enrolledTimings]
  cases allocated : workspace.members.startupTimings.allocatedAt with
  | none =>
    cases duration : workspace.members.startupTimings.enrollmentDurationMs with
    | none => simp [allocated]
    | some value => simp
  | some allocatedAt => simp [allocated]

theorem enrollRuntimeBoot_fresh (present : tables.workspace = some workspace)
    (fresh : workspace.record.requestConfig.runtimeBootstrapReceipt = none) :
    StoreMemory.enrollRuntimeBoot tables input = StorePg.enrollRuntimeBoot tables input ↔
      EnrollAgrees workspace input := by
  rw [StoreMemory.enrollRuntimeBoot, StorePg.enrollRuntimeBoot, EnrollAgrees, present]
  simp only [fresh, filter_none]
  cases allowed : StoreMemory.mayEnroll workspace input with
  | false =>
    have refused : ¬StorePg.mayEnroll workspace input := by
      intro granted
      rw [mayEnroll_of_pg granted] at allowed
      exact Bool.false_ne_true allowed.symm
    simp [refused]
  | true =>
    cases expiry : workspace.record.runtimeBootTokenExpiresAtMs with
    | none =>
      simp [not_mayEnroll_of_noExpiry expiry]
    | some expiresAtMs =>
      rw [mayEnroll_of_expiry (by rw [expiry]; rfl), allowed]
      by_cases same : input.generation = workspace.record.cloudWorkspaceRuntimeGeneration ∧
          input.gatewayEpoch = workspace.record.cloudWorkspaceGatewayEpoch
      · cases known : workspace.record.requestConfig.runtimeGeneration with
        | none => simp [same, not_sameRuntime_of_noGeneration known same.1]
        | some generation =>
          rw [sameRuntime_of_generation (by rw [known]; rfl)]
          simp only [same, enrolledIntent_eq]
          simp [withWorkspace_inj, enrolled_eq_iff]
      have differs : input.generation ≠ workspace.record.cloudWorkspaceRuntimeGeneration ∨
          input.gatewayEpoch ≠ workspace.record.cloudWorkspaceGatewayEpoch :=
        not_and_or.mp same
      cases known : workspace.record.requestConfig.runtimeGeneration with
      | none =>
        simp [differs]
        exact fun _ generation epoch => same ⟨generation, epoch⟩
      | some generation =>
        rw [sameRuntime_of_generation (by rw [known]; rfl)]
        simp [same, differs]
        exact fun generation epoch => absurd ⟨generation, epoch⟩ same

theorem enrollRuntimeBoot_repeated (present : tables.workspace = some workspace)
    (before : workspace.record.requestConfig.runtimeBootstrapReceipt = some prior) :
    StoreMemory.enrollRuntimeBoot tables input = StorePg.enrollRuntimeBoot tables input ↔
      EnrollAgrees workspace input := by
  rw [StoreMemory.enrollRuntimeBoot, StorePg.enrollRuntimeBoot, EnrollAgrees, present]
  simp only [before, filter_some, receiptMatches_pg]
  cases allowed : StoreMemory.mayEnroll workspace input with
  | false =>
    have refused : ¬StorePg.mayEnroll workspace input := by
      intro granted
      rw [mayEnroll_of_pg granted] at allowed
      exact Bool.false_ne_true allowed.symm
    simp [refused]
    split
    · rfl
    · rfl
  | true =>
    rw [if_pos (decide_eq_true (tokenHash_of_mayEnroll allowed))]
    cases expiry : workspace.record.runtimeBootTokenExpiresAtMs with
    | none => simp [not_mayEnroll_of_noExpiry expiry]
    | some expiresAtMs =>
      rw [mayEnroll_of_expiry (by rw [expiry]; rfl), allowed]
      by_cases answers : StoreMemory.receiptMatches prior input
      · by_cases credential : prior.runtimeCredentialHash = input.runtimeCredentialHash
        · simp [answers, credential, enrolledIntent_eq]
        · simp [answers, credential]
      · simp [answers]

theorem enrollRuntimeBoot_agrees (input : RuntimeBootstrapEnrollmentInput) :
    StoreMemory.enrollRuntimeBoot tables input = StorePg.enrollRuntimeBoot tables input ↔
      ∀ workspace ∈ tables.workspace, EnrollAgrees workspace input := by
  cases present : tables.workspace with
  | none => simp [StoreMemory.enrollRuntimeBoot, StorePg.enrollRuntimeBoot, present]
  | some workspace =>
    simp only [mem_def, some.injEq, forall_eq']
    cases receipt : workspace.record.requestConfig.runtimeBootstrapReceipt with
    | none => exact enrollRuntimeBoot_fresh present receipt
    | some prior => exact enrollRuntimeBoot_repeated present receipt

/-- A report that is not held up by an earlier one: where the agent is online, the row says
what the launch of its session makes of it; and a runtime that only connects has a bridge
known, and does not connect for the first time with its agent online. -/
def ReadyAgrees (workspace : RuntimeWorkspace) (input : RuntimeRepositoryReadyInput) : Prop :=
  StoreMemory.mayBecomeReady workspace input →
    (StoreMemory.agentOnline workspace →
      (workspace.record.state = if workspace.record.launchPending then .setup else .ready) ∧
      (workspace.record.statusCode =
        if workspace.record.launchPending then "agent-starting"
        else workspace.completedLaunchStatus)) ∧
    (input.repositoryReady = some false →
      (input.deviceBridgeVersion.isSome ∨ workspace.members.deviceBridgeVersion.isSome) ∧
      (StoreMemory.agentOnline workspace →
        workspace.members.startupTimings.repositoryReadyAt.isSome))

theorem mayBecomeReady_eq (input : RuntimeRepositoryReadyInput) :
    StoreMemory.mayBecomeReady workspace input = StorePg.mayBecomeReady workspace input := by
  simp [StoreMemory.mayBecomeReady, StorePg.mayBecomeReady, Bool.and_assoc]

theorem launched_eq : StorePg.launched workspace = !workspace.record.launchPending := by
  simp [StorePg.launched, launchPending]

theorem readyDeadline_eq (input : RuntimeRepositoryReadyInput) :
    StoreMemory.readyDeadline workspace input = StorePg.readyDeadline workspace input := by
  rw [StoreMemory.readyDeadline, StorePg.readyDeadline, launched_eq]
  cases workspace.record.launchPending with
  | true | false => rfl

theorem readyCommandProtocol_eq (input : RuntimeRepositoryReadyInput) :
    StoreMemory.readyCommandProtocol workspace input =
      StorePg.readyCommandProtocol workspace input := by
  rw [StoreMemory.readyCommandProtocol, StorePg.readyCommandProtocol]
  cases input.commandProtocolVersion with
  | none | some version => rfl

theorem readyDeviceBridge_eq_iff (input : RuntimeRepositoryReadyInput) :
    StoreMemory.readyDeviceBridge workspace input = StorePg.readyDeviceBridge workspace input ↔
      (input.repositoryReady = some false →
        input.deviceBridgeVersion.isSome ∨ workspace.members.deviceBridgeVersion.isSome) := by
  rw [StoreMemory.readyDeviceBridge, StorePg.readyDeviceBridge]
  cases input.deviceBridgeVersion with
  | some version => simp
  | none =>
    by_cases connecting : input.repositoryReady = some false
    · cases workspace.members.deviceBridgeVersion with
      | none | some known => simp [connecting]
    · simp [connecting]

theorem readyState_eq_iff (input : RuntimeRepositoryReadyInput) :
    StoreMemory.readyState workspace input = StorePg.readyState workspace input ↔
      (StoreMemory.agentOnline workspace →
        workspace.record.state =
          if workspace.record.launchPending then .setup else .ready) := by
  rw [StoreMemory.readyState, StorePg.readyState, StoreMemory.connectionOnly, launched_eq,
    show StorePg.agentOnline workspace = StoreMemory.agentOnline workspace from rfl]
  cases StoreMemory.agentOnline workspace with
  | true =>
    simp
    exact eq_comm
  | false =>
    by_cases connecting : input.repositoryReady = some false
    · simp [connecting]
    · cases workspace.record.launchPending with
      | true => simp
      | false => simp [connecting]

theorem readyStatusCode_eq_iff (input : RuntimeRepositoryReadyInput) :
    StoreMemory.readyStatusCode workspace input = StorePg.readyStatusCode workspace input ↔
      (StoreMemory.agentOnline workspace →
        workspace.record.statusCode =
          if workspace.record.launchPending then "agent-starting"
          else workspace.completedLaunchStatus) := by
  rw [StoreMemory.readyStatusCode, StorePg.readyStatusCode, StoreMemory.connectionOnly, launched_eq,
    show StorePg.agentOnline workspace = StoreMemory.agentOnline workspace from rfl]
  cases StoreMemory.agentOnline workspace with
  | true =>
    simp
    exact eq_comm
  | false =>
    by_cases connecting : input.repositoryReady = some false
    · simp [connecting]
    · cases workspace.record.launchPending with
      | true => simp [connecting]
      | false => simp [connecting, RuntimeWorkspace.completedLaunchStatus]

theorem repositoryReadyAt_eq_iff (input : RuntimeRepositoryReadyInput) :
    (StoreMemory.readied workspace input).members.startupTimings.repositoryReadyAt =
        (StorePg.readied workspace input).members.startupTimings.repositoryReadyAt ↔
      (input.repositoryReady = some false → StoreMemory.agentOnline workspace →
        workspace.members.startupTimings.repositoryReadyAt.isSome) := by
  simp only [StoreMemory.readied, StorePg.readied, StoreMemory.connectionOnly]
  by_cases connecting : input.repositoryReady = some false
  · by_cases online : StoreMemory.agentOnline workspace
    · cases readyAt : workspace.members.startupTimings.repositoryReadyAt with
      | none | some time => simp [connecting, online]
    · simp [connecting, online]
  · simp [connecting]

theorem readied_eq_iff (input : RuntimeRepositoryReadyInput) :
    StoreMemory.readied workspace input = StorePg.readied workspace input ↔
      StoreMemory.readyState workspace input = StorePg.readyState workspace input ∧
      StoreMemory.readyStatusCode workspace input = StorePg.readyStatusCode workspace input ∧
      StoreMemory.readyDeviceBridge workspace input = StorePg.readyDeviceBridge workspace input ∧
      (StoreMemory.readied workspace input).members.startupTimings.repositoryReadyAt =
        (StorePg.readied workspace input).members.startupTimings.repositoryReadyAt := by
  constructor
  · intro same
    exact ⟨congrArg (·.record.state) same, congrArg (·.record.statusCode) same,
      congrArg (·.members.deviceBridgeVersion) same,
      congrArg (·.members.startupTimings.repositoryReadyAt) same⟩
  · rintro ⟨state, statusCode, bridge, readyAt⟩
    simp only [StoreMemory.readied, StorePg.readied] at readyAt ⊢
    rw [state, statusCode, bridge, readyAt, readyDeadline_eq, readyCommandProtocol_eq]

theorem markRuntimeRepositoryReady_agrees (input : RuntimeRepositoryReadyInput) :
    StoreMemory.markRuntimeRepositoryReady tables input =
        StorePg.markRuntimeRepositoryReady tables input ↔
      ∀ workspace ∈ tables.workspace, ReadyAgrees workspace input := by
  rw [StoreMemory.markRuntimeRepositoryReady, StorePg.markRuntimeRepositoryReady]
  cases tables.workspace with
  | none => simp
  | some workspace =>
    simp only [mem_def, some.injEq, forall_eq', ReadyAgrees, ← mayBecomeReady_eq]
    cases StoreMemory.mayBecomeReady workspace input with
    | false => simp
    | true =>
      simp only [if_true, Prod.mk.injEq, some.injEq,
        withWorkspace_inj, and_self, readied_eq_iff, readyState_eq_iff,
        readyStatusCode_eq_iff, readyDeviceBridge_eq_iff, repositoryReadyAt_eq_iff,
        true_imp_iff]
      tauto

structure RuntimeTables.NoRenewals (tables : RuntimeTables) : Prop where
  beside : tables.renewals = []
  inRow : ∀ workspace ∈ tables.workspace,
    workspace.record.requestConfig.runtimeCredentialRenewal = none

/-- The store in memory keeps its receipts beside the row, and the other one in it. -/
def RenewalAgrees (workspace : RuntimeWorkspace) (input : RuntimeCredentialRenewalInput) :
    Prop :=
  runtimeCredentialRenewalDecision (some workspace) input none ≠ .renew

theorem renewRuntimeCredential_agrees (fresh : tables.NoRenewals)
    (input : RuntimeCredentialRenewalInput) :
    StoreMemory.renewRuntimeCredential tables input = StorePg.renewRuntimeCredential tables input ↔
      ∀ workspace ∈ tables.workspace, RenewalAgrees workspace input := by
  rw [StoreMemory.renewRuntimeCredential, StorePg.renewRuntimeCredential]
  have inRow := fresh.inRow
  cases present : tables.workspace with
  | none => simp
  | some workspace =>
    simp only [mem_def, some.injEq, forall_eq', RenewalAgrees, fresh.beside, List.find?_nil]
    rw [inRow workspace present]
    cases runtimeCredentialRenewalDecision (some workspace) input none with
    | reject | replay => simp
    | renew =>
      simp only [Prod.mk.injEq, true_and, ne_eq, not_true_eq_false, iff_false]
      intro same
      have receipts := congrArg renewals same
      simp [withWorkspace, fresh.beside] at receipts

end Zuse.Workspaces
