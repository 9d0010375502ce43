import Zuse.Billing.SnapshotReconciliation

namespace Zuse.Billing

open Zuse.Data List Option

inductive SnapshotCall where
  | ensurePeriod (input : BillingStore.PeriodInput)
  | prepareSnapshotIntent (build : SnapshotBuild) (snapshotId : String)
  | promoteRetainedSnapshot (build : SnapshotBuild) (storedReady : Bool)
  | deleteRetainedSnapshot (snapshotId : String) (building : Bool)
  | queueAccountSnapshotDeletion
  | reconcileSnapshotStorage (input : SnapshotTables.Reconciliation)
  | cleanupSnapshot (record : CloudSnapshotRecord) (input : SnapshotTables.Cleanup)

structure SnapshotStep where
  nowMs : Int
  call : SnapshotCall

/-- A snapshot that was stopped and is retained again. -/
structure StoragePause where
  snapshotId : String
  stoppedAtMs : Int
  resumedAtMs : Int

structure SnapshotWorld where
  tables : SnapshotTables
  clock : Int
  pauses : List StoragePause

namespace SnapshotTables

variable (configuration : SnapshotConfiguration) (tables : SnapshotTables)

def perform (nowMs : Int) : SnapshotCall → Option SnapshotTables
  | .ensurePeriod input =>
    (tables.billing.ensurePeriod input).map fun ensured =>
      { tables with billing := ensured.2 }
  | .prepareSnapshotIntent build snapshotId =>
    tables.prepareSnapshotIntent build snapshotId nowMs
  | .promoteRetainedSnapshot build storedReady =>
    tables.promoteRetainedSnapshot configuration build storedReady nowMs
  | .deleteRetainedSnapshot snapshotId building =>
    tables.deleteRetainedSnapshot configuration snapshotId building nowMs
  | .queueAccountSnapshotDeletion => tables.queueAccountSnapshotDeletion configuration nowMs
  | .reconcileSnapshotStorage input =>
    tables.reconcileSnapshotStorage configuration input nowMs
  | .cleanupSnapshot record input =>
    if record ∈ tables.snapshots then
      tables.cleanupSnapshot configuration input record nowMs
    else none

/-- The snapshots that were stopped before a call and are not after it. -/
def pausesBefore (nowMs : Int) (after : SnapshotTables) : List StoragePause :=
  tables.snapshots.filterMap fun record => record.stoppedAtMs.bind fun stoppedAtMs =>
    (after.get record.snapshotId).bind fun next =>
      if next.stoppedAtMs.isNone then
        some { snapshotId := record.snapshotId, stoppedAtMs, resumedAtMs := nowMs }
      else none

end SnapshotTables

namespace SnapshotWorld

variable (configuration : SnapshotConfiguration) (world : SnapshotWorld)

def step (label : SnapshotStep) : Option SnapshotWorld :=
  if world.clock ≤ label.nowMs then
    (world.tables.perform configuration label.nowMs label.call).map fun after =>
      { tables := after
        clock := label.nowMs
        pauses := world.pauses ++ world.tables.pausesBefore label.nowMs after }
  else none

def system (initialMs : Int) : TransitionSystem SnapshotWorld SnapshotStep where
  init := { tables := { snapshots := [], billing := .empty }, clock := initialMs, pauses := [] }
  step := step configuration

/-- The call brings no snapshot back with a remainder from before its checkpoint. -/
def carriesNothing (label : SnapshotStep) : Bool :=
  match label.call with
  | .cleanupSnapshot record input =>
    !world.tables.brings configuration input record label.nowMs ||
      record.remainder = 0 || record.checkpointAtMs = some label.nowMs
  | _ => true

/-- Storage is billed once, for the time that a snapshot is retained after the cutover. -/
structure BilledOnce (cutover : Option Int) (world : SnapshotWorld) : Prop where
  retainedOnce : ∀ left ∈ world.tables.snapshots, ∀ right ∈ world.tables.snapshots,
    left.state = .retained → right.state = .retained → left = right
  known : ∀ usage ∈ world.tables.billing.usage, ∃ record ∈ world.tables.snapshots,
    record.snapshotId = usage.resourceId
  disjoint : ∀ snapshotId, (world.tables.billing.storageUsages snapshotId).Pairwise
    fun left right => Disjoint (Set.Ico left.startedAt left.endedAt)
      (Set.Ico right.startedAt right.endedAt)
  within : ∀ record ∈ world.tables.snapshots,
    ∀ usage ∈ world.tables.billing.storageUsages record.snapshotId,
      ∃ retainedAtMs cutoverAtMs, record.retainedAtMs = some retainedAtMs ∧
        cutover = some cutoverAtMs ∧ max retainedAtMs cutoverAtMs ≤ usage.startedAt ∧
        usage.startedAt < usage.endedAt ∧
        ∀ stoppedAtMs, record.stoppedAtMs = some stoppedAtMs → usage.endedAt ≤ stoppedAtMs
  paused : ∀ pause ∈ world.pauses,
    ∀ usage ∈ world.tables.billing.storageUsages pause.snapshotId,
      Disjoint (Set.Ico usage.startedAt usage.endedAt) (Set.Ico pause.stoppedAtMs pause.resumedAtMs)

end SnapshotWorld

/-- Every stretch of entries without a gap, from where nothing was billed up to it, is billed
for its whole length. -/
def BillingStore.BilledExactly (store : BillingStore) : Prop :=
  ∀ snapshotId before stretch after,
    store.storageUsages snapshotId = before ++ stretch ++ after →
      IsStretch UsageRecord.startedAt UsageRecord.endedAt before stretch →
      (stretch.map (·.providerCostMicros)).sum =
        (stretch.map (spanLength UsageRecord.startedAt UsageRecord.endedAt)).sum *
          snapshotMonthMicros / snapshotMonthMs

namespace SnapshotTables

variable {exact : Prop} {nowMs : Int} {tables after : SnapshotTables}
  {configuration : SnapshotConfiguration}

theorem perform_spec {call : SnapshotCall} (sound : Sound exact configuration.cutover nowMs tables)
    (carried : ∀ record input, call = .cleanupSnapshot record input → exact →
      brings configuration tables input record nowMs = true →
      record.remainder = 0 ∨ record.checkpointAtMs = some nowMs)
    (performed : tables.perform configuration nowMs call = some after) :
    Sound exact configuration.cutover nowMs after ∧ Kept tables after ∧
      Resumes nowMs tables after := by
  have of_advances (advances : Advances exact configuration.cutover nowMs tables after) :
      Sound exact configuration.cutover nowMs after ∧ Kept tables after ∧
        Resumes nowMs tables after :=
    ⟨advances.sound, advances.kept, advances.resumes⟩
  cases call with
  | ensurePeriod input =>
    obtain ⟨⟨period, billed⟩, ensured, rfl⟩ := map_eq_some_iff.mp performed
    obtain ⟨storage, usage⟩ := BillingStore.ensurePeriod_storageSound sound.billing ensured
    exact of_advances (sound.rebills storage usage)
  | prepareSnapshotIntent build snapshotId =>
    exact of_advances (prepareSnapshotIntent_spec sound performed)
  | promoteRetainedSnapshot build storedReady =>
    exact of_advances (promoteRetainedSnapshot_spec sound performed)
  | deleteRetainedSnapshot snapshotId building =>
    exact of_advances (deleteRetainedSnapshot_spec sound performed)
  | queueAccountSnapshotDeletion =>
    exact of_advances (queueAccountSnapshotDeletion_spec sound performed)
  | reconcileSnapshotStorage input =>
    exact of_advances (reconcileSnapshotStorage_spec sound performed)
  | cleanupSnapshot record input =>
    rw [perform] at performed
    split at performed
    · rename_i member
      exact (cleanupSnapshot_spec sound member (carried record input rfl) performed).1
    · cases performed

def IsPause (tables : SnapshotTables) (pause : StoragePause) : Prop :=
  ∃ record ∈ tables.snapshots, record.snapshotId = pause.snapshotId ∧
    ∃ checkpoint, record.checkpointAtMs = some checkpoint ∧ pause.resumedAtMs ≤ checkpoint ∧
      ∀ usage ∈ tables.billing.storageUsages pause.snapshotId,
        usage.endedAt ≤ pause.stoppedAtMs ∨ pause.resumedAtMs ≤ usage.startedAt

variable {pause : StoragePause}

theorem IsPause.kept (isPause : tables.IsPause pause)
    (kept : Kept tables after) : after.IsPause pause := by
  obtain ⟨record, member, isRecord, checkpoint, known, resumed, apart⟩ := isPause
  obtain ⟨next, isNext, sameId, added, usages, grows⟩ := kept record member
  obtain ⟨later, isLater, onward, addedAfter⟩ := grows checkpoint known
  rw [isRecord] at sameId usages
  refine ⟨next, isNext, sameId, later, isLater, resumed.trans onward, ?_⟩
  rw [usages]
  intro usage isUsage
  rcases mem_append.mp isUsage with old | new
  · exact apart usage old
  · exact .inr (resumed.trans (addedAfter usage new))

theorem Resumes.isPause (resumes : Resumes nowMs tables after)
    (paused : pause ∈ tables.pausesBefore nowMs after) : after.IsPause pause := by
  obtain ⟨record, member, found⟩ := mem_filterMap.mp paused
  obtain ⟨stoppedAtMs, stopped, found⟩ := bind_eq_some_iff.mp found
  obtain ⟨next, got, found⟩ := bind_eq_some_iff.mp found
  split at found
  · rename_i running
    cases found
    obtain ⟨isNext, sameId⟩ := get_some got
    obtain ⟨checkpoint, before⟩ := resumes record member stoppedAtMs stopped next isNext sameId
      (isNone_iff_eq_none.mp running)
    exact ⟨next, isNext, sameId, nowMs, checkpoint, le_refl _, fun usage isUsage =>
      .inl (before usage isUsage)⟩
  · cases found

end SnapshotTables

namespace SnapshotWorld

variable {exact : Prop} {configuration : SnapshotConfiguration} {initialMs : Int}
  {world next : SnapshotWorld}

structure Sound (exact : Prop) (cutover : Option Int) (world : SnapshotWorld) : Prop where
  tables : world.tables.Sound exact cutover world.clock
  pauses : ∀ pause ∈ world.pauses, world.tables.IsPause pause

theorem sound_init (exact : Prop) (configuration : SnapshotConfiguration) (initialMs : Int) :
    Sound exact configuration.cutover (system configuration initialMs).init where
  tables :=
    { billing :=
        { sound :=
            { ledgered := forall_mem_nil _
              numbered := forall_mem_nil _
              owned := forall_mem_nil _
              exported := forall_mem_nil _
              cost := fun _ => rfl
              balanced := forall_mem_nil _
              distinct := nodup_nil }
          usages := forall_mem_nil _
          finalizations := forall_mem_nil _ }
      distinct := nodup_nil
      retainedOnce := forall_mem_nil _
      accounted := forall_mem_nil _
      placed := forall_mem_nil _
      timely := forall_mem_nil _
      known := forall_mem_nil _ }
  pauses := forall_mem_nil _

theorem step_sound (sound : Sound exact configuration.cutover world) {label : SnapshotStep}
    (carried : exact → world.carriesNothing configuration label = true)
    (stepped : world.step configuration label = some next) :
    Sound exact configuration.cutover next := by
  unfold step at stepped
  split at stepped
  · rename_i onward
    obtain ⟨after, performed, rfl⟩ := map_eq_some_iff.mp stepped
    obtain ⟨afterSound, kept, resumes⟩ := SnapshotTables.perform_spec
      (sound.tables.mono onward) (fun record input isCleanup isExact brought => by
        have nothing := carried isExact
        rw [carriesNothing, isCleanup] at nothing
        simpa [brought] using nothing) performed
    refine ⟨afterSound, fun pause isPause => ?_⟩
    rcases mem_append.mp isPause with old | new
    · exact (sound.pauses pause old).kept kept
    · exact resumes.isPause new
  · cases stepped

theorem sound_of_reachable (reachable : (system configuration initialMs).Reachable world) :
    Sound False configuration.cutover world :=
  reachable.invariant (sound_init False configuration initialMs)
    fun _ _ _ _ sound stepped => step_sound sound False.elim stepped

theorem exactlySound_of_reachable
    (reachable : ((system configuration initialMs).restrict fun world label =>
      world.carriesNothing configuration label = true).Reachable world) :
    Sound True configuration.cutover world := by
  induction reachable with
  | init => exact sound_init True configuration initialMs
  | step _ stepped ih =>
    obtain ⟨carried, stepped⟩ := TransitionSystem.restrict_step.mp stepped
    exact step_sound ih (fun _ => carried) stepped

theorem Sound.carries (sound : Sound exact configuration.cutover world) (snapshotId : String) :
    ∃ cursor remainder,
      Carries exact (world.tables.billing.storageUsages snapshotId) cursor remainder := by
  by_cases known : ∃ record ∈ world.tables.snapshots, record.snapshotId = snapshotId
  · obtain ⟨record, member, rfl⟩ := known
    have accounted := sound.tables.accounted record member
    rw [IsAccounted] at accounted
    split at accounted
    · rw [accounted.1]
      exact ⟨0, 0, Carries.empty 0⟩
    · obtain ⟨checkpoint, accounted⟩ := accounted
      exact ⟨checkpoint, record.remainder, accounted.carries⟩
  have nothing : world.tables.billing.storageUsages snapshotId = [] := by
    rw [BillingStore.storageUsages, filter_eq_nil_iff]
    intro usage isUsage same
    obtain ⟨record, member, isRecord⟩ := sound.tables.known usage isUsage
    exact known ⟨record, member, isRecord.trans (of_decide_eq_true same)⟩
  rw [nothing]
  exact ⟨0, 0, Carries.empty 0⟩

theorem Sound.billedOnce (sound : Sound exact configuration.cutover world) :
    BilledOnce configuration.cutover world where
  retainedOnce := sound.tables.retainedOnce
  known := sound.tables.known
  disjoint := by
    intro snapshotId
    obtain ⟨_, _, carries⟩ := sound.carries snapshotId
    refine carries.ordered.imp fun {left right} before => ?_
    rw [Set.Ico_disjoint_Ico]
    exact ((min_le_left _ _).trans before).trans (le_max_right _ _)
  within := by
    intro record member usage isUsage
    have accounted := sound.tables.accounted record member
    rw [IsAccounted] at accounted
    split at accounted
    · rw [accounted.1] at isUsage
      cases isUsage
    rename_i retainedAtMs retained
    obtain ⟨checkpoint, accounted⟩ := accounted
    obtain ⟨cutoverAtMs, isCutover, within⟩ := accounted.within usage isUsage
    exact ⟨retainedAtMs, cutoverAtMs, retained, isCutover, within,
      accounted.carries.forward usage isUsage, fun stoppedAtMs stopped =>
        (accounted.carries.before usage isUsage).trans (accounted.stopped stoppedAtMs stopped)⟩
  paused := by
    intro pause isPause usage isUsage
    obtain ⟨_, _, _, _, _, _, apart⟩ := sound.pauses pause isPause
    rw [Set.Ico_disjoint_Ico]
    rcases apart usage isUsage with before | after
    · exact ((min_le_left _ _).trans before).trans (le_max_right _ _)
    · exact ((min_le_right _ _).trans after).trans (le_max_left _ _)

theorem Sound.billedExactly (sound : Sound True configuration.cutover world) :
    world.tables.billing.BilledExactly := by
  intro snapshotId before stretch after split isStretch
  obtain ⟨_, _, carries⟩ := sound.carries snapshotId
  obtain ⟨_, prorated, _⟩ := carries.prorated trivial
  exact Prorated.exact (by decide) prorated split isStretch

/-- Storage is billed once in every run, and exactly in the runs that bring no snapshot back
with a remainder from before its checkpoint. -/
theorem billed_of_reachable (configuration : SnapshotConfiguration) (initialMs : Int) :
    (∀ world, (system configuration initialMs).Reachable world →
      BilledOnce configuration.cutover world) ∧
      ∀ world, ((system configuration initialMs).restrict fun world label =>
        world.carriesNothing configuration label = true).Reachable world →
          world.tables.billing.BilledExactly :=
  ⟨fun _ reachable => (sound_of_reachable reachable).billedOnce,
    fun _ reachable => (exactlySound_of_reachable reachable).billedExactly⟩

def paidEntitlement : Entitlement where
  offerId := some cloudWorkspaceOfferId
  provider := "stripe"
  providerSubscriptionId := some "subscription"
  status := .active
  periodStartMs := some 0
  paidThroughMs := some 10000000000

def enforcedConfiguration : SnapshotConfiguration where
  accountId := "account"
  cutover := some 0
  enforced := true

def savedBuild : SnapshotBuild where
  buildId := "build"
  provider := "box"
  customerOwned := false
  snapshotId := some "zuse-build"

def reconciling (entitlements : List Entitlement) (nowMs : Int) : SnapshotStep where
  nowMs
  call := .reconcileSnapshotStorage
    { entitlements
      reservedProviderCostMicros := 0
      isMissing := fun _ => false
      buildFailed := fun _ => false }

def expiredRecord : CloudSnapshotRecord where
  snapshotId := "zuse-build"
  buildId := "build"
  state := .deleting
  createdAtMs := 0
  retainedAtMs := some 0
  stoppedAtMs := some 612000000
  deletionReason := some .expiry
  checkpointAtMs := some 612000000
  remainder := 2304000000
  graceUntilMs := some 612000000
  attempts := 0
  nextAttemptAtMs := 612000000

def reviving (nowMs : Int) : SnapshotStep where
  nowMs
  call := .cleanupSnapshot expiredRecord
    { entitlements := [paidEntitlement]
      reservedProviderCostMicros := 0
      isRestoring := fun _ => false
      deletion := fun _ => .deleted }

def expiredSteps : List SnapshotStep :=
  [{ nowMs := 0, call := .prepareSnapshotIntent savedBuild "zuse-build" },
    { nowMs := 0, call := .promoteRetainedSnapshot savedBuild false },
    reconciling [paidEntitlement] 3600000,
    reconciling [] 7200000,
    reconciling [] 612000000]

def revivedSteps (revivedAtMs deletedAtMs : Int) : List SnapshotStep :=
  expiredSteps ++
    [reviving revivedAtMs,
      { nowMs := deletedAtMs, call := .deleteRetainedSnapshot "zuse-build" false }]

theorem billed_of_revivedAtCheckpoint :
    ∃ world, ((system enforcedConfiguration 0).restrict fun world label =>
        world.carriesNothing enforcedConfiguration label = true).run
          (revivedSteps 612000000 615700000) = some world ∧
      (world.tables.billing.storageUsages "zuse-build").length = 4 ∧
      BilledOnce (some 0) world ∧ world.tables.billing.BilledExactly := by
  have runs : (((system enforcedConfiguration 0).restrict fun world label =>
      world.carriesNothing enforcedConfiguration label = true).run
        (revivedSteps 612000000 615700000)).any (fun world =>
          (world.tables.billing.storageUsages "zuse-build").length = 4) = true := by
    decide +kernel
  obtain ⟨world, ran, length⟩ := (any_eq_true _ _).mp runs
  have reachable := TransitionSystem.run_reachable ran
  obtain ⟨once, exactly⟩ := billed_of_reachable enforcedConfiguration 0
  exact ⟨world, ran, of_decide_eq_true length, once world reachable.of_restrict,
    exactly world reachable⟩

theorem not_billedExactly_of_reachable :
    ¬∀ (configuration : SnapshotConfiguration) (initialMs : Int) (world : SnapshotWorld),
      (system configuration initialMs).Reachable world →
        BilledOnce configuration.cutover world ∧ world.tables.billing.BilledExactly := by
  intro always
  -- the entries from the third one on are those after the snapshot is brought back
  have runs : ((system enforcedConfiguration 0).run
      (revivedSteps 612003600 615703600)).any (fun world =>
        let usages := world.tables.billing.storageUsages "zuse-build"
        let later := usages.drop 3
        decide (later.length = 1) &&
          decide (∀ last ∈ (usages.take 3).getLast?, ∀ head ∈ later.head?,
            last.endedAt ≠ head.startedAt) &&
          decide ((later.map (·.providerCostMicros)).sum ≠
            (later.map (spanLength UsageRecord.startedAt UsageRecord.endedAt)).sum *
              snapshotMonthMicros / snapshotMonthMs)) = true := by
    decide +kernel
  obtain ⟨world, ran, observed⟩ := (any_eq_true _ _).mp runs
  simp only [Bool.and_eq_true, decide_eq_true_eq] at observed
  obtain ⟨⟨single, apart⟩, charged⟩ := observed
  obtain ⟨_, exactly⟩ := always enforcedConfiguration 0 world (TransitionSystem.run_reachable ran)
  obtain ⟨usage, isUsage⟩ := length_eq_one_iff.mp single
  refine charged (exactly "zuse-build" ((world.tables.billing.storageUsages "zuse-build").take 3)
    ((world.tables.billing.storageUsages "zuse-build").drop 3) [] ?_ ⟨?_, ?_, apart⟩)
  · rw [append_nil, take_append_drop]
  · rw [isUsage]
    exact cons_ne_nil _ _
  · rw [isUsage]
    exact isChain_singleton _

end SnapshotWorld

end Zuse.Billing
