import Zuse.Billing.SnapshotCalls

namespace Zuse.Billing

open Zuse.Data Option List

namespace BillingStore

variable {store next : BillingStore}

theorem ensurePeriod_storageSound (sound : store.StorageSound) {input : PeriodInput}
    {period : BillingPeriod} (ensured : store.ensurePeriod input = some (period, next)) :
    next.StorageSound ∧ next.usage = store.usage := by
  obtain ⟨usage, finalizations⟩ := ensurePeriod_kept ensured
  refine ⟨⟨ensurePeriod_sound sound.sound ensured, ?_, ?_⟩, usage⟩
  · rw [usage]
    exact sound.usages
  · rw [usage, finalizations]
    exact sound.finalizations

theorem ensureAccountCloudBillingPeriod_storageSound (sound : store.StorageSound)
    {accountId : String} {entitlements : List Entitlement} {nowMs : Int}
    {period : Option BillingPeriod}
    (ensured : store.ensureAccountCloudBillingPeriod accountId entitlements nowMs =
      some (period, next)) :
    next.StorageSound ∧ next.usage = store.usage := by
  unfold ensureAccountCloudBillingPeriod at ensured
  split at ensured
  · cases ensured
    exact ⟨sound, rfl⟩
  · obtain ⟨⟨_, _⟩, opened, same⟩ := map_eq_some_iff.mp ensured
    cases same
    exact ensurePeriod_storageSound sound opened

end BillingStore

namespace SnapshotTables

variable {exact : Prop} {cutover : Option Int} {nowMs : Int} {tables after : SnapshotTables}

theorem Sound.rebills {billed : BillingStore} (sound : Sound exact cutover nowMs tables)
    (storage : billed.StorageSound) (usage : billed.usage = tables.billing.usage) :
    Advances exact cutover nowMs tables { tables with billing := billed } := by
  have usages (snapshotId : String) :
      billed.storageUsages snapshotId = tables.billing.storageUsages snapshotId := by
    rw [BillingStore.storageUsages, usage]
    rfl
  refine ⟨⟨storage, sound.distinct, sound.retainedOnce, ?_, sound.placed, sound.timely, ?_⟩, ?_, ?_⟩
  · intro record member
    rw [usages]
    exact sound.accounted record member
  · rw [usage]
    exact sound.known
  · refine fun record member => ⟨record, member, rfl, [], ?_, fun checkpoint known =>
      ⟨checkpoint, known, le_refl _, forall_mem_nil _⟩⟩
    rw [append_nil]
    exact usages record.snapshotId
  · exact fun record member stopped => ⟨record, member, rfl, stopped⟩

theorem detectMissing_cases (input : Reconciliation) (record : CloudSnapshotRecord) (nowMs : Int) :
    SameStorage (detectMissing input record nowMs) record ∧
      Stops nowMs record.stoppedAtMs (detectMissing input record nowMs).stoppedAtMs ∧
      (record.IsPlaced → (detectMissing input record nowMs).IsPlaced) := by
  unfold detectMissing
  split
  · exact ⟨⟨rfl, rfl, rfl, rfl, rfl⟩, .inr rfl, fun _ => ⟨rfl, fun expired => by cases expired⟩⟩
  · exact ⟨⟨rfl, rfl, rfl, rfl, rfl⟩, .inl rfl, id⟩

theorem enforceGrace_cases (status : CloudBillingStatus) (record : CloudSnapshotRecord)
    (nowMs : Int) (retained : record.retainedAtMs.isSome = true) :
    SameStorage (enforceGrace status record nowMs) record ∧
      Stops nowMs record.stoppedAtMs (enforceGrace status record nowMs).stoppedAtMs ∧
      (record.IsPlaced → (enforceGrace status record nowMs).IsPlaced) := by
  unfold enforceGrace
  split
  · exact ⟨⟨rfl, rfl, rfl, rfl, rfl⟩, .inl rfl, fun placed => placed.congr rfl rfl rfl rfl⟩
  split
  · exact ⟨⟨rfl, rfl, rfl, rfl, rfl⟩, .inl rfl, fun placed => placed.congr rfl rfl rfl rfl⟩
  · split
    · exact ⟨⟨rfl, rfl, rfl, rfl, rfl⟩, .inr rfl, fun _ => ⟨rfl, fun _ => retained⟩⟩
    · exact ⟨⟨rfl, rfl, rfl, rfl, rfl⟩, .inl rfl, id⟩

theorem Spares.refl (record : CloudSnapshotRecord) (tables : SnapshotTables) :
    Spares record tables tables :=
  fun _ member _ => member

variable {configuration : SnapshotConfiguration} {record : CloudSnapshotRecord}

section

variable (sound : Sound exact configuration.cutover nowMs tables)
include sound

variable {input : Reconciliation} {period : Option BillingPeriod}

theorem reconcileRecord_spec (member : record ∈ tables.snapshots)
    (reconciled : tables.reconcileRecord configuration input period record nowMs = some after) :
    Advances exact configuration.cutover nowMs tables after ∧ Spares record tables after := by
  have placed := sound.placed record member
  have same : SameStorage record record := ⟨rfl, rfl, rfl, rfl, rfl⟩
  have settledOnly {settled : CloudSnapshotRecord} {billed : BillingStore}
      (settles : tables.billing.settleSnapshot configuration.accountId configuration.cutover
        record nowMs = some (settled, billed))
      (saved : ({ tables with billing := billed } : SnapshotTables).save settled = some after) :
      Advances exact configuration.cutover nowMs tables after ∧
        Spares record tables after := by
    obtain ⟨added, settles⟩ := sound.settles member same (.inl rfl) settles
    have state := settles.field (·.state) fun _ _ => rfl
    have stop := settles.field (·.stoppedAtMs) fun _ _ => rfl
    have settledPlaced := placed.congr state (settles.field (·.retainedAtMs) fun _ _ => rfl) stop
      (settles.field (·.deletionReason) fun _ _ => rfl)
    have result := sound.saves member same (.inl rfl) settles ⟨rfl, rfl, rfl, rfl, rfl⟩
      (.inl stop) settledPlaced (fun retained => state.symm.trans retained) saved
    exact ⟨result.1, result.2.1⟩
  rw [reconcileRecord] at reconciled
  split at reconciled
  · obtain ⟨⟨settled, billed⟩, settles, saved⟩ := bind_eq_some_iff.mp reconciled
    exact settledOnly settles saved
  · obtain ⟨⟨settled, billed⟩, settles, saved⟩ := bind_eq_some_iff.mp reconciled
    exact settledOnly settles saved
  · rename_i retained
    obtain ⟨⟨settled, billed⟩, settles, saved⟩ := bind_eq_some_iff.mp reconciled
    obtain ⟨missingSame, missingStops, missingPlaced⟩ := detectMissing_cases input record nowMs
    obtain ⟨added, settles⟩ := sound.settles member missingSame missingStops settles
    have stop := settles.field (·.stoppedAtMs) fun _ _ => rfl
    have retainedAt := settles.field (·.retainedAtMs) fun _ _ => rfl
    have settledPlaced := (missingPlaced placed).congr
      (settles.field (·.state) fun _ _ => rfl) retainedAt stop
      (settles.field (·.deletionReason) fun _ _ => rfl)
    have isRetained : settled.retainedAtMs.isSome = true := by
      rw [retainedAt, missingSame.retainedAtMs]
      rw [CloudSnapshotRecord.IsPlaced, retained] at placed
      exact placed.1
    split at saved
    · obtain ⟨graceSame, graceStops, gracePlaced⟩ := enforceGrace_cases
        (accountStatus billed period input.reservedProviderCostMicros) settled nowMs isRetained
      rw [stop] at graceStops
      have result := sound.saves member missingSame missingStops settles graceSame graceStops
        (gracePlaced settledPlaced) (fun _ => retained) saved
      exact ⟨result.1, result.2.1⟩
    · have result := sound.saves member missingSame missingStops settles
        ⟨rfl, rfl, rfl, rfl, rfl⟩ (.inl stop) settledPlaced (fun _ => retained) saved
      exact ⟨result.1, result.2.1⟩
  · split at reconciled
    · exact sound.resaves member reconciled ⟨rfl, rfl, rfl, rfl, rfl⟩ (.inr rfl)
        ⟨rfl, fun expired => by cases expired⟩ (fun retained => by cases retained)
    · cases reconciled
      exact ⟨Advances.refl sound, Spares.refl record tables⟩

theorem reconcileRecords_spec {records : List CloudSnapshotRecord}
    (members : ∀ record ∈ records, record ∈ tables.snapshots)
    (distinct : (records.map (·.snapshotId)).Nodup)
    (reconciled : reconcileRecords configuration input period nowMs tables records = some after) :
    Advances exact configuration.cutover nowMs tables after := by
  induction records generalizing tables with
  | nil =>
    cases reconciled
    exact Advances.refl sound
  | cons record rest ih =>
    obtain ⟨next, first, remaining⟩ := bind_eq_some_iff.mp reconciled
    obtain ⟨isMember, restMembers⟩ := forall_mem_cons.mp members
    obtain ⟨apart, distinct⟩ := nodup_cons.mp distinct
    obtain ⟨advances, spares⟩ := reconcileRecord_spec sound isMember first
    refine advances.trans (ih advances.sound (fun other isOther => ?_) distinct remaining)
    exact spares other (restMembers other isOther) fun same =>
      apart (mem_map.mpr ⟨other, isOther, same⟩)

theorem reconcileSnapshotStorage_spec
    (reconciled : tables.reconcileSnapshotStorage configuration input nowMs = some after) :
    Advances exact configuration.cutover nowMs tables after := by
  unfold reconcileSnapshotStorage at reconciled
  dsimp only at reconciled
  split at reconciled
  · cases reconciled
    exact Advances.refl sound
  obtain ⟨⟨period, billed⟩, ensured, remaining⟩ := bind_eq_some_iff.mp reconciled
  obtain ⟨storage, usage⟩ :=
    BillingStore.ensureAccountCloudBillingPeriod_storageSound sound.billing ensured
  have rebilled := sound.rebills storage usage
  exact rebilled.trans (reconcileRecords_spec rebilled.sound (fun record => mem_list)
    (sound.list_distinct _) remaining)

end

variable {input : Cleanup}

theorem deleteSnapshot_spec (sound : Sound exact cutover nowMs tables)
    (member : record ∈ tables.snapshots)
    (deleted : tables.deleteSnapshot input record nowMs = some after) :
    Advances exact cutover nowMs tables after ∧ Spares record tables after := by
  have placed := sound.placed record member
  unfold deleteSnapshot at deleted
  split at deleted
  · cases deleted
    exact ⟨Advances.refl sound, Spares.refl record tables⟩
  rename_i due
  have deleting : record.state = .deleting := by
    by_contra other
    exact due (.inl other)
  split at deleted
  · exact sound.resaves member deleted ⟨rfl, rfl, rfl, rfl, rfl⟩ (.inl rfl)
      (placed.congr rfl rfl rfl rfl) id
  split at deleted
  · cases deleted
  · exact sound.resaves member deleted ⟨rfl, rfl, rfl, rfl, rfl⟩ (.inl rfl)
      (placed.congr rfl rfl rfl rfl) id
  · rw [CloudSnapshotRecord.IsPlaced, deleting] at placed
    exact sound.resaves member deleted ⟨rfl, rfl, rfl, rfl, rfl⟩ (.inl rfl) placed
      (fun retained => by cases retained)

/-- What was stopped and is not any more goes on from now, and is billed up to its stop. -/
def Resumes (nowMs : Int) (tables after : SnapshotTables) : Prop :=
  ∀ record ∈ tables.snapshots, ∀ stoppedAtMs, record.stoppedAtMs = some stoppedAtMs →
    ∀ next ∈ after.snapshots, next.snapshotId = record.snapshotId → next.stoppedAtMs = none →
      next.checkpointAtMs = some nowMs ∧
        ∀ usage ∈ after.billing.storageUsages record.snapshotId, usage.endedAt ≤ stoppedAtMs

theorem Advances.resumes (advances : Advances exact cutover nowMs tables after) :
    Resumes nowMs tables after := by
  intro record member stoppedAtMs stopped next isNext sameId resumed
  have isStopped : record.stoppedAtMs.isSome = true := by
    rw [stopped]
    rfl
  obtain ⟨other, isOther, otherId, otherStopped⟩ := advances.stopped record member isStopped
  rw [advances.sound.eq_of_id isOther isNext (otherId.trans sameId.symm), resumed] at otherStopped
  cases otherStopped

theorem Sound.revives (sound : Sound exact cutover nowMs tables)
    (member : record ∈ tables.snapshots) (expiring : isExpiring record = true)
    (alone : ∀ other ∈ tables.snapshots, other.state ≠ .retained)
    (carried : exact → record.remainder = 0 ∨ record.checkpointAtMs = some nowMs)
    (saved : tables.save
      { record with
        state := .retained
        stoppedAtMs := none
        deletionReason := none
        graceUntilMs := none
        checkpointAtMs := some nowMs } = some after) :
    (Sound exact cutover nowMs after ∧ Kept tables after ∧ Resumes nowMs tables after) ∧
      Spares record tables after := by
  rw [isExpiring, Bool.and_eq_true, decide_eq_true_eq, decide_eq_true_eq] at expiring
  have placed := sound.placed record member
  rw [CloudSnapshotRecord.IsPlaced, expiring.1] at placed
  obtain ⟨retainedAtMs, retained⟩ := isSome_iff_exists.mp (placed.2 expiring.2)
  have accounted := sound.accounted record member
  rw [IsAccounted, retained] at accounted
  obtain ⟨checkpoint, accounted⟩ := accounted
  have upToNow := sound.timely record member checkpoint accounted.checkpointed
  let next : CloudSnapshotRecord :=
    { record with
      state := .retained
      stoppedAtMs := none
      deletionReason := none
      graceUntilMs := none
      checkpointAtMs := some nowMs }
  have carries : Carries exact (tables.billing.storageUsages record.snapshotId) nowMs
      record.remainder := by
    rcases eq_or_lt_of_le upToNow with rfl | moved
    · exact accounted.carries
    · refine accounted.carries.later moved fun isExact => ?_
      refine (carried isExact).resolve_right fun now => ?_
      cases accounted.checkpointed.symm.trans now
      exact lt_irrefl _ moved
  have change : Change exact cutover nowMs tables record next tables.billing [] :=
    { member
      sameId := rfl
      sameBuild := rfl
      storage := sound.billing
      usage := (append_nil _).symm
      owned := forall_mem_nil _
      accounted := by
        rw [IsAccounted, show next.retainedAtMs = some retainedAtMs from retained]
        exact ⟨nowMs, rfl, accounted.after.trans upToNow,
          (fun _ stopped => by cases stopped), carries, accounted.within⟩
      placed := ⟨placed.2 expiring.2, rfl⟩
      timely := fun checkpoint known => (some.inj known).symm.le
      alone := fun _ other isOther isRetained => absurd isRetained (alone other isOther) }
  cases (change.save sound).symm.trans saved
  have revived := change.sound sound
  refine ⟨⟨revived, change.kept sound ?_, ?_⟩, fun other isOther different =>
    (mem_replace member change.sameId).mpr (.inr ⟨isOther, different⟩)⟩
  · exact fun old known =>
      ⟨nowMs, rfl, sound.timely record member old known, forall_mem_nil _⟩
  intro other isOther stoppedAtMs stopped later isLater sameId resumed
  rcases (mem_replace member change.sameId).mp isLater with rfl | ⟨isOld, _⟩
  · obtain rfl := sound.eq_of_id isOther member sameId.symm
    exact ⟨rfl, fun usage isUsage => (accounted.carries.before usage isUsage).trans
      (accounted.stopped stoppedAtMs stopped)⟩
  · rw [sound.eq_of_id isOld isOther sameId, stopped] at resumed
    cases resumed

def brings (configuration : SnapshotConfiguration) (tables : SnapshotTables) (input : Cleanup)
    (record : CloudSnapshotRecord) (nowMs : Int) : Bool :=
  isExpiring record &&
    (tables.billing.ensureAccountCloudBillingPeriod configuration.accountId input.entitlements
      nowMs).any fun ensured => tables.canRevive ensured.2 input ensured.1

theorem cleanupSnapshot_spec (sound : Sound exact configuration.cutover nowMs tables)
    (member : record ∈ tables.snapshots)
    (carried : exact → brings configuration tables input record nowMs = true →
      record.remainder = 0 ∨ record.checkpointAtMs = some nowMs)
    (cleaned : tables.cleanupSnapshot configuration input record nowMs = some after) :
    (Sound exact configuration.cutover nowMs after ∧ Kept tables after ∧
      Resumes nowMs tables after) ∧ Spares record tables after := by
  unfold cleanupSnapshot at cleaned
  split at cleaned
  · rename_i expiring
    obtain ⟨⟨period, billed⟩, ensured, remaining⟩ := bind_eq_some_iff.mp cleaned
    obtain ⟨storage, usage⟩ :=
      BillingStore.ensureAccountCloudBillingPeriod_storageSound sound.billing ensured
    have rebilled := sound.rebills storage usage
    split at remaining
    · rename_i can
      have isBrought : brings configuration tables input record nowMs = true := by
        rw [brings, expiring, ensured]
        exact can
      have alone : ∀ other ∈ tables.snapshots, other.state ≠ .retained := by
        intro other isOther retained
        rw [canRevive, Bool.and_eq_true, Bool.not_eq_true', List.any_eq_false] at can
        exact can.1 other (mem_list_of_retained isOther retained) (decide_eq_true retained)
      obtain ⟨⟨revived, kept, resumes⟩, spares⟩ := rebilled.sound.revives member expiring alone
        (fun isExact => carried isExact isBrought) remaining
      exact ⟨⟨revived, rebilled.kept.trans kept, resumes⟩, spares⟩
    · obtain ⟨advances, spares⟩ := deleteSnapshot_spec rebilled.sound member remaining
      have all := rebilled.trans advances
      exact ⟨⟨all.sound, all.kept, all.resumes⟩, spares⟩
  · obtain ⟨advances, spares⟩ := deleteSnapshot_spec sound member cleaned
    exact ⟨⟨advances.sound, advances.kept, advances.resumes⟩, spares⟩

end SnapshotTables

end Zuse.Billing
