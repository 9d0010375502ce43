import Zuse.Billing.SnapshotSettlement

namespace Zuse.Billing

open Zuse.Data List

def CloudSnapshotRecord.IsPlaced (record : CloudSnapshotRecord) : Prop :=
  match record.state with
  | .creating => record.retainedAtMs = none ∧ record.stoppedAtMs = none
  | .retained => record.retainedAtMs.isSome = true ∧ record.stoppedAtMs = none
  | .deleting | .deleted => record.stoppedAtMs.isSome = true ∧
      (record.deletionReason = some .expiry → record.retainedAtMs.isSome = true)

namespace SnapshotTables

structure Sound (exact : Prop) (cutover : Option Int) (clock : Int)
    (tables : SnapshotTables) : Prop where
  billing : tables.billing.StorageSound
  distinct : (tables.snapshots.map (·.snapshotId)).Nodup
  retainedOnce : ∀ left ∈ tables.snapshots, ∀ right ∈ tables.snapshots,
    left.state = .retained → right.state = .retained → left = right
  accounted : ∀ record ∈ tables.snapshots, IsAccounted exact cutover record
    (tables.billing.storageUsages record.snapshotId)
  placed : ∀ record ∈ tables.snapshots, record.IsPlaced
  timely : ∀ record ∈ tables.snapshots, ∀ checkpoint,
    record.checkpointAtMs = some checkpoint → checkpoint ≤ clock
  known : ∀ usage ∈ tables.billing.usage, ∃ record ∈ tables.snapshots,
    record.snapshotId = usage.resourceId

/-- What was billed stays so, and billing goes on from the checkpoints. -/
def Kept (tables after : SnapshotTables) : Prop :=
  ∀ record ∈ tables.snapshots, ∃ next ∈ after.snapshots,
    next.snapshotId = record.snapshotId ∧
      ∃ added, after.billing.storageUsages record.snapshotId =
          tables.billing.storageUsages record.snapshotId ++ added ∧
        ∀ checkpoint, record.checkpointAtMs = some checkpoint →
          ∃ later, next.checkpointAtMs = some later ∧ checkpoint ≤ later ∧
            ∀ item ∈ added, checkpoint ≤ item.startedAt

def Sealed (tables after : SnapshotTables) : Prop :=
  ∀ record ∈ tables.snapshots, record.stoppedAtMs.isSome = true →
    ∃ next ∈ after.snapshots, next.snapshotId = record.snapshotId ∧
      next.stoppedAtMs.isSome = true

variable {exact : Prop} {cutover : Option Int} {clock : Int} {tables after : SnapshotTables}

theorem Kept.refl (tables : SnapshotTables) : Kept tables tables :=
  fun record member => ⟨record, member, rfl, [], (append_nil _).symm,
    fun checkpoint known => ⟨checkpoint, known, le_refl _, forall_mem_nil _⟩⟩

theorem Kept.trans {middle last : SnapshotTables} (first : Kept tables middle)
    (second : Kept middle last) : Kept tables last := by
  intro record member
  obtain ⟨next, isNext, sameId, added, usages, grows⟩ := first record member
  obtain ⟨final, isFinal, finalId, more, allUsages, growsOn⟩ := second next isNext
  rw [sameId, usages] at allUsages
  refine ⟨final, isFinal, finalId.trans sameId, added ++ more, ?_, ?_⟩
  · rw [allUsages, append_assoc]
  intro checkpoint known
  obtain ⟨later, isLater, after, addedAfter⟩ := grows checkpoint known
  obtain ⟨latest, isLatest, finallyAfter, moreAfter⟩ := growsOn later isLater
  refine ⟨latest, isLatest, after.trans finallyAfter, ?_⟩
  intro item isItem
  rcases mem_append.mp isItem with isAdded | isMore
  · exact addedAfter item isAdded
  · exact after.trans (moreAfter item isMore)

theorem Sealed.trans {middle last : SnapshotTables} (first : Sealed tables middle)
    (second : Sealed middle last) : Sealed tables last := by
  intro record member stopped
  obtain ⟨next, isNext, sameId, nextStopped⟩ := first record member stopped
  obtain ⟨final, isFinal, finalId, finallyStopped⟩ := second next isNext nextStopped
  exact ⟨final, isFinal, finalId.trans sameId, finallyStopped⟩

variable {record : CloudSnapshotRecord}

section

variable (sound : Sound exact cutover clock tables)
include sound

theorem Sound.mono {later : Int} (after : clock ≤ later) : Sound exact cutover later tables :=
  { sound with
    timely := fun record member checkpoint known =>
      (sound.timely record member checkpoint known).trans after }

theorem Sound.eq_of_id {left right : CloudSnapshotRecord}
    (isLeft : left ∈ tables.snapshots) (isRight : right ∈ tables.snapshots)
    (same : left.snapshotId = right.snapshotId) :
    left = right :=
  inj_on_of_nodup_map sound.distinct isLeft isRight same

theorem Sound.get (member : record ∈ tables.snapshots) :
    tables.get record.snapshotId = some record := by
  cases found : tables.get record.snapshotId with
  | none =>
    have absent := List.find?_eq_none.mp found record member
    exact absurd (decide_eq_true rfl) absent
  | some other =>
    have same := List.find?_some found
    rw [sound.eq_of_id (mem_of_find?_eq_some found) member (of_decide_eq_true same)]

end

theorem get_some {snapshotId : String} (found : tables.get snapshotId = some record) :
    record ∈ tables.snapshots ∧ record.snapshotId = snapshotId := by
  have same := List.find?_some found
  exact ⟨mem_of_find?_eq_some found, of_decide_eq_true same⟩

def replace (tables : SnapshotTables) (next : CloudSnapshotRecord) : SnapshotTables :=
  { tables with
    snapshots := tables.snapshots.map fun other =>
      if other.snapshotId = next.snapshotId then next else other }

theorem replace_ids (next : CloudSnapshotRecord) :
    (tables.replace next).snapshots.map (·.snapshotId) = tables.snapshots.map (·.snapshotId) := by
  rw [replace, map_map]
  refine map_congr_left fun other _ => ?_
  rw [Function.comp_apply]
  split
  · rename_i same
    exact same.symm
  · rfl

theorem mem_replace {old next record : CloudSnapshotRecord} (member : old ∈ tables.snapshots)
    (sameId : next.snapshotId = old.snapshotId) :
    record ∈ (tables.replace next).snapshots ↔
      record = next ∨ record ∈ tables.snapshots ∧ record.snapshotId ≠ old.snapshotId := by
  rw [replace, mem_map]
  constructor
  · rintro ⟨other, isOther, rfl⟩
    split
    · exact .inl rfl
    · rename_i different
      rw [sameId] at different
      exact .inr ⟨isOther, different⟩
  · rintro (rfl | ⟨isOther, different⟩)
    · exact ⟨old, member, if_pos sameId.symm⟩
    · rw [← sameId] at different
      exact ⟨record, isOther, if_neg different⟩

structure Change (exact : Prop) (cutover : Option Int) (clock : Int) (tables : SnapshotTables)
    (old next : CloudSnapshotRecord) (billed : BillingStore) (added : List UsageRecord) :
    Prop where
  member : old ∈ tables.snapshots
  sameId : next.snapshotId = old.snapshotId
  sameBuild : next.buildId = old.buildId
  storage : billed.StorageSound
  usage : billed.usage = tables.billing.usage ++ added
  owned : ∀ item ∈ added, item.resourceId = old.snapshotId
  accounted : IsAccounted exact cutover next (billed.storageUsages old.snapshotId)
  placed : next.IsPlaced
  timely : ∀ checkpoint, next.checkpointAtMs = some checkpoint → checkpoint ≤ clock
  alone : next.state = .retained → ∀ other ∈ tables.snapshots, other.state = .retained →
    other.snapshotId = old.snapshotId

variable {old next : CloudSnapshotRecord} {billed : BillingStore} {added : List UsageRecord}

theorem Change.save (change : Change exact cutover clock tables old next billed added)
    (sound : Sound exact cutover clock tables) :
    ({ tables with billing := billed } : SnapshotTables).save next =
      some { tables.replace next with billing := billed } := by
  have found : ({ tables with billing := billed } : SnapshotTables).get next.snapshotId =
      some old := by
    rw [change.sameId]
    exact sound.get change.member
  rw [SnapshotTables.save, found]
  exact if_pos change.sameBuild.symm

theorem Change.sound {old next : CloudSnapshotRecord} {billed : BillingStore}
    {added : List UsageRecord}
    (change : Change exact cutover clock tables old next billed added)
    (sound : Sound exact cutover clock tables) :
    Sound exact cutover clock { tables.replace next with billing := billed } := by
  have members {record : CloudSnapshotRecord} :=
    @mem_replace tables old next record change.member change.sameId
  obtain ⟨_, others⟩ := BillingStore.storageUsages_append change.usage _ change.owned
  refine ⟨change.storage, ?_, ?_, ?_, ?_, ?_, ?_⟩
  · rw [replace_ids]
    exact sound.distinct
  · intro left isLeft right isRight leftRetained rightRetained
    rcases members.mp isLeft with rfl | ⟨leftOld, leftOther⟩
    · rcases members.mp isRight with rfl | ⟨rightOld, rightOther⟩
      · rfl
      · exact absurd (change.alone leftRetained right rightOld rightRetained) rightOther
    · rcases members.mp isRight with rfl | ⟨rightOld, _⟩
      · exact absurd (change.alone rightRetained left leftOld leftRetained) leftOther
      · exact sound.retainedOnce left leftOld right rightOld leftRetained rightRetained
  · intro record member
    rcases members.mp member with rfl | ⟨isOld, different⟩
    · rw [change.sameId]
      exact change.accounted
    · rw [others record.snapshotId different]
      exact sound.accounted record isOld
  · intro record member
    rcases members.mp member with rfl | ⟨isOld, _⟩
    · exact change.placed
    · exact sound.placed record isOld
  · intro record member
    rcases members.mp member with rfl | ⟨isOld, _⟩
    · exact change.timely
    · exact sound.timely record isOld
  intro usage isUsage
  have ids (id : String) (known : ∃ record ∈ tables.snapshots, record.snapshotId = id) :
      ∃ record ∈ (tables.replace next).snapshots, record.snapshotId = id := by
    have isId : id ∈ tables.snapshots.map (·.snapshotId) := mem_map.mpr known
    rw [← replace_ids next] at isId
    exact mem_map.mp isId
  rw [change.usage] at isUsage
  rcases mem_append.mp isUsage with old_ | new
  · exact ids _ (sound.known usage old_)
  · rw [change.owned usage new]
    exact ids _ ⟨old, change.member, rfl⟩

section

variable (change : Change exact cutover clock tables old next billed added)
  (sound : Sound exact cutover clock tables)
include change sound

theorem Change.kept
    (grows : ∀ checkpoint, old.checkpointAtMs = some checkpoint →
      ∃ later, next.checkpointAtMs = some later ∧ checkpoint ≤ later ∧
        ∀ item ∈ added, checkpoint ≤ item.startedAt) :
    Kept tables { tables.replace next with billing := billed } := by
  obtain ⟨own, others⟩ := BillingStore.storageUsages_append change.usage _ change.owned
  intro record member
  by_cases same : record.snapshotId = old.snapshotId
  · obtain rfl := sound.eq_of_id member change.member same
    exact ⟨next, (mem_replace change.member change.sameId).mpr (.inl rfl), change.sameId,
      added, own, grows⟩
  refine ⟨record, (mem_replace change.member change.sameId).mpr (.inr ⟨member, same⟩), rfl,
    [], ?_, ?_⟩
  · rw [append_nil]
    exact others record.snapshotId same
  · exact fun checkpoint known => ⟨checkpoint, known, le_refl _, forall_mem_nil _⟩

theorem Change.keepsSealed
    (stopped : old.stoppedAtMs.isSome = true → next.stoppedAtMs.isSome = true) :
    Sealed tables { tables.replace next with billing := billed } := by
  intro record member isStopped
  by_cases same : record.snapshotId = old.snapshotId
  · obtain rfl := sound.eq_of_id member change.member same
    exact ⟨next, (mem_replace change.member change.sameId).mpr (.inl rfl), change.sameId,
      stopped isStopped⟩
  · exact ⟨record, (mem_replace change.member change.sameId).mpr (.inr ⟨member, same⟩), rfl,
      isStopped⟩

end

end SnapshotTables

end Zuse.Billing
