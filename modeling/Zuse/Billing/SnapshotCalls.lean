import Zuse.Billing.SnapshotTables

namespace Zuse.Billing

open Zuse.Data List

structure SameStorage (left right : CloudSnapshotRecord) : Prop where
  snapshotId : left.snapshotId = right.snapshotId
  buildId : left.buildId = right.buildId
  retainedAtMs : left.retainedAtMs = right.retainedAtMs
  checkpointAtMs : left.checkpointAtMs = right.checkpointAtMs
  remainder : left.remainder = right.remainder

def Stops (nowMs : Int) (before after : Option Int) : Prop :=
  after = before ∨ after = some nowMs

variable {nowMs : Int}

theorem Stops.isSome {before after : Option Int} (stops : Stops nowMs before after)
    (stopped : before.isSome = true) : after.isSome = true := by
  rcases stops with same | now
  · rw [same]
    exact stopped
  · rw [now]
    rfl

theorem Stops.trans {before middle after : Option Int} (first : Stops nowMs before middle)
    (second : Stops nowMs middle after) :
    Stops nowMs before after := by
  rcases second with same | now
  · rw [same]
    exact first
  · exact .inr now

variable {record next : CloudSnapshotRecord}

theorem IsAccounted.restop {exact : Prop} {cutover : Option Int} {usages : List UsageRecord}
    (accounted : IsAccounted exact cutover record usages) (same : SameStorage next record)
    (stops : Stops nowMs record.stoppedAtMs next.stoppedAtMs)
    (timely : ∀ checkpoint, record.checkpointAtMs = some checkpoint → checkpoint ≤ nowMs) :
    IsAccounted exact cutover next usages := by
  rw [IsAccounted, same.retainedAtMs]
  rw [IsAccounted] at accounted
  split at accounted
  · rw [same.remainder]
    exact accounted
  obtain ⟨checkpoint, accounted⟩ := accounted
  refine ⟨checkpoint, same.checkpointAtMs.trans accounted.checkpointed, accounted.after, ?_, ?_,
    accounted.within⟩
  · intro stoppedAtMs stopped
    rcases stops with unmoved | now
    · exact accounted.stopped stoppedAtMs (unmoved.symm.trans stopped)
    · cases stopped.symm.trans now
      exact timely checkpoint accounted.checkpointed
  · rw [same.remainder]
    exact accounted.carries

theorem CloudSnapshotRecord.IsPlaced.congr
    (placed : record.IsPlaced) (state : next.state = record.state)
    (retained : next.retainedAtMs = record.retainedAtMs)
    (stopped : next.stoppedAtMs = record.stoppedAtMs)
    (reason : next.deletionReason = record.deletionReason) : next.IsPlaced := by
  rw [CloudSnapshotRecord.IsPlaced, state, retained, stopped, reason]
  exact placed

namespace SnapshotTables

variable {exact : Prop} {cutover : Option Int} {nowMs : Int} {tables after : SnapshotTables}

/-- What a call that revives nothing leaves. -/
structure Advances (exact : Prop) (cutover : Option Int) (nowMs : Int)
    (tables after : SnapshotTables) : Prop where
  sound : Sound exact cutover nowMs after
  kept : Kept tables after
  stopped : Sealed tables after

theorem Advances.refl (sound : Sound exact cutover nowMs tables) :
    Advances exact cutover nowMs tables tables where
  sound := sound
  kept := Kept.refl tables
  stopped := fun record member stopped => ⟨record, member, rfl, stopped⟩

theorem Advances.trans {middle : SnapshotTables}
    (first : Advances exact cutover nowMs tables middle)
    (second : Advances exact cutover nowMs middle after) :
    Advances exact cutover nowMs tables after where
  sound := second.sound
  kept := first.kept.trans second.kept
  stopped := first.stopped.trans second.stopped

def Spares (record : CloudSnapshotRecord) (tables after : SnapshotTables) : Prop :=
  ∀ other ∈ tables.snapshots, other.snapshotId ≠ record.snapshotId → other ∈ after.snapshots

variable {old : CloudSnapshotRecord} {billed : BillingStore}

theorem Sound.settles {accountId : String} {settled : CloudSnapshotRecord}
    (sound : Sound exact cutover nowMs tables)
    (member : old ∈ tables.snapshots) (same : SameStorage record old)
    (stops : Stops nowMs old.stoppedAtMs record.stoppedAtMs)
    (settles : tables.billing.settleSnapshot accountId cutover record nowMs =
      some (settled, billed)) :
    ∃ added, Settled exact cutover tables.billing record nowMs settled billed added := by
  refine BillingStore.settleSnapshot_spec sound.billing ?_ settles
  rw [same.snapshotId]
  exact (sound.accounted old member).restop same stops (sound.timely old member)

variable {record : CloudSnapshotRecord}

theorem Sound.saves {settled : CloudSnapshotRecord}
    {added : List UsageRecord} (sound : Sound exact cutover nowMs tables)
    (member : old ∈ tables.snapshots) (same : SameStorage record old)
    (stops : Stops nowMs old.stoppedAtMs record.stoppedAtMs)
    (settles : Settled exact cutover tables.billing record nowMs settled billed added)
    (nextSame : SameStorage next settled)
    (nextStops : Stops nowMs record.stoppedAtMs next.stoppedAtMs) (placed : next.IsPlaced)
    (alone : next.state = .retained → old.state = .retained)
    (saved : ({ tables with billing := billed } : SnapshotTables).save next = some after) :
    Advances exact cutover nowMs tables after ∧ Spares old tables after ∧
      ∀ other ∈ after.snapshots, other = next ∨
        other ∈ tables.snapshots ∧ other.snapshotId ≠ old.snapshotId := by
  have sameId : settled.snapshotId = record.snapshotId :=
    settles.field (·.snapshotId) fun _ _ => rfl
  have sameBuild : settled.buildId = record.buildId :=
    settles.field (·.buildId) fun _ _ => rfl
  have sameStop : settled.stoppedAtMs = record.stoppedAtMs :=
    settles.field (·.stoppedAtMs) fun _ _ => rfl
  have timely : ∀ checkpoint, settled.checkpointAtMs = some checkpoint → checkpoint ≤ nowMs := by
    intro checkpoint known
    rcases settles.timely with unmoved | ⟨later, isLater, upToNow⟩
    · refine sound.timely old member checkpoint ?_
      rw [← same.checkpointAtMs, ← unmoved]
      exact known
    · cases isLater.symm.trans known
      exact upToNow
  have accounted := settles.accounted
  rw [same.snapshotId] at accounted
  have change : Change exact cutover nowMs tables old next billed added :=
    { member
      sameId := (nextSame.snapshotId.trans sameId).trans same.snapshotId
      sameBuild := (nextSame.buildId.trans sameBuild).trans same.buildId
      storage := settles.storage
      usage := settles.usage
      owned := fun item isAdded => (settles.owned item isAdded).trans same.snapshotId
      accounted := accounted.restop nextSame (by rw [sameStop]; exact nextStops) timely
      placed
      timely := fun checkpoint known =>
        timely checkpoint (nextSame.checkpointAtMs.symm.trans known)
      alone := fun retained other isOther otherRetained => by
        rw [sound.retainedOnce other isOther old member otherRetained (alone retained)] }
  cases (change.save sound).symm.trans saved
  refine ⟨⟨change.sound sound, change.kept sound ?_, change.keepsSealed sound ?_⟩, ?_, ?_⟩
  · rw [← same.checkpointAtMs, nextSame.checkpointAtMs]
    exact settles.grows
  · exact (stops.trans nextStops).isSome
  · exact fun other isOther different =>
      (mem_replace member change.sameId).mpr (.inr ⟨isOther, different⟩)
  · exact fun other => (mem_replace member change.sameId).mp

theorem Sound.resaves (sound : Sound exact cutover nowMs tables) (member : old ∈ tables.snapshots)
    (saved : tables.save next = some after) (same : SameStorage next old)
    (stops : Stops nowMs old.stoppedAtMs next.stoppedAtMs) (placed : next.IsPlaced)
    (alone : next.state = .retained → old.state = .retained) :
    Advances exact cutover nowMs tables after ∧ Spares old tables after := by
  have settled := BillingStore.settled_refl sound.billing (sound.accounted old member) nowMs
  have result := sound.saves member ⟨rfl, rfl, rfl, rfl, rfl⟩ (.inl rfl) settled same stops
    placed alone saved
  exact ⟨result.1, result.2.1⟩

variable {configuration : SnapshotConfiguration} {reason : DeletionReason}

theorem stopSnapshot_spec (sound : Sound exact configuration.cutover nowMs tables)
    (member : record ∈ tables.snapshots) (reasoned : reason ≠ .expiry)
    (stopped : tables.stopSnapshot configuration record reason nowMs = some after) :
    Advances exact configuration.cutover nowMs tables after ∧ Spares record tables after ∧
      ∀ other ∈ after.snapshots, other.state = .deleting ∨
        other ∈ tables.snapshots ∧ other.snapshotId ≠ record.snapshotId := by
  obtain ⟨⟨settled, billed⟩, settles, saved⟩ := Option.bind_eq_some_iff.mp stopped
  have same : SameStorage { record with stoppedAtMs := some nowMs } record :=
    ⟨rfl, rfl, rfl, rfl, rfl⟩
  have stops : Stops nowMs record.stoppedAtMs (some nowMs) := .inr rfl
  obtain ⟨added, settles⟩ := sound.settles member same stops settles
  have stoppedAt : settled.stoppedAtMs = some nowMs :=
    settles.field (·.stoppedAtMs) fun _ _ => rfl
  let next : CloudSnapshotRecord :=
    { settled with
      state := .deleting
      deletionReason := some reason
      nextAttemptAtMs := nowMs }
  have nextSame : SameStorage next settled := ⟨rfl, rfl, rfl, rfl, rfl⟩
  have placed : next.IsPlaced := by
    refine ⟨?_, fun expired => absurd (Option.some.inj expired) reasoned⟩
    rw [stoppedAt]
    rfl
  obtain ⟨advances, spares, others⟩ := sound.saves member same stops settles nextSame
    (.inl stoppedAt) placed (fun retained => by cases retained) saved
  refine ⟨advances, spares, fun other isOther => ?_⟩
  rcases others other isOther with rfl | old
  · exact .inl rfl
  · exact .inr old

theorem stopSnapshots_spec {records : List CloudSnapshotRecord}
    (sound : Sound exact configuration.cutover nowMs tables)
    (members : ∀ record ∈ records, record ∈ tables.snapshots)
    (distinct : (records.map (·.snapshotId)).Nodup) (reasoned : reason ≠ .expiry)
    (stopped : stopSnapshots configuration reason nowMs tables records = some after) :
    Advances exact configuration.cutover nowMs tables after ∧
      (∀ other ∈ tables.snapshots, (∀ record ∈ records, other.snapshotId ≠ record.snapshotId) →
        other ∈ after.snapshots) ∧
      ∀ other ∈ after.snapshots, other.state = .deleting ∨
        other ∈ tables.snapshots ∧ ∀ record ∈ records, other.snapshotId ≠ record.snapshotId := by
  induction records generalizing tables with
  | nil =>
    cases stopped
    exact ⟨Advances.refl sound, fun _ member _ => member,
      fun _ member => .inr ⟨member, forall_mem_nil _⟩⟩
  | cons record rest ih =>
    obtain ⟨next, first, remaining⟩ := Option.bind_eq_some_iff.mp stopped
    obtain ⟨isMember, restMembers⟩ := forall_mem_cons.mp members
    obtain ⟨apart, distinct⟩ := nodup_cons.mp distinct
    obtain ⟨advances, spares, others⟩ := stopSnapshot_spec sound isMember reasoned first
    have unlike {other : CloudSnapshotRecord} (isOther : other ∈ rest) :
        other.snapshotId ≠ record.snapshotId :=
      fun same => apart (mem_map.mpr ⟨other, isOther, same⟩)
    obtain ⟨more, spared, last⟩ := ih advances.sound
      (fun other isOther => spares other (restMembers other isOther) (unlike isOther))
      distinct remaining
    refine ⟨advances.trans more, ?_, ?_⟩
    · intro other isOther different
      obtain ⟨first, others⟩ := forall_mem_cons.mp different
      exact spared other (spares other isOther first) others
    intro other isOther
    rcases last other isOther with deleting | ⟨isNext, different⟩
    · exact .inl deleting
    · rcases others other isNext with deleting | ⟨isOld, first⟩
      · exact .inl deleting
      · exact .inr ⟨isOld, forall_mem_cons.mpr ⟨first, different⟩⟩

theorem mem_list {includeUnsettledDeleted : Bool}
    (member : record ∈ tables.list includeUnsettledDeleted) :
    record ∈ tables.snapshots := by
  rw [list, mem_insertionSort] at member
  exact mem_of_mem_filter member

theorem mem_list_of_retained (member : record ∈ tables.snapshots)
    (retained : record.state = .retained) : record ∈ tables.list false := by
  rw [list, mem_insertionSort, mem_filter, retained]
  exact ⟨member, rfl⟩

theorem Sound.list_distinct (sound : Sound exact cutover nowMs tables)
    (includeUnsettledDeleted : Bool) :
    ((tables.list includeUnsettledDeleted).map (·.snapshotId)).Nodup := by
  rw [list, ((perm_insertionSort _ _).map _).nodup_iff]
  exact sound.distinct.sublist (filter_sublist.map _)

variable {build : SnapshotBuild} {snapshotId : String}

theorem prepareSnapshotIntent_spec (sound : Sound exact cutover nowMs tables)
    (prepared : tables.prepareSnapshotIntent build snapshotId nowMs = some after) :
    Advances exact cutover nowMs tables after := by
  unfold prepareSnapshotIntent at prepared
  split at prepared
  · cases prepared
    exact Advances.refl sound
  split at prepared
  · split at prepared
    · cases prepared
    · cases prepared
      exact Advances.refl sound
  rename_i absent
  rw [save, absent] at prepared
  cases prepared
  have free : ∀ record ∈ tables.snapshots, record.snapshotId ≠ snapshotId :=
    fun record member same =>
      List.find?_eq_none.mp absent record member (decide_eq_true same)
  have unbilled : tables.billing.storageUsages snapshotId = [] := by
    rw [BillingStore.storageUsages, filter_eq_nil_iff]
    intro usage isUsage same
    obtain ⟨record, member, isRecord⟩ := sound.known usage isUsage
    exact free record member (isRecord.trans (of_decide_eq_true same))
  refine ⟨⟨sound.billing, ?_, ?_, ?_, ?_, ?_, ?_⟩, ?_, ?_⟩
  · rw [map_append, nodup_append]
    refine ⟨sound.distinct, nodup_singleton _, ?_⟩
    intro id isId other isOther
    obtain ⟨record, member, rfl⟩ := mem_map.mp isId
    rw [mem_singleton.mp isOther]
    exact free record member
  · intro left isLeft right isRight leftRetained rightRetained
    rcases mem_append.mp isLeft with leftOld | leftNew
    · rcases mem_concat.mp isRight with rightOld | rightNew
      · exact sound.retainedOnce left leftOld right rightOld leftRetained rightRetained
      · rw [rightNew] at rightRetained
        cases rightRetained
    · rw [mem_singleton.mp leftNew] at leftRetained
      cases leftRetained
  · intro record member
    rcases mem_concat.mp member with old | rfl
    · exact sound.accounted record old
    · exact ⟨unbilled, rfl⟩
  · intro record member
    rcases mem_concat.mp member with old | rfl
    · exact sound.placed record old
    · exact ⟨rfl, rfl⟩
  · intro record member
    rcases mem_concat.mp member with old | rfl
    · exact sound.timely record old
    · exact fun _ known => by cases known
  · intro usage isUsage
    obtain ⟨record, member, same⟩ := sound.known usage isUsage
    exact ⟨record, mem_append_left _ member, same⟩
  · intro record member
    exact ⟨record, mem_append_left _ member, rfl, [], (append_nil _).symm,
      fun checkpoint known => ⟨checkpoint, known, le_refl _, forall_mem_nil _⟩⟩
  · exact fun record member stopped =>
      ⟨record, mem_append_left _ member, rfl, stopped⟩

theorem Sound.retains {image : CloudSnapshotRecord} (sound : Sound exact cutover nowMs tables)
    (member : image ∈ tables.snapshots) (creating : image.state = .creating)
    (alone : ∀ other ∈ tables.snapshots, other.state ≠ .retained)
    (saved : tables.save
      { image with
        state := .retained
        retainedAtMs := some nowMs
        checkpointAtMs := some nowMs } = some after) :
    Advances exact cutover nowMs tables after := by
  have placed := sound.placed image member
  rw [CloudSnapshotRecord.IsPlaced, creating] at placed
  have accounted := sound.accounted image member
  rw [IsAccounted, placed.1] at accounted
  let next : CloudSnapshotRecord :=
    { image with
      state := .retained
      retainedAtMs := some nowMs
      checkpointAtMs := some nowMs }
  have change : Change exact cutover nowMs tables image next tables.billing [] :=
    { member
      sameId := rfl
      sameBuild := rfl
      storage := sound.billing
      usage := (append_nil _).symm
      owned := forall_mem_nil _
      accounted := by
        refine ⟨nowMs, rfl, le_refl _, ?_, ?_, ?_⟩
        · intro stoppedAtMs stopped
          cases placed.2.symm.trans stopped
        · rw [accounted.1, accounted.2]
          exact Carries.empty nowMs
        · rw [accounted.1]
          exact forall_mem_nil _
      placed := ⟨rfl, placed.2⟩
      timely := fun checkpoint known => (Option.some.inj known).symm.le
      alone := fun _ other isOther retained => absurd retained (alone other isOther) }
  cases (change.save sound).symm.trans saved
  refine ⟨change.sound sound, change.kept sound ?_, change.keepsSealed sound id⟩
  exact fun checkpoint known =>
    ⟨nowMs, rfl, sound.timely image member checkpoint known, forall_mem_nil _⟩

section

variable (sound : Sound exact configuration.cutover nowMs tables)
include sound

theorem promoteRetainedSnapshot_spec {storedReady : Bool}
    (promoted : tables.promoteRetainedSnapshot configuration build storedReady nowMs = some after) :
    Advances exact configuration.cutover nowMs tables after := by
  have listed : ∀ record ∈ (tables.list false).filter fun record => record.state = .retained,
      record ∈ tables.snapshots :=
    fun record member => mem_list (mem_of_mem_filter member)
  have distinct : (((tables.list false).filter fun record =>
      record.state = .retained).map (·.snapshotId)).Nodup :=
    (sound.list_distinct false).sublist (filter_sublist.map _)
  unfold promoteRetainedSnapshot at promoted
  split at promoted
  · cases promoted
    exact Advances.refl sound
  dsimp only at promoted
  split at promoted
  · cases promoted
    exact Advances.refl sound
  split at promoted
  · split at promoted
    · cases promoted
      exact Advances.refl sound
    · exact (stopSnapshots_spec sound listed distinct (by decide) promoted).1
  split at promoted
  · cases promoted
  rename_i image found
  have isMember := mem_list (mem_of_find?_eq_some found)
  split at promoted
  · cases promoted
  rename_i present
  split at promoted
  · cases promoted
    exact Advances.refl sound
  rename_i unretained
  have creating : image.state = .creating := by
    cases state : image.state with
    | creating => rfl
    | retained => exact absurd state unretained
    | deleting => exact absurd (.inl state) present
    | deleted => exact absurd (.inr state) present
  obtain ⟨next, stopped, saved⟩ := Option.bind_eq_some_iff.mp promoted
  obtain ⟨advances, spares, others⟩ :=
    stopSnapshots_spec sound listed distinct (by decide) stopped
  refine advances.trans (advances.sound.retains ?_ creating ?_ saved)
  · refine spares image isMember fun record member same => ?_
    have retained := of_decide_eq_true (mem_filter.mp member).2
    rw [← sound.eq_of_id isMember (listed record member) same, creating] at retained
    cases retained
  intro other isOther retained
  rcases others other isOther with deleting | ⟨isOld, different⟩
  · cases deleting.symm.trans retained
  · exact different other (mem_filter.mpr
      ⟨mem_list_of_retained isOld retained, decide_eq_true retained⟩) rfl

theorem deleteRetainedSnapshot_spec {building : Bool}
    (deleted : tables.deleteRetainedSnapshot configuration snapshotId building nowMs = some after) :
    Advances exact configuration.cutover nowMs tables after := by
  unfold deleteRetainedSnapshot at deleted
  split at deleted
  · cases deleted
  rename_i record found
  split at deleted
  · cases deleted
    exact Advances.refl sound
  · split at deleted
    · cases deleted
    · exact (stopSnapshot_spec sound (get_some found).1 (by decide) deleted).1

theorem queueAccountSnapshotDeletion_spec
    (queued : tables.queueAccountSnapshotDeletion configuration nowMs = some after) :
    Advances exact configuration.cutover nowMs tables after :=
  (stopSnapshots_spec sound (fun record member => mem_list (mem_of_mem_filter member))
    ((sound.list_distinct false).sublist (filter_sublist.map _)) (by decide) queued).1

end

end SnapshotTables

end Zuse.Billing
