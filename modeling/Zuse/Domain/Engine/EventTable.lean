import Zuse.Domain.Engine.SqlDispatchStorage

namespace Zuse.Domain

open Zuse.Data List DispatchContents AppendInput

/-! The table as a list of streams: commit order is sequence order, and within a stream
it is version order. -/

/-- Items whose numbers count up from `first`, cut out by an interval of numbers. -/
theorem filter_numbered {α : Type u} {number : α → Nat} {items : List α} {first : Nat}
    (numbers : items.map number = List.range' first items.length)
    (fromExclusive toInclusive : Nat) :
    items.filter (fun item => fromExclusive < number item ∧ number item ≤ toInclusive) =
      (items.take (toInclusive + 1 - first)).drop (fromExclusive + 1 - first) := by
  induction items generalizing first with
  | nil => simp
  | cons item rest ih =>
    rw [map_cons, length_cons, range'_succ, cons.injEq] at numbers
    obtain ⟨isFirst, later⟩ := numbers
    rw [filter_cons, isFirst, ih later]
    by_cases within : first ≤ toInclusive
    · rw [Nat.succ_sub within]
      by_cases above : fromExclusive < first
      · rw [if_pos (by simp [above, within])]
        simp [Nat.sub_eq_zero_of_le above, Nat.sub_eq_zero_of_le above.le]
      · rw [if_neg (by simp [above]), Nat.succ_sub (Nat.le_of_not_lt above)]
        simp
    · have nothing : toInclusive + 1 - first = 0 := by omega
      have nothingLater : toInclusive + 1 - (first + 1) = 0 := by omega
      rw [if_neg (by simp [within]), nothing, nothingLater]
      simp

namespace SqlDispatchStorage

variable {ε : Type u}

structure Sequenced (storage : SqlDispatchStorage ε) : Prop where
  exact : storage.contents.versioned.Exact
  ordered : storage.events.Pairwise fun left right => left.sequence < right.sequence
  bounded : ∀ record ∈ storage.events, record.sequence ≤ storage.lastSequence

theorem bySequence_sorted {rows : List (StoredEvent ε)}
    (sorted : rows.Pairwise fun left right => left.sequence < right.sequence) :
    bySequence rows = rows :=
  (sorted.imp Nat.le_of_lt).insertionSort_eq

theorem le_maximum {column : List Nat} {value : Nat} :
    maximum column ≤ value ↔ ∀ entry ∈ column, entry ≤ value := by
  have general : ∀ start, column.foldl max start ≤ value ↔
      start ≤ value ∧ ∀ entry ∈ column, entry ≤ value := by
    induction column with
    | nil => simp
    | cons head rest ih =>
      intro start
      rw [foldl_cons, ih, max_le_iff, forall_mem_cons, and_assoc]
  simpa [maximum] using general 0

variable {toInclusive fromExclusive : Nat}

namespace Sequenced

variable {storage next : SqlDispatchStorage ε}

theorem initial : (sqlStorage ε).empty.Sequenced where
  exact := VersionedLog.Exact.empty
  ordered := Pairwise.nil
  bounded := forall_mem_nil _

theorem allEventsAfterSequence_eq (sequenced : storage.Sequenced) (sequence : Nat) :
    storage.allEventsAfterSequence sequence = storage.events.filter (sequence < ·.sequence) :=
  bySequence_sorted (sequenced.ordered.filter _)

theorem eventsInVersionRange_eq (sequenced : storage.Sequenced) (streamId : String)
    (fromExclusive toInclusive : Nat) :
    storage.eventsInVersionRange streamId fromExclusive toInclusive =
      ((storage.contents.stream streamId).take toInclusive).drop fromExclusive := by
  have versions := streamVersions sequenced.exact streamId
  have cut := filter_numbered versions fromExclusive toInclusive
  have split : storage.events.filter (fun row => row.streamId = streamId ∧
      fromExclusive < row.streamVersion ∧ row.streamVersion ≤ toInclusive) =
        (storage.contents.stream streamId).filter fun row =>
          fromExclusive < row.streamVersion ∧ row.streamVersion ≤ toInclusive := by
    rw [stream, filter_filter]
    apply filter_congr
    intro row _
    rw [← Bool.decide_and]
    exact decide_eq_decide.mpr And.comm
  rw [eventsInVersionRange, split, cut]
  apply byVersion_sorted
  have increasing : ((storage.contents.stream streamId).map (·.streamVersion)).Pairwise
      (· ≤ ·) := by
    rw [versions]
    exact pairwise_le_range'
  rw [map_drop, map_take]
  exact (increasing.sublist (take_sublist _ _)).sublist (drop_sublist _ _)

theorem range_versions (sequenced : storage.Sequenced) (streamId : String) (fromExclusive : Nat)
    (within : toInclusive ≤ storage.currentStreamVersion streamId) :
    (storage.eventsInVersionRange streamId fromExclusive toInclusive).map (·.streamVersion) =
      List.range' (fromExclusive + 1) (toInclusive - fromExclusive) := by
  rw [currentStreamVersion_eq sequenced.exact] at within
  rw [sequenced.eventsInVersionRange_eq, map_drop, map_take,
    streamVersions sequenced.exact, take_range'_of_length_ge within,
    drop_range', Nat.mul_one, Nat.add_comm]

variable {record : StoredEvent ε}

variable (sequenced : storage.Sequenced)
include sequenced

section

variable (member : record ∈ storage.events)
include member

theorem getElem_of_mem :
    ∃ index, record.streamVersion = index + 1 ∧
      (storage.contents.stream record.streamId)[index]? = some record := by
  have streamed : record ∈ storage.contents.stream record.streamId :=
    mem_filter.mpr ⟨member, by simp⟩
  obtain ⟨index, below, found⟩ := List.getElem_of_mem streamed
  refine ⟨index, ?_, List.getElem?_eq_some_iff.mpr ⟨below, found⟩⟩
  have versions := streamVersions sequenced.exact record.streamId
  have atIndex := congrArg (·[index]?) versions
  simp only [List.getElem?_map, List.getElem?_eq_getElem below, found, Option.map_some,
    List.getElem?_range' below, Option.some.injEq] at atIndex
  omega

theorem version_le : record.streamVersion ≤ storage.currentStreamVersion record.streamId := by
  obtain ⟨index, version, found⟩ := sequenced.getElem_of_mem member
  rw [currentStreamVersion_eq sequenced.exact, version]
  exact (List.getElem?_eq_some_iff.mp found).1

theorem earlier {version : Nat} (positive : 0 < version) (below : version < record.streamVersion) :
    ∃ other ∈ storage.events, other.streamId = record.streamId ∧
      other.streamVersion = version ∧ other.sequence < record.sequence := by
  obtain ⟨index, isVersion, found⟩ := sequenced.getElem_of_mem member
  obtain ⟨inside, atIndex⟩ := List.getElem?_eq_some_iff.mp found
  have before : version - 1 < index := by omega
  have otherInside := before.trans inside
  obtain ⟨otherMember, sameStream⟩ := mem_filter.mp (getElem_mem otherInside)
  have sequences : (storage.contents.stream record.streamId).Pairwise
      fun left right => left.sequence < right.sequence := sequenced.ordered.filter _
  have versions := congrArg (·[version - 1]?) (streamVersions sequenced.exact record.streamId)
  simp only [getElem?_map, getElem?_eq_getElem otherInside, Option.map_some,
    getElem?_range' otherInside, Option.some.injEq] at versions
  refine ⟨_, otherMember, of_decide_eq_true sameStream, by omega, ?_⟩
  have ordered := pairwise_iff_getElem.mp sequences _ _ otherInside inside before
  rwa [atIndex] at ordered

theorem range_succ {liveVersion : Nat}
    (within : fromExclusive ≤ liveVersion) (nextVersion : record.streamVersion = liveVersion + 1) :
    storage.eventsInVersionRange record.streamId fromExclusive (liveVersion + 1) =
      storage.eventsInVersionRange record.streamId fromExclusive liveVersion ++ [record] := by
  obtain ⟨index, isVersion, found⟩ := sequenced.getElem_of_mem member
  have isIndex : index = liveVersion := by omega
  subst isIndex
  have inside := (List.getElem?_eq_some_iff.mp found).1
  rw [sequenced.eventsInVersionRange_eq, sequenced.eventsInVersionRange_eq,
    take_add_one, found, Option.toList_some, drop_append_of_le_length]
  rw [length_take, Nat.min_eq_left inside.le]
  exact within

end

end Sequenced

/-- Events are only added, later than all others. -/
structure Extends (before after : SqlDispatchStorage ε) : Prop where
  prefixed : before.events <+: after.events
  later : ∀ record ∈ after.events, record ∈ before.events ∨ before.lastSequence < record.sequence

theorem Extends.refl (storage : SqlDispatchStorage ε) : storage.Extends storage :=
  ⟨prefix_rfl, fun _ member => .inl member⟩

theorem records_sequence (input : AppendInput ε) (streamVersion sequence : Nat)
    (events : List (String × ε)) :
    (input.records streamVersion sequence events).map (·.sequence) =
      List.range' (sequence + 1) events.length := by
  induction events generalizing streamVersion sequence with
  | nil => rfl
  | cons item rest ih => simp [records, ih, range'_succ]

variable {storage : SqlDispatchStorage ε} {input : AppendInput ε}
variable {next : SqlDispatchStorage ε} {receipt : CommandReceipt}

theorem append_ok
    (sequenced : storage.Sequenced) (appended : storage.append input = .ok (receipt, next)) :
    next = storage ∨
      storage.receipt input.commandId = none ∧
        (storage.contents.stream input.streamId).length = input.expectedVersion ∧
        receipt = input.receipt ∧ next = storage.insert input := by
  rw [SqlDispatchStorage.append] at appended
  cases found : storage.receipt input.commandId with
  | some existing =>
    cases checked : validateCommandReceipt input.commandId input.streamId
        input.receiptIdentity existing with
    | error failure =>
      simp only [found, checked] at appended
      cases appended
    | ok known =>
      simp only [found, checked] at appended
      cases appended
      exact .inl rfl
  | none =>
    simp only [found] at appended
    split at appended
    · cases appended
    · rename_i newest
      cases appended
      rw [Decidable.not_not, currentStreamVersion_eq sequenced.exact] at newest
      exact .inr ⟨rfl, newest, rfl, rfl⟩

theorem Sequenced.append (sequenced : storage.Sequenced) (nodup : (input.events.map Prod.fst).Nodup)
    (fresh : ∀ id ∈ input.events.map Prod.fst, id ∉ storage.events.map (·.eventId))
    (appended : storage.append input = .ok (receipt, next)) :
    next.Sequenced ∧ storage.Extends next ∧ storage.lastSequence ≤ next.lastSequence := by
  rcases append_ok sequenced appended with rfl | ⟨absent, newest, -, rfl⟩
  · exact ⟨sequenced, .refl next, Nat.le_refl _⟩
  have sequences := records_sequence input input.expectedVersion storage.lastSequence input.events
  have between : ∀ record ∈ input.stored storage.lastSequence,
      storage.lastSequence < record.sequence ∧
        record.sequence ≤ storage.lastSequence + input.events.length := by
    intro record member
    have listed := mem_map_of_mem (f := (·.sequence)) member
    rw [stored, sequences, mem_range'_1] at listed
    omega
  refine ⟨⟨?_, ?_, ?_⟩, ⟨prefix_append _ _, ?_⟩, Nat.le_add_right _ _⟩
  · change (storage.contents.commit input storage.lastSequence).versioned.Exact
    rw [storage.contents.versioned_commit _ newest]
    apply sequenced.exact.record (receipt_eq_none.mp absent) nodup
    intro id held
    simpa [versioned, SqlDispatchStorage.contents] using fresh id held
  · rw [insert, pairwise_append]
    refine ⟨sequenced.ordered, ?_, ?_⟩
    · have increasing : ((input.stored storage.lastSequence).map
          (·.sequence)).Pairwise (· < ·) := by
        rw [stored, sequences]
        exact pairwise_lt_range'
      exact pairwise_map.mp increasing
    · intro old oldMember new newMember
      exact (sequenced.bounded old oldMember).trans_lt (between new newMember).1
  · intro record member
    rcases mem_append.mp member with old | new
    · exact Nat.le_add_right_of_le (sequenced.bounded record old)
    · exact (between record new).2
  · intro record member
    rcases mem_append.mp member with old | new
    · exact .inl old
    · exact .inr (between record new).1

theorem Sequenced.range_insert (sequenced : (storage.insert input).Sequenced)
    (newest : (storage.contents.stream input.streamId).length = input.expectedVersion) :
    (storage.insert input).eventsInVersionRange input.streamId input.expectedVersion
        (input.expectedVersion + input.events.length) =
      input.stored storage.lastSequence := by
  have length := input.records_append input.expectedVersion storage.lastSequence input.events
  replace length := congrArg List.length length
  rw [length_map, numbered_length, length_map] at length
  rw [sequenced.eventsInVersionRange_eq]
  change (((storage.contents.commit input storage.lastSequence).stream
    input.streamId).take _).drop _ = _
  rw [stream_commit_self, ← newest, ← length, ← stored,
    ← length_append, take_length, drop_left]

variable {before after : SqlDispatchStorage ε}

theorem Extends.stream (grown : before.Extends after) (streamId : String) :
    before.contents.stream streamId <+: after.contents.stream streamId :=
  grown.prefixed.filter _

theorem Extends.range_eq (grown : before.Extends after) (sequenced : before.Sequenced)
    (sequencedAfter : after.Sequenced) (streamId : String)
    (within : toInclusive ≤ before.currentStreamVersion streamId) :
    after.eventsInVersionRange streamId fromExclusive toInclusive =
      before.eventsInVersionRange streamId fromExclusive toInclusive := by
  rw [currentStreamVersion_eq sequenced.exact] at within
  obtain ⟨added, extended⟩ := grown.stream streamId
  rw [sequenced.eventsInVersionRange_eq, sequencedAfter.eventsInVersionRange_eq,
    ← extended, take_append_of_le_length within]

theorem Extends.currentStreamVersion_le (grown : before.Extends after)
    (sequenced : before.Sequenced) (sequencedAfter : after.Sequenced) (streamId : String) :
    before.currentStreamVersion streamId ≤ after.currentStreamVersion streamId := by
  rw [currentStreamVersion_eq sequenced.exact, currentStreamVersion_eq sequencedAfter.exact]
  exact (grown.stream streamId).length_le

end SqlDispatchStorage

end Zuse.Domain
