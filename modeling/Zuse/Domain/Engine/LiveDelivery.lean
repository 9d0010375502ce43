import Zuse.Domain.Engine.EventTable
import Zuse.Domain.Engine.Synchronization

namespace Zuse.Domain

open Zuse.Data List Nat SqlDispatchStorage

theorem SqlDispatchStorage.Sequenced.readCurrentSequence_le {ε : Type u}
    {storage : SqlDispatchStorage ε} (sequenced : storage.Sequenced) :
    storage.readCurrentSequence ≤ storage.lastSequence := by
  rw [readCurrentSequence, le_maximum, forall_mem_map]
  exact sequenced.bounded

def SynchronizationRecord.isSnapshotChunk {ε : Type u} {σ : Type v} {μ : Type w} :
    SynchronizationRecord ε σ μ → Bool
  | .snapshotChunk .. => true
  | _ => false

def SynchronizationRecord.isReset {ε : Type u} {σ : Type v} {μ : Type w} :
    SynchronizationRecord ε σ μ → Bool
  | .resetRequired .. => true
  | _ => false

namespace Subscriber

variable {ε : Type u} {σ : Type v} {μ : Type w} (streamEpoch : String)
  (storage : SqlDispatchStorage ε) (subscriber : Subscriber ε σ μ)

/-- The event records of an interval of versions, as they are emitted. -/
def eventRecords (fromExclusive toInclusive : Nat) : List (SynchronizationRecord ε σ μ) :=
  (storage.eventsInVersionRange subscriber.input.streamId fromExclusive toInclusive).map
    (.event streamEpoch)

variable (emitted : List (SynchronizationRecord ε σ μ))

def DeltaPrefix : Prop :=
  subscriber.input.afterVersion.isSome ∧
    subscriber.input.retainedVersion ≤ subscriber.throughVersion ∧
    emitted = subscriber.eventRecords streamEpoch storage
      subscriber.input.retainedVersion subscriber.throughVersion

def SnapshotPrefix : Prop :=
  ∃ resets snapshot chunks,
    emitted = resets ++ [.snapshot streamEpoch subscriber.throughVersion snapshot
      subscriber.input.background] ++ chunks ∧
    resets.all (·.isReset) = true ∧ chunks.all (·.isSnapshotChunk) = true

def CapturedPrefix : Prop :=
  subscriber.DeltaPrefix streamEpoch storage emitted ∨ subscriber.SnapshotPrefix streamEpoch emitted

/-- The prefix, the marker and the events after it. -/
def LiveTail : Prop :=
  ∃ captured, subscriber.CapturedPrefix streamEpoch storage captured ∧
    emitted = captured ++ .synchronized streamEpoch subscriber.throughVersion ::
      subscriber.eventRecords streamEpoch storage subscriber.throughVersion subscriber.liveVersion

def Delivers : Prop :=
  subscriber.emitted = [] ∨ subscriber.CapturedPrefix streamEpoch storage subscriber.emitted ∨
    subscriber.LiveTail streamEpoch storage subscriber.emitted

def Emitted : Prop :=
  match subscriber.phase with
  | .registered | .subscribed => subscriber.emitted = []
  | .paging historyCursor =>
    subscriber.liveVersion = subscriber.throughVersion ∧
      subscriber.CapturedPrefix streamEpoch storage subscriber.emitted ∧
      (historyCursor.isSome = true → subscriber.SnapshotPrefix streamEpoch subscriber.emitted)
  | .following => subscriber.LiveTail streamEpoch storage subscriber.emitted
  | .failed _ | .closed => subscriber.Delivers streamEpoch storage

theorem Emitted.delivers {streamEpoch : String} {storage : SqlDispatchStorage ε}
    {subscriber : Subscriber ε σ μ} (emitted : subscriber.Emitted streamEpoch storage) :
    subscriber.Delivers streamEpoch storage := by
  rw [Emitted] at emitted
  split at emitted
  · exact .inl emitted
  · exact .inl emitted
  · exact .inr (.inl emitted.2.1)
  · exact .inr (.inr emitted)
  · exact emitted
  · exact emitted

def isLive : Bool :=
  match subscriber.phase with
  | .paging _ | .following => true
  | .registered | .subscribed | .failed _ | .closed => false

def queuedRecords : List (StoredEvent ε) :=
  subscriber.queue.filterMap Except.toOption

/-! What a subscriber relies on. The frontier is the last sequence that was published:
that of the durable cursor, or of a record that is published but not yet passed. -/

structure Follows (durableCursor frontier : Nat) : Prop where
  emitted : subscriber.Emitted streamEpoch storage
  through_le : subscriber.throughVersion ≤ subscriber.liveVersion
  live_le : subscriber.liveVersion ≤ storage.currentStreamVersion subscriber.input.streamId
  queued : ∀ record ∈ subscriber.queuedRecords, record ∈ storage.events
  sorted : subscriber.queuedRecords.Pairwise fun left right => left.sequence ≤ right.sequence
  behind : ∀ record ∈ subscriber.queuedRecords, ∀ unpublished ∈ storage.events,
    durableCursor < unpublished.sequence → record.sequence ≤ unpublished.sequence
  pending : subscriber.isLive = true → ∀ record ∈ storage.events,
    record.streamId = subscriber.input.streamId →
    subscriber.liveVersion < record.streamVersion →
    record ∈ subscriber.queuedRecords ∨ frontier < record.sequence
  noGap : ∀ eventId liveVersion streamVersion,
    subscriber.phase ≠ .failed (.gap eventId liveVersion streamVersion)

end Subscriber

theorem SynchronizedEventsInput.capture_spec {ε : Type u} {σ : Type v} {μ : Type w}
    (reader : TimelineReader ε σ μ) (streamEpoch : String)
    (input : SynchronizedEventsInput) {storage : SqlDispatchStorage ε}
    (sequenced : storage.Sequenced) :
    let captured := input.capture reader streamEpoch storage
    captured.throughVersion = storage.currentStreamVersion input.streamId ∧
      ((captured.historyCursor = none ∧ input.afterVersion.isSome = true ∧
          input.retainedVersion ≤ captured.throughVersion ∧
          captured.records = (storage.eventsInVersionRange input.streamId
            input.retainedVersion captured.throughVersion).map (.event streamEpoch)) ∨
        ∃ resets snapshot, captured.records = resets ++ [.snapshot streamEpoch
            captured.throughVersion snapshot input.background] ∧
          resets.all (·.isReset) = true) := by
  rw [capture]
  cases captured : input.capturedDelta reader streamEpoch storage with
  | none =>
    refine ⟨rfl, .inr ⟨_, _, rfl, ?_⟩⟩
    rw [resets]
    split
    · rfl
    · split <;> rfl
  | some delta =>
    simp only [capturedDelta] at captured
    split at captured
    · cases captured
    rename_i deltaAllowed
    simp only [not_or] at deltaAllowed
    obtain ⟨-, retained, sameEpoch, current, -⟩ := deltaAllowed
    split at captured
    · cases captured
    cases captured
    refine ⟨rfl, .inl ⟨rfl, ?_, Nat.le_of_not_lt current, ?_⟩⟩
    · exact Option.isSome_iff_ne_none.mpr (by simpa using retained)
    have noResets : (input.resets streamEpoch storage :
        List (SynchronizationRecord ε σ μ)) = [] := by
      rw [resets, if_neg sameEpoch, if_neg current]
    simp only [noResets, nil_append]
    rw [filter_eq_self.mpr]
    intro record member
    have versions := sequenced.range_versions input.streamId input.retainedVersion (le_refl _)
    have listed := mem_map_of_mem (f := (·.streamVersion)) member
    rw [versions, mem_range'_1] at listed
    exact decide_eq_true (by omega)

namespace Subscriber.Follows

variable {ε : Type u} {σ : Type v} {μ : Type w} {reader : TimelineReader ε σ μ}
  {streamEpoch : String} {storage next : SqlDispatchStorage ε}
  {subscriber : Subscriber ε σ μ} {durableCursor frontier : Nat}

theorem opened (input : SynchronizedEventsInput) :
    (Subscriber.opened input : Subscriber ε σ μ).Follows streamEpoch storage durableCursor
      frontier where
  emitted := rfl
  through_le := le_refl 0
  live_le := zero_le _
  queued := forall_mem_nil _
  sorted := List.Pairwise.nil
  behind := forall_mem_nil _
  pending := by
    intro live
    cases live
  noGap := by
    intro eventId liveVersion streamVersion failed
    cases failed

theorem commit (follows : subscriber.Follows streamEpoch storage durableCursor frontier)
    (sequenced : storage.Sequenced) (sequencedNext : next.Sequenced)
    (grown : storage.Extends next) (bounded : frontier ≤ storage.lastSequence) :
    subscriber.Follows streamEpoch next durableCursor frontier := by
  have range : ∀ fromExclusive toInclusive, toInclusive ≤ subscriber.liveVersion →
      subscriber.eventRecords streamEpoch next fromExclusive toInclusive =
        subscriber.eventRecords streamEpoch storage fromExclusive toInclusive := by
    intro fromExclusive toInclusive within
    rw [eventRecords, eventRecords, grown.range_eq sequenced sequencedNext _
      (within.trans follows.live_le)]
  constructor
  · have emitted := follows.emitted
    simp only [Emitted, Delivers, LiveTail, CapturedPrefix, DeltaPrefix,
      range _ _ follows.through_le, range _ _ (le_refl _)] at emitted ⊢
    exact emitted
  · exact follows.through_le
  · exact follows.live_le.trans (grown.currentStreamVersion_le sequenced sequencedNext _)
  · exact fun record queued => grown.prefixed.subset (follows.queued record queued)
  · exact follows.sorted
  · intro record queued unpublished member after
    rcases grown.later unpublished member with old | new
    · exact follows.behind record queued unpublished old after
    · exact ((sequenced.bounded record (follows.queued record queued)).trans_lt new).le
  · intro live record member sameStream unseen
    rcases grown.later record member with old | new
    · exact follows.pending live record old sameStream unseen
    · exact .inr (bounded.trans_lt new)
  · exact follows.noGap

theorem moved (follows : subscriber.Follows streamEpoch storage durableCursor frontier)
    {cursor earlier : Nat} (cursor_le : durableCursor ≤ cursor)
    (frontier_le : earlier ≤ frontier) :
    subscriber.Follows streamEpoch storage cursor earlier where
  emitted := follows.emitted
  through_le := follows.through_le
  live_le := follows.live_le
  queued := follows.queued
  sorted := follows.sorted
  behind := fun record queued unpublished member after =>
    follows.behind record queued unpublished member (cursor_le.trans_lt after)
  pending := by
    intro live record member sameStream unseen
    rcases follows.pending live record member sameStream unseen with queued | after
    · exact .inl queued
    · exact .inr (frontier_le.trans_lt after)
  noGap := follows.noGap

theorem emitted_congr {other : Subscriber ε σ μ} (emitted : subscriber.Emitted streamEpoch storage)
    (input : other.input = subscriber.input) (phase : other.phase = subscriber.phase)
    (through : other.throughVersion = subscriber.throughVersion)
    (live : other.liveVersion = subscriber.liveVersion)
    (records : other.emitted = subscriber.emitted) :
    other.Emitted streamEpoch storage := by
  simpa only [Emitted, Delivers, LiveTail, CapturedPrefix, DeltaPrefix, SnapshotPrefix,
    eventRecords, input, phase, through, live, records] using emitted

theorem notifyFailure (follows : subscriber.Follows streamEpoch storage durableCursor
      frontier) (reason : String) :
    (subscriber.notify (.error reason)).Follows streamEpoch storage durableCursor
      frontier := by
  rw [notify]
  split
  · have same : ({ subscriber with queue := subscriber.queue ++ [.error reason] } :
        Subscriber ε σ μ).queuedRecords = subscriber.queuedRecords := by
      rw [queuedRecords, filterMap_append]
      exact append_nil _
    constructor
    · exact emitted_congr follows.emitted rfl rfl rfl rfl rfl
    · exact follows.through_le
    · exact follows.live_le
    · exact same ▸ follows.queued
    · exact same ▸ follows.sorted
    · exact same ▸ follows.behind
    · exact same ▸ follows.pending
    · exact follows.noGap
  · exact follows

theorem notify (follows : subscriber.Follows streamEpoch storage durableCursor
      durableCursor) {record : StoredEvent ε} (stored : record ∈ storage.events)
    (unpublished : durableCursor < record.sequence)
    (first : ∀ other ∈ storage.events, durableCursor < other.sequence →
      other = record ∨ record.sequence < other.sequence) :
    (subscriber.notify (.ok record)).Follows streamEpoch storage durableCursor record.sequence := by
  rw [Subscriber.notify]
  split
  · have appended : ({ subscriber with queue := subscriber.queue ++ [.ok record] } :
        Subscriber ε σ μ).queuedRecords = subscriber.queuedRecords ++ [record] := by
      rw [queuedRecords, filterMap_append]
      rfl
    constructor
    · exact emitted_congr follows.emitted rfl rfl rfl rfl rfl
    · exact follows.through_le
    · exact follows.live_le
    · rw [appended]
      intro other queued
      rcases mem_concat.mp queued with before | rfl
      · exact follows.queued other before
      · exact stored
    · rw [appended, pairwise_append]
      refine ⟨follows.sorted, pairwise_singleton _ _, ?_⟩
      intro other queued last isLast
      rw [mem_singleton.mp isLast]
      exact follows.behind other queued record stored unpublished
    · rw [appended]
      intro other queued later member after
      rcases mem_concat.mp queued with before | rfl
      · exact follows.behind other before later member after
      · rcases first later member after with rfl | larger
        · exact le_refl _
        · exact larger.le
    · rw [appended]
      intro live other member sameStream unseen
      rcases follows.pending live other member sameStream unseen with queued | after
      · exact .inl (mem_append_left _ queued)
      · rcases first other member after with rfl | larger
        · exact .inl (mem_append_right _ (mem_singleton.mpr rfl))
        · exact .inr larger
    · exact follows.noGap
  · rename_i unsubscribed
    refine ⟨follows.emitted, follows.through_le, follows.live_le, follows.queued,
      follows.sorted, follows.behind, ?_, follows.noGap⟩
    intro live
    rw [Subscriber.isLive] at live
    rw [Subscriber.isSubscribed] at unsubscribed
    split at live <;> simp_all

section

variable (follows : subscriber.Follows streamEpoch storage durableCursor frontier)
include follows

theorem subscribe (registered : subscriber.phase = .registered) :
    ({ subscriber with phase := .subscribed } : Subscriber ε σ μ).Follows streamEpoch
      storage durableCursor frontier where
  emitted := by
    have emitted := follows.emitted
    rw [Emitted, registered] at emitted
    exact emitted
  through_le := follows.through_le
  live_le := follows.live_le
  queued := follows.queued
  sorted := follows.sorted
  behind := follows.behind
  pending := by
    intro live
    cases live
  noGap := by
    intro eventId liveVersion streamVersion failed
    cases failed

theorem stop {phase : SubscriberPhase} {queue : List (DurableNotification ε)}
    (queue_le : queue <:+ subscriber.queue)
    (stopped : phase = .closed ∨ ∃ failure, phase = .failed failure ∧
      ∀ eventId liveVersion streamVersion, failure ≠ .gap eventId liveVersion streamVersion) :
    ({ subscriber with phase := phase, queue := queue } : Subscriber ε σ μ).Follows
      streamEpoch storage durableCursor frontier := by
  have rest : ({ subscriber with phase := phase, queue := queue } :
      Subscriber ε σ μ).queuedRecords <:+ subscriber.queuedRecords :=
    queue_le.filterMap _
  constructor
  · have delivers := follows.emitted.delivers
    rcases stopped with rfl | ⟨failure, rfl, -⟩ <;> exact delivers
  · exact follows.through_le
  · exact follows.live_le
  · exact fun record queued => follows.queued record (rest.subset queued)
  · exact follows.sorted.sublist rest.sublist
  · exact fun record queued => follows.behind record (rest.subset queued)
  · intro live
    rcases stopped with rfl | ⟨failure, rfl, -⟩ <;> cases live
  intro eventId liveVersion streamVersion failed
  rcases stopped with rfl | ⟨failure, rfl, noGap⟩
  · cases failed
  · cases failed
    exact noGap _ _ _ rfl

theorem capture (sequenced : storage.Sequenced) :
    (subscriber.capture reader streamEpoch storage).Follows streamEpoch storage
      durableCursor frontier := by
  obtain ⟨through, records⟩ :=
    subscriber.input.capture_spec reader streamEpoch sequenced
  constructor
  · rcases records with ⟨noHistory, retained, current, delta⟩ | ⟨resets, snapshot, page⟩
    · refine ⟨rfl, .inl ⟨retained, current, delta⟩, ?_⟩
      rw [noHistory, ite_self]
      intro paging
      cases paging
    · have snapshotPrefix : (subscriber.capture reader streamEpoch storage).SnapshotPrefix
          streamEpoch (subscriber.capture reader streamEpoch storage).emitted :=
        ⟨resets, snapshot, [], page.1.trans (append_nil _).symm, page.2, rfl⟩
      exact ⟨rfl, .inr snapshotPrefix, fun _ => snapshotPrefix⟩
  · exact le_refl _
  · exact through.le
  · exact follows.queued
  · exact follows.sorted
  · exact follows.behind
  · intro live record member sameStream unseen
    have below := sequenced.version_le member
    rw [sameStream] at below
    change (subscriber.input.capture reader streamEpoch storage).throughVersion < _ at unseen
    rw [through] at unseen
    exact absurd unseen (not_lt.mpr below)
  · intro eventId liveVersion streamVersion failed
    cases failed

theorem readHistory {beforeSequence : Nat}
    (paging : subscriber.phase = .paging (some beforeSequence)) :
    (subscriber.readHistory reader streamEpoch storage beforeSequence).Follows streamEpoch
      storage durableCursor frontier := by
  have live : subscriber.isLive = true := by rw [isLive, paging]
  rw [Subscriber.readHistory]
  split
  · refine follows.stop (suffix_refl _) (.inr ⟨_, rfl, ?_⟩)
    intro eventId liveVersion streamVersion same
    cases same
  refine ⟨?_, follows.through_le, follows.live_le, follows.queued, follows.sorted,
    follows.behind, fun _ => follows.pending live, ?_⟩
  · have emitted := follows.emitted
    rw [Emitted, paging] at emitted
    obtain ⟨sameVersion, -, snapshotPrefix⟩ := emitted
    obtain ⟨resets, snapshot, chunks, page, areResets, areChunks⟩ := snapshotPrefix rfl
    have extended : ∀ messages older, SnapshotPrefix streamEpoch subscriber
        (subscriber.emitted ++
          [.snapshotChunk streamEpoch subscriber.throughVersion messages older]) := by
      intro messages older
      refine ⟨resets, snapshot,
        chunks ++ [.snapshotChunk streamEpoch subscriber.throughVersion messages older],
        ?_, areResets, ?_⟩
      · rw [page, append_assoc]
      · rw [all_append, areChunks]
        rfl
    exact ⟨sameVersion, .inr (extended _ _), fun _ => extended _ _⟩
  · intro eventId liveVersion streamVersion failed
    cases failed

theorem synchronize (sequenced : storage.Sequenced) (paging : subscriber.phase = .paging none) :
    (subscriber.synchronize streamEpoch).Follows streamEpoch storage durableCursor
      frontier := by
  have live : subscriber.isLive = true := by rw [isLive, paging]
  refine ⟨?_, follows.through_le, follows.live_le, follows.queued, follows.sorted,
    follows.behind, fun _ => follows.pending live, ?_⟩
  · have emitted := follows.emitted
    rw [Emitted, paging] at emitted
    obtain ⟨sameVersion, captured, -⟩ := emitted
    have noEvents : subscriber.eventRecords streamEpoch storage subscriber.throughVersion
        subscriber.throughVersion = [] := by
      rw [eventRecords, sequenced.eventsInVersionRange_eq,
        drop_eq_nil_of_le (length_take_le _ _), map_nil]
    refine ⟨subscriber.emitted, captured, ?_⟩
    change _ = _ ++ _ :: subscriber.eventRecords streamEpoch storage
      subscriber.throughVersion subscriber.liveVersion
    rw [sameVersion, noEvents]
    rfl
  · intro eventId liveVersion streamVersion failed
    cases failed

end

variable {rest : List (DurableNotification ε)}

variable (follows : subscriber.Follows streamEpoch storage durableCursor frontier)
include follows

theorem nextVersion_le (sequenced : storage.Sequenced)
    (cursor_le : durableCursor ≤ frontier) (live : subscriber.isLive = true)
    {record : StoredEvent ε} (taken : subscriber.queue = .ok record :: rest)
    (sameStream : record.streamId = subscriber.input.streamId) :
    record.streamVersion ≤ subscriber.liveVersion + 1 := by
  have queue : subscriber.queuedRecords = record :: rest.filterMap Except.toOption := by
    rw [queuedRecords, taken]
    rfl
  have sorted := follows.sorted
  rw [queue, pairwise_cons] at sorted
  have queued : record ∈ subscriber.queuedRecords := by simp [queue]
  have stored := follows.queued record queued
  by_contra ahead
  obtain ⟨other, otherStored, otherStream, isNext, earlier⟩ :=
    sequenced.earlier stored (Nat.succ_pos subscriber.liveVersion) (Nat.lt_of_not_le ahead)
  rcases follows.pending live other otherStored (otherStream.trans sameStream)
      (isNext ▸ lt_succ_self _) with inQueue | unpublished
  · rw [queue] at inQueue
    rcases mem_cons.mp inQueue with rfl | later
    · exact earlier.false
    · exact absurd earlier (not_lt.mpr (sorted.1 other later))
  · have ordered := follows.behind record queued other otherStored (cursor_le.trans_lt unpublished)
    exact absurd earlier (not_lt.mpr ordered)

theorem take (following : subscriber.phase = .following) {record : StoredEvent ε}
    (taken : subscriber.queue = .ok record :: rest) {liveVersion : Nat}
    {emitted : List (SynchronizationRecord ε σ μ)}
    (tail : ({ subscriber with liveVersion := liveVersion, queue := rest, emitted :=
      emitted } : Subscriber ε σ μ).LiveTail streamEpoch storage emitted)
    (advances : subscriber.liveVersion ≤ liveVersion)
    (live_le : liveVersion ≤ storage.currentStreamVersion subscriber.input.streamId)
    (seen : record.streamId = subscriber.input.streamId → record.streamVersion ≤ liveVersion) :
    ({ subscriber with
      liveVersion := liveVersion, queue := rest, emitted := emitted } :
        Subscriber ε σ μ).Follows streamEpoch storage durableCursor frontier := by
  have queue : subscriber.queuedRecords = record :: rest.filterMap Except.toOption := by
    rw [queuedRecords, taken]
    rfl
  have sorted := follows.sorted
  rw [queue, pairwise_cons] at sorted
  have later : ∀ other ∈ rest.filterMap Except.toOption, other ∈ subscriber.queuedRecords := by
    intro other member
    rw [queue]
    exact mem_cons_of_mem _ member
  constructor
  · simp only [following]
    exact tail
  · exact follows.through_le.trans advances
  · exact live_le
  · exact fun other member => follows.queued other (later other member)
  · exact sorted.2
  · exact fun other member => follows.behind other (later other member)
  · intro _ other stored sameStream unseen
    have live : subscriber.isLive = true := by rw [isLive, following]
    rcases follows.pending live other stored sameStream (advances.trans_lt unseen)
      with queued | unpublished
    · rw [queue] at queued
      rcases mem_cons.mp queued with rfl | inRest
      · exact absurd unseen (not_lt.mpr (seen sameStream))
      · exact .inl inRest
    · exact .inr unpublished
  · exact follows.noGap

theorem follow (sequenced : storage.Sequenced) (cursor_le : durableCursor ≤ frontier)
    (following : subscriber.phase = .following) {notification : DurableNotification ε}
    (taken : subscriber.queue = notification :: rest) :
    (subscriber.follow streamEpoch notification rest).Follows streamEpoch storage
      durableCursor frontier := by
  have live : subscriber.isLive = true := by rw [isLive, following]
  have tail : subscriber.LiveTail streamEpoch storage subscriber.emitted := by
    have emitted := follows.emitted
    rw [Emitted, following] at emitted
    exact emitted
  cases notification with
  | error reason =>
    refine follows.stop (taken ▸ suffix_cons _ _) (.inr ⟨_, rfl, ?_⟩)
    intro eventId liveVersion streamVersion same
    cases same
  | ok record =>
    have stored : record ∈ storage.events :=
      follows.queued record (by simp [queuedRecords, taken, Except.toOption])
    simp only [Subscriber.follow]
    split
    · rename_i otherStream
      exact follows.take following taken tail (le_refl _) follows.live_le
        fun same => absurd same otherStream
    rename_i sameStream
    rw [Decidable.not_not] at sameStream
    split
    · rename_i seen
      exact follows.take following taken tail (le_refl _) follows.live_le fun _ => seen
    have within := follows.nextVersion_le sequenced cursor_le live taken sameStream
    have isNext : record.streamVersion = subscriber.liveVersion + 1 := by omega
    rw [if_neg (not_not_intro isNext)]
    refine follows.take following taken ?_ (by omega) ?_ fun _ => le_refl _
    · obtain ⟨captured, isPrefix, split⟩ := tail
      refine ⟨captured, isPrefix, ?_⟩
      rw [split, eventRecords, eventRecords, isNext, ← sameStream,
        sequenced.range_succ stored follows.through_le isNext, map_append,
        append_assoc]
      rfl
    · exact sameStream ▸ sequenced.version_le stored

end Subscriber.Follows

namespace SynchronizationWorld

variable {ε : Type u} {σ : Type v} {μ : Type w} {reader : TimelineReader ε σ μ}
  {streamEpoch : String}

def frontier (world : SynchronizationWorld ε σ μ) : Nat :=
  match world.publication with
  | some ⟨record :: _, true⟩ => record.sequence
  | _ => world.durableCursor

structure Sound (streamEpoch : String) (world : SynchronizationWorld ε σ μ) : Prop where
  sequenced : world.storage.Sequenced
  cursor_le : world.durableCursor ≤ world.storage.lastSequence
  publication : ∀ publication, world.publication = some publication →
    publication.records <+: world.storage.events.filter (world.durableCursor < ·.sequence)
  follows : ∀ subscriber ∈ world.subscribers,
    subscriber.Follows streamEpoch world.storage world.durableCursor world.frontier

namespace Sound

variable {world next : SynchronizationWorld ε σ μ}

theorem initial : (synchronizationSystem reader streamEpoch).init.Sound streamEpoch where
  sequenced := .initial
  cursor_le := le_refl 0
  publication := by
    intro publication published
    cases published
  follows := forall_mem_nil _

theorem head (sound : world.Sound streamEpoch) {record : StoredEvent ε}
    {rest : List (StoredEvent ε)} {published : Bool}
    (publishing : world.publication = some ⟨record :: rest, published⟩) :
    record ∈ world.storage.events ∧ world.durableCursor < record.sequence ∧
      (∀ other ∈ world.storage.events, world.durableCursor < other.sequence →
        other = record ∨ record.sequence < other.sequence) ∧
      rest <+: world.storage.events.filter (record.sequence < ·.sequence) := by
  obtain ⟨later, unpublished⟩ := sound.publication _ publishing
  have ordered := sound.sequenced.ordered.filter (world.durableCursor < ·.sequence)
  rw [← unpublished, cons_append, pairwise_cons] at ordered
  have member : record ∈ world.storage.events.filter (world.durableCursor < ·.sequence) := by
    rw [← unpublished]
    exact mem_append_left _ mem_cons_self
  obtain ⟨stored, after⟩ := mem_filter.mp member
  have cursor_lt : world.durableCursor < record.sequence := of_decide_eq_true after
  refine ⟨stored, cursor_lt, ?_, later, ?_⟩
  · intro other otherStored otherAfter
    have otherMember : other ∈ world.storage.events.filter (world.durableCursor < ·.sequence) :=
      mem_filter.mpr ⟨otherStored, decide_eq_true otherAfter⟩
    rw [← unpublished] at otherMember
    rcases mem_cons.mp otherMember with same | behind
    · exact .inl same
    · exact .inr (ordered.1 other behind)
  have both : world.storage.events.filter (record.sequence < ·.sequence) =
      (world.storage.events.filter (world.durableCursor < ·.sequence)).filter
        (record.sequence < ·.sequence) := by
    rw [filter_filter]
    apply filter_congr
    intro other _
    rw [← Bool.decide_and]
    exact decide_eq_decide.mpr ⟨fun larger => ⟨larger, cursor_lt.trans larger⟩, And.left⟩
  have all : (rest ++ later).filter (record.sequence < ·.sequence) = rest ++ later :=
    filter_eq_self.mpr fun other member => decide_eq_true (ordered.1 other member)
  rw [both, ← unpublished, cons_append, filter_cons, if_neg (by simp), all]

theorem cursor_le_frontier (sound : world.Sound streamEpoch) :
    world.durableCursor ≤ world.frontier := by
  rw [frontier]
  split
  · rename_i record rest publishing
    exact (sound.head publishing).2.1.le
  · exact le_refl _

theorem frontier_le (sound : world.Sound streamEpoch) :
    world.frontier ≤ world.storage.lastSequence := by
  rw [frontier]
  split
  · rename_i record rest publishing
    exact sound.sequenced.bounded record (sound.head publishing).1
  · exact sound.cursor_le

theorem frontier_of_unpublished (unpublished : world.publication = none) :
    world.frontier = world.durableCursor := by
  rw [frontier, unpublished]

theorem frontier_of_read {records : List (StoredEvent ε)}
    (read : world.publication = some ⟨records, false⟩) :
    world.frontier = world.durableCursor := by
  rw [frontier, read]
  cases records <;> rfl

section

variable (sound : world.Sound streamEpoch)
include sound

theorem grow {storage : SqlDispatchStorage ε} (sequenced : storage.Sequenced)
    (grown : world.storage.Extends storage)
    (later : world.storage.lastSequence ≤ storage.lastSequence) :
    ({ world with storage := storage } : SynchronizationWorld ε σ μ).Sound streamEpoch where
  sequenced := sequenced
  cursor_le := sound.cursor_le.trans later
  publication := fun publication publishing =>
    (sound.publication publication publishing).trans (grown.prefixed.filter _)
  follows := fun subscriber member =>
    (sound.follows subscriber member).commit sound.sequenced sequenced grown sound.frontier_le

theorem setSubscriber (index : Nat) {subscriber : Subscriber ε σ μ}
    (follows : subscriber.Follows streamEpoch world.storage world.durableCursor world.frontier) :
    (world.setSubscriber index subscriber).Sound streamEpoch where
  sequenced := sound.sequenced
  cursor_le := sound.cursor_le
  publication := sound.publication
  follows := by
    intro other member
    rcases mem_or_eq_of_mem_set member with before | rfl
    · exact sound.follows other before
    · exact follows

theorem publish {record : StoredEvent ε} {rest : List (StoredEvent ε)}
    (publishing : world.publication = some ⟨record :: rest, false⟩) :
    ({ world.notify (.ok record) with publication := some ⟨record :: rest, true⟩ } :
      SynchronizationWorld ε σ μ).Sound streamEpoch where
  sequenced := sound.sequenced
  cursor_le := sound.cursor_le
  publication := by
    intro publication published
    cases published
    have unpublished := sound.publication _ publishing
    exact unpublished
  follows := by
    intro notified member
    obtain ⟨subscriber, present, rfl⟩ := mem_map.mp member
    obtain ⟨stored, unpublished, first, -⟩ := sound.head publishing
    have follows := sound.follows subscriber present
    have atCursor := frontier_of_read publishing
    rw [atCursor] at follows
    exact follows.notify stored unpublished first

theorem advanceCursor {record : StoredEvent ε} {rest : List (StoredEvent ε)}
    (publishing : world.publication = some ⟨record :: rest, true⟩) :
    ({ world with
        durableCursor := record.sequence, publication := some ⟨rest, false⟩ } :
      SynchronizationWorld ε σ μ).Sound streamEpoch := by
  obtain ⟨stored, unpublished, -, later⟩ := sound.head publishing
  have atRecord : world.frontier = record.sequence := by rw [frontier, publishing]
  refine ⟨sound.sequenced, sound.sequenced.bounded record stored, ?_, ?_⟩
  · intro publication published
    cases published
    exact later
  · intro subscriber member
    refine (sound.follows subscriber member).moved unpublished.le ?_
    rw [frontier_of_read rfl, atRecord]

theorem unpublish (count : Nat) :
    ({ world with durableSubscriberCount := count, publication := none } :
      SynchronizationWorld ε σ μ).Sound streamEpoch where
  sequenced := sound.sequenced
  cursor_le := sound.cursor_le
  publication := by
    intro publication published
    cases published
  follows := fun subscriber member =>
    (sound.follows subscriber member).moved (le_refl _) sound.cursor_le_frontier

theorem reconcile (unpublished : world.publication = none) : world.reconcile.Sound streamEpoch := by
  rw [SynchronizationWorld.reconcile]
  split
  · exact sound
  refine ⟨sound.sequenced, sound.cursor_le, ?_, ?_⟩
  · intro publication published
    cases published
    rw [sound.sequenced.allEventsAfterSequence_eq]
  intro subscriber member
  have follows := sound.follows subscriber member
  rw [frontier_of_unpublished unpublished] at follows
  rw [frontier_of_read rfl]
  exact follows

end

theorem step (sound : world.Sound streamEpoch) {label : SynchronizationStep ε}
    (stepped : (synchronizationSystem reader streamEpoch).step world label = some next) :
    next.Sound streamEpoch := by
  cases label with
  | commit input =>
    simp only [synchronizationSystem] at stepped
    split at stepped
    · rename_i fresh
      split at stepped
      · cases stepped
      · rename_i receipt storage appended
        cases stepped
        obtain ⟨sequenced, grown, later⟩ :=
          sound.sequenced.append fresh.1 fresh.2 appended
        exact sound.grow sequenced grown later
    · cases stepped
  | commitElsewhere rows =>
    cases stepped
    have later : world.storage.lastSequence ≤ world.storage.lastSequence + rows :=
      le_add_right _ _
    refine sound.grow ?_ ⟨prefix_rfl, fun _ member => .inl member⟩ later
    exact ⟨sound.sequenced.exact, sound.sequenced.ordered, fun record member =>
      (sound.sequenced.bounded record member).trans later⟩
  | reconcile =>
    simp only [synchronizationSystem] at stepped
    split at stepped
    · cases stepped
    · rename_i unpublished
      cases stepped
      exact sound.reconcile unpublished
  | reconcileFailure reason =>
    simp only [synchronizationSystem] at stepped
    split at stepped
    · cases stepped
    split at stepped
    · cases stepped
    cases stepped
    refine ⟨sound.sequenced, sound.cursor_le, sound.publication, ?_⟩
    intro notified member
    obtain ⟨subscriber, present, rfl⟩ := mem_map.mp member
    exact (sound.follows subscriber present).notifyFailure reason
  | publish =>
    simp only [synchronizationSystem] at stepped
    split at stepped
    · rename_i record rest publishing
      cases stepped
      exact sound.publish publishing
    · cases stepped
  | advanceCursor =>
    simp only [synchronizationSystem] at stepped
    split at stepped
    · rename_i record rest publishing
      cases stepped
      exact sound.advanceCursor publishing
    · cases stepped
  | release =>
    cases stepped
    exact sound.unpublish world.durableSubscriberCount
  | registerOther | unregisterOther =>
    cases stepped
    exact ⟨sound.sequenced, sound.cursor_le, sound.publication, sound.follows⟩
  | openStream input =>
    cases stepped
    refine ⟨sound.sequenced, sound.cursor_le, sound.publication, ?_⟩
    intro subscriber member
    rcases mem_concat.mp member with before | rfl
    · exact sound.follows subscriber before
    · exact .opened input
  | subscribe index =>
    simp only [synchronizationSystem] at stepped
    split at stepped
    · cases stepped
    rename_i subscriber found
    split at stepped
    · rename_i registered
      cases stepped
      exact sound.setSubscriber index
        ((sound.follows subscriber (mem_of_getElem? found)).subscribe registered)
    · cases stepped
  | capture index =>
    simp only [synchronizationSystem] at stepped
    split at stepped
    · cases stepped
    rename_i subscriber found
    split at stepped
    · cases stepped
      exact sound.setSubscriber index
        ((sound.follows subscriber (mem_of_getElem? found)).capture sound.sequenced)
    · cases stepped
  | readHistory index =>
    simp only [synchronizationSystem] at stepped
    split at stepped
    · cases stepped
    rename_i subscriber found
    split at stepped
    · rename_i beforeSequence paging
      cases stepped
      exact sound.setSubscriber index
        ((sound.follows subscriber (mem_of_getElem? found)).readHistory paging)
    · cases stepped
  | synchronize index =>
    simp only [synchronizationSystem] at stepped
    split at stepped
    · cases stepped
    rename_i subscriber found
    split at stepped
    · rename_i paging
      cases stepped
      exact sound.setSubscriber index
        ((sound.follows subscriber (mem_of_getElem? found)).synchronize sound.sequenced paging)
    · cases stepped
  | follow index =>
    simp only [synchronizationSystem] at stepped
    split at stepped
    · cases stepped
    rename_i subscriber found
    split at stepped
    · rename_i notification rest following taken
      cases stepped
      exact sound.setSubscriber index
        ((sound.follows subscriber (mem_of_getElem? found)).follow
          sound.sequenced sound.cursor_le_frontier following taken)
    · cases stepped
  | close index =>
    simp only [synchronizationSystem] at stepped
    split at stepped
    · cases stepped
    rename_i subscriber found
    split at stepped
    · cases stepped
    cases stepped
    have set := sound.setSubscriber index
      ((sound.follows subscriber (mem_of_getElem? found)).stop (suffix_refl _) (.inl rfl))
    exact ⟨set.sequenced, set.cursor_le, set.publication, set.follows⟩
  | restart =>
    cases stepped
    refine ⟨sound.sequenced, sound.sequenced.readCurrentSequence_le, ?_, forall_mem_nil _⟩
    intro publication published
    cases published

theorem of_reachable (reachable : (synchronizationSystem reader streamEpoch).Reachable world) :
    world.Sound streamEpoch :=
  reachable.invariant .initial fun _ _ _ _ sound stepped => sound.step stepped

end Sound

/-- Every version is delivered once and in order, or is still under way. -/
structure Synchronizes (streamEpoch : String) (world : SynchronizationWorld ε σ μ)
    (subscriber : Subscriber ε σ μ) : Prop where
  delivers : subscriber.Delivers streamEpoch world.storage
  versions : ∀ fromExclusive toInclusive, toInclusive ≤ subscriber.liveVersion →
    (world.storage.eventsInVersionRange subscriber.input.streamId fromExclusive
      toInclusive).map (·.streamVersion) =
        List.range' (fromExclusive + 1) (toInclusive - fromExclusive)
  noGap : ∀ eventId liveVersion streamVersion,
    subscriber.phase ≠ .failed (.gap eventId liveVersion streamVersion)
  underWay : subscriber.isLive = true → ∀ record ∈ world.storage.events,
    record.streamId = subscriber.input.streamId →
    subscriber.liveVersion < record.streamVersion →
    .ok record ∈ subscriber.queue ∨ world.durableCursor < record.sequence
  caughtUp : subscriber.isLive = true → subscriber.queue = [] →
    (∀ record ∈ world.storage.events, record.sequence ≤ world.durableCursor) →
    subscriber.liveVersion = world.storage.currentStreamVersion subscriber.input.streamId

theorem mem_queuedRecords {subscriber : Subscriber ε σ μ} {record : StoredEvent ε} :
    record ∈ subscriber.queuedRecords ↔ .ok record ∈ subscriber.queue := by
  rw [Subscriber.queuedRecords, mem_filterMap]
  constructor
  · rintro ⟨notification, queued, isRecord⟩
    cases notification with
    | error reason => cases isRecord
    | ok other =>
      cases isRecord
      exact queued
  · exact fun queued => ⟨_, queued, rfl⟩

theorem Sound.synchronizes {world : SynchronizationWorld ε σ μ}
    (sound : world.Sound streamEpoch) {subscriber : Subscriber ε σ μ}
    (member : subscriber ∈ world.subscribers) : world.Synchronizes streamEpoch subscriber := by
  have follows := sound.follows subscriber member
  have underWay : subscriber.isLive = true → ∀ record ∈ world.storage.events,
      record.streamId = subscriber.input.streamId →
      subscriber.liveVersion < record.streamVersion →
      .ok record ∈ subscriber.queue ∨ world.durableCursor < record.sequence := by
    intro live record stored sameStream unseen
    rcases follows.pending live record stored sameStream unseen with queued | unpublished
    · exact .inl (mem_queuedRecords.mp queued)
    · exact .inr (sound.cursor_le_frontier.trans_lt unpublished)
  refine ⟨follows.emitted.delivers, ?_, follows.noGap, underWay, ?_⟩
  · intro fromExclusive toInclusive within
    exact sound.sequenced.range_versions _ _ (within.trans follows.live_le)
  intro live drained published
  refine le_antisymm follows.live_le ?_
  rw [currentStreamVersion, le_maximum, forall_mem_map]
  intro record streamed
  obtain ⟨stored, sameStream⟩ := mem_filter.mp streamed
  by_contra unseen
  rcases underWay live record stored (of_decide_eq_true sameStream)
    (Nat.lt_of_not_le unseen) with queued | unpublished
  · rw [drained] at queued
    cases queued
  · exact absurd (published record stored) (not_le.mpr unpublished)

theorem synchronizes_of_reachable {world : SynchronizationWorld ε σ μ}
    (reachable : (synchronizationSystem reader streamEpoch).Reachable world) :
    ∀ subscriber ∈ world.subscribers, world.Synchronizes streamEpoch subscriber :=
  fun _ member => (Sound.of_reachable reachable).synchronizes member

def republished : List (SynchronizationStep String) :=
  let commit (version : Nat) : SynchronizationStep String :=
    .commit
      { commandId := toString version
        streamId := "session"
        correlationId := "request"
        causationEventId := none
        expectedVersion := version
        events := [(toString version, "event")]
        result := none
        receiptIdentity := none }
  [.openStream
      { streamId := "session"
        afterVersion := some 0
        streamEpoch := none
        hasProjection := true },
    commit 0, .reconcile, .publish, .advanceCursor, .release, .subscribe 0, .capture 0,
    commit 1, .synchronize 0, .reconcile, .publish, .release, .reconcile, .publish,
    .advanceCursor, .follow 0, .follow 0]

def noTimeline : TimelineReader String Unit Unit where
  readSnapshot := fun _ _ => ()
  olderMessageSequence := fun _ => none
  readMessagePage := fun _ _ _ => ((), none)
  encodedBytes := fun _ _ => 0

theorem synchronizes_of_republished :
    ∃ world subscriber, (synchronizationSystem noTimeline "epoch").run republished =
        some world ∧ world.subscribers = [subscriber] ∧
      subscriber.emitted.length = 3 ∧ subscriber.liveVersion = 2 ∧
      world.Synchronizes "epoch" subscriber := by
  have ran : ((synchronizationSystem noTimeline "epoch").run republished).map
      (fun world => world.subscribers.map fun subscriber =>
        (subscriber.emitted.length, subscriber.liveVersion)) = some [(3, 2)] := by
    decide +kernel
  obtain ⟨world, reached, observed⟩ := Option.map_eq_some_iff.mp ran
  obtain ⟨subscriber, isOnly, counts⟩ := map_eq_singleton_iff.mp observed
  obtain ⟨emitted, live⟩ := Prod.mk.inj counts
  refine ⟨world, subscriber, reached, isOnly, emitted, live, ?_⟩
  exact synchronizes_of_reachable (TransitionSystem.run_reachable reached) subscriber
    (by rw [isOnly]; exact mem_singleton.mpr rfl)

end SynchronizationWorld

end Zuse.Domain
