import Zuse.Data.TransitionSystem
import Zuse.Domain.Engine.SqlDispatchStorage

namespace Zuse.Domain

open Zuse.Data

/-! Live synchronization: a publisher that follows the event table, a hub, and the
streams that read a prefix from the table and then follow the hub. -/

inductive ResetReason where
  | restored
  | cursorInvalid

/-- A snapshot of the timeline and its history pages, as far as the stream looks into
them. -/
structure TimelineReader (ε : Type u) (σ : Type v) (μ : Type w) where
  readSnapshot : SqlDispatchStorage ε → String → σ
  olderMessageSequence : σ → Option Nat
  readMessagePage : SqlDispatchStorage ε → String → Nat → μ × Option Nat
  encodedBytes : String → StoredEvent ε → Nat

inductive SynchronizationRecord (ε : Type u) (σ : Type v) (μ : Type w) where
  | snapshot (streamEpoch : String) (throughVersion : Nat) (snapshot : σ) (background : Bool)
  | snapshotChunk (streamEpoch : String) (throughVersion : Nat) (messages : μ)
      (olderMessageSequence : Option Nat)
  | event (streamEpoch : String) (record : StoredEvent ε)
  | synchronized (streamEpoch : String) (throughVersion : Nat)
  | resetRequired (streamEpoch : String) (throughVersion : Nat) (reason : ResetReason)

inductive SynchronizationFailure where
  | gap (eventId : String) (liveVersion streamVersion : Nat)
  | published (reason : String)
  | historyCursor (streamId : String)
  deriving DecidableEq

def maxTimelineSnapshotProjectionBytes : Nat := 900 * 1024

structure SynchronizedEventsInput where
  streamId : String
  afterVersion : Option Nat
  streamEpoch : Option String
  hasProjection : Bool := false
  background : Bool := false
  maxDeltaEvents : Nat := 512
  maxDeltaBytes : Nat := maxTimelineSnapshotProjectionBytes

namespace SqlDispatchStorage

def readCurrentSequence {ε : Type u} (storage : SqlDispatchStorage ε) : Nat :=
  maximum (storage.events.map (·.sequence))

end SqlDispatchStorage

structure CapturedPrefix (ε : Type u) (σ : Type v) (μ : Type w) where
  records : List (SynchronizationRecord ε σ μ)
  throughVersion : Nat
  historyCursor : Option Nat

namespace SynchronizedEventsInput

variable {ε : Type u} {σ : Type v} {μ : Type w} (reader : TimelineReader ε σ μ)
  (streamEpoch : String) (input : SynchronizedEventsInput) (storage : SqlDispatchStorage ε)

def retainedVersion : Nat := input.afterVersion.getD 0

def epochMismatch : Bool := ∃ retained ∈ input.streamEpoch, retained ≠ streamEpoch

def capturedDelta : Option (List (StoredEvent ε)) :=
  let throughVersion := storage.currentStreamVersion input.streamId
  if input.hasProjection = false ∨ input.afterVersion.isNone ∨
      input.epochMismatch streamEpoch ∨ throughVersion < input.retainedVersion ∨
      input.maxDeltaEvents < throughVersion - input.retainedVersion then none
  else
    let captured :=
      storage.eventsInVersionRange input.streamId input.retainedVersion throughVersion
    let bytes := captured.foldl
      (fun total record => total + reader.encodedBytes streamEpoch record) 0
    if input.maxDeltaBytes < bytes then none else some captured

def resets : List (SynchronizationRecord ε σ μ) :=
  let throughVersion := storage.currentStreamVersion input.streamId
  if input.epochMismatch streamEpoch then
    [.resetRequired streamEpoch throughVersion .restored]
  else if throughVersion < input.retainedVersion then
    [.resetRequired streamEpoch throughVersion .cursorInvalid]
  else []

def capture : CapturedPrefix ε σ μ :=
  let throughVersion := storage.currentStreamVersion input.streamId
  match input.capturedDelta reader streamEpoch storage with
  | none =>
    let snapshot := reader.readSnapshot storage input.streamId
    { records := input.resets streamEpoch storage ++
        [.snapshot streamEpoch throughVersion snapshot input.background]
      throughVersion
      historyCursor := reader.olderMessageSequence snapshot }
  | some captured =>
    { records := input.resets streamEpoch storage ++
        (captured.filter (input.retainedVersion < ·.streamVersion)).map (.event streamEpoch)
      throughVersion
      historyCursor := none }

end SynchronizedEventsInput

inductive SubscriberPhase where
  /-- It counts as a durable subscriber, but is not subscribed to the hub. -/
  | registered
  | subscribed
  | paging (historyCursor : Option Nat)
  | following
  | failed (failure : SynchronizationFailure)
  | closed
  deriving DecidableEq

abbrev DurableNotification (ε : Type u) := Except String (StoredEvent ε)

structure Subscriber (ε : Type u) (σ : Type v) (μ : Type w) where
  input : SynchronizedEventsInput
  phase : SubscriberPhase
  throughVersion : Nat
  liveVersion : Nat
  /-- What the hub published to the subscription and the stream has not taken. -/
  queue : List (DurableNotification ε)
  emitted : List (SynchronizationRecord ε σ μ)

namespace Subscriber

variable {ε : Type u} {σ : Type v} {μ : Type w} (reader : TimelineReader ε σ μ)
  (streamEpoch : String) (subscriber : Subscriber ε σ μ)

def opened (input : SynchronizedEventsInput) : Subscriber ε σ μ where
  input
  phase := .registered
  throughVersion := 0
  liveVersion := 0
  queue := []
  emitted := []

def isSubscribed : Bool :=
  match subscriber.phase with
  | .subscribed | .paging _ | .following => true
  | .registered | .failed _ | .closed => false

def notify (notification : DurableNotification ε) : Subscriber ε σ μ :=
  if subscriber.isSubscribed then
    { subscriber with queue := subscriber.queue ++ [notification] }
  else subscriber

def capture (storage : SqlDispatchStorage ε) : Subscriber ε σ μ :=
  let captured := subscriber.input.capture reader streamEpoch storage
  { subscriber with
    phase := .paging (if subscriber.input.background then none else captured.historyCursor)
    throughVersion := captured.throughVersion
    liveVersion := captured.throughVersion
    emitted := captured.records }

def readHistory (storage : SqlDispatchStorage ε) (beforeSequence : Nat) : Subscriber ε σ μ :=
  let page := reader.readMessagePage storage subscriber.input.streamId beforeSequence
  if ∃ older ∈ page.2, beforeSequence ≤ older then
    { subscriber with phase := .failed (.historyCursor subscriber.input.streamId) }
  else
    { subscriber with
      phase := .paging page.2
      emitted := subscriber.emitted ++
        [.snapshotChunk streamEpoch subscriber.throughVersion page.1 page.2] }

def synchronize : Subscriber ε σ μ :=
  { subscriber with
    phase := .following
    emitted := subscriber.emitted ++ [.synchronized streamEpoch subscriber.throughVersion] }

def follow (notification : DurableNotification ε) (rest : List (DurableNotification ε)) :
    Subscriber ε σ μ :=
  let taken := { subscriber with queue := rest }
  match notification with
  | .error reason => { taken with phase := .failed (.published reason) }
  | .ok record =>
    if record.streamId ≠ subscriber.input.streamId then taken
    else if record.streamVersion ≤ subscriber.liveVersion then taken
    else if record.streamVersion ≠ subscriber.liveVersion + 1 then
      { taken with
        phase := .failed (.gap record.eventId subscriber.liveVersion record.streamVersion) }
    else
      { taken with
        liveVersion := record.streamVersion
        emitted := subscriber.emitted ++ [.event streamEpoch record] }

end Subscriber

/-- The records that a reconciliation has read and not passed, with the first of them
published or not. -/
structure Publication (ε : Type u) where
  records : List (StoredEvent ε)
  published : Bool

structure SynchronizationWorld (ε : Type u) (σ : Type v) (μ : Type w) where
  storage : SqlDispatchStorage ε
  durableCursor : Nat
  durableSubscriberCount : Nat
  publication : Option (Publication ε)
  subscribers : List (Subscriber ε σ μ)

inductive SynchronizationStep (ε : Type u) where
  | commit (input : AppendInput ε)
  | commitElsewhere (rows : Nat)
  | reconcile
  | reconcileFailure (reason : String)
  | publish
  | advanceCursor
  | release
  | registerOther
  | unregisterOther
  | openStream (input : SynchronizedEventsInput)
  | subscribe (subscriber : Nat)
  | capture (subscriber : Nat)
  | readHistory (subscriber : Nat)
  | synchronize (subscriber : Nat)
  | follow (subscriber : Nat)
  | close (subscriber : Nat)
  | restart

namespace SynchronizationWorld

variable {ε : Type u} {σ : Type v} {μ : Type w} (world : SynchronizationWorld ε σ μ)

def notify (notification : DurableNotification ε) : SynchronizationWorld ε σ μ :=
  { world with subscribers := world.subscribers.map (·.notify notification) }

def setSubscriber (index : Nat) (subscriber : Subscriber ε σ μ) : SynchronizationWorld ε σ μ :=
  { world with subscribers := world.subscribers.set index subscriber }

def reconcile : SynchronizationWorld ε σ μ :=
  if world.durableSubscriberCount = 0 then world
  else
    { world with
      publication := some
        { records := world.storage.allEventsAfterSequence world.durableCursor
          published := false } }

/-- The events of a commit carry ids that no other event carries. -/
def FreshIds (input : AppendInput ε) : Prop :=
  (input.events.map Prod.fst).Nodup ∧
    ∀ id ∈ input.events.map Prod.fst, id ∉ world.storage.events.map (·.eventId)

instance (input : AppendInput ε) : Decidable (world.FreshIds input) :=
  inferInstanceAs (Decidable (_ ∧ _))

end SynchronizationWorld

section System

variable {ε : Type u} {σ : Type v} {μ : Type w}

def synchronizationSystem (reader : TimelineReader ε σ μ) (streamEpoch : String) :
    TransitionSystem (SynchronizationWorld ε σ μ) (SynchronizationStep ε) where
  init :=
    { storage := (sqlStorage ε).empty
      durableCursor := 0
      durableSubscriberCount := 0
      publication := none
      subscribers := [] }
  step := fun world label =>
    match label with
    | .commit input =>
      if world.FreshIds input then
        match world.storage.append input with
        | .error _ => none
        | .ok (_, next) => some { world with storage := next }
      else none
    | .commitElsewhere rows =>
      some
        { world with
          storage :=
            { world.storage with lastSequence := world.storage.lastSequence + rows } }
    | .reconcile =>
      match world.publication with
      | some _ => none
      | none => some world.reconcile
    | .reconcileFailure reason =>
      match world.publication with
      | some _ => none
      | none =>
        if world.durableSubscriberCount = 0 then none
        else some (world.notify (.error reason))
    | .publish =>
      match world.publication with
      | some ⟨record :: rest, false⟩ =>
        some { world.notify (.ok record) with publication := some ⟨record :: rest, true⟩ }
      | _ => none
    | .advanceCursor =>
      match world.publication with
      | some ⟨record :: rest, true⟩ =>
        some
          { world with
            durableCursor := record.sequence
            publication := some ⟨rest, false⟩ }
      | _ => none
    | .release => some { world with publication := none }
    | .registerOther =>
      some { world with durableSubscriberCount := world.durableSubscriberCount + 1 }
    | .unregisterOther =>
      some { world with durableSubscriberCount := world.durableSubscriberCount - 1 }
    | .openStream input =>
      some
        { world with
          durableSubscriberCount := world.durableSubscriberCount + 1
          subscribers := world.subscribers ++ [.opened input] }
    | .subscribe index =>
      match world.subscribers[index]? with
      | none => none
      | some subscriber =>
        if subscriber.phase = .registered then
          some (world.setSubscriber index { subscriber with phase := .subscribed })
        else none
    | .capture index =>
      match world.subscribers[index]? with
      | none => none
      | some subscriber =>
        if subscriber.phase = .subscribed then
          some (world.setSubscriber index (subscriber.capture reader streamEpoch world.storage))
        else none
    | .readHistory index =>
      match world.subscribers[index]? with
      | none => none
      | some subscriber =>
        match subscriber.phase with
        | .paging (some beforeSequence) =>
          some (world.setSubscriber index
            (subscriber.readHistory reader streamEpoch world.storage beforeSequence))
        | _ => none
    | .synchronize index =>
      match world.subscribers[index]? with
      | none => none
      | some subscriber =>
        if subscriber.phase = .paging none then
          some (world.setSubscriber index (subscriber.synchronize streamEpoch))
        else none
    | .follow index =>
      match world.subscribers[index]? with
      | none => none
      | some subscriber =>
        match subscriber.phase, subscriber.queue with
        | .following, notification :: rest =>
          some (world.setSubscriber index (subscriber.follow streamEpoch notification rest))
        | _, _ => none
    | .close index =>
      match world.subscribers[index]? with
      | none => none
      | some subscriber =>
        if subscriber.phase = .closed then none
        else
          some
            { world.setSubscriber index { subscriber with phase := .closed } with
              durableSubscriberCount := world.durableSubscriberCount - 1 }
    | .restart =>
      some
        { storage := world.storage
          durableCursor := world.storage.readCurrentSequence
          durableSubscriberCount := 0
          publication := none
          subscribers := [] }

end System

end Zuse.Domain
