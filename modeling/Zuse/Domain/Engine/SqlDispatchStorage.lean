import Mathlib.Data.List.Sort
import Zuse.Domain.Engine.DispatchStorage

namespace Zuse.Domain

open Zuse.Data List

/-! The storage in SQL. The rows are those of one stream kind; the sequence counter is
that of the whole table. -/

structure SqlDispatchStorage (ε : Type u) where
  events : List (StoredEvent ε)
  commandReceipts : List CommandReceipt
  lastSequence : Nat

namespace SqlDispatchStorage

variable {ε : Type u}

/-- `COALESCE(MAX(column), 0)`. -/
def maximum (column : List Nat) : Nat := column.foldl max 0

variable (storage : SqlDispatchStorage ε)

def receipt (commandId : String) : Option CommandReceipt :=
  storage.commandReceipts.find? (·.commandId = commandId)

def byVersion (rows : List (StoredEvent ε)) : List (StoredEvent ε) :=
  rows.insertionSort fun left right => left.streamVersion ≤ right.streamVersion

def bySequence (rows : List (StoredEvent ε)) : List (StoredEvent ε) :=
  rows.insertionSort fun left right => left.sequence ≤ right.sequence

def streamEvents (streamId : String) : List (StoredEvent ε) :=
  byVersion (storage.events.filter (·.streamId = streamId))

def allEventsAfterSequence (sequence : Nat) : List (StoredEvent ε) :=
  bySequence (storage.events.filter fun row => sequence < row.sequence)

def eventsInVersionRange (streamId : String)
    (fromExclusive toInclusive : Nat) : List (StoredEvent ε) :=
  byVersion (storage.events.filter fun row =>
    row.streamId = streamId ∧ fromExclusive < row.streamVersion ∧ row.streamVersion ≤ toInclusive)

def currentStreamVersion (streamId : String) : Nat :=
  maximum ((storage.events.filter (·.streamId = streamId)).map (·.streamVersion))

def insert (input : AppendInput ε) : SqlDispatchStorage ε where
  events := storage.events ++ input.stored storage.lastSequence
  commandReceipts := storage.commandReceipts ++ [input.receipt]
  lastSequence := storage.lastSequence + input.events.length

def append (input : AppendInput ε) :
    Except DispatchFailure (CommandReceipt × SqlDispatchStorage ε) :=
  match storage.receipt input.commandId with
  | some existing =>
    (validateCommandReceipt input.commandId input.streamId input.receiptIdentity
      existing).map fun receipt => (receipt, storage)
  | none =>
    let actualVersion := storage.currentStreamVersion input.streamId
    if actualVersion ≠ input.expectedVersion then
      .error (.concurrencyConflict input.streamId input.expectedVersion actualVersion)
    else .ok (input.receipt, storage.insert input)

def contents : DispatchContents ε where
  log := storage.events
  receipts := storage.commandReceipts

theorem maximum_range' (count : Nat) : maximum (List.range' 1 count) = count := by
  induction count with
  | zero => rfl
  | succ count ih =>
    rw [maximum] at ih
    rw [maximum, range'_concat, foldl_append]
    simp only [foldl_cons, foldl_nil]
    omega

theorem byVersion_sorted {rows : List (StoredEvent ε)}
    (sorted : (rows.map (·.streamVersion)).Pairwise (· ≤ ·)) : byVersion rows = rows := by
  rw [pairwise_map] at sorted
  exact sorted.insertionSort_eq

section Exact

variable {storage : SqlDispatchStorage ε} (exact : storage.contents.versioned.Exact)

include exact

theorem streamVersions (streamId : String) :
    (storage.contents.stream streamId).map (·.streamVersion) =
      List.range' 1 (storage.contents.stream streamId).length := by
  have versions := exact.versions streamId
  rw [DispatchContents.streamEntries_versioned, DispatchContents.length_versioned,
    map_map] at versions
  exact versions

theorem currentStreamVersion_eq (streamId : String) :
    storage.currentStreamVersion streamId = (storage.contents.stream streamId).length := by
  have versions := streamVersions exact streamId
  exact (congrArg maximum versions).trans (maximum_range' _)

theorem streamEvents_eq (streamId : String) :
    storage.streamEvents streamId = storage.contents.stream streamId := by
  apply byVersion_sorted
  have versions := streamVersions exact streamId
  exact versions ▸ pairwise_le_range'

end Exact

end SqlDispatchStorage

def sqlStorage (ε : Type u) : DispatchStorage (SqlDispatchStorage ε) ε where
  empty := { events := [], commandReceipts := [], lastSequence := 0 }
  receipt := SqlDispatchStorage.receipt
  events := SqlDispatchStorage.streamEvents
  append := SqlDispatchStorage.append

def lawfulSqlStorage (ε : Type u) : LawfulDispatchStorage (SqlDispatchStorage ε) ε where
  toDispatchStorage := sqlStorage ε
  contents := SqlDispatchStorage.contents
  contents_empty := rfl
  receipt_eq := fun _ _ => rfl
  events_eq := fun _ streamId exact => SqlDispatchStorage.streamEvents_eq exact streamId
  append_known := by
    intro storage input existing known
    have found : storage.receipt input.commandId = some existing := known
    simp only [sqlStorage, SqlDispatchStorage.append, found]
  append_stale := by
    intro storage input exact absent stale
    have known : storage.receipt input.commandId = none := absent
    simp only [sqlStorage, SqlDispatchStorage.append, known,
      SqlDispatchStorage.currentStreamVersion_eq exact]
    exact if_pos stale
  append_new := by
    intro storage input exact absent newest
    have known : storage.receipt input.commandId = none := absent
    refine ⟨storage.insert input, storage.lastSequence, ?_, rfl⟩
    simp only [sqlStorage, SqlDispatchStorage.append, known,
      SqlDispatchStorage.currentStreamVersion_eq exact]
    exact if_neg (not_not_intro newest)

end Zuse.Domain
