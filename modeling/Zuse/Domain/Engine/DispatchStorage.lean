import Zuse.Domain.Engine.Dispatch

namespace Zuse.Domain

open Zuse.Data List InsertionMap

/-! What the engine relies on: a storage appends to the log of its contents. -/

structure DispatchContents (ε : Type u) where
  log : List (StoredEvent ε)
  receipts : List CommandReceipt

theorem AppendInput.records_append {ε : Type u} (input : AppendInput ε)
    (streamVersion sequence : Nat) (events : List (String × ε)) :
    (input.records streamVersion sequence events).map
        (fun record =>
          (⟨record.streamId, record.streamVersion, record.eventId⟩ : LogEntry String String)) =
      numbered input.streamId streamVersion (events.map Prod.fst) := by
  induction events generalizing streamVersion sequence with
  | nil => rfl
  | cons item rest ih => simp [AppendInput.records, numbered, ih]

theorem AppendInput.records_event {ε : Type u} (input : AppendInput ε)
    (streamVersion sequence : Nat) (events : List (String × ε)) :
    (input.records streamVersion sequence events).map (·.event) = events.map Prod.snd := by
  induction events generalizing streamVersion sequence with
  | nil => rfl
  | cons item rest ih => simp [AppendInput.records, ih]

theorem AppendInput.records_streamId {ε : Type u} (input : AppendInput ε)
    {streamVersion sequence : Nat} {events : List (String × ε)}
    {record : StoredEvent ε} (member : record ∈ input.records streamVersion sequence events) :
    record.streamId = input.streamId := by
  induction events generalizing streamVersion sequence with
  | nil => cases member
  | cons item rest ih =>
    rcases mem_cons.mp member with rfl | later
    · rfl
    · exact ih later

namespace DispatchContents

variable {ε : Type u}

def empty : DispatchContents ε := ⟨[], []⟩

def stream (contents : DispatchContents ε) (streamId : String) : List (StoredEvent ε) :=
  contents.log.filter (·.streamId = streamId)

def receipt (contents : DispatchContents ε) (commandId : String) : Option CommandReceipt :=
  contents.receipts.find? (·.commandId = commandId)

def commit (contents : DispatchContents ε) (input : AppendInput ε)
    (lastSequence : Nat) : DispatchContents ε where
  log := contents.log ++ input.stored lastSequence
  receipts := contents.receipts ++ [input.receipt]

def versioned (contents : DispatchContents ε) : VersionedLog String String String where
  entries := contents.log.map fun record =>
    ⟨record.streamId, record.streamVersion, record.eventId⟩
  receipts := contents.receipts.map fun receipt =>
    ⟨receipt.commandId, receipt.streamId, receipt.streamVersion, receipt.eventIds⟩

variable (contents : DispatchContents ε)

theorem streamEntries_versioned (streamId : String) :
    contents.versioned.streamEntries streamId =
      (contents.stream streamId).map fun record =>
        ⟨record.streamId, record.streamVersion, record.eventId⟩ := by
  simp [VersionedLog.streamEntries, versioned, stream, filter_map, Function.comp_def]

@[simp] theorem length_versioned (streamId : String) :
    contents.versioned.length streamId = (contents.stream streamId).length := by
  rw [VersionedLog.length, streamEntries_versioned, length_map]

variable {input : AppendInput ε}

theorem versioned_commit (lastSequence : Nat)
    (newest : (contents.stream input.streamId).length = input.expectedVersion) :
    (contents.commit input lastSequence).versioned =
      contents.versioned.record input.commandId input.streamId (input.events.map Prod.fst) := by
  have entries := input.records_append input.expectedVersion lastSequence input.events
  simp only [versioned, VersionedLog.record, commit, map_append, AppendInput.stored,
    entries, map_cons, map_nil, AppendInput.receipt]
  rw [← versioned, length_versioned, newest, length_map]

@[simp] theorem stream_commit_self (input : AppendInput ε) (lastSequence : Nat) :
    (contents.commit input lastSequence).stream input.streamId =
      contents.stream input.streamId ++ input.stored lastSequence := by
  have all : (input.stored lastSequence).filter (·.streamId = input.streamId) =
      input.stored lastSequence :=
    filter_eq_self.mpr fun record member => by
      simp [input.records_streamId member]
  rw [stream, commit, filter_append, all, ← stream]

theorem stream_commit_other (input : AppendInput ε) (lastSequence : Nat)
    {streamId : String} (other : streamId ≠ input.streamId) :
    (contents.commit input lastSequence).stream streamId = contents.stream streamId := by
  have noOther : (input.stored lastSequence).filter (·.streamId = streamId) = [] :=
    filter_eq_nil_iff.mpr fun record member => by
      simp [input.records_streamId member, Ne.symm other]
  rw [stream, commit, filter_append, noOther, append_nil, ← stream]

theorem stream_prefix_commit (input : AppendInput ε) (lastSequence : Nat) (streamId : String) :
    contents.stream streamId <+: (contents.commit input lastSequence).stream streamId := by
  by_cases same : streamId = input.streamId
  · subst same
    rw [stream_commit_self]
    exact prefix_append _ _
  · rw [stream_commit_other contents input lastSequence same]

variable {commandId : String} {receipt : CommandReceipt}

theorem receipt_commit {lastSequence : Nat} (known : contents.receipt commandId = some receipt) :
    (contents.commit input lastSequence).receipt commandId = some receipt := by
  rw [DispatchContents.receipt, commit, List.find?_append, ← DispatchContents.receipt, known]
  rfl

theorem receipt_commit_self (lastSequence : Nat)
    (absent : contents.receipt input.commandId = none) :
    (contents.commit input lastSequence).receipt input.commandId = some input.receipt := by
  rw [DispatchContents.receipt, commit, List.find?_append, ← DispatchContents.receipt, absent]
  simp [AppendInput.receipt]

variable {contents}

theorem mem_of_receipt (found : contents.receipt commandId = some receipt) :
    receipt ∈ contents.receipts ∧ receipt.commandId = commandId :=
  ⟨mem_of_find?_eq_some found, by simpa using List.find?_some found⟩

theorem receipt_eq_none :
    contents.receipt commandId = none ↔ commandId ∉ contents.versioned.receipts.map (·.key) := by
  simp [receipt, versioned, Function.comp_def]

theorem receipt_of_mem (exact : contents.versioned.Exact) (member : receipt ∈ contents.receipts) :
    contents.receipt receipt.commandId = some receipt := by
  have keys : (contents.receipts.map (·.commandId)).Nodup := by
    simpa [versioned, Function.comp_def] using exact.keys
  cases found : contents.receipt receipt.commandId with
  | none =>
    have listed := mem_map_of_mem (f := (·.commandId)) member
    rw [receipt_eq_none] at found
    exact absurd (by simpa [versioned] using listed) found
  | some other =>
    obtain ⟨otherMember, same⟩ := mem_of_receipt found
    rw [inj_on_of_nodup_map keys otherMember member same]

end DispatchContents

/-- An implementation of the interface, with what its operations do to its contents. -/
structure LawfulDispatchStorage (σ : Type u) (ε : Type v) extends DispatchStorage σ ε where
  contents : σ → DispatchContents ε
  contents_empty : contents empty = .empty
  receipt_eq : ∀ storage commandId, receipt storage commandId = (contents storage).receipt commandId
  events_eq : ∀ storage streamId, (contents storage).versioned.Exact →
    events storage streamId = (contents storage).stream streamId
  append_known : ∀ storage input existing,
    (contents storage).receipt input.commandId = some existing →
    append storage input =
      (validateCommandReceipt input.commandId input.streamId input.receiptIdentity
        existing).map fun receipt => (receipt, storage)
  append_stale : ∀ storage input, (contents storage).versioned.Exact →
    (contents storage).receipt input.commandId = none →
    ((contents storage).stream input.streamId).length ≠ input.expectedVersion →
    append storage input = .error (.concurrencyConflict input.streamId
      input.expectedVersion ((contents storage).stream input.streamId).length)
  append_new : ∀ storage input, (contents storage).versioned.Exact →
    (contents storage).receipt input.commandId = none →
    ((contents storage).stream input.streamId).length = input.expectedVersion →
    ∃ next lastSequence, append storage input = .ok (input.receipt, next) ∧
      contents next = (contents storage).commit input lastSequence

namespace InMemoryDispatchStorage

variable {ε : Type u}

def contents (storage : InMemoryDispatchStorage ε) : DispatchContents ε where
  log := storage.eventLog
  receipts := storage.receipts.values

theorem receipt_eq (storage : InMemoryDispatchStorage ε) (commandId : String) :
    storage.receipt commandId = storage.contents.receipt commandId := by
  cases looked : storage.contents.receipt commandId with
  | none =>
    simp only [DispatchContents.receipt, List.find?_eq_none,
      decide_eq_true_eq] at looked
    rw [Option.eq_none_iff_forall_not_mem]
    intro receipt found
    exact looked receipt (mem_values.mpr ⟨commandId, found⟩)
      (storage.named commandId receipt found)
  | some receipt =>
    obtain ⟨member, same⟩ := DispatchContents.mem_of_receipt looked
    obtain ⟨key, stored⟩ := mem_values.mp member
    rw [← same, storage.named key receipt stored]
    exact stored

theorem contents_push {storage : InMemoryDispatchStorage ε} {input : AppendInput ε}
    (absent : storage.receipt input.commandId = none) :
    (storage.push input).contents = storage.contents.commit input storage.eventLog.length := by
  simp only [contents, push, DispatchContents.commit, values,
    entries_set_of_absent absent, map_append, map_cons,
    map_nil]

end InMemoryDispatchStorage

def lawfulInMemoryStorage (ε : Type u) : LawfulDispatchStorage (InMemoryDispatchStorage ε) ε where
  toDispatchStorage := inMemoryStorage ε
  contents := InMemoryDispatchStorage.contents
  contents_empty := rfl
  receipt_eq := InMemoryDispatchStorage.receipt_eq
  events_eq := fun _ _ _ => rfl
  append_known := by
    intro storage input existing known
    rw [← InMemoryDispatchStorage.receipt_eq] at known
    simp only [inMemoryStorage, InMemoryDispatchStorage.append, known]
  append_stale := by
    intro storage input _ absent stale
    rw [← InMemoryDispatchStorage.receipt_eq] at absent
    simp only [inMemoryStorage, InMemoryDispatchStorage.append, absent]
    exact if_pos stale
  append_new := by
    intro storage input _ absent newest
    rw [← InMemoryDispatchStorage.receipt_eq] at absent
    refine ⟨storage.push input, storage.eventLog.length, ?_,
      InMemoryDispatchStorage.contents_push absent⟩
    simp only [inMemoryStorage, InMemoryDispatchStorage.append, absent]
    exact if_neg (not_not_intro newest)

end Zuse.Domain
