import Zuse.Domain.Engine.DispatchSystem
import Zuse.Domain.Engine.SqlDispatchStorage

namespace Zuse.Domain

open Zuse.Data List DispatchInput DispatchContents DispatchCall

variable [PayloadCodec] {σ : Type u}

section Steps

variable (storage : LawfulDispatchStorage σ SessionEvent)

def DispatchWorld.Consistent (world : DispatchWorld σ) : Prop :=
  (storage.contents world.storage).Consistent world.issued world.calls

/-- An append that was accepted: it extends the newest version of its stream, which is
the log that its command was decided on. -/
structure DispatchWorld.Commits (world next : DispatchWorld σ) (input : DispatchInput)
    (append : AppendInput SessionEvent) : Prop where
  absent : (storage.contents world.storage).receipt input.commandId = none
  newest : ((storage.contents world.storage).stream input.streamId).length = append.expectedVersion
  decided : input.Decided (storage.contents world.storage)
    ((storage.contents world.storage).events input.streamId) (append.events.map Prod.snd)
  prepared : append = input.appendInput (evolveAll initialSessionState
    ((storage.contents world.storage).events input.streamId)) append.events
  extended : ∃ lastSequence, storage.contents next.storage =
    (storage.contents world.storage).commit append lastSequence

variable {storage} {world next : DispatchWorld σ} {index : Nat} {input : DispatchInput}

theorem DispatchWorld.Consistent.callAt (consistent : world.Consistent storage)
    {call : DispatchCall} (found : world.calls[index]? = some call) :
    call.Justified (storage.contents world.storage) :=
  consistent.justified call (mem_of_getElem? found)

variable {append : AppendInput SessionEvent}

theorem DispatchWorld.append_cases {log : List SessionEvent}
    (consistent : world.Consistent storage)
    (found : world.calls[index]? = some ⟨input, .appending log append⟩)
    (stepped : (dispatchSystem storage.toDispatchStorage).step world (.append index) = some next) :
    (next.storage = world.storage ∧ next.issued = world.issued ∧
      ∃ outcome, next.calls = world.calls.set index ⟨input, .finished outcome⟩ ∧
        DispatchCall.Justified (storage.contents world.storage) ⟨input, .finished outcome⟩ ∧
        ∀ receipt, outcome = .ok receipt →
          (storage.contents world.storage).receipt input.commandId = some receipt) ∨
      world.Commits storage next input append ∧ next.issued = world.issued ∧
        next.calls = world.calls.set index ⟨input, .finished (.ok append.receipt)⟩ := by
  obtain ⟨decided, prepared⟩ := consistent.callAt found
  have sameCommand : append.commandId = input.commandId := by rw [prepared]; rfl
  have sameStream : append.streamId = input.streamId := by rw [prepared]; rfl
  have sameIdentity : append.receiptIdentity = input.receiptIdentity := by
    rw [prepared]; rfl
  simp only [dispatchSystem, found] at stepped
  cases known : (storage.contents world.storage).receipt append.commandId with
  | some existing =>
    rw [storage.append_known _ _ _ known, sameCommand, sameStream, sameIdentity] at stepped
    rw [sameCommand] at known
    left
    have justified := justified_validate known
    have result : ∀ receipt, input.validate existing = .ok receipt →
        (storage.contents world.storage).receipt input.commandId = some receipt := by
      intro receipt validated
      rw [(validateCommandReceipt_eq_ok.mp validated).1]
      exact known
    rw [← validate] at stepped
    cases validated : input.validate existing with
    | error failure =>
      rw [validated] at stepped justified
      cases stepped
      exact ⟨rfl, rfl, _, rfl, justified, fun _ ok => by cases ok⟩
    | ok receipt =>
      rw [validated] at stepped justified
      cases stepped
      exact ⟨rfl, rfl, _, rfl, justified, fun other ok =>
        result other (validated.trans ok)⟩
  | none =>
    by_cases newest : ((storage.contents world.storage).stream append.streamId).length =
        append.expectedVersion
    · obtain ⟨committed, lastSequence, appended, contents⟩ :=
        storage.append_new _ _ consistent.exact known newest
      rw [appended] at stepped
      cases stepped
      right
      rw [sameStream] at newest
      have version : append.expectedVersion = log.length := by
        rw [prepared]
        simp [appendInput, initialSessionState]
      have read : log = (storage.contents world.storage).events input.streamId := by
        apply decided.read.eq_of_length
        rw [events, length_map, newest, version]
      subst read
      exact ⟨⟨sameCommand ▸ known, newest, decided, prepared, lastSequence, contents⟩, rfl, rfl⟩
    · rw [storage.append_stale _ _ consistent.exact known newest] at stepped
      cases stepped
      exact .inl ⟨rfl, rfl, _, rfl, trivial, fun _ ok => by cases ok⟩

theorem DispatchWorld.Commits.contents_grow (commits : world.Commits storage next input append) :
    (storage.contents world.storage).Grows (storage.contents next.storage) := by
  obtain ⟨lastSequence, extended⟩ := commits.extended
  rw [extended]
  exact .commit _ _ _

theorem DispatchWorld.Consistent.step {label : DispatchStep} (consistent : world.Consistent storage)
    (stepped : (dispatchSystem storage.toDispatchStorage).step world label = some next) :
    next.Consistent storage ∧
      (storage.contents world.storage).Grows (storage.contents next.storage) := by
  cases label with
  | dispatch input =>
    cases stepped
    exact ⟨consistent.begin input, .refl _⟩
  | readReceipt index =>
    simp only [dispatchSystem] at stepped
    split at stepped
    · rename_i input found
      cases stepped
      refine ⟨consistent.setPhase index ?_ ?_, .refl _⟩
      · exact justified_afterReceipt input
          (storage.receipt_eq world.storage input.commandId)
      · unfold afterReceipt
        split <;> rfl
    · cases stepped
  | readEvents index =>
    simp only [dispatchSystem] at stepped
    split at stepped
    · rename_i input existing found
      cases stepped
      rw [storage.events_eq _ _ consistent.exact]
      refine ⟨consistent.setPhase index ?_ ?_, .refl _⟩
      · exact justified_afterEvents (consistent.callAt found)
      · simp only [afterEvents]
        split
        · rfl
        · split
          · rfl
          · split <;> rfl
    · cases stepped
  | makeEventIds index eventIds =>
    simp only [dispatchSystem] at stepped
    split at stepped
    · rename_i input log events found
      split at stepped
      · rename_i drawn
        obtain ⟨length, nodup, fresh⟩ := drawn
        cases stepped
        have justified := justified_afterEventIds (consistent.callAt found) length
        have ids : (input.afterEventIds log events eventIds).eventIds = eventIds := by
          simp [afterEventIds, DispatchPhase.eventIds, appendInput, map_fst_zip length.le]
        exact ⟨consistent.reserve index justified ids nodup fresh, .refl _⟩
      · cases stepped
    · cases stepped
  | append index =>
    have enabled : ∃ input log append,
        world.calls[index]? = some ⟨input, .appending log append⟩ := by
      simp only [dispatchSystem] at stepped
      split at stepped
      · exact ⟨_, _, _, by assumption⟩
      · cases stepped
    obtain ⟨input, log, append, found⟩ := enabled
    rcases world.append_cases consistent found stepped with
      ⟨sameStorage, sameIssued, outcome, calls, justified, -⟩ | ⟨commits, issued, calls⟩
    · unfold DispatchWorld.Consistent
      rw [sameStorage, sameIssued, calls]
      exact ⟨consistent.setPhase index justified rfl, .refl _⟩
    have grows := commits.contents_grow
    obtain ⟨lastSequence, extended⟩ := commits.extended
    have sameCommand : append.commandId = input.commandId := by
      rw [commits.prepared]; rfl
    have sameStream : append.streamId = input.streamId := by
      rw [commits.prepared]; rfl
    have member := mem_of_getElem? found
    have idle : Justified (storage.contents world.storage) ⟨input, .started⟩ := trivial
    have released := consistent.setPhase index idle rfl
    have apart : ∀ call ∈ world.calls.set index ⟨input, .started⟩,
        (append.events.map Prod.fst).Disjoint call.phase.eventIds := by
      intro call present
      obtain ⟨other, otherFound⟩ := List.getElem?_of_mem present
      rw [List.getElem?_set] at otherFound
      split at otherFound
      · split at otherFound
        · cases otherFound
          exact disjoint_nil_right _
        · cases otherFound
      · rename_i different
        exact consistent.apart index other _ _ different found otherFound
    have committed := released.commit lastSequence (sameCommand ▸ commits.absent)
      (sameStream ▸ commits.newest) commits.decided sameStream
      (consistent.nodup _ member) (consistent.reserved _ member) apart
    have justified : Justified
        ((storage.contents world.storage).commit append lastSequence)
        ⟨input, .finished (.ok append.receipt)⟩ := by
      have stored := (storage.contents world.storage).receipt_commit_self
        lastSequence (sameCommand ▸ commits.absent)
      rw [sameCommand] at stored
      refine ⟨stored, validateCommandReceipt_eq_ok.mpr ⟨rfl, sameStream, ?_⟩⟩
      rw [commits.prepared]
      simp only [AppendInput.receipt, appendInput]
      cases input.receiptIdentity <;> simp [identitiesConflict]
    have finished := committed.setPhase index justified rfl
    rw [set_set, ← extended, ← calls, ← issued] at finished
    exact ⟨finished, grows⟩
  | retry index =>
    simp only [dispatchSystem] at stepped
    split at stepped
    · cases stepped
      exact ⟨consistent.setPhase index trivial rfl, .refl _⟩
    · cases stepped

theorem DispatchWorld.Consistent.initial :
    ((dispatchSystem storage.toDispatchStorage).init).Consistent storage := by
  unfold DispatchWorld.Consistent
  rw [show storage.contents (dispatchSystem storage.toDispatchStorage).init.storage =
    empty from storage.contents_empty]
  exact .initial

theorem DispatchWorld.Consistent.of_reachable
    (reachable : (dispatchSystem storage.toDispatchStorage).Reachable world) :
    world.Consistent storage :=
  reachable.invariant .initial fun _ _ _ _ consistent stepped => (consistent.step stepped).1

theorem DispatchWorld.Consistent.runFrom {labels : List DispatchStep}
    (consistent : world.Consistent storage)
    (ran : (dispatchSystem storage.toDispatchStorage).runFrom world labels = some next) :
    (storage.contents world.storage).Grows (storage.contents next.storage) := by
  induction labels generalizing world with
  | nil =>
    cases ran
    exact .refl _
  | cons label rest ih =>
    obtain ⟨middle, stepped, remaining⟩ := Option.bind_eq_some_iff.mp ran
    obtain ⟨still, grows⟩ := consistent.step stepped
    exact grows.trans (ih still remaining)

end Steps

structure ExactlyOnce (storage : LawfulDispatchStorage σ SessionEvent)
    (world : DispatchWorld σ) : Prop where
  oneReceipt : ((storage.contents world.storage).receipts.map (·.commandId)).Nodup
  lookup : ∀ receipt ∈ (storage.contents world.storage).receipts,
    storage.receipt world.storage receipt.commandId = some receipt
  versions : ∀ streamId,
    (storage.events world.storage streamId).map (·.streamVersion) =
      List.range' 1 (storage.events world.storage streamId).length
  owner : ∀ record ∈ (storage.contents world.storage).log,
    ∃! receipt, receipt ∈ (storage.contents world.storage).receipts ∧
      record.eventId ∈ receipt.eventIds
  block : ∀ receipt ∈ (storage.contents world.storage).receipts,
    receipt.eventIds.length ≤ receipt.streamVersion ∧
      ((storage.events world.storage receipt.streamId).filter fun record =>
          receipt.streamVersion - receipt.eventIds.length < record.streamVersion ∧
            record.streamVersion ≤ receipt.streamVersion).map (·.eventId) =
        receipt.eventIds
  returned : ∀ call ∈ world.calls, ∀ receipt, call.phase = .finished (.ok receipt) →
    storage.receipt world.storage call.input.commandId = some receipt ∧
      receipt.streamId = call.input.streamId ∧
      identitiesConflict call.input.receiptIdentity receipt.receiptIdentity = false
  refused : ∀ call ∈ world.calls, ∀ outcome receipt, call.phase = .finished outcome →
    storage.receipt world.storage call.input.commandId = some receipt →
    receipt.streamId ≠ call.input.streamId ∨
      identitiesConflict call.input.receiptIdentity receipt.receiptIdentity = true →
    ∃ failure, outcome = .error failure
  expectedVersion : ∀ call ∈ world.calls, ∀ log append,
    call.phase = .appending log append →
      append.expectedVersion = log.length ∧
        log <+: (storage.events world.storage call.input.streamId).map (·.event)

omit [PayloadCodec] in
theorem DispatchContents.owner {contents : DispatchContents SessionEvent}
    (exact : contents.versioned.Exact) {record : StoredEvent SessionEvent}
    (member : record ∈ contents.log) :
    ∃! receipt, receipt ∈ contents.receipts ∧ record.eventId ∈ receipt.eventIds := by
  have entry : (⟨record.streamId, record.streamVersion, record.eventId⟩ :
      LogEntry String String) ∈ contents.versioned.entries :=
    mem_map_of_mem (f := fun record : StoredEvent SessionEvent =>
      (⟨record.streamId, record.streamVersion, record.eventId⟩ : LogEntry String String)) member
  obtain ⟨owner, ⟨issued, owns⟩, unique⟩ := exact.owner entry
  obtain ⟨receipt, stored, rfl⟩ := mem_map.mp issued
  refine ⟨receipt, ⟨stored, owns⟩, ?_⟩
  rintro other ⟨otherStored, otherOwns⟩
  have same := unique _ ⟨mem_map_of_mem otherStored, otherOwns⟩
  have sameId : other.commandId = receipt.commandId := congrArg LogReceipt.key same
  have found := receipt_of_mem exact stored
  rw [← sameId, receipt_of_mem exact otherStored] at found
  exact Option.some.inj found

theorem DispatchWorld.Consistent.exactlyOnce
    {storage : LawfulDispatchStorage σ SessionEvent} {world : DispatchWorld σ}
    (consistent : world.Consistent storage) : ExactlyOnce storage world where
  oneReceipt := by
    simpa [versioned, Function.comp_def] using consistent.exact.keys
  lookup := by
    intro receipt member
    rw [storage.receipt_eq]
    exact receipt_of_mem consistent.exact member
  versions := by
    intro streamId
    have versions := consistent.exact.versions streamId
    rw [streamEntries_versioned, length_versioned, map_map] at versions
    rw [storage.events_eq _ _ consistent.exact]
    exact versions
  owner := fun _ member => owner consistent.exact member
  block := by
    intro receipt member
    obtain ⟨counted, -, ids⟩ := consistent.exact.block
      ⟨receipt.commandId, receipt.streamId, receipt.streamVersion, receipt.eventIds⟩
      (mem_map_of_mem member)
    refine ⟨counted, ?_⟩
    rw [storage.events_eq _ _ consistent.exact]
    rw [VersionedLog.between, streamEntries_versioned, filter_map, map_map] at ids
    exact ids
  returned := by
    rintro ⟨input, phase⟩ member receipt rfl
    obtain ⟨known, validated⟩ := consistent.justified _ member
    obtain ⟨-, sameStream, agree⟩ := validateCommandReceipt_eq_ok.mp validated
    rw [storage.receipt_eq]
    exact ⟨known, sameStream, agree⟩
  refused := by
    rintro ⟨input, phase⟩ member outcome receipt rfl known differs
    cases outcome with
    | error failure => exact ⟨failure, rfl⟩
    | ok returned =>
      obtain ⟨stored, validated⟩ := consistent.justified _ member
      obtain ⟨-, sameStream, agree⟩ := validateCommandReceipt_eq_ok.mp validated
      rw [storage.receipt_eq, stored] at known
      cases known
      rcases differs with otherStream | conflict
      · exact absurd sameStream otherStream
      · rw [agree] at conflict
        cases conflict
  expectedVersion := by
    rintro ⟨input, phase⟩ member log append rfl
    obtain ⟨decided, prepared⟩ := consistent.justified _ member
    rw [storage.events_eq _ _ consistent.exact, prepared]
    refine ⟨?_, decided.read⟩
    simp [appendInput, initialSessionState]

/-- Over either storage and in every interleaving of the calls, a command id is
committed once and all of its calls return that commit. -/
theorem exactlyOnce_of_reachable (storage : LawfulDispatchStorage σ SessionEvent)
    {world : DispatchWorld σ}
    (reachable : (dispatchSystem storage.toDispatchStorage).Reachable world) :
    ExactlyOnce storage world ∧
      ∀ labels later, (dispatchSystem storage.toDispatchStorage).runFrom world labels = some later →
        ∀ commandId receipt, storage.receipt world.storage commandId = some receipt →
          storage.receipt later.storage commandId = some receipt := by
  have consistent := DispatchWorld.Consistent.of_reachable reachable
  refine ⟨consistent.exactlyOnce, ?_⟩
  intro labels later ran commandId receipt known
  rw [storage.receipt_eq] at known ⊢
  exact (consistent.runFrom ran).receipts commandId receipt known

def uninterrupted (call : Nat) (input : DispatchInput) (eventIds : List String) :
    List DispatchStep :=
  [.dispatch input, .readReceipt call, .readEvents call, .makeEventIds call eventIds, .append call]

def duplicateDelivery : List DispatchStep :=
  uninterrupted 0 (.plain "create" "session" (.createSession (.plain "session") none)) ["e1"] ++
    [.dispatch (.plain "title" "session" (.setTitle "Zuse" none 1)),
      .dispatch (.plain "title" "session" (.setTitle "Zuse" none 1)),
      .readReceipt 1, .readReceipt 2, .readEvents 1, .readEvents 2,
      .makeEventIds 1 ["e2"], .makeEventIds 2 ["e3"], .append 2, .append 1]

omit [PayloadCodec] in
theorem exactlyOnce_of_duplicateDelivery :
    ∃ world : DispatchWorld (SqlDispatchStorage SessionEvent),
      (@dispatchSystem rejectingCodec _ (sqlStorage SessionEvent)).run duplicateDelivery =
        some world ∧
      world.storage.events.map (·.eventId) = ["e1", "e3"] ∧
      ExactlyOnce (lawfulSqlStorage SessionEvent) world := by
  have ran : ((@dispatchSystem rejectingCodec _ (sqlStorage SessionEvent)).run
      duplicateDelivery).map (fun world => world.storage.events.map (·.eventId)) =
        some ["e1", "e3"] := by
    decide +kernel
  obtain ⟨world, reached, stored⟩ := Option.map_eq_some_iff.mp ran
  exact ⟨world, reached, stored, (@exactlyOnce_of_reachable rejectingCodec _
    (lawfulSqlStorage SessionEvent) world (TransitionSystem.run_reachable reached)).1⟩

end Zuse.Domain
