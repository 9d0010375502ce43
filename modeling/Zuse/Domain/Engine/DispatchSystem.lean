import Zuse.Domain.Core.Session
import Zuse.Domain.Engine.DispatchStorage

namespace Zuse.Domain

open Zuse.Data List

/-! Any number of dispatch calls over one storage. The engines serialize the calls of a
stream among their own; here every interleaving is allowed. -/

structure DispatchCall where
  input : DispatchInput
  phase : DispatchPhase

structure DispatchWorld (σ : Type u) where
  storage : σ
  issued : List String
  calls : List DispatchCall

inductive DispatchStep where
  | dispatch (input : DispatchInput)
  | readReceipt (call : Nat)
  | readEvents (call : Nat)
  | makeEventIds (call : Nat) (eventIds : List String)
  | append (call : Nat)
  | retry (call : Nat)

def DispatchWorld.setPhase {σ : Type u} (world : DispatchWorld σ) (index : Nat)
    (input : DispatchInput) (phase : DispatchPhase) : DispatchWorld σ where
  storage := world.storage
  issued := world.issued
  calls := world.calls.set index ⟨input, phase⟩

section System

variable [PayloadCodec] {σ : Type u}

def dispatchSystem (storage : DispatchStorage σ SessionEvent) :
    TransitionSystem (DispatchWorld σ) DispatchStep where
  init := { storage := storage.empty, issued := [], calls := [] }
  step := fun world label =>
    match label with
    | .dispatch input =>
      some
        { storage := world.storage
          issued := world.issued
          calls := world.calls ++ [⟨input, .started⟩] }
    | .readReceipt index =>
      match world.calls[index]? with
      | some ⟨input, .started⟩ =>
        some (world.setPhase index input
          (input.afterReceipt (storage.receipt world.storage input.commandId)))
      | _ => none
    | .readEvents index =>
      match world.calls[index]? with
      | some ⟨input, .checked existing⟩ =>
        some (world.setPhase index input (input.afterEvents existing
          ((storage.events world.storage input.streamId).map (·.event))))
      | _ => none
    | .makeEventIds index eventIds =>
      match world.calls[index]? with
      | some ⟨input, .decided log events⟩ =>
        if eventIds.length = events.length ∧ eventIds.Nodup ∧
            ∀ id ∈ eventIds, id ∉ world.issued then
          some
            { storage := world.storage
              issued := world.issued ++ eventIds
              calls := world.calls.set index ⟨input, input.afterEventIds log events eventIds⟩ }
        else none
      | _ => none
    | .append index =>
      match world.calls[index]? with
      | some ⟨input, .appending _ append⟩ =>
        match storage.append world.storage append with
        | .error failure =>
          some (world.setPhase index input (.finished (.error failure)))
        | .ok (receipt, next) =>
          some
            { storage := next
              issued := world.issued
              calls := world.calls.set index ⟨input, .finished (.ok receipt)⟩ }
      | _ => none
    | .retry index =>
      match world.calls[index]? with
      | some ⟨input, .finished (.error (.concurrencyConflict ..))⟩ =>
        some (world.setPhase index input .started)
      | _ => none

end System

structure DispatchContents.Grows {ε : Type u} (before after : DispatchContents ε) :
    Prop where
  streams : ∀ streamId, before.stream streamId <+: after.stream streamId
  receipts : ∀ commandId receipt, before.receipt commandId = some receipt →
    after.receipt commandId = some receipt

namespace DispatchContents.Grows

variable {ε : Type u} {before after : DispatchContents ε}

theorem refl (contents : DispatchContents ε) : contents.Grows contents where
  streams := fun _ => prefix_refl _
  receipts := fun _ _ known => known

theorem trans {last : DispatchContents ε} (first : before.Grows after)
    (second : after.Grows last) : before.Grows last where
  streams := fun streamId => (first.streams streamId).trans (second.streams streamId)
  receipts := fun commandId receipt known =>
    second.receipts commandId receipt (first.receipts commandId receipt known)

theorem commit (contents : DispatchContents ε) (input : AppendInput ε)
    (lastSequence : Nat) : contents.Grows (contents.commit input lastSequence) where
  streams := contents.stream_prefix_commit input lastSequence
  receipts := fun _ _ known => contents.receipt_commit known

end DispatchContents.Grows

def DispatchContents.events (contents : DispatchContents SessionEvent)
    (streamId : String) : List SessionEvent :=
  (contents.stream streamId).map (·.event)

def DispatchPhase.eventIds : DispatchPhase → List String
  | .appending _ append => append.events.map Prod.fst
  | _ => []

section Calls

variable [PayloadCodec]

/-- The command was decided, under its guards, on a log that the stream begins with. -/
structure DispatchInput.Decided (input : DispatchInput)
    (contents : DispatchContents SessionEvent) (log events : List SessionEvent) :
    Prop where
  read : log <+: contents.events input.streamId
  owned : input.checkOwnership (evolveAll initialSessionState log) log = .ok ()
  decided : decide (evolveAll initialSessionState log) input.command = .ok events

def DispatchCall.Justified (contents : DispatchContents SessionEvent)
    (call : DispatchCall) : Prop :=
  match call.phase with
  | .started => True
  | .checked existing => ∀ receipt, existing = some receipt →
      contents.receipt call.input.commandId = some receipt
  | .decided log events => call.input.Decided contents log events
  | .appending log append =>
    call.input.Decided contents log (append.events.map Prod.snd) ∧
      append = call.input.appendInput (evolveAll initialSessionState log) append.events
  | .finished (.ok receipt) =>
    contents.receipt call.input.commandId = some receipt ∧ call.input.validate receipt = .ok receipt
  | .finished (.error _) => True

variable {input : DispatchInput}

theorem DispatchInput.Decided.mono {before after : DispatchContents SessionEvent}
    {log events : List SessionEvent} (decided : input.Decided before log events)
    (grows : before.Grows after) :
    input.Decided after log events where
  read := decided.read.trans ((grows.streams input.streamId).map _)
  owned := decided.owned
  decided := decided.decided

variable {call : DispatchCall}

theorem DispatchCall.Justified.mono
    {before after : DispatchContents SessionEvent} (justified : call.Justified before)
    (grows : before.Grows after) : call.Justified after := by
  obtain ⟨input, phase⟩ := call
  cases phase with
  | started => trivial
  | checked existing =>
    exact fun receipt known => grows.receipts _ _ (justified receipt known)
  | decided log events => exact DispatchInput.Decided.mono justified grows
  | appending log append => exact ⟨justified.1.mono grows, justified.2⟩
  | finished outcome =>
    cases outcome with
    | error failure => trivial
    | ok receipt => exact ⟨grows.receipts _ _ justified.1, justified.2⟩

variable {contents : DispatchContents SessionEvent}

theorem DispatchCall.justified_validate {receipt : CommandReceipt}
    (known : contents.receipt input.commandId = some receipt) :
    DispatchCall.Justified contents ⟨input, .finished (input.validate receipt)⟩ := by
  cases validated : input.validate receipt with
  | error failure => trivial
  | ok result =>
    obtain ⟨rfl, -⟩ := validateCommandReceipt_eq_ok.mp validated
    exact ⟨known, validated⟩

variable {existing : Option CommandReceipt}

theorem DispatchCall.justified_afterReceipt (input : DispatchInput)
    (read : existing = contents.receipt input.commandId) :
    DispatchCall.Justified contents ⟨input, input.afterReceipt existing⟩ := by
  unfold DispatchInput.afterReceipt
  split
  · exact justified_validate read.symm
  · intro receipt known
    rw [← read, known]

theorem DispatchCall.justified_afterEvents
    (checked : DispatchCall.Justified contents ⟨input, .checked existing⟩) :
    DispatchCall.Justified contents
      ⟨input, input.afterEvents existing (contents.events input.streamId)⟩ := by
  simp only [DispatchInput.afterEvents]
  split
  · trivial
  rename_i owned
  cases existing with
  | some receipt => exact justified_validate (checked receipt rfl)
  | none =>
    simp only
    split
    · trivial
    · rename_i events decided
      exact ⟨prefix_refl _, owned, decided⟩

theorem DispatchCall.justified_afterEventIds {log events : List SessionEvent}
    {eventIds : List String}
    (decided : DispatchCall.Justified contents ⟨input, .decided log events⟩)
    (length : eventIds.length = events.length) :
    DispatchCall.Justified contents ⟨input, input.afterEventIds log events eventIds⟩ := by
  refine ⟨?_, rfl⟩
  simp only [DispatchInput.appendInput, map_snd_zip length.ge]
  exact decided

/-- The storage accounts for every call, and no event id is drawn twice. -/
structure DispatchContents.Consistent (contents : DispatchContents SessionEvent)
    (issued : List String) (calls : List DispatchCall) : Prop where
  exact : contents.versioned.Exact
  logged : ∀ record ∈ contents.log, record.eventId ∈ issued
  sessions : ∀ streamId, ∃ session,
    sessionSystem.Reachable session ∧ session.log = contents.events streamId
  justified : ∀ call ∈ calls, call.Justified contents
  nodup : ∀ call ∈ calls, call.phase.eventIds.Nodup
  reserved : ∀ call ∈ calls, ∀ id ∈ call.phase.eventIds,
    id ∈ issued ∧ ∀ record ∈ contents.log, record.eventId ≠ id
  apart : ∀ (left right : Nat) (leftCall rightCall : DispatchCall), left ≠ right →
    calls[left]? = some leftCall → calls[right]? = some rightCall →
    leftCall.phase.eventIds.Disjoint rightCall.phase.eventIds

namespace DispatchContents.Consistent

variable {contents : DispatchContents SessionEvent} {issued : List String}
  {calls : List DispatchCall}

theorem initial : DispatchContents.empty.Consistent [] [] where
  exact := VersionedLog.Exact.empty
  logged := forall_mem_nil _
  sessions := fun _ => ⟨_, TransitionSystem.Reachable.init, rfl⟩
  justified := forall_mem_nil _
  nodup := forall_mem_nil _
  reserved := forall_mem_nil _
  apart := by
    intro left right leftCall rightCall different foundLeft
    cases foundLeft

theorem begin (consistent : contents.Consistent issued calls) (input : DispatchInput) :
    contents.Consistent issued (calls ++ [⟨input, .started⟩]) where
  exact := consistent.exact
  logged := consistent.logged
  sessions := consistent.sessions
  justified := by
    intro call member
    rcases mem_concat.mp member with before | rfl
    · exact consistent.justified call before
    · trivial
  nodup := by
    intro call member
    rcases mem_concat.mp member with before | rfl
    · exact consistent.nodup call before
    · exact nodup_nil
  reserved := by
    intro call member
    rcases mem_concat.mp member with before | rfl
    · exact consistent.reserved call before
    · exact forall_mem_nil _
  apart := by
    intro left right leftCall rightCall different foundLeft foundRight
    rw [List.getElem?_append] at foundLeft foundRight
    split at foundLeft
    · split at foundRight
      · exact consistent.apart left right leftCall rightCall different foundLeft foundRight
      · rw [mem_singleton.mp (mem_of_getElem? foundRight)]
        exact disjoint_nil_right _
    · rw [mem_singleton.mp (mem_of_getElem? foundLeft)]
      exact disjoint_nil_left _

variable (consistent : contents.Consistent issued calls)
include consistent

theorem replace (index : Nat) (justified : call.Justified contents)
    (nodup : call.phase.eventIds.Nodup)
    (reserved : ∀ id ∈ call.phase.eventIds, id ∈ issued ∧
      ∀ record ∈ contents.log, record.eventId ≠ id)
    (apart : ∀ other ∈ calls, call.phase.eventIds.Disjoint other.phase.eventIds) :
    contents.Consistent issued (calls.set index call) where
  exact := consistent.exact
  logged := consistent.logged
  sessions := consistent.sessions
  justified := by
    intro other member
    rcases mem_or_eq_of_mem_set member with before | rfl
    · exact consistent.justified other before
    · exact justified
  nodup := by
    intro other member
    rcases mem_or_eq_of_mem_set member with before | rfl
    · exact consistent.nodup other before
    · exact nodup
  reserved := by
    intro other member
    rcases mem_or_eq_of_mem_set member with before | rfl
    · exact consistent.reserved other before
    · exact reserved
  apart := by
    intro left right leftCall rightCall different foundLeft foundRight
    rw [List.getElem?_set] at foundLeft foundRight
    split at foundLeft
    · rename_i isLeft
      rw [if_neg (fun isRight => different (isLeft.symm.trans isRight))] at foundRight
      split at foundLeft
      · cases foundLeft
        exact apart rightCall (mem_of_getElem? foundRight)
      · cases foundLeft
    split at foundRight
    · split at foundRight
      · cases foundRight
        intro id heldLeft heldRight
        exact apart leftCall (mem_of_getElem? foundLeft) heldRight heldLeft
      · cases foundRight
    · exact consistent.apart left right leftCall rightCall different foundLeft foundRight

theorem setPhase (index : Nat) (justified : call.Justified contents)
    (noIds : call.phase.eventIds = []) : contents.Consistent issued (calls.set index call) := by
  apply consistent.replace index justified
  · rw [noIds]
    exact nodup_nil
  · rw [noIds]
    exact forall_mem_nil _
  · rw [noIds]
    exact fun _ _ => disjoint_nil_left _

theorem issue (ids : List String) : contents.Consistent (issued ++ ids) calls where
  exact := consistent.exact
  logged := fun record member =>
    mem_append_left ids (consistent.logged record member)
  sessions := consistent.sessions
  justified := consistent.justified
  nodup := consistent.nodup
  reserved := fun call member id held =>
    have known := consistent.reserved call member id held
    ⟨mem_append_left ids known.1, known.2⟩
  apart := consistent.apart

theorem reserve (index : Nat) (justified : call.Justified contents)
    {ids : List String} (drawn : call.phase.eventIds = ids) (nodup : ids.Nodup)
    (fresh : ∀ id ∈ ids, id ∉ issued) :
    contents.Consistent (issued ++ ids) (calls.set index call) := by
  subst drawn
  apply (consistent.issue call.phase.eventIds).replace index justified nodup
  · intro id held
    refine ⟨mem_append_right issued held, ?_⟩
    intro record member same
    exact fresh id held (same ▸ consistent.logged record member)
  · intro other member id held heldByOther
    exact fresh id held (consistent.reserved other member id heldByOther).1

variable {input : DispatchInput} {append : AppendInput SessionEvent}

theorem session_commit
    (decided : input.Decided contents (contents.events input.streamId) (append.events.map Prod.snd))
    (sameStream : append.streamId = input.streamId) (lastSequence : Nat) (streamId : String) :
    ∃ session, sessionSystem.Reachable session ∧
      session.log = (contents.commit append lastSequence).events streamId := by
  obtain ⟨session, reachable, log⟩ := consistent.sessions streamId
  by_cases same : streamId = append.streamId
  · have state : session.state =
        evolveAll initialSessionState (contents.events input.streamId) := by
      rw [← sameStream, ← same, ← log]
      exact (Session.Sound.of_reachable reachable).folded
    let events := append.events.map Prod.snd
    have stepped : sessionSystem.step session input.command = some
        { state := evolveAll session.state events
          journal := session.journal ++ [⟨input.command, events⟩] } :=
      sessionSystem_step.mpr ⟨events, state ▸ decided.decided, rfl, rfl⟩
    refine ⟨_, reachable.step stepped, ?_⟩
    rw [same, DispatchContents.events, stream_commit_self, map_append,
      AppendInput.stored, AppendInput.records_event, ← DispatchContents.events, ← same,
      ← log]
    simp [Session.log, events]
  · refine ⟨session, reachable, ?_⟩
    rw [events, stream_commit_other _ _ _ same]
    exact log

theorem commit (lastSequence : Nat) (absent : contents.receipt append.commandId = none)
    (newest : (contents.stream append.streamId).length = append.expectedVersion)
    (decided : input.Decided contents (contents.events input.streamId) (append.events.map Prod.snd))
    (sameStream : append.streamId = input.streamId) (nodup : (append.events.map Prod.fst).Nodup)
    (reserved : ∀ id ∈ append.events.map Prod.fst, id ∈ issued ∧
      ∀ record ∈ contents.log, record.eventId ≠ id)
    (apart : ∀ call ∈ calls, (append.events.map Prod.fst).Disjoint call.phase.eventIds) :
    (contents.commit append lastSequence).Consistent issued calls := by
  have newIds : (append.stored lastSequence).map (·.eventId) = append.events.map Prod.fst := by
    have entries := append.records_append append.expectedVersion lastSequence append.events
    have ids := congrArg (List.map (·.id)) entries
    rw [map_map, numbered_ids] at ids
    exact ids
  have logged : ∀ record ∈ (contents.commit append lastSequence).log,
      record ∈ contents.log ∨ record.eventId ∈ append.events.map Prod.fst := by
    intro record member
    rcases mem_append.mp member with before | new
    · exact .inl before
    · exact .inr (newIds ▸ mem_map_of_mem new)
  constructor
  · rw [contents.versioned_commit lastSequence newest]
    apply consistent.exact.record (receipt_eq_none.mp absent) nodup
    intro id held listed
    simp only [versioned, map_map, mem_map, Function.comp_apply] at listed
    obtain ⟨record, member, same⟩ := listed
    exact (reserved id held).2 record member same
  · intro record member
    rcases logged record member with before | new
    · exact consistent.logged record before
    · exact (reserved _ new).1
  · exact consistent.session_commit decided sameStream lastSequence
  · exact fun call member =>
      (consistent.justified call member).mono (.commit contents append lastSequence)
  · exact consistent.nodup
  · intro call member id held
    obtain ⟨known, unlogged⟩ := consistent.reserved call member id held
    refine ⟨known, fun record recorded same => ?_⟩
    rcases logged record recorded with before | new
    · exact unlogged record before same
    · exact apart call member new (same ▸ held)
  · exact consistent.apart

end DispatchContents.Consistent

end Calls

end Zuse.Domain
