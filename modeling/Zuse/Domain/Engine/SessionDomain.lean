import Zuse.Domain.AgentEngine.JobLease
import Zuse.Domain.Engine.EventTable

namespace Zuse.Domain

open Zuse.Data

/-! The command path of a session: one transaction dispatches the command, projects the
events and writes the jobs they imply. -/

section Run

variable [PayloadCodec] (input : DispatchInput) (storage : SqlDispatchStorage SessionEvent)

def DispatchInput.decision :
    Except DispatchFailure (CommandReceipt ⊕ (SessionState × List SessionEvent)) :=
  match storage.receipt input.commandId, input.expectedAttempt, input.expectedProviderSessionId with
  | some receipt, none, none => (input.validate receipt).map .inl
  | existing, _, _ =>
    let log := (storage.streamEvents input.streamId).map (·.event)
    let state := evolveAll initialSessionState log
    match input.checkOwnership state log with
    | .error failure => .error failure
    | .ok () =>
      match existing with
      | some receipt => (input.validate receipt).map .inl
      | none =>
        match decide state input.command with
        | .error error => .error (.domain error)
        | .ok events => .ok (.inr (state, events))

/-- `run` with nothing in between: it holds the transaction. No retry after a conflict
can come out differently. -/
def DispatchInput.run (eventIds : List String) :
    Except DispatchFailure (CommandReceipt × SqlDispatchStorage SessionEvent) :=
  match input.decision storage with
  | .error failure => .error failure
  | .ok (.inl receipt) => .ok (receipt, storage)
  | .ok (.inr (state, events)) =>
    storage.append (input.appendInput state (eventIds.zip events))

/-- How many event ids `run` draws. -/
def DispatchInput.drawn : Nat :=
  match input.decision storage with
  | .ok (.inr (_, events)) => events.length
  | _ => 0

end Run

def SessionCommand.isAllowedDuringForkConstruction : SessionCommand → Bool
  | .createSession .. | .deleteSession .. | .requestProviderStop .. | .persistMessage .. =>
    true
  | _ => false

def SessionCommand.isHeldDuringCheckpointRestore : SessionCommand → Bool
  | .submitTurn .. | .startTurn .. | .retryTurn .. | .recoverTurn ..
  | .createSessionWithInitialTurn .. | .releaseInitialTurn .. | .claimQueuedTurn ..
  | .steerQueuedTurn .. | .reserveProviderSession .. | .setProvider .. | .setModel ..
  | .setWorktree .. | .unarchiveSession .. => true
  | _ => false

def SessionCommand.isExpireAttempt : SessionCommand → Bool
  | .expireAttempt .. => true
  | _ => false

def SessionEvent.isAttemptStarted : SessionEvent → Bool
  | .attemptStarted _ => true
  | _ => false

def SessionEvent.isTurnInterruptRequested : SessionEvent → Bool
  | .turnInterruptRequested .. => true
  | _ => false

structure SessionDomain (ρ : Type u) where
  storage : SqlDispatchStorage SessionEvent
  /-- The row of the session projector in `projector_cursors`. -/
  projectorCursor : Option Nat
  readModel : ρ
  ledger : LedgerWorld
  admissionClosed : Bool
  forkConstructions : List String
  checkpointRestorePending : Bool

inductive SessionDomainFailure where
  | admissionClosed
  | dispatch (failure : DispatchFailure)

namespace SessionDomain

variable {ρ : Type u} (project : StoredEvent SessionEvent → ρ → ρ) (domain : SessionDomain ρ)

def admits (input : DispatchInput) : Bool :=
  !domain.admissionClosed &&
    (input.command.isAllowedDuringForkConstruction ||
      Decidable.decide (input.streamId ∉ domain.forkConstructions)) &&
    (!input.command.isHeldDuringCheckpointRestore || !domain.checkpointRestorePending)

def projectRecord (projected : Option Nat × ρ) (record : StoredEvent SessionEvent) :
    Option Nat × ρ :=
  let cursor := projected.1.getD 0
  if record.sequence ≤ cursor then projected
  else (some (max cursor record.sequence), project record projected.2)

def receiptEvents (storage : SqlDispatchStorage SessionEvent) (streamId : String)
    (receipt : CommandReceipt) : List (StoredEvent SessionEvent) :=
  if receipt.eventIds = [] then []
  else
    storage.eventsInVersionRange streamId
      (receipt.streamVersion - receipt.eventIds.length) receipt.streamVersion

def supersededKinds : List JobKind :=
  [.providerTurnSend, .providerTurnInterrupt, .providerTurnRecover]

def interruptedKinds : List JobKind := [.providerTurnSend, .providerTurnRecover]

def supersedes (input : DispatchInput) (appended : List (StoredEvent SessionEvent)) : Bool :=
  input.command.isExpireAttempt || appended.any (·.event.isAttemptStarted)

def interrupts (appended : List (StoredEvent SessionEvent)) : Bool :=
  appended.any (·.event.isTurnInterruptRequested)

def cancelUnsettled (ledger : LedgerWorld) (sessionId : String) (kinds : List JobKind)
    (reason : String) : LedgerWorld :=
  ledger.write .cancelled (ledger.table.cancelUnsettled ledger.now sessionId kinds reason)

def updateJobs (input : DispatchInput) (appended : List (StoredEvent SessionEvent))
    (ledger : LedgerWorld) : LedgerWorld :=
  let superseded :=
    if supersedes input appended then
      cancelUnsettled ledger input.streamId supersededKinds "Superseded by a new attempt."
    else ledger
  let interrupted :=
    if interrupts appended then
      cancelUnsettled superseded input.streamId interruptedKinds "Turn interrupted by the user."
    else superseded
  (appended.flatMap jobsForSessionEvent).foldl LedgerWorld.insert interrupted

section Dispatch

variable [PayloadCodec]

def dispatchTransactionally (input : DispatchInput) (eventIds : List String) :
    Except SessionDomainFailure (CommandReceipt × SessionDomain ρ) :=
  if domain.admits input = false then .error .admissionClosed
  else
    match input.run domain.storage eventIds with
    | .error failure => .error (.dispatch failure)
    | .ok (receipt, storage) =>
      let appended := receiptEvents storage input.streamId receipt
      let projected := appended.foldl (projectRecord project)
        (domain.projectorCursor, domain.readModel)
      .ok (receipt,
        { domain with
          storage
          projectorCursor := projected.1
          readModel := projected.2
          ledger := updateJobs input appended domain.ledger })

def catchUp : SessionDomain ρ :=
  let events := domain.storage.allEventsAfterSequence (domain.projectorCursor.getD 0)
  let projected := events.foldl (projectRecord project) (domain.projectorCursor, domain.readModel)
  { domain with projectorCursor := projected.1, readModel := projected.2 }

end Dispatch

end SessionDomain

inductive SessionDomainStep where
  | dispatch (input : DispatchInput) (eventIds : List String)
  | ledger (step : LedgerStep)
  | catchUp
  | commitElsewhere (rows : Nat)
  | closeAdmission
  | restart
  | beginForkConstruction (sessionId : String)
  | completeForkConstruction (sessionId : String)
  | beginCheckpointRestore
  | completeCheckpointRestore

section System

variable [PayloadCodec] {ρ : Type u}

def SessionDomain.Draws (domain : SessionDomain ρ) (input : DispatchInput)
    (eventIds : List String) : Prop :=
  eventIds.length = input.drawn domain.storage ∧ eventIds.Nodup ∧
    ∀ id ∈ eventIds, id ∉ domain.storage.events.map (·.eventId)

instance (domain : SessionDomain ρ) (input : DispatchInput) (eventIds : List String) :
    Decidable (domain.Draws input eventIds) :=
  inferInstanceAs (Decidable (_ ∧ _ ∧ _))

def sessionDomainSystem (project : StoredEvent SessionEvent → ρ → ρ) (emptyModel : ρ) :
    TransitionSystem (SessionDomain ρ) SessionDomainStep where
  init :=
    { storage := (sqlStorage SessionEvent).empty
      projectorCursor := none
      readModel := emptyModel
      ledger := ledgerSystem.init
      admissionClosed := false
      forkConstructions := []
      checkpointRestorePending := false }
  step := fun domain label =>
    match label with
    | .dispatch input eventIds =>
      if domain.Draws input eventIds then
        match domain.dispatchTransactionally project input eventIds with
        | .error _ => none
        | .ok (_, next) => some next
      else none
    | .ledger step =>
      match ledgerSystem.step domain.ledger step with
      | none => none
      | some ledger => some { domain with ledger }
    | .catchUp => some (domain.catchUp project)
    | .commitElsewhere rows =>
      some
        { domain with
          storage :=
            { domain.storage with
              lastSequence := domain.storage.lastSequence + rows } }
    | .closeAdmission => some { domain with admissionClosed := true }
    | .restart => some { domain with admissionClosed := false }
    | .beginForkConstruction sessionId =>
      some { domain with forkConstructions := sessionId :: domain.forkConstructions }
    | .completeForkConstruction sessionId =>
      some
        { domain with
          forkConstructions := domain.forkConstructions.filter (· ≠ sessionId) }
    | .beginCheckpointRestore => some { domain with checkpointRestorePending := true }
    | .completeCheckpointRestore => some { domain with checkpointRestorePending := false }

end System

end Zuse.Domain
