import Zuse.Domain.Core.Session

namespace Zuse.Domain

open Zuse.Data List SessionEvent

/-! The events of a decision that hand a message over, reorder the queue, end a turn or
change the transcript. A command leads to few of them. -/

/-- The events that take a message off the queue for someone, or park it. -/
def SessionEvent.handsOver : SessionEvent → Bool
  | .queuedTurnClaimed .. | .successorTurnScheduled .. => true
  | _ => false

def SessionEvent.newOrder : SessionEvent → Option (List String)
  | .queuedTurnsReordered queueIds _ => some queueIds
  | _ => none

def SessionEvent.settlement : SessionEvent → Option (String × SettlementOutcome)
  | .turnSettled turnId outcome _ => some (turnId, outcome)
  | _ => none

/-- The turn that an event begins to finalize, and the outcome that it records. -/
def SessionEvent.finalization : SessionEvent → Option (String × SettlementOutcome)
  | .turnFinalizationRequested turnId _ outcome _ => some (turnId, outcome)
  | _ => none

def SessionEvent.changesTranscript : SessionEvent → Bool
  | .messagePersisted _ | .turnsRolledBack _ | .sessionDeleted _ => true
  | _ => false

def SessionEvent.isNotable : SessionEvent → Bool
  | .queuedTurnClaimed .. | .successorTurnScheduled .. | .queuedTurnsReordered ..
  | .turnSettled .. | .turnFinalizationRequested .. | .messagePersisted _
  | .turnsRolledBack _ | .sessionDeleted _ => true
  | _ => false

def notable (events : List SessionEvent) : List SessionEvent :=
  events.filter SessionEvent.isNotable

@[simp] theorem notable_nil : notable [] = [] := rfl

@[simp] theorem notable_cons (event : SessionEvent) (rest : List SessionEvent) :
    notable (event :: rest) = if event.isNotable then event :: notable rest else notable rest :=
  filter_cons

@[simp] theorem notable_append (before after : List SessionEvent) :
    notable (before ++ after) = notable before ++ notable after :=
  filter_append before after

theorem notable_map {α : Type} (entries : List α) {event : α → SessionEvent}
    (routine : ∀ entry, (event entry).isNotable = false) : notable (entries.map event) = [] := by
  refine filter_eq_nil_iff.mpr fun _ member => ?_
  obtain ⟨entry, -, rfl⟩ := mem_map.mp member
  simp [routine entry]

theorem forall_of_notable {events : List SessionEvent} {holds : SessionEvent → Prop}
    (routine : ∀ event : SessionEvent, event.isNotable = false → holds event)
    (all : ∀ event ∈ notable events, holds event) : ∀ event ∈ events, holds event := by
  intro event member
  cases isNotable : event.isNotable with
  | false => exact routine event isNotable
  | true => exact all event (mem_filter.mpr ⟨member, isNotable⟩)

/-- A message that the decider accepts over the checkpoint of its id. -/
structure SessionState.Accepts (state : SessionState) (message : MessageFields) : Prop where
  paired : message.checkpointRevision.isNone = message.checkpointFinal.isNone
  unversioned : message.checkpointRevision = none →
    state.messageCheckpoints.get? message.messageId = none
  supersedes : ∀ revision ∈ message.checkpointRevision,
    ∀ current ∈ state.messageCheckpoints.get? message.messageId,
      current.final = false ∧ current.revision < revision

def SessionCommand.submittedMessageId : SessionCommand → Option String
  | .submitTurn _ messageId .. | .createSessionWithInitialTurn _ _ _ messageId .. =>
    some messageId
  | _ => none

def SessionCommand.leavesNotice : SessionCommand → Bool
  | .setModel .. | .setProvider .. | .expireAttempt .. => true
  | _ => false

def SessionCommand.settlement : SessionCommand → Option (String × SettlementOutcome)
  | .settleTurn turnId outcome _ => some (turnId, outcome)
  | _ => none

def SessionCommand.expires (turnId : String) : SessionCommand → Bool
  | .expireAttempt expired _ _ => expired = turnId
  | _ => false

def SessionCommand.handsOver : SessionCommand → Bool
  | .claimQueuedTurn .. | .steerQueuedTurn .. => true
  | _ => false

/-- The message that a turn is submitted with, or a notice of the decider. -/
structure SessionCommand.Writes (command : SessionCommand) (message : MessageFields) : Prop where
  author : command.submittedMessageId = some message.messageId ∨ command.leavesNotice = true
  revision : message.checkpointRevision = none
  final : message.checkpointFinal = none

inductive Notable (state : SessionState) (command : SessionCommand) :
    List SessionEvent → Prop
  | nothing : Notable state command []
  | handed (events : List SessionEvent) (isCommand : command.handsOver = true)
      (only : ∀ event ∈ events, event.handsOver = true) : Notable state command events
  | reordered (queueIds known : List String) (reorderedAt : Millis)
      (isCommand : command = .reorderQueuedTurns queueIds reorderedAt) :
      Notable state command [.queuedTurnsReordered known reorderedAt]
  | finalized (turnId attemptId : String) (outcome : SettlementOutcome) (settledAt : Millis)
      (isCommand : command = .finalizeTurn turnId outcome settledAt) :
      Notable state command [.turnFinalizationRequested turnId attemptId outcome settledAt]
  | settled (turnId : String) (outcome : SettlementOutcome) (settledAt : Millis)
      (isCommand : command.settlement = some (turnId, outcome)) :
      Notable state command [.turnSettled turnId outcome settledAt]
  | expired (turnId : String) (outcome : SettlementOutcome) (settledAt : Millis)
      (isCommand : command.expires turnId = true) (notice settlement : List SessionEvent)
      (written : notice = [] ∨
        ∃ message, command.Writes message ∧ notice = [.messagePersisted message])
      (settles : settlement = [] ∨ settlement = [.turnSettled turnId outcome settledAt]) :
      Notable state command (notice ++ settlement)
  | persisted (message : MessageFields) (isCommand : command = .persistMessage message)
      (accepts : state.Accepts message) : Notable state command [.messagePersisted message]
  | written (message : MessageFields) (writes : command.Writes message) :
      Notable state command [.messagePersisted message]
  | rolledBack (rollback : TurnsRolledBackEvent)
      (isCommand : command = .rollbackTurns rollback.throughOrdinal rollback.messageSequence
        rollback.removedMessageIds rollback.rolledBackAt) :
      Notable state command [.turnsRolledBack rollback]
  | deleted (deletedAt : Millis) (isCommand : command = .deleteSession deletedAt) :
      Notable state command [.sessionDeleted deletedAt]

def SessionCommand.Explains (command : SessionCommand) : SessionEvent → Prop
  | .queuedTurnClaimed .. | .successorTurnScheduled .. => command.handsOver = true
  | .queuedTurnsReordered .. =>
    ∃ queueIds reorderedAt, command = .reorderQueuedTurns queueIds reorderedAt
  | .turnFinalizationRequested turnId _ outcome settledAt =>
    command = .finalizeTurn turnId outcome settledAt
  | _ => True

section Decisions

variable {state : SessionState} {events : List SessionEvent}

@[simp] theorem notable_providerStops (requestedAt : Millis) :
    notable (providerStops state requestedAt) = [] :=
  notable_map _ fun _ => rfl

@[simp] theorem notable_seed (sessionId : String) (seed : Option ProviderThreadSeed)
    (at_ : Millis) : notable (providerThreadSeedEvents sessionId seed at_) = [] := by
  cases seed <;> rfl

@[simp] theorem notable_detach (detachedAt : Millis) :
    notable (detachEvents state detachedAt) = [] := by
  unfold detachEvents
  split <;> rfl

variable {command : SessionCommand}

theorem notable_switch (notice : command.leavesNotice = true) (toProviderId : Option String)
    (model : String) (updatedAt : Millis) {changed : SessionEvent}
    (routine : changed.isNotable = false) (resumed : Option ProviderThreadState) :
    Notable state command
      (notable (switchEvents state toProviderId model updatedAt changed resumed)) := by
  have marker : notable (switchEvents state toProviderId model updatedAt changed resumed) =
      notable (modelSwitchMarker state toProviderId model updatedAt) := by
    unfold switchEvents
    simp only [notable_append, notable_providerStops, notable_cons, routine, Bool.false_eq_true,
      if_false, notable_nil, nil_append, append_nil]
    cases resumed <;> simp [isNotable]
  rw [marker]
  unfold modelSwitchMarker
  split
  · split
    · exact .nothing
    · exact .written _ ⟨.inr notice, rfl, rfl⟩
  · exact .nothing

theorem notable_persist {message : MessageFields}
    (decided : decidePersistMessage state message = .ok events) :
    Notable state (.persistMessage message) (notable events) := by
  unfold decidePersistMessage at decided
  split at decided
  · cases decided
  next paired =>
    simp only [ne_eq, not_not] at paired
    split at decided
    next unversioned =>
      split at decided
      · cases decided
        exact .nothing
      next absent =>
        cases decided
        refine .persisted message rfl ⟨paired, fun _ => ?_, ?_⟩
        · simpa only [Bool.not_eq_true, InsertionMap.has_eq_false] using absent
        · rw [unversioned]
          exact fun _ none => absurd none (Option.not_mem_none _)
    next revision versioned =>
      split at decided
      · cases decided
      split at decided
      · cases decided
        exact .nothing
      next ahead =>
        cases decided
        refine .persisted message rfl ⟨paired, ?_, ?_⟩
        · rw [versioned]
          exact fun none => by cases none
        intro other isRevision current isCurrent
        obtain rfl := Option.some.inj (versioned.symm.trans isRevision)
        rw [Option.mem_def.mp isCurrent] at ahead
        simp only [Option.any_some, decide_eq_true_eq, not_or, Rat.not_le] at ahead
        exact ⟨Bool.eq_false_of_not_eq_true ahead.1, ahead.2⟩

variable {turnId : String}

theorem notable_settleTurn {outcome : SettlementOutcome} {settledAt : Millis}
    (decided : decideSettleTurn state turnId outcome settledAt = .ok events) :
    notable events = [] ∨ notable events = [.turnSettled turnId outcome settledAt] := by
  unfold decideSettleTurn notCurrent at decided
  repeat' split at decided
  all_goals cases decided
  · exact .inl rfl
  have segments : notable (settleOpenSegments state turnId outcome settledAt) = [] :=
    notable_map _ fun _ => rfl
  have successor : notable (releaseSuccessor state turnId settledAt) = [] := by
    unfold releaseSuccessor
    split
    · rfl
    · split <;> rfl
  exact .inr (by simp [segments, successor, isNotable])

variable {expectedAttemptId : String}

theorem notable_recoverTurn {requestedAt : Millis}
    (decided : decideRecoverTurn state turnId expectedAttemptId requestedAt = .ok events) :
    notable events = [] := by
  simp only [decideRecoverTurn] at decided
  repeat' split at decided
  all_goals cases decided
  simp [isNotable]

theorem notable_expireAttempt {expiredAt : Millis}
    (decided : decideExpireAttempt state turnId expectedAttemptId expiredAt = .ok events) :
    Notable state (.expireAttempt turnId expectedAttemptId expiredAt) (notable events) := by
  unfold decideExpireAttempt at decided
  split at decided
  · cases decided
  split at decided
  next recovery recovers =>
    cases decided
    rw [notable_recoverTurn recovers]
    exact .nothing
  next =>
    simp only at decided
    split at decided
    · cases decided
    next settlement settles =>
      cases decided
      rw [notable_append, notable_append, notable_providerStops]
      refine .expired turnId _ expiredAt (by simp [SessionCommand.expires]) _ _ ?_
        (notable_settleTurn settles)
      split
      · exact .inl rfl
      · exact .inr ⟨_, ⟨.inr rfl, rfl, rfl⟩, rfl⟩

theorem notable_decideExisting (decided : decideExisting state command = .ok events) :
    Notable state command (notable events) := by
  cases command with
  | persistMessage message => exact notable_persist decided
  | expireAttempt => exact notable_expireAttempt decided
  | setModel model updatedAt =>
    simp only [decideExisting, decideSetModel] at decided
    repeat' split at decided
    all_goals cases decided
    · exact .nothing
    · exact notable_switch rfl _ _ _ rfl _
  | setProvider resumeThreadId expectedProviderThreadId providerId model updatedAt =>
    simp only [decideExisting, decideSetProvider] at decided
    repeat' split at decided
    all_goals cases decided
    · exact .nothing
    · exact notable_switch rfl _ _ _ rfl _
  | submitTurn turnId messageId =>
    simp only [decideExisting, decideSubmitTurn] at decided
    split at decided
    all_goals cases decided
    exact .written _ ⟨.inl rfl, rfl, rfl⟩
  | rollbackTurns throughOrdinal messageSequence removedMessageIds rolledBackAt =>
    simp only [decideExisting, decideRollbackTurns] at decided
    repeat' split at decided
    all_goals cases decided
    exact .rolledBack _ rfl
  | deleteSession deletedAt =>
    cases decided
    exact .deleted deletedAt rfl
  | settleTurn turnId outcome settledAt =>
    rcases notable_settleTurn decided with none | settled
    · rw [none]
      exact .nothing
    · rw [settled]
      exact .settled turnId outcome settledAt rfl
  | recoverTurn =>
    rw [notable_recoverTurn decided]
    exact .nothing
  | finalizeTurn turnId outcome settledAt =>
    simp only [decideExisting, decideFinalizeTurn, notCurrent] at decided
    repeat' split at decided
    all_goals cases decided
    · exact .nothing
    · exact .nothing
    · exact .finalized turnId _ outcome settledAt rfl
  | reorderQueuedTurns queueIds reorderedAt =>
    cases decided
    exact .reordered queueIds _ reorderedAt rfl
  | claimQueuedTurn queueId claimedAt =>
    simp only [decideExisting] at decided
    split at decided
    all_goals cases decided
    · exact .handed _ rfl (by simp [isNotable, handsOver])
    · exact .nothing
  | steerQueuedTurn expectedTurnId queueId successorTurnId requestedAt =>
    simp only [decideExisting, decideSteerQueuedTurn] at decided
    repeat' split at decided
    all_goals cases decided
    all_goals
      exact .handed _ rfl (by simp [isNotable, handsOver])
  | _ =>
    simp only [decideExisting, decideSetTitle, decideBindProviderThread,
      decideBindAttemptProviderTurn, decideRetryTurn, decideReleaseInitialTurn, decideStartTurn,
      decideRequestTurnInterrupt, decideAcknowledgeTurnInterrupt, decideFailTurnInterrupt,
      decideReserveProviderSession, decideAttachProvider, decideDetachProvider, notCurrent,
      startedTurn] at decided
    repeat' split at decided
    all_goals cases decided
    all_goals
      simp only [notable_append, notable_cons, notable_nil, notable_providerStops, notable_detach,
        isNotable, Bool.false_eq_true, if_false, append_nil]
      exact .nothing

theorem notable_decide (decided : decide state command = .ok events) :
    Notable state command (notable events) := by
  cases command with
  | createSession created providerThread =>
    simp only [decide, decideCreateSession] at decided
    split at decided
    all_goals cases decided
    simp only [notable_cons, isNotable, notable_seed, Bool.false_eq_true, if_false]
    exact .nothing
  | createSessionWithInitialTurn created providerThread turnId messageId =>
    simp only [decide, decideCreateSessionWithInitialTurn] at decided
    split at decided
    all_goals cases decided
    simp only [cons_append, notable_cons, notable_append, notable_seed,
      isNotable, Bool.false_eq_true, if_false, if_true, nil_append,
      notable_nil]
    split <;> exact .written _ ⟨.inl rfl, rfl, rfl⟩
  | _ =>
    simp only [decide] at decided
    split at decided
    · cases decided
    split at decided
    · cases decided
    exact notable_decideExisting decided

theorem decide_explains (decided : decide state command = .ok events) :
    ∀ event ∈ events, command.Explains event := by
  refine forall_of_notable (fun event routine => by cases event <;> first | trivial) ?_
  have change := notable_decide decided
  generalize notable events = kept at change
  intro event member
  cases change with
  | nothing => cases member
  | handed _ isCommand only =>
    have hands := only event member
    cases event <;> first | exact isCommand | cases hands
  | expired turnId outcome settledAt isCommand notice settlement written settles =>
    rcases mem_append.mp member with noticed | ended
    · rcases written with rfl | ⟨message, -, rfl⟩
      · cases noticed
      · cases mem_singleton.mp noticed
        trivial
    · rcases settles with rfl | rfl
      · cases ended
      · cases mem_singleton.mp ended
        trivial
  | reordered queueIds known reorderedAt isCommand =>
    cases mem_singleton.mp member
    exact ⟨queueIds, reorderedAt, isCommand⟩
  | finalized turnId attemptId outcome settledAt isCommand =>
    cases mem_singleton.mp member
    exact isCommand
  | _ =>
    cases mem_singleton.mp member
    trivial

end Decisions

end Zuse.Domain
