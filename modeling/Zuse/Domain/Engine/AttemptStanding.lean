import Zuse.Domain.Engine.AttemptFencing

namespace Zuse.Domain

open Zuse.Data List Ready Option
open Domain (evolve evolveAll)

def SessionEvent.interruptsTurn : SessionEvent → Bool
  | .turnInterruptRequested .. | .turnInterruptAcknowledged .. => true
  | _ => false

def SessionEvent.restarts (turnId : String) : SessionEvent → Bool
  | .turnStarted started => started.turnId = turnId
  | _ => false

def SessionEvent.finalizes (turnId : String) : SessionEvent → Bool
  | .turnFinalizationRequested finalized _ _ _ => finalized = turnId
  | _ => false

def SessionEvent.archives : SessionEvent → Bool
  | .sessionArchived _ | .sessionUnarchived _ => true
  | _ => false

/-- The event starts the turn again, or takes its session away or back. -/
def SessionEvent.leavesScope (turnId : String) (event : SessionEvent) : Bool :=
  event.restarts turnId || event.archives || event.deletes

theorem SessionEvent.leavesScope_eq_false {turnId : String} {event : SessionEvent} :
    event.leavesScope turnId = false ↔
      event.restarts turnId = false ∧ event.archives = false ∧ event.deletes = false := by
  simp only [leavesScope, Bool.or_eq_false_iff, and_assoc]

structure TurnState.Continues (event : SessionEvent) (turn next : TurnState) : Prop where
  finalizing : turn.status = .finalizing → next.status = .finalizing
  running : event.interruptsTurn = false → turn.phase = some .running →
    next.phase = some .running

theorem TurnState.Continues.refl (event : SessionEvent) (turn : TurnState) :
    turn.Continues event turn :=
  ⟨fun final => final, fun _ runs => runs⟩

namespace SessionState

variable {state : SessionState} {turnId attemptId : String} {next : TurnState}

def Issued (state : SessionState) (turnId attemptId : String) : Prop :=
  ∃ ordinal, ordinal ≤ attemptCount state.turns turnId ∧ attemptId = attemptIdFor turnId ordinal

variable [PayloadCodec] {event : SessionEvent}

theorem Issued.evolve (issued : state.Issued turnId attemptId)
    (wellFormed : state.WellFormed) (noRestart : event.restarts turnId = false) :
    (evolve state event).Issued turnId attemptId := by
  obtain ⟨ordinal, within, same⟩ := issued
  refine ⟨ordinal, within.trans (attemptCount_evolve wellFormed ?_), same⟩
  rintro started rfl restarted
  rw [SessionEvent.restarts, restarted, decide_eq_false_iff_not] at noRestart
  exact noRestart rfl

variable {started : AttemptStartedEvent}

theorem not_owned_attemptStarted (wellFormed : state.WellFormed)
    (issued : state.Issued turnId attemptId) (emitted : state.Emits (.attemptStarted started)) :
    ownedTurn (evolve state (.attemptStarted started)) turnId attemptId = none := by
  cases owned : ownedTurn (evolve state (.attemptStarted started)) turnId attemptId with
  | none => rfl
  | some next =>
    obtain ⟨⟨isCurrent, found⟩, active⟩ := ownedTurn_eq_some.mp owned
    have after := wellFormed.evolve emitted
    have count := attemptCount_attemptStarted wellFormed emitted
    obtain ⟨-, -, turn, current, -⟩ := emitted
    have sameTurn : started.turnId = turnId := by
      have kept : (state.applyAttemptStarted started).currentTurnId = state.currentTurnId := by
        obtain ⟨_, _, _, changed⟩ := state.applyAttemptStarted_changes started
        rw [changed]
      exact some.inj ((current.1.symm.trans kept.symm).trans isCurrent)
    obtain ⟨ordinal, within, same⟩ := issued
    rw [sameTurn, attemptCount_of_get found] at count
    have latest := (after.owned.table.numbered _ next found).latest
    rw [active, same, attemptIdFor_inj] at latest
    omega

theorem ownedTurn_evolve (wellFormed : state.WellFormed) (emitted : state.Emits event)
    (noRestart : event.restarts turnId = false) (issued : state.Issued turnId attemptId)
    (owned : ownedTurn (evolve state event) turnId attemptId = some next) :
    ∃ turn, ownedTurn state turnId attemptId = some turn ∧ turn.Continues event next ∧
      (event.finalizes turnId = true → next.status = .finalizing) := by
  obtain ⟨⟨isCurrent, found⟩, active⟩ := ownedTurn_eq_some.mp owned
  change (state.apply event).currentTurnId = some turnId at isCurrent
  change (state.apply event).turns.get? turnId = some next at found
  have unchanged (sameId : (state.apply event).currentTurnId = state.currentTurnId)
      (sameTurns : (state.apply event).turns = state.turns)
      (noFinal : event.finalizes turnId = false) :
      ∃ turn, ownedTurn state turnId attemptId = some turn ∧ turn.Continues event next ∧
        (event.finalizes turnId = true → next.status = .finalizing) := by
    rw [sameId] at isCurrent
    rw [sameTurns] at found
    refine ⟨next, ownedTurn_eq_some.mpr ⟨⟨isCurrent, found⟩, active⟩, .refl event next, ?_⟩
    intro final
    rw [noFinal] at final
    cases final
  have ofExecution (same : (state.apply event).execution = state.execution)
      (noFinal : event.finalizes turnId = false) :=
    unchanged (congrArg Execution.currentTurnId same) (congrArg Execution.turns same) noFinal
  have withPhase (phase : TurnPhase) (id : String)
      (applied : state.apply event = state.withTurnPhase id phase)
      (noFinal : event.finalizes turnId = false)
      (runs : event.interruptsTurn = false → phase = .running) :
      ∃ turn, ownedTurn state turnId attemptId = some turn ∧ turn.Continues event next ∧
        (event.finalizes turnId = true → next.status = .finalizing) := by
    cases present : state.turns.get? id with
    | none =>
      rw [withTurnPhase, present] at applied
      exact unchanged (by rw [applied]) (by rw [applied]) noFinal
    | some turn =>
      rw [withTurnPhase, present] at applied
      dsimp only at applied
      split at applied
      · rename_i atTurn
        rw [applied] at isCurrent found
        obtain rfl := some.inj (atTurn.symm.trans isCurrent)
        rw [InsertionMap.get?_set_self] at found
        cases found
        refine ⟨turn, ownedTurn_eq_some.mpr ⟨⟨atTurn, present⟩, active⟩,
          ⟨fun final => final, fun quiet _ => congrArg some (runs quiet)⟩, ?_⟩
        intro final
        rw [noFinal] at final
        cases final
      · exact unchanged (by rw [applied]) (by rw [applied]) noFinal
  cases event with
  | sessionCreated created => exact ofExecution (state.execution_applySessionCreated created) rfl
  | sessionProviderSet providerId model updatedAt =>
    exact ofExecution (state.execution_retireActiveProviderThread updatedAt) rfl
  | sessionWorktreeSet worktreeId updatedAt =>
    obtain ⟨_, _, _, changed⟩ := state.apply_sessionWorktreeSet_changes worktreeId updatedAt
    exact unchanged (by rw [changed]) (by rw [changed]) rfl
  | sessionStatusSet status updatedAt =>
    change (state.applySessionStatusSet status).currentTurnId = _ at isCurrent
    change (state.applySessionStatusSet status).turns.get? _ = _ at found
    unfold applySessionStatusSet at isCurrent found
    cases present : state.currentTurn with
    | none =>
      rw [present] at isCurrent found
      exact ⟨next, ownedTurn_eq_some.mpr ⟨⟨isCurrent, found⟩, active⟩, .refl _ next,
        fun final => by cases final⟩
    | some turn =>
      rw [present] at isCurrent found
      dsimp only at isCurrent found
      split at found
      · rename_i starting
        rw [if_pos starting] at isCurrent
        obtain ⟨id, atTurn, isTurn⟩ := bind_eq_some_iff.mp present
        obtain rfl := some.inj (atTurn.symm.trans isCurrent)
        have sameId := wellFormed.owned.table.turnId _ turn isTurn
        simp only [withTurn, sameId, InsertionMap.get?_set_self] at found
        cases found
        refine ⟨turn, ownedTurn_eq_some.mpr ⟨⟨atTurn, isTurn⟩, active⟩,
          ⟨fun final => ?_, fun _ runs => runs⟩, fun final => by cases final⟩
        rw [starting.2] at final
        cases final
      · rename_i same
        rw [if_neg same] at isCurrent
        exact ⟨next, ownedTurn_eq_some.mpr ⟨⟨isCurrent, found⟩, active⟩, .refl _ next,
          fun final => by cases final⟩
  | turnStarted started =>
    rw [SessionEvent.restarts, decide_eq_false_iff_not] at noRestart
    exact absurd (some.inj isCurrent) noRestart
  | attemptProviderTurnBound id bound reference boundAt =>
    obtain ⟨_, changed⟩ :=
      state.apply_attemptProviderTurnBound_changes id bound reference boundAt
    exact unchanged (by rw [changed]) (by rw [changed]) rfl
  | attemptStarted started =>
    rw [not_owned_attemptStarted wellFormed issued emitted] at owned
    cases owned
  | turnsRolledBack rollback =>
    have idle := emitted.2.2.1
    cases idle.symm.trans isCurrent
  | turnFinalizationRequested id finalized outcome settledAt =>
    obtain ⟨-, -, turn, current, -⟩ := emitted
    rw [apply, current.2] at isCurrent found
    obtain rfl := some.inj (current.1.symm.trans isCurrent)
    have sameId := wellFormed.owned.table.turnId _ turn current.2
    simp only [withTurn, sameId, InsertionMap.get?_set_self] at found
    cases found
    exact ⟨turn, ownedTurn_eq_some.mpr ⟨current, active⟩,
      ⟨fun _ => rfl, fun _ runs => runs⟩, fun _ => rfl⟩
  | turnSettled id outcome settledAt =>
    cases isCurrent
  | turnInterruptRequested id requested requestedAt =>
    exact withPhase .interruptRequested id rfl rfl (fun quiet => by cases quiet)
  | turnInterruptAcknowledged id acknowledgedAt =>
    exact withPhase .interruptAcknowledged id rfl rfl (fun quiet => by cases quiet)
  | turnInterruptFailed id reason failedAt =>
    exact withPhase .running id rfl rfl (fun _ => rfl)
  | queuedTurnUpdated queueId inputJson updatedAt ready =>
    obtain ⟨_, changed⟩ :=
      state.apply_queuedTurnUpdated_changes queueId inputJson updatedAt ready
    exact unchanged (by rw [changed]) (by rw [changed]) rfl
  | sessionResumeSet cursor providerEventCursor updatedAt => exact emitted.2.2.elim
  | _ => exact unchanged rfl rfl rfl

theorem Issued.evolveAll (issued : state.Issued turnId attemptId) (wellFormed : state.WellFormed)
    {events : List SessionEvent} (emitted : EmitsAll state events)
    (noRestart : ∀ event ∈ events, event.restarts turnId = false) :
    (evolveAll state events).Issued turnId attemptId := by
  induction events generalizing state with
  | nil => exact issued
  | cons event rest ih =>
    obtain ⟨first, others⟩ := forall_mem_cons.mp noRestart
    exact ih (issued.evolve wellFormed first) (wellFormed.evolve emitted.1) emitted.2 others

variable {events : List SessionEvent}

theorem ownedTurn_evolveAll (wellFormed : state.WellFormed) (emitted : EmitsAll state events)
    (noRestart : ∀ event ∈ events, event.restarts turnId = false)
    (issued : state.Issued turnId attemptId)
    (owned : ownedTurn (evolveAll state events) turnId attemptId = some next) :
    ∃ turn, ownedTurn state turnId attemptId = some turn ∧
      (turn.status = .finalizing → next.status = .finalizing) ∧
      ((∀ event ∈ events, event.interruptsTurn = false) → turn.phase = some .running →
        next.phase = some .running) ∧
      ((∃ event ∈ events, event.finalizes turnId = true) → next.status = .finalizing) := by
  induction events generalizing state with
  | nil =>
    exact ⟨next, owned, fun final => final, fun _ runs => runs, fun ⟨_, member, _⟩ =>
      absurd member not_mem_nil⟩
  | cons event rest ih =>
    obtain ⟨first, others⟩ := forall_mem_cons.mp noRestart
    obtain ⟨middle, middleOwned, finalizing, running, finalized⟩ :=
      ih (wellFormed.evolve emitted.1) emitted.2 others (issued.evolve wellFormed first) owned
    obtain ⟨turn, turnOwned, continues, finalizes⟩ :=
      ownedTurn_evolve wellFormed emitted.1 first issued middleOwned
    refine ⟨turn, turnOwned, fun final => finalizing (continues.finalizing final), ?_, ?_⟩
    · intro quiet runs
      obtain ⟨quietFirst, quietRest⟩ := forall_mem_cons.mp quiet
      exact running quietRest (continues.running quietFirst runs)
    · rintro ⟨final, member, isFinal⟩
      rcases mem_cons.mp member with rfl | later
      · exact finalizing (finalizes isFinal)
      · exact finalized ⟨final, later, isFinal⟩

theorem not_owned_of_member {ended : SessionEvent}
    (ends : ∀ {state : SessionState}, state.WellFormed → state.Emits ended →
      state.Issued turnId attemptId → ownedTurn (evolve state ended) turnId attemptId = none)
    (wellFormed : state.WellFormed) (emitted : EmitsAll state events)
    (noRestart : ∀ event ∈ events, event.restarts turnId = false)
    (issued : state.Issued turnId attemptId) (member : ended ∈ events) :
    ownedTurn (evolveAll state events) turnId attemptId = none := by
  induction events generalizing state with
  | nil => cases member
  | cons event rest ih =>
    obtain ⟨first, others⟩ := forall_mem_cons.mp noRestart
    have later := issued.evolve wellFormed first
    rcases mem_cons.mp member with rfl | inRest
    · rw [eq_none_iff_forall_ne_some]
      intro next owned
      obtain ⟨turn, turnOwned, _⟩ := ownedTurn_evolveAll (wellFormed.evolve emitted.1)
        emitted.2 others later owned
      rw [ends wellFormed emitted.1 issued] at turnOwned
      cases turnOwned
    · exact ih (wellFormed.evolve emitted.1) emitted.2 others later inRest

section

variable (wellFormed : state.WellFormed) (emitted : EmitsAll state events)
  (noRestart : ∀ event ∈ events, event.restarts turnId = false)
  (issued : state.Issued turnId attemptId)
include wellFormed emitted noRestart issued

theorem not_owned_of_attemptStarted (member : .attemptStarted started ∈ events) :
    ownedTurn (evolveAll state events) turnId attemptId = none :=
  not_owned_of_member (fun wellFormed emitted issued =>
    not_owned_attemptStarted wellFormed issued emitted) wellFormed emitted noRestart issued member

theorem not_owned_of_turnSettled {settled : String}
    {outcome : SettlementOutcome} {settledAt : Millis}
    (member : .turnSettled settled outcome settledAt ∈ events) :
    ownedTurn (evolveAll state events) turnId attemptId = none := by
  refine not_owned_of_member ?_ wellFormed emitted noRestart issued member
  intro state _ _ _
  rw [eq_none_iff_forall_ne_some]
  intro turn turnOwned
  obtain ⟨⟨isCurrent, -⟩, -⟩ := ownedTurn_eq_some.mp turnOwned
  cases isCurrent

end

theorem archived_apply (keeps : event.archives = false) :
    (state.apply event).archived = state.archived := by
  by_cases adjusts : event.adjusts = true
  · obtain ⟨_, _, _, _, _, changed⟩ := state.apply_adjusts adjusts
    rw [changed]
  cases event with
  | sessionCreated created =>
    change (state.applySessionCreated created).archived = _
    unfold applySessionCreated
    split <;> rfl
  | sessionProviderSet providerId model updatedAt =>
    obtain ⟨_, changed⟩ := state.retireActiveProviderThread_changes updatedAt
    rw [apply, changed]
  | sessionWorktreeSet worktreeId updatedAt =>
    obtain ⟨_, _, _, changed⟩ := state.apply_sessionWorktreeSet_changes worktreeId updatedAt
    rw [changed]
  | turnStarted started =>
    obtain ⟨_, _, _, changed⟩ := state.applyTurnStarted_changes started
    rw [apply, changed]
  | turnSettled id outcome settledAt =>
    obtain ⟨_, _, changed⟩ := state.applyTurnSettled_changes id outcome settledAt
    rw [apply, changed]
  | queuedTurnUpdated queueId inputJson updatedAt ready =>
    obtain ⟨_, changed⟩ :=
      state.apply_queuedTurnUpdated_changes queueId inputJson updatedAt ready
    rw [changed]
  | sessionArchived | sessionUnarchived => cases keeps
  | _ => first | rfl | exact absurd rfl adjusts

structure Present (state : SessionState) : Prop where
  live : state.Live
  unarchived : state.archived = false

theorem Present.evolveAll (present : state.Present) {events : List SessionEvent}
    (emitted : EmitsAll state events)
    (inScope : ∀ event ∈ events, event.leavesScope turnId = false) :
    (evolveAll state events).Present := by
  induction events generalizing state with
  | nil => exact present
  | cons event rest ih =>
    obtain ⟨first, others⟩ := forall_mem_cons.mp inScope
    obtain ⟨-, staysOut, stays⟩ := SessionEvent.leavesScope_eq_false.mp first
    have permitted : state.Permits event := by
      cases event with
      | sessionCreated => cases present.live.1.symm.trans emitted.1.1
      | _ => exact emitted.1.2.2
    refine ih ⟨present.live.evolve permitted stays, ?_⟩ emitted.2 others
    exact (archived_apply staysOut).trans present.unarchived

omit [PayloadCodec] in
theorem Present.decide_eq (present : state.Present) (wellFormed : state.WellFormed)
    {command : SessionCommand}
    (existing : decide state command =
      if state.exists_ = false ∨ state.sessionId = none then .error .sessionNotFound
      else if state.deleted then .error .sessionDeletedConflict
      else decideExisting state command) : decide state command = decideExisting state command := by
  obtain ⟨sessionId, known⟩ := wellFormed.named present.live.1
  rw [existing, if_neg, if_neg]
  · rw [present.live.2]
    exact Bool.false_ne_true
  · rintro (unborn | unnamed)
    · cases unborn.symm.trans present.live.1
    · cases unnamed.symm.trans known

end SessionState

variable {state : SessionState} {turnId attemptId : String} {at_ : Millis}
  {events : List SessionEvent}

theorem decideRecoverTurn_error {error : DomainError}
    (decided : decideRecoverTurn state turnId attemptId at_ = .error error) :
    ∃ message, error = .validationFailed message := by
  unfold decideRecoverTurn at decided
  split at decided
  · cases decided
    exact ⟨_, rfl⟩
  dsimp only at decided
  split at decided
  · cases decided
    exact ⟨_, rfl⟩
  split at decided
  · cases decided
    exact ⟨_, rfl⟩
  · split at decided
    · cases decided
      exact ⟨_, rfl⟩
    · cases decided

theorem decideRecoverTurn_starts (decided : decideRecoverTurn state turnId attemptId at_ =
    .ok events) : ∃ started, .attemptStarted started ∈ events := by
  unfold decideRecoverTurn at decided
  split at decided
  · cases decided
  dsimp only at decided
  split at decided
  · cases decided
  split at decided
  · cases decided
  · split at decided
    · cases decided
    · cases decided
      exact ⟨_, mem_append_right _ mem_cons_self⟩

theorem decideRecoverTurn_inScope (decided : decideRecoverTurn state turnId attemptId at_ =
    .ok events) (scope : String) : ∀ event ∈ events, event.leavesScope scope = false := by
  unfold decideRecoverTurn at decided
  split at decided
  · cases decided
  dsimp only at decided
  split at decided
  · cases decided
  split at decided
  · cases decided
  split at decided
  · cases decided
  cases decided
  intro event member
  rcases mem_append.mp member with stops | later
  · obtain ⟨_, _, rfl⟩ := mem_map.mp stops
    rfl
  · simp only [mem_cons, not_mem_nil, or_false] at later
    rcases later with rfl | rfl | rfl <;> rfl

theorem decideExpireAttempt_ends (decided : decideExpireAttempt state turnId attemptId at_ =
    .ok events) : (∃ started, .attemptStarted started ∈ events) ∨
      ∃ outcome, .turnSettled turnId outcome at_ ∈ events := by
  unfold decideExpireAttempt at decided
  split at decided
  · cases decided
  rename_i turn owned
  split at decided
  · rename_i recovery recovered
    cases decided
    exact .inl (decideRecoverTurn_starts recovered)
  dsimp only at decided
  split at decided
  · cases decided
  rename_i settlement settled
  cases decided
  have isCurrent := (ownedTurn_eq_some.mp owned).1.1
  rw [decideSettleTurn, if_neg (not_not.mpr isCurrent)] at settled
  cases settled
  exact .inr ⟨_, mem_append_right _ (mem_append_left _ (mem_append_right _ mem_cons_self))⟩

end Zuse.Domain
