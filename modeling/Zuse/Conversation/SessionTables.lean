import Zuse.Data.Table
import Zuse.Domain.Core.Session

namespace Zuse.Conversation

open Zuse.Data Zuse.Domain Table Option List Execution
open SessionState (apply releaseReservation applySessionStatusSet withTurn exists_evolve)

/-! The rows that the session projector keeps of a session and of its turns, as far as
leases go by them. -/

structure SessionRow where
  id : String
  archived : Bool := false
  providerReservationId : Option String := none
  worktreeId : Option String

structure TurnRow where
  id : String
  sessionId : String
  ordinal : Nat
  status : TurnStatus
  activeAttemptId : String

/-- `status IN ('starting', 'running')` -/
def TurnRow.underWay (row : TurnRow) : Bool :=
  row.status = .starting || row.status = .running

structure SessionTables where
  sessions : List SessionRow := []
  turns : List TurnRow := []

def SessionRow.project (row : SessionRow) : SessionEvent → SessionRow
  | .sessionModelSet .. | .sessionProviderSet .. => { row with providerReservationId := none }
  | .sessionWorktreeSet worktreeId _ =>
    { row with
      providerReservationId :=
        if row.worktreeId = worktreeId then row.providerReservationId else none
      worktreeId }
  | .sessionArchived _ => { row with archived := true, providerReservationId := none }
  | .sessionUnarchived _ => { row with archived := false }
  | .providerSessionReserved _ providerSessionId _ =>
    { row with providerReservationId := some providerSessionId }
  | .providerAttached _ providerSessionId _ =>
    { row with
      providerReservationId :=
        if row.providerReservationId = providerSessionId then row.providerReservationId
        else none }
  | .providerStopRequested _ providerSessionId _
  | .providerDetached _ providerSessionId _ =>
    { row with
      providerReservationId :=
        if row.providerReservationId = providerSessionId then none
        else row.providerReservationId }
  | _ => row

def TurnRow.project (row : TurnRow) : SessionEvent → TurnRow
  | .sessionStatusSet status _ =>
    if status = .running ∧ row.status = .starting then { row with status := .running }
    else row
  | .attemptStarted started =>
    if row.id = started.turnId then
      { row with status := .starting, activeAttemptId := started.attemptId }
    else row
  | .turnsRolledBack rollback =>
    if rollback.throughOrdinal < row.ordinal then { row with status := .rolledBack }
    else row
  | .turnFinalizationRequested turnId attemptId _ _ =>
    if row.id = turnId ∧ row.activeAttemptId = attemptId ∧ row.underWay then
      { row with status := .finalizing }
    else row
  | .turnSettled turnId outcome _ =>
    if row.id = turnId then { row with status := outcome.turnStatus } else row
  | _ => row

theorem SessionRow.project_id (row : SessionRow) (event : SessionEvent) :
    (row.project event).id = row.id := by
  cases event <;> rfl

theorem TurnRow.project_sessionId (row : TurnRow) (event : SessionEvent) :
    (row.project event).sessionId = row.sessionId := by
  unfold project
  split <;> (try split) <;> rfl

variable {event : SessionEvent}

theorem TurnRow.underWay_of_project (row : TurnRow) (live : (row.project event).underWay = true) :
    row.underWay = true ∨ ∃ started, event = .attemptStarted started ∧ row.id = started.turnId := by
  cases event with
  | sessionStatusSet status updatedAt =>
    by_cases starts : status = .running ∧ row.status = .starting
    · left
      rw [underWay, starts.2]
      rfl
    · rw [project, if_neg starts] at live
      exact .inl live
  | attemptStarted started =>
    by_cases ofTurn : row.id = started.turnId
    · exact .inr ⟨started, rfl, ofTurn⟩
    · rw [project, if_neg ofTurn] at live
      exact .inl live
  | turnsRolledBack rollback
  | turnFinalizationRequested turnId attemptId outcome settledAt =>
    rw [project] at live
    split at live
    · cases live
    · exact .inl live
  | turnSettled turnId outcome settledAt =>
    rw [project] at live
    split at live
    · cases outcome <;> cases live
    · exact .inl live
  | _ => exact .inl live

theorem TurnRow.project_id (row : TurnRow) (event : SessionEvent) :
    (row.project event).id = row.id := by
  unfold project
  split <;> (try split) <;> rfl

namespace SessionTables

variable (tables : SessionTables)

/-- `COALESCE(MAX(ordinal), 0) + 1` -/
def nextOrdinal (sessionId : String) : Nat :=
  Table.nextRowId ((tables.turns.filter (·.sessionId = sessionId)).map (·.ordinal))

def project (streamId : String) : SessionEvent → SessionTables
  | .sessionCreated created =>
    { tables with
      sessions :=
        (Table.insertNew (fun stored row => stored.id = row.id) tables.sessions
          { id := created.sessionId, worktreeId := created.worktreeId.getD none }).2 }
  | .sessionDeleted _ =>
    { sessions := tables.sessions.filter (·.id ≠ streamId)
      turns := tables.turns.filter (·.sessionId ≠ streamId) }
  | .turnStarted started =>
    { tables with
      turns :=
        (Table.insertNew (fun stored row => stored.id = row.id) tables.turns
          { id := started.turnId
            sessionId := streamId
            ordinal := started.ordinal.getD (tables.nextOrdinal streamId)
            status := .starting
            activeAttemptId :=
              started.attemptId.getD (attemptIdFor started.turnId 1) }).2 }
  | event =>
    { sessions := Table.revise (·.id) streamId (·.project event) tables.sessions
      turns := Table.revise (·.sessionId) streamId (·.project event) tables.turns }

def projectAll (streamId : String) (events : List SessionEvent) : SessionTables :=
  events.foldl (fun projected event => projected.project streamId event) tables

end SessionTables

def sessionRow (sessionId : String) (state : SessionState) : SessionRow where
  id := sessionId
  archived := state.archived
  providerReservationId := state.providerReservation.map (·.providerSessionId)
  worktreeId := state.worktreeId

structure TurnRow.Reads (row : TurnRow) (turn : TurnState) : Prop where
  status : turn.status = row.status
  activeAttemptId : turn.activeAttemptId = row.activeAttemptId

def TurnRow.Shows (row : TurnRow) (state : SessionState) : Prop :=
  ∃ turn, state.Current row.id turn ∧ row.Reads turn

section Rows

variable [PayloadCodec] {state : SessionState} {event : SessionEvent}

theorem sessionRow_evolve (sessionId : String) (emitted : state.Emits event)
    (keeps : event.deletes = false) (later : event.creates = false) :
    sessionRow sessionId (evolve state event) = (sessionRow sessionId state).project event := by
  change sessionRow sessionId (state.apply event) = _
  by_cases adjusts : event.adjusts = true
  · obtain ⟨_, _, _, _, _, changed⟩ := state.apply_adjusts adjusts
    rw [changed]
    cases event <;> first | rfl | cases adjusts
  cases event with
  | sessionCreated fields => cases later
  | sessionDeleted => cases keeps
  | sessionResumeSet => exact emitted.2.2.elim
  | sessionProviderSet providerId model updatedAt =>
    obtain ⟨_, changed⟩ := state.retireActiveProviderThread_changes updatedAt
    rw [apply, changed]
    rfl
  | sessionWorktreeSet worktreeId updatedAt =>
    obtain ⟨_, changed⟩ := state.retireActiveProviderThread_changes updatedAt
    rw [apply, SessionRow.project]
    by_cases same : state.worktreeId = worktreeId
    · simp [sessionRow, same]
    · rw [changed]
      simp [sessionRow, same]
  | turnStarted started =>
    obtain ⟨_, _, _, changed⟩ := state.applyTurnStarted_changes started
    rw [apply, changed]
    rfl
  | turnSettled turnId outcome settledAt =>
    obtain ⟨_, _, changed⟩ := state.applyTurnSettled_changes turnId outcome settledAt
    rw [apply, changed]
    rfl
  | queuedTurnUpdated queueId inputJson updatedAt ready =>
    obtain ⟨_, changed⟩ :=
      state.apply_queuedTurnUpdated_changes queueId inputJson updatedAt ready
    rw [changed]
    rfl
  | providerAttached providerId providerSessionId attachedAt =>
    simp only [apply, sessionRow, SessionRow.project,
      apply_ite (Option.map ProviderReservation.providerSessionId), Option.map_none]
    rfl
  | providerStopRequested providerId providerSessionId requestedAt
  | providerDetached providerId providerSessionId detachedAt =>
    simp only [apply, releaseReservation, sessionRow,
      SessionRow.project, apply_ite (Option.map ProviderReservation.providerSessionId),
      map_none]
    rfl
  | _ => first | rfl | exact absurd rfl adjusts
variable {row : TurnRow}

theorem TurnRow.Shows.kept (shows : row.Shows state)
    (execution : (state.apply event).execution = state.execution) (same : row.project event = row) :
    (row.project event).Shows (evolve state event) := by
  rw [same]
  have shown := shows
  obtain ⟨turn, current, reads⟩ := shown
  exact ⟨turn, ⟨(congrArg currentTurnId execution).trans current.1,
    (congrArg (fun kept : Execution => kept.turns.get? row.id) execution).trans current.2⟩,
    reads⟩

variable {turn : TurnState}

theorem TurnRow.Shows.rewritten (next : TurnState) (current : state.Current row.id turn)
    (currentTurnId : (state.apply event).currentTurnId = state.currentTurnId)
    (turns : (state.apply event).turns = state.turns.set row.id next)
    (reads : (row.project event).Reads next) : (row.project event).Shows (evolve state event) := by
  refine ⟨next, ?_, reads⟩
  rw [row.project_id]
  refine ⟨currentTurnId.trans current.1, ?_⟩
  change (state.apply event).turns.get? row.id = some next
  rw [turns, InsertionMap.get?_set_self]

variable {started : AttemptStartedEvent}

omit [PayloadCodec] in
theorem applyAttemptStarted_turns (found : state.turns.get? started.turnId = some turn) :
    ∃ next : TurnState, next.status = .starting ∧ next.activeAttemptId = started.attemptId ∧
      (state.applyAttemptStarted started).turns = state.turns.set turn.id next := by
  unfold SessionState.applyAttemptStarted
  rw [found]
  exact ⟨_, rfl, rfl, rfl⟩

theorem TurnRow.shows_turnStarted {started : TurnStartedEvent}
    (emitted : state.Emits (.turnStarted started)) (ofTurn : row.id = started.turnId)
    (status : row.status = .starting)
    (activeAttemptId : row.activeAttemptId =
      started.attemptId.getD (attemptIdFor started.turnId 1)) :
    row.Shows (evolve state (.turnStarted started)) := by
  obtain ⟨-, -, -, -, ordinal, attempt, -⟩ := emitted
  obtain ⟨_, execution⟩ := state.execution_applyTurnStarted ordinal attempt
  have current := congrArg currentTurnId execution
  have found := congrArg (fun kept : Execution => kept.turns.get? started.turnId) execution
  simp only [InsertionMap.get?_set_self] at found
  rw [attempt] at activeAttemptId
  rw [Shows, ofTurn]
  exact ⟨_, ⟨current, found⟩, ⟨status.symm, activeAttemptId.symm⟩⟩

theorem TurnRow.shows_attemptStarted
    (wellFormed : state.WellFormed) (emitted : state.Emits (.attemptStarted started))
    (ofTurn : row.id = started.turnId) :
    (row.project (.attemptStarted started)).Shows (evolve state (.attemptStarted started)) := by
  obtain ⟨-, -, turn, current, -⟩ := emitted
  have sameId := wellFormed.owned.table.turnId started.turnId turn current.2
  obtain ⟨_, _, _, changed⟩ := state.applyAttemptStarted_changes started
  obtain ⟨next, status, activeAttemptId, turns⟩ := applyAttemptStarted_turns current.2
  refine .rewritten next (ofTurn ▸ current) ?_ ?_ ?_
  · rw [apply, changed]
  · rw [apply, turns, sameId, ofTurn]
  · simp only [TurnRow.project, ofTurn, if_true]
    exact ⟨status, activeAttemptId⟩

theorem TurnRow.Shows.evolve (shows : row.Shows state) (wellFormed : state.WellFormed)
    (emitted : state.Emits event)
    (goesOn : ∀ outcome settledAt, event ≠ .turnSettled row.id outcome settledAt) :
    (row.project event).Shows (evolve state event) := by
  have shown := shows
  obtain ⟨turn, current, reads⟩ := shown
  have sameId := wellFormed.owned.table.turnId row.id turn current.2
  have withPhase (id : String) (phase : TurnPhase)
      (applied : state.apply event = state.withTurnPhase id phase)
      (ofCurrent : ∃ other, state.Current id other) (same : row.project event = row) :
      (row.project event).Shows (Domain.evolve state event) := by
    obtain ⟨other, otherCurrent⟩ := ofCurrent
    obtain rfl := some.inj (otherCurrent.1.symm.trans current.1)
    have execution : (state.withTurnPhase _ phase).execution = _ :=
      state.execution_withTurnPhase current
    rw [← applied] at execution
    refine .rewritten _ current (congrArg currentTurnId execution)
      (congrArg turns execution) ?_
    rw [same]
    exact ⟨reads.status, reads.activeAttemptId⟩
  cases event with
  | sessionCreated created =>
    exact shows.kept (state.execution_applySessionCreated created) rfl
  | sessionProviderSet providerId model updatedAt =>
    exact shows.kept (state.execution_retireActiveProviderThread updatedAt) rfl
  | sessionWorktreeSet worktreeId updatedAt =>
    refine shows.kept ?_ rfl
    rw [apply]
    split
    · rfl
    · exact state.execution_retireActiveProviderThread updatedAt
  | sessionStatusSet status updatedAt =>
    have isCurrent : state.currentTurn = some turn :=
      bind_eq_some_iff.mpr ⟨row.id, current.1, current.2⟩
    by_cases starts : status = .running ∧ turn.status = .starting
    · refine .rewritten { turn with status := .running } current ?_ ?_ ?_
      · simp [apply, applySessionStatusSet, isCurrent, starts, withTurn]
      · simp [apply, applySessionStatusSet, isCurrent, starts, withTurn, sameId]
      · simp only [TurnRow.project, ← reads.status, starts, and_self, if_true]
        exact ⟨rfl, reads.activeAttemptId⟩
    · refine shows.kept ?_ ?_
      · simp [apply, applySessionStatusSet, isCurrent, starts, SessionState.execution]
      · rw [TurnRow.project, ← reads.status, if_neg starts]
  | sessionResumeSet => exact emitted.2.2.elim
  | turnStarted started | turnsRolledBack rollback => cases emitted.2.2.1.symm.trans current.1
  | attemptProviderTurnBound turnId attemptId reference boundAt =>
    refine shows.kept ?_ rfl
    rw [apply]
    split
    · rfl
    · split <;> rfl
  | attemptStarted started =>
    obtain ⟨other, otherCurrent, _⟩ := emitted.2.2
    exact row.shows_attemptStarted wellFormed emitted
      (some.inj (current.1.symm.trans otherCurrent.1))
  | turnFinalizationRequested turnId attemptId outcome settledAt =>
    obtain ⟨-, -, other, otherCurrent, open_, ofAttempt⟩ := emitted
    obtain rfl := some.inj (otherCurrent.1.symm.trans current.1)
    obtain rfl := some.inj (otherCurrent.2.symm.trans current.2)
    have active := (wellFormed.owned.current_active current).1
    have underWay : row.underWay = true := by
      rw [TurnRow.underWay, ← reads.status]
      cases isStatus : other.status <;> simp_all [TurnStatus.isActive]
    refine .rewritten { other with status := .finalizing } current ?_ ?_ ?_
    · simp [apply, current.2, withTurn]
    · simp [apply, current.2, withTurn, sameId]
    · simp only [TurnRow.project, ← reads.activeAttemptId, ofAttempt, underWay, and_self, if_true]
      exact ⟨rfl, rfl⟩
  | turnSettled turnId outcome settledAt =>
    obtain ⟨-, -, ⟨other, otherCurrent⟩, -⟩ := emitted
    obtain rfl := some.inj (otherCurrent.1.symm.trans current.1)
    exact absurd rfl (goesOn outcome settledAt)
  | turnInterruptRequested turnId attemptId requestedAt =>
    obtain ⟨-, -, other, otherCurrent, -⟩ := emitted
    exact withPhase turnId .interruptRequested rfl ⟨other, otherCurrent⟩ rfl
  | turnInterruptAcknowledged turnId acknowledgedAt =>
    exact withPhase turnId .interruptAcknowledged rfl emitted.2.2 rfl
  | turnInterruptFailed turnId reason failedAt =>
    exact withPhase turnId .running rfl emitted.2.2 rfl
  | queuedTurnUpdated queueId inputJson updatedAt ready =>
    refine shows.kept ?_ rfl
    rw [apply]
    split <;> rfl
  | successorTurnScheduled successor scheduledAt
  | scheduledSuccessorReady successor readyAt
  | segmentOpened turnId segmentId kind openedAt
  | segmentSettled turnId segmentId outcome settledAt => exact ⟨turn, current, reads⟩
  | _ => exact shows.kept rfl rfl

end Rows

/-- The row of a session is its state's, and a turn that is under way is the current one. -/
structure SessionTables.Mirrors (tables : SessionTables) (sessionId : String)
    (state : SessionState) : Prop where
  session : ∀ row ∈ tables.sessions, row.id = sessionId →
    state.exists_ = true ∧ row = sessionRow sessionId state
  turn : ∀ row ∈ tables.turns, row.sessionId = sessionId → row.underWay → row.Shows state

namespace SessionTables.Mirrors

variable {tables : SessionTables} {sessionId streamId : String} {state : SessionState}

theorem empty (sessionId : String) (state : SessionState) :
    ({} : SessionTables).Mirrors sessionId state where
  session := nofun
  turn := nofun

section

variable (mirrors : tables.Mirrors sessionId state)
include mirrors

theorem project_other (other : sessionId ≠ streamId)
    (ownId : ∀ created, event = .sessionCreated created → created.sessionId = streamId) :
    (tables.project streamId event).Mirrors sessionId state := by
  have revised : SessionTables.Mirrors
      { sessions := revise (·.id) streamId (·.project event) tables.sessions
        turns := revise (·.sessionId) streamId (·.project event) tables.turns }
      sessionId state := by
    constructor
    · intro row member isSession
      rcases mem_revise.mp member with ⟨stored, -⟩ | ⟨old, stored, ofStream, rfl⟩
      · exact mirrors.session row stored isSession
      · exact absurd (isSession.symm.trans ((old.project_id event).trans ofStream)) other
    intro row member ofSession live
    rcases mem_revise.mp member with ⟨stored, -⟩ | ⟨old, stored, ofStream, rfl⟩
    · exact mirrors.turn row stored ofSession live
    · exact absurd (ofSession.symm.trans ((old.project_sessionId event).trans ofStream)) other
  cases event with
  | sessionCreated created =>
    refine { session := fun row member isSession => ?_, turn := mirrors.turn }
    rcases mem_insertNew member with stored | rfl
    · exact mirrors.session row stored isSession
    · exact absurd (isSession.symm.trans (ownId created rfl)) other
  | sessionDeleted deletedAt =>
    exact
      { session := fun row member =>
          mirrors.session row (mem_of_mem_filter member)
        turn := fun row member => mirrors.turn row (mem_of_mem_filter member) }
  | turnStarted started =>
    refine { session := mirrors.session, turn := fun row member ofSession live => ?_ }
    rcases mem_insertNew member with stored | rfl
    · exact mirrors.turn row stored ofSession live
    · exact absurd ofSession.symm other
  | _ => exact revised

theorem no_session (unborn : state.exists_ = false) {row : SessionRow}
    (stored : row ∈ tables.sessions) : row.id ≠ sessionId := by
  intro isSession
  have born := (mirrors.session row stored isSession).1
  rw [unborn] at born
  cases born

theorem not_underWay (idle : state.currentTurnId = none) {row : TurnRow}
    (stored : row ∈ tables.turns) (ofSession : row.sessionId = sessionId) :
    row.underWay = false := by
  by_contra live
  obtain ⟨turn, current, -⟩ := mirrors.turn row stored ofSession (by simpa using live)
  cases idle.symm.trans current.1

end

variable {events : List SessionEvent}

section Project

variable [PayloadCodec] {event : SessionEvent}

variable (mirrors : tables.Mirrors sessionId state)
include mirrors

theorem project_revise (wellFormed : state.WellFormed) (emitted : state.Emits event)
    (later : event.creates = false) (keeps : event.deletes = false) :
    SessionTables.Mirrors
      { sessions := Table.revise (·.id) sessionId (·.project event) tables.sessions
        turns := Table.revise (·.sessionId) sessionId (·.project event) tables.turns }
      sessionId (evolve state event) where
  session := by
    intro row member isSession
    rcases mem_revise.mp member with ⟨-, other⟩ | ⟨old, stored, ofSession, rfl⟩
    · exact absurd isSession other
    · refine ⟨exists_evolve emitted, ?_⟩
      rw [sessionRow_evolve sessionId emitted keeps later,
        ← (mirrors.session old stored ofSession).2]
  turn := by
    intro row member ofSession live
    rcases mem_revise.mp member with ⟨-, other⟩ | ⟨old, stored, inSession, rfl⟩
    · exact absurd ofSession other
    rcases old.underWay_of_project live with was | ⟨started, rfl, ofTurn⟩
    · refine (mirrors.turn old stored inSession was).evolve wellFormed emitted ?_
      rintro outcome settledAt rfl
      simp only [TurnRow.project, if_true, TurnRow.underWay] at live
      cases outcome <;> cases live
    · exact old.shows_attemptStarted wellFormed emitted ofTurn

theorem project (wellFormed : state.WellFormed) (emitted : state.Emits event)
    (ownId : ∀ created, event = .sessionCreated created → created.sessionId = sessionId) :
    (tables.project sessionId event).Mirrors sessionId (evolve state event) := by
  cases event with
  | sessionCreated created =>
    obtain ⟨unborn, -⟩ := emitted
    obtain rfl := wellFormed.unborn unborn
    refine
      { session := fun row member isSession => ?_
        turn := fun row member ofSession live => ?_ }
    · rcases mem_insertNew member with stored | rfl
      · exact absurd isSession (mirrors.no_session unborn stored)
      · refine ⟨congrArg Prod.fst (initialSessionState.identity_applySessionCreated created), ?_⟩
        change _ = sessionRow sessionId (initialSessionState.applySessionCreated created)
        rw [← isSession]
        unfold SessionState.applySessionCreated
        cases created.cursor <;> rfl
    · rw [mirrors.not_underWay rfl member ofSession] at live
      cases live
  | sessionDeleted deletedAt =>
    refine
      { session := fun row member isSession => ?_
        turn := fun row member ofSession => ?_ }
    · exact absurd isSession (by simpa using (mem_filter.mp member).2)
    · exact absurd ofSession (by simpa using (mem_filter.mp member).2)
  | turnStarted started =>
    refine
      { session := fun row stored isSession => ?_
        turn := fun row member ofSession live => ?_ }
    · refine ⟨exists_evolve emitted, ?_⟩
      rw [sessionRow_evolve sessionId emitted rfl rfl, ← (mirrors.session row stored isSession).2]
      rfl
    rcases mem_insertNew member with stored | new
    · rw [mirrors.not_underWay emitted.2.2.1 stored ofSession] at live
      cases live
    · exact TurnRow.shows_turnStarted emitted (congrArg TurnRow.id new)
        (congrArg TurnRow.status new) (congrArg TurnRow.activeAttemptId new)
  | sessionResumeSet => exact emitted.2.2.elim
  | _ => exact mirrors.project_revise wellFormed emitted rfl rfl

theorem projectAll (wellFormed : state.WellFormed) (emitted : EmitsAll state events)
    (ownIds : ∀ created, .sessionCreated created ∈ events → created.sessionId = sessionId) :
    (tables.projectAll sessionId events).Mirrors sessionId (evolveAll state events) := by
  induction events generalizing tables state with
  | nil => exact mirrors
  | cons event rest ih =>
    refine ih (mirrors.project wellFormed emitted.1 ?_) (wellFormed.evolve emitted.1)
      emitted.2 fun created later => ownIds created (mem_cons_of_mem _ later)
    rintro created rfl
    exact ownIds created mem_cons_self

end Project

theorem projectAll_other (mirrors : tables.Mirrors sessionId state) (other : sessionId ≠ streamId)
    (ownIds : ∀ created, .sessionCreated created ∈ events → created.sessionId = streamId) :
    (tables.projectAll streamId events).Mirrors sessionId state := by
  induction events generalizing tables with
  | nil => exact mirrors
  | cons event rest ih =>
    refine ih (mirrors.project_other other ?_) fun created later =>
      ownIds created (mem_cons_of_mem _ later)
    rintro created rfl
    exact ownIds created mem_cons_self

end SessionTables.Mirrors

end Zuse.Conversation
