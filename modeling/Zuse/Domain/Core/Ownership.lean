import Zuse.Domain.Core.Emission

namespace Zuse.Domain

open Zuse.Data InsertionMap SessionState List

/-! Which turn and which attempt of the session execute. The fact is stored four
times over: in the current turn id, in its phase, in the turn statuses and in the
attempt statuses. -/

variable {id : String}

namespace TurnState

def attemptLabels (turn : TurnState) : List (String × String × Nat) :=
  turn.attempts.entries.map fun entry => (entry.1, entry.2.id, entry.2.ordinal)

def expectedLabels (turnId : String) (count : Nat) : List (String × String × Nat) :=
  (List.range count).map fun index =>
    (attemptIdFor turnId (index + 1), attemptIdFor turnId (index + 1), index + 1)

/-- Attempts are numbered from one without a gap, the last one is active, and it
alone runs, exactly while its turn does. -/
structure Numbered (turn : TurnState) : Prop where
  labels : turn.attemptLabels = expectedLabels turn.id turn.attempts.size
  nonempty : 0 < turn.attempts.size
  latest : turn.activeAttemptId = attemptIdFor turn.id turn.attempts.size
  running : ∀ id attempt, turn.attempts.get? id = some attempt →
    (attempt.status = .running ↔ turn.status.isActive = true ∧ id = turn.activeAttemptId)

theorem expectedLabels_succ (turnId : String) (count : Nat) :
    expectedLabels turnId (count + 1) = expectedLabels turnId count ++
      [(attemptIdFor turnId (count + 1), attemptIdFor turnId (count + 1), count + 1)] := by
  simp [expectedLabels, range_succ]

namespace Numbered

variable {turn : TurnState}

theorem attempt (numbered : turn.Numbered) {attempt : AttemptState}
    (found : turn.attempts.get? id = some attempt) :
    attempt.id = id ∧ id = attemptIdFor turn.id attempt.ordinal ∧
      1 ≤ attempt.ordinal ∧ attempt.ordinal ≤ turn.attempts.size := by
  have member : (id, attempt.id, attempt.ordinal) ∈ turn.attemptLabels :=
    mem_map.mpr ⟨(id, attempt), mem_entries.mpr found, rfl⟩
  rw [numbered.labels, expectedLabels, mem_map] at member
  obtain ⟨index, inRange, equal⟩ := member
  simp only [Prod.mk.injEq] at equal
  obtain ⟨rfl, sameId, sameOrdinal⟩ := equal
  rw [mem_range] at inRange
  rw [← sameOrdinal]
  exact ⟨sameId.symm, rfl, by omega, by omega⟩

theorem find (numbered : turn.Numbered) {ordinal : Nat} (positive : 1 ≤ ordinal)
    (bounded : ordinal ≤ turn.attempts.size) :
    ∃ attempt, turn.attempts.get? (attemptIdFor turn.id ordinal) = some attempt := by
  have member : (attemptIdFor turn.id ordinal, attemptIdFor turn.id ordinal, ordinal) ∈
      turn.attemptLabels := by
    rw [numbered.labels, expectedLabels, mem_map]
    exact ⟨ordinal - 1, mem_range.mpr (by omega), by
      rw [Nat.sub_add_cancel positive]⟩
  obtain ⟨⟨id, attempt⟩, inEntries, equal⟩ := mem_map.mp member
  simp only [Prod.mk.injEq] at equal
  exact ⟨attempt, by rw [← equal.1]; exact mem_entries.mp inEntries⟩

theorem active (numbered : turn.Numbered) :
    ∃ attempt, turn.attempts.get? turn.activeAttemptId = some attempt ∧
      attempt.id = turn.activeAttemptId ∧ attempt.ordinal = turn.attempts.size := by
  obtain ⟨attempt, found⟩ := numbered.find numbered.nonempty le_rfl
  rw [← numbered.latest] at found
  obtain ⟨sameId, byOrdinal, -, -⟩ := numbered.attempt found
  have ordinal : attempt.ordinal = turn.attempts.size := by
    rw [numbered.latest, attemptIdFor_inj] at byOrdinal
    exact byOrdinal.2.symm
  exact ⟨attempt, found, sameId, ordinal⟩

theorem next_absent (numbered : turn.Numbered) :
    turn.attempts.get? (attemptIdFor turn.id (turn.attempts.size + 1)) = none := by
  rw [Option.eq_none_iff_forall_ne_some]
  intro attempt found
  obtain ⟨-, byOrdinal, -, bounded⟩ := numbered.attempt found
  rw [attemptIdFor_inj] at byOrdinal
  omega

theorem first (turn : TurnState) (attempt : AttemptState)
    (attempts : turn.attempts = InsertionMap.empty.set attempt.id attempt)
    (id : attempt.id = attemptIdFor turn.id 1) (ordinal : attempt.ordinal = 1)
    (active : turn.activeAttemptId = attempt.id) (running : attempt.status = .running)
    (status : turn.status.isActive = true) : turn.Numbered where
  labels := by
    rw [attemptLabels, attempts]
    simp [InsertionMap.set, InsertionMap.setEntry, InsertionMap.empty,
      size, expectedLabels, id, ordinal]
  nonempty := by
    rw [attempts]
    exact Nat.succ_pos _
  latest := by
    rw [active, id, attempts]
    rfl
  running := by
    intro other found present
    rw [attempts] at present
    obtain ⟨same, rfl⟩ | present := get?_set_cases present
    · simp [running, status, active, same]
    · cases present

variable {previous : AttemptState}

theorem rewriteActive (numbered : turn.Numbered) (next : TurnState) (attempt : AttemptState)
    (found : turn.attempts.get? turn.activeAttemptId = some previous)
    (id : attempt.id = previous.id) (ordinal : attempt.ordinal = previous.ordinal)
    (turnId : next.id = turn.id) (active : next.activeAttemptId = turn.activeAttemptId)
    (attempts : next.attempts = turn.attempts.set turn.activeAttemptId attempt)
    (status : attempt.status = .running ↔ next.status.isActive = true) :
    next.Numbered where
  labels := by
    rw [attemptLabels, attempts, map_entries_set found
      (by rw [id, ordinal]), size_set_of_mem found, turnId]
    exact numbered.labels
  nonempty := by
    rw [attempts, size_set_of_mem found]
    exact numbered.nonempty
  latest := by
    rw [active, attempts, size_set_of_mem found, turnId]
    exact numbered.latest
  running := by
    intro other present member
    rw [attempts, get?_set] at member
    rw [active]
    split at member
    · rename_i same
      cases member
      simp [status, same]
    · rename_i different
      have before := numbered.running other present member
      simp only [Ne.symm different, and_false, iff_false] at before ⊢
      exact before

theorem sameAttempts (numbered : turn.Numbered) {next : TurnState}
    (turnId : next.id = turn.id) (active : next.activeAttemptId = turn.activeAttemptId)
    (attempts : next.attempts = turn.attempts)
    (status : next.status.isActive = turn.status.isActive) : next.Numbered where
  labels := by rw [attemptLabels, attempts, turnId]; exact numbered.labels
  nonempty := by rw [attempts]; exact numbered.nonempty
  latest := by rw [active, attempts, turnId]; exact numbered.latest
  running := by rw [attempts, active, status]; exact numbered.running

theorem supersede (numbered : turn.Numbered) (next : TurnState) (superseded attempt : AttemptState)
    (found : turn.attempts.get? turn.activeAttemptId = some previous)
    (supersededId : superseded.id = previous.id)
    (supersededOrdinal : superseded.ordinal = previous.ordinal)
    (stopped : superseded.status ≠ .running) (turnId : next.id = turn.id)
    (id : attempt.id = attemptIdFor turn.id (turn.attempts.size + 1))
    (ordinal : attempt.ordinal = turn.attempts.size + 1)
    (running : attempt.status = .running) (active : next.activeAttemptId = attempt.id)
    (attempts : next.attempts =
      (turn.attempts.set turn.activeAttemptId superseded).set attempt.id attempt)
    (status : next.status.isActive = true) : next.Numbered := by
  have idle := numbered.rewriteActive { turn with
      status := .completed
      attempts := turn.attempts.set turn.activeAttemptId superseded }
    superseded found supersededId supersededOrdinal rfl rfl rfl
    ⟨fun isRunning => absurd isRunning stopped, fun isActive => by cases isActive⟩
  have size : (turn.attempts.set turn.activeAttemptId superseded).size =
      turn.attempts.size := size_set_of_mem found
  have absent := idle.next_absent
  simp only [size] at absent
  have labels := idle.labels
  simp only [attemptLabels, size] at labels
  have nextSize : next.attempts.size = turn.attempts.size + 1 := by
    rw [attempts, id, size_set_of_absent absent, size]
  refine ⟨?_, by omega, by rw [active, id, turnId, nextSize], ?_⟩
  · rw [nextSize, turnId, expectedLabels_succ, ← labels, attemptLabels, attempts, id,
      entries_set_of_absent absent]
    simp [id, ordinal]
  intro other present member
  rw [attempts, get?_set] at member
  rw [active]
  split at member
  · rename_i same
    cases member
    simp [running, status, same]
  · rename_i different
    have before := idle.running other present member
    simp only [TurnStatus.isActive, Bool.false_eq_true, false_and, iff_false] at before
    simp [before, Ne.symm different]

end Numbered

end TurnState

/-- Turns are filed under their ids and numbered apart, up to the highest ordinal
issued. -/
structure WellNumbered (turns : InsertionMap String TurnState) (turnCount : Nat) :
    Prop where
  turnId : ∀ id turn, turns.get? id = some turn → turn.id = id
  numbered : ∀ id turn, turns.get? id = some turn → turn.Numbered
  issued : ∀ id turn, turns.get? id = some turn → 1 ≤ turn.ordinal ∧ turn.ordinal ≤ turnCount
  distinct : ∀ left right leftTurn rightTurn, turns.get? left = some leftTurn →
    turns.get? right = some rightTurn → leftTurn.ordinal = rightTurn.ordinal →
    left = right

variable {before after turn : TurnState}

namespace WellNumbered

variable {turns : InsertionMap String TurnState} {turnCount : Nat}

theorem rewrite (table : WellNumbered turns turnCount) (found : turns.get? id = some before)
    (sameId : after.id = before.id) (sameOrdinal : after.ordinal = before.ordinal)
    (numbered : after.Numbered) : WellNumbered (turns.set id after) turnCount where
  turnId := by
    intro other turn member
    obtain ⟨same, rfl⟩ | member := get?_set_cases member
    · rw [sameId, table.turnId id before found, same]
    · exact table.turnId other turn member
  numbered := by
    intro other turn member
    obtain ⟨-, rfl⟩ | member := get?_set_cases member
    · exact numbered
    · exact table.numbered other turn member
  issued := by
    intro other turn member
    obtain ⟨-, rfl⟩ | member := get?_set_cases member
    · rw [sameOrdinal]
      exact table.issued id before found
    · exact table.issued other turn member
  distinct := by
    have ordinalOf : ∀ other turn, (turns.set id after).get? other = some turn →
        ∃ old, turns.get? other = some old ∧ old.ordinal = turn.ordinal := by
      intro other turn member
      obtain ⟨same, rfl⟩ | member := get?_set_cases member
      · exact ⟨before, same ▸ found, sameOrdinal.symm⟩
      · exact ⟨turn, member, rfl⟩
    intro left right leftTurn rightTurn leftMember rightMember equal
    obtain ⟨leftOld, leftFound, leftOrdinal⟩ := ordinalOf left leftTurn leftMember
    obtain ⟨rightOld, rightFound, rightOrdinal⟩ := ordinalOf right rightTurn rightMember
    exact table.distinct left right leftOld rightOld leftFound rightFound
      (by rw [leftOrdinal, rightOrdinal, equal])

theorem append (table : WellNumbered turns turnCount)
    (ordinal : turn.ordinal = turnCount + 1) (numbered : turn.Numbered) :
    WellNumbered (turns.set turn.id turn) (turnCount + 1) where
  turnId := by
    intro other present member
    obtain ⟨same, rfl⟩ | member := get?_set_cases member
    · exact same
    · exact table.turnId other present member
  numbered := by
    intro other present member
    obtain ⟨-, rfl⟩ | member := get?_set_cases member
    · exact numbered
    · exact table.numbered other present member
  issued := by
    intro other present member
    obtain ⟨-, rfl⟩ | member := get?_set_cases member
    · omega
    · have bounds := table.issued other present member
      omega
  distinct := by
    intro left right leftTurn rightTurn leftMember rightMember equal
    rw [get?_set] at leftMember rightMember
    split at leftMember <;> split at rightMember
    · rename_i sameLeft sameRight
      rw [← sameLeft, sameRight]
    · cases leftMember
      have bounds := table.issued right rightTurn rightMember
      omega
    · cases rightMember
      have bounds := table.issued left leftTurn leftMember
      omega
    · exact table.distinct left right leftTurn rightTurn leftMember rightMember equal

end WellNumbered

/-- The part of the aggregate that says what executes. -/
structure Execution where
  turns : InsertionMap String TurnState
  turnCount : Nat
  currentTurnId : Option String
  currentTurnPhase : Option TurnPhase
  openSegments : InsertionMap String OpenSegment
  scheduledSuccessor : Option ScheduledSuccessor

def SessionState.execution (state : SessionState) : Execution where
  turns := state.turns
  turnCount := state.turnCount
  currentTurnId := state.currentTurnId
  currentTurnPhase := state.currentTurnPhase
  openSegments := state.openSegments
  scheduledSuccessor := state.scheduledSuccessor

namespace Execution

/-- The four records of the executing turn agree. Between two commands a successor
also waits for a turn that is current. -/
structure Owned (execution : Execution) : Prop where
  table : WellNumbered execution.turns execution.turnCount
  current : ∀ id, execution.currentTurnId = some id →
    ∃ turn, execution.turns.get? id = some turn ∧ turn.status.isActive = true ∧
      turn.phase = execution.currentTurnPhase ∧ turn.phase.isSome = true
  settled : ∀ id turn, execution.turns.get? id = some turn →
    execution.currentTurnId ≠ some id → turn.status.isActive = false ∧ turn.phase = none
  idle : execution.currentTurnId = none → execution.currentTurnPhase = none
  segments : ∀ id segment, execution.openSegments.get? id = some segment →
    execution.currentTurnId = some segment.turnId
  successor : ∀ successor, execution.scheduledSuccessor = some successor →
    execution.currentTurnId = none ∨ execution.currentTurnId = some successor.predecessorTurnId

namespace Owned

variable {execution : Execution}

theorem initial : initialSessionState.execution.Owned := by
  constructor
  case table => constructor <;> simp [execution, initialSessionState]
  all_goals simp [execution, initialSessionState]

variable (owned : execution.Owned)
include owned

theorem isActive_iff (found : execution.turns.get? id = some turn) :
    turn.status.isActive = true ↔ execution.currentTurnId = some id := by
  constructor
  · intro active
    by_contra notCurrent
    have stopped := (owned.settled id turn found notCurrent).1
    rw [active] at stopped
    cases stopped
  intro current
  obtain ⟨other, same, active, -⟩ := owned.current id current
  rw [found] at same
  cases same
  exact active

theorem updateCurrent (current : execution.currentTurnId = some id)
    (found : execution.turns.get? id = some before) (sameId : after.id = before.id)
    (sameOrdinal : after.ordinal = before.ordinal) (numbered : after.Numbered)
    (active : after.status.isActive = true) (hasPhase : after.phase.isSome = true) :
    Owned { execution with
      turns := execution.turns.set id after
      currentTurnPhase := after.phase } where
  table := owned.table.rewrite found sameId sameOrdinal numbered
  current := by
    intro other isCurrent
    rw [current] at isCurrent
    cases isCurrent
    exact ⟨after, by simp, active, rfl, hasPhase⟩
  settled := by
    intro other turn member notCurrent
    simp only [get?_set] at member
    split at member
    · rename_i same
      exact absurd (same ▸ current) notCurrent
    · exact owned.settled other turn member notCurrent
  idle := fun noCurrent => by simp [current] at noCurrent
  segments := owned.segments
  successor := owned.successor

theorem start (turn : TurnState) (idle : execution.currentTurnId = none)
    (free : execution.scheduledSuccessor = none)
    (ordinal : turn.ordinal = execution.turnCount + 1) (numbered : turn.Numbered)
    (active : turn.status.isActive = true) (hasPhase : turn.phase.isSome = true) :
    Owned { execution with
      turns := execution.turns.set turn.id turn
      turnCount := execution.turnCount + 1
      currentTurnId := some turn.id
      currentTurnPhase := turn.phase } where
  table := owned.table.append ordinal numbered
  current := by
    intro other isCurrent
    cases isCurrent
    exact ⟨turn, by simp, active, rfl, hasPhase⟩
  settled := by
    intro other present member notCurrent
    simp only [get?_set] at member
    split at member
    · rename_i same
      exact absurd (congrArg some same) notCurrent
    · exact owned.settled other present member (by simp [idle])
  idle := by
    intro noTurn
    cases noTurn
  segments := by
    intro segmentId segment member
    have isCurrent := owned.segments segmentId segment member
    rw [idle] at isCurrent
    cases isCurrent
  successor := by
    intro successor scheduled
    simp only [free] at scheduled
    cases scheduled

theorem settle (current : execution.currentTurnId = some id)
    (found : execution.turns.get? id = some before) (sameId : after.id = before.id)
    (sameOrdinal : after.ordinal = before.ordinal) (numbered : after.Numbered)
    (stopped : after.status.isActive = false) (noPhase : after.phase = none)
    (closed : ∀ segmentId, execution.openSegments.get? segmentId = none) :
    Owned { execution with
      turns := execution.turns.set id after
      currentTurnId := none
      currentTurnPhase := none } where
  table := owned.table.rewrite found sameId sameOrdinal numbered
  current := by
    intro other noTurn
    cases noTurn
  settled := by
    intro other turn member _
    simp only [get?_set] at member
    split at member
    · cases member
      exact ⟨stopped, noPhase⟩
    · rename_i different
      refine owned.settled other turn member fun isCurrent => different ?_
      rw [current] at isCurrent
      exact Option.some.inj isCurrent
  idle := fun _ => rfl
  segments := by
    intro segmentId segment member
    simp only [closed] at member
    cases member
  successor := fun _ _ => .inl rfl

theorem rollBack (idle : execution.currentTurnId = none) (removed : TurnState → Bool) :
    Owned { execution with
      turns := execution.turns.mapValues fun turn =>
        if removed turn then { turn with status := .rolledBack } else turn } where
  table := by
    have before : ∀ id turn, (execution.turns.mapValues fun turn =>
          if removed turn then { turn with status := .rolledBack } else turn).get? id = some turn →
        ∃ old, execution.turns.get? id = some old ∧ turn.id = old.id ∧
          turn.ordinal = old.ordinal ∧ turn.Numbered := by
      intro id turn member
      rw [get?_mapValues, Option.map_eq_some_iff] at member
      obtain ⟨old, found, rfl⟩ := member
      have numbered := owned.table.numbered id old found
      have stopped := (owned.settled id old found (by simp [idle])).1
      refine ⟨old, found, ?_⟩
      split
      · exact ⟨rfl, rfl, numbered.sameAttempts rfl rfl rfl stopped.symm⟩
      · exact ⟨rfl, rfl, numbered⟩
    constructor
    · intro id turn member
      obtain ⟨old, found, sameId, -⟩ := before id turn member
      rw [sameId, owned.table.turnId id old found]
    · intro id turn member
      obtain ⟨old, -, -, -, numbered⟩ := before id turn member
      exact numbered
    · intro id turn member
      obtain ⟨old, found, -, sameOrdinal, -⟩ := before id turn member
      rw [sameOrdinal]
      exact owned.table.issued id old found
    intro left right leftTurn rightTurn leftMember rightMember equal
    obtain ⟨leftOld, leftFound, -, leftOrdinal, -⟩ := before left leftTurn leftMember
    obtain ⟨rightOld, rightFound, -, rightOrdinal, -⟩ :=
      before right rightTurn rightMember
    exact owned.table.distinct left right leftOld rightOld leftFound rightFound
      (by rw [← leftOrdinal, ← rightOrdinal, equal])
  current := by
    intro id isCurrent
    simp only [idle] at isCurrent
    cases isCurrent
  settled := by
    intro id turn member notCurrent
    rw [get?_mapValues, Option.map_eq_some_iff] at member
    obtain ⟨old, found, rfl⟩ := member
    have stopped := owned.settled id old found notCurrent
    split
    · exact ⟨rfl, stopped.2⟩
    · exact stopped
  idle := owned.idle
  segments := owned.segments
  successor := owned.successor

end Owned

end Execution

namespace SessionState

variable (state : SessionState)

@[simp] theorem execution_retireActiveProviderThread (at_ : Millis) :
    (state.retireActiveProviderThread at_).execution = state.execution := by
  unfold retireActiveProviderThread
  split <;> rfl

theorem execution_applySessionCreated (created : SessionCreatedEvent) :
    (state.applySessionCreated created).execution = state.execution := by
  unfold applySessionCreated
  cases created.cursor <;> rfl

theorem execution_applyTurnStarted {started : TurnStartedEvent} {ordinal : Nat}
    {attemptId : String} (hasOrdinal : started.ordinal = some ordinal)
    (hasAttempt : started.attemptId = some attemptId) :
    ∃ providerThreadId,
      (state.applyTurnStarted started).execution =
        { state.execution with
          turns := state.turns.set started.turnId
            { id := started.turnId, ordinal, status := .starting
              phase := some .running, providerThreadId, activeAttemptId := attemptId
              attempts := InsertionMap.empty.set attemptId
                { id := attemptId, ordinal := 1, reason := .initial, status := .running
                  startedAt := started.startedAt, completedAt := none }
              requestedAt := started.startedAt, completedAt := none }
          turnCount := max state.turnCount ordinal
          currentTurnId := some started.turnId
          currentTurnPhase := some .running } := by
  unfold applyTurnStarted
  simp only [hasOrdinal, hasAttempt, Option.getD_some]
  cases started.providerThreadId with
  | none =>
    refine ⟨state.activeProviderThreadId, ?_⟩
    split <;> rfl
  | some threadId =>
    refine ⟨threadId.map (scopeProviderThreadId state.sessionIdText), ?_⟩
    split <;> rfl

theorem execution_withTurnPhase {turnId : String} {phase : TurnPhase}
    (current : state.Current turnId turn) :
    (state.withTurnPhase turnId phase).execution =
      { state.execution with
        turns := state.turns.set turnId { turn with phase := some phase }
        currentTurnPhase := some phase } := by
  simp [withTurnPhase, current.1, current.2, execution]

theorem execution_applyTurnsRolledBack (rollback : TurnsRolledBackEvent) :
    (state.applyTurnsRolledBack rollback).execution =
      { state.execution with
        turns := state.turns.mapValues fun turn =>
          if Decidable.decide (rollback.throughOrdinal < turn.ordinal) then
            { turn with status := .rolledBack } else turn } := by
  simp [applyTurnsRolledBack, execution]

end SessionState

namespace Execution.Owned

variable {state : SessionState} {turnId : String}

theorem currentTurn (owned : state.execution.Owned)
    (isCurrent : state.currentTurnId = some turnId) :
    ∃ turn, state.Current turnId turn ∧ turn.status.isActive = true ∧
      turn.phase = state.currentTurnPhase ∧ turn.phase.isSome = true := by
  obtain ⟨turn, found, rest⟩ := owned.current turnId isCurrent
  exact ⟨turn, ⟨isCurrent, found⟩, rest⟩

variable {turn : TurnState}

section

variable (owned : state.execution.Owned)
include owned

theorem current_active (current : state.Current turnId turn) :
    turn.status.isActive = true ∧ turn.phase = state.currentTurnPhase ∧
      turn.phase.isSome = true := by
  obtain ⟨other, ⟨-, found⟩, rest⟩ := owned.currentTurn current.1
  rw [current.2] at found
  cases found
  exact rest

theorem runningAttempt (current : state.Current turnId turn) :
    ∃ attempt, turn.attempts.get? turn.activeAttemptId = some attempt ∧
      attempt.id = turn.activeAttemptId ∧ attempt.ordinal = turn.attempts.size ∧
      attempt.status = .running := by
  have numbered := owned.table.numbered turnId turn current.2
  obtain ⟨attempt, found, sameId, ordinal⟩ := numbered.active
  have running := (numbered.running _ attempt found).mpr ⟨(owned.current_active current).1, rfl⟩
  exact ⟨attempt, found, sameId, ordinal, running⟩

theorem rewriteCurrent (after : TurnState)
    (current : state.Current turnId before) (sameId : after.id = before.id)
    (sameOrdinal : after.ordinal = before.ordinal)
    (sameActive : after.activeAttemptId = before.activeAttemptId)
    (sameAttempts : after.attempts = before.attempts)
    (active : after.status.isActive = true) (hasPhase : after.phase.isSome = true) :
    Execution.Owned { state.execution with
      turns := state.turns.set turnId after
      currentTurnPhase := after.phase } := by
  have numbered := owned.table.numbered turnId before current.2
  exact owned.updateCurrent current.1 current.2 sameId sameOrdinal
    (numbered.sameAttempts sameId sameActive sameAttempts
      (active.trans (owned.current_active current).1.symm)) active hasPhase

theorem withTurnPhase (phase : TurnPhase) (current : state.Current turnId turn) :
    (state.withTurnPhase turnId phase).execution.Owned := by
  rw [state.execution_withTurnPhase current]
  exact owned.rewriteCurrent { turn with phase := some phase } current rfl rfl rfl rfl
    (owned.current_active current).1 rfl

theorem withStatus {status : TurnStatus} (current : state.Current turnId turn)
    (active : status.isActive = true) : (state.withTurn { turn with status }).execution.Owned := by
  have sameId := owned.table.turnId turnId turn current.2
  have issued := owned.table.issued turnId turn current.2
  have facts := owned.current_active current
  have rewritten := owned.rewriteCurrent { turn with status } current rfl rfl rfl rfl
    active facts.2.2
  have equal : (state.withTurn { turn with status }).execution =
      { state.execution with
        turns := state.turns.set turnId { turn with status }
        currentTurnPhase := turn.phase } := by
    simp only [withTurn, execution, sameId, facts.2.1,
      Execution.mk.injEq, and_self, and_true, true_and]
    exact max_eq_left issued.2
  rw [equal]
  exact rewritten

theorem applySessionStatusSet (status : SessionStatus) :
    (state.applySessionStatusSet status).execution.Owned := by
  unfold SessionState.applySessionStatusSet
  split
  · exact owned
  rename_i turn found
  split
  · obtain ⟨turnId, isCurrent, present⟩ := Option.bind_eq_some_iff.mp found
    exact owned.withStatus ⟨isCurrent, present⟩ rfl
  · exact owned

theorem applyTurnStarted {started : TurnStartedEvent}
    (permitted : state.Permits (.turnStarted started)) :
    (state.applyTurnStarted started).execution.Owned := by
  obtain ⟨idle, free, hasOrdinal, hasAttempt, -⟩ := permitted
  obtain ⟨providerThreadId, equal⟩ := state.execution_applyTurnStarted hasOrdinal hasAttempt
  rw [equal, max_eq_right (Nat.le_succ state.turnCount)]
  refine owned.start { id := started.turnId, .. } idle free rfl ?_ rfl rfl
  exact TurnState.Numbered.first _ { id := attemptIdFor started.turnId 1, .. }
    rfl rfl rfl rfl rfl rfl

theorem applyAttemptStarted {started : AttemptStartedEvent}
    (permitted : state.Permits (.attemptStarted started)) :
    (state.applyAttemptStarted started).execution.Owned := by
  obtain ⟨turn, current, -, ordinal, attemptId, -⟩ := permitted
  obtain ⟨attempt, found, sameId, -, running⟩ := owned.runningAttempt current
  have turnId := owned.table.turnId _ turn current.2
  have issued : turn.ordinal ≤ state.turnCount := (owned.table.issued _ turn current.2).2
  have numbered := owned.table.numbered _ turn current.2
  rw [ordinal, ← turnId] at attemptId
  let superseded : AttemptState :=
    { attempt with
      id := turn.activeAttemptId
      status := .superseded
      completedAt := some started.startedAt }
  let next : AttemptState :=
    { id := started.attemptId, ordinal := started.ordinal, reason := started.reason,
      status := .running, startedAt := started.startedAt, completedAt := none }
  let after : TurnState := { turn with
    id := started.turnId
    status := .starting
    phase := some .running
    activeAttemptId := started.attemptId
    attempts := (turn.attempts.set turn.activeAttemptId superseded).set next.id next }
  have equal : (state.applyAttemptStarted started).execution =
      { state.execution with
        turns := state.turns.set started.turnId after
        currentTurnPhase := after.phase } := by
    simp only [SessionState.applyAttemptStarted, current.2, current.1, found, running,
      withTurn, SessionState.execution, turnId, sameId, if_true,
      max_eq_left issued]
    rfl
  have stopped : superseded.status ≠ .running := by
    intro runs
    cases runs
  have renumbered : after.Numbered :=
    numbered.supersede after superseded next found
      sameId.symm rfl stopped turnId.symm attemptId ordinal rfl rfl rfl rfl
  rw [equal]
  exact owned.updateCurrent current.1 current.2 turnId.symm rfl renumbered rfl rfl

theorem applyTurnSettled (outcome : SettlementOutcome) (settledAt : Millis)
    (current : state.Current turnId turn)
    (closed : ∀ segmentId, state.openSegments.get? segmentId = none) :
    (state.applyTurnSettled turnId outcome settledAt).execution.Owned := by
  obtain ⟨attempt, found, sameId, -⟩ := owned.runningAttempt current
  have numbered := owned.table.numbered _ turn current.2
  have turnIdEq := owned.table.turnId _ turn current.2
  let settled : AttemptState :=
    { attempt with
      id := turn.activeAttemptId
      status := outcome.attemptStatus
      completedAt := some settledAt }
  let after : TurnState := { turn with
    id := turnId
    status := outcome.turnStatus
    phase := none
    attempts := turn.attempts.set turn.activeAttemptId settled
    completedAt := some settledAt }
  have equal : (state.applyTurnSettled turnId outcome settledAt).execution =
      { state.execution with
        turns := state.turns.set turnId after
        currentTurnId := none
        currentTurnPhase := none } := by
    unfold SessionState.applyTurnSettled
    simp only [current.2, found, sameId, withTurn, turnIdEq]
    split
    · rfl
    · split <;> rfl
  have renumbered : after.Numbered :=
    numbered.rewriteActive after settled found sameId.symm rfl turnIdEq.symm rfl rfl
      ⟨fun running => absurd running outcome.attemptStatus_ne_running,
        fun active => by simp [after] at active⟩
  rw [equal]
  exact owned.settle current.1 current.2 turnIdEq.symm rfl renumbered (by simp [after]) rfl closed

end

theorem evolve [PayloadCodec] (owned : state.execution.Owned) {event : SessionEvent}
    (emitted : state.Emits event) : (Domain.evolve state event).execution.Owned := by
  change (state.apply event).execution.Owned
  cases event with
  | sessionCreated created =>
    rw [apply, state.execution_applySessionCreated]
    exact owned
  | sessionProviderSet providerId model updatedAt =>
    have same := state.execution_retireActiveProviderThread updatedAt
    rw [← same] at owned
    exact owned
  | sessionWorktreeSet worktreeId updatedAt =>
    rw [apply]
    split
    · exact owned
    · have same := state.execution_retireActiveProviderThread updatedAt
      rw [← same] at owned
      exact owned
  | sessionStatusSet status updatedAt => exact owned.applySessionStatusSet status
  | sessionResumeSet => exact emitted.2.2.elim
  | turnStarted started => exact owned.applyTurnStarted emitted.2.2
  | attemptProviderTurnBound turnId attemptId reference boundAt =>
    rw [apply]
    split
    · exact owned
    · split
      · exact owned
      · exact owned
  | attemptStarted started => exact owned.applyAttemptStarted emitted.2.2
  | turnsRolledBack rollback =>
    rw [apply, state.execution_applyTurnsRolledBack]
    exact owned.rollBack emitted.2.2.1 _
  | turnFinalizationRequested turnId attemptId outcome settledAt =>
    obtain ⟨-, -, turn, current, -⟩ := emitted
    simp only [apply, current.2]
    exact owned.withStatus current rfl
  | turnSettled turnId outcome settledAt =>
    obtain ⟨-, -, ⟨turn, current⟩, closed⟩ := emitted
    exact owned.applyTurnSettled outcome settledAt current closed
  | turnInterruptRequested turnId attemptId requestedAt =>
    obtain ⟨-, -, turn, current, -⟩ := emitted
    exact owned.withTurnPhase .interruptRequested current
  | turnInterruptAcknowledged turnId acknowledgedAt =>
    obtain ⟨-, -, turn, current⟩ := emitted
    exact owned.withTurnPhase .interruptAcknowledged current
  | turnInterruptFailed turnId reason failedAt =>
    obtain ⟨-, -, turn, current⟩ := emitted
    exact owned.withTurnPhase .running current
  | queuedTurnUpdated queueId inputJson updatedAt ready =>
    rw [apply]
    split <;> exact owned
  | successorTurnScheduled successor scheduledAt =>
    refine ⟨owned.table, owned.current, owned.settled, owned.idle, owned.segments, ?_⟩
    intro scheduled equal
    cases equal
    exact emitted.2.2
  | scheduledSuccessorReady successor readyAt =>
    refine ⟨owned.table, owned.current, owned.settled, owned.idle, owned.segments, ?_⟩
    intro scheduled noSuccessor
    cases noSuccessor
  | segmentOpened turnId segmentId kind openedAt =>
    refine ⟨owned.table, owned.current, owned.settled, owned.idle, ?_, owned.successor⟩
    intro id segment member
    simp only [execution, apply, get?_set] at member ⊢
    split at member
    · cases member
      exact emitted.2.2.1
    · exact owned.segments id segment member
  | segmentSettled turnId segmentId outcome settledAt =>
    refine ⟨owned.table, owned.current, owned.settled, owned.idle, ?_, owned.successor⟩
    intro id segment member
    simp only [execution, apply, get?_delete] at member ⊢
    split at member
    · cases member
    · exact owned.segments id segment member
  | _ => exact owned

end Execution.Owned

end Zuse.Domain
