import Zuse.Domain.Core.Decisions

namespace Zuse.Domain

open Zuse.Data Option

/-! A session as a system: its commands are decided one after another, and the
returned events are folded and logged. -/

structure CommandRecord where
  command : SessionCommand
  events : List SessionEvent

structure Session where
  state : SessionState
  journal : List CommandRecord

def Session.log (session : Session) : List SessionEvent :=
  session.journal.flatMap (·.events)

section System

variable [PayloadCodec]

def sessionSystem : TransitionSystem Session SessionCommand where
  init := { state := initialSessionState, journal := [] }
  step := fun session command =>
    match decide session.state command with
    | .error _ => none
    | .ok events =>
      some
        { state := evolveAll session.state events
          journal := session.journal ++ [⟨command, events⟩] }

theorem sessionSystem_step {session next : Session} {command : SessionCommand} :
    sessionSystem.step session command = some next ↔
      ∃ events, decide session.state command = .ok events ∧
        next.state = evolveAll session.state events ∧
        next.journal = session.journal ++ [⟨command, events⟩] := by
  simp only [sessionSystem]
  cases decided : decide session.state command with
  | error => simp
  | ok events =>
    obtain ⟨state, journal⟩ := next
    simp [eq_comm]

/-- A session between two commands: its state is the fold of its log, and every event
of the log was emitted. -/
structure Session.Sound (session : Session) : Prop where
  wellFormed : session.state.WellFormed
  rested : session.state.Rested
  folded : session.state = evolveAll initialSessionState session.log
  emitted : EmitsAll initialSessionState session.log

theorem Session.Sound.initial : (sessionSystem.init).Sound where
  wellFormed := SessionState.WellFormed.initial
  rested := SessionState.Rested.initial
  folded := rfl
  emitted := trivial

theorem Session.Sound.step {session next : Session} {command : SessionCommand}
    (sound : session.Sound) (stepped : sessionSystem.step session command = some next) :
    next.Sound := by
  obtain ⟨events, decided, state, journal⟩ := sessionSystem_step.mp stepped
  have lawful := decide_lawful sound.wellFormed sound.rested decided
  have log : next.log = session.log ++ events := by
    rw [Session.log, journal, List.flatMap_append, List.flatMap_singleton, Session.log]
  constructor
  · rw [state]
    exact sound.wellFormed.evolveAll lawful.emitted
  · rw [state]
    exact lawful.rested
  · rw [state, log, evolveAll_append, ← sound.folded]
  · rw [log, emitsAll_append, ← sound.folded]
    exact ⟨sound.emitted, lawful.emitted⟩

theorem Session.Sound.of_reachable {session : Session}
    (reachable : sessionSystem.Reachable session) : session.Sound :=
  reachable.invariant .initial fun _ _ _ _ sound stepped => sound.step stepped

end System

namespace SessionState

variable (state : SessionState)

/-- The turn has a status that is not terminal. -/
def ActiveTurn (turnId : String) : Prop :=
  ∃ turn, state.turns.get? turnId = some turn ∧ turn.status.isActive = true

def RunningAttempt (turnId attemptId : String) : Prop :=
  ∃ turn attempt, state.turns.get? turnId = some turn ∧
    turn.attempts.get? attemptId = some attempt ∧ attempt.status = .running

structure TurnOwnership : Prop where
  isActive : ∀ turnId, state.ActiveTurn turnId ↔ state.currentTurnId = some turnId
  oneActive : state.currentTurnId.isSome = true ↔ ∃! turnId, state.ActiveTurn turnId
  phase : ∀ turnId turn, state.Current turnId turn →
    turn.phase.isSome = true ∧ turn.phase = state.currentTurnPhase
  noPhase : ∀ turnId turn, state.turns.get? turnId = some turn →
    turn.status.isActive = false → turn.phase = none
  oneRunning : ∀ turnId attemptId otherTurnId otherAttemptId,
    state.RunningAttempt turnId attemptId →
    state.RunningAttempt otherTurnId otherAttemptId →
    turnId = otherTurnId ∧ attemptId = otherAttemptId
  activeAttempt : ∀ turnId turn, state.Current turnId turn →
    state.RunningAttempt turnId turn.activeAttemptId
  attempts : ∀ turnId turn, state.turns.get? turnId = some turn →
    ∃ count, turn.attempts.entries.map (fun entry => (entry.1, entry.2.id, entry.2.ordinal)) =
      (List.range count).map fun index =>
        (attemptIdFor turnId (index + 1), attemptIdFor turnId (index + 1), index + 1)
  segments : ∀ segmentId segment, state.openSegments.get? segmentId = some segment →
    state.currentTurnId = some segment.turnId
  successor : ∀ successor, state.scheduledSuccessor = some successor →
    state.currentTurnId = some successor.predecessorTurnId
  ordinals : ∀ turnId turn, state.turns.get? turnId = some turn →
    turn.ordinal ≤ state.turnCount ∧
      ∀ otherId other, state.turns.get? otherId = some other →
        other.ordinal = turn.ordinal → otherId = turnId

variable {state}

theorem WellFormed.activeTurn_iff (wellFormed : state.WellFormed) {turnId : String} :
    state.ActiveTurn turnId ↔ state.currentTurnId = some turnId := by
  constructor
  · rintro ⟨turn, found, active⟩
    exact (wellFormed.owned.isActive_iff found).mp active
  · intro isCurrent
    obtain ⟨turn, current, active, -⟩ := wellFormed.owned.currentTurn isCurrent
    exact ⟨turn, current.2, active⟩

theorem WellFormed.runningAttempt_current (wellFormed : state.WellFormed)
    {turnId attemptId : String} (runs : state.RunningAttempt turnId attemptId) :
    ∃ turn, state.Current turnId turn ∧ attemptId = turn.activeAttemptId := by
  obtain ⟨turn, attempt, found, present, running⟩ := runs
  have numbered := wellFormed.owned.table.numbered turnId turn found
  obtain ⟨active, latest⟩ := (numbered.running attemptId attempt present).mp running
  exact ⟨turn, ⟨(wellFormed.owned.isActive_iff found).mp active, found⟩, latest⟩

theorem WellFormed.turnOwnership (wellFormed : state.WellFormed)
    (rested : state.Rested) : state.TurnOwnership where
  isActive := fun _ => wellFormed.activeTurn_iff
  oneActive := by
    simp only [wellFormed.activeTurn_iff]
    constructor
    · intro hasCurrent
      obtain ⟨turnId, isCurrent⟩ := isSome_iff_exists.mp hasCurrent
      refine ⟨turnId, isCurrent, fun other otherCurrent => ?_⟩
      exact some.inj (otherCurrent.symm.trans isCurrent)
    · rintro ⟨turnId, isCurrent, -⟩
      exact isSome_iff_exists.mpr ⟨turnId, isCurrent⟩
  phase := by
    intro turnId turn current
    obtain ⟨-, same, hasPhase⟩ := wellFormed.owned.current_active current
    exact ⟨hasPhase, same⟩
  noPhase := by
    intro turnId turn found stopped
    refine (wellFormed.owned.settled turnId turn found fun isCurrent => ?_).2
    rw [(wellFormed.owned.isActive_iff found).mpr isCurrent] at stopped
    cases stopped
  oneRunning := by
    intro turnId attemptId otherTurnId otherAttemptId runs otherRuns
    obtain ⟨turn, current, rfl⟩ := wellFormed.runningAttempt_current runs
    obtain ⟨other, otherCurrent, rfl⟩ := wellFormed.runningAttempt_current otherRuns
    have sameId : turnId = otherTurnId :=
      some.inj (current.1.symm.trans otherCurrent.1)
    subst sameId
    have sameTurn : turn = other :=
      some.inj (current.2.symm.trans otherCurrent.2)
    exact ⟨rfl, by rw [sameTurn]⟩
  activeAttempt := by
    intro turnId turn current
    obtain ⟨attempt, found, -, -, running⟩ := wellFormed.owned.runningAttempt current
    exact ⟨turn, attempt, current.2, found, running⟩
  attempts := by
    intro turnId turn found
    have labels := (wellFormed.owned.table.numbered turnId turn found).labels
    rw [wellFormed.owned.table.turnId turnId turn found] at labels
    exact ⟨_, labels⟩
  segments := wellFormed.owned.segments
  successor := by
    intro successor scheduled
    rcases wellFormed.owned.successor successor scheduled with idle | waits
    · cases scheduled.symm.trans (rested idle)
    · exact waits
  ordinals := by
    intro turnId turn found
    refine ⟨(wellFormed.owned.table.issued turnId turn found).2, ?_⟩
    intro otherId other otherFound same
    exact wellFormed.owned.table.distinct otherId turnId other turn otherFound found same

end SessionState

/-- Between any two commands of any session, the records of its turns agree on what
executes. -/
theorem turnOwnership_of_reachable [PayloadCodec] {session : Session}
    (reachable : sessionSystem.Reachable session) : session.state.TurnOwnership :=
  have sound := Session.Sound.of_reachable reachable
  sound.wellFormed.turnOwnership sound.rested

def steeredRetry : List SessionCommand :=
  [.createSession (.plain "session") none, .startTurn "turn" 1,
    .retryTurn "turn" .retry "input" none 2, .enqueueTurn "queued" "text" 0 3 true,
    .steerQueuedTurn "turn" "queued" "next" 4]

theorem turnOwnership_of_steeredRetry :
    ∃ session : Session, (@sessionSystem rejectingCodec).run steeredRetry = some session ∧
      session.state.currentTurnId = some "turn" ∧ session.state.TurnOwnership := by
  have ran : ((@sessionSystem rejectingCodec).run steeredRetry).map
      (·.state.currentTurnId) = some (some "turn") := by
    decide +kernel
  obtain ⟨session, reached, current⟩ := map_eq_some_iff.mp ran
  exact ⟨session, reached, current, @turnOwnership_of_reachable rejectingCodec session
    (TransitionSystem.run_reachable reached)⟩

end Zuse.Domain
