import Zuse.Domain.Engine.ExactlyOnce

namespace Zuse.Domain

open Zuse.Data List Option InsertionMap

/-! The attempts of a turn are counted: nothing but a restart of the turn takes one
back. -/

def attemptCount (turns : InsertionMap String TurnState) (turnId : String) : Nat :=
  ((turns.get? turnId).map (·.attempts.size)).getD 0

variable {turns : InsertionMap String TurnState} {turnId : String} {turn : TurnState}

theorem attemptCount_of_get (found : turns.get? turnId = some turn) :
    attemptCount turns turnId = turn.attempts.size := by
  simp [attemptCount, found]

theorem attemptCount_set (turns : InsertionMap String TurnState) (id other : String)
    (turn : TurnState) :
    attemptCount (turns.set id turn) other =
      if id = other then turn.attempts.size else attemptCount turns other := by
  simp only [attemptCount, get?_set]
  split <;> rfl

variable {id : String}

theorem attemptCount_rewrite {before after : TurnState} (found : turns.get? id = some before)
    (grows : before.attempts.size ≤ after.attempts.size) (other : String) :
    attemptCount turns other ≤ attemptCount (turns.set id after) other := by
  rw [attemptCount_set]
  split
  · rename_i same
    rw [← same, attemptCount_of_get found]
    exact grows
  · exact le_rfl

namespace SessionState

variable {state : SessionState}

theorem attemptCount_withTurn (wellFormed : state.WellFormed)
    {before after : TurnState} (found : state.turns.get? id = some before)
    (sameId : after.id = before.id) (grows : before.attempts.size ≤ after.attempts.size)
    (other : String) :
    attemptCount state.turns other ≤ attemptCount (state.withTurn after).turns other := by
  rw [withTurn, sameId, wellFormed.owned.table.turnId id before found]
  exact attemptCount_rewrite found grows other

theorem attemptCount_withTurnPhase (turnId : String) (phase : TurnPhase) (other : String) :
    attemptCount state.turns other ≤
      attemptCount (state.withTurnPhase turnId phase).turns other := by
  rw [withTurnPhase]
  split
  · exact le_rfl
  · rename_i turn found
    split
    · exact attemptCount_rewrite found (by rfl) other
    · exact le_rfl

theorem attemptCount_applySessionStatusSet (wellFormed : state.WellFormed)
    (status : SessionStatus) (other : String) :
    attemptCount state.turns other ≤
      attemptCount (state.applySessionStatusSet status).turns other := by
  rw [applySessionStatusSet]
  split
  · exact le_rfl
  rename_i turn found
  obtain ⟨turnId, -, present⟩ := bind_eq_some_iff.mp found
  split
  · exact attemptCount_withTurn wellFormed present (by rfl) (by rfl) other
  · exact le_rfl

theorem attemptCount_applyTurnSettled (wellFormed : state.WellFormed) (turnId : String)
    (outcome : SettlementOutcome) (settledAt : Millis) (other : String) :
    attemptCount state.turns other ≤
      attemptCount (state.applyTurnSettled turnId outcome settledAt).turns other := by
  cases found : state.turns.get? turnId with
  | none => simp only [applyTurnSettled, found, le_refl]
  | some turn =>
    simp only [applyTurnSettled, found]
    refine attemptCount_withTurn wellFormed found (by rfl) ?_ other
    split
    · exact le_rfl
    · exact size_le_set _ _ _

theorem attemptCount_applyAttemptStarted (wellFormed : state.WellFormed)
    (started : AttemptStartedEvent) (other : String) :
    attemptCount state.turns other ≤
      attemptCount (state.applyAttemptStarted started).turns other := by
  cases found : state.turns.get? started.turnId with
  | none => simp only [applyAttemptStarted, found, le_refl]
  | some turn =>
    simp only [applyAttemptStarted, found]
    refine attemptCount_withTurn wellFormed found (by rfl) ?_ other
    refine le_trans ?_ (size_le_set _ _ _)
    split
    · exact le_rfl
    · split
      · exact size_le_set _ _ _
      · exact le_rfl

theorem turns_applyTurnStarted (state : SessionState) (started : TurnStartedEvent) :
    ∃ turn, (state.applyTurnStarted started).turns = state.turns.set started.turnId turn := by
  unfold applyTurnStarted
  simp only
  split
  · exact ⟨_, rfl⟩
  · exact ⟨_, rfl⟩

variable [PayloadCodec]

theorem attemptCount_evolve (wellFormed : state.WellFormed) {event : SessionEvent}
    (noRestart : ∀ started, event = .turnStarted started → started.turnId ≠ turnId) :
    attemptCount state.turns turnId ≤ attemptCount (evolve state event).turns turnId := by
  change _ ≤ attemptCount (state.apply event).turns turnId
  cases event with
  | sessionCreated created =>
    have same := congrArg Execution.turns (state.execution_applySessionCreated created)
    exact le_of_eq (congrArg (attemptCount · turnId) same.symm)
  | sessionProviderSet providerId model updatedAt =>
    have same := congrArg Execution.turns (state.execution_retireActiveProviderThread updatedAt)
    exact le_of_eq (congrArg (attemptCount · turnId) same.symm)
  | sessionWorktreeSet worktreeId updatedAt =>
    obtain ⟨_, _, _, changed⟩ :=
      state.apply_sessionWorktreeSet_changes worktreeId updatedAt
    rw [changed]
  | sessionStatusSet status =>
    exact attemptCount_applySessionStatusSet wellFormed status turnId
  | turnStarted started =>
    have other := noRestart started rfl
    obtain ⟨turn, changed⟩ := state.turns_applyTurnStarted started
    rw [apply, changed, attemptCount_set, if_neg other]
  | attemptProviderTurnBound id attemptId reference boundAt =>
    obtain ⟨_, changed⟩ :=
      state.apply_attemptProviderTurnBound_changes id attemptId reference boundAt
    rw [changed]
  | attemptStarted started =>
    exact attemptCount_applyAttemptStarted wellFormed started turnId
  | turnsRolledBack rollback =>
    cases found : state.turns.get? turnId with
    | none => simp [attemptCount, found]
    | some turn =>
      simp only [apply, applyTurnsRolledBack, attemptCount,
        get?_mapValues, found, map_some, getD_some]
      split <;> exact le_rfl
  | turnFinalizationRequested id attemptId outcome settledAt =>
    rw [apply]
    split
    · exact le_rfl
    · rename_i turn found
      exact attemptCount_withTurn wellFormed found (by rfl) (by rfl) turnId
  | turnSettled id outcome settledAt =>
    exact attemptCount_applyTurnSettled wellFormed id outcome settledAt turnId
  | turnInterruptRequested id | turnInterruptAcknowledged id | turnInterruptFailed id =>
    exact attemptCount_withTurnPhase id _ turnId
  | queuedTurnUpdated queueId inputJson updatedAt ready =>
    obtain ⟨_, changed⟩ :=
      state.apply_queuedTurnUpdated_changes queueId inputJson updatedAt ready
    rw [changed]
  | _ => exact le_rfl

theorem attemptCount_evolveAll (wellFormed : state.WellFormed)
    {events : List SessionEvent} (emitted : EmitsAll state events)
    (noRestart : ∀ started, .turnStarted started ∈ events → started.turnId ≠ turnId) :
    attemptCount state.turns turnId ≤ attemptCount (evolveAll state events).turns turnId := by
  induction events generalizing state with
  | nil => exact le_rfl
  | cons event rest ih =>
    have keeps : ∀ started, event = .turnStarted started → started.turnId ≠ turnId :=
      fun started same => noRestart started (same ▸ mem_cons_self)
    have first := attemptCount_evolve wellFormed keeps
    have later := ih (wellFormed.evolve emitted.1) emitted.2 fun started member =>
      noRestart started (mem_cons_of_mem event member)
    exact first.trans later

variable {started : AttemptStartedEvent}

theorem attemptCount_attemptStarted (wellFormed : state.WellFormed)
    (emitted : state.Emits (.attemptStarted started)) :
    attemptCount (evolve state (.attemptStarted started)).turns started.turnId =
      attemptCount state.turns started.turnId + 1 := by
  have after := wellFormed.evolve emitted
  obtain ⟨-, -, turn, current, -, ordinal, attemptId, -⟩ := emitted
  have sameId := wellFormed.owned.table.turnId _ turn current.2
  have active : ∃ next,
      (evolve state (.attemptStarted started)).turns.get? started.turnId = some next ∧
        next.activeAttemptId = started.attemptId := by
    simp only [evolve, apply, applyAttemptStarted, current.2, withTurn, sameId, get?_set_self]
    exact ⟨_, rfl, rfl⟩
  obtain ⟨next, found, isActive⟩ := active
  have latest := (after.owned.table.numbered _ next found).latest
  rw [isActive, attemptId, attemptIdFor_inj] at latest
  rw [attemptCount_of_get found, attemptCount_of_get current.2, ← latest.2, ordinal]

theorem superseded_inactive {before after : List SessionEvent}
    (emitted : EmitsAll initialSessionState (before ++ .attemptStarted started :: after))
    (noRestart : ∀ restarted, .turnStarted restarted ∈ after → restarted.turnId ≠ started.turnId)
    {next : TurnState}
    (foundBefore : (evolveAll initialSessionState before).turns.get? started.turnId = some turn)
    (foundAfter : (evolveAll initialSessionState
      (before ++ .attemptStarted started :: after)).turns.get? started.turnId = some next) :
    turn.attempts.get? next.activeAttemptId = none := by
  rw [emitsAll_append] at emitted
  obtain ⟨first, atStart, rest⟩ := emitted
  have wellFormed := WellFormed.initial.evolveAll first
  have started' := wellFormed.evolve atStart
  have grows := attemptCount_evolveAll started' rest noRestart
  rw [attemptCount_attemptStarted wellFormed atStart, attemptCount_of_get foundBefore] at grows
  have last := started'.evolveAll rest
  rw [evolveAll_append, evolveAll_cons] at foundAfter
  rw [attemptCount_of_get foundAfter] at grows
  rw [eq_none_iff_forall_ne_some]
  intro attempt found
  obtain ⟨-, byOrdinal, -, bounded⟩ :=
    (wellFormed.owned.table.numbered _ turn foundBefore).attempt found
  rw [(last.owned.table.numbered _ next foundAfter).latest, attemptIdFor_inj] at byOrdinal
  omega

end SessionState

section Anchors

variable [PayloadCodec]

def PersistedByLatestAttempt (log : List SessionEvent) (turnId reference : String) : Prop :=
  ∃ before event after, log = before ++ event :: after ∧ event.anchors turnId reference = true ∧
    ∀ later ∈ after, later.startsAttempt turnId = false

theorem PersistedByLatestAttempt.of_anchored {reference : String} {newestFirst : List SessionEvent}
    (anchored : anchoredInAttempt turnId reference newestFirst = true) :
    PersistedByLatestAttempt newestFirst.reverse turnId reference := by
  induction newestFirst with
  | nil => cases anchored
  | cons event rest ih =>
    rw [anchoredInAttempt] at anchored
    split at anchored
    · cases anchored
    rename_i continues
    rcases (Bool.or_eq_true _ _).mp anchored with found | earlier
    · exact ⟨rest.reverse, event, [], reverse_cons, found, forall_mem_nil _⟩
    obtain ⟨before, anchor, after, split, anchors, noStart⟩ := ih earlier
    refine ⟨before, anchor, after ++ [event], ?_, anchors, ?_⟩
    · rw [reverse_cons, split, append_assoc, cons_append]
    intro later member
    rcases mem_concat.mp member with known | rfl
    · exact noStart later known
    · exact Bool.eq_false_iff.mpr continues

end Anchors

section Fence

variable [PayloadCodec]

/-- A message of tool work that outlives its turn: the turn is the newest one and
completed, and the provider session that ran it still holds the reservation. -/
structure OwnsToolTail (log : List SessionEvent) (input : DispatchInput)
    (turnId : String) (turn : TurnState) : Prop where
  reserved : ∃ providerSessionId, input.expectedProviderSessionId = some providerSessionId ∧
    (evolveAll initialSessionState log).providerReservation.map (·.providerSessionId) =
      some providerSessionId
  completed : turn.status = .completed
  newest : turn.ordinal = (evolveAll initialSessionState log).turnCount
  refers : ∃ message content reference, input.command = .persistMessage message ∧
    message.turnId = some turnId ∧ decodeContent message.contentJson = some content ∧
    providerToolReference content = some reference ∧
    PersistedByLatestAttempt log turnId reference

/-- What a guarded append finds in the log it extends. -/
structure Fenced (log : List SessionEvent) (input : DispatchInput)
    (expected : AttemptOwnership) : Prop where
  live : (evolveAll initialSessionState log).deleted = false ∧
    (evolveAll initialSessionState log).archived = false
  owner : ∃ turn,
    (evolveAll initialSessionState log).turns.get? expected.turnId = some turn ∧
      turn.activeAttemptId = expected.attemptId ∧
      (expected.requireUninterrupted = true → turn.phase = some .running) ∧
      ((evolveAll initialSessionState log).currentTurnId = some expected.turnId ∨
        (∃ nativeThreadId nativeHeadId updatedAt,
          input.command = .bindProviderThread nativeThreadId nativeHeadId updatedAt ∧
          turn.ordinal = (evolveAll initialSessionState log).turnCount) ∨
        OwnsToolTail log input expected.turnId turn)
  fence : ∀ before after started, log = before ++ .attemptStarted started :: after →
    started.turnId = expected.turnId →
    (∀ restarted, .turnStarted restarted ∈ after → restarted.turnId ≠ expected.turnId) →
    ∀ turn, (evolveAll initialSessionState before).turns.get? expected.turnId = some turn →
      turn.attempts.get? expected.attemptId = none

variable {input : DispatchInput} {log : List SessionEvent} {state : SessionState}

theorem DispatchInput.checkOwnership_ok (passed : input.checkOwnership state log = .ok ()) :
    (∀ expected, input.expectedProviderSessionId = some expected →
      actualProviderSessionId state = some expected) ∧
    (∀ expected, input.expectedAttempt = some expected →
      input.actualAttemptId state log expected = some expected.attemptId) := by
  rw [checkOwnership] at passed
  cases session : input.checkProviderSession state with
  | error failure =>
    rw [session] at passed
    cases passed
  | ok passes =>
    rw [session] at passed
    have attempt : input.checkAttempt state log = .ok () := passed
    constructor
    · intro expected guarded
      simp only [checkProviderSession, guarded] at session
      split at session
      · assumption
      · cases session
    intro expected guarded
    simp only [checkAttempt, guarded] at attempt
    split at attempt
    · assumption
    · cases attempt

variable {expected : AttemptOwnership}

omit [PayloadCodec] in
theorem DispatchInput.ownsTail_true (found : state.turns.get? expected.turnId = some turn)
    (owns : input.ownsTail state expected = true) :
    ∃ nativeThreadId nativeHeadId updatedAt,
      input.command = .bindProviderThread nativeThreadId nativeHeadId updatedAt ∧
        turn.ordinal = state.turnCount := by
  rw [ownsTail] at owns
  split at owns
  · rename_i isBind
    rw [found, decide_eq_true_eq] at owns
    exact ⟨_, _, _, isBind, some.inj owns⟩
  · cases owns

theorem DispatchInput.ownsToolTail_true
    (found : (evolveAll initialSessionState log).turns.get? expected.turnId = some turn)
    (session : ∀ expected, input.expectedProviderSessionId = some expected →
      actualProviderSessionId (evolveAll initialSessionState log) = some expected)
    (owns : input.ownsToolTail (evolveAll initialSessionState log) log expected = true) :
    OwnsToolTail log input expected.turnId turn := by
  rw [ownsToolTail, found] at owns
  split at owns
  · rename_i providerSessionId same message guarded sameTurn isPersist
    cases sameTurn
    split at owns
    · rename_i tail
      split at owns
      · rename_i reference refers
        obtain ⟨content, decoded, isReference⟩ := bind_eq_some_iff.mp refers
        have anchored := PersistedByLatestAttempt.of_anchored owns
        rw [reverse_reverse] at anchored
        refine ⟨⟨providerSessionId, guarded, ?_⟩, tail.1, tail.2.1,
          message, content, reference, isPersist, tail.2.2, decoded, isReference,
          anchored⟩
        have held := session providerSessionId guarded
        rw [actualProviderSessionId] at held
        split at held
        · cases held
        · exact held
      · cases owns
    · cases owns
  · cases owns

/-- The guards of `run` put the fence around the log they were checked on. -/
theorem DispatchInput.fenced (emitted : EmitsAll initialSessionState log)
    (guarded : input.expectedAttempt = some expected)
    (passed : input.checkOwnership (evolveAll initialSessionState log) log = .ok ()) :
    Fenced log input expected := by
  obtain ⟨session, attempt⟩ := checkOwnership_ok passed
  have actual := attempt expected guarded
  simp only [actualAttemptId] at actual
  split at actual
  · rename_i allowed
    obtain ⟨owns, undeleted, unarchived, uninterrupted⟩ := allowed
    obtain ⟨turn, found, active⟩ := map_eq_some_iff.mp actual
    constructor
    · exact ⟨undeleted, unarchived⟩
    · refine ⟨turn, found, active, ?_, ?_⟩
      · intro required
        rcases uninterrupted with free | running
        · rw [required] at free
          cases free
        · rw [found] at running
          exact running
      · rcases owns with current | tail | toolTail
        · exact .inl current
        · exact .inr (.inl (ownsTail_true found tail))
        · exact .inr (.inr (ownsToolTail_true found session toolTail))
    · intro before after started split sameTurn noRestart older foundOlder
      subst split
      rw [← sameTurn] at noRestart found foundOlder
      rw [← active]
      exact SessionState.superseded_inactive emitted noRestart foundOlder found
  · cases actual

/-- In every interleaving of the calls, an append that an attempt guards extends a log
that the attempt owns. -/
theorem fenced_of_reachable {σ : Type u} (storage : LawfulDispatchStorage σ SessionEvent)
    {world next : DispatchWorld σ} {index : Nat} {call : DispatchCall}
    {expected : AttemptOwnership}
    (reachable : (dispatchSystem storage.toDispatchStorage).Reachable world)
    (called : world.calls[index]? = some call)
    (guarded : call.input.expectedAttempt = some expected)
    (stepped : (dispatchSystem storage.toDispatchStorage).step world (.append index) = some next)
    (appends : storage.contents next.storage ≠ storage.contents world.storage) :
    Fenced ((storage.events world.storage call.input.streamId).map (·.event)) call.input expected ∧
      ∃ events,
        (storage.events next.storage call.input.streamId).map (·.event) =
          (storage.events world.storage call.input.streamId).map (·.event) ++ events ∧
        decide (evolveAll initialSessionState
          ((storage.events world.storage call.input.streamId).map (·.event)))
            call.input.command = .ok events := by
  have consistent := DispatchWorld.Consistent.of_reachable reachable
  have after := (consistent.step stepped).1
  obtain ⟨input, phase⟩ := call
  have enabled : ∃ log append, phase = .appending log append := by
    simp only [dispatchSystem, called] at stepped
    split at stepped
    · rename_i same
      cases same
      exact ⟨_, _, rfl⟩
    · cases stepped
  obtain ⟨log, append, rfl⟩ := enabled
  rcases world.append_cases consistent called stepped with
    ⟨sameStorage, -⟩ | ⟨commits, -, -⟩
  · exact absurd (congrArg storage.contents sameStorage) appends
  obtain ⟨lastSequence, extended⟩ := commits.extended
  obtain ⟨session, sessionReachable, sessionLog⟩ := consistent.sessions input.streamId
  have emitted := (Session.Sound.of_reachable sessionReachable).emitted
  rw [sessionLog] at emitted
  have sameStream : append.streamId = input.streamId := by rw [commits.prepared]; rfl
  rw [storage.events_eq _ _ consistent.exact, storage.events_eq _ _ after.exact,
    ← DispatchContents.events]
  refine ⟨DispatchInput.fenced emitted guarded commits.decided.owned,
    append.events.map Prod.snd, ?_, commits.decided.decided⟩
  rw [extended, ← sameStream, DispatchContents.stream_commit_self, map_append,
    AppendInput.stored, AppendInput.records_event]
  rfl

end Fence

def guardedStatus : DispatchInput :=
  { DispatchInput.plain "c7" "session" (.setStatus .running 7) with
    expectedAttempt := some
      { requireUninterrupted := true, turnId := "turn", attemptId := attemptIdFor "turn" 1 } }

/-- A turn is retried and settled, and another turn is started under its id. An
interruption of that turn fails, and then the guarded update is ready to append. -/
def restartedTurn : List DispatchStep :=
  uninterrupted 0 (.plain "c0" "session" (.createSession (.plain "session") none)) ["e0"] ++
    uninterrupted 1 (.plain "c1" "session" (.startTurn "turn" 1)) ["e1"] ++
    uninterrupted 2 (.plain "c2" "session" (.retryTurn "turn" .retry "input" none 2))
      ["e2", "e3", "e4"] ++
    uninterrupted 3 (.plain "c3" "session" (.settleTurn "turn" .completed 3)) ["e5", "e6"] ++
    uninterrupted 4 (.plain "c4" "session" (.startTurn "turn" 4)) ["e7"] ++
    uninterrupted 5 (.plain "c5" "session" (.requestTurnInterrupt (some "turn") 5)) ["e8"] ++
    uninterrupted 6 (.plain "c6" "session" (.failTurnInterrupt "turn" "reason" 6)) ["e9"] ++
    [.dispatch guardedStatus, .readReceipt 7, .readEvents 7, .makeEventIds 7 ["e10"]]

section RestartedTurn

abbrev RestartedWorld := DispatchWorld (InMemoryDispatchStorage SessionEvent)

@[reducible] def restartedSystem : TransitionSystem RestartedWorld DispatchStep :=
  @dispatchSystem rejectingCodec _ (inMemoryStorage SessionEvent)

def RestartedWorld.log (world : RestartedWorld) : List SessionEvent :=
  world.storage.eventLog.map (·.event)

@[reducible] def foldPlain (log : List SessionEvent) : SessionState :=
  @evolveAll rejectingCodec initialSessionState log

def secondAttempt : AttemptStartedEvent where
  turnId := "turn"
  attemptId := attemptIdFor "turn" 2
  ordinal := 2
  reason := .retry
  startedAt := 2
  turnOrdinal := 1
  providerThreadId := none
  turnRequestedAt := 1

/-- The guarded update appends, and which attempts and phases its log went through. -/
def RestartedWorld.observed (world : RestartedWorld) : Bool :=
  Decidable.decide ((world.calls[7]?).map (·.input) = some guardedStatus) &&
    Decidable.decide ((restartedSystem.step world (.append 7)).map (·.log.length) =
      some (world.log.length + 1)) &&
    Decidable.decide (((foldPlain (world.log.take 2)).turns.get? "turn").map
      (·.activeAttemptId) = some (attemptIdFor "turn" 1)) &&
    Decidable.decide (world.log[2]? = some (.attemptStarted secondAttempt)) &&
    Decidable.decide ((foldPlain (world.log.take 9)).currentTurnPhase = some .interruptRequested)

theorem restartedTurn_observed :
    (restartedSystem.run restartedTurn).map RestartedWorld.observed = some true := by
  decide +kernel

/-- The update appends although its attempt was superseded by the second one before
and although the phase of the turn left running before. -/
theorem restartedTurn_appends :
    ∃ world next : RestartedWorld, ∃ call, restartedSystem.run restartedTurn = some world ∧
      world.calls[7]? = some call ∧ call.input = guardedStatus ∧
      restartedSystem.step world (.append 7) = some next ∧
      next.log.length = world.log.length + 1 ∧
      ((foldPlain (world.log.take 2)).turns.get? "turn").map (·.activeAttemptId) =
        some (attemptIdFor "turn" 1) ∧
      world.log[2]? = some (.attemptStarted secondAttempt) ∧
      (foldPlain (world.log.take 9)).currentTurnPhase = some .interruptRequested := by
  obtain ⟨world, reached, observed⟩ := map_eq_some_iff.mp restartedTurn_observed
  simp only [RestartedWorld.observed, Bool.and_eq_true, decide_eq_true_eq] at observed
  obtain ⟨⟨⟨⟨called, stepped⟩, active⟩, second⟩, phase⟩ := observed
  obtain ⟨call, found, isGuarded⟩ := map_eq_some_iff.mp called
  obtain ⟨next, appended, grown⟩ := map_eq_some_iff.mp stepped
  exact ⟨world, next, call, reached, found, isGuarded, appended, grown, active, second, phase⟩

theorem fenced_of_restartedTurn :
    ∃ world : RestartedWorld, restartedSystem.run restartedTurn = some world ∧
      @Fenced rejectingCodec (((lawfulInMemoryStorage SessionEvent).events world.storage
        "session").map (·.event)) guardedStatus
        { requireUninterrupted := true, turnId := "turn",
          attemptId := attemptIdFor "turn" 1 } := by
  obtain ⟨world, reached, observed⟩ := map_eq_some_iff.mp restartedTurn_observed
  simp only [RestartedWorld.observed, Bool.and_eq_true, decide_eq_true_eq] at observed
  obtain ⟨⟨⟨⟨called, stepped⟩, -⟩, -⟩, -⟩ := observed
  obtain ⟨call, found, isGuarded⟩ := map_eq_some_iff.mp called
  obtain ⟨next, appended, grown⟩ := map_eq_some_iff.mp stepped
  have appends : (lawfulInMemoryStorage SessionEvent).contents next.storage ≠
      (lawfulInMemoryStorage SessionEvent).contents world.storage := by
    intro same
    have sameLog := congrArg (fun contents => contents.log.length) same
    simp only [RestartedWorld.log, length_map] at grown
    exact Nat.succ_ne_self _ (grown.symm.trans sameLog)
  have fenced := (@fenced_of_reachable rejectingCodec _
    (lawfulInMemoryStorage SessionEvent) world next 7 call _
    (TransitionSystem.run_reachable reached) found (by rw [isGuarded]; rfl) appended
    appends).1
  rw [isGuarded] at fenced
  exact ⟨world, reached, fenced⟩

end RestartedTurn

end Zuse.Domain
