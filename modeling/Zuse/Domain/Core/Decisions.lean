import Zuse.Domain.Core.WellFormed

namespace Zuse.Domain

open Zuse.Data List InsertionMap SessionState

/-! Every decision returns events that are emitted, and leaves the session rested. -/

def SessionEvent.creates : SessionEvent → Bool
  | .sessionCreated _ => true
  | _ => false

def SessionEvent.deletes : SessionEvent → Bool
  | .sessionDeleted _ => true
  | _ => false

namespace SessionState

def Live (state : SessionState) : Prop :=
  state.exists_ = true ∧ state.deleted = false

variable {state : SessionState} {event : SessionEvent}

theorem Emits.intro (live : state.Live) (permitted : state.Permits event) : state.Emits event := by
  cases event with
  | sessionCreated => exact permitted.elim
  | _ => exact ⟨live.1, live.2, permitted⟩

variable [PayloadCodec]

theorem deleted_apply (permitted : state.Permits event) (keepsSession : event.deletes = false) :
    (state.apply event).deleted = state.deleted := by
  by_cases executes : event.executes = true
  · exact congrArg Conversation.deleted (state.conversation_apply executes)
  cases event with
  | sessionCreated | sessionResumeSet => exact permitted.elim
  | sessionDeleted => cases keepsSession
  | queuedTurnUpdated queueId inputJson updatedAt ready =>
    obtain ⟨_, changed⟩ :=
      state.apply_queuedTurnUpdated_changes queueId inputJson updatedAt ready
    rw [changed]
  | _ => first | rfl | exact absurd rfl executes

theorem Live.evolve (live : state.Live) (permitted : state.Permits event)
    (keepsSession : event.deletes = false) : (Domain.evolve state event).Live :=
  ⟨exists_evolve (.intro live permitted), (deleted_apply permitted keepsSession).trans live.2⟩

end SessionState

def SessionEvent.keepsRest : SessionEvent → Bool
  | .turnSettled .. | .successorTurnScheduled .. => false
  | _ => true

variable [PayloadCodec] {state : SessionState} {event : SessionEvent}

theorem SessionState.Rested.evolve (rested : state.Rested)
    (permitted : state.Permits event) (keepsRest : event.keepsRest = true) :
    (Domain.evolve state event).Rested := by
  change (state.apply event).Rested
  by_cases adjusts : event.adjusts = true
  · obtain ⟨_, _, _, _, _, changed⟩ := state.apply_adjusts adjusts
    rw [changed]
    exact rested
  cases event with
  | sessionCreated | sessionResumeSet => exact permitted.elim
  | turnSettled | successorTurnScheduled => cases keepsRest
  | sessionProviderSet providerId model updatedAt =>
    obtain ⟨_, changed⟩ := state.retireActiveProviderThread_changes updatedAt
    rw [apply, changed]
    exact rested
  | sessionWorktreeSet worktreeId updatedAt =>
    obtain ⟨_, _, _, changed⟩ := state.apply_sessionWorktreeSet_changes worktreeId updatedAt
    rw [changed]
    exact rested
  | turnStarted started =>
    intro idle
    cases idle
  | queuedTurnUpdated queueId inputJson updatedAt ready =>
    obtain ⟨_, changed⟩ :=
      state.apply_queuedTurnUpdated_changes queueId inputJson updatedAt ready
    rw [changed]
    exact rested
  | scheduledSuccessorReady => exact fun _ => rfl
  | _ => first | exact rested | exact absurd rfl adjusts
/-- A decision that may be taken: its events are emitted and the session rests
after them. -/
structure Lawful (state : SessionState) (events : List SessionEvent) : Prop where
  emitted : EmitsAll state events
  rested : (evolveAll state events).Rested

variable {rest : List SessionEvent}

namespace Lawful

variable {state : SessionState}

theorem nil (rested : state.Rested) : Lawful state [] := ⟨trivial, rested⟩

theorem cons (emitted : state.Emits event) (later : Lawful (evolve state event) rest) :
    Lawful state (event :: rest) :=
  ⟨⟨emitted, later.emitted⟩, later.rested⟩

theorem append {before after : List SessionEvent} (emitted : EmitsAll state before)
    (later : Lawful (evolveAll state before) after) : Lawful state (before ++ after) :=
  ⟨(emitsAll_append ..).mpr ⟨emitted, later.emitted⟩, by rw [evolveAll_append]; exact later.rested⟩

theorem single (live : state.Live) (rested : state.Rested)
    (permitted : state.Permits event) (keepsRest : event.keepsRest = true) : Lawful state [event] :=
  .cons (.intro live permitted) (.nil (rested.evolve permitted keepsRest))

end Lawful

structure Ready (state : SessionState) : Prop where
  wellFormed : state.WellFormed
  rested : state.Rested
  live : state.Live

namespace Ready

variable {state : SessionState} {event : SessionEvent}

section

variable (ready : Ready state)
include ready

theorem evolve (permitted : state.Permits event)
    (keepsSession : event.deletes = false) (keepsRest : event.keepsRest = true) :
    Ready (Domain.evolve state event) where
  wellFormed := ready.wellFormed.evolve (.intro ready.live permitted)
  rested := ready.rested.evolve permitted keepsRest
  live := ready.live.evolve permitted keepsSession

theorem single (permitted : state.Permits event) (keepsRest : event.keepsRest = true) :
    Lawful state [event] :=
  .single ready.live ready.rested permitted keepsRest

theorem cons (permitted : state.Permits event) (later : Lawful (Domain.evolve state event) rest) :
    Lawful state (event :: rest) :=
  .cons (.intro ready.live permitted) later

theorem nil : Lawful state [] := .nil ready.rested

theorem persist (message : MessageFields) :
    Ready (Domain.evolve state (.messagePersisted message)) := by
  have permitted : state.Permits (.messagePersisted message) := trivial
  exact ready.evolve permitted rfl rfl

variable {events : List SessionEvent} {condition : Prop}

theorem skipIf [Decidable condition]
    (decided : (if condition then .ok [] else .ok [event] : Decision) = .ok events)
    (permitted : ¬condition → state.Permits event) (keepsRest : event.keepsRest = true) :
    Lawful state events := by
  split at decided
  · cases decided
    exact ready.nil
  · cases decided
    exact ready.single (permitted ‹_›) keepsRest

theorem emitIf [Decidable condition]
    (decided : (if condition then .ok [event] else .ok [] : Decision) = .ok events)
    (permitted : condition → state.Permits event) (keepsRest : event.keepsRest = true) :
    Lawful state events := by
  split at decided
  · cases decided
    exact ready.single (permitted ‹_›) keepsRest
  · cases decided
    exact ready.nil

theorem emitOrFail [Decidable condition] {failure : DomainError}
    (decided : (if condition then .ok [event] else .error failure : Decision) = .ok events)
    (permitted : condition → state.Permits event) (keepsRest : event.keepsRest = true) :
    Lawful state events := by
  split at decided
  · cases decided
    exact ready.single (permitted ‹_›) keepsRest
  · cases decided

end

end Ready

theorem evolveAll_providerStopRequests (state : SessionState) (requestedAt : Millis)
    (targets : List (Option String × String)) :
    ∃ reservation version,
      evolveAll state (targets.map fun target =>
          .providerStopRequested target.2 target.1 requestedAt) =
        { state with providerReservation := reservation, version } := by
  induction targets generalizing state with
  | nil => exact ⟨_, _, rfl⟩
  | cons target rest ih =>
    obtain ⟨reservation, version, equal⟩ :=
      ih (evolve state (.providerStopRequested target.2 target.1 requestedAt))
    exact ⟨reservation, version, equal⟩

theorem evolveAll_providerStops (state : SessionState) (requestedAt : Millis) :
    ∃ reservation version, evolveAll state (providerStops state requestedAt) =
      { state with providerReservation := reservation, version } :=
  evolveAll_providerStopRequests state requestedAt (providerStopTargets state).entries

theorem Ready.providerStopRequests (ready : Ready state) (requestedAt : Millis)
    (targets : List (Option String × String)) :
    EmitsAll state (targets.map fun target =>
        .providerStopRequested target.2 target.1 requestedAt) ∧
      Ready (evolveAll state (targets.map fun target =>
        .providerStopRequested target.2 target.1 requestedAt)) := by
  induction targets generalizing state with
  | nil => exact ⟨trivial, ready⟩
  | cons target rest ih =>
    have permitted : state.Permits (.providerStopRequested target.2 target.1 requestedAt) := trivial
    obtain ⟨emitted, later⟩ := ih (ready.evolve permitted rfl rfl)
    exact ⟨⟨.intro ready.live permitted, emitted⟩, later⟩

variable {state : SessionState}

theorem Ready.providerStops (ready : Ready state) (requestedAt : Millis) :
    EmitsAll state (providerStops state requestedAt) ∧
      Ready (evolveAll state (Domain.providerStops state requestedAt)) :=
  ready.providerStopRequests requestedAt (providerStopTargets state).entries

variable {turnId : String}

namespace SessionState

variable {state : SessionState}

theorem Current.statusSet {turn : TurnState}
    (wellFormed : state.WellFormed) (current : state.Current turnId turn)
    (status : SessionStatus) (updatedAt : Millis) :
    ∃ next, (evolve state (.sessionStatusSet status updatedAt)).Current turnId next ∧
      next.activeAttemptId = turn.activeAttemptId := by
  have found : state.currentTurn = some turn := by
    rw [currentTurn, current.1]
    exact current.2
  have sameId := wellFormed.owned.table.turnId turnId turn current.2
  have applied : ∃ next, (state.applySessionStatusSet status).Current turnId next ∧
      next.activeAttemptId = turn.activeAttemptId := by
    rw [applySessionStatusSet, found]
    simp only
    split
    · refine ⟨{ turn with status := .running }, ⟨current.1, ?_⟩, rfl⟩
      simp [withTurn, sameId]
    · exact ⟨turn, current, rfl⟩
  exact applied

theorem Permits.turnStarted_current {started : TurnStartedEvent}
    (permitted : state.Permits (.turnStarted started)) :
    ∃ turn, (evolve state (.turnStarted started)).Current started.turnId turn ∧
      turn.activeAttemptId = attemptIdFor started.turnId 1 := by
  obtain ⟨-, -, hasOrdinal, hasAttempt, -⟩ := permitted
  obtain ⟨_, equal⟩ := state.execution_applyTurnStarted hasOrdinal hasAttempt
  have current := congrArg Execution.currentTurnId equal
  have found := congrArg (fun execution => execution.turns.get? started.turnId) equal
  simp only [get?_set_self] at found
  exact ⟨_, ⟨current, found⟩, rfl⟩

theorem Permits.attemptStarted_current {started : AttemptStartedEvent}
    (wellFormed : state.WellFormed) (permitted : state.Permits (.attemptStarted started)) :
    ∃ turn, (evolve state (.attemptStarted started)).Current started.turnId turn ∧
      turn.activeAttemptId = started.attemptId := by
  obtain ⟨turn, current, -⟩ := permitted
  have sameId := wellFormed.owned.table.turnId _ turn current.2
  have applied : ∃ next, (state.applyAttemptStarted started).Current started.turnId next ∧
      next.activeAttemptId = started.attemptId := by
    rw [applyAttemptStarted, current.2]
    exact ⟨_, ⟨current.1, by simp [withTurn, sameId]; rfl⟩, rfl⟩
  exact applied

end SessionState

variable {thread : ProviderThreadState}

namespace Ready

variable {state : SessionState} {events : List SessionEvent} {turnId : String}

omit [PayloadCodec] in
theorem currentTurn (ready : Ready state) (isCurrent : state.currentTurnId = some turnId) :
    ∃ turn, state.Current turnId turn := by
  obtain ⟨turn, current, -⟩ := ready.wellFormed.owned.currentTurn isCurrent
  exact ⟨turn, current⟩

variable {turn : TurnState}

omit [PayloadCodec] in
theorem activeAttemptOrFirst (current : state.Current turnId turn) :
    Domain.activeAttemptOrFirst state turnId = turn.activeAttemptId := by
  rw [Domain.activeAttemptOrFirst, current.2]
  rfl

theorem startAttempt (ready : Ready state) {started : AttemptStartedEvent}
    (permitted : state.Permits (.attemptStarted started)) (updatedAt : Millis)
    {request : SessionEvent}
    (requested : ∀ next : SessionState, (∃ turn, next.Current started.turnId turn ∧
      turn.activeAttemptId = started.attemptId) → next.Permits request)
    (keepsRest : request.keepsRest = true) :
    Lawful state [.attemptStarted started, .sessionStatusSet .booting updatedAt, request] := by
  have first := ready.evolve permitted rfl rfl
  obtain ⟨turn, current, active⟩ := permitted.attemptStarted_current ready.wellFormed
  obtain ⟨next, nextCurrent, nextActive⟩ :=
    current.statusSet first.wellFormed .booting updatedAt
  have statusPermitted : (Domain.evolve state (.attemptStarted started)).Permits
      (.sessionStatusSet .booting updatedAt) := trivial
  have second := first.evolve statusPermitted rfl rfl
  refine ready.cons permitted (first.cons statusPermitted (second.single ?_ keepsRest))
  exact requested _ ⟨next, nextCurrent, nextActive.trans active⟩

omit [PayloadCodec] in
theorem startTurn (ready : Ready state) (startedAt : Millis) (idle : state.currentTurnId = none) :
    state.Permits (startedTurn state turnId startedAt) :=
  ⟨idle, ready.rested idle, rfl, rfl, .inr rfl⟩

variable {later : List SessionEvent}

theorem openTurn (ready : Ready state) {started : TurnStartedEvent}
    (permitted : state.Permits (.turnStarted started)) (updatedAt : Millis)
    (follows : ∀ next : SessionState, Ready next →
      (∃ turn, next.Current started.turnId turn ∧
        turn.activeAttemptId = attemptIdFor started.turnId 1) → Lawful next later) :
    Lawful state (.turnStarted started :: .sessionStatusSet .booting updatedAt :: later) := by
  have first := ready.evolve permitted rfl rfl
  obtain ⟨turn, current, active⟩ := permitted.turnStarted_current
  obtain ⟨next, nextCurrent, nextActive⟩ :=
    current.statusSet first.wellFormed .booting updatedAt
  have statusPermitted : (Domain.evolve state (.turnStarted started)).Permits
      (.sessionStatusSet .booting updatedAt) := trivial
  have second := first.evolve statusPermitted rfl rfl
  refine ready.cons permitted (first.cons statusPermitted ?_)
  exact follows _ second ⟨next, nextCurrent, nextActive.trans active⟩

variable {updatedAt : Millis}

theorem setTitle (ready : Ready state) {title : String}
    {titleProvenance : Option TitleProvenance}
    (decided : decideSetTitle state title titleProvenance updatedAt = .ok events) :
    Lawful state events := by
  unfold decideSetTitle at decided
  simp only at decided
  split at decided
  · cases decided
  · split at decided
    · cases decided
      exact ready.nil
    · exact ready.skipIf decided (fun _ => trivial) rfl

variable {attemptId : String}

omit [PayloadCodec] in
theorem ownedTurn_eq_some :
    ownedTurn state turnId attemptId = some turn ↔
      state.Current turnId turn ∧ turn.activeAttemptId = attemptId := by
  unfold ownedTurn
  split
  · rename_i isCurrent
    simp [Current, isCurrent, Option.filter_eq_some_iff]
  · rename_i notCurrent
    simp [Current, notCurrent]

theorem bindAttemptProviderTurn (ready : Ready state)
    {reference : ProviderTurnReference} {boundAt : Millis}
    (decided : decideBindAttemptProviderTurn state turnId attemptId reference boundAt =
      .ok events) : Lawful state events := by
  unfold decideBindAttemptProviderTurn at decided
  split at decided
  · cases decided
  rename_i owns
  split at decided
  · cases decided
  rename_i valid
  split at decided
  · split at decided
    · cases decided
      exact ready.nil
    · cases decided
  rename_i unbound
  split at decided
  · cases decided
  rename_i unshared
  cases decided
  simp only [not_or, Option.isNone_iff_eq_none, Bool.not_eq_true] at owns
  obtain ⟨turn, found⟩ := Option.ne_none_iff_exists'.mp owns.1
  simp only [not_or, not_not] at valid
  refine ready.single ⟨⟨turn, ownedTurn_eq_some.mp found⟩, unbound, ?_, valid.1, owns.2⟩ rfl
  intro other bound
  apply unshared
  rw [any_eq_true]
  refine ⟨(other, reference), mem_entries.mpr bound, ?_⟩
  have different : other ≠ attemptId := by
    rintro rfl
    rw [unbound] at bound
    cases bound
  simp [different]

variable {requestedAt : Millis} {expectedAttemptId : String}

theorem recoverTurn (ready : Ready state)
    (decided : decideRecoverTurn state turnId expectedAttemptId requestedAt = .ok events) :
    Lawful state events := by
  unfold decideRecoverTurn at decided
  split at decided
  · cases decided
  rename_i turn found
  obtain ⟨current, active⟩ := ownedTurn_eq_some.mp found
  simp only at decided
  split at decided
  · cases decided
  split at decided
  · cases decided
  split at decided
  · cases decided
  rename_i notFinalizing
  cases decided
  obtain ⟨stops, stopped⟩ := ready.providerStops requestedAt
  obtain ⟨reservation, version, equal⟩ := evolveAll_providerStops state requestedAt
  refine .append stops ?_
  rw [equal] at stopped ⊢
  have permitted : { state with
      providerReservation := reservation, version := version }.Permits
        (.attemptStarted (nextAttempt turn turnId .providerRecovery requestedAt)) :=
    ⟨turn, current, notFinalizing, rfl, rfl, (fun initial => by cases initial), rfl, rfl, rfl⟩
  exact stopped.startAttempt permitted requestedAt (fun next known => known) rfl

variable {providerInputJson : String} {providerStartJson : Option String}

theorem retryTurn (ready : Ready state) {reason : RetryReason}
    (decided : decideRetryTurn state turnId reason providerInputJson providerStartJson
      requestedAt = .ok events) : Lawful state events := by
  unfold decideRetryTurn at decided
  split at decided
  · cases decided
  rename_i isCurrent
  rw [not_not] at isCurrent
  split at decided
  · cases decided
  rename_i turn found
  split at decided
  · cases decided
  rename_i notFinalizing
  cases decided
  have notInitial : reason.attemptReason ≠ .initial := by
    cases reason <;> decide
  have permitted : state.Permits (.attemptStarted
      (nextAttempt turn turnId reason.attemptReason requestedAt)) :=
    ⟨turn, ⟨isCurrent, found⟩, notFinalizing, rfl, rfl, notInitial, rfl, rfl, rfl⟩
  refine ready.startAttempt permitted requestedAt ?_ rfl
  rintro next ⟨nextTurn, current, active⟩
  exact ⟨nextTurn, current, congrArg some active⟩

omit [PayloadCodec] in
theorem notCurrent_ok (decided : Domain.notCurrent state turnId = .ok events) : events = [] := by
  unfold Domain.notCurrent at decided
  split at decided <;> cases decided
  rfl

theorem settleSegments (ready : Ready state) (outcome : SettlementOutcome)
    (settledAt : Millis) {segments : List (String × OpenSegment)}
    (distinct : (segments.map Prod.fst).Nodup) (present : ∀ entry ∈ segments,
      state.openSegments.get? entry.1 = some entry.2 ∧ entry.2.turnId = turnId) :
    EmitsAll state (segments.map fun entry =>
        .segmentSettled turnId entry.1 outcome settledAt) ∧
      ∃ remaining version,
        evolveAll state (segments.map fun entry =>
            .segmentSettled turnId entry.1 outcome settledAt) =
          { state with openSegments := remaining, version } ∧
        ∀ id, remaining.get? id =
          if id ∈ segments.map Prod.fst then none else state.openSegments.get? id := by
  induction segments generalizing state with
  | nil => exact ⟨trivial, state.openSegments, state.version, rfl, by simp⟩
  | cons entry rest ih =>
    obtain ⟨absent, restDistinct⟩ := nodup_cons.mp distinct
    obtain ⟨found, owner⟩ := present entry mem_cons_self
    have permitted : state.Permits (.segmentSettled turnId entry.1 outcome settledAt) :=
      ⟨entry.2, found, owner⟩
    have next := ready.evolve permitted rfl rfl
    have stillPresent : ∀ other ∈ rest,
        (Domain.evolve state (.segmentSettled turnId entry.1 outcome
          settledAt)).openSegments.get? other.1 = some other.2 ∧
        other.2.turnId = turnId := by
      intro other member
      have different : entry.1 ≠ other.1 := fun same =>
        absent (same ▸ mem_map.mpr ⟨other, member, rfl⟩)
      obtain ⟨kept, owned⟩ := present other (mem_cons_of_mem _ member)
      refine ⟨?_, owned⟩
      change (state.openSegments.delete entry.1).get? other.1 = _
      rw [get?_delete, if_neg different, kept]
    obtain ⟨emitted, remaining, version, equal, lookup⟩ := ih next restDistinct stillPresent
    refine ⟨⟨.intro ready.live permitted, emitted⟩, remaining, version, equal, ?_⟩
    intro id
    rw [lookup]
    change (if _ then none else (state.openSegments.delete entry.1).get? id) = _
    by_cases inRest : id ∈ rest.map Prod.fst
    · simp [inRest]
    · by_cases same : entry.1 = id
      · simp [same]
      · simp [inRest, same, Ne.symm same]

theorem endTurn (live : state.Live) (current : state.Current turnId turn)
    (closed : ∀ segmentId, state.openSegments.get? segmentId = none)
    (waits : ∀ successor, state.scheduledSuccessor = some successor →
      successor.predecessorTurnId = turnId) (outcome : SettlementOutcome)
    (status : SessionStatus) (settledAt : Millis) :
    Lawful state (.turnSettled turnId outcome settledAt ::
      .sessionStatusSet status settledAt :: releaseSuccessor state turnId settledAt) := by
  have settledPermitted : state.Permits (.turnSettled turnId outcome settledAt) :=
    ⟨⟨turn, current⟩, closed⟩
  have settledLive := live.evolve settledPermitted rfl
  obtain ⟨_, _, settled⟩ := state.applyTurnSettled_changes turnId outcome settledAt
  generalize ended : Domain.evolve state (.turnSettled turnId outcome settledAt) = settledState
    at settledLive
  have idle : settledState.currentTurnId = none := by
    rw [← ended]
    change (state.applyTurnSettled turnId outcome settledAt).currentTurnId = _
    rw [settled]
  have successor : settledState.scheduledSuccessor = state.scheduledSuccessor := by
    rw [← ended]
    change (state.applyTurnSettled turnId outcome settledAt).scheduledSuccessor = _
    rw [settled]
  have statusPermitted : settledState.Permits (.sessionStatusSet status settledAt) :=
    trivial
  have lastLive := settledLive.evolve statusPermitted rfl
  obtain ⟨_, _, changed⟩ := settledState.applySessionStatusSet_changes status
  generalize reported : Domain.evolve settledState (.sessionStatusSet status settledAt) =
    last at lastLive
  have lastIdle : last.currentTurnId = none := by
    rw [← reported]
    change (settledState.applySessionStatusSet status).currentTurnId = _
    rw [changed]
    exact idle
  have lastSuccessor : last.scheduledSuccessor = state.scheduledSuccessor := by
    rw [← reported]
    change (settledState.applySessionStatusSet status).scheduledSuccessor = _
    rw [changed]
    exact successor
  refine .cons (.intro live settledPermitted) ?_
  rw [ended]
  refine .cons (.intro settledLive statusPermitted) ?_
  rw [reported, releaseSuccessor]
  split
  · rename_i free
    exact .nil fun _ => lastSuccessor.trans free
  · rename_i parked scheduled
    rw [if_pos (waits parked scheduled)]
    exact .cons (.intro lastLive ⟨lastIdle, lastSuccessor.trans scheduled⟩) (.nil fun _ => rfl)

section

variable (ready : Ready state)
include ready

theorem settlement (isCurrent : state.currentTurnId = some turnId)
    (outcome : SettlementOutcome) (status : SessionStatus) (settledAt : Millis) :
    Lawful state (settleOpenSegments state turnId outcome settledAt ++
      [.turnSettled turnId outcome settledAt, .sessionStatusSet status settledAt] ++
      releaseSuccessor state turnId settledAt) := by
  have ownsSegments : ∀ id segment, state.openSegments.get? id = some segment →
      segment.turnId = turnId := by
    intro id segment found
    have owner : state.currentTurnId = some segment.turnId :=
      ready.wellFormed.owned.segments id segment found
    rw [isCurrent] at owner
    exact (Option.some.inj owner).symm
  have waits : ∀ successor, state.scheduledSuccessor = some successor →
      successor.predecessorTurnId = turnId := by
    intro successor scheduled
    have waitsFor : state.currentTurnId = none ∨
        state.currentTurnId = some successor.predecessorTurnId :=
      ready.wellFormed.owned.successor successor scheduled
    rw [isCurrent] at waitsFor
    rcases waitsFor with idle | same
    · cases idle
    · exact (Option.some.inj same).symm
  have distinct := state.openSegments.nodup.sublist
    ((filter_sublist (p := fun entry => entry.2.turnId = turnId)).map Prod.fst)
  have present : ∀ entry ∈ state.openSegments.entries.filter fun entry => entry.2.turnId = turnId,
      state.openSegments.get? entry.1 = some entry.2 ∧ entry.2.turnId = turnId := by
    intro entry member
    obtain ⟨inEntries, owner⟩ := mem_filter.mp member
    exact ⟨mem_entries.mp inEntries, by simpa using owner⟩
  obtain ⟨emitted, remaining, version, equal, lookup⟩ :=
    ready.settleSegments outcome settledAt distinct present
  have closed : ∀ id, remaining.get? id = none := by
    intro id
    rw [lookup]
    split
    · rfl
    rename_i notListed
    rw [Option.eq_none_iff_forall_ne_some]
    intro segment found
    apply notListed
    refine mem_map.mpr ⟨(id, segment), mem_filter.mpr ⟨?_, ?_⟩, rfl⟩
    · exact mem_entries.mpr found
    · simpa using ownsSegments id segment found
  obtain ⟨turn, current⟩ := ready.currentTurn isCurrent
  rw [append_assoc]
  refine .append emitted ?_
  rw [settleOpenSegments, equal]
  have live : { state with openSegments := remaining, version := version }.Live :=
    ready.live
  have stillCurrent : { state with openSegments := remaining, version := version }.Current
      turnId turn := current
  exact endTurn live stillCurrent closed waits outcome status settledAt

variable {outcome : SettlementOutcome} {settledAt : Millis}

theorem settleTurn (decided : decideSettleTurn state turnId outcome settledAt = .ok events) :
    Lawful state events := by
  unfold decideSettleTurn at decided
  split at decided
  · rw [notCurrent_ok decided]
    exact ready.nil
  · rename_i isCurrent
    rw [not_not] at isCurrent
    cases decided
    exact ready.settlement isCurrent outcome _ settledAt

theorem expireAttempt {expiredAt : Millis}
    (decided : decideExpireAttempt state turnId expectedAttemptId expiredAt = .ok events) :
    Lawful state events := by
  unfold decideExpireAttempt at decided
  split at decided
  · cases decided
  rename_i turn found
  have isCurrent := (ownedTurn_eq_some.mp found).1.1
  split at decided
  · rename_i recovery recovered
    cases decided
    exact ready.recoverTurn recovered
  simp only at decided
  split at decided
  · cases decided
  rename_i settlement settled
  rw [decideSettleTurn, if_neg (not_not.mpr isCurrent)] at settled
  cases settled
  cases decided
  obtain ⟨stops, stopped⟩ := ready.providerStops expiredAt
  obtain ⟨reservation, version, equal⟩ := evolveAll_providerStops state expiredAt
  rw [append_assoc]
  refine .append stops ?_
  rw [equal] at stopped ⊢
  split
  · exact stopped.settlement isCurrent _ _ expiredAt
  · exact stopped.cons trivial ((stopped.persist _).settlement isCurrent _ _ expiredAt)

omit [PayloadCodec] in
theorem interrupt (isCurrent : state.currentTurnId = some turnId)
    (notPending : interruptPending state = false) (requestedAt : Millis) :
    state.Permits (.turnInterruptRequested turnId
      (some (Domain.activeAttemptOrFirst state turnId)) requestedAt) := by
  obtain ⟨turn, current⟩ := ready.currentTurn isCurrent
  obtain ⟨-, same, hasPhase⟩ := ready.wellFormed.owned.current_active current
  rw [same] at hasPhase
  have running : state.currentTurnPhase = some .running := by
    unfold interruptPending at notPending
    cases phase : state.currentTurnPhase with
    | none => simp [phase] at hasPhase
    | some value =>
      cases value with
      | running => rfl
      | interruptRequested | interruptAcknowledged => simp [phase] at notPending
  exact ⟨turn, current, running, congrArg some (activeAttemptOrFirst current).symm⟩

variable {successor : ScheduledSuccessor}

theorem park (scheduledAt : Millis)
    (isCurrent : state.currentTurnId = some successor.predecessorTurnId) :
    Lawful state [.successorTurnScheduled successor scheduledAt] := by
  have permitted : state.Permits (.successorTurnScheduled successor scheduledAt) :=
    .inr isCurrent
  refine ready.cons permitted (.nil fun idle => ?_)
  cases isCurrent.symm.trans idle

theorem handOver (scheduledAt : Millis) (idle : state.currentTurnId = none) :
    Lawful state [.successorTurnScheduled successor scheduledAt,
      .scheduledSuccessorReady successor scheduledAt] := by
  have permitted : state.Permits (.successorTurnScheduled successor scheduledAt) :=
    .inl idle
  have live := ready.live.evolve permitted rfl
  have released : (Domain.evolve state
      (.successorTurnScheduled successor scheduledAt)).Permits
        (.scheduledSuccessorReady successor scheduledAt) := ⟨idle, rfl⟩
  exact ready.cons permitted (.cons (.intro live released) (.nil fun _ => rfl))

variable {queueId : String}

theorem claim {queued : QueuedTurn}
    (found : state.queuedTurns.get? queueId = some queued) (claimedAt : Millis)
    (follows : ∀ next : SessionState, Ready next → next.execution = state.execution →
      Lawful next later) :
    Lawful state (.queuedTurnClaimed queueId claimedAt :: later) := by
  have permitted : state.Permits (.queuedTurnClaimed queueId claimedAt) :=
    has_eq_true.mpr ⟨queued, found⟩
  exact ready.cons permitted (follows _ (ready.evolve permitted rfl rfl) rfl)

variable {expectedTurnId : String}

theorem steerQueuedTurn {successorTurnId : String}
    (decided : decideSteerQueuedTurn state expectedTurnId queueId successorTurnId
      requestedAt = .ok events) : Lawful state events := by
  unfold decideSteerQueuedTurn at decided
  split at decided
  · rename_i isCurrent
    split at decided
    · cases decided
    · rename_i queued found
      cases decided
      refine ready.claim found requestedAt fun next nextReady same => ?_
      have phase := congrArg Execution.currentTurnPhase same
      have turns := congrArg Execution.turns same
      have nextCurrent : next.currentTurnId = some expectedTurnId :=
        (congrArg Execution.currentTurnId same).trans isCurrent
      simp only [execution] at phase turns
      rw [interruptPending, Domain.activeAttemptOrFirst, ← phase, ← turns]
      split
      · exact nextReady.park requestedAt nextCurrent
      · rename_i notPending
        have permitted := nextReady.interrupt nextCurrent
          (by simpa [interruptPending] using notPending) requestedAt
        have interrupted := nextReady.evolve permitted rfl rfl
        obtain ⟨_, _, changed⟩ := next.withTurnPhase_changes expectedTurnId .interruptRequested
        refine nextReady.cons permitted (interrupted.park requestedAt ?_)
        change (next.withTurnPhase expectedTurnId .interruptRequested).currentTurnId = _
        rw [changed]
        exact nextCurrent
  · split at decided
    · rename_i settled
      split at decided
      · cases decided
      · rename_i queued found
        cases decided
        refine ready.claim found requestedAt fun next nextReady same => ?_
        exact nextReady.handOver requestedAt
          ((congrArg Execution.currentTurnId same).trans settled.1)
    · cases decided

end

omit [PayloadCodec] in
theorem retired_firstTurnOrdinal (at_ : Millis)
    (threads : ThreadsBound state.sessionIdText state.providerThreads
      state.activeProviderThreadId) (id : String) :
    ((state.retireActiveProviderThread at_).providerThreads.get? id).map (·.firstTurnOrdinal) =
      (state.providerThreads.get? id).map (·.firstTurnOrdinal) := by
  unfold retireActiveProviderThread
  split
  · rfl
  rename_i active found
  obtain ⟨activeId, -, present⟩ := Option.bind_eq_some_iff.mp found
  have sameId := (threads.threadId activeId active present).1
  simp only [get?_set]
  split
  · rename_i same
    rw [← same, sameId, present]
    rfl
  · rfl

theorem activateThread (ready : Ready state)
    (updatedAt : Millis) (update : state.Permits (.providerThreadUpdated thread))
    (follows : ∀ next : SessionState, Ready next → next.execution = state.execution →
      next.activeProviderThreadId = some thread.id → Lawful next later) :
    Lawful state (.providerThreadUpdated thread ::
      .activeProviderThreadSet (some thread.id) updatedAt :: later) := by
  have isScoped : scopeProviderThreadId state.sessionIdText thread.id = thread.id :=
    update.1
  have updated := ready.evolve update rfl rfl
  have sessionId := sessionIdText_evolve update
  have stored : ∃ value, (Domain.evolve state
      (.providerThreadUpdated thread)).providerThreads.get? thread.id = some value := by
    change ∃ value, (state.apply (.providerThreadUpdated thread)).providerThreads.get?
      thread.id = some value
    simp only [apply, withProviderThread, isScoped]
    exact ⟨_, get?_set_self _ _ _⟩
  have activate : (Domain.evolve state (.providerThreadUpdated thread)).Permits
      (.activeProviderThreadSet (some thread.id) updatedAt) := by
    intro id same
    cases same
    exact ⟨isScoped, has_eq_true.mpr stored⟩
  refine ready.cons update (updated.cons activate
    (follows _ (updated.evolve activate rfl rfl) rfl ?_))
  change (some thread.id).map (scopeProviderThreadId (Domain.evolve state
    (.providerThreadUpdated thread)).sessionIdText) = _
  rw [Option.map_some, sessionId, isScoped]

theorem reportStatus (ready : Ready state) (status : SessionStatus) (updatedAt : Millis) :
    Lawful state [.sessionStatusSet status updatedAt] := by
  have permitted : state.Permits (.sessionStatusSet status updatedAt) := trivial
  exact ready.single permitted rfl

theorem marker (ready : Ready state) {toProviderId : Option String} {toModel : String}
    {origin : SessionState}
    (follows : ∀ next : SessionState, Ready next → next.execution = state.execution →
      next.queuedTurns = state.queuedTurns →
      next.providerThreads = state.providerThreads →
      next.sessionIdText = state.sessionIdText → Lawful next later) :
    Lawful state (modelSwitchMarker origin toProviderId toModel updatedAt ++ later) := by
  unfold modelSwitchMarker
  split
  · split
    · exact follows state ready rfl rfl rfl rfl
    · exact ready.cons trivial (follows _ (ready.persist _) rfl rfl rfl rfl)
  · exact follows state ready rfl rfl rfl rfl

omit [PayloadCodec] in
theorem notBusy (notBusy : busyForSwitch state = false) :
    state.currentTurnId = none ∧ state.queuedTurns.size = 0 := by
  simpa [busyForSwitch] using notBusy

variable {model : String}

section

variable (ready : Ready state)
include ready

theorem setModel
    (decided : decideSetModel state model updatedAt = .ok events) : Lawful state events := by
  unfold decideSetModel at decided
  split at decided
  · cases decided
    exact ready.nil
  split at decided
  · cases decided
  rename_i free
  obtain ⟨idle, empty⟩ := notBusy (Bool.eq_false_of_not_eq_true free)
  cases decided
  obtain ⟨stops, stopped⟩ := ready.providerStops updatedAt
  obtain ⟨reservation, version, equal⟩ := evolveAll_providerStops state updatedAt
  rw [equal] at stopped
  simp only [switchEvents, append_assoc]
  refine .append stops ?_
  rw [equal]
  refine stopped.marker fun next nextReady same queue _ _ => ?_
  have permitted : next.Permits (.sessionModelSet model updatedAt) := by
    refine ⟨(congrArg Execution.currentTurnId same).trans idle, ?_⟩
    rw [queue]
    exact empty
  exact nextReady.cons permitted ((nextReady.evolve permitted rfl rfl).reportStatus .idle updatedAt)

variable {providerId : String}

theorem setProvider {resumeThreadId : Option String}
    {expectedProviderThreadId : Option (Option String)}
    (decided : decideSetProvider state resumeThreadId expectedProviderThreadId providerId
      model updatedAt = .ok events) : Lawful state events := by
  unfold decideSetProvider at decided
  simp only at decided
  split at decided
  · cases decided
    exact ready.nil
  split at decided
  · cases decided
  rename_i free
  obtain ⟨idle, empty⟩ := notBusy (Bool.eq_false_of_not_eq_true free)
  split at decided
  · cases decided
  cases decided
  obtain ⟨stops, stopped⟩ := ready.providerStops updatedAt
  obtain ⟨reservation, version, equal⟩ := evolveAll_providerStops state updatedAt
  rw [equal] at stopped
  simp only [switchEvents, append_assoc]
  refine .append stops ?_
  rw [equal]
  refine stopped.marker fun next nextReady same queue threads sessionId => ?_
  have permitted : next.Permits (.sessionProviderSet providerId model updatedAt) := by
    refine ⟨(congrArg Execution.currentTurnId same).trans idle, ?_⟩
    rw [queue]
    exact empty
  have switched := nextReady.evolve permitted rfl rfl
  refine nextReady.cons permitted ?_
  cases found : resumeThreadId.bind state.providerThreads.get? with
  | none => exact switched.reportStatus .idle updatedAt
  | some resumed =>
    obtain ⟨threadId, -, present⟩ := Option.bind_eq_some_iff.mp found
    obtain ⟨sameId, isScoped⟩ := ready.wellFormed.thread_scoped present
    have first := retired_firstTurnOrdinal updatedAt nextReady.wellFormed.threads threadId
    rw [threads, present] at first
    let thread : ProviderThreadState := { resumed with status := .idle, updatedAt }
    have update : (Domain.evolve next
        (.sessionProviderSet providerId model updatedAt)).Permits
          (.providerThreadUpdated thread) := by
      constructor
      · rw [Scoped, sessionIdText_evolve permitted, sessionId]
        exact sameId ▸ isScoped
      · intro known knownFound _
        rw [sameId] at knownFound
        exact (Option.some.inj ((congrArg (Option.map
          (·.firstTurnOrdinal)) knownFound).symm.trans first)).symm
    exact switched.activateThread updatedAt update fun last lastReady _ _ =>
      lastReady.reportStatus .idle updatedAt

theorem bindProviderThread {nativeThreadId : String} {nativeHeadId : Option (Option String)}
    (decided : decideBindProviderThread state nativeThreadId nativeHeadId updatedAt =
      .ok events) : Lawful state events := by
  unfold decideBindProviderThread at decided
  simp only at decided
  split at decided
  · cases decided
    exact ready.nil
  generalize bound : ProviderThreadSnapshot.mk _ _ _ _ _ _ _ _ _ = thread at decided
  cases decided
  have update : state.Permits (.providerThreadUpdated thread) := by
    subst bound
    refine ⟨scopeProviderThreadId_for _ _ _, ?_⟩
    intro known found hasFirst
    obtain ⟨first, equal⟩ := Option.isSome_iff_exists.mp hasFirst
    simp [found, equal]
  have sameId : providerThreadIdFor state.sessionIdText (state.providerId.getD "unknown")
      nativeThreadId = thread.id := by
    subst bound
    simp only
  rw [sameId]
  split
  · exact ready.single update rfl
  · exact ready.activateThread updatedAt update fun last lastReady _ _ => lastReady.nil

theorem startTurnDecision {startedAt : Millis}
    (decided : decideStartTurn state turnId startedAt = .ok events) : Lawful state events := by
  unfold decideStartTurn at decided
  split at decided
  · rename_i idle
    cases decided
    exact ready.single (ready.startTurn startedAt idle) rfl
  · cases decided

theorem submitTurn {messageId role kind contentJson : String}
    {parentItemId : Option String} {createdAt : Millis}
    (decided : decideSubmitTurn state turnId messageId role kind contentJson parentItemId
      providerInputJson createdAt = .ok events) : Lawful state events := by
  unfold decideSubmitTurn at decided
  split at decided
  · cases decided
  rename_i idle
  cases decided
  refine ready.cons trivial ?_
  have persisted := ready.persist
    { inputOwner := none, messageId, turnId := some turnId, role, kind, contentJson,
      parentItemId, checkpointRevision := none, checkpointFinal := none, createdAt }
  refine persisted.openTurn (persisted.startTurn createdAt idle) createdAt ?_
  rintro next nextReady ⟨turn, current, active⟩
  have permitted : next.Permits (.providerTurnRequested turnId
      (some (attemptIdFor turnId 1)) providerInputJson none createdAt) :=
    ⟨turn, current, congrArg some active⟩
  exact nextReady.single permitted rfl

theorem rollbackTurns {throughOrdinal messageSequence : Number}
    {removedMessageIds : List String} {rolledBackAt : Millis}
    (decided : decideRollbackTurns state throughOrdinal messageSequence removedMessageIds
      rolledBackAt = .ok events) : Lawful state events := by
  unfold decideRollbackTurns at decided
  split at decided
  · cases decided
  rename_i free
  split at decided
  · cases decided
  rename_i valid
  cases decided
  simp only [not_or, Bool.not_eq_true, Option.isSome_eq_false_iff,
    Option.isNone_iff_eq_none, Nat.not_lt, Nat.le_zero] at free
  simp only [not_or, Bool.not_eq_false, Rat.not_lt] at valid
  have permitted : state.Permits (.turnsRolledBack
      { rolledBackTurnIds := some
          ((state.turns.values.filter fun turn => throughOrdinal < turn.ordinal).map (·.id))
        throughOrdinal, messageSequence, removedMessageIds, rolledBackAt }) :=
    ⟨free.1, free.2.1, free.2.2, valid.1, valid.2.1, valid.2.2, rfl⟩
  have rolledBack := ready.evolve permitted rfl rfl
  have deactivate : ∀ next : SessionState,
      next.Permits (.activeProviderThreadSet none rolledBackAt) := by
    intro next id noThread
    cases noThread
  exact ready.cons permitted (rolledBack.single (deactivate _) rfl)

theorem finalizeTurn (decided : decideFinalizeTurn state turnId outcome settledAt = .ok events) :
    Lawful state events := by
  unfold decideFinalizeTurn at decided
  split at decided
  · rw [notCurrent_ok decided]
    exact ready.nil
  rename_i isCurrent
  rw [not_not] at isCurrent
  obtain ⟨turn, current⟩ := ready.currentTurn isCurrent
  refine ready.skipIf decided (fun notFinalizing => ?_) rfl
  rw [current.2] at notFinalizing
  exact ⟨turn, current, by simpa using notFinalizing, (activeAttemptOrFirst current).symm⟩

theorem requestTurnInterrupt {expectedTurnId : Option String}
    (decided : decideRequestTurnInterrupt state expectedTurnId requestedAt = .ok events) :
    Lawful state events := by
  unfold decideRequestTurnInterrupt at decided
  split at decided
  · cases decided
    exact ready.nil
  · cases decided
    exact ready.nil
  rename_i turnId requested
  have isCurrent : state.currentTurnId = some turnId := by
    unfold turnInterruptReceipt at requested
    split at requested
    · cases requested
    split at requested
    · cases requested
      assumption
    · split at requested
      · cases requested
        assumption
      · cases requested
  exact ready.skipIf decided (fun notPending => ready.interrupt isCurrent
    (Bool.eq_false_of_not_eq_true notPending) requestedAt) rfl

theorem acknowledgeTurnInterrupt {acknowledgedAt : Millis}
    (decided : decideAcknowledgeTurnInterrupt state turnId acknowledgedAt = .ok events) :
    Lawful state events := by
  unfold decideAcknowledgeTurnInterrupt at decided
  split at decided
  · rw [notCurrent_ok decided]
    exact ready.nil
  · rename_i isCurrent
    rw [not_not] at isCurrent
    exact ready.skipIf decided (fun _ => ready.currentTurn isCurrent) rfl

theorem failTurnInterrupt {reason : String} {failedAt : Millis}
    (decided : decideFailTurnInterrupt state turnId reason failedAt = .ok events) :
    Lawful state events := by
  unfold decideFailTurnInterrupt at decided
  split at decided
  · rw [notCurrent_ok decided]
    exact ready.nil
  rename_i isCurrent
  rw [not_not] at isCurrent
  cases decided
  have permitted : state.Permits (.turnInterruptFailed turnId reason failedAt) :=
    ready.currentTurn isCurrent
  exact ready.single permitted rfl

theorem reorderQueuedTurns {queueIds : List String} {reorderedAt : Millis}
    (decided : decideReorderQueuedTurns state queueIds reorderedAt = .ok events) :
    Lawful state events := by
  cases decided
  refine ready.single (show state.Permits (.queuedTurnsReordered _ reorderedAt) from ?_) rfl
  intro queueId
  have listed := ready.wellFormed.queue.listed queueId
  simp only [mem_append, mem_filter, decide_eq_true_eq]
  constructor
  · rintro (known | remaining)
    · exact known.2
    · exact listed.mp remaining.1
  · intro queued
    by_cases requested : queueId ∈ queueIds
    · exact .inl ⟨requested, queued⟩
    · exact .inr ⟨listed.mpr queued, fun both => requested both.1⟩

theorem persistMessage {message : MessageFields}
    (decided : decidePersistMessage state message = .ok events) : Lawful state events := by
  unfold decidePersistMessage at decided
  split at decided
  · cases decided
  split at decided
  · exact ready.skipIf decided (fun _ => trivial) rfl
  · split at decided
    · cases decided
    · exact ready.skipIf decided (fun _ => trivial) rfl

theorem reserveProviderSession {command : ReserveProviderSession}
    (decided : decideReserveProviderSession state command = .ok events) : Lawful state events := by
  unfold decideReserveProviderSession at decided
  simp only at decided
  split at decided
  · cases decided
  split at decided
  · cases decided
  split at decided
  · cases decided
  split at decided
  · cases decided
  rename_i notArchived
  split at decided
  · cases decided
  split at decided
  · cases decided
    exact ready.nil
  cases decided
  obtain ⟨stops, stopped⟩ := ready.providerStops command.reservedAt
  obtain ⟨reservation, version, equal⟩ :=
    evolveAll_providerStops state command.reservedAt
  refine .append stops ?_
  rw [equal] at stopped ⊢
  have permitted : Permits { state with
      providerReservation := reservation, version := version }
        (.providerSessionReserved command.providerId
          command.providerSessionId command.reservedAt) :=
    Bool.eq_false_of_not_eq_true notArchived
  exact stopped.single permitted rfl

theorem detach (detachedAt : Millis)
    (follows : ∀ next : SessionState, Ready next → Lawful next later) :
    Lawful state (detachEvents state detachedAt ++ later) := by
  unfold detachEvents
  split
  · exact follows state ready
  · rename_i providerId _
    have permitted : state.Permits (.providerDetached providerId
        state.attachedProviderSessionId detachedAt) := trivial
    exact ready.cons permitted (follows _ (ready.evolve permitted rfl rfl))

theorem attachProvider {providerSessionId : Option String} {attachedAt : Millis}
    (decided : decideAttachProvider state providerId providerSessionId attachedAt =
      .ok events) : Lawful state events := by
  unfold decideAttachProvider at decided
  split at decided
  · cases decided
    exact ready.nil
  cases decided
  refine ready.detach attachedAt fun next nextReady => ?_
  have permitted : next.Permits (.providerAttached providerId providerSessionId
      attachedAt) := trivial
  exact nextReady.single permitted rfl

theorem detachProvider {detachedAt : Millis} {expectedProviderSessionId : Option (Option String)}
    (decided : decideDetachProvider state detachedAt expectedProviderSessionId =
      .ok events) : Lawful state events := by
  unfold decideDetachProvider at decided
  split at decided
  · cases decided
    exact ready.nil
  · cases decided
    have detached : Lawful state (detachEvents state detachedAt ++ []) :=
      ready.detach detachedAt fun next nextReady => nextReady.nil
    rwa [append_nil] at detached

theorem releaseInitialTurn
    (decided : decideReleaseInitialTurn state expectedTurnId providerInputJson
      providerStartJson requestedAt = .ok events) : Lawful state events := by
  unfold decideReleaseInitialTurn at decided
  split at decided
  · cases decided
  split at decided
  · cases decided
  rename_i expected
  cases decided
  simp only [not_or, not_not] at expected
  obtain ⟨turn, current⟩ := ready.currentTurn expected.2.1
  have unpause : state.Permits (.sessionQueuePausedSet false requestedAt) := trivial
  have unpaused := ready.evolve unpause rfl rfl
  have request : (Domain.evolve state
      (.sessionQueuePausedSet false requestedAt)).Permits (.providerTurnRequested
        expectedTurnId (some (Domain.activeAttemptOrFirst state expectedTurnId))
        providerInputJson providerStartJson requestedAt) :=
    ⟨turn, current, congrArg some (activeAttemptOrFirst current).symm⟩
  exact ready.cons unpause (unpaused.single request rfl)

theorem decideExisting {command : SessionCommand}
    (decided : Domain.decideExisting state command = .ok events) : Lawful state events := by
  cases command with
  | createSession | createSessionWithInitialTurn => cases decided
  | setTitle => exact ready.setTitle decided
  | setModel => exact ready.setModel decided
  | setProvider => exact ready.setProvider decided
  | setRuntimeMode
  | setPermissionMode | setWorktree | setStatus | setQueuePaused | archiveSession =>
    exact ready.skipIf decided (fun _ => trivial) rfl
  | releaseInitialTurn => exact ready.releaseInitialTurn decided
  | bindAttemptProviderTurn => exact ready.bindAttemptProviderTurn decided
  | bindProviderThread => exact ready.bindProviderThread decided
  | expireAttempt => exact ready.expireAttempt decided
  | recoverTurn => exact ready.recoverTurn decided
  | retryTurn => exact ready.retryTurn decided
  | unarchiveSession => exact ready.emitIf decided (fun _ => trivial) rfl
  | deleteSession deletedAt =>
    cases decided
    have permitted : state.Permits (.sessionDeleted deletedAt) := trivial
    exact ready.single permitted rfl
  | startTurn => exact ready.startTurnDecision decided
  | submitTurn => exact ready.submitTurn decided
  | rollbackTurns => exact ready.rollbackTurns decided
  | finalizeTurn => exact ready.finalizeTurn decided
  | settleTurn => exact ready.settleTurn decided
  | requestTurnInterrupt => exact ready.requestTurnInterrupt decided
  | acknowledgeTurnInterrupt => exact ready.acknowledgeTurnInterrupt decided
  | failTurnInterrupt => exact ready.failTurnInterrupt decided
  | enqueueTurn queueId inputJson position createdAt queuedReady =>
    refine ready.skipIf decided (fun absent => ?_) rfl
    exact has_eq_false.mp (Bool.eq_false_of_not_eq_true absent)
  | updateQueuedTurn => exact ready.emitOrFail decided (fun present => present) rfl
  | claimQueuedTurn queueId claimedAt =>
    refine ready.emitIf decided (fun isReady => ?_) rfl
    cases found : state.queuedTurns.get? queueId with
    | none => simp [found] at isReady
    | some queued => exact has_eq_true.mpr ⟨queued, found⟩
  | removeQueuedTurn => exact ready.emitIf decided (fun present => present) rfl
  | reorderQueuedTurns => exact ready.reorderQueuedTurns decided
  | steerQueuedTurn => exact ready.steerQueuedTurn decided
  | persistMessage => exact ready.persistMessage decided
  | openSegment turnId segmentId kind openedAt =>
    rw [Domain.decideExisting] at decided
    split at decided
    · cases decided
    · rename_i isCurrent
      refine ready.skipIf decided (fun absent => ⟨not_not.mp isCurrent, ?_⟩) rfl
      exact has_eq_false.mp (Bool.eq_false_of_not_eq_true absent)
  | settleSegment turnId segmentId outcome settledAt =>
    refine ready.emitOrFail decided (fun isOpen => ?_) rfl
    cases found : state.openSegments.get? segmentId with
    | none => simp [found] at isOpen
    | some segment => exact ⟨segment, found, by simpa [found] using isOpen⟩
  | requestPermission | expirePlan | resolveQuestion =>
    exact ready.skipIf decided (fun absent => absent) rfl
  | resolvePermission => exact ready.emitOrFail decided (fun pending => pending) rfl
  | expirePermission => exact ready.emitIf decided (fun pending => pending) rfl
  | expireQuestion => exact ready.skipIf decided (fun absent => not_or.mp absent) rfl
  | reserveProviderSession => exact ready.reserveProviderSession decided
  | attachProvider => exact ready.attachProvider decided
  | requestProviderStop requestedAt =>
    cases decided
    have stopped := ready.providerStops requestedAt
    exact ⟨stopped.1, stopped.2.rested⟩
  | detachProvider => exact ready.detachProvider decided

end

end Ready

namespace SessionCreatedFields

variable (fields : SessionCreatedFields)

def createdState : SessionState :=
  evolve initialSessionState (.sessionCreated fields.event)

omit [PayloadCodec] in
theorem emits : initialSessionState.Emits (.sessionCreated fields.event) :=
  ⟨rfl, fields, rfl⟩

theorem createdState_execution : fields.createdState.execution = initialSessionState.execution :=
  initialSessionState.execution_applySessionCreated fields.event

theorem createdState_ready : Ready fields.createdState where
  wellFormed := WellFormed.initial.evolve fields.emits
  rested := fun _ =>
    congrArg Execution.scheduledSuccessor fields.createdState_execution
  live := by
    refine ⟨exists_evolve fields.emits, ?_⟩
    change (initialSessionState.applySessionCreated fields.event).deleted = false
    unfold applySessionCreated
    cases fields.event.cursor <;> rfl

theorem createdState_sessionIdText : fields.createdState.sessionIdText = fields.sessionId :=
  congrArg (fun identity : Bool × Option String => identity.2.getD "")
    (initialSessionState.identity_applySessionCreated fields.event)

theorem createdState_unused {id : String}
    (found : fields.createdState.providerThreads.get? id = some thread) :
    thread.firstTurnOrdinal = none := by
  change (initialSessionState.applySessionCreated fields.event).providerThreads.get? id =
    some thread at found
  unfold applySessionCreated at found
  split at found
  · cases found
  simp only [bindLegacyResume, withProviderThread] at found
  obtain ⟨-, rfl⟩ | found := get?_set_cases found
  · rfl
  · cases found

variable {later : List SessionEvent}

theorem seeded (seed : Option ProviderThreadSeed) (at_ : Millis)
    (follows : ∀ next : SessionState, Ready next →
      next.execution = initialSessionState.execution →
      (seededProviderThreadId fields.sessionId seed = none ∨
        seededProviderThreadId fields.sessionId seed = next.activeProviderThreadId) →
      Lawful next later) :
    Lawful fields.createdState (providerThreadSeedEvents fields.sessionId seed at_ ++ later) := by
  cases seed with
  | none =>
    exact follows _ fields.createdState_ready fields.createdState_execution (.inl rfl)
  | some seed =>
    have update : ∀ thread : ProviderThreadState,
        thread.id = providerThreadIdFor fields.sessionId seed.provider seed.nativeThreadId →
        fields.createdState.Permits (.providerThreadUpdated thread) := by
      intro thread id
      constructor
      · rw [Scoped, fields.createdState_sessionIdText, id]
        exact scopeProviderThreadId_for _ _ _
      · intro known found hasFirst
        rw [fields.createdState_unused found] at hasFirst
        cases hasFirst
    refine fields.createdState_ready.activateThread at_ (update _ ?_)
      fun next nextReady same active => ?_
    · simp only
    · exact follows next nextReady (same.trans fields.createdState_execution) (.inr active.symm)

theorem create (wellFormed : state.WellFormed) (absent : state.exists_ = false)
    (follows : Lawful fields.createdState later) :
    Lawful state (.sessionCreated fields.event :: later) := by
  rw [wellFormed.unborn absent]
  exact .cons fields.emits follows

end SessionCreatedFields

variable {events : List SessionEvent}
variable {created : SessionCreatedFields} {providerThread : Option ProviderThreadSeed}

theorem decideCreateSession_lawful (wellFormed : state.WellFormed)
    (decided : decideCreateSession state created providerThread = .ok events) :
    Lawful state events := by
  unfold decideCreateSession at decided
  split at decided
  · cases decided
  rename_i absent
  cases decided
  let fields : SessionCreatedFields :=
    { created with
      titleProvenance := some (titleProvenanceOrManual created.titleProvenance) }
  have seeded : Lawful fields.createdState
      (providerThreadSeedEvents fields.sessionId providerThread fields.createdAt ++ []) :=
    fields.seeded providerThread fields.createdAt fun next ready _ _ => ready.nil
  rw [append_nil] at seeded
  exact fields.create wellFormed (Bool.eq_false_of_not_eq_true absent) seeded

theorem decideCreateSessionWithInitialTurn_lawful (wellFormed : state.WellFormed)
    {messageId messageContentJson providerInputJson : String}
    (decided : decideCreateSessionWithInitialTurn state created providerThread turnId
      messageId messageContentJson providerInputJson = .ok events) :
    Lawful state events := by
  unfold decideCreateSessionWithInitialTurn at decided
  split at decided
  · cases decided
  rename_i absent
  cases decided
  simp only [cons_append, append_assoc, nil_append]
  refine created.create wellFormed (Bool.eq_false_of_not_eq_true absent) ?_
  refine created.seeded providerThread created.createdAt fun next ready same seeded => ?_
  refine ready.cons trivial ?_
  have persisted := ready.persist
    { inputOwner := none, messageId, turnId := some turnId, role := "user",
      kind := "user", contentJson := messageContentJson, parentItemId := none,
      checkpointRevision := none, checkpointFinal := none,
      createdAt := created.createdAt }
  refine persisted.openTurn ?_ created.createdAt fun last lastReady => ?_
  · refine ⟨congrArg Execution.currentTurnId same,
      congrArg Execution.scheduledSuccessor same, ?_, rfl, ?_⟩
    · exact congrArg (fun execution => some (execution.turnCount + 1)) same.symm
    · rcases seeded with absent | active
      · exact .inl (congrArg some absent)
      · exact .inr (congrArg some active)
  rintro ⟨turn, current, active⟩
  split
  · exact lastReady.nil
  · have request : last.Permits (.providerTurnRequested turnId
        (some (attemptIdFor turnId 1)) providerInputJson created.providerStartJson
        created.createdAt) := ⟨turn, current, congrArg some active⟩
    exact lastReady.single request rfl

theorem decide_lawful (wellFormed : state.WellFormed) (rested : state.Rested)
    {command : SessionCommand} (decided : decide state command = .ok events) :
    Lawful state events := by
  have existing : ∀ {other : SessionCommand},
      (if state.exists_ = false ∨ state.sessionId = none then .error .sessionNotFound
        else if state.deleted then .error .sessionDeletedConflict
        else decideExisting state other : Decision) = .ok events →
      Lawful state events := by
    intro other decided
    split at decided
    · cases decided
    rename_i present
    split at decided
    · cases decided
    rename_i notDeleted
    rw [not_or] at present
    have live : state.Live :=
      ⟨Bool.eq_true_of_not_eq_false present.1, Bool.eq_false_of_not_eq_true notDeleted⟩
    exact Ready.decideExisting ⟨wellFormed, rested, live⟩ decided
  cases command with
  | createSession => exact decideCreateSession_lawful wellFormed decided
  | createSessionWithInitialTurn =>
    exact decideCreateSessionWithInitialTurn_lawful wellFormed decided
  | _ => exact existing decided

end Zuse.Domain
