import Zuse.Domain.Core.NotableEvents

namespace Zuse.Domain

open Zuse.Data List InsertionMap

/-! What becomes of a queued message. Steering takes it off the queue and parks its
input in the one successor slot until the running turn settles. -/

def Quiet (events : List SessionEvent) : Prop :=
  ∀ event ∈ events, event.handsOver = false

variable {event : SessionEvent}

@[simp] theorem quiet_cons {rest : List SessionEvent} :
    Quiet (event :: rest) ↔ event.handsOver = false ∧ Quiet rest := by
  simp [Quiet]

variable {state : SessionState} {command : SessionCommand} {events : List SessionEvent}

theorem quiet_decide (decided : decide state command = .ok events)
    (notClaim : ∀ queueId claimedAt, command ≠ .claimQueuedTurn queueId claimedAt)
    (notSteer : ∀ expectedTurnId queueId successorTurnId requestedAt,
      command ≠ .steerQueuedTurn expectedTurnId queueId successorTurnId requestedAt) :
    Quiet events := by
  have keeps : command.handsOver = false := by
    cases command with
    | claimQueuedTurn => exact absurd rfl (notClaim _ _)
    | steerQueuedTurn => exact absurd rfl (notSteer _ _ _ _)
    | _ => rfl
  intro event member
  have explained := decide_explains decided event member
  cases event with
  | queuedTurnClaimed | successorTurnScheduled =>
    exact absurd (keeps.symm.trans explained) Bool.false_ne_true
  | _ => rfl

def SessionEvent.enqueues : SessionEvent → Bool
  | .queuedTurnEnqueued _ => true
  | _ => false

def Enqueued (log : List SessionEvent) (queueId : String) : Prop :=
  ∃ queued, .queuedTurnEnqueued queued ∈ log ∧ queued.queueId = queueId

def recordInput (queueId : String) (known : Option String) : SessionEvent → Option String
  | .queuedTurnEnqueued queued =>
    if queued.queueId = queueId then some queued.inputJson else known
  | .queuedTurnUpdated other inputJson _ _ =>
    if other = queueId then some inputJson else known
  | _ => known

def queuedInput (log : List SessionEvent) (queueId : String) : Option String :=
  log.foldl (recordInput queueId) none

@[simp] theorem queuedInput_concat (log : List SessionEvent) (event : SessionEvent)
    (queueId : String) :
    queuedInput (log ++ [event]) queueId = recordInput queueId (queuedInput log queueId) event := by
  simp [queuedInput]

/-- Where an enqueued message is to be found. -/
inductive Kept (journal : List CommandRecord) (state : SessionState)
    (log : List SessionEvent) (queueId : String) : Prop
  | queued (present : state.queuedTurns.has queueId = true)
  | removed (removedAt : Millis) (logged : .queuedTurnRemoved queueId removedAt ∈ log)
  | claimed (record : CommandRecord) (recorded : record ∈ journal) (commandAt claimedAt : Millis)
      (command : record.command = .claimQueuedTurn queueId commandAt)
      (event : .queuedTurnClaimed queueId claimedAt ∈ record.events)
  | parked (successor : ScheduledSuccessor) (scheduled : state.scheduledSuccessor = some successor)
      (sameId : successor.queueId = queueId)
      (input : queuedInput log queueId = some successor.inputJson)
  | released (successor : ScheduledSuccessor) (readyAt : Millis)
      (logged : .scheduledSuccessorReady successor readyAt ∈ log)
      (sameId : successor.queueId = queueId)
      (input : queuedInput log queueId = some successor.inputJson)

/-- Every message that was ever queued is accounted for, apart from the one that is
just changing hands. -/
structure Account (exempt : Option String) (journal : List CommandRecord)
    (state : SessionState) (log : List SessionEvent) : Prop where
  input : ∀ queueId queued, state.queuedTurns.get? queueId = some queued →
    queuedInput log queueId = some queued.inputJson
  kept : ∀ queueId, exempt ≠ some queueId → Enqueued log queueId → Kept journal state log queueId

namespace Kept

variable {journal : List CommandRecord} {state next : SessionState}
  {log : List SessionEvent} {queueId : String}

theorem keep (kept : Kept journal state log queueId)
    (queue : state.queuedTurns.has queueId = true → next.queuedTurns.has queueId = true)
    (successor : ∀ parked, state.scheduledSuccessor = some parked →
      next.scheduledSuccessor = some parked)
    (input : recordInput queueId (queuedInput log queueId) event =
      queuedInput log queueId) : Kept journal next (log ++ [event]) queueId := by
  cases kept with
  | queued present => exact .queued (queue present)
  | removed removedAt logged => exact .removed removedAt (mem_append_left _ logged)
  | claimed record recorded commandAt claimedAt command claim =>
    exact .claimed record recorded commandAt claimedAt command claim
  | parked parked scheduled sameId known =>
    exact .parked parked (successor parked scheduled) sameId (by simpa [input] using known)
  | released parked readyAt logged sameId known =>
    exact .released parked readyAt (mem_append_left _ logged) sameId (by simpa [input] using known)

theorem journal_mono (kept : Kept journal state log queueId)
    (later : List CommandRecord) : Kept (journal ++ later) state log queueId := by
  cases kept with
  | queued present => exact .queued present
  | removed removedAt logged => exact .removed removedAt logged
  | claimed record recorded commandAt claimedAt command claim =>
    exact .claimed record (mem_append_left _ recorded) commandAt claimedAt command claim
  | parked successor scheduled sameId known =>
    exact .parked successor scheduled sameId known
  | released successor readyAt logged sameId known =>
    exact .released successor readyAt logged sameId known

end Kept

variable {queueId : String}

namespace Account

variable {exempt : Option String} {journal : List CommandRecord} {state : SessionState}
  {log : List SessionEvent}

theorem initial : Account none [] initialSessionState [] := by
  constructor
  · intro queueId queued found
    cases found
  · rintro queueId - ⟨queued, logged, -⟩
    cases logged

theorem journal_mono (account : Account exempt journal state log)
    (later : List CommandRecord) : Account exempt (journal ++ later) state log :=
  ⟨account.input, fun queueId notExempt enqueued =>
    (account.kept queueId notExempt enqueued).journal_mono later⟩

theorem unchanged (account : Account exempt journal state log) {next : SessionState}
    (queue : next.queuedTurns = state.queuedTurns)
    (successor : next.scheduledSuccessor = state.scheduledSuccessor)
    (input : ∀ queueId known, recordInput queueId known event = known)
    (enqueuesNone : event.enqueues = false) :
    Account exempt journal next (log ++ [event]) where
  input := by
    intro queueId queued found
    rw [queue] at found
    rw [queuedInput_concat, input]
    exact account.input queueId queued found
  kept := by
    rintro queueId notExempt ⟨queued, logged, sameId⟩
    rcases mem_concat.mp logged with before | now
    · exact (account.kept queueId notExempt ⟨queued, before, sameId⟩).keep
        (by rw [queue]; exact id) (fun _ => successor.trans) (input queueId _)
    · rw [← now] at enqueuesNone
      cases enqueuesNone

theorem takeOff (account : Account none journal state log) (next : SessionState)
    (event : SessionEvent) (queueId : String)
    (queue : next.queuedTurns = state.queuedTurns.delete queueId)
    (successor : next.scheduledSuccessor = state.scheduledSuccessor)
    (input : ∀ other known, recordInput other known event = known)
    (enqueuesNone : event.enqueues = false) :
    Account (some queueId) journal next (log ++ [event]) where
  input := by
    intro other queued found
    rw [queue, get?_delete] at found
    rw [queuedInput_concat, input]
    split at found
    · cases found
    · exact account.input other queued found
  kept := by
    rintro other different ⟨queued, logged, sameId⟩
    rw [Ne, Option.some.injEq] at different
    rcases mem_concat.mp logged with before | now
    · refine (account.kept other (Option.some_ne_none other).symm ⟨queued, before, sameId⟩).keep ?_
        (fun _ => successor.trans) (input other _)
      intro known
      rw [queue, has_eq_true, get?_delete, if_neg different]
      exact has_eq_true.mp known
    · rw [← now] at enqueuesNone
      cases enqueuesNone

theorem complete (account : Account (some queueId) journal state log)
    (kept : Kept journal state log queueId) : Account none journal state log := by
  refine ⟨account.input, fun other _ enqueued => ?_⟩
  by_cases same : queueId = other
  · exact same ▸ kept
  · exact account.kept other (by simpa using same) enqueued

variable [PayloadCodec]

theorem enqueue (account : Account exempt journal state log) (queued : QueuedTurn) :
    Account exempt journal (evolve state (.queuedTurnEnqueued queued))
      (log ++ [.queuedTurnEnqueued queued]) where
  input := by
    intro queueId other found
    change (state.queuedTurns.set queued.queueId queued).get? queueId = some other at found
    rw [get?_set] at found
    rw [queuedInput_concat, recordInput]
    split at found
    · rename_i same
      cases found
      rw [if_pos same]
    · rename_i different
      rw [if_neg different]
      exact account.input queueId other found
  kept := by
    rintro queueId notExempt ⟨other, logged, sameId⟩
    have present : ∀ id, queued.queueId = id ∨ state.queuedTurns.has id = true →
        (evolve state (.queuedTurnEnqueued queued)).queuedTurns.has id = true := by
      intro id known
      change (state.queuedTurns.set queued.queueId queued).has id = true
      rw [has_eq_true, get?_set]
      split
      · exact ⟨queued, rfl⟩
      · rename_i different
        exact has_eq_true.mp (known.resolve_left different)
    by_cases same : queued.queueId = queueId
    · exact .queued (present queueId (.inl same))
    rcases mem_concat.mp logged with before | now
    · refine (account.kept queueId notExempt ⟨other, before, sameId⟩).keep
        (fun known => present queueId (.inr known)) (fun _ known => known) ?_
      rw [recordInput, if_neg same]
    · cases now
      exact absurd sameId same

theorem update (account : Account exempt journal state log)
    (present : state.queuedTurns.has queueId = true) (inputJson : String)
    (updatedAt : Millis) (ready : Bool) :
    Account exempt journal (evolve state (.queuedTurnUpdated queueId inputJson updatedAt ready))
      (log ++ [.queuedTurnUpdated queueId inputJson updatedAt ready]) := by
  obtain ⟨current, found⟩ := has_eq_true.mp present
  have queue : (evolve state
      (.queuedTurnUpdated queueId inputJson updatedAt ready)).queuedTurns =
        state.queuedTurns.set queueId { current with inputJson, ready } := by
    change (state.apply _).queuedTurns = _
    simp only [SessionState.apply, found]
  have successor : (evolve state
      (.queuedTurnUpdated queueId inputJson updatedAt ready)).scheduledSuccessor =
        state.scheduledSuccessor := by
    obtain ⟨_, changed⟩ :=
      state.apply_queuedTurnUpdated_changes queueId inputJson updatedAt ready
    change (state.apply _).scheduledSuccessor = _
    rw [changed]
  constructor
  · intro other queued member
    rw [queue, get?_set] at member
    rw [queuedInput_concat, recordInput]
    split at member
    · rename_i same
      cases member
      rw [if_pos same]
    · rename_i different
      rw [if_neg different]
      exact account.input other queued member
  · rintro other notExempt ⟨queued, logged, sameId⟩
    have before : .queuedTurnEnqueued queued ∈ log := by simpa using logged
    by_cases same : queueId = other
    · refine .queued (has_eq_true.mpr ⟨{ current with inputJson, ready }, ?_⟩)
      rw [queue, get?_set, if_pos same]
    · refine (account.kept other notExempt ⟨queued, before, sameId⟩).keep ?_
        (fun _ => successor.trans) ?_
      · intro known
        rw [queue, has_eq_true, get?_set, if_neg same]
        exact has_eq_true.mp known
      · rw [recordInput, if_neg same]

theorem remove (account : Account none journal state log) (queueId : String) (removedAt : Millis) :
    Account none journal (evolve state (.queuedTurnRemoved queueId removedAt))
      (log ++ [.queuedTurnRemoved queueId removedAt]) := by
  have exempted := account.takeOff (evolve state (.queuedTurnRemoved queueId removedAt))
    (.queuedTurnRemoved queueId removedAt) queueId rfl rfl (fun _ _ => rfl) rfl
  exact exempted.complete (.removed removedAt (by simp))

theorem release (account : Account exempt journal state log)
    {successor : ScheduledSuccessor} (readyAt : Millis)
    (scheduled : state.scheduledSuccessor = some successor) :
    Account exempt journal (evolve state (.scheduledSuccessorReady successor readyAt))
      (log ++ [.scheduledSuccessorReady successor readyAt]) where
  input := by
    intro queueId queued found
    rw [queuedInput_concat]
    exact account.input queueId queued found
  kept := by
    rintro queueId notExempt ⟨queued, logged, sameId⟩
    have before : .queuedTurnEnqueued queued ∈ log := by simpa using logged
    cases account.kept queueId notExempt ⟨queued, before, sameId⟩ with
    | queued present => exact .queued present
    | removed removedAt logged => exact .removed removedAt (mem_append_left _ logged)
    | claimed record recorded commandAt claimedAt command claim =>
      exact .claimed record recorded commandAt claimedAt command claim
    | parked parked isParked parkedId known =>
      cases isParked.symm.trans scheduled
      refine .released successor readyAt (by simp) parkedId ?_
      rw [queuedInput_concat]
      exact known
    | released parked releasedAt logged releasedId known =>
      refine .released parked releasedAt (mem_append_left _ logged) releasedId ?_
      rw [queuedInput_concat]
      exact known

theorem park (successor : ScheduledSuccessor)
    (account : Account (some successor.queueId) journal state log)
    (free : state.scheduledSuccessor = none) (scheduledAt : Millis)
    (known : queuedInput log successor.queueId = some successor.inputJson) :
    Account none journal (evolve state (.successorTurnScheduled successor scheduledAt))
      (log ++ [.successorTurnScheduled successor scheduledAt]) := by
  have parked : Account (some successor.queueId) journal
      (evolve state (.successorTurnScheduled successor scheduledAt))
      (log ++ [.successorTurnScheduled successor scheduledAt]) := by
    constructor
    · intro queueId queued found
      rw [queuedInput_concat]
      exact account.input queueId queued found
    rintro queueId notExempt ⟨queued, logged, sameId⟩
    have before : .queuedTurnEnqueued queued ∈ log := by simpa using logged
    refine (account.kept queueId notExempt ⟨queued, before, sameId⟩).keep
      (fun present => present) ?_ rfl
    intro other scheduled
    rw [free] at scheduled
    cases scheduled
  refine parked.complete (.parked successor rfl rfl ?_)
  rw [queuedInput_concat]
  exact known

theorem evolve_executes (account : Account exempt journal state log)
    (executes : event.executes = true) :
    Account exempt journal (Domain.evolve state event) (log ++ [event]) := by
  have conversation := state.conversation_apply executes
  refine account.unchanged (congrArg SessionState.Conversation.queuedTurns conversation)
    (congrArg SessionState.Conversation.scheduledSuccessor conversation) ?_ ?_
  · intro queueId known
    cases event <;> first | rfl | cases executes
  · cases event <;> first | rfl | cases executes

theorem evolve (account : Account none journal state log)
    (emitted : state.Emits event) (quiet : event.handsOver = false) :
    Account none journal (Domain.evolve state event) (log ++ [event]) := by
  by_cases executes : event.executes = true
  · exact account.evolve_executes executes
  cases event with
  | sessionCreated created =>
    have same : (state.applySessionCreated created).queuedTurns = state.queuedTurns ∧
        (state.applySessionCreated created).scheduledSuccessor = state.scheduledSuccessor := by
      unfold SessionState.applySessionCreated
      cases created.cursor <;> exact ⟨rfl, rfl⟩
    exact account.unchanged same.1 same.2 (fun _ _ => rfl) rfl
  | sessionResumeSet => exact emitted.2.2.elim
  | queuedTurnEnqueued queued => exact account.enqueue queued
  | queuedTurnUpdated queueId inputJson updatedAt ready =>
    exact account.update emitted.2.2 inputJson updatedAt ready
  | queuedTurnRemoved queueId removedAt => exact account.remove queueId removedAt
  | queuedTurnClaimed | successorTurnScheduled => cases quiet
  | scheduledSuccessorReady successor readyAt =>
    exact account.release readyAt emitted.2.2.2
  | _ =>
    first
    | exact absurd rfl executes
    | exact account.unchanged rfl rfl (fun _ _ => rfl) rfl

theorem evolveAll (account : Account none journal state log) {events : List SessionEvent}
    (emitted : EmitsAll state events) (quiet : Quiet events) :
    Account none journal (Domain.evolveAll state events) (log ++ events) := by
  induction events generalizing state log with
  | nil =>
    rw [append_nil]
    exact account
  | cons event rest ih =>
    obtain ⟨eventQuiet, restQuiet⟩ := quiet_cons.mp quiet
    have next := ih (account.evolve emitted.1 eventQuiet) emitted.2 restQuiet
    rwa [append_assoc] at next

variable (account : Account none journal state log)
include account

theorem claim (queueId : String) (claimedAt : Millis) :
    Account (some queueId) journal (Domain.evolve state (.queuedTurnClaimed queueId claimedAt))
      (log ++ [.queuedTurnClaimed queueId claimedAt]) :=
  account.takeOff _ _ queueId rfl rfl (fun _ _ => rfl) rfl

theorem claimQueuedTurn {claimedAt : Millis}
    (decided : decideExisting state (.claimQueuedTurn queueId claimedAt) = .ok events) :
    Account none (journal ++ [⟨.claimQueuedTurn queueId claimedAt, events⟩])
      (Domain.evolveAll state events) (log ++ events) := by
  rw [decideExisting] at decided
  split at decided
  · cases decided
    refine ((account.claim queueId claimedAt).journal_mono _).complete ?_
    exact .claimed _ (mem_append_right _ mem_cons_self) claimedAt claimedAt rfl mem_cons_self
  · cases decided
    rw [append_nil]
    exact account.journal_mono _

omit [PayloadCodec] in
theorem claimed_input {queued : QueuedTurn} (found : state.queuedTurns.get? queueId = some queued)
    (requestedAt : Millis) :
    queuedInput (log ++ [.queuedTurnClaimed queueId requestedAt]) queueId =
      some queued.inputJson := by
  rw [queuedInput_concat]
  exact account.input queueId queued found

theorem steerQueuedTurn (free : state.scheduledSuccessor = none)
    {expectedTurnId successorTurnId : String} {requestedAt : Millis}
    (decided : decideSteerQueuedTurn state expectedTurnId queueId successorTurnId requestedAt =
      .ok events) :
    Account none journal (Domain.evolveAll state events) (log ++ events) := by
  have claimed := account.claim queueId requestedAt
  unfold decideSteerQueuedTurn at decided
  split at decided
  · split at decided
    · cases decided
    · rename_i queued found
      have known := account.claimed_input found requestedAt
      cases decided
      let successor : ScheduledSuccessor :=
        { predecessorTurnId := expectedTurnId, turnId := successorTurnId, queueId
          inputJson := queued.inputJson }
      split
      · have parked := park successor claimed free requestedAt known
        rwa [append_assoc] at parked
      · generalize attempt : activeAttemptOrFirst state expectedTurnId = attemptId
        have executes : SessionEvent.executes
            (.turnInterruptRequested expectedTurnId (some attemptId) requestedAt) = true :=
          rfl
        have interrupted := claimed.evolve_executes executes
        have kept := SessionState.conversation_apply (Domain.evolve state
          (.queuedTurnClaimed queueId requestedAt)) executes
        have stillFree := (congrArg SessionState.Conversation.scheduledSuccessor kept).trans free
        have parked := park successor interrupted stillFree requestedAt
          (by rw [queuedInput_concat]; exact known)
        rwa [append_assoc, append_assoc] at parked
  · split at decided
    · split at decided
      · cases decided
      · rename_i queued found
        have known := account.claimed_input found requestedAt
        cases decided
        let successor : ScheduledSuccessor :=
          { predecessorTurnId := expectedTurnId, turnId := successorTurnId, queueId
            inputJson := queued.inputJson }
        have parked := park successor claimed free requestedAt known
        have scheduled : (Domain.evolve (Domain.evolve state
            (.queuedTurnClaimed queueId requestedAt)) (.successorTurnScheduled successor
              requestedAt)).scheduledSuccessor = some successor := rfl
        have released := parked.release requestedAt scheduled
        rwa [append_assoc, append_assoc] at released
    · cases decided

end Account

namespace Session

/-- Where an enqueued message of the session is to be found. -/
def Keeps (session : Session) (queueId : String) : Prop :=
  Kept session.journal session.state session.log queueId

def Accounted (session : Session) : Prop :=
  Account none session.journal session.state session.log

/-- The command steers a message behind the running turn while another one already
waits there. -/
def steersOver (session : Session) : SessionCommand → Bool
  | .steerQueuedTurn expectedTurnId _ _ _ =>
    session.state.currentTurnId = some expectedTurnId ∧ session.state.scheduledSuccessor.isSome
  | _ => false

variable [PayloadCodec]

omit [PayloadCodec] in
theorem decideExisting_of_decide (decided : decide state command = .ok events)
    (existing : decide state command =
      if state.exists_ = false ∨ state.sessionId = none then .error .sessionNotFound
      else if state.deleted then .error .sessionDeletedConflict
      else decideExisting state command) : decideExisting state command = .ok events := by
  rw [existing] at decided
  split at decided
  · cases decided
  · split at decided
    · cases decided
    · exact decided

variable {session : Session}

theorem account_step {next : Session} (sound : session.Sound)
    (account : session.Accounted) (careful : session.steersOver command = false)
    (stepped : sessionSystem.step session command = some next) : next.Accounted := by
  obtain ⟨events, decided, state, journal⟩ := sessionSystem_step.mp stepped
  have log : next.log = session.log ++ events := by
    rw [Session.log, journal, flatMap_append, flatMap_singleton, Session.log]
  rw [Accounted, state, journal, log]
  by_cases claims : ∃ queueId claimedAt, command = .claimQueuedTurn queueId claimedAt
  · obtain ⟨queueId, claimedAt, rfl⟩ := claims
    exact account.claimQueuedTurn (decideExisting_of_decide decided rfl)
  by_cases steers : ∃ expectedTurnId queueId successorTurnId requestedAt,
      command = .steerQueuedTurn expectedTurnId queueId successorTurnId requestedAt
  · obtain ⟨expectedTurnId, queueId, successorTurnId, requestedAt, rfl⟩ := steers
    have steered := decideExisting_of_decide decided rfl
    have free : session.state.scheduledSuccessor = none := by
      by_cases isCurrent : session.state.currentTurnId = some expectedTurnId
      · simpa [steersOver, isCurrent] using careful
      · apply sound.rested
        rw [decideExisting, decideSteerQueuedTurn] at steered
        simp only [if_neg isCurrent] at steered
        split at steered
        · rename_i settled
          exact settled.1
        · cases steered
    exact (account.steerQueuedTurn free steered).journal_mono _
  · have lawful := decide_lawful sound.wellFormed sound.rested decided
    have quiet := quiet_decide decided
      (fun queueId claimedAt equal => claims ⟨queueId, claimedAt, equal⟩)
      (fun expectedTurnId queueId successorTurnId requestedAt equal =>
        steers ⟨expectedTurnId, queueId, successorTurnId, requestedAt, equal⟩)
    exact (account.evolveAll lawful.emitted quiet).journal_mono _

/-- A session whose steering never meets an occupied slot loses no message. -/
theorem keeps_of_careful {session : Session}
    (reachable : (sessionSystem.restrict fun session command =>
      session.steersOver command = false).Reachable session)
    {queueId : String} (enqueued : Enqueued session.log queueId) :
    session.Keeps queueId := by
  have account : session.Accounted := by
    refine reachable.invariant Account.initial fun before command next reached account stepped => ?_
    obtain ⟨careful, step⟩ := TransitionSystem.restrict_step.mp stepped
    exact account_step (Sound.of_reachable reached.of_restrict) account careful step
  exact account.kept queueId (Option.some_ne_none queueId).symm enqueued

omit [PayloadCodec] in
theorem keeps_of_steeredRetry :
    ∃ session : Session,
      ((@sessionSystem rejectingCodec).restrict fun session command =>
        session.steersOver command = false).run steeredRetry = some session ∧
      session.Keeps "queued" := by
  have ran : (((@sessionSystem rejectingCodec).restrict fun session command =>
      session.steersOver command = false).run steeredRetry).map
        (fun session => Decidable.decide (SessionEvent.queuedTurnEnqueued
          { queueId := "queued", inputJson := "text", position := 0, createdAt := 3,
            ready := true } ∈ session.log)) = some true := by
    decide +kernel
  obtain ⟨session, reached, logged⟩ := Option.map_eq_some_iff.mp ran
  exact ⟨session, reached, @keeps_of_careful rejectingCodec session
    (TransitionSystem.run_reachable reached) "queued"
    ⟨_, of_decide_eq_true logged, rfl⟩⟩

def steeredTwice : List SessionCommand :=
  [.createSession (.plain "session") none, .startTurn "turn" 1,
    .enqueueTurn "first" "first input" 0 2 true,
    .enqueueTurn "second" "second input" 1 3 true,
    .steerQueuedTurn "turn" "first" "next" 4,
    .steerQueuedTurn "turn" "second" "other" 5]

/-- The log or the journal mentions an end of some message other than steering. -/
def closesMessage (session : Session) : Bool :=
  (session.log.any fun
    | .queuedTurnRemoved .. | .scheduledSuccessorReady .. => true
    | _ => false) ||
  session.journal.any fun record =>
    match record.command with
    | .claimQueuedTurn .. => true
    | _ => false

omit [PayloadCodec] in
theorem not_keeps (notQueued : session.state.queuedTurns.has queueId = false)
    (notParked : session.state.scheduledSuccessor.map (·.queueId) ≠ some queueId)
    (open_ : session.closesMessage = false) : ¬session.Keeps queueId := by
  rw [closesMessage, Bool.or_eq_false_iff, any_eq_false, any_eq_false] at open_
  intro kept
  cases kept with
  | queued present =>
    rw [notQueued] at present
    cases present
  | removed removedAt logged | released successor readyAt logged => exact open_.1 _ logged rfl
  | claimed record recorded commandAt claimedAt command =>
    have closing := open_.2 record recorded
    rw [command] at closing
    exact closing rfl
  | parked successor scheduled sameId =>
    rw [scheduled] at notParked
    exact notParked (congrArg some sameId)

omit [PayloadCodec] in
/-- The second message replaces the first one in the slot. -/
theorem steeredTwice_loses :
    ¬∀ session : Session, (@sessionSystem rejectingCodec).Reachable session →
      ∀ queueId, Enqueued session.log queueId → session.Keeps queueId := by
  have ran : ((@sessionSystem rejectingCodec).run steeredTwice).map (fun session =>
      (session.state.queuedTurns.has "first",
        session.state.scheduledSuccessor.map (·.queueId), session.closesMessage,
        Decidable.decide (SessionEvent.queuedTurnEnqueued
          { queueId := "first", inputJson := "first input", position := 0,
            createdAt := 2, ready := true } ∈ session.log))) =
      some (false, some "second", false, true) := by
    decide +kernel
  obtain ⟨session, reached, facts⟩ := Option.map_eq_some_iff.mp ran
  simp only [Prod.mk.injEq] at facts
  obtain ⟨notQueued, parked, open_, logged⟩ := facts
  intro keeps
  refine not_keeps notQueued ?_ open_ (keeps session
    (TransitionSystem.run_reachable reached) "first" ⟨_, of_decide_eq_true logged, rfl⟩)
  rw [parked]
  decide

end Session

end Zuse.Domain
