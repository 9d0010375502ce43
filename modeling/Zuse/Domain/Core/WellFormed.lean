import Zuse.Domain.Core.Ownership

namespace Zuse.Domain

open Zuse.Data Option
open InsertionMap (get?_set get?_set_cases has_eq_true get?_delete)

/-! The remaining redundancies of the aggregate, and the invariant that the decider
reads its state under. -/

/-- The provider threads of a session are filed under their scoped ids, and the
active one is among them. -/
structure ThreadsBound (sessionId : String)
    (threads : InsertionMap String ProviderThreadState) (active : Option String) :
    Prop where
  threadId : ∀ id thread, threads.get? id = some thread →
    thread.id = id ∧ scopeProviderThreadId sessionId id = id
  active : ∀ id, active = some id → ∃ thread, threads.get? id = some thread

variable {id : String}

namespace ThreadsBound

variable {sessionId : String} {threads : InsertionMap String ProviderThreadState}
  {active : Option String}

theorem empty (sessionId : String) : ThreadsBound sessionId .empty none := by
  constructor <;> simp

variable (bound : ThreadsBound sessionId threads active)
include bound

theorem set (thread : ProviderThreadState)
    (isScoped : scopeProviderThreadId sessionId thread.id = thread.id) :
    ThreadsBound sessionId (threads.set thread.id thread) active where
  threadId := by
    intro id other member
    obtain ⟨same, rfl⟩ | member := get?_set_cases member
    · exact ⟨same, same ▸ isScoped⟩
    · exact bound.threadId id other member
  active := by
    intro id isActive
    rw [get?_set]
    split
    · exact ⟨thread, rfl⟩
    · exact bound.active id isActive

theorem rewrite (after : ProviderThreadState) {before : ProviderThreadState}
    (found : threads.get? id = some before) (sameId : after.id = before.id) :
    ThreadsBound sessionId (threads.set after.id after) active := by
  obtain ⟨equal, isScoped⟩ := bound.threadId id before found
  exact bound.set after (by rw [sameId, equal, isScoped])

theorem activate {next : Option String}
    (known : ∀ id, next = some id → ∃ thread, threads.get? id = some thread) :
    ThreadsBound sessionId threads next :=
  ⟨bound.threadId, known⟩

theorem deactivate : ThreadsBound sessionId threads none :=
  bound.activate fun _ noThread => by cases noThread

theorem mapValues {update : ProviderThreadState → ProviderThreadState}
    (sameId : ∀ thread, (update thread).id = thread.id) :
    ThreadsBound sessionId (threads.mapValues update) none where
  threadId := by
    intro id thread member
    rw [InsertionMap.get?_mapValues, map_eq_some_iff] at member
    obtain ⟨before, found, rfl⟩ := member
    rw [sameId]
    exact bound.threadId id before found
  active := by
    intro id noThread
    cases noThread

end ThreadsBound

/-- Queued turns are filed under their ids, and the order lists exactly them. -/
structure QueueOrdered (turns : InsertionMap String QueuedTurn) (order : List String) :
    Prop where
  queueId : ∀ id queued, turns.get? id = some queued → queued.queueId = id
  listed : ∀ id, id ∈ order ↔ turns.has id = true

namespace SessionState

/-- What holds between any two events of a session. -/
structure WellFormed (state : SessionState) : Prop where
  unborn : state.exists_ = false → state = initialSessionState
  named : state.exists_ = true → ∃ sessionId, state.sessionId = some sessionId
  owned : state.execution.Owned
  threads : ThreadsBound state.sessionIdText state.providerThreads state.activeProviderThreadId
  queue : QueueOrdered state.queuedTurns state.queueOrder

/-- Between two commands no successor waits for a turn that is over. -/
def Rested (state : SessionState) : Prop :=
  state.currentTurnId = none → state.scheduledSuccessor = none

theorem WellFormed.initial : initialSessionState.WellFormed where
  unborn := fun _ => rfl
  named := by
    intro exists_
    cases exists_
  owned := Execution.Owned.initial
  threads := ThreadsBound.empty _
  queue := by constructor <;> simp [initialSessionState]

theorem Rested.initial : initialSessionState.Rested := fun _ => rfl

variable {state : SessionState} {thread : ProviderThreadState}

theorem WellFormed.thread_scoped (wellFormed : state.WellFormed)
    (found : state.providerThreads.get? id = some thread) : thread.id = id ∧ state.Scoped id :=
  wellFormed.threads.threadId id thread found

section

variable (queue : QueueOrdered state.queuedTurns state.queueOrder)
include queue

theorem queue_set (queued : QueuedTurn) {before : QueuedTurn}
    (found : state.queuedTurns.get? queued.queueId = some before) :
    QueueOrdered (state.queuedTurns.set queued.queueId queued) state.queueOrder where
  queueId := by
    intro id other member
    obtain ⟨same, rfl⟩ | member := get?_set_cases member
    · exact same
    · exact queue.queueId id other member
  listed := by
    intro id
    rw [queue.listed, has_eq_true, has_eq_true, get?_set]
    split
    · rename_i same
      subst same
      simp [found]
    · rfl

theorem queue_enqueue (queued : QueuedTurn) :
    QueueOrdered (state.queuedTurns.set queued.queueId queued)
      (state.queueOrder ++ [queued.queueId]) where
  queueId := by
    intro id other member
    obtain ⟨same, rfl⟩ | member := get?_set_cases member
    · exact same
    · exact queue.queueId id other member
  listed := by
    intro id
    rw [List.mem_append, queue.listed, has_eq_true, has_eq_true, get?_set]
    split
    · rename_i same
      simp [same]
    · rename_i different
      simp [Ne.symm different]

theorem queue_remove (queueId : String) :
    QueueOrdered (state.queuedTurns.delete queueId) (state.queueOrder.filter (· ≠ queueId)) where
  queueId := by
    intro id other member
    rw [get?_delete] at member
    split at member
    · cases member
    · exact queue.queueId id other member
  listed := by
    intro id
    rw [List.mem_filter, queue.listed, has_eq_true, has_eq_true, get?_delete]
    split
    · rename_i same
      simp [same]
    · rename_i different
      simp [Ne.symm different]

end

variable {sessionId : String}

section

variable (threads : ThreadsBound sessionId state.providerThreads state.activeProviderThreadId)
include threads

theorem threads_retireActive (at_ : Millis) :
    ThreadsBound sessionId (state.retireActiveProviderThread at_).providerThreads
      (state.retireActiveProviderThread at_).activeProviderThreadId := by
  unfold retireActiveProviderThread
  split
  · exact threads.deactivate
  · rename_i active found
    obtain ⟨id, -, present⟩ := bind_eq_some_iff.mp found
    exact (threads.rewrite { active with status := .closed, updatedAt := at_ } present
      rfl).deactivate

theorem threads_applyTurnStarted (started : TurnStartedEvent) :
    ThreadsBound sessionId (state.applyTurnStarted started).providerThreads
      (state.applyTurnStarted started).activeProviderThreadId := by
  unfold applyTurnStarted
  simp only
  split
  · exact threads
  · rename_i thread found
    obtain ⟨id, -, present⟩ := bind_eq_some_iff.mp found
    exact threads.rewrite { thread with
      status := _, firstTurnOrdinal := _, lastTurnOrdinal := _, updatedAt := _ } present rfl

theorem threads_applyTurnSettled
    (turnId : String) (outcome : SettlementOutcome) (settledAt : Millis) :
    ThreadsBound sessionId (state.applyTurnSettled turnId outcome settledAt).providerThreads
      (state.applyTurnSettled turnId outcome settledAt).activeProviderThreadId := by
  unfold applyTurnSettled
  simp only
  split
  · exact threads
  rename_i thread found
  split
  · obtain ⟨id, -, present⟩ := bind_eq_some_iff.mp found
    exact threads.rewrite { thread with status := _, updatedAt := _ } present rfl
  · exact threads

theorem threads_withProviderThread
    (isScoped : scopeProviderThreadId sessionId thread.id = thread.id) :
    ThreadsBound sessionId (state.withProviderThread thread true).providerThreads
      (state.withProviderThread thread true).activeProviderThreadId := by
  refine (threads.set thread isScoped).activate ?_
  intro id isActive
  rw [← some.inj isActive]
  exact ⟨thread, InsertionMap.get?_set_self _ _ _⟩

end

theorem bindLegacyResume_eq (state : SessionState) (nativeThreadId : String)
    (nativeHeadId : Option (Option String)) (at_ : Millis) :
    ∃ thread : ProviderThreadState,
      state.bindLegacyResume nativeThreadId nativeHeadId at_ =
        state.withProviderThread thread true ∧
      thread.id = providerThreadIdFor state.sessionIdText
        (state.providerId.getD "unknown") nativeThreadId := by
  refine ⟨_, rfl, ?_⟩
  simp only

theorem threads_applySessionCreated (created : SessionCreatedEvent) :
    ThreadsBound created.sessionId (initialSessionState.applySessionCreated created).providerThreads
      (initialSessionState.applySessionCreated created).activeProviderThreadId := by
  unfold applySessionCreated
  split
  · exact ThreadsBound.empty _
  · obtain ⟨thread, equal, id⟩ := bindLegacyResume_eq _ _ _ _
    rw [equal]
    exact threads_withProviderThread (ThreadsBound.empty created.sessionId)
      (by rw [id]; exact scopeProviderThreadId_for _ _ _)

def identity (state : SessionState) : Bool × Option String :=
  (state.exists_, state.sessionId)

theorem identity_applySessionCreated (state : SessionState) (created : SessionCreatedEvent) :
    (state.applySessionCreated created).identity = (true, some created.sessionId) := by
  unfold applySessionCreated
  cases created.cursor <;> rfl

variable [PayloadCodec] {event : SessionEvent}

theorem identity_apply (permitted : state.Permits event) :
    (state.apply event).identity = state.identity := by
  by_cases executes : event.executes = true
  · exact congrArg (fun kept : Conversation => (kept.exists_, kept.sessionId))
      (state.conversation_apply executes)
  cases event with
  | sessionCreated | sessionResumeSet => exact permitted.elim
  | queuedTurnUpdated queueId inputJson updatedAt ready =>
    obtain ⟨_, changed⟩ :=
      state.apply_queuedTurnUpdated_changes queueId inputJson updatedAt ready
    rw [changed]
    rfl
  | _ => first | rfl | exact absurd rfl executes

theorem identity_evolve (permitted : state.Permits event) :
    (evolve state event).identity = state.identity :=
  identity_apply permitted

theorem exists_evolve (emitted : state.Emits event) : (evolve state event).exists_ = true := by
  cases event with
  | sessionCreated created =>
    exact congrArg Prod.fst (state.identity_applySessionCreated created)
  | _ => exact (congrArg Prod.fst (identity_evolve emitted.2.2)).trans emitted.1

theorem sessionIdText_evolve (permitted : state.Permits event) :
    (evolve state event).sessionIdText = state.sessionIdText := by
  have same : (evolve state event).sessionId = state.sessionId :=
    congrArg Prod.snd (identity_evolve permitted)
  rw [sessionIdText, same, sessionIdText]

theorem named_evolve (wellFormed : state.WellFormed) (emitted : state.Emits event) :
    ∃ sessionId, (evolve state event).sessionId = some sessionId := by
  cases event with
  | sessionCreated created =>
    exact ⟨created.sessionId,
      congrArg Prod.snd (state.identity_applySessionCreated created)⟩
  | _ =>
    have same := congrArg Prod.snd (identity_evolve emitted.2.2)
    obtain ⟨sessionId, known⟩ := wellFormed.named emitted.1
    exact ⟨sessionId, same.trans known⟩

theorem threads_apply (threads : ThreadsBound state.sessionIdText state.providerThreads
      state.activeProviderThreadId) (permitted : state.Permits event) :
    ThreadsBound state.sessionIdText (state.apply event).providerThreads
      (state.apply event).activeProviderThreadId := by
  by_cases adjusts : event.adjusts = true
  · obtain ⟨_, _, _, _, _, changed⟩ := state.apply_adjusts adjusts
    rw [changed]
    exact threads
  cases event with
  | sessionCreated | sessionResumeSet => exact permitted.elim
  | sessionProviderSet providerId model updatedAt =>
    exact threads_retireActive threads updatedAt
  | sessionWorktreeSet worktreeId updatedAt =>
    rw [apply]
    split
    · exact threads
    · exact threads_retireActive threads updatedAt
  | providerThreadUpdated thread =>
    have isScoped : scopeProviderThreadId state.sessionIdText thread.id = thread.id :=
      permitted.1
    let createdAt := ((state.providerThreads.get? thread.id).map (·.createdAt)).getD
      thread.createdAt
    rw [apply]
    simp only [isScoped, withProviderThread]
    exact threads.set { thread with createdAt } isScoped
  | activeProviderThreadSet providerThreadId updatedAt =>
    refine threads.activate ?_
    intro id isActive
    obtain ⟨before, given, rfl⟩ := map_eq_some_iff.mp isActive
    obtain ⟨isScoped, known⟩ := permitted before given
    rw [isScoped]
    exact InsertionMap.has_eq_true.mp known
  | turnStarted started => exact threads_applyTurnStarted threads started
  | turnsRolledBack rollback =>
    simp only [apply, applyTurnsRolledBack]
    refine threads.mapValues ?_
    exact fun _ => rfl
  | turnSettled turnId outcome settledAt =>
    exact threads_applyTurnSettled threads turnId outcome settledAt
  | queuedTurnUpdated queueId inputJson updatedAt ready =>
    obtain ⟨_, changed⟩ :=
      state.apply_queuedTurnUpdated_changes queueId inputJson updatedAt ready
    rw [changed]
    exact threads
  | _ => first | exact threads | exact absurd rfl adjusts
theorem queue_apply (queue : QueueOrdered state.queuedTurns state.queueOrder)
    (permitted : state.Permits event) :
    QueueOrdered (state.apply event).queuedTurns (state.apply event).queueOrder := by
  by_cases executes : event.executes = true
  · have kept := state.conversation_apply executes
    have turns := congrArg Conversation.queuedTurns kept
    have order := congrArg Conversation.queueOrder kept
    simp only [conversation] at turns order
    rw [turns, order]
    exact queue
  cases event with
  | sessionCreated | sessionResumeSet => exact permitted.elim
  | queuedTurnEnqueued queued => exact queue_enqueue queue queued
  | queuedTurnUpdated queueId inputJson updatedAt ready =>
    rw [apply]
    split
    · exact queue
    · rename_i current found
      have same := queue.queueId queueId current found
      subst same
      exact queue_set queue { current with inputJson, ready } found
  | queuedTurnRemoved queueId | queuedTurnClaimed queueId => exact queue_remove queue queueId
  | queuedTurnsReordered queueIds reorderedAt => exact ⟨queue.queueId, permitted⟩
  | _ => first | exact absurd rfl executes | exact queue

theorem WellFormed.evolve (wellFormed : state.WellFormed) (emitted : state.Emits event) :
    (Domain.evolve state event).WellFormed where
  unborn := fun absent => by
    rw [exists_evolve emitted] at absent
    cases absent
  named := fun _ => named_evolve wellFormed emitted
  owned := wellFormed.owned.evolve emitted
  threads := by
    cases event with
    | sessionCreated created =>
      have sessionId : (Domain.evolve state (.sessionCreated created)).sessionIdText =
          created.sessionId := by
        have same := congrArg Prod.snd (state.identity_applySessionCreated created)
        exact congrArg (getD · "") same
      rw [sessionId]
      rw [wellFormed.unborn emitted.1]
      exact threads_applySessionCreated created
    | _ =>
      rw [sessionIdText_evolve emitted.2.2]
      exact threads_apply wellFormed.threads emitted.2.2
  queue := by
    cases event with
    | sessionCreated created =>
      have same : (state.applySessionCreated created).queuedTurns = state.queuedTurns ∧
          (state.applySessionCreated created).queueOrder = state.queueOrder := by
        unfold applySessionCreated
        cases created.cursor <;> exact ⟨rfl, rfl⟩
      change QueueOrdered (state.applySessionCreated created).queuedTurns
        (state.applySessionCreated created).queueOrder
      rw [same.1, same.2]
      exact wellFormed.queue
    | _ => exact queue_apply wellFormed.queue emitted.2.2

theorem WellFormed.evolveAll {state : SessionState} {events : List SessionEvent}
    (wellFormed : state.WellFormed) (emitted : EmitsAll state events) :
    (Domain.evolveAll state events).WellFormed :=
  emitted.invariant (fun _ _ before => before.evolve) wellFormed

end SessionState

end Zuse.Domain
