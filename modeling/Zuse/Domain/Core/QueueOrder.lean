import Zuse.Domain.Core.NotableEvents

namespace Zuse.Domain

open Zuse.Data List

/-! The order of the queue. The queue and its order are kept by separate fields, and a
client may send any list of ids to reorder them. -/

/-- The ids are those of the queued turns, each of them once. -/
structure SessionState.ListsQueue (state : SessionState) (queueIds : List String) : Prop where
  once : queueIds.Nodup
  queued : ∀ queueId, queueId ∈ queueIds ↔ state.queuedTurns.has queueId = true

def SessionState.NamesOnce (state : SessionState) : SessionCommand → Prop
  | .reorderQueuedTurns queueIds _ => (queueIds.filter state.queuedTurns.has).Nodup
  | _ => True

instance (state : SessionState) (command : SessionCommand) :
    Decidable (state.NamesOnce command) := by
  cases command
  case reorderQueuedTurns queueIds _ =>
    exact inferInstanceAs (Decidable (queueIds.filter state.queuedTurns.has).Nodup)
  all_goals exact .isTrue trivial

section

variable {state : SessionState} {events : List SessionEvent} {queueIds : List String}

theorem repaired_nodup {order : List String} {known : String → Bool} (once : order.Nodup) :
    (queueIds.filter known ++ order.filter fun queueId => queueId ∉ queueIds.filter known).Nodup ↔
      (queueIds.filter known).Nodup := by
  rw [nodup_append]
  constructor
  · exact fun all => all.1
  · intro named
    refine ⟨named, once.filter _, ?_⟩
    rintro queueId first _ last rfl
    exact of_decide_eq_true (mem_filter.mp last).2 first

theorem repaired_listed
    (listed : ∀ queueId, queueId ∈ state.queueOrder ↔ state.queuedTurns.has queueId = true)
    (queueId : String) :
    queueId ∈ queueIds.filter state.queuedTurns.has ++
        state.queueOrder.filter (fun other => other ∉ queueIds.filter state.queuedTurns.has) ↔
      state.queuedTurns.has queueId = true := by
  rw [mem_append, mem_filter, mem_filter, listed]
  constructor
  · rintro (⟨-, isQueued⟩ | ⟨isQueued, -⟩) <;> exact isQueued
  · intro isQueued
    by_cases named : queueId ∈ queueIds
    · exact .inl ⟨named, isQueued⟩
    · exact .inr ⟨isQueued, by simp [named]⟩

def Unordering (events : List SessionEvent) : Prop :=
  ∀ event ∈ events, event.newOrder = none

theorem unordering_decide (command : SessionCommand)
    (others : ∀ queueIds reorderedAt, command ≠ .reorderQueuedTurns queueIds reorderedAt)
    (decided : decide state command = .ok events) : Unordering events := by
  intro event member
  have explained := decide_explains decided event member
  cases event with
  | queuedTurnsReordered =>
    obtain ⟨queueIds, reorderedAt, isCommand⟩ := explained
    exact absurd isCommand (others queueIds reorderedAt)
  | _ => rfl

end

section

variable [PayloadCodec] {state : SessionState} {event : SessionEvent}

omit [PayloadCodec] in
theorem queueOrder_created (created : SessionCreatedEvent) :
    (state.applySessionCreated created).queueOrder = state.queueOrder := by
  unfold SessionState.applySessionCreated
  cases created.cursor <;> rfl

theorem nodup_evolve (wellFormed : state.WellFormed) (emitted : state.Emits event)
    (sameOrder : event.newOrder = none) (once : state.queueOrder.Nodup) :
    (evolve state event).queueOrder.Nodup := by
  change (state.apply event).queueOrder.Nodup
  by_cases executes : event.executes = true
  · have order := congrArg SessionState.Conversation.queueOrder (state.conversation_apply executes)
    simp only [SessionState.conversation] at order
    rw [order]
    exact once
  cases event with
  | sessionCreated created =>
    rw [SessionState.apply, queueOrder_created]
    exact once
  | sessionResumeSet => exact emitted.2.2.elim
  | queuedTurnEnqueued queued =>
    have absent : queued.queueId ∉ state.queueOrder := by
      rw [wellFormed.queue.listed, InsertionMap.has_eq_true, emitted.2.2]
      rintro ⟨_, found⟩
      cases found
    refine nodup_append.mpr ⟨once, nodup_singleton _, ?_⟩
    rintro queueId member _ last rfl
    exact absent (mem_singleton.mp last ▸ member)
  | queuedTurnUpdated queueId inputJson updatedAt ready =>
    obtain ⟨_, changed⟩ :=
      state.apply_queuedTurnUpdated_changes queueId inputJson updatedAt ready
    rw [changed]
    exact once
  | queuedTurnRemoved queueId | queuedTurnClaimed queueId => exact once.filter _
  | queuedTurnsReordered queueIds => cases sameOrder
  | _ => first | exact absurd rfl executes | exact once

theorem nodup_evolveAll {events : List SessionEvent} (wellFormed : state.WellFormed)
    (emitted : EmitsAll state events) (sameOrder : Unordering events)
    (once : state.queueOrder.Nodup) : (evolveAll state events).queueOrder.Nodup := by
  induction events generalizing state with
  | nil => exact once
  | cons event rest ih =>
    obtain ⟨first, others⟩ := forall_mem_cons.mp sameOrder
    exact ih (wellFormed.evolve emitted.1) emitted.2 others
      (nodup_evolve wellFormed emitted.1 first once)

variable {session : Session} {command : SessionCommand}

theorem nodup_step {next : Session} (sound : session.Sound) (once : session.state.queueOrder.Nodup)
    (stepped : sessionSystem.step session command = some next) :
    next.state.queueOrder.Nodup ↔ session.state.NamesOnce command := by
  obtain ⟨events, decided, after, -⟩ := sessionSystem_step.mp stepped
  have lawful := decide_lawful sound.wellFormed sound.rested decided
  rw [after]
  by_cases others : ∀ queueIds reorderedAt, command ≠ .reorderQueuedTurns queueIds reorderedAt
  · have named : session.state.NamesOnce command := by
      cases command with
      | reorderQueuedTurns queueIds reorderedAt =>
        exact absurd rfl (others queueIds reorderedAt)
      | _ => trivial
    exact iff_of_true (nodup_evolveAll sound.wellFormed lawful.emitted
      (unordering_decide command others decided) once) named
  push Not at others
  obtain ⟨queueIds, reorderedAt, rfl⟩ := others
  simp only [Domain.decide] at decided
  repeat' split at decided
  all_goals cases decided
  exact repaired_nodup once

def Session.Ordered (session : Session) : Prop :=
  session.state.ListsQueue session.state.queueOrder

/-- Every new order that the decider emits for a command lists the queue. -/
def Session.Reorders (session : Session) (command : SessionCommand) : Prop :=
  ∀ events, Domain.decide session.state command = .ok events →
    ∀ queueIds reorderedAt, .queuedTurnsReordered queueIds reorderedAt ∈ events →
      session.state.ListsQueue queueIds

theorem Session.Sound.ordered_iff (sound : session.Sound) :
    session.Ordered ↔ session.state.queueOrder.Nodup :=
  ⟨fun ordered => ordered.once, fun once => ⟨once, sound.wellFormed.queue.listed⟩⟩

theorem Session.Sound.reorders (sound : session.Sound) (once : session.state.queueOrder.Nodup)
    (named : session.state.NamesOnce command) : session.Reorders command := by
  intro events decided queueIds reorderedAt member
  by_cases others : ∀ given givenAt, command ≠ .reorderQueuedTurns given givenAt
  · have quiet := unordering_decide command others decided _ member
    cases quiet
  push Not at others
  obtain ⟨given, givenAt, rfl⟩ := others
  simp only [Domain.decide] at decided
  repeat' split at decided
  all_goals cases decided
  rw [mem_singleton, SessionEvent.queuedTurnsReordered.injEq] at member
  rw [member.1]
  exact ⟨(repaired_nodup once).mpr named, repaired_listed sound.wellFormed.queue.listed⟩

/-- The order lists the queue in every state of a run, and so does every new order,
exactly when no command of the run names a queued turn twice. -/
theorem queueOrder_iff (commands : List SessionCommand) :
    sessionSystem.Everywhere Session.Ordered sessionSystem.init commands ∧
        sessionSystem.EachStep Session.Reorders sessionSystem.init commands ↔
      sessionSystem.EachStep (fun session command => session.state.NamesOnce command)
        sessionSystem.init commands := by
  have everywhere : sessionSystem.Everywhere Session.Ordered sessionSystem.init commands ↔
      sessionSystem.EachStep (fun session command => session.state.NamesOnce command)
        sessionSystem.init commands := by
    have preserved (session : Session) (command : SessionCommand) (next : Session)
        (sound : session.Sound) (stepped : sessionSystem.step session command = some next) :
        next.Sound := sound.step stepped
    refine TransitionSystem.everywhere_iff preserved ?_ .initial ?_ commands
    · intro session command next sound ordered stepped
      rw [(sound.step stepped).ordered_iff]
      exact nodup_step sound ordered.once stepped
    · exact Session.Sound.initial.ordered_iff.mpr nodup_nil
  refine ⟨fun both => everywhere.mp both.1, fun named => ⟨everywhere.mpr named, ?_⟩⟩
  refine named.conclude (fun session => session.Sound ∧ session.state.queueOrder.Nodup) ?_
    ⟨.initial, nodup_nil⟩
  rintro session command next ⟨sound, once⟩ namesOnce stepped
  exact ⟨⟨sound.step stepped, (nodup_step sound once stepped).mpr namesOnce⟩,
    sound.reorders once namesOnce⟩

end

def namedTwice : List SessionCommand :=
  [.createSession (.plain "session") none, .enqueueTurn "queued" "text" 0 1 true,
    .reorderQueuedTurns ["queued", "queued"] 2]

theorem not_queueOrder :
    ¬ ∀ (commands : List SessionCommand) (session : Session),
      (@sessionSystem rejectingCodec).run commands = some session → session.Ordered := by
  intro claim
  have ran : ((@sessionSystem rejectingCodec).run namedTwice).map (·.state.queueOrder) =
      some ["queued", "queued"] := by
    decide +kernel
  obtain ⟨session, reached, order⟩ := Option.map_eq_some_iff.mp ran
  have once := (claim namedTwice session reached).once
  rw [order] at once
  revert once
  decide

end Zuse.Domain
