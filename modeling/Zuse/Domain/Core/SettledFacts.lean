import Zuse.Domain.Core.Session

namespace Zuse.Domain

open Zuse.Data

/-- The events that bind a provider's turn, or that let a session hold a provider. -/
def SessionEvent.provides : SessionEvent → Bool
  | .attemptProviderTurnBound .. | .providerSessionReserved .. | .sessionUnarchived _ => true
  | _ => false

namespace SessionState

/-- A question has one end, a provider turn serves one attempt, and only a session in use holds
a provider. -/
structure Settles (state : SessionState) : Prop where
  questions : Disjoint state.expiredQuestionIds state.resolvedQuestionIds
  references : ∀ left right reference,
    state.attemptProviderTurns.get? left = some reference →
      state.attemptProviderTurns.get? right = some reference → left = right
  reserved : state.providerReservation.isSome = true →
    state.archived = false ∧ state.deleted = false

/-- What later commands leave as it was. -/
structure Stands (state later : SessionState) : Prop where
  answers : state.resolvedQuestionIds ⊆ later.resolvedQuestionIds
  references : ∀ attemptId reference,
    state.attemptProviderTurns.get? attemptId = some reference →
      later.attemptProviderTurns.get? attemptId = some reference

theorem Stands.refl (state : SessionState) : state.Stands state :=
  ⟨subset_rfl, fun _ _ bound => bound⟩

theorem Stands.trans {state middle later : SessionState} (first : state.Stands middle)
    (second : middle.Stands later) : state.Stands later :=
  ⟨first.answers.trans second.answers, fun attemptId reference bound =>
    second.references attemptId reference (first.references attemptId reference bound)⟩

theorem questions_answered {expired resolved : Finset String}
    (disjoint : Disjoint expired resolved) (itemId : String) :
    Disjoint (expired.erase itemId) (insert itemId resolved) ∧ resolved ⊆ insert itemId resolved :=
  ⟨Finset.disjoint_insert_right.mpr ⟨Finset.notMem_erase itemId expired,
    disjoint.mono_left (Finset.erase_subset itemId expired)⟩, Finset.subset_insert itemId resolved⟩

variable [PayloadCodec] {state : SessionState} {event : SessionEvent}

theorem provides_evolve (plain : event.provides = false) :
    (evolve state event).attemptProviderTurns = state.attemptProviderTurns ∧
      ((evolve state event).providerReservation = none ∨
        (evolve state event).providerReservation = state.providerReservation ∧
          (evolve state event).archived = state.archived ∧
            (evolve state event).deleted = state.deleted) := by
  cases event with
  | attemptProviderTurnBound | providerSessionReserved | sessionUnarchived => cases plain
  | sessionModelSet | sessionArchived | sessionDeleted => exact ⟨rfl, .inl rfl⟩
  | sessionCreated | sessionProviderSet | sessionWorktreeSet | sessionStatusSet
  | sessionResumeSet | providerThreadUpdated | turnStarted | attemptStarted
  | turnFinalizationRequested | turnSettled | turnInterruptRequested
  | turnInterruptAcknowledged | turnInterruptFailed | queuedTurnUpdated | providerAttached
  | providerStopRequested | providerDetached =>
    simp only [evolve, apply, applySessionCreated, bindLegacyResume, withProviderThread,
      retireActiveProviderThread, applySessionStatusSet, applyTurnStarted, withTurn,
      applyAttemptStarted, applyTurnSettled, withTurnPhase, releaseReservation]
    repeat' split
    all_goals simp
  | _ => exact ⟨rfl, .inr ⟨rfl, rfl, rfl⟩⟩

theorem questions_evolve (emitted : state.Emits event)
    (disjoint : Disjoint state.expiredQuestionIds state.resolvedQuestionIds) :
    Disjoint (evolve state event).expiredQuestionIds (evolve state event).resolvedQuestionIds ∧
      state.resolvedQuestionIds ⊆ (evolve state event).resolvedQuestionIds := by
  by_cases executes : event.executes = true
  · have same := state.conversation_apply executes
    have expired : (evolve state event).expiredQuestionIds = state.expiredQuestionIds :=
      congrArg Conversation.expiredQuestionIds same
    have resolved : (evolve state event).resolvedQuestionIds = state.resolvedQuestionIds :=
      congrArg Conversation.resolvedQuestionIds same
    rw [expired, resolved]
    exact ⟨disjoint, subset_rfl⟩
  cases event with
  | sessionCreated created =>
    simp only [evolve, apply, applySessionCreated]
    split <;> exact ⟨disjoint, subset_rfl⟩
  | sessionResumeSet => exact emitted.2.2.elim
  | queuedTurnUpdated =>
    simp only [evolve, apply]
    split <;> exact ⟨disjoint, subset_rfl⟩
  | messagePersisted message =>
    simp only [evolve, apply, evolveMessage]
    repeat' split
    all_goals first
      | exact ⟨disjoint, subset_rfl⟩
      | exact questions_answered disjoint _
  | questionResolved itemId => exact questions_answered disjoint itemId
  | questionExpired itemId =>
    exact ⟨Finset.disjoint_insert_left.mpr ⟨emitted.2.2.1, disjoint⟩, subset_rfl⟩
  | _ => first | exact absurd rfl executes | exact ⟨disjoint, subset_rfl⟩

theorem Settles.evolve (settles : state.Settles) (emitted : state.Emits event) :
    (evolve state event).Settles ∧ state.Stands (evolve state event) := by
  cases provides : event.provides with
  | false =>
    obtain ⟨questions, answers⟩ := questions_evolve emitted settles.questions
    obtain ⟨references, reserved⟩ := @provides_evolve _ state event provides
    refine ⟨⟨questions, references ▸ settles.references, fun held => ?_⟩, answers,
      references ▸ fun _ _ bound => bound⟩
    rcases reserved with free | ⟨same, archived, deleted⟩
    · simp [free] at held
    · rw [archived, deleted]
      exact settles.reserved (same ▸ held)
  | true =>
    cases event with
    | attemptProviderTurnBound turnId attemptId reference boundAt =>
      obtain ⟨-, -, -, fresh, apart, -⟩ := emitted
      simp only [Domain.evolve, apply]
      repeat' split
      · exact ⟨{ settles with }, { Stands.refl state with }⟩
      · exact ⟨{ settles with }, { Stands.refl state with }⟩
      refine ⟨⟨settles.questions, fun left right other isLeft isRight => ?_, settles.reserved⟩,
        subset_rfl, fun other known bound => ?_⟩
      · simp only [InsertionMap.get?_set] at isLeft isRight
        split at isLeft <;> split at isRight
        · simp_all
        · cases isLeft
          exact absurd isRight (apart right)
        · cases isRight
          exact absurd isLeft (apart left)
        · exact settles.references left right other isLeft isRight
      · rw [InsertionMap.get?_set, if_neg (fun same => by simp [← same, fresh] at bound)]
        exact bound
    | providerSessionReserved =>
      exact ⟨⟨settles.questions, settles.references, fun _ => ⟨emitted.2.2, emitted.2.1⟩⟩,
        { Stands.refl state with }⟩
    | sessionUnarchived =>
      exact ⟨⟨settles.questions, settles.references, fun _ => ⟨rfl, emitted.2.1⟩⟩,
        { Stands.refl state with }⟩
    | _ => cases provides

end SessionState

variable [PayloadCodec]

theorem Session.Sound.settles_step {session next : Session} {command : SessionCommand}
    (sound : session.Sound) (settles : session.state.Settles)
    (stepped : sessionSystem.step session command = some next) :
    next.state.Settles ∧ session.state.Stands next.state := by
  obtain ⟨events, decided, state, -⟩ := sessionSystem_step.mp stepped
  have lawful := decide_lawful sound.wellFormed sound.rested decided
  rw [state]
  refine @EmitsAll.invariant _ (fun later => later.Settles ∧ session.state.Stands later) ?_ _ _
    lawful.emitted ⟨settles, .refl session.state⟩
  intro later event kept emitted
  obtain ⟨settled, stands⟩ := kept.1.evolve emitted
  exact ⟨settled, kept.2.trans stands⟩

/-- Whatever commands a session is given, its questions, provider turns and reservation stay in
order, and later commands take back no answer and no binding. -/
theorem settled_facts_stand (commands : List SessionCommand) :
    sessionSystem.Everywhere (fun session => session.state.Settles ∧ ∀ later,
      (sessionSystem.runFrom session later).elim True fun last =>
        session.state.Stands last.state) sessionSystem.init commands := by
  refine .of_invariant (fun session (kept : session.Sound ∧ session.state.Settles) =>
      ⟨kept.2, fun later => ?_⟩)
    (fun session command next kept stepped =>
      ⟨kept.1.step stepped, (kept.1.settles_step kept.2 stepped).1⟩)
    ⟨.initial, by constructor <;> simp [sessionSystem, initialSessionState]⟩ commands
  cases ran : sessionSystem.runFrom session later with
  | none => trivial
  | some last =>
    have onward : sessionSystem.Everywhere (fun reached => session.state.Stands reached.state)
        session later := by
      refine .of_invariant (fun (reached : Session) (stands : reached.Sound ∧
          reached.state.Settles ∧ session.state.Stands reached.state) => stands.2.2)
        (fun _ _ _ stands stepped => ?_) ⟨kept.1, kept.2, .refl session.state⟩ later
      obtain ⟨settled, stood⟩ := stands.1.settles_step stands.2.1 stepped
      exact ⟨stands.1.step stepped, settled, stands.2.2.trans stood⟩
    exact onward.last ran

theorem providerThreads_bound (commands : List SessionCommand) :
    sessionSystem.Everywhere (fun session => ThreadsBound session.state.sessionIdText
      session.state.providerThreads session.state.activeProviderThreadId)
        sessionSystem.init commands := by
  refine @TransitionSystem.Everywhere.of_invariant _ _ _ Session.Sound _ ?_ ?_ _ .initial commands
  · exact fun session sound => sound.wellFormed.threads
  · exact fun session command next sound stepped => sound.step stepped

end Zuse.Domain
