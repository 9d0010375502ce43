import Zuse.Agents.TurnProtocol
import Zuse.Data.InsertionMap

namespace Zuse.Agents

open Zuse.Data List Option InsertionMap ProviderEventEnvelope

/-! What a batch may hold: envelopes of the active turn or of the session, and exactly one
`Completed` when the turn leaves its slot. -/

variable {event : AgentEvent}

namespace ItemTurns

variable {itemTurns : ItemTurns} {itemId : AgentItemId} {turnId : AgentTurnId}

theorem mem_values_delete (member : turnId ∈ (itemTurns.delete itemId).values) :
    turnId ∈ itemTurns.values := by
  obtain ⟨key, found⟩ := mem_values.mp member
  rw [get?_delete] at found
  split at found
  · cases found
  · exact mem_values.mpr ⟨key, found⟩

variable {newTurn : AgentTurnId}

theorem mem_values_set (member : turnId ∈ (itemTurns.set itemId newTurn).values) :
    turnId ∈ itemTurns.values ∨ turnId = newTurn := by
  obtain ⟨key, found⟩ := mem_values.mp member
  rw [get?_set] at found
  split at found
  · exact .inr (some.inj found).symm
  · exact .inl (mem_values.mpr ⟨key, found⟩)

theorem mem_values_rememberItem (member : turnId ∈ (itemTurns.rememberItem event newTurn).values) :
    turnId ∈ itemTurns.values ∨ turnId = newTurn := by
  cases event with
  | toolUse use =>
    have remembered : turnId ∈ ((itemTurns.delete use.itemId).set use.itemId newTurn).values := by
      simp only [rememberItem] at member
      split at member
      · split at member
        · exact mem_values_delete member
        · exact member
      · exact member
    rcases mem_values_set remembered with old | new
    · exact .inl (mem_values_delete old)
    · exact .inr new
  | _ => exact .inl member

theorem originTurnOf_mem {origin : AgentTurnId}
    (isOrigin : itemTurns.originTurnOf event = some origin) :
    origin ∈ itemTurns.values ∧ event.isTerminal = false ∧
      (event.parentItemId.isSome || event.toolItemId.isSome) = true := by
  rw [originTurnOf] at isOrigin
  split at isOrigin
  · cases isOrigin
  rename_i notTerminal
  have terminal := Bool.eq_false_iff.mpr notTerminal
  rcases or_eq_some_iff.mp isOrigin with fromParent | ⟨_, fromItem⟩
  · obtain ⟨parent, isParent, found⟩ := bind_eq_some_iff.mp fromParent
    refine ⟨mem_values.mpr ⟨parent, found⟩, terminal, ?_⟩
    rw [isParent, isSome_some, Bool.true_or]
  · obtain ⟨itemId, isItem, found⟩ := bind_eq_some_iff.mp fromItem
    refine ⟨mem_values.mpr ⟨itemId, found⟩, terminal, ?_⟩
    rw [isItem, isSome_some, Bool.or_true]

end ItemTurns

def ActiveTurn.slot (active : ActiveTurn) : AgentTurnId × Deferred :=
  (active.turnId, active.released)

namespace TurnState

def slot (state : TurnState) : Option (AgentTurnId × Deferred) :=
  state.active.map (·.slot)

def isSent (state : TurnState) : Bool := state.active.all (·.sent)

def ItemsFrom (state next : TurnState) : Prop :=
  ∀ turnId ∈ next.itemTurns.values, turnId ∈ state.itemTurns.values ∨
    ∃ active, state.active = some active ∧ turnId = active.turnId

inductive Batched (state : TurnState) : NormalizedBatch × TurnState → Prop
  | keeps {batch : NormalizedBatch} {next : TurnState} (unreleased : batch.released = none)
      (same : next.slot = state.slot) (sent : next.isSent = state.isSent)
      (items : state.ItemsFrom next)
      (events : ∀ envelope ∈ batch.events, ∀ turnId, envelope.turnId = some turnId →
        envelope.isTerminalOf turnId = false ∧
          ∃ active, state.active = some active ∧ turnId = active.turnId) :
      Batched state (batch, next)
  | ends {batch : NormalizedBatch} {next : TurnState} (active : ActiveTurn)
      (isActive : state.active = some active) (released : batch.released = some active.released)
      (empty : next.active = none) (items : state.ItemsFrom next)
      (front back : List ProviderEventEnvelope) (reason : CompletedReason)
      (events : batch.events = front ++ turnEnvelope active.turnId (.completed reason) :: back)
      (before : ∀ envelope ∈ front, envelope.turnId = some active.turnId ∧
        envelope.isCompletedOf active.turnId = false)
      (after : ∀ envelope ∈ back, envelope.turnId = none) :
      Batched state (batch, next)

variable {state : TurnState} {active : ActiveTurn} {next : TurnState}

theorem ItemsFrom.of_eq (same : next.itemTurns = state.itemTurns) : state.ItemsFrom next := by
  intro turnId member
  exact .inl (same ▸ member)

theorem itemsFrom_remember (isActive : state.active = some active) (event : AgentEvent)
    (remembers : next.itemTurns = state.itemTurns.rememberItem event active.turnId) :
    state.ItemsFrom next := by
  intro turnId member
  rw [remembers] at member
  rcases ItemTurns.mem_values_rememberItem member with old | new
  · exact .inl old
  · exact .inr ⟨active, isActive, new⟩

theorem batched_session {events : List ProviderEventEnvelope}
    (session : ∀ envelope ∈ events, envelope.turnId = none) :
    Batched state ({ events }, state) := by
  refine .keeps rfl rfl rfl (.of_eq rfl) fun envelope member turnId isTurn => ?_
  rw [session envelope member] at isTurn
  cases isTurn

theorem batched_empty : Batched state (.empty, state) :=
  batched_session (forall_mem_nil _)

section

variable (isActive : state.active = some active)
include isActive

theorem batched_one (notTerminal : event.isTerminal = false)
    (same : next.slot = state.slot) (sent : next.isSent = state.isSent)
    (items : state.ItemsFrom next) :
    Batched state ({ events := [turnEnvelope active.turnId event] }, next) := by
  refine .keeps rfl same sent items fun envelope member turnId isTurn => ?_
  rw [mem_singleton.mp member] at isTurn ⊢
  cases isTurn
  refine ⟨?_, active, isActive, rfl⟩
  simp [turnEnvelope, isTerminalOf, notTerminal]

theorem deliver_batched (event : AgentEvent) (notTerminal : event.isTerminal = false) :
    Batched state (state.deliver active event) :=
  batched_one isActive notTerminal rfl rfl (itemsFrom_remember isActive event rfl)

variable {changed : ActiveTurn}

theorem slot_with (isChanged : next.active = some changed) (same : changed.slot = active.slot) :
    next.slot = state.slot := by
  rw [slot, slot, isActive, isChanged, map_some, map_some, same]

theorem isSent_with (isChanged : next.active = some changed) (same : changed.sent = active.sent) :
    next.isSent = state.isSent := by
  rw [isSent, isSent, isActive, isChanged, all_some, all_some, same]

theorem registerChild_batched (use : ToolUse) : Batched state (state.registerChild active use) := by
  rw [registerChild]
  split
  · exact batched_empty
  · exact batched_one isActive rfl (slot_with isActive rfl rfl) (isSent_with isActive rfl rfl)
      (itemsFrom_remember isActive (.toolUse use) rfl)

theorem settleChild_batched (itemId : AgentItemId) (event : AgentEvent)
    (notTerminal : event.isTerminal = false) :
    Batched state (state.settleChild active itemId event) := by
  rw [settleChild]
  split
  · rename_i reason _
    split
    · refine .ends active isActive rfl rfl (.of_eq rfl)
        [turnEnvelope active.turnId event] [] reason rfl ?_ (forall_mem_nil _)
      intro envelope member
      rw [mem_singleton.mp member]
      refine ⟨rfl, ?_⟩
      cases event with
      | completed => cases notTerminal
      | _ => rfl
    · exact batched_one isActive notTerminal (slot_with isActive rfl rfl)
        (isSent_with isActive rfl rfl) (.of_eq rfl)
  · exact batched_one isActive notTerminal (slot_with isActive rfl rfl)
      (isSent_with isActive rfl rfl) (.of_eq rfl)

theorem parkCompletion_batched (reason : CompletedReason) :
    Batched state (state.parkCompletion active reason) := by
  rw [parkCompletion]
  split
  · exact batched_empty
  refine .keeps rfl (slot_with isActive rfl rfl) (isSent_with isActive rfl rfl)
    (.of_eq rfl) fun envelope member turnId isTurn => ?_
  obtain ⟨child, _, rfl⟩ := mem_map.mp member
  cases isTurn
  refine ⟨?_, active, isActive, rfl⟩
  simp [turnEnvelope, isTerminalOf, NativeChild.rootCompleted, AgentEvent.isTerminal]

end

theorem stoppedChildren_quiet {envelope : ProviderEventEnvelope}
    (member : envelope ∈ active.stoppedChildren) :
    envelope.turnId = some active.turnId ∧ envelope.isTerminalOf active.turnId = false ∧
      envelope.isCompletedOf active.turnId = false := by
  obtain ⟨child, _, rfl⟩ := mem_map.mp member
  rw [NativeChild.stopped]
  split <;> simp [turnEnvelope, turnId,
    isTerminalOf, isCompletedOf,
    AgentEvent.isTerminal]

/-- A turn ends with one `Completed`, after what else ends it. -/
theorem endTurn_batched (isActive : state.active = some active) (first : List AgentEvent)
    (reason : CompletedReason) {session : List ProviderEventEnvelope}
    (notCompleted : ∀ event ∈ first,
      (turnEnvelope active.turnId event).isCompletedOf active.turnId = false)
    (isSession : ∀ envelope ∈ session, envelope.turnId = none) :
    Batched state (state.endTurn active (first ++ [.completed reason]) session) := by
  refine .ends active isActive rfl rfl (.of_eq rfl)
    (active.stoppedChildren ++ first.map (turnEnvelope active.turnId)) session reason
    (by simp) ?_ isSession
  intro envelope member
  rcases mem_append.mp member with stopped | ended
  · exact ⟨(stoppedChildren_quiet stopped).1, (stoppedChildren_quiet stopped).2.2⟩
  · obtain ⟨event, isFirst, rfl⟩ := mem_map.mp ended
    exact ⟨rfl, notCompleted event isFirst⟩

theorem changeStatus_batched (isActive : state.active = some active)
    (status : AgentStatus) : Batched state (state.changeStatus active status) := by
  have session : ∀ envelope ∈ [sessionEnvelope (.agent (.status status))],
      envelope.turnId = none := by
    intro envelope member
    rw [mem_singleton.mp member]
    rfl
  cases status with
  | idle => exact endTurn_batched isActive [] .ended (forall_mem_nil _) session
  | closed | error =>
    refine endTurn_batched isActive [.error _] .error ?_ session
    intro event member
    rw [mem_singleton.mp member]
    rfl
  | _ => exact batched_session session

theorem normalizeActive_batched (isActive : state.active = some active)
    (event : AgentEvent) : Batched state (state.normalizeActive active event) := by
  have other (first : AgentEvent)
      (notCompleted : (turnEnvelope active.turnId first).isCompletedOf active.turnId =
        false) : ∀ event ∈ [first],
          (turnEnvelope active.turnId event).isCompletedOf active.turnId = false := by
    intro event member
    rw [mem_singleton.mp member]
    exact notCompleted
  unfold normalizeActive
  split
  · exact batched_empty
  cases event with
  | toolUse use =>
    dsimp only
    split
    · exact registerChild_batched isActive use
    · exact deliver_batched isActive _ (by rfl)
  | subagentSummary summary =>
    exact settleChild_batched isActive summary.itemId (.subagentSummary summary) rfl
  | toolResult result =>
    dsimp only
    split
    · exact settleChild_batched isActive result.itemId (.toolResult result) rfl
    · exact deliver_batched isActive _ (by rfl)
  | completed reason =>
    dsimp only
    split
    · exact parkCompletion_batched isActive reason
    · exact endTurn_batched isActive [] reason (forall_mem_nil _) (forall_mem_nil _)
  | status status =>
    dsimp only
    split
    · exact parkCompletion_batched isActive .ended
    · exact changeStatus_batched isActive status
  | interrupted =>
    exact endTurn_batched isActive [.interrupted] .interrupted (other _ rfl) (forall_mem_nil _)
  | error message =>
    exact endTurn_batched isActive [.error message] .error (other _ rfl) (forall_mem_nil _)
  | _ => exact deliver_batched isActive _ (by rfl)

theorem finalize_batched : Batched state state.finalize := by
  rw [finalize]
  split
  · exact batched_empty
  rename_i active isActive
  refine endTurn_batched isActive [.error _] .error ?_ (forall_mem_nil _)
  intro event member
  rw [mem_singleton.mp member]
  rfl

theorem normalize_batched (state : TurnState) (event : AgentEvent) :
    (Batched state (state.normalize event) ∧
        (!event.isSession && (state.originTurn event).isSome) = false) ∨
      ∃ origin ∈ state.itemTurns.values, event.isTerminal = false ∧
        (event.parentItemId.isSome || event.toolItemId.isSome) = true ∧
        (!event.isSession && (state.originTurn event).isSome) = true ∧
        state.normalize event = ({ events := [turnEnvelope origin event] },
          { state with itemTurns := state.itemTurns.rememberItem event origin }) := by
  rw [normalize]
  split
  · rename_i isSession
    refine .inl ⟨batched_session ?_, by rw [isSession]; rfl⟩
    intro envelope member
    rw [mem_singleton.mp member]
    rfl
  rename_i notSession
  split
  · rename_i origin isOrigin
    rw [originTurn, filter_eq_some_iff] at isOrigin
    obtain ⟨inItems, notTerminal, isOfItem⟩ := ItemTurns.originTurnOf_mem isOrigin.1
    refine .inr ⟨origin, inItems, notTerminal, isOfItem, ?_, rfl⟩
    rw [originTurn, filter_eq_some_iff.mpr isOrigin, Bool.eq_false_iff.mpr notSession]
    rfl
  rename_i noOrigin
  have notRouted : (!event.isSession && (state.originTurn event).isSome) = false := by
    rw [noOrigin]
    exact Bool.and_false _
  refine .inl ⟨?_, notRouted⟩
  split
  · rename_i active isActive
    exact normalizeActive_batched isActive event
  unfold normalizeIdle
  split
  · exact batched_session (by simp [sessionEnvelope, turnId])
  · exact batched_session (by simp [sessionEnvelope, turnId])
  · exact batched_session (by simp [sessionEnvelope, turnId])
  · exact batched_empty

def sentTurn (turnId : AgentTurnId) (released : Deferred) : ActiveTurn where
  turnId
  released
  sent := true
  origin := .application
  children := .empty
  completedChildren := []
  pendingCompletion := none

inductive Admitted (state : TurnState) (turnId : AgentTurnId) (released : Deferred) :
    SendDecision × TurnState → Prop
  | skips (active : ActiveTurn) (isActive : state.active = some active)
      (isTurn : active.turnId = turnId) (sent : active.sent = true) :
      Admitted state turnId released (.skip, state)
  | sends (active : ActiveTurn) (isActive : state.active = some active)
      (isTurn : active.turnId = turnId) (unsent : active.sent = false) :
      Admitted state turnId released
        (.operate, { state with active := some { active with sent := true } })
  | adopts (active : ActiveTurn) (isActive : state.active = some active)
      (notTurn : active.turnId ≠ turnId) (isProvider : active.origin = .provider) :
      Admitted state turnId released
        (.adopt active.released,
          { state with
            active := some { active with
              turnId
              released
              sent := true
              origin := .application } })
  | refuses (active : ActiveTurn) (isActive : state.active = some active)
      (notTurn : active.turnId ≠ turnId) (isApplication : active.origin = .application) :
      Admitted state turnId released (.refuse, state)
  | opens (empty : state.active = none) :
      Admitted state turnId released
        (.operate, { state with active := some (sentTurn turnId released) })

theorem admitSend_admitted (state : TurnState) (turnId : AgentTurnId) (released : Deferred) :
    Admitted state turnId released (state.admitSend turnId released) := by
  rw [admitSend]
  split
  · rename_i active isActive
    split
    · rename_i isTurn
      split
      · rename_i sent
        exact .skips active isActive isTurn sent
      · rename_i unsent
        exact .sends active isActive isTurn (Bool.eq_false_iff.mpr unsent)
    · rename_i notTurn
      split
      · rename_i isProvider
        exact .adopts active isActive notTurn isProvider
      · rename_i notProvider
        refine .refuses active isActive notTurn ?_
        cases origin : active.origin with
        | application => rfl
        | provider => exact absurd origin notProvider
  · rename_i empty
    exact .opens empty

end TurnState

end Zuse.Agents
