import Zuse.Agents.TurnLog

namespace Zuse.Agents

open Zuse.Data List TurnState TurnWorld Option TurnLogEntry Bool
open ProviderEventEnvelope (isTerminalOf_of_isCompletedOf owned_isCompletedOf isTerminalOf
  owned_turnId owned_isOfItem)

/-! Every turn gets one terminal, and nothing but late output of its items after it. -/

namespace TurnState

variable {state : TurnState} {active : ActiveTurn}

theorem slot_of_active (isActive : state.active = some active) :
    state.slot = some (active.turnId, active.released) := by
  rw [slot, isActive]
  rfl

theorem slot_of_empty (empty : state.active = none) : state.slot = none := by
  rw [slot, empty]
  rfl

theorem isSent_of_empty (empty : state.active = none) : state.isSent = true := by
  rw [isSent, empty]
  rfl

theorem active_of_slot {turnId : AgentTurnId} {released : Deferred}
    (isSlot : state.slot = some (turnId, released)) :
    ∃ active, state.active = some active ∧ active.turnId = turnId ∧ active.released = released := by
  obtain ⟨active, isActive, same⟩ := map_eq_some_iff.mp isSlot
  exact ⟨active, isActive, congrArg Prod.fst same, congrArg Prod.snd same⟩

end TurnState

namespace TurnWorld

def Finished (world : TurnWorld) (turnId : AgentTurnId) (released : Deferred) : Prop :=
  released ∈ world.completed ∧
    (.sendFailed turnId released ∈ world.log ∨ .adopted turnId released ∈ world.log ∨
      ∃ entry ∈ world.log, entry.completes turnId = true)

structure IsUnseen (world : TurnWorld) (turnId : AgentTurnId) : Prop where
  items : turnId ∉ world.state.itemTurns.values
  log : ∀ entry ∈ world.log, entry.isOf turnId = false

variable {world : TurnWorld}

theorem Finished.mono {turnId : AgentTurnId} {released : Deferred}
    (finished : world.Finished turnId released) {next : TurnWorld}
    (completed : world.completed ⊆ next.completed) (log : world.log ⊆ next.log) :
    next.Finished turnId released := by
  obtain ⟨done, reason⟩ := finished
  refine ⟨completed done, ?_⟩
  rcases reason with failed | adopted | ⟨entry, member, completes⟩
  · exact .inl (log failed)
  · exact .inr (.inl (log adopted))
  · exact .inr (.inr ⟨entry, log member, completes⟩)

theorem IsUnseen.note {turnId : AgentTurnId} (unseen : world.IsUnseen turnId)
    (next : TurnWorld) {entry : TurnLogEntry} (items : next.state.itemTurns = world.state.itemTurns)
    (log : next.log = world.log ++ [entry]) (other : entry.isOf turnId = false) :
    next.IsUnseen turnId where
  items := items ▸ unseen.items
  log := by
    intro first member
    rw [log] at member
    rcases mem_concat.mp member with old | rfl
    · exact unseen.log first old
    · exact other

variable [HandleInput]

structure Sound (world : TurnWorld) : Prop where
  log : LogSound world.log
  running : ∀ turnId released, world.state.slot = some (turnId, released) →
    .opened turnId released ∈ world.log ∧ ∀ entry ∈ world.log, entry.completes turnId = false
  settled : ∀ turnId released, .opened turnId released ∈ world.log →
    world.state.slot = some (turnId, released) ∨ world.Finished turnId released
  items : ∀ turnId ∈ world.state.itemTurns.values, turnId ∈ openedIds world.log
  owner : ∀ owner, ownership = some owner → world.finished = false →
    world.IsUnseen owner.turnId ∨ ∃ released, world.state.slot = some (owner.turnId, released)
  sent : ownership.isSome = true → world.state.isSent = true
  closed : world.ended = true → world.state.active = none
  waiting : ∀ turnId released, (turnId, released) ∈ world.waiting →
    released ∈ world.completed ∨ world.state.slot = some (turnId, released)

namespace Sound

variable {turnId : AgentTurnId}

theorem opened_of_slot (sound : world.Sound) {released : Deferred}
    (isSlot : world.state.slot = some (turnId, released)) :
    turnId ∈ openedIds world.log :=
  mem_openedIds.mpr ⟨released, (sound.running turnId released isSlot).1⟩

theorem unseen_of_fresh (sound : world.Sound) (fresh : turnId ∉ openedIds world.log) :
    world.IsUnseen turnId where
  items := fun member => fresh (sound.items turnId member)
  log := by
    intro entry member
    by_contra seen
    exact fresh (sound.log.opened_of_isOf member (eq_true_of_ne_false seen))

theorem items_from (sound : world.Sound) {next : TurnState} (items : world.state.ItemsFrom next) :
    ∀ turnId ∈ next.itemTurns.values, turnId ∈ openedIds world.log := by
  intro turnId member
  rcases items turnId member with old | ⟨active, isActive, rfl⟩
  · exact sound.items turnId old
  · exact sound.opened_of_slot (slot_of_active isActive)

theorem unseen_emissions (unseen : world.IsUnseen turnId)
    (inactive : ∀ active, world.state.active = some active → turnId ≠ active.turnId)
    {next : TurnWorld} (items : world.state.ItemsFrom next.state)
    {events : List ProviderEventEnvelope} {byOrigin : Bool}
    (log : next.log = world.log ++ TurnLogEntry.emissions ownership events byOrigin)
    (ofSlot : ∀ envelope ∈ events, ∀ id, envelope.turnId = some id →
      ∃ active, world.state.active = some active ∧ id = active.turnId) :
    next.IsUnseen turnId where
  items := by
    intro member
    rcases items turnId member with old | ⟨active, isActive, same⟩
    · exact unseen.items old
    · exact inactive active isActive same
  log := by
    intro entry member
    rw [log] at member
    rcases mem_append.mp member with old | new
    · exact unseen.log entry old
    · refine emissions_isOf ?_ new
      intro envelope isEnvelope isTurn
      obtain ⟨active, isActive, same⟩ := ofSlot envelope isEnvelope turnId isTurn
      exact inactive active isActive same

section

variable (sound : world.Sound)
include sound

theorem keep {events : List ProviderEventEnvelope} {next : TurnState}
    {ended : Bool} (closed : ended = true → next.active = none)
    (same : next.slot = world.state.slot) (sent : next.isSent = world.state.isSent)
    (items : world.state.ItemsFrom next)
    (quiet : ∀ envelope ∈ events, ∀ turnId, envelope.turnId = some turnId →
      envelope.isTerminalOf turnId = false ∧
        ∃ active, world.state.active = some active ∧ turnId = active.turnId) :
    ({ world with state := next, ended }.releaseBatch { events } false).Sound := by
  have incomplete : ∀ envelope ∈ events, ∀ turnId, envelope.isCompletedOf turnId = false := by
    intro envelope member turnId
    by_contra completed
    obtain ⟨terminal, isTurn⟩ := isTerminalOf_of_isCompletedOf (eq_true_of_ne_false completed)
    rw [(quiet envelope member turnId isTurn).1] at terminal
    cases terminal
  have logged : ∀ turnId released, .opened turnId released ∈
      world.log ++ emissions ownership events false → .opened turnId released ∈ world.log := by
    intro turnId released member
    rcases mem_append.mp member with old | new
    · exact old
    · exact absurd new opened_not_mem_emissions
  have ids : ∀ turnId ∈ openedIds world.log, turnId ∈
      openedIds (world.log ++ emissions ownership events false) := by
    intro turnId member
    rw [openedIds_append]
    exact mem_append_left _ member
  refine ⟨?_, ?_, ?_, ?_, ?_, ?_, closed, ?_⟩
  · refine sound.log.emitAll ownership ?_ incomplete
    intro envelope member turnId isTurn
    obtain ⟨_, active, isActive, rfl⟩ := quiet envelope member turnId isTurn
    have isSlot := slot_of_active isActive
    exact ⟨sound.opened_of_slot isSlot, (sound.running _ _ isSlot).2⟩
  · intro turnId released isSlot
    obtain ⟨opened, running⟩ := sound.running turnId released (same ▸ isSlot)
    refine ⟨mem_append_left _ opened, fun entry member => ?_⟩
    rcases mem_append.mp member with old | new
    · exact running entry old
    · exact emissions_completes
        (fun envelope isEnvelope => incomplete envelope isEnvelope turnId) new
  · intro turnId released opened
    rcases sound.settled turnId released (logged turnId released opened) with isSlot | done
    · exact .inl (same.trans isSlot)
    · exact .inr (done.mono (subset_append_right _ _) (subset_append_left _ _))
  · intro turnId member
    exact ids turnId (sound.items_from items turnId member)
  · intro owner isOwner unfinished
    have before : world.finished = false := (or_eq_false_iff.mp unfinished).1
    by_cases isSlot : ∃ released, world.state.slot = some (owner.turnId, released)
    · obtain ⟨released, isSlot⟩ := isSlot
      exact .inr ⟨released, same.trans isSlot⟩
    · rcases sound.owner owner isOwner before with unseen | slot
      · refine .inl (unseen_emissions unseen ?_ items rfl
          fun envelope member id isTurn => (quiet envelope member id isTurn).2)
        intro active isActive sameTurn
        exact isSlot ⟨active.released, sameTurn ▸ slot_of_active isActive⟩
      · exact absurd slot isSlot
  · intro owned
    exact sent.trans (sound.sent owned)
  · intro turnId released member
    rcases sound.waiting turnId released member with done | isSlot
    · exact .inl (mem_append_right _ done)
    · exact .inr (same.trans isSlot)

theorem finish {batch : NormalizedBatch} {next : TurnState}
    (ended : Bool) {active : ActiveTurn} (isActive : world.state.active = some active)
    (released : batch.released = some active.released) (empty : next.active = none)
    (items : world.state.ItemsFrom next) (front back : List ProviderEventEnvelope)
    (reason : CompletedReason)
    (events : batch.events = front ++ turnEnvelope active.turnId (.completed reason) :: back)
    (before : ∀ envelope ∈ front, envelope.turnId = some active.turnId ∧
      envelope.isCompletedOf active.turnId = false)
    (after : ∀ envelope ∈ back, envelope.turnId = none) :
    ({ world with state := next, ended }.releaseBatch batch false).Sound := by
  have isSlot := slot_of_active isActive
  have noSlot := slot_of_empty empty
  obtain ⟨_, running⟩ := sound.running _ _ isSlot
  have member : turnEnvelope active.turnId (.completed reason) ∈ batch.events := by
    rw [events]
    exact mem_append_right _ mem_cons_self
  have isCompleted : (turnEnvelope active.turnId (.completed reason)).isCompletedOf
      active.turnId = true := decide_eq_true rfl
  have ofSlot : ∀ envelope ∈ batch.events, ∀ id, envelope.turnId = some id →
      ∃ active, world.state.active = some active ∧ id = active.turnId := by
    intro envelope isEvent id isTurn
    rw [events] at isEvent
    refine ⟨active, isActive, ?_⟩
    rcases mem_append.mp isEvent with isFront | isRest
    · exact some.inj (isTurn.symm.trans (before envelope isFront).1)
    · rcases mem_cons.mp isRest with rfl | isBack
      · exact (some.inj isTurn).symm
      · rw [after envelope isBack] at isTurn
        cases isTurn
  refine ⟨?_, ?_, ?_, ?_, ?_, fun _ => isSent_of_empty empty, fun _ => empty, ?_⟩
  · have complete := sound.log.complete ownership (sound.opened_of_slot isSlot)
      running front back reason before after
    rw [← events] at complete
    exact complete
  · intro turnId deferred taken
    cases noSlot.symm.trans taken
  · intro turnId deferred opened
    refine .inr ?_
    rcases mem_append.mp opened with old | new
    · rcases sound.settled turnId deferred old with slot | done
      · cases isSlot.symm.trans slot
        refine ⟨mem_append_left _ (mem_toList.mpr released), .inr (.inr ?_)⟩
        refine ⟨_, mem_append_right _ (mem_map_of_mem member), ?_⟩
        rw [completes, owned_isCompletedOf]
        exact isCompleted
      · exact done.mono (subset_append_right _ _) (subset_append_left _ _)
    · exact absurd new opened_not_mem_emissions
  · intro turnId isItem
    change turnId ∈ openedIds (world.log ++ emissions _ _ _)
    rw [openedIds_append]
    exact mem_append_left _ (sound.items_from items turnId isItem)
  · intro owner isOwner unfinished
    obtain ⟨unfinished, running⟩ := or_eq_false_iff.mp unfinished
    rw [released, finishes, isOwner] at running
    have other : owner.turnId ≠ active.turnId := by
      intro same
      have incomplete := any_eq_false.mp running _ member
      rw [same] at incomplete
      exact incomplete isCompleted
    rcases sound.owner owner isOwner unfinished with unseen | ⟨deferred, slot⟩
    · refine .inl (unseen_emissions unseen ?_ items rfl ofSlot)
      intro current isCurrent
      cases isActive.symm.trans isCurrent
      exact other
    · exact absurd (congrArg Prod.fst (some.inj (slot.symm.trans isSlot))) other
  · intro turnId deferred isWaiting
    refine .inl ?_
    rcases sound.waiting turnId deferred isWaiting with done | slot
    · exact mem_append_right _ done
    · cases isSlot.symm.trans slot
      exact mem_append_left _ (mem_toList.mpr released)

theorem batch {modified : NormalizedBatch × TurnState}
    (batched : world.state.Batched modified) {ended : Bool}
    (closed : ended = true → modified.2.active = none) :
    ({ world with state := modified.2, ended }.releaseBatch modified.1 false).Sound := by
  cases batched with
  | @keeps batch next unreleased same sent items events =>
    obtain ⟨emitted, released⟩ := batch
    cases unreleased
    exact sound.keep closed same sent items events
  | ends active isActive released empty items front back reason events before after =>
    exact sound.finish ended isActive released empty items front back reason events before after

theorem route {event : AgentEvent} {origin : AgentTurnId}
    (isItem : origin ∈ world.state.itemTurns.values) (notTerminal : event.isTerminal = false)
    (isOfItem : (turnEnvelope origin event).isOfItem = true) :
    ({ world with
        state := { world.state with
          itemTurns := world.state.itemTurns.rememberItem event origin } }.releaseBatch
      { events := [turnEnvelope origin event] } true).Sound := by
  have opened := sound.items origin isItem
  have quiet (turnId : AgentTurnId) : (turnEnvelope origin event).isTerminalOf turnId = false := by
    simp [turnEnvelope, isTerminalOf, notTerminal]
  have incomplete (turnId : AgentTurnId) :
      (turnEnvelope origin event).isCompletedOf turnId = false := by
    by_contra completed
    obtain ⟨terminal, _⟩ := isTerminalOf_of_isCompletedOf (eq_true_of_ne_false completed)
    rw [quiet turnId] at terminal
    cases terminal
  have items : ∀ turnId ∈ (world.state.itemTurns.rememberItem event origin).values,
      turnId ∈ world.state.itemTurns.values := by
    intro turnId member
    rcases ItemTurns.mem_values_rememberItem member with old | rfl
    · exact old
    · exact isItem
  refine ⟨?_, ?_, ?_, ?_, ?_, sound.sent, sound.closed, ?_⟩
  · refine sound.log.emit (fun turnId isTurn => ?_) (fun turnId isTurn _ => ⟨rfl, ?_⟩) ?_
    · rw [owned_turnId] at isTurn
      cases isTurn
      exact opened
    · rw [ProviderEventEnvelope.owned_isTerminalOf]
      exact quiet turnId
    · intro _
      rw [owned_isOfItem]
      exact isOfItem
  · intro turnId released isSlot
    obtain ⟨logged, running⟩ := sound.running turnId released isSlot
    refine ⟨mem_append_left _ logged, fun entry member => ?_⟩
    rcases mem_concat.mp member with old | rfl
    · exact running entry old
    · rw [completes, owned_isCompletedOf]
      exact incomplete turnId
  · intro turnId released logged
    rcases mem_concat.mp logged with old | new
    · rcases sound.settled turnId released old with isSlot | done
      · exact .inl isSlot
      · exact .inr (done.mono (subset_append_right _ _) (subset_append_left _ _))
    · cases new
  · intro turnId member
    change turnId ∈ openedIds (world.log ++ _)
    rw [openedIds_append]
    exact mem_append_left _ (sound.items turnId (items turnId member))
  · intro owner isOwner unfinished
    rcases sound.owner owner isOwner (or_eq_false_iff.mp unfinished).1 with unseen | slot
    · refine .inl ⟨fun member => unseen.items (items _ member), fun entry member => ?_⟩
      rcases mem_concat.mp member with old | rfl
      · exact unseen.log entry old
      · rw [isOf, owned_turnId]
        refine decide_eq_false fun isTurn => ?_
        cases isTurn
        exact unseen.items isItem
    · exact .inr slot
  · intro turnId released member
    rcases sound.waiting turnId released member with done | isSlot
    · exact .inl (mem_append_right _ done)
    · exact .inr isSlot

theorem openTurn (active : ActiveTurn) (sent : active.sent = true)
    (empty : world.state.active = none) (unseen : world.IsUnseen active.turnId)
    (running : world.ended = false) (nextDeferred : Deferred) :
    ({ world with
        state := { world.state with active := some active }
        nextDeferred
        log := world.log ++ [.opened active.turnId active.released] } : TurnWorld).Sound := by
  have noSlot := slot_of_empty empty
  have incomplete : ∀ entry ∈ world.log, entry.completes active.turnId = false := by
    intro entry member
    by_contra completes
    have isOf := isOf_of_completes (eq_true_of_ne_false completes)
    rw [unseen.log entry member] at isOf
    cases isOf
  refine ⟨sound.log.openTurn active.released unseen.log, ?_, ?_, ?_, ?_, ?_, ?_, ?_⟩
  · intro turnId released isSlot
    cases isSlot
    refine ⟨mem_append_right _ mem_cons_self, fun entry member => ?_⟩
    rcases mem_concat.mp member with old | rfl
    · exact incomplete entry old
    · rfl
  · intro turnId released opened
    rcases mem_concat.mp opened with old | new
    · rcases sound.settled turnId released old with isSlot | done
      · cases noSlot.symm.trans isSlot
      · exact .inr (done.mono (List.Subset.refl _) (subset_append_left _ _))
    · cases new
      exact .inl rfl
  · intro turnId member
    rw [openedIds_append]
    exact mem_append_left _ (sound.items turnId member)
  · intro owner isOwner unfinished
    rcases sound.owner owner isOwner unfinished with unseen | ⟨released, isSlot⟩
    · refine .inl ⟨unseen.items, fun entry member => ?_⟩
      rcases mem_concat.mp member with old | rfl
      · exact unseen.log entry old
      · rfl
    · cases noSlot.symm.trans isSlot
  · intro _
    exact sent
  · intro ended
    cases running.symm.trans ended
  · intro turnId released member
    rcases sound.waiting turnId released member with done | isSlot
    · exact .inl done
    · cases noSlot.symm.trans isSlot

/-- A turn leaves the slot without a `Completed`, which the log says. -/
theorem leave {active : ActiveTurn} {entry : TurnLogEntry}
    (isActive : world.state.active = some active)
    (isEnd : entry = .sendFailed active.turnId active.released ∨
      entry = .adopted active.turnId active.released)
    (unseen : ∀ owner, ownership = some owner → owner.turnId = active.turnId →
      world.finished = false → world.IsUnseen owner.turnId) :
    ({ world with
        state := { world.state with active := none }
        completed := active.released :: world.completed
        log := world.log ++ [entry] } : TurnWorld).Sound := by
  have isSlot := slot_of_active isActive
  have silent (turnId : AgentTurnId) :
      entry.completes turnId = false ∧ entry.isOf turnId = false := by
    rcases isEnd with rfl | rfl <;> exact ⟨rfl, rfl⟩
  refine ⟨?_, ?_, ?_, ?_, ?_, fun _ => rfl, fun _ => rfl, ?_⟩
  · refine sound.log.note ?_ ?_ <;> rcases isEnd with rfl | rfl <;> rintro _ _ ⟨⟩
  · rintro _ _ ⟨⟩
  · intro turnId released opened
    rcases mem_concat.mp opened with old | new
    · refine .inr ?_
      rcases sound.settled turnId released old with slot | done
      · cases isSlot.symm.trans slot
        refine ⟨mem_cons_self, ?_⟩
        rcases isEnd with rfl | rfl
        · exact .inl (mem_append_right _ mem_cons_self)
        · exact .inr (.inl (mem_append_right _ mem_cons_self))
      · exact done.mono (subset_cons_self _ _) (subset_append_left _ _)
    · rw [← new] at isEnd
      rcases isEnd with ⟨⟨⟩⟩ | ⟨⟨⟩⟩
  · intro turnId member
    rw [openedIds_append]
    exact mem_append_left _ (sound.items turnId member)
  · intro owner isOwner unfinished
    have before : world.IsUnseen owner.turnId := by
      rcases sound.owner owner isOwner unfinished with before | ⟨released, slot⟩
      · exact before
      · exact unseen owner isOwner
          (congrArg Prod.fst (some.inj (slot.symm.trans isSlot))) unfinished
    refine .inl ⟨before.items, fun other member => ?_⟩
    rcases mem_concat.mp member with old | rfl
    · exact before.log other old
    · exact (silent owner.turnId).2
  · intro turnId released member
    refine .inl ?_
    rcases sound.waiting turnId released member with done | slot
    · exact mem_cons_of_mem _ done
    · cases isSlot.symm.trans slot
      exact mem_cons_self

theorem frame {next : TurnWorld} (state : next.state = world.state)
    (finished : next.finished = world.finished) (ended : next.ended = world.ended)
    (completed : next.completed = world.completed) (waiting : next.waiting = world.waiting)
    (log : next.log = world.log) : next.Sound := by
  obtain ⟨_, _, _, _, _, _, _, _, _, _⟩ := next
  cases state
  cases finished
  cases ended
  cases completed
  cases waiting
  cases log
  refine ⟨sound.log, sound.running, sound.settled, sound.items, ?_, sound.sent,
    sound.closed, sound.waiting⟩
  intro owner isOwner unfinished
  rcases sound.owner owner isOwner unfinished with unseen | slot
  · exact .inl ⟨unseen.items, unseen.log⟩
  · exact .inr slot

end

theorem next (sound : world.Sound) (nextDeferred : Deferred) :
    ({ world with nextDeferred } : TurnWorld).Sound :=
  sound.frame rfl rfl rfl rfl rfl rfl

section

variable (sound : world.Sound)
include sound

theorem mark {active : ActiveTurn} (isActive : world.state.active = some active) :
    ({ world with
        state := { world.state with active := some { active with sent := true } } } :
      TurnWorld).Sound := by
  have same : world.state.slot =
      ({ world.state with active := some { active with sent := true } } : TurnState).slot :=
    (slot_of_active isActive).trans rfl
  refine ⟨sound.log, ?_, ?_, sound.items, ?_, fun _ => rfl, ?_, ?_⟩
  · intro turnId released isSlot
    exact sound.running turnId released (same.trans isSlot)
  · intro turnId released opened
    rcases sound.settled turnId released opened with isSlot | done
    · exact .inl (same.symm.trans isSlot)
    · exact .inr done
  · intro owner isOwner unfinished
    rcases sound.owner owner isOwner unfinished with unseen | ⟨released, isSlot⟩
    · exact .inl ⟨unseen.items, unseen.log⟩
    · exact .inr ⟨released, same.symm.trans isSlot⟩
  · intro ended
    cases isActive.symm.trans (sound.closed ended)
  · intro turnId released member
    rcases sound.waiting turnId released member with done | isSlot
    · exact .inl done
    · exact .inr (same.symm.trans isSlot)

theorem normalizeAgentEvent (running : world.ended = false) (event : AgentEvent) (closes : Bool) :
    (world.normalizeAgentEvent event closes).Sound := by
  rw [TurnWorld.normalizeAgentEvent]
  split
  · exact sound.frame rfl rfl rfl rfl rfl rfl
  rcases normalize_batched world.state event with
    ⟨batched, notRouted⟩ | ⟨origin, isItem, notTerminal, isOfItem, routed, normalized⟩
  · rw [notRouted]
    refine sound.batch batched fun ended => ?_
    cases running.symm.trans ended
  · rw [routed, normalized]
    exact sound.route isItem notTerminal isOfItem

theorem openProviderTurn (running : world.ended = false) (fresh : turnId ∉ openedIds world.log) :
    (world.openProviderTurn turnId).Sound := by
  rw [TurnWorld.openProviderTurn, TurnState.openProviderTurn]
  cases isActive : world.state.active with
  | some active =>
    have quiet : ({ world with nextDeferred := world.nextDeferred + 1 } :
        TurnWorld).Sound := sound.frame rfl rfl rfl rfl rfl rfl
    refine quiet.batch batched_empty fun ended => ?_
    cases running.symm.trans ended
  | none =>
    have notTerminal : AgentEvent.providerTurnStarted.isTerminal = false := rfl
    have opened := sound.openTurn
      { turnId
        released := world.nextDeferred
        sent := true
        origin := .provider
        children := .empty
        completedChildren := []
        pendingCompletion := none }
      rfl isActive (sound.unseen_of_fresh fresh) running (world.nextDeferred + 1)
    refine opened.batch (batched_one rfl notTerminal rfl rfl (.of_eq rfl)) fun ended => ?_
    cases running.symm.trans ended

theorem normalize (running : world.ended = false) (event : ProviderDriverEvent)
    (fresh : turnId ∉ openedIds world.log) (closes : Bool) :
    (world.normalize event turnId closes).Sound := by
  unfold TurnWorld.normalize
  split
  · split
    · exact sound
    · exact sound.normalizeAgentEvent running _ closes
  · refine sound.batch (batched_session ?_) fun ended => ?_
    · intro envelope member
      rw [mem_singleton.mp member]
      rfl
    · cases running.symm.trans ended
  · exact sound.openProviderTurn running fresh
  · exact sound.normalizeAgentEvent running _ closes

theorem finalizeUnexpectedExit (closes : Bool) : (world.finalizeUnexpectedExit closes).Sound := by
  rw [TurnWorld.finalizeUnexpectedExit]
  split
  · exact sound.frame rfl rfl rfl rfl rfl rfl
  refine sound.batch finalize_batched fun _ => ?_
  rw [finalize]
  split
  · assumption
  · rfl

section

variable
  (unseen : ∀ owner, ownership = some owner → owner.turnId = turnId →
    world.finished = false → world.IsUnseen owner.turnId)
include unseen

theorem failSend : (world.failSend turnId).Sound := by
  rw [TurnWorld.failSend, withdraw]
  have same : ({ world with log := world.log ++ [] } : TurnWorld).Sound :=
    sound.frame rfl rfl rfl rfl rfl (append_nil _)
  split
  · rename_i active isActive
    split
    · rename_i isTurn
      subst isTurn
      exact sound.leave isActive (.inl rfl) unseen
    · exact same
  · exact same

theorem operate (goal succeeds : Bool) : (world.operate turnId goal succeeds).Sound := by
  have operated : ({ world with goalOwned := world.goalOwned || goal } : TurnWorld).Sound :=
    sound.frame rfl rfl rfl rfl rfl rfl
  rw [TurnWorld.operate]
  split
  · exact operated
  · refine operated.failSend fun owner isOwner isTurn unfinished => ?_
    have before := unseen owner isOwner isTurn unfinished
    exact ⟨before.items, before.log⟩

end

theorem admitSend (running : world.ended = false)
    (mayOpen : (∀ active, world.state.active = some active → active.turnId ≠ turnId) →
      world.IsUnseen turnId)
    (owned : ∀ owner, ownership = some owner → owner.turnId = turnId) (goal succeeds : Bool) :
    (world.admitSend turnId goal succeeds).Sound := by
  have admitted := world.state.admitSend_admitted turnId world.nextDeferred
  rw [TurnWorld.admitSend]
  generalize world.state.admitSend turnId world.nextDeferred = modified at admitted ⊢
  cases admitted with
  | skips active isActive isTurn sent => exact sound.frame rfl rfl rfl rfl rfl rfl
  | sends active isActive isTurn unsent =>
    have marked := (sound.mark isActive).next (world.nextDeferred + 1)
    rw [isActive]
    refine marked.operate (fun owner isOwner _ _ => ?_) goal succeeds
    have sent := sound.sent (by rw [isOwner]; rfl)
    rw [isSent, isActive, all_some, unsent] at sent
    cases sent
  | adopts active isActive notTurn isProvider =>
    have inactive : ∀ current, world.state.active = some current → current.turnId ≠ turnId := by
      intro current isCurrent
      cases isActive.symm.trans isCurrent
      exact notTurn
    have left := sound.leave isActive (.inr rfl) fun owner isOwner isAdopted _ =>
      absurd (isAdopted.symm.trans (owned owner isOwner)) notTurn
    have unseen := (mayOpen inactive).note
      { world with log := world.log ++ [.adopted active.turnId active.released] } rfl rfl rfl
    have opened := left.openTurn
      { active with
        turnId
        released := world.nextDeferred
        sent := true
        origin := .application }
      rfl rfl ⟨unseen.items, unseen.log⟩ running (world.nextDeferred + 1)
    dsimp only
    rw [isActive, ← append_assoc]
    refine opened.operate (fun owner isOwner isTurn _ => ?_) goal succeeds
    rw [isTurn]
    exact unseen.note _ rfl rfl rfl
  | refuses active isActive notTurn isApplication =>
    have inactive : ∀ current, world.state.active = some current → current.turnId ≠ turnId := by
      intro current isCurrent
      cases isActive.symm.trans isCurrent
      exact notTurn
    have unseen := mayOpen inactive
    refine (sound.next (world.nextDeferred + 1)).failSend fun owner isOwner isTurn _ => ?_
    rw [isTurn]
    exact ⟨unseen.items, unseen.log⟩
  | opens empty =>
    have unseen := mayOpen (by rw [empty]; rintro _ ⟨⟩)
    have opened := sound.openTurn (sentTurn turnId world.nextDeferred) rfl empty
      unseen running (world.nextDeferred + 1)
    rw [empty]
    refine opened.operate (fun owner isOwner isTurn _ => ?_) goal succeeds
    rw [isTurn]
    exact unseen.note _ rfl rfl rfl

theorem send (maySend : world.maySend turnId = true) (goal succeeds : Bool) :
    (world.send turnId goal succeeds).Sound := by
  have mayOpen (notOwner : ∀ owner, ownership = some owner → owner.turnId ≠ turnId)
      (inactive : ∀ active, world.state.active = some active → active.turnId ≠ turnId) :
      world.IsUnseen turnId := by
    rw [TurnWorld.maySend, or_eq_true, or_eq_true] at maySend
    rcases maySend with (isOwner | isNew) | isActive
    · obtain ⟨owner, isOwner, same⟩ := (any_eq_true _ _).mp isOwner
      exact absurd (of_decide_eq_true same) (notOwner owner isOwner)
    · exact sound.unseen_of_fresh (of_decide_eq_true isNew)
    · obtain ⟨active, isActive, same⟩ := (any_eq_true _ _).mp isActive
      exact absurd (of_decide_eq_true same) (inactive active isActive)
  unfold TurnWorld.send
  split
  · rename_i owner isOwner
    split
    · exact sound
    · rename_i isTurn
      obtain ⟨isTurn, unfinished⟩ := not_or.mp isTurn
      split
      · exact sound
      · rename_i running
        refine sound.admitSend (eq_false_iff.mpr running) (fun inactive => ?_) ?_ goal succeeds
        · rcases sound.owner owner isOwner (eq_false_iff.mpr unfinished) with
            unseen | ⟨released, isSlot⟩
          · exact not_ne_iff.mp isTurn ▸ unseen
          · obtain ⟨active, isActive, same, _⟩ := active_of_slot isSlot
            exact absurd (same.trans (not_ne_iff.mp isTurn).symm) (inactive active isActive)
        · intro other isOther
          cases isOwner.symm.trans isOther
          exact (not_ne_iff.mp isTurn).symm
  · rename_i unowned
    split
    · exact sound
    · rename_i running
      refine sound.admitSend (eq_false_iff.mpr running)
        (mayOpen fun owner isOwner => ?_) (fun owner isOwner => ?_) goal succeeds
      · cases unowned.symm.trans isOwner
      · cases unowned.symm.trans isOwner

theorem interrupt (turnId : AgentTurnId) : (world.interrupt turnId).Sound := by
  rw [TurnWorld.interrupt]
  split
  · rename_i active isActive
    split
    · rename_i isTurn
      refine ⟨sound.log, sound.running, sound.settled, sound.items, ?_, sound.sent,
        sound.closed, ?_⟩
      · intro owner isOwner unfinished
        rcases sound.owner owner isOwner unfinished with unseen | slot
        · exact .inl ⟨unseen.items, unseen.log⟩
        · exact .inr slot
      · intro id released member
        rcases mem_concat.mp member with old | new
        · exact sound.waiting id released old
        · cases new
          exact .inr (isTurn ▸ slot_of_active isActive)
    · exact sound
  · exact sound

end

theorem atInit : TurnWorld.init.Sound := by
  have slot : init.state.slot = initialTurn.map fun turnId => (turnId, 0) := by
    rw [init, slot, Option.map_map]
    rfl
  have unowned (owned : ownership.isSome = true) : initialTurn = none := if_pos owned
  refine ⟨?_, ?_, ?_, ?_, ?_, ?_, ?_, ?_⟩
  · rw [init]
    cases initialTurn with
    | none => exact ⟨List.Pairwise.nil, by simp, by simp⟩
    | some turnId =>
      have empty : LogSound [] := ⟨List.Pairwise.nil, by simp, by simp⟩
      exact empty.openTurn 0 (forall_mem_nil _)
  · intro turnId released isSlot
    rw [slot] at isSlot
    obtain ⟨id, isInitial, same⟩ := map_eq_some_iff.mp isSlot
    cases same
    rw [init, isInitial]
    refine ⟨mem_cons_self, fun entry member => ?_⟩
    rw [mem_singleton.mp member]
    rfl
  · intro turnId released opened
    refine .inl ?_
    rw [slot]
    obtain ⟨id, isInitial, same⟩ := mem_map.mp opened
    cases same
    rw [mem_toList.mp isInitial]
    rfl
  · intro turnId member
    cases member
  · intro owner isOwner _
    refine .inl ⟨not_mem_nil, fun entry member => ?_⟩
    rw [init, unowned (by rw [isOwner]; rfl)] at member
    cases member
  · intro owned
    rw [init, unowned owned]
    rfl
  · rintro ⟨⟩
  · intro turnId released member
    cases member

omit [HandleInput] in
theorem ended_of_streams (streams : world.streams = true) : world.ended = false := by
  obtain ⟨running, _⟩ := and_eq_true_iff.mp streams
  simpa using running

theorem step (sound : world.Sound) {label : TurnStep} {next : TurnWorld}
    (stepped : world.step label = some next) : next.Sound := by
  cases label with
  | event event turnId closes =>
    rw [TurnWorld.step] at stepped
    split at stepped
    · rename_i enabled
      obtain ⟨streams, fresh⟩ := enabled
      cases stepped
      exact sound.normalize (ended_of_streams streams) event
        (of_decide_eq_true (and_eq_true_iff.mp fresh).1) closes
    · cases stepped
  | injected closes =>
    rw [TurnWorld.step] at stepped
    split at stepped
    · cases stepped
    rename_i event rest isInjected
    split at stepped
    · rename_i streams
      cases stepped
      have taken : ({ world with injected := rest } : TurnWorld).Sound :=
        sound.frame rfl rfl rfl rfl rfl rfl
      exact taken.normalizeAgentEvent (ended_of_streams streams) event closes
    · cases stepped
  | send turnId goal succeeds =>
    rw [TurnWorld.step] at stepped
    split at stepped
    · rename_i maySend
      cases stepped
      exact sound.send maySend goal succeeds
    · cases stepped
  | interrupt turnId =>
    cases stepped
    exact sound.interrupt turnId
  | streamEnd closes =>
    rw [TurnWorld.step] at stepped
    split at stepped
    · cases stepped
      exact sound.finalizeUnexpectedExit closes
    · cases stepped

theorem of_reachable (reachable : turnSystem.Reachable world) : world.Sound :=
  reachable.invariant atInit fun _ _ _ _ sound stepped => sound.step stepped

end Sound

structure OneTerminal (world : TurnWorld) : Prop where
  atMostOnce : ∀ turnId, (world.log.filter (·.completes turnId)).length ≤ 1
  exactlyOnce : world.ended = true → ∀ turnId released,
    .opened turnId released ∈ world.log → .sendFailed turnId released ∉ world.log →
      .adopted turnId released ∉ world.log → (world.log.filter (·.completes turnId)).length = 1
  afterwards : ∀ earlier later completed turnId, world.log = earlier ++ completed :: later →
    completed.completes turnId = true → ∀ envelope byOrigin,
      .emitted envelope byOrigin ∈ later → envelope.turnId = some turnId →
        byOrigin = true ∧ envelope.isOfItem = true ∧ envelope.isTerminalOf turnId = false
  opensFirst : ∀ earlier later envelope byOrigin turnId,
    world.log = earlier ++ .emitted envelope byOrigin :: later →
      envelope.turnId = some turnId → turnId ∈ openedIds earlier
  onlyAfter : ∀ earlier later turnId released,
    world.log = earlier ++ .opened turnId released :: later →
      ∀ entry ∈ earlier, entry.isOf turnId = false
  released : ∀ turnId released, .opened turnId released ∈ world.log →
    released ∈ world.completed ∨ world.state.slot = some (turnId, released)
  interrupts : ∀ turnId released, (turnId, released) ∈ world.waiting →
    released ∈ world.completed ∨ world.state.slot = some (turnId, released)

theorem oneTerminal_of_reachable (reachable : turnSystem.Reachable world) : world.OneTerminal := by
  have sound := Sound.of_reachable reachable
  refine ⟨sound.log.completes_once, ?_, ?_, ?_, ?_, ?_, sound.waiting⟩
  · intro ended turnId released opened notFailed notAdopted
    have noSlot := slot_of_empty (sound.closed ended)
    rcases sound.settled turnId released opened with isSlot | ⟨_, failed | adopted | done⟩
    · cases noSlot.symm.trans isSlot
    · exact absurd failed notFailed
    · exact absurd adopted notAdopted
    · obtain ⟨entry, member, completes⟩ := done
      exact Nat.le_antisymm (sound.log.completes_once turnId)
        (length_pos_of_mem (mem_filter.mpr ⟨member, completes⟩))
  · intro earlier later completed turnId split completes envelope byOrigin member isTurn
    have ordered := sound.log.ordered
    rw [split, pairwise_append, pairwise_cons] at ordered
    obtain ⟨late, quiet⟩ := (ordered.2.1.1 _ member).completed turnId completes envelope
      byOrigin rfl isTurn
    subst late
    refine ⟨rfl, sound.log.routed envelope ?_, quiet⟩
    rw [split]
    exact mem_append_right _ (mem_cons_of_mem _ member)
  · intro earlier later envelope byOrigin turnId split isTurn
    refine sound.log.opensFirst earlier envelope byOrigin ⟨later, ?_⟩ turnId isTurn
    rw [split, append_assoc, singleton_append]
  · intro earlier later turnId released split entry member
    have ordered := sound.log.ordered
    rw [split, pairwise_append] at ordered
    exact (ordered.2.2 entry member _ mem_cons_self).opened turnId released rfl
  · intro turnId released opened
    rcases sound.settled turnId released opened with isSlot | finished
    · exact .inr isSlot
    · exact .inl finished.1

end TurnWorld

instance unownedInput : HandleInput where
  initialTurnId := none
  initialAttemptId := none
  bound := by rintro ⟨⟩

def adoptingRun : List TurnStep :=
  [.event (.agent .providerTurnStarted) "provider" true, .send "application" false true,
    .interrupt "application",
    .event (.agent (.completed .ended)) "unused" true,
    .streamEnd true]

theorem oneTerminal_of_adoptingRun : ∃ world, turnSystem.run adoptingRun = some world ∧
    world.ended = true ∧ world.OneTerminal := by
  obtain ⟨world, ran, ended⟩ : ∃ world, turnSystem.run adoptingRun = some world ∧
      world.ended = true := by
    have ran : (turnSystem.run adoptingRun).map (·.ended) = some true := by decide +kernel
    exact map_eq_some_iff.mp ran
  exact ⟨world, ran, ended, oneTerminal_of_reachable (TransitionSystem.run_reachable ran)⟩

end Zuse.Agents
