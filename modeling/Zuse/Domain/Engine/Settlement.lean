import Zuse.Domain.Core.NotableEvents
import Zuse.Domain.Engine.AttemptStanding

namespace Zuse.Domain

open Zuse.Data List

def settlements (events : List SessionEvent) : List (String × SettlementOutcome) :=
  events.filterMap (·.settlement)

@[simp] theorem settlements_nil : settlements [] = [] := rfl

@[simp] theorem settlements_append (before after : List SessionEvent) :
    settlements (before ++ after) = settlements before ++ settlements after :=
  filterMap_append

@[simp] theorem settlements_cons (event : SessionEvent) (rest : List SessionEvent) :
    settlements (event :: rest) = event.settlement.toList ++ settlements rest := by
  rw [settlements, filterMap_cons]
  cases event.settlement <;> rfl

def Unfinalizing (events : List SessionEvent) : Prop :=
  ∀ event ∈ events, event.finalization = none

section Decisions

variable {state : SessionState} {events : List SessionEvent} {command : SessionCommand}

theorem unfinalizing_decide
    (others : ∀ turnId outcome settledAt, command ≠ .finalizeTurn turnId outcome settledAt)
    (decided : decide state command = .ok events) : Unfinalizing events := by
  intro event member
  have explained := decide_explains decided event member
  cases event with
  | turnFinalizationRequested => exact absurd explained (others _ _ _)
  | _ => rfl

theorem settlements_decide (decided : decide state command = .ok events) :
    settlements events = [] ∨
      Unfinalizing events ∧ ∃ turnId outcome, settlements events = [(turnId, outcome)] ∧
        (command.settlement = some (turnId, outcome) ∨ command.expires turnId = true) := by
  have same : settlements (notable events) = settlements events := by
    simp only [settlements, notable, filterMap_filter]
    refine filterMap_congr fun event _ => ?_
    cases event <;> rfl
  have change := notable_decide decided
  rw [← same]
  generalize notable events = kept at change
  cases change with
  | nothing => exact .inl rfl
  | handed _ isCommand only =>
    refine .inl (filterMap_eq_nil_iff.mpr fun event member => ?_)
    have hands := only event member
    cases event <;> first | rfl | cases hands
  | settled turnId outcome settledAt isCommand =>
    refine .inr ⟨unfinalizing_decide ?_ decided, turnId, outcome, rfl, .inl isCommand⟩
    rintro _ _ _ rfl
    cases isCommand
  | expired turnId outcome settledAt isCommand notice settlement written settles =>
    have silent : settlements notice = [] := by
      rcases written with rfl | ⟨message, -, rfl⟩ <;> rfl
    rw [settlements_append, silent]
    rcases settles with rfl | rfl
    · exact .inl rfl
    · refine .inr ⟨unfinalizing_decide ?_ decided, turnId, outcome, rfl, .inr isCommand⟩
      rintro _ _ _ rfl
      cases isCommand
  | _ => exact .inl rfl

end Decisions

variable {turnId : String}

namespace SessionState

def isFinalizing (state : SessionState) (turnId : String) : Bool :=
  state.currentTurnId = some turnId &&
    (state.turns.get? turnId).any fun turn => turn.status = .finalizing

theorem isFinalizing_iff {state : SessionState} :
    state.isFinalizing turnId = true ↔
      ∃ turn, state.Current turnId turn ∧ turn.status = .finalizing := by
  simp [isFinalizing, Current, Option.any_eq_true, and_assoc]

end SessionState

/-- The outcome that finalization recorded for a turn that is not settled yet. -/
def pendingAfter (turnId : String) (pending : Option SettlementOutcome) :
    SessionEvent → Option SettlementOutcome
  | .turnFinalizationRequested finalized _ outcome _ =>
    if finalized = turnId then some outcome else pending
  | .turnStarted started => if started.turnId = turnId then none else pending
  | .turnSettled settled _ _ => if settled = turnId then none else pending
  | _ => pending

def pendingOutcome (turnId : String) (log : List SessionEvent) : Option SettlementOutcome :=
  log.foldl (pendingAfter turnId) none

@[simp] theorem pendingOutcome_concat (turnId : String) (log : List SessionEvent)
    (event : SessionEvent) :
    pendingOutcome turnId (log ++ [event]) =
      pendingAfter turnId (pendingOutcome turnId log) event := by
  rw [pendingOutcome, foldl_append]
  rfl

variable {event : SessionEvent}

theorem pendingAfter_eq_some {pending : Option SettlementOutcome} {outcome : SettlementOutcome}
    (recorded : pendingAfter turnId pending event = some outcome) :
    event.finalization = some (turnId, outcome) ∨
      pending = some outcome ∧ event.restarts turnId = false ∧
        ∀ other, event.settlement ≠ some (turnId, other) := by
  cases event with
  | turnFinalizationRequested finalized attemptId other settledAt =>
    rw [pendingAfter] at recorded
    split at recorded
    · rename_i same
      rw [same, Option.some.inj recorded]
      exact .inl rfl
    · exact .inr ⟨recorded, rfl, nofun⟩
  | turnStarted started =>
    rw [pendingAfter] at recorded
    split at recorded
    · cases recorded
    · rename_i other
      exact .inr ⟨recorded, decide_eq_false other, nofun⟩
  | turnSettled settled outcome settledAt =>
    rw [pendingAfter] at recorded
    split at recorded
    · cases recorded
    · rename_i other
      refine .inr ⟨recorded, rfl, fun outcome same => ?_⟩
      exact other (congrArg Prod.fst (Option.some.inj same))
  | _ => exact .inr ⟨recorded, rfl, nofun⟩

/-- Every turn is settled with the outcome that finalization recorded for it. -/
def SettlesAsRecorded (log : List SessionEvent) : Prop :=
  ∀ index turnId outcome settledAt, log[index]? = some (.turnSettled turnId outcome settledAt) →
    ∀ recorded, pendingOutcome turnId (log.take index) = some recorded → outcome = recorded

namespace SettlesAsRecorded

variable {log : List SessionEvent}

theorem nil : SettlesAsRecorded [] := by
  intro index turnId outcome settledAt found
  cases found

theorem concat (settles : SettlesAsRecorded log)
    (asRecorded : ∀ turnId outcome, event.settlement = some (turnId, outcome) →
      ∀ recorded, pendingOutcome turnId log = some recorded → outcome = recorded) :
    SettlesAsRecorded (log ++ [event]) := by
  intro index turnId outcome settledAt found recorded pending
  rcases Nat.lt_trichotomy index log.length with earlier | last | beyond
  · rw [List.getElem?_append_left earlier] at found
    rw [take_append_of_le_length earlier.le] at pending
    exact settles index turnId outcome settledAt found recorded pending
  · subst last
    rw [List.getElem?_concat_length] at found
    rw [take_left] at pending
    cases found
    exact asRecorded turnId outcome rfl recorded pending
  · rw [List.getElem?_eq_none (by rw [length_append]; exact beyond)] at found
    cases found

theorem append {events : List SessionEvent} (settles : SettlesAsRecorded log)
    (asRecorded : settlements events = [] ∨ Unfinalizing events ∧
      ∀ turnId outcome, (turnId, outcome) ∈ settlements events →
        ∀ recorded, pendingOutcome turnId log = some recorded → outcome = recorded) :
    SettlesAsRecorded (log ++ events) := by
  induction events generalizing log with
  | nil =>
    rw [append_nil]
    exact settles
  | cons event rest ih =>
    rw [← singleton_append, ← append_assoc]
    rw [settlements_cons] at asRecorded
    rcases asRecorded with nothing | ⟨quiet, asRecorded⟩
    · rw [append_eq_nil_iff, Option.toList_eq_nil_iff] at nothing
      refine ih (settles.concat fun turnId outcome settled => ?_) (.inl nothing.2)
      rw [nothing.1] at settled
      cases settled
    obtain ⟨first, others⟩ := forall_mem_cons.mp quiet
    refine ih (settles.concat fun turnId outcome settled => ?_) (.inr ⟨others, ?_⟩)
    · apply asRecorded turnId outcome
      rw [settled]
      exact mem_cons_self
    intro turnId outcome settled recorded pending
    rw [pendingOutcome_concat] at pending
    rcases pendingAfter_eq_some pending with begun | ⟨before, -⟩
    · rw [first] at begun
      cases begun
    · exact asRecorded turnId outcome (mem_append_right _ settled) recorded before

end SettlesAsRecorded

end Zuse.Domain
