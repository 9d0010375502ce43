import Mathlib.Data.List.Basic

namespace Zuse.Conversation

/-! The journal of the reactors: one row of `reactor_effect_receipts` for each effect.
The functions below are the statements on the row of one effect. -/

inductive ReactorEffectState where
  | missing
  | started
  | completed
  | outcomeUnknown
  deriving DecidableEq

inductive ReactorEffectBegin where
  | started
  | alreadyStarted
  | completed
  | outcomeUnknown
  deriving DecidableEq

namespace ReactorEffectState

def terminal (state : ReactorEffectState) : Bool :=
  state = .completed ∨ state = .outcomeUnknown

/-- `INSERT … ON CONFLICT DO NOTHING`, and what the row says where it was there. -/
def begin_ : ReactorEffectState → ReactorEffectBegin × ReactorEffectState
  | .missing => (.started, .started)
  | .started => (.alreadyStarted, .started)
  | .completed => (.completed, .completed)
  | .outcomeUnknown => (.outcomeUnknown, .outcomeUnknown)

def markOutcomeUnknown (state : ReactorEffectState) : ReactorEffectState :=
  if state = .started then .outcomeUnknown else state

def releaseUndelivered (state : ReactorEffectState) : ReactorEffectState :=
  if state = .started then .missing else state

def complete (state : ReactorEffectState) : ReactorEffectState :=
  if state = .outcomeUnknown then .outcomeUnknown else .completed

variable {state : ReactorEffectState}

theorem terminal_iff : state.terminal = true ↔ state = .completed ∨ state = .outcomeUnknown := by
  rw [terminal, decide_eq_true_eq]

section

variable (terminal : state.terminal = true)
include terminal

theorem begin_of_terminal : state.begin_.2 = state := by
  obtain rfl | rfl := terminal_iff.mp terminal <;> rfl

theorem markOutcomeUnknown_of_terminal : state.markOutcomeUnknown = state := by
  obtain rfl | rfl := terminal_iff.mp terminal <;> rfl

theorem releaseUndelivered_of_terminal : state.releaseUndelivered = state := by
  obtain rfl | rfl := terminal_iff.mp terminal <;> rfl

theorem complete_of_terminal : state.complete = state := by
  obtain rfl | rfl := terminal_iff.mp terminal <;> rfl

end

theorem terminal_complete (state : ReactorEffectState) : state.complete.terminal = true := by
  cases state <;> rfl

theorem markOutcomeUnknown_eq_missing : state.markOutcomeUnknown = .missing ↔ state = .missing := by
  cases state <;> decide

end ReactorEffectState

end Zuse.Conversation
