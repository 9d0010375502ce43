import Zuse.Domain.Core.NotableEvents

namespace Zuse.Domain

open Zuse.Data

/-! What a decision does to the transcript: at most one message, one rollback or the end
of the session. -/

def transcript (events : List SessionEvent) : List SessionEvent :=
  events.filter SessionEvent.changesTranscript

@[simp] theorem transcript_nil : transcript [] = [] := rfl

@[simp] theorem transcript_cons (event : SessionEvent) (events : List SessionEvent) :
    transcript (event :: events) =
      if event.changesTranscript then event :: transcript events else transcript events :=
  List.filter_cons

@[simp] theorem transcript_append (left right : List SessionEvent) :
    transcript (left ++ right) = transcript left ++ transcript right :=
  List.filter_append left right

inductive TranscriptChange (state : SessionState) (command : SessionCommand) :
    List SessionEvent → Prop
  | nothing : TranscriptChange state command []
  | persisted (message : MessageFields) (isCommand : command = .persistMessage message)
      (accepts : state.Accepts message) :
      TranscriptChange state command [.messagePersisted message]
  /-- The message that a turn is submitted with, or a notice of the decider. -/
  | written (message : MessageFields)
      (author : command.submittedMessageId = some message.messageId ∨ command.leavesNotice = true)
      (revision : message.checkpointRevision = none) (final : message.checkpointFinal = none) :
      TranscriptChange state command [.messagePersisted message]
  | rolledBack (rollback : TurnsRolledBackEvent)
      (isCommand : command = .rollbackTurns rollback.throughOrdinal rollback.messageSequence
        rollback.removedMessageIds rollback.rolledBackAt) :
      TranscriptChange state command [.turnsRolledBack rollback]
  | deleted (deletedAt : Millis) (isCommand : command = .deleteSession deletedAt) :
      TranscriptChange state command [.sessionDeleted deletedAt]

section Decisions

variable [PayloadCodec] {state : SessionState} {events : List SessionEvent}

omit [PayloadCodec] in
theorem transcriptChange_decide {command : SessionCommand}
    (decided : decide state command = .ok events) :
    TranscriptChange state command (transcript events) := by
  have same : transcript (notable events) = transcript events := by
    simp only [transcript, notable, List.filter_filter]
    refine List.filter_congr fun event _ => ?_
    cases event <;> rfl
  have change := notable_decide decided
  rw [← same]
  generalize notable events = kept at change
  cases change with
  | handed events isCommand only =>
    rw [transcript, List.filter_eq_nil_iff.mpr]
    · exact .nothing
    · intro event member
      have hands := only event member
      revert hands
      cases event <;> simp [SessionEvent.changesTranscript, SessionEvent.handsOver]
  | expired turnId outcome settledAt isCommand notice settlement written settles =>
    have ended : transcript settlement = [] := by
      rcases settles with rfl | rfl <;> rfl
    rw [transcript_append, ended]
    rcases written with rfl | ⟨message, writes, rfl⟩
    · exact .nothing
    · exact .written message writes.author writes.revision writes.final
  | persisted message isCommand accepts => exact .persisted message isCommand accepts
  | written message writes =>
    exact .written message writes.author writes.revision writes.final
  | rolledBack rollback isCommand => exact .rolledBack rollback isCommand
  | deleted deletedAt isCommand => exact .deleted deletedAt isCommand
  | _ => exact .nothing

end Decisions

section Checkpoints

variable [PayloadCodec]

def checkpointsAfter (checkpoints : InsertionMap String MessageCheckpointState) :
    SessionEvent → InsertionMap String MessageCheckpointState
  | .messagePersisted message =>
    match message.checkpointRevision with
    | none => checkpoints
    | some revision =>
      checkpoints.set message.messageId
        { revision, final := message.checkpointFinal = some true }
  | .turnsRolledBack rollback =>
    rollback.removedMessageIds.foldl InsertionMap.delete checkpoints
  | _ => checkpoints

theorem messageCheckpoints_evolve (state : SessionState) (event : SessionEvent) :
    (evolve state event).messageCheckpoints = checkpointsAfter state.messageCheckpoints event := by
  by_cases executes : event.executes = true
  · have kept := congrArg SessionState.Conversation.messageCheckpoints
      (state.conversation_apply executes)
    refine kept.trans ?_
    cases event <;> first | rfl | cases executes
  cases event with
  | sessionCreated created =>
    change (state.applySessionCreated created).messageCheckpoints = _
    unfold SessionState.applySessionCreated
    split
    · rfl
    · rfl
  | queuedTurnUpdated queueId inputJson updatedAt ready =>
    obtain ⟨_, changed⟩ :=
      state.apply_queuedTurnUpdated_changes queueId inputJson updatedAt ready
    change (state.apply _).messageCheckpoints = _
    rw [changed]
    rfl
  | _ => first | rfl | exact absurd rfl executes

omit [PayloadCodec] in
theorem checkpointsAfter_of_quiet {event : SessionEvent} (quiet : event.changesTranscript = false)
    (checkpoints : InsertionMap String MessageCheckpointState) :
    checkpointsAfter checkpoints event = checkpoints := by
  cases event <;> first | rfl | cases quiet

end Checkpoints

end Zuse.Domain
