import Zuse.Domain.Engine.Dispatch

namespace Zuse.Domain

open Zuse.Data

/-! Durable jobs: one unit of provider-facing work that a committed event implies. -/

inductive JobKind where
  | checkpointCapture
  | providerStop
  | providerTurnSend
  | providerTurnRecover
  | providerTurnInterrupt
  | providerSuccessorStart
  deriving DecidableEq

inductive JobRequest where
  | checkpointCapture (turnId attemptId : String) (outcome : SettlementOutcome) (settledAt : Millis)
  | providerStop (providerSessionId : Option String) (requestedAt : Millis)
  | providerTurnRecover (turnId attemptId sourceAttemptId : String)
      (reference : ProviderTurnReference)
  | providerTurnSend (turnId : String) (attemptId : Option String)
      (providerInputJson : String) (providerStartJson : Option String)
  | providerTurnInterrupt (turnId : String) (attemptId : Option String) (requestedAt : Millis)
  | providerSuccessorStart (turnId queueId inputJson : String)

def JobRequest.kind : JobRequest → JobKind
  | .checkpointCapture .. => .checkpointCapture
  | .providerStop .. => .providerStop
  | .providerTurnRecover .. => .providerTurnRecover
  | .providerTurnSend .. => .providerTurnSend
  | .providerTurnInterrupt .. => .providerTurnInterrupt
  | .providerSuccessorStart .. => .providerSuccessorStart

/-- Kinds whose execution can safely start over after the server process dies. -/
def replayableJobKinds : List JobKind :=
  [.checkpointCapture, .providerStop, .providerTurnSend, .providerTurnRecover,
    .providerTurnInterrupt, .providerSuccessorStart]

def isReplayableJobKind (kind : JobKind) : Bool := kind ∈ replayableJobKinds

inductive JobStatus where
  | pending
  | waiting
  | running
  | succeeded
  | failed
  | cancelled
  deriving DecidableEq

def JobStatus.isUnsettled : JobStatus → Bool
  | .pending | .waiting | .running => true
  | .succeeded | .failed | .cancelled => false

structure Job where
  id : String
  sequence : Nat
  sessionId : String
  request : JobRequest
  status : JobStatus
  attemptCount : Nat
  availableAt : Millis
  leaseOwner : Option String
  leaseExpiresAt : Option Millis
  causationEventId : Option String
  correlationId : Option String
  lastError : Option String
  createdAt : Millis
  updatedAt : Millis
  completedAt : Option Millis

structure PendingJob where
  id : String
  sessionId : String
  request : JobRequest
  causationEventId : String
  correlationId : String

@[irreducible] def jobIdForEvent (eventId : String) (index : Nat) : String :=
  joinId ["job", eventId, toString index]

theorem jobIdForEvent_injective {leftEvent rightEvent : String} {left right : Nat}
    (equal : jobIdForEvent leftEvent left = jobIdForEvent rightEvent right) :
    leftEvent = rightEvent ∧ left = right := by
  rw [jobIdForEvent, jobIdForEvent] at equal
  have parts := joinId_injective (by rfl) equal
  simp only [List.cons.injEq, true_and, and_true] at parts
  exact ⟨parts.1, repr_injective parts.2⟩

def jobRequestsForEvent : SessionEvent → List JobRequest
  | .providerStopRequested _ providerSessionId requestedAt =>
    [.providerStop providerSessionId requestedAt]
  | .providerRecoveryRequested turnId attemptId sourceAttemptId reference _ =>
    [.providerTurnRecover turnId attemptId sourceAttemptId reference]
  | .turnFinalizationRequested turnId attemptId outcome settledAt =>
    [.checkpointCapture turnId attemptId outcome settledAt]
  | .providerTurnRequested turnId attemptId providerInputJson providerStartJson _ =>
    [.providerTurnSend turnId attemptId providerInputJson providerStartJson]
  | .turnInterruptRequested turnId attemptId requestedAt =>
    [.providerTurnInterrupt turnId attemptId requestedAt]
  | .scheduledSuccessorReady successor _ =>
    [.providerSuccessorStart successor.turnId successor.queueId successor.inputJson]
  | _ => []

def jobsForSessionEvent (record : StoredEvent SessionEvent) : List PendingJob :=
  (jobRequestsForEvent record.event).zipIdx.map fun (request, index) =>
    { id := jobIdForEvent record.eventId index
      sessionId := record.streamId
      request
      causationEventId := record.eventId
      correlationId := record.correlationId }

end Zuse.Domain
