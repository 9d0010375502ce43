import Mathlib.Data.List.Basic

namespace Zuse.Domain

/-! Wire types shared by the session aggregate, its projections and its clients.
A JSON text stays a `String`; what it decodes to is fixed by a `PayloadCodec`. -/

abbrev Millis := Int

abbrev Number := Rat

inductive SessionStatus where
  | booting
  | idle
  | running
  | closed
  | error
  deriving DecidableEq

inductive RuntimeMode where
  | auto
  | approvalRequired
  | autoAcceptEdits
  | autoAcceptEditsAndBash
  | fullAccess
  deriving DecidableEq

inductive PermissionMode where
  | default
  | plan
  | acceptEdits
  deriving DecidableEq

inductive TitleProvenance where
  | pending
  | automatic
  | manual
  deriving DecidableEq

def titleProvenanceOrManual (value : Option TitleProvenance) : TitleProvenance :=
  value.getD .manual

/-- Canonical result of settling an agent turn. -/
inductive SettlementOutcome where
  | completed
  | interrupted
  | error
  deriving DecidableEq

inductive AttemptReason where
  | initial
  | retry
  | providerRecovery
  deriving DecidableEq

inductive TurnPhase where
  | running
  | interruptRequested
  | interruptAcknowledged
  deriving DecidableEq

inductive TurnStatus where
  | rolledBack
  | finalizing
  | starting
  | running
  | completed
  | interrupted
  | failed
  deriving DecidableEq

inductive AttemptStatus where
  | running
  | completed
  | interrupted
  | failed
  | superseded
  deriving DecidableEq

inductive ProviderThreadStatus where
  | notLoaded
  | idle
  | active
  | closed
  | error
  deriving DecidableEq

inductive SegmentKind where
  | assistant
  | reasoning
  | tool
  deriving DecidableEq

inductive ExpiryReason where
  | expired
  | uncertain
  deriving DecidableEq

inductive MessageRole where
  | user
  | assistant
  | system
  | tool
  deriving DecidableEq

def TurnStatus.isActive : TurnStatus → Bool
  | .starting | .running | .finalizing => true
  | .rolledBack | .completed | .interrupted | .failed => false

def SettlementOutcome.turnStatus : SettlementOutcome → TurnStatus
  | .completed => .completed
  | .interrupted => .interrupted
  | .error => .failed

def SettlementOutcome.attemptStatus : SettlementOutcome → AttemptStatus
  | .completed => .completed
  | .interrupted => .interrupted
  | .error => .failed

@[simp] theorem SettlementOutcome.turnStatus_isActive (outcome : SettlementOutcome) :
    outcome.turnStatus.isActive = false := by
  cases outcome <;> rfl

theorem SettlementOutcome.attemptStatus_ne_running (outcome : SettlementOutcome) :
    outcome.attemptStatus ≠ .running := by
  cases outcome <;> decide

/-- Strong provider-native identity for one execution. -/
structure ProviderTurnReference where
  provider : String
  nativeThreadId : String
  nativeTurnId : String
  deriving DecidableEq

structure AttemptRef where
  turnId : String
  attemptId : String
  deriving DecidableEq

/-- Captured when a provider publishes an input. -/
structure InputRequestOwner where
  providerSessionId : String
  attempt : Option AttemptRef
  deriving DecidableEq

structure SessionDelegation where
  parentSessionId : String
  parentTurnId : String
  parentAttemptId : String
  providerSessionId : String
  childTurnId : String
  deriving DecidableEq

inductive TurnInterruptReceipt where
  | requested (turnId : String)
  | noActiveTurn (expectedTurnId : Option String)
  | turnMismatch (expectedTurnId : String) (actualTurnId : String)
  deriving DecidableEq

structure UserQuestion where
  question : String
  options : List String
  multiSelect : Option Bool

inductive QuestionResolution where
  | cancelled
  | timedOut

/-- Renderable message payloads, with the fields that the engine reads. -/
inductive MessageContent where
  | user
  | userRich
  | assistant (parentItemId : Option String)
  | thinking (parentItemId : Option String)
  | toolUse (itemId tool : String) (parentItemId : Option String)
  | toolResult (itemId : String)
  | error
  | interrupted
  | modelSwitch
  | subagentSummary (itemId : String)
  | subagentProgress (parentId childSessionId : String)
  | usage
  | contextUsage
  | contextCompaction
  | usageLimit
  | userQuestion (itemId : String) (questions : List UserQuestion)
  | userQuestionAnswer (itemId : String) (resolution : Option QuestionResolution)
  | uiSpec

structure WorkspaceActor where
  subject : String
  membershipId : String

/-- The text and JSON-encoded attachments of one composer submission. -/
structure ComposerInput where
  text : String
  attachments : List String
  fileRefs : List String
  skillRefs : List String
  annotations : List String
  asGoal : Option Bool

/-- Persisted queue payload; the actor is populated only by the server. -/
structure QueuedMessageInput extends ComposerInput where
  actor : Option WorkspaceActor

inductive PermissionKind where
  | fileWrite (path : String)
  | bash (command : String)
  | network (url : String)
  | other (tool summary : String)

structure PermissionRequest where
  id : String
  sessionId : String
  kind : PermissionKind
  requestedAt : Millis
  forcePrompt : Bool
  expired : Bool

/-- How the schema library decodes the JSON payloads that events carry as text. -/
class PayloadCodec where
  decodeContent : String → Option MessageContent
  decodeComposerInput : String → Option QueuedMessageInput
  decodePermissionRequest : String → Option PermissionRequest

export PayloadCodec (decodeContent decodeComposerInput decodePermissionRequest)

@[reducible] def rejectingCodec : PayloadCodec where
  decodeContent := fun _ => none
  decodeComposerInput := fun _ => none
  decodePermissionRequest := fun _ => none

def decodeRole : String → Option MessageRole
  | "user" => some .user
  | "assistant" => some .assistant
  | "system" => some .system
  | "tool" => some .tool
  | _ => none

def defaultPermissionMode : PermissionMode := .default

def defaultRuntimeMode : RuntimeMode := .approvalRequired

end Zuse.Domain
