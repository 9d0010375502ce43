import Zuse.Domain.Contracts

namespace Zuse.Agents

open Zuse.Domain (Number)

abbrev AgentTurnId := String

abbrev AgentItemId := String

abbrev AttemptId := String

inductive AgentStatus where
  | idle
  | starting
  | running
  | waiting
  | closed
  | error
  deriving DecidableEq

inductive CompletedReason where
  | ended
  | interrupted
  | error
  deriving DecidableEq

inductive Presentation where
  | inline
  | detached

inductive BackgroundTaskOutcome where
  | completed
  | failed
  | stopped

structure Subagent where
  childSessionId : String
  presentation : Presentation

structure ToolUse where
  itemId : AgentItemId
  tool : String
  parentItemId : Option AgentItemId := none
  backgroundTask : Option String := none
  subagent : Option Subagent := none

structure ToolResult where
  itemId : AgentItemId
  output : String
  isError : Bool
  parentItemId : Option AgentItemId := none
  backgroundOutcome : Option BackgroundTaskOutcome := none

structure SubagentSummary where
  itemId : AgentItemId
  agentName : String
  model : String
  turns : Number
  durationMs : Number
  summary : String
  isError : Bool
  childSessionId : Option String := none
  presentation : Option Presentation := none

structure SubagentProgress where
  rootCompleted : Option Bool := none
  childId : String
  parentId : String
  childSessionId : String
  status : String
  durationMs : Number
  turns : Number
  toolCalls : Number
  tokens : Number
  contextPercentage : Number
  toolsUsed : List String
  errorCount : Number

inductive AgentEvent where
  | started
  | status (status : AgentStatus)
  | auth
  | version
  | capabilities
  | assistantMessage (itemId : AgentItemId) (text : String) (parentItemId : Option AgentItemId)
  | thinking (itemId : AgentItemId) (text : String) (parentItemId : Option AgentItemId)
  | toolUse (use : ToolUse)
  | toolResult (result : ToolResult)
  | permissionRequest (itemId : AgentItemId) (kind : String) (parentItemId : Option AgentItemId)
  | subagentSummary (summary : SubagentSummary)
  | subagentProgress (progress : SubagentProgress)
  | usageDelta (parentItemId : Option AgentItemId)
  | contextUsage
  | contextCompaction (itemId : AgentItemId)
  | usageLimit
  | sessionCursor (cursor : String)
  | nativeTurnStarted (nativeTurnId : String)
  | providerNotificationMetadata
  | userQuestion (itemId : AgentItemId) (parentItemId : Option AgentItemId)
  | userQuestionResolved (itemId : AgentItemId)
  | planApprovalRequested (toolCallId : AgentItemId) (plan : String)
  | permissionModeChanged
  | goalUpdated
  | goalCleared
  | providerTurnStarted
  | completed (reason : CompletedReason)
  | interrupted
  | error (message : String)

inductive CallbackReleaseReason where
  | cancelled
  | transportLost
  | closed

inductive ProviderDriverEvent where
  | agent (event : AgentEvent)
  | questionCallbackReleased (itemId : AgentItemId) (reason : CallbackReleaseReason)

structure ProviderAttemptOwnership where
  turnId : AgentTurnId
  attemptId : AttemptId

inductive ProviderEventEnvelope where
  | session (event : ProviderDriverEvent) (ownership : Option ProviderAttemptOwnership)
  | turn (turnId : AgentTurnId) (event : AgentEvent) (ownership : Option ProviderAttemptOwnership)

namespace AgentEvent

/-- `terminalEventTags`. -/
def isTerminal : AgentEvent → Bool
  | completed _ | interrupted | error _ => true
  | _ => false

/-- `sessionEventTags`. -/
def isSession : AgentEvent → Bool
  | started | auth | version | capabilities | sessionCursor _
  | providerNotificationMetadata | permissionModeChanged | goalUpdated | goalCleared
  | usageLimit => true
  | _ => false

def isStatus : AgentEvent → Bool
  | status _ => true
  | _ => false

/-- `parentItemIdOf`. -/
def parentItemId : AgentEvent → Option AgentItemId
  | assistantMessage _ _ parent | thinking _ _ parent | permissionRequest _ _ parent
  | usageDelta parent | userQuestion _ parent => parent
  | toolUse use => use.parentItemId
  | toolResult result => result.parentItemId
  | _ => none

/-- The item of an event that `referencesToolUse`. -/
def toolItemId : AgentEvent → Option AgentItemId
  | toolUse use => some use.itemId
  | toolResult result => some result.itemId
  | subagentSummary summary => some summary.itemId
  | _ => none

end AgentEvent

namespace ProviderEventEnvelope

def turnId : ProviderEventEnvelope → Option AgentTurnId
  | session _ _ => none
  | turn turnId _ _ => some turnId

def isTerminalOf (id : AgentTurnId) : ProviderEventEnvelope → Bool
  | session _ _ => false
  | turn turnId event _ => turnId = id && event.isTerminal

/-- The envelope is the `Completed` of the turn. -/
def isCompletedOf (id : AgentTurnId) : ProviderEventEnvelope → Bool
  | turn turnId (.completed _) _ => turnId = id
  | _ => false

end ProviderEventEnvelope

end Zuse.Agents
