import Zuse.Conversation.ReactorEffectJournal
import Zuse.Domain.Engine.AttemptStanding
import Zuse.Domain.Engine.SessionDomain

namespace Zuse.Conversation

open Zuse.Data Zuse.Domain

/-! The executor of the `provider.turn.send` jobs. An execution is a fiber: between two
of its effects the other executions of the job, the commands of the session and a crash
have their turn. -/

structure SendJob where
  id : String
  sessionId : String
  turnId : String
  attemptId : Option String

def providerDeliveryOutcomeUnknown : String :=
  "Zuse could not confirm whether the agent received this message before the runtime " ++
  "stopped. Zuse did not send it again to avoid a duplicate. Retry the message if no " ++
  "response appears."

def sessionDisappeared : String := "Provider session disappeared after start."

namespace SendJob

variable (job : SendJob)

def expectedAttempt : AttemptOwnership where
  requireUninterrupted := true
  turnId := job.turnId
  attemptId := job.attemptId.getD (attemptIdFor job.turnId 1)

def owned (commandId : String) (command : SessionCommand) : DispatchInput :=
  { DispatchInput.plain commandId job.sessionId command with
    expectedAttempt := some job.expectedAttempt }

def recoverId : String := job.id ++ ":recover"

def recoverTurn (nowMs : Millis) : DispatchInput :=
  job.owned job.recoverId (.recoverTurn job.turnId job.expectedAttempt.attemptId nowMs)

/-- `persistMessage` of an error. -/
def persistError (messageId message : String) (nowMs : Millis) : DispatchInput :=
  job.owned ("message:persist:" ++ messageId)
    (.persistMessage
      { inputOwner := none
        messageId
        turnId := some job.turnId
        role := "system"
        kind := "error"
        contentJson := jsonObject [("_tag", jsonString "error"), ("message", jsonString message)]
        parentItemId := none
        checkpointRevision := none
        checkpointFinal := none
        createdAt := nowMs })

def outcomeUnknownMessageId : String := "provider-outcome-unknown:" ++ job.id

def explainId : String := "message:persist:" ++ job.outcomeUnknownMessageId

def persistOutcomeUnknown (nowMs : Millis) : DispatchInput :=
  job.persistError job.outcomeUnknownMessageId providerDeliveryOutcomeUnknown nowMs

def setStatus (uuid : String) (status : SessionStatus) (nowMs : Millis) : DispatchInput :=
  job.owned uuid (.setStatus status nowMs)

def finalizeId : String :=
  "turn:finalize:" ++ job.sessionId ++ ":" ++ job.turnId ++ ":" ++
    job.expectedAttempt.attemptId ++ ":error"

/-- `settleTurn` with an error. -/
def settleTurn (nowMs : Millis) : DispatchInput :=
  job.owned job.finalizeId (.finalizeTurn job.turnId .error nowMs)

def commandIds : List String :=
  [job.recoverId, job.explainId, job.finalizeId]

end SendJob

/-- `activeAttempt` of the session. -/
def activeAttempt (state : SessionState) : Option (String × String) :=
  if state.archived then none
  else state.currentTurn.map fun turn => (turn.id, turn.activeAttemptId)

inductive SendExit where
  | succeeded
  /-- A failure with `retry: "on_demand"`. -/
  | onDemand
  /-- A failure with `retry: "never"`, a defect or an interruption. -/
  | never
  deriving DecidableEq

/-- The effects of `recoverUnknownDelivery`. -/
inductive RecoveryStep where
  | recovering
  | explaining
  | settling
  | marking
  deriving DecidableEq

/-- The effect that an execution does next. -/
inductive SendPhase where
  | renewing
  | lookingUp
  | comparing
  | preparing
  | beginning
  /-- `begin` has answered, `deliveryStarted` is not set yet. -/
  | begun (began : ReactorEffectBegin)
  | settingRunning
  | sending
  | awaiting
  | ensuring
  /-- `ensureForTurn` has called the provider. -/
  | awaitingReopened
  | completing
  | reporting (reason : String)
  | settingError (reason : String)
  | releasing
  /-- `recoverUnknownDelivery`, in the body or in the handler of `onExit`. -/
  | recovering (step : RecoveryStep) (onExit : Bool)
  | ended (exit : SendExit)
  deriving DecidableEq

structure SendExecution where
  deliveryStarted : Bool
  phase : SendPhase

inductive SendAnswer where
  | ok
  /-- The baseline is not captured, or the opened session is not admitted. -/
  | refused
  | undelivered
  | uncertain
  | failed (reason : String)
  | dies
  | interrupted
  deriving DecidableEq

inductive SendOutcome where
  | unanswered
  | delivered
  | undelivered
  | uncertain
  deriving DecidableEq

/-- A call of the provider, by the claim that made it. -/
structure SendRecord where
  owner : String
  outcome : SendOutcome

/-- What a receipt of the session keeps for a replay: whether its events cancel the
job. -/
structure SessionReceipt where
  commandId : String
  cancels : Bool

structure SendWorld where
  session : SessionState
  receipts : List SessionReceipt
  status : JobStatus
  leaseOwner : Option String
  lapsed : Bool
  owners : List String
  effect : ReactorEffectState
  executions : InsertionMap String SendExecution
  sends : List SendRecord
  interrupted : Bool

namespace SendWorld

variable (world : SendWorld)

/-- The owner holds the claim, as the statements of the ledger test it. -/
def holds (owner : String) : Bool :=
  world.status = .running ∧ world.leaseOwner = some owner ∧ world.lapsed = false

def claimedBy (owner : String) : Bool :=
  world.status = .running ∧ world.leaseOwner = some owner

/-- `cancelUnsettled`, as far as it reaches the job. -/
def cancel : SendWorld :=
  if world.status.isUnsettled then { world with status := .cancelled, leaseOwner := none }
  else world

def cancelIf (cancels : Bool) : SendWorld := if cancels then world.cancel else world

def cancels (command : SessionCommand) (events : List SessionEvent) : Bool :=
  command.isExpireAttempt ||
    events.any fun event => event.isAttemptStarted || event.isTurnInterruptRequested

section Dispatch

variable [PayloadCodec]

def commit (commandId : String) (command : SessionCommand) (events : List SessionEvent) :
    SendWorld :=
  { world.cancelIf (cancels command events) with
    session := evolveAll world.session events
    receipts := ⟨commandId, cancels command events⟩ :: world.receipts
    interrupted := world.interrupted || events.any (·.interruptsTurn) }

/-- The guard comes first, then the receipt of an earlier dispatch, then the decision.
A replay updates the jobs as its receipt tells. -/
def dispatch (input : DispatchInput) : Except DispatchFailure SendWorld :=
  match input.checkOwnership world.session [] with
  | .error failure => .error failure
  | .ok () =>
    match world.receipts.find? (·.commandId = input.commandId) with
    | some receipt => .ok (world.cancelIf receipt.cancels)
    | none =>
      match decide world.session input.command with
      | .error error => .error (.domain error)
      | .ok events => .ok (world.commit input.commandId input.command events)

end Dispatch

def move (owner : String) (execution : SendExecution) : SendWorld :=
  { world with executions := world.executions.set owner execution }

def issue (owner : String) : SendWorld :=
  { world with sends := ⟨owner, .unanswered⟩ :: world.sends }

def answered (owner : String) (outcome : SendOutcome) : SendWorld :=
  { world with
    sends := world.sends.map fun send =>
      if send.owner = owner ∧ send.outcome = .unanswered then { send with outcome } else send }

end SendWorld

structure SendDraw where
  nowMs : Millis
  uuid : String

structure SendProcess where
  job : SendJob
  isProviderAuthenticationRequired : String → Bool

namespace SendProcess

variable [PayloadCodec] (process : SendProcess)

/-- A dispatch of the body. A lost attempt ends the job as done, any other failure
kills the execution. -/
def dispatchThen (world : SendWorld) (owner : String) (started : Bool)
    (input : DispatchInput) (conflict : SendExit) (after : SendPhase) : SendWorld :=
  match world.dispatch input with
  | .ok next => next.move owner ⟨started, after⟩
  | .error (.attemptOwnershipConflict ..) => world.move owner ⟨started, .ended conflict⟩
  | .error _ => world.move owner ⟨started, .ended .never⟩

/-- The exit of an execution that recovers: an interruption stays what it was. -/
def recoveryExit (onExit : Bool) : SendExit := if onExit then .never else .succeeded

def recover (world : SendWorld) (owner : String) (started : Bool) (draw : SendDraw)
    (onExit : Bool) : RecoveryStep → SendWorld
  | .recovering =>
    match world.dispatch (process.job.recoverTurn draw.nowMs) with
    | .ok next => next.move owner ⟨started, .recovering .marking onExit⟩
    | .error (.domain (.validationFailed _)) =>
      world.move owner ⟨started, .recovering .explaining onExit⟩
    | .error (.attemptOwnershipConflict ..) =>
      world.move owner ⟨started, .ended (recoveryExit onExit)⟩
    | .error _ => world.move owner ⟨started, .ended .never⟩
  | .explaining =>
    dispatchThen world owner started (process.job.persistOutcomeUnknown draw.nowMs)
      (recoveryExit onExit) (.recovering .settling onExit)
  | .settling =>
    match world.dispatch (process.job.settleTurn draw.nowMs) with
    | .ok next => next.move owner ⟨started, .recovering .marking onExit⟩
    | .error (.attemptOwnershipConflict ..) =>
      world.move owner ⟨started, .recovering .marking onExit⟩
    | .error _ => world.move owner ⟨started, .ended .never⟩
  | .marking =>
    { world with effect := world.effect.markOutcomeUnknown }.move owner
      ⟨started, .ended (recoveryExit onExit)⟩

def proceed (world : SendWorld) (owner : String) (started : Bool) (draw : SendDraw) :
    SendPhase → Option SendWorld
  | .renewing =>
    some (world.move owner ⟨started, if world.holds owner then .lookingUp else .ended .succeeded⟩)
  | .lookingUp =>
    some (world.move owner
      ⟨started,
        if world.session.exists_ = true ∧ world.session.deleted = false ∧
            world.session.archived = false then .comparing
        else .ended .succeeded⟩)
  | .comparing =>
    some (world.move owner
      ⟨started,
        if activeAttempt world.session =
            some (process.job.turnId, process.job.expectedAttempt.attemptId) then .preparing
        else .ended .succeeded⟩)
  | .preparing => some (world.move owner ⟨started, .beginning⟩)
  | .beginning =>
    some ({ world with effect := world.effect.begin_.2 }.move owner
      ⟨started, .begun world.effect.begin_.1⟩)
  | .begun .completed | .begun .outcomeUnknown =>
    some (world.move owner ⟨started, .ended .succeeded⟩)
  | .begun .alreadyStarted => some (world.move owner ⟨true, .recovering .recovering false⟩)
  | .begun .started => some (world.move owner ⟨true, .settingRunning⟩)
  | .settingRunning =>
    some (dispatchThen world owner started
      (process.job.setStatus draw.uuid .running draw.nowMs) .succeeded .sending)
  | .sending => some ((world.issue owner).move owner ⟨started, .awaiting⟩)
  | .awaiting | .awaitingReopened =>
    some ((world.answered owner .delivered).move owner ⟨started, .completing⟩)
  | .ensuring => some ((world.issue owner).move owner ⟨started, .awaitingReopened⟩)
  | .completing =>
    some ({ world with effect := world.effect.complete }.move owner ⟨started, .ended .succeeded⟩)
  | .reporting reason =>
    some (dispatchThen world owner started
      (process.job.persistError draw.uuid reason draw.nowMs) .succeeded (.settingError reason))
  | .settingError reason =>
    some (dispatchThen world owner started
      (process.job.setStatus draw.uuid .error draw.nowMs) .succeeded
      (if process.isProviderAuthenticationRequired reason then .completing
        else .releasing))
  | .releasing =>
    some ({ world with effect := world.effect.releaseUndelivered }.move owner
      ⟨started, .ended .never⟩)
  | .recovering step onExit => some (process.recover world owner started draw onExit step)
  | .ended _ => none

/-- The effect of the phase comes out as `answer`. -/
def perform (world : SendWorld) (owner : String) (execution : SendExecution)
    (draw : SendDraw) (answer : SendAnswer) : Option SendWorld :=
  let started := execution.deliveryStarted
  match answer with
  | .ok => process.proceed world owner started draw execution.phase
  | .refused =>
    match execution.phase with
    | .preparing => some (world.move owner ⟨started, .ended .onDemand⟩)
    | .ensuring => some (world.move owner ⟨started, .ended .succeeded⟩)
    | _ => none
  | .undelivered =>
    match execution.phase with
    | .awaiting =>
      some ((world.answered owner .undelivered).move owner ⟨started, .ensuring⟩)
    | .awaitingReopened =>
      some ((world.answered owner .undelivered).move owner ⟨started, .reporting sessionDisappeared⟩)
    | _ => none
  | .uncertain =>
    match execution.phase with
    | .awaiting =>
      some ((world.answered owner .uncertain).move owner ⟨started, .recovering .recovering false⟩)
    -- nothing catches the defect of the call that `ensureForTurn` makes
    | .awaitingReopened =>
      some ((world.answered owner .uncertain).move owner ⟨started, .ended .never⟩)
    | _ => none
  | .failed reason =>
    match execution.phase with
    | .ensuring => some (world.move owner ⟨started, .reporting reason⟩)
    | _ => none
  | .dies =>
    match execution.phase with
    | .awaiting | .awaitingReopened | .ended _ => none
    | _ => some (world.move owner ⟨started, .ended .never⟩)
  | .interrupted =>
    match execution.phase with
    | .recovering _ true | .ended _ => none
    | _ =>
      some (world.move owner
        ⟨started, if started then .recovering .recovering true else .ended .never⟩)

end SendProcess

/-- What starts the job: a session whose attempt was issued, before the executor has
dispatched anything for it. -/
structure SendStart [PayloadCodec] extends SendProcess where
  session : Session
  receipts : List SessionReceipt
  reached : sessionSystem.Reachable session
  present : session.state.Present
  issued : session.state.Issued job.turnId job.expectedAttempt.attemptId
  unused : ∀ receipt ∈ receipts, receipt.commandId ∉ job.commandIds

inductive SendLabel where
  | claim (owner : String)
  | perform (owner : String) (draw : SendDraw) (answer : SendAnswer)
  | settle (owner : String)
  | lapse
  | reclaimExpired
  | restart
  | dispatch (commandId : String) (command : SessionCommand)

namespace SendStart

variable [PayloadCodec] (start : SendStart)

def draws (world : SendWorld) (draw : SendDraw) : Bool :=
  [draw.uuid, "message:persist:" ++ draw.uuid].all fun id =>
    id ∉ start.job.commandIds ∧ id ∉ world.receipts.map (·.commandId)

/-- Of the command ids that are derived from the job only the one of `settleTurn` is
used elsewhere, for the same settlement. -/
def foreign (commandId : String) (command : SessionCommand) : Bool :=
  commandId ∉ start.job.commandIds ||
    (commandId = start.job.finalizeId &&
      match command with
      | .finalizeTurn turnId _ _ => turnId = start.job.turnId
      | _ => false)

def init : SendWorld where
  session := start.session.state
  receipts := start.receipts
  status := .pending
  leaseOwner := none
  lapsed := false
  owners := []
  effect := .missing
  executions := .empty
  sends := []
  interrupted := (ownedTurn start.session.state start.job.turnId
    start.job.expectedAttempt.attemptId).any (·.phase ≠ some .running)

/-- `settleJob` on what the execution returned. -/
def settle (world : SendWorld) (owner : String) (exit : SendExit) : SendWorld :=
  let settled := { world with executions := world.executions.delete owner }
  if world.holds owner then
    { settled with
      status :=
        match exit with
        | .succeeded => .succeeded
        | .onDemand => .waiting
        | .never => .failed
      leaseOwner := none }
  else settled

def step (world : SendWorld) : SendLabel → Option SendWorld
  | .claim owner =>
    if (world.status = .pending ∨ world.status = .waiting) ∧ owner ∉ world.owners then
      some
        { world with
          status := .running
          leaseOwner := some owner
          lapsed := false
          owners := owner :: world.owners
          executions := world.executions.set owner ⟨false, .renewing⟩ }
    else none
  | .perform owner draw answer =>
    if start.draws world draw then
      (world.executions.get? owner).bind fun execution =>
        start.toSendProcess.perform world owner execution draw answer
    else none
  | .settle owner =>
    match world.executions.get? owner with
    | some ⟨_, .ended exit⟩ => some (settle world owner exit)
    | _ => none
  | .lapse => if world.status = .running then some { world with lapsed := true } else none
  | .reclaimExpired =>
    if world.status = .running ∧ world.lapsed then
      some { world with status := .pending, leaseOwner := none }
    else none
  | .restart =>
    let requeued :=
      if world.status = .running ∨ world.status = .waiting then
        { world with status := .pending, leaseOwner := none }
      else world
    some { requeued with executions := .empty }
  | .dispatch commandId command =>
    if start.foreign commandId command then
      match world.receipts.find? (·.commandId = commandId) with
      | some receipt => some (world.cancelIf receipt.cancels)
      | none =>
        match decide world.session command with
        | .error _ => none
        | .ok events =>
          if events.any (·.leavesScope start.job.turnId) then none
          else some (world.commit commandId command events)
    else none

def system : TransitionSystem SendWorld SendLabel where
  init := start.init
  step := start.step

end SendStart

end Zuse.Conversation
