import Zuse.Data.TransitionSystem

namespace Zuse.Client

open Zuse.Data

/-! One supervised connection: a client session that is replaced when it is lost, the
attempts to make the next one, and the commands that wait for it. -/

inductive ConnectionStatus
  | offline
  | connecting
  | connected
  | reconnecting
  | error
  | blockedAuth
  deriving DecidableEq

/-- What the host gives the supervisor. Without `validates` a session is never probed; no
limit on the automatic attempts is `none`. -/
structure SupervisorDeps (Ω κ : Type) where
  requiresNetwork : Ω → Bool
  maxAutomaticAttempts : Ω → Option Nat
  shouldReconnectOnOptionsChange : Ω → Ω → Bool
  isAuthError : κ → Bool
  isRetryableCommandError : κ → Bool
  isIgnorableFailure : κ → Bool
  validates : Bool
  confirmFailuresWithProbe : Bool
  newError : String → κ
  messageOf : κ → String

/-- How an asynchronous call for a session ends; sessions are numbered as they are made. -/
inductive Outcome (κ : Type)
  | ready (session : Nat)
  | rejected (cause : κ)
  deriving DecidableEq

/-- Where an attempt to connect stands: it waits for the sessions that were being closed,
prepares its options, creates a session, validates it, or discards it. A settled attempt
has not been seen yet by the call that began it. -/
inductive AttemptStage (κ : Type)
  | closing (sessions : List Nat)
  | preparing
  | creating
  | validating (session : Nat)
  | discarding (cause : κ)
  | settled (outcome : Outcome κ)
  | finished (outcome seen : Outcome κ)

structure Attempt (κ : Type) where
  id : Nat
  epoch : Nat
  stage : AttemptStage κ

/-- What a call for the client is given: an outcome at once, or the attempt it waits for,
as the one who began it or not. -/
inductive Ensured (κ : Type)
  | now (outcome : Outcome κ)
  | attempt (id : Nat) (owner : Bool)
  deriving DecidableEq

inductive CommandStage (κ : Type)
  | idle
  | awaiting (ensured : Ensured κ)
  | executing (session : Nat)
  | returning
  | failing (cause : κ)
  deriving DecidableEq

inductive Receipt (κ : Type)
  | pending
  | fulfilled
  | rejected (cause : κ)
  deriving DecidableEq

/-- An entry of the dispatcher; it stays listed under its id until it is settled. -/
structure CommandEntry (κ : Type) where
  commandId : String
  listed : Bool
  settled : Bool
  receipt : Receipt κ
  stage : CommandStage κ
  deriving DecidableEq

def CommandEntry.inFlight (command : CommandEntry κ) : Bool :=
  match command.stage with
  | .idle => false
  | _ => true

def CommandEntry.settle (command : CommandEntry κ) (receipt : Receipt κ) : CommandEntry κ :=
  { command with
    settled := true
    receipt := match command.receipt with
      | .pending => receipt
      | already => already }

/-- A probe of a session, because of a reported failure or to check its health. -/
structure Probe (κ : Type) where
  cause : Option κ
  epoch : Nat
  client : Nat

/-- The sessions of a connection. `created` and `disposed` list those that were returned
and those whose disposal was called; `closing` are those whose disposal is still chained
behind the one that runs. -/
structure Sessions (κ : Type) where
  client : Option Nat
  disposeClient : Option Nat
  inFlight : Option Nat
  closing : List Nat
  closingNow : Option Nat
  epoch : Nat
  removed : Bool
  generation : Nat
  attempts : List (Attempt κ)
  created : List Nat
  disposed : List Nat

/-- The connection, with its commands and its environment. -/
structure Connection (Ω κ : Type) extends Sessions κ where
  options : Ω
  platformOnline : Bool
  now : Nat
  retry : Bool
  connectedAt : Option Nat
  carriedAttempts : Nat
  confirmingFailureEpoch : Option Nat
  status : ConnectionStatus
  attempt : Nat
  error : Option String
  commands : List (CommandEntry κ)
  probes : List (Probe κ)

def stableConnectionMs : Nat := 20000

namespace Connection

variable {Ω κ : Type} (deps : SupervisorDeps Ω κ) (entry : Connection Ω κ)

def isOnline : Bool := !deps.requiresNetwork entry.options || entry.platformOnline

def fresh (options : Ω) (platformOnline : Bool) (now : Nat) : Connection Ω κ where
  client := none
  disposeClient := none
  inFlight := none
  closing := []
  closingNow := none
  epoch := 0
  removed := false
  generation := 0
  attempts := []
  created := []
  disposed := []
  options
  platformOnline
  now
  retry := false
  connectedAt := none
  carriedAttempts := 0
  confirmingFailureEpoch := none
  status :=
    if !deps.requiresNetwork options || platformOnline then .connecting else .offline
  attempt := 0
  error := none
  commands := []
  probes := []

def clearRetry : Connection Ω κ := { entry with retry := false }

/-- The session of the client is closed after those that are being closed. -/
def closeCurrent : Connection Ω κ :=
  { entry with
    client := none
    disposeClient := none
    closing := entry.closing ++ entry.disposeClient.toList }

def invalidateClient : Connection Ω κ :=
  closeCurrent { entry with epoch := entry.epoch + 1, connectedAt := none, inFlight := none }

def goOffline : Connection Ω κ := { entry with status := .offline, error := none }

def blocked : Bool :=
  entry.status = .blockedAuth ||
    (entry.status = .error && (deps.maxAutomaticAttempts entry.options).any (· ≤ entry.attempt))

def beginAttempt : Connection Ω κ :=
  { entry.clearRetry with
    status := if entry.generation = 0 then .connecting else .reconnecting
    error := none
    inFlight := some entry.attempts.length
    attempts := entry.attempts ++
      [⟨entry.attempts.length, entry.epoch, .closing (entry.closingNow.toList ++ entry.closing)⟩] }

def ensureClient : Ensured κ × Connection Ω κ :=
  if entry.removed then (.now (.rejected (deps.newError "connection removed")), entry)
  else if !entry.isOnline deps then
    (.now (.rejected (deps.newError "offline")), entry.goOffline)
  else if entry.blocked deps then
    (.now (.rejected (deps.newError (entry.error.getD "connection unavailable"))), entry)
  else
    match entry.client, entry.inFlight with
    | some session, _ => (.now (.ready session), entry)
    | none, some attempt => (.attempt attempt false, entry)
    | none, none => (.attempt entry.attempts.length true, entry.beginAttempt)

def markFailure (cause : κ) (previousAttempts : Nat) : Connection Ω κ :=
  if !entry.isOnline deps then entry.goOffline
  else if deps.isAuthError cause then
    { entry with status := .blockedAuth, error := some (deps.messageOf cause) }
  else if (deps.maxAutomaticAttempts entry.options).any (· ≤ previousAttempts + 1) then
    { entry with
      status := .error
      attempt := previousAttempts + 1
      error := some (deps.messageOf cause) }
  else
    { entry with
      status := .reconnecting
      attempt := previousAttempts + 1
      error := some (deps.messageOf cause)
      retry := true }

def reconnectLostSession : Connection Ω κ :=
  let lost := { entry with carriedAttempts := 0, retry := false }
  if !lost.isOnline deps then lost.goOffline
  else
    (ensureClient deps
      { lost with status := .reconnecting, attempt := 0, error := none }).2

def isStable : Bool :=
  entry.connectedAt.any fun connectedAt => stableConnectionMs ≤ entry.now - connectedAt

def replaceAfterFailure (cause : κ) : Connection Ω κ :=
  if entry.isStable then entry.invalidateClient.reconnectLostSession deps
  else entry.invalidateClient.markFailure deps cause entry.carriedAttempts

def confirmFailure (cause : κ) (client : Nat) : Connection Ω κ :=
  if entry.confirmingFailureEpoch = some entry.epoch then entry
  else
    { entry with
      confirmingFailureEpoch := some entry.epoch
      probes := entry.probes ++ [⟨some cause, entry.epoch, client⟩] }

/-- Whether a reported failure says nothing about the current session. -/
def failureIgnored (cause : κ) (expectedGeneration : Option Nat) : Bool :=
  entry.removed || deps.isIgnorableFailure cause || entry.status ≠ .connected ||
    expectedGeneration.any (· ≠ entry.generation)

def handleFailure (cause : κ) (expectedGeneration : Option Nat) (confirmWithProbe : Bool) :
    Connection Ω κ :=
  if entry.failureIgnored deps cause expectedGeneration then entry
  else
    match entry.client with
    | some client =>
      if confirmWithProbe && deps.validates then entry.confirmFailure cause client
      else entry.replaceAfterFailure deps cause
    | none => entry.replaceAfterFailure deps cause

def retryNow : Connection Ω κ :=
  if entry.removed then entry
  else
    let cleared := entry.clearRetry
    if !cleared.isOnline deps then cleared.goOffline
    else
      (ensureClient deps { cleared.invalidateClient with
        status := if entry.generation = 0 then .connecting else .reconnecting
        attempt := 0
        error := none }).2

def replaceSession : Connection Ω κ :=
  if entry.removed then entry
  else if entry.client.isSome && entry.status = .connected then
    entry.invalidateClient.reconnectLostSession deps
  else if entry.status = .reconnecting && entry.retry then entry.retryNow deps
  else entry

def checkHealth : Connection Ω κ :=
  if entry.removed then entry
  else
    match entry.client, entry.status with
    | some client, .connected =>
      { entry with probes := entry.probes ++ [⟨none, entry.epoch, client⟩] }
    | _, .reconnecting => if entry.retry then entry.retryNow deps else entry
    | _, _ => entry

def setOnline (online : Bool) : Connection Ω κ :=
  if entry.removed then entry
  else if !online then
    if !deps.requiresNetwork entry.options then entry
    else entry.clearRetry.invalidateClient.goOffline
  else if entry.status = .offline then
    retryNow deps { entry with status := .reconnecting, error := none }
  else entry

def announce : Connection Ω κ :=
  { entry with
    status := if entry.isOnline deps then .reconnecting else .offline
    attempt := 0
    error := none }

def updateOptions (options : Ω) : Connection Ω κ :=
  let changed := { entry with options }
  if !deps.shouldReconnectOnOptionsChange entry.options options || entry.removed then changed
  else
    let announced := changed.clearRetry.invalidateClient.announce deps
    if announced.isOnline deps then (announced.ensureClient deps).2 else announced

variable (index : Nat)

def setCommand (command : CommandEntry κ) : Connection Ω κ :=
  { entry with commands := entry.commands.set index command }

def run : Connection Ω κ :=
  match entry.commands[index]? with
  | none => entry
  | some command =>
    if command.inFlight || command.settled || !command.listed then entry
    else
      let ensured := entry.ensureClient deps
      ensured.2.setCommand index { command with stage := .awaiting ensured.1 }

def redispatchPending : Connection Ω κ :=
  (List.range entry.commands.length).foldl (fun entry index => run deps entry index) entry

def failPending (cause : κ) : Connection Ω κ :=
  { entry with commands := entry.commands.map fun command =>
      if command.listed then
        { (if command.settled then command else command.settle (.rejected cause)) with
          listed := false }
      else command }

def dispatchCommand (commandId : String) : Connection Ω κ :=
  if entry.commands.any fun command => command.listed && command.commandId = commandId then
    entry
  else
    run deps
      { entry with commands := entry.commands ++ [⟨commandId, true, false, .pending, .idle⟩] }
      entry.commands.length

def outcomeOf : Ensured κ → Option (Outcome κ)
  | .now outcome => some outcome
  | .attempt id owner =>
    entry.attempts[id]?.bind fun attempt =>
      match attempt.stage, owner with
      | .settled outcome, false => some outcome
      | .finished outcome _, false => some outcome
      | .finished _ seen, true => some seen
      | _, _ => none

/-- The operation of a command has failed: where it may be retried the failure is reported
without a probe. -/
def catchFailure (command : CommandEntry κ) (cause : κ) : Connection Ω κ :=
  let failing := { command with stage := .failing cause }
  if deps.isRetryableCommandError cause then
    (entry.handleFailure deps cause none false).setCommand index failing
  else entry.setCommand index failing

def resume : Option (Connection Ω κ) :=
  entry.commands[index]?.bind fun command =>
    match command.stage with
    | .awaiting ensured =>
      (entry.outcomeOf ensured).map fun outcome =>
        match outcome with
        | .ready session => entry.setCommand index { command with stage := .executing session }
        | .rejected cause => entry.catchFailure deps index command cause
    | _ => none

def complete (failure : Option κ) : Option (Connection Ω κ) :=
  entry.commands[index]?.bind fun command =>
    match command.stage, failure with
    | .executing _, none => some (entry.setCommand index { command with stage := .returning })
    | .executing _, some cause => some (entry.catchFailure deps index command cause)
    | _, _ => none

def unlist (commandId : String) : Connection Ω κ :=
  { entry with commands := entry.commands.map fun command =>
      if command.commandId = commandId then { command with listed := false } else command }

def settleCommand : Option (Connection Ω κ) :=
  entry.commands[index]?.bind fun command =>
    match command.stage with
    | .returning =>
      some ((entry.setCommand index
        { command.settle .fulfilled with stage := .idle }).unlist command.commandId)
    | .failing cause =>
      if deps.isRetryableCommandError cause then
        some (entry.setCommand index { command with stage := .idle })
      else
        some ((entry.setCommand index
          { command.settle (.rejected cause) with stage := .idle }).unlist command.commandId)
    | _ => none

def remove : Connection Ω κ :=
  if entry.removed then entry
  else
    (failPending { entry.clearRetry with
      removed := true
      epoch := entry.epoch + 1
      inFlight := none } (deps.newError "connection removed")).closeCurrent

variable (attempt : Attempt κ)

def setStage (stage : AttemptStage κ) : Connection Ω κ :=
  { entry with attempts := entry.attempts.set attempt.id { attempt with stage } }

/-- Whether an attempt has been overtaken by a removal or by another session. -/
def superseded : Bool :=
  entry.removed || attempt.epoch ≠ entry.epoch

def supersededCause : κ := deps.newError "connection superseded"

/-- A session is disposed of at once, and the attempt fails when that is done. -/
def discard (session : Nat) (cause : κ) : Connection Ω κ :=
  setStage { entry with disposed := entry.disposed ++ [session] } attempt (.discarding cause)

/-- The next step of an attempt, where `failure` is how the call it waits for failed. -/
def advance (id : Nat) (failure : Option κ) : Option (Connection Ω κ) :=
  entry.attempts[id]?.bind fun attempt =>
    match attempt.stage, failure with
    | .closing sessions, _ =>
      if sessions.all fun session =>
        session ∉ entry.closing && entry.closingNow ≠ some session then
        some (entry.setStage attempt .preparing)
      else none
    | .preparing, some cause => some (entry.setStage attempt (.settled (.rejected cause)))
    | .preparing, none =>
      some (entry.setStage attempt
        (if entry.superseded attempt then .settled (.rejected (supersededCause deps))
        else .creating))
    | .creating, some cause => some (entry.setStage attempt (.settled (.rejected cause)))
    | .creating, none =>
      let session := entry.created.length
      let returned := { entry with created := entry.created ++ [session] }
      some (if entry.superseded attempt then
        returned.discard attempt session (supersededCause deps)
      else returned.setStage attempt (.validating session))
    | .validating session, failure =>
      match failure with
      | some cause =>
        if deps.validates then some (entry.discard attempt session cause) else none
      | none =>
        some (if entry.superseded attempt then
          entry.discard attempt session (supersededCause deps)
        else
          setStage { entry with disposeClient := some session } attempt (.settled (.ready session)))
    | .discarding cause, _ => some (entry.setStage attempt (.settled (.rejected cause)))
    | _, _ => none

def forget : Connection Ω κ :=
  if entry.inFlight = some attempt.id then { entry with inFlight := none } else entry

def connected (session : Nat) : Connection Ω κ :=
  setStage { entry.forget attempt with
    client := some session
    connectedAt := some entry.now
    carriedAttempts := entry.attempt
    status := .connected
    generation := entry.generation + 1
    attempt := 0
    error := none } attempt (.finished (.ready session) (.ready session))

/-- The new session is the client from now on; what waits for it is run again, unless it
is the first session of the entry. -/
def connect (session : Nat) : Connection Ω κ :=
  if 0 < entry.generation then (entry.connected attempt session).redispatchPending deps
  else entry.connected attempt session

def finishAttempt (id : Nat) : Option (Connection Ω κ) :=
  entry.attempts[id]?.bind fun attempt =>
    match attempt.stage with
    | .settled (.ready session) =>
      some (if entry.superseded attempt then
        (entry.forget attempt).setStage attempt
          (.finished (.ready session) (.rejected (supersededCause deps)))
      else entry.connect deps attempt session)
    | .settled (.rejected cause) =>
      let seen := (entry.forget attempt).setStage attempt
        (.finished (.rejected cause) (.rejected cause))
      some (if entry.superseded attempt then seen
      else seen.markFailure deps cause seen.attempt)
    | _ => none

def disposeNext : Option (Connection Ω κ) :=
  match entry.closingNow, entry.closing with
  | none, session :: rest =>
    some { entry with
      closing := rest
      closingNow := some session
      disposed := entry.disposed ++ [session] }
  | _, _ => none

def disposalDone : Option (Connection Ω κ) :=
  entry.closingNow.map fun _ => { entry with closingNow := none }

/-- A probe that confirms a reported failure ends; one at a time decides. -/
def probed (failure : Option κ) : Option (Connection Ω κ) :=
  if failure.isSome && !deps.validates then none
  else entry.probes[index]?.map fun probe =>
    let ended := { entry with probes := entry.probes.eraseIdx index }
    let stale := entry.removed || probe.epoch ≠ entry.epoch || entry.client ≠ some probe.client
    match probe.cause, failure with
    | some _, some failure =>
      let decided := if stale then ended else ended.replaceAfterFailure deps failure
      { decided with
        confirmingFailureEpoch :=
          if decided.confirmingFailureEpoch = some probe.epoch then none
          else decided.confirmingFailureEpoch }
    | some _, none =>
      { ended with
        confirmingFailureEpoch :=
          if ended.confirmingFailureEpoch = some probe.epoch then none
          else ended.confirmingFailureEpoch }
    | none, some _ =>
      if stale then ended else ended.invalidateClient.reconnectLostSession deps
    | none, none => ended

def retryDue : Option (Connection Ω κ) :=
  if entry.retry then some (ensureClient deps { entry with retry := false }).2 else none

end Connection

inductive ConnectionEvent (Ω κ : Type)
  | getClient
  | dispatchCommand (commandId : String)
  | reportFailure (cause : κ) (expectedGeneration : Option Nat)
  | retryNow
  | replaceSession
  | checkHealth
  | setOnline (online : Bool)
  | updateOptions (options : Ω)
  | remove
  | resume (index : Nat)
  | complete (index : Nat) (failure : Option κ)
  | settleCommand (index : Nat)
  | advance (attempt : Nat) (failure : Option κ)
  | finishAttempt (attempt : Nat)
  | disposeNext
  | disposalDone
  | probed (index : Nat) (failure : Option κ)
  | retryDue
  | platform (online : Bool)
  | tick (now : Nat)
  deriving DecidableEq

variable {Ω κ : Type}

def Connection.step (deps : SupervisorDeps Ω κ) (entry : Connection Ω κ) :
    ConnectionEvent Ω κ → Option (Connection Ω κ)
  | .getClient => some (entry.ensureClient deps).2
  | .dispatchCommand commandId => some (entry.dispatchCommand deps commandId)
  | .reportFailure cause expectedGeneration =>
    some (entry.handleFailure deps cause expectedGeneration deps.confirmFailuresWithProbe)
  | .retryNow => some (entry.retryNow deps)
  | .replaceSession => some (entry.replaceSession deps)
  | .checkHealth => some (entry.checkHealth deps)
  | .setOnline online => some (entry.setOnline deps online)
  | .updateOptions options => some (entry.updateOptions deps options)
  | .remove => some (entry.remove deps)
  | .resume index => entry.resume deps index
  | .complete index failure => entry.complete deps index failure
  | .settleCommand index => entry.settleCommand deps index
  | .advance attempt failure => entry.advance deps attempt failure
  | .finishAttempt attempt => entry.finishAttempt deps attempt
  | .disposeNext => entry.disposeNext
  | .disposalDone => entry.disposalDone
  | .probed index failure => entry.probed deps index failure
  | .retryDue => entry.retryDue deps
  | .platform platformOnline => some { entry with platformOnline }
  | .tick now => some { entry with now }

def supervisorSystem (deps : SupervisorDeps Ω κ) (options : Ω) (platformOnline : Bool)
    (now : Nat) : TransitionSystem (Connection Ω κ) (ConnectionEvent Ω κ) where
  init := .fresh deps options platformOnline now
  step := Connection.step deps

end Zuse.Client
