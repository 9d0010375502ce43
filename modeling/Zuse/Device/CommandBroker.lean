import Mathlib.Data.List.Sort
import Zuse.Data.InsertionMap
import Zuse.Data.SerialTasks
import Zuse.Data.Text

namespace Zuse.Device

open Zuse.Data

/-! The gate through which a cloud runtime runs commands on the user's computer: what is
stored, what the process holds in memory, and the asynchronous operations on both. -/

inductive CommandState
  | pending
  | running
  | completed
  | denied
  | cancelled
  | interrupted
  | unknown
  deriving DecidableEq

structure DeviceCommand where
  id : String
  accountId : String
  workspaceId : String
  chatId : String
  chatTitle : String
  grantEpoch : Nat
  sessionId : String
  deviceId : String
  deviceName : String
  command : String
  cwd : String
  state : CommandState
  stdout : String
  stderr : String
  exitCode : Option Int
  truncated : Bool
  createdAt : Nat

structure DeviceCommandGrant where
  id : String
  accountId : String
  deviceId : String
  chatId : Option String
  grantEpoch : Nat
  createdAt : Nat

inductive Actor
  | runtime
  | user
  deriving DecidableEq

structure DevicePrincipal where
  accountId : String
  workspaceId : String
  chatId : String
  chatTitle : Option String
  sessionId : String
  grantEpoch : Nat
  actor : Actor

/-- The computer as its services see it at one moment. The account is absent where it is
not looked at, and `none` where nobody is signed in. -/
structure DeviceIdentity where
  linkKey : String
  deviceId : String
  deviceName : String
  homeDirectory : String
  connected : Bool
  enabled : Option Bool
  accountId : Option (Option String)
  connectionError : Option String

def active (command : DeviceCommand) : Bool :=
  command.state = .pending || command.state = .running

def deviceGrantMatches (grant : DeviceCommandGrant) (command : DeviceCommand) : Bool :=
  grant.accountId = command.accountId && grant.deviceId = command.deviceId &&
    (grant.chatId.isNone ||
      (grant.chatId = some command.chatId && grant.grantEpoch = command.grantEpoch))

def leaseMs : Nat := 15000

def outputLimit : Nat := 1024 * 1024

def maxActive : Nat := 4

/-- The stored commands, one row for each id. -/
structure CommandTable where
  rows : InsertionMap String DeviceCommand
  keyed : ∀ id command, rows.get? id = some command → command.id = id

namespace CommandTable

def command (table : CommandTable) (id : String) : Option DeviceCommand :=
  table.rows.get? id

def saveCommand (table : CommandTable) (command : DeviceCommand) : CommandTable where
  rows := table.rows.set command.id command
  keyed := by
    intro id stored found
    obtain ⟨same, rfl⟩ | found := InsertionMap.get?_set_cases found
    · exact same
    · exact table.keyed id stored found

def reserveCommand (table : CommandTable) (command : DeviceCommand) : CommandTable :=
  if table.rows.has command.id then table else table.saveCommand command

def commands (table : CommandTable) : List DeviceCommand :=
  table.rows.values.filter active ++
    ((table.rows.values.filter fun command => !active command).insertionSort
      fun first second => second.createdAt ≤ first.createdAt).take 20

end CommandTable

structure Store where
  config : Option String
  commands : CommandTable
  grants : InsertionMap String DeviceCommandGrant

/-- A spawned process that the broker still holds. -/
structure Entry where
  command : DeviceCommand
  lease : Nat
  bytes : Nat

/-- What is stored and what the process holds in memory. `spawned` and `barred` are kept
for the statements only: the processes spawned so far, and the commands that were active
when the whole authority of the broker was taken away. -/
structure Broker where
  store : Store
  running : InsertionMap String Entry
  pendingLeases : InsertionMap String Nat
  closed : Bool
  disabled : Bool
  now : Nat
  spawned : List String
  barred : List String

namespace Broker

def opened (store : Store) (now : Nat) : Broker :=
  ⟨store, .empty, .empty, false, false, now, [], []⟩

variable (broker : Broker)

def kill (id : String) : Broker :=
  { broker with
    running := broker.running.delete id
    pendingLeases := broker.pendingLeases.delete id }

def killAll : Broker :=
  broker.running.keys.foldl kill
    { broker with disabled := true, pendingLeases := .empty }

/-- The command as it runs, or as it was read where it does not run. -/
def latest (command : DeviceCommand) : DeviceCommand :=
  ((broker.running.get? command.id).map Entry.command).getD command

def lease (id : String) : Option Nat :=
  ((broker.running.get? id).map Entry.lease).or (broker.pendingLeases.get? id)

def bar (ids : List String) : Broker :=
  { broker with barred := broker.barred ++ ids }

def unavailable : Bool := broker.disabled || broker.closed

def hold (id : String) : Broker :=
  { broker with
    pendingLeases := broker.pendingLeases.set id (broker.now + leaseMs) }

/-- Extend the lease of a command that runs, and of one that is still pending. -/
def renew (command : DeviceCommand) : Broker :=
  let renewed := match broker.running.get? command.id with
    | some entry =>
      { broker with
        running := broker.running.set command.id
          { entry with lease := broker.now + leaseMs } }
    | none => broker
  if command.state = .pending then renewed.hold command.id else renewed

def spawnSupervisedCommand (command : DeviceCommand) (lease : Nat) : Broker :=
  { broker with
    running := broker.running.set command.id ⟨command, lease, 0⟩
    spawned := broker.spawned ++ [command.id] }

end Broker

structure Answer where
  fails : Bool
  applies : Bool
  identity : DeviceIdentity

abbrev Run := Task Broker Answer

def ask (answer : Answer → Store → α) : Run α :=
  .request Answer.fails Answer.applies id fun reply broker => answer reply broker.store

def tell (update : Store → Store) : Run Unit :=
  .request Answer.fails Answer.applies
    (fun broker => { broker with store := update broker.store }) fun _ _ => ()

def currentIdentity : Run DeviceIdentity := ask fun reply _ => reply.identity

def loadConfig : Run (Option String) := ask fun _ store => store.config

def saveConfig (linkKey : String) : Run Unit :=
  tell fun store => { store with config := some linkKey }

def commands : Run (List DeviceCommand) := ask fun _ store => store.commands.commands

variable (id : String)

def command : Run (Option DeviceCommand) :=
  ask fun _ store => store.commands.command id

def saveCommand (command : DeviceCommand) : Run Unit :=
  tell fun store => { store with commands := store.commands.saveCommand command }

def reserveCommand (command : DeviceCommand) : Run Bool :=
  .request Answer.fails Answer.applies
    (fun broker => { broker with store := { broker.store with
      commands := broker.store.commands.reserveCommand command } })
    fun _ broker => !broker.store.commands.rows.has command.id

def grants : Run (List DeviceCommandGrant) := ask fun _ store => store.grants.values

def saveGrant (grant : DeviceCommandGrant) : Run Unit :=
  tell fun store => { store with grants := store.grants.set grant.id grant }

def deleteGrant : Run Unit :=
  tell fun store => { store with grants := store.grants.delete id }

def clearGrants : Run Unit := tell fun store => { store with grants := .empty }

inductive DeviceCommandDecision
  | AllowOnce
  | AllowForSession
  | AlwaysAllow
  | Deny
  deriving DecidableEq

def allows (command : DeviceCommand) : Run Bool := do
  let grants ← grants
  return grants.any fun grant => deviceGrantMatches grant command

def jsonStringOrNull : Option String → String
  | some text => jsonString text
  | none => "null"

def grantId (accountId deviceId : String) (chatId : Option String) : String :=
  "[" ++ ",".intercalate [jsonString accountId, jsonString deviceId, jsonStringOrNull chatId] ++ "]"

def remember (command : DeviceCommand) (decision : DeviceCommandDecision) : Run Unit := do
  if decision = .AllowForSession ∨ decision = .AlwaysAllow then
    let chatId := if decision = .AlwaysAllow then none else some command.chatId
    let now ← Task.gets Broker.now
    saveGrant {
      id := grantId command.accountId command.deviceId chatId
      accountId := command.accountId
      deviceId := command.deviceId
      grantEpoch := command.grantEpoch
      chatId
      createdAt := now }
  else pure ()

def grantOf (grants : List DeviceCommandGrant) (id : String) (accountId : Option String) :
    Option DeviceCommandGrant :=
  grants.find? fun grant =>
    grant.id = id && (accountId.isNone || accountId = some grant.accountId)

def revokeGrant (accountId : Option String) : Run DeviceCommandGrant := do
  let grants ← grants
  match grantOf grants id accountId with
  | none => .throw "Permission not found"
  | some grant =>
    deleteGrant id
    return grant

def stop (command : DeviceCommand) (state : CommandState) : Run DeviceCommand := do
  let latest ← Task.gets fun broker => broker.latest command
  Task.modify fun broker => broker.kill command.id
  let result := { latest with state }
  saveCommand result
  return result

def stopActive (which : DeviceCommand → Bool) (state : CommandState) : Run Unit := do
  let listed ← commands
  Task.forEach listed fun command =>
    if active command && which command then do
      let _ ← stop command state
      return ()
    else pure ()

def synchronize : Run DeviceIdentity := do
  let identity ← currentIdentity
  let config ← loadConfig
  let disabled ← Task.gets Broker.disabled
  let enabled := identity.enabled.getD identity.connected
  if config ≠ some identity.linkKey ∨ disabled = enabled then
    stopActive (fun _ => true) .interrupted
    clearGrants
    saveConfig identity.linkKey
    Task.modify fun broker => { broker with disabled := !enabled }
    return identity
  else
    return identity

def initializeBroker : Run Unit := do
  let listed ← commands
  Task.forEach listed fun command =>
    if active command then saveCommand { command with state := .unknown } else pure ()
  let _ ← synchronize
  return ()

/-- Stop a pending command whose lease has passed; a lease dropped since the loop over the
leases began is not visited. -/
def sweepLease (now : Nat) (id : String) : Run Unit := do
  let lease ← Task.gets fun broker => broker.pendingLeases.get? id
  if lease.any (· < now) then
    let stored ← command id
    match stored with
    | some command =>
      if active command then
        let _ ← stop command .interrupted
        return ()
      else pure ()
    | none => pure ()
  else pure ()

def sweepEntry (now : Nat) (id : String) : Run Unit := do
  let entry ← Task.gets fun broker => broker.running.get? id
  match entry with
  | some entry =>
    if entry.lease < now then
      let _ ← stop entry.command .interrupted
      return ()
    else pure ()
  | none => pure ()

def sweep : Run Unit := do
  let _ ← synchronize
  let now ← Task.gets Broker.now
  let leases ← Task.gets fun broker => broker.pendingLeases.keys
  Task.forEach leases (sweepLease now)
  let entries ← Task.gets fun broker => broker.running.keys
  Task.forEach entries (sweepEntry now)

structure DeviceBridgeStatus where
  deviceId : String
  deviceName : String
  homeDirectory : String
  connected : Bool
  connectionError : Option String
  enabled : Bool
  commands : List DeviceCommand
  grants : List DeviceCommandGrant

/-- The commands that the status shows, the newest first; how much of their output it shows
is left to the reader. -/
def shownCommands (broker : Broker) (principal : Option DevicePrincipal)
    (commands : List DeviceCommand) : List DeviceCommand :=
  let visible := (commands.map broker.latest).filter fun command =>
    principal.all fun principal =>
      command.accountId = principal.accountId && command.chatId = principal.chatId
  (visible.insertionSort fun first second => second.createdAt ≤ first.createdAt).take 20

variable (principal : Option DevicePrincipal)

def shownGrants (grants : List DeviceCommandGrant) :
    List DeviceCommandGrant :=
  grants.filter fun grant => principal.all fun principal =>
    grant.accountId = principal.accountId &&
      (grant.chatId.isNone || grant.chatId = some principal.chatId)

def statusUnlocked : Run DeviceBridgeStatus := do
  let identity ← synchronize
  let listed ← commands
  let shown ← Task.gets fun broker => shownCommands broker principal listed
  let grants ← grants
  let enabled ← Task.gets fun broker => !broker.disabled && !broker.closed
  return {
    deviceId := identity.deviceId
    deviceName := identity.deviceName
    homeDirectory := identity.homeDirectory
    connected := identity.connected
    connectionError := identity.connectionError
    enabled
    commands := shown
    grants := shownGrants principal grants }

def invalidate : Run Unit := do
  clearGrants
  stopActive (fun _ => true) .interrupted
  saveConfig ""

/-- Spawn the process of a command: it is stored as running first, and its lease must
still be held. -/
def start (command : DeviceCommand) : Run Unit := do
  let unavailable ← Task.gets Broker.unavailable
  if unavailable then .throw "Local command connection is unavailable"
  else
    let lease ← Task.gets fun broker => broker.pendingLeases.get? command.id
    let now ← Task.gets Broker.now
    match lease with
    | none => .throw "Local command request expired"
    | some lease =>
      if lease ≤ now then .throw "Local command request expired"
      else
        let started := { command with state := .running }
        saveCommand started
        let unavailable ← Task.gets Broker.unavailable
        if unavailable then .throw "Local command connection is unavailable"
        else
          Task.modify fun broker =>
            { broker with pendingLeases := broker.pendingLeases.delete command.id }
          Task.modify fun broker => broker.spawnSupervisedCommand started lease

/-- The command of a process that has ended; an error interrupts it and ends its output. -/
def Entry.ended (entry : Entry) (exitCode : Option Int) (error : Option String) :
    DeviceCommand :=
  { entry.command with
    state := if error.isSome then .interrupted else .completed
    exitCode
    stderr := match error with
      | some message => entry.command.stderr ++ "\n" ++ message
      | none => entry.command.stderr }

def finish (exitCode : Option Int) (error : Option String) : Run Unit := do
  let entry ← Task.gets fun broker => broker.running.get? id
  match entry with
  | none => pure ()
  | some entry =>
    Task.modify fun broker => broker.kill id
    saveCommand (entry.ended exitCode error)

structure DeviceCommandInput where
  id : String
  command : String
  cwd : String

inductive DeviceBridgeAction
  | status
  | execute (input : DeviceCommandInput)
  | poll (id : String)
  | lease (id : String)
  | cancel (id : String)
  | decide (id : String) (decision : DeviceCommandDecision)
  | revoke (id : String)

def isCommandIdChar (char : Char) : Bool :=
  char.isAlphanum || char = '_' || char = '-'

def validCommandId : Bool :=
  1 ≤ id.length && id.length ≤ 128 && id.toList.all isCommandIdChar

def isRuntime : Bool :=
  principal.any fun principal => principal.actor = .runtime

variable (input : DeviceCommandInput)

/-- Whether the command and its working directory are complete; a local path begins at the
root. -/
def validInput : Bool :=
  !(trim input.command).isEmpty && utf16Length input.command ≤ 32768 &&
    !input.command.toList.contains '\x00' && input.cwd.startsWith "/" &&
    utf16Length input.cwd ≤ 4096 && !input.cwd.toList.contains '\x00'

def requestedCommand (principal : DevicePrincipal)
    (identity : DeviceIdentity) (now : Nat) : DeviceCommand where
  id := input.id
  accountId := principal.accountId
  workspaceId := principal.workspaceId
  chatId := principal.chatId
  chatTitle := principal.chatTitle.getD principal.chatId
  grantEpoch := principal.grantEpoch
  sessionId := principal.sessionId
  deviceId := identity.deviceId
  deviceName := identity.deviceName
  command := input.command
  cwd := input.cwd
  state := .pending
  stdout := ""
  stderr := ""
  exitCode := none
  truncated := false
  createdAt := now

def request (principal : DevicePrincipal) (identity : DeviceIdentity) : Run DeviceCommand := do
  let held ← Task.gets fun broker => broker.running.size + broker.pendingLeases.size
  if maxActive ≤ held then
    .throw "Computer is busy; four commands are already active"
  else
    let now ← Task.gets Broker.now
    let requested := requestedCommand input principal identity now
    let reserved ← reserveCommand requested
    if reserved then
      Task.modify fun broker => broker.hold input.id
      let allowed ← allows requested
      if allowed then start requested else pure ()
      Task.gets fun broker => broker.latest requested
    else .throw "Command ID already exists; read its status instead of retrying execution"

def execute (principal : Option DevicePrincipal)
    (identity : DeviceIdentity) (stored : Option DeviceCommand) : Run DeviceCommand :=
  match principal, stored with
  | some principal, some command =>
    if principal.actor ≠ .runtime then
      .throw "Only cloud runtimes may request execution"
    else if command.command ≠ input.command ∨ command.cwd ≠ input.cwd then
      .throw "Command ID was already used"
    else Task.gets fun broker => broker.latest command
  | some principal, none =>
    if principal.actor ≠ .runtime then
      .throw "Only cloud runtimes may request execution"
    else if validInput input then request input principal identity
    else .throw "A command and absolute local working directory are required"
  | none, _ => .throw "Only cloud runtimes may request execution"

/-- Whether an active command may not go on: its lease is gone or has passed, or the
caller's epoch is not the one it was requested in. -/
def lapsed (broker : Broker) (enabled : Bool) (principal : Option DevicePrincipal)
    (command : DeviceCommand) : Bool :=
  active command &&
    (!enabled || (broker.lease command.id).all (· < broker.now) ||
      principal.any fun principal => principal.grantEpoch ≠ command.grantEpoch)

/-- Read a command, or extend its lease; its output is left out of the answer to the
latter. -/
def poll (withOutput enabled : Bool) (principal : Option DevicePrincipal)
    (command : DeviceCommand) : Run DeviceCommand := do
  let lapsed ← Task.gets fun broker => lapsed broker enabled principal command
  if lapsed then stop command .interrupted
  else
    Task.modify fun broker => if isRuntime principal then broker.renew command else broker
    let result ← Task.gets fun broker => broker.latest command
    return if withOutput then result else { result with stdout := "", stderr := "" }

def cancel (command : DeviceCommand) : Run DeviceCommand :=
  if active command then stop command .cancelled else pure command

/-- Start the other pending commands that the new grant allows as well. -/
def startAllowed : Run Unit := do
  let listed ← commands
  Task.forEach listed fun other => do
    let waits ← Task.gets fun broker =>
      decide (other.id ≠ id ∧ other.state = .pending ∧
        broker.now ≤ (broker.pendingLeases.get? other.id).getD 0)
    if waits then
      let allowed ← allows other
      if allowed then start other else pure ()
    else pure ()

def decideCommand (decision : DeviceCommandDecision) (principal : Option DevicePrincipal)
    (command : DeviceCommand) : Run DeviceCommand := do
  if isRuntime principal then .throw "User approval required"
  else if command.state ≠ .pending then .throw "This request has already been resolved"
  else
    let passed ← Task.gets fun broker =>
      decide ((broker.pendingLeases.get? command.id).getD 0 < broker.now)
    if passed then stop command .interrupted
    else if decision = .Deny then stop command .denied
    else
      remember command decision
      start command
      if decision ≠ .AllowOnce then startAllowed command.id else pure ()
      Task.gets fun broker => broker.latest command

def revoke : Run DeviceBridgeStatus := do
  if isRuntime principal then .throw "User approval required"
  else
    let grant ← revokeGrant id (principal.map DevicePrincipal.accountId)
    stopActive (deviceGrantMatches grant) .cancelled
    statusUnlocked principal

inductive DeviceBridgeResult
  | status (status : DeviceBridgeStatus)
  | command (command : DeviceCommand)
  | none

def hidden (stored : Option DeviceCommand) : Bool :=
  stored.any fun command => principal.any fun principal =>
    command.accountId ≠ principal.accountId ||
      command.workspaceId ≠ principal.workspaceId || command.chatId ≠ principal.chatId

def readCommand : Run (Option DeviceCommand) := do
  if validCommandId id then
    let stored ← command id
    if hidden principal stored then .throw "Command not found" else return stored
  else .throw "Invalid command ID"

def withCommand (next : DeviceCommand → Run DeviceCommand) : Run DeviceBridgeResult := do
  let stored ← readCommand id principal
  match stored with
  | some command =>
    let result ← next command
    return .command result
  | none => .throw "Command not found"

def accountMismatch (identity : DeviceIdentity) (principal : Option DevicePrincipal) : Bool :=
  principal.any fun principal => identity.accountId.any (· ≠ some principal.accountId)

def notLinked : String :=
  "This computer must be linked and signed in to run cloud commands."

def handle (action : DeviceBridgeAction) (principal : Option DevicePrincipal) :
    Run DeviceBridgeResult := do
  let closed ← Task.gets Broker.closed
  if closed then .throw "Device bridge stopped"
  else
    let identity ← synchronize
    if accountMismatch identity principal then .throw "Account mismatch"
    else
      let enabled ← Task.gets fun broker =>
        !broker.disabled && !broker.closed && identity.connected
      match action with
      | .status => DeviceBridgeResult.status <$> statusUnlocked principal
      | .execute input =>
        if enabled then
          let stored ← readCommand input.id principal
          DeviceBridgeResult.command <$> execute input principal identity stored
        else .throw notLinked
      | .poll id => withCommand id principal (poll true enabled principal)
      | .lease id => withCommand id principal (poll false enabled principal)
      | .cancel id => withCommand id principal cancel
      | .decide id decision =>
        if enabled then withCommand id principal (decideCommand decision principal)
        else .throw notLinked
      | .revoke id => DeviceBridgeResult.status <$> revoke id principal

inductive Operation
  | initializeBroker
  | handle (action : DeviceBridgeAction) (principal : Option DevicePrincipal)
  | status
  | invalidate
  | sweep
  | finish (id : String) (exitCode : Option Int) (error : Option String)

def Operation.program : Operation → Run DeviceBridgeResult
  | .initializeBroker => do
      Device.initializeBroker
      return .none
  | .handle action principal => Device.handle action principal
  | .status => DeviceBridgeResult.status <$> statusUnlocked none
  | .invalidate => do
      Device.invalidate
      return .none
  | .sweep => do
      Device.sweep
      return .none
  | .finish id exitCode error => do
      Device.finish id exitCode error
      return .none

def Store.activeIds (store : Store) (which : DeviceCommand → Bool) : List String :=
  (store.commands.rows.values.filter fun command => active command && which command).map
    DeviceCommand.id

def Operation.arrive : Operation → Broker → Broker
  | .invalidate, broker => broker.killAll.bar (broker.store.activeIds fun _ => true)
  | _, broker => broker

def Operation.recover : Operation → Broker → Broker
  | .sweep, broker => broker.killAll
  | .finish id _ _, broker => broker.kill id
  | _, broker => broker

/-- The commands whose authority an operation takes away, of those that were active when
it began. -/
def Operation.revoked : Operation → Store → List String
  | .invalidate, store => store.activeIds fun _ => true
  | .handle (.cancel id) _, store => store.activeIds fun command => command.id = id
  | .handle (.decide id .Deny) _, store => store.activeIds fun command => command.id = id
  | .handle (.revoke id) principal, store =>
    match grantOf store.grants.values id (principal.map DevicePrincipal.accountId) with
    | some grant => store.activeIds (deviceGrantMatches grant)
    | none => []
  | _, _ => []

inductive Interruption
  | close
  | tick (now : Nat)
  | output (id : String) (onStderr : Bool) (text : String) (bytes : Nat)

def Entry.receive (entry : Entry) (onStderr : Bool) (text : String) (bytes : Nat) : Entry :=
  let remaining := outputLimit - entry.bytes
  { entry with
    bytes := entry.bytes + min bytes remaining
    command := { entry.command with
      stdout := if onStderr then entry.command.stdout else entry.command.stdout ++ text
      stderr := if onStderr then entry.command.stderr ++ text else entry.command.stderr
      truncated := entry.command.truncated || remaining < bytes } }

def interrupt : Interruption → Broker → Option Broker
  | .close, broker => some { broker.killAll with closed := true }
  | .tick now, broker => some { broker with now }
  | .output id onStderr text bytes, broker =>
    (broker.running.get? id).map fun entry =>
      { broker with
        running := broker.running.set id (entry.receive onStderr text bytes) }

def server : SerialServer Broker Answer DeviceBridgeResult Operation Interruption where
  limit := 64
  first := .initializeBroker
  accepts := fun operation => match operation with
    | .initializeBroker => false
    | _ => true
  program := Operation.program
  arrive := Operation.arrive
  refuse := Operation.recover
  recover := Operation.recover
  interrupt := interrupt

def system (store : Store) (now : Nat) := server.system (Broker.opened store now)

end Zuse.Device
