import Mathlib.Data.List.Sort
import Zuse.Data.Text
import Zuse.Cloud.CloudCommands

namespace Zuse.Cloud

open Zuse.Domain (Millis Number)
open Zuse.Data

/-! The tables of one workspace mailbox and the transactions on them. A transaction
reads the clock when it starts (`now`), and some read it again (`later`). -/

def reservationTtlMs : Int := 60000

def resultRetentionMs : Int := 30 * 24 * 60 * 60000

def changeHistoryLimit : Nat := 10000

def leaseLimit : Nat := 16

def wakeRetryMs : Int := 5000

structure MailboxWakeDelivery where
  workspaceId : String
  accountId : String

def destructiveLeaseCategories : List String :=
  ["workspace-destruction-fence-advanced-after-lease", "workspace-archived-after-lease",
    "workspace-deleted-after-lease"]

class MailboxHost where
  envelopeBytes : CloudCommandEnvelope → Nat
  /-- Whether a `dispatchWake` was given to the mailbox. -/
  dispatchesWake : Bool

/-- A row of `mailbox_commands`. The envelope is `none` where its text is empty. -/
structure MailboxCommand where
  commandId : CommandId
  workspaceSequence : Nat
  lane : String
  kind : String
  fingerprint : String
  schemaVersion : Number
  envelope : Option CloudCommandEnvelope
  envelopeBytes : Nat
  state : CloudCommandState
  everLeased : Bool
  leaseToken : Option LeaseToken
  leaseDeadline : Option Millis
  runtimeGeneration : Option Number
  providerSandboxId : Option String
  storageIncarnationId : Option String
  category : Option String
  blockedUntil : Option String
  resultIv : Option String
  resultCiphertext : Option String
  createdAt : Millis
  acceptedAt : Option Millis
  updatedAt : Millis
  terminalAt : Option Millis

structure MailboxChange where
  revision : Nat
  commandId : CommandId

/-- The tables of a mailbox. The fields after `changes` are the entries of
`mailbox_meta`; a counter that was never set counts from zero. -/
structure Mailbox where
  commands : List MailboxCommand
  changes : List MailboxChange
  sequence : Nat
  revision : Nat
  wakeSequence : Nat
  destructionFence : Option Number
  runtimeGeneration : Option Number
  storageIncarnation : Option String
  lifecycleFence : Option Number
  wakeRevision : Option Nat
  wakeDeliveredRevision : Option Nat
  wakeNextAt : Option Millis
  wakeWorkspaceId : Option String
  wakeAccountId : Option String
  commandRevisions : CommandId → Option Nat
  commandIdentities : CommandId → Option CommandIdentity

def Mailbox.empty : Mailbox where
  commands := []
  changes := []
  sequence := 0
  revision := 0
  wakeSequence := 0
  destructionFence := none
  runtimeGeneration := none
  storageIncarnation := none
  lifecycleFence := none
  wakeRevision := none
  wakeDeliveredRevision := none
  wakeNextAt := none
  wakeWorkspaceId := none
  wakeAccountId := none
  commandRevisions := fun _ => none
  commandIdentities := fun _ => none

inductive ResponseBody where
  | code (code : String)
  | refused (code : String) (status : CommandStatus)
  | reservedAgain (status : Option CommandStatus)
  | reserved (workspaceSequence : Nat)
  | acceptance (commandId : CommandId) (workspaceSequence revision : Nat)
      (acceptedAt : Millis) (state : CloudCommandState)
  | blocked (count : Nat)
  | unblocked (count : Nat)
  | status (status : Option CommandStatus)
  | staleRuntimeLease (status : Option CommandStatus)
  | leases (leases : List RuntimeLease) (fenced : Bool) (nonterminalCount : Nat)
      (mailboxRevision : Nat) (fenceRequired : Bool)
  | lifecycle (duplicate stale : Bool)
  deriving DecidableEq

structure Response where
  body : ResponseBody
  status : Nat := 200

def Response.ok (response : Response) : Bool :=
  200 ≤ response.status ∧ response.status < 300

structure TerminalCategories where
  neverLeased : String
  everLeased : String

structure LeaseInput where
  runtimeGeneration : Number
  providerSandboxId : String
  storageIncarnationId : String
  destructionFence : Number

inductive LifecycleAction where
  | archive
  | delete

def LifecycleAction.text : LifecycleAction → String
  | .archive => "archive"
  | .delete => "delete"

namespace MailboxCommand

variable (row : MailboxCommand)

def isDestructive : Bool :=
  row.category.any fun category => category ∈ destructiveLeaseCategories

variable (now : Millis)

/-- `lease_deadline <= ?`, which holds of no row without a deadline. -/
def leaseExpired : Bool :=
  row.state = .leased ∧ row.leaseDeadline.any fun deadline => deadline ≤ now

def envelopeFence : Option Number :=
  (row.envelope.map (·.destructionFence)).filter fun fence =>
    isSafeInteger fence && Decidable.decide (0 ≤ fence)

def belowFence (destructionFence : Number) : Bool :=
  row.envelopeFence.all fun fence => fence < destructionFence

def canStillReceiveOriginalReceipt : Bool :=
  row.everLeased && row.state = .leased && (row.leaseToken.any fun token => token ≠ "") &&
    (row.leaseDeadline.any fun deadline => now < deadline) &&
    row.runtimeGeneration.isSome && row.storageIncarnationId.isSome

def accept (blockedUntil : Option String) : MailboxCommand :=
  { row with
    state := if blockedUntil.isNone then .accepted else .blocked
    acceptedAt := some now
    updatedAt := now
    blockedUntil := blockedUntil }

def block (blockedUntil : String) : MailboxCommand :=
  { row with
    state := .blocked
    blockedUntil := some blockedUntil
    updatedAt := now }

def unblock : MailboxCommand :=
  { row with
    state := .waitingForRuntime
    blockedUntil := none
    updatedAt := now }

def isCancellable : Bool :=
  !row.everLeased && (row.state = .reserved || row.state.isPending)

def cancel (category : String) : MailboxCommand :=
  { row with
    state := .cancelled
    category := some category
    updatedAt := now
    terminalAt := some now }

def terminate (state : CloudCommandState) (category : Option String) :
    MailboxCommand :=
  { row with
    state
    category
    updatedAt := now
    terminalAt := some now
    leaseToken := none
    leaseDeadline := none }

def reservationExpired : Bool :=
  row.state = .reserved && row.updatedAt ≤ now - reservationTtlMs

def awaitFence : MailboxCommand :=
  { row with
    state := .leaseExpiredAwaitingFence
    category := some "runtime-fence-required"
    updatedAt := now }

def keepLease (category : String) : MailboxCommand :=
  { row with
    category := some category
    updatedAt := now }

/-- A newer generation of the runtime that holds the expired lease is running. -/
def isFencedBy (input : LeaseInput) : Bool :=
  row.state = .leaseExpiredAwaitingFence &&
    row.storageIncarnationId = some input.storageIncarnationId &&
    row.runtimeGeneration.any fun generation => generation < input.runtimeGeneration

def fence : MailboxCommand :=
  { row with
    state := .waitingForRuntime
    category := some "runtime-generation-fenced"
    leaseToken := none
    leaseDeadline := none
    updatedAt := now }

def lease (input : LeaseInput) (token : LeaseToken) : MailboxCommand :=
  { row with
    state := .leased
    everLeased := true
    leaseToken := some token
    leaseDeadline := some (now + leaseTtlMs)
    runtimeGeneration := some input.runtimeGeneration
    providerSandboxId := some input.providerSandboxId
    storageIncarnationId := some input.storageIncarnationId
    updatedAt := now }

def runtimeLease (input : LeaseInput) (token : LeaseToken) : RuntimeLease where
  command := row.envelope
  workspaceSequence := row.workspaceSequence
  leaseToken := token
  leaseDeadline := now + leaseTtlMs
  runtimeGeneration := input.runtimeGeneration
  providerSandboxId := input.providerSandboxId
  storageIncarnationId := input.storageIncarnationId

def accepts (ack : RuntimeAcknowledgment) : Bool :=
  row.state.isHeld && row.leaseToken = some ack.leaseToken

def acknowledge (ack : RuntimeAcknowledgment) : MailboxCommand :=
  { row.terminate now ack.state.commandState ack.category with
    resultIv := ack.resultIv
    resultCiphertext := ack.resultCiphertext }

def endedBefore (instant : Millis) : Bool :=
  row.terminalAt.any fun terminalAt => terminalAt ≤ instant

def purge : MailboxCommand :=
  { row with
    resultIv := none
    resultCiphertext := none
    envelope := none
    envelopeBytes := 0
    category := some (row.category.getD "result-expired") }

def deadlines : List Millis :=
  (if row.state = .reserved then [row.updatedAt + reservationTtlMs] else []) ++
    (if row.state = .leased then row.leaseDeadline.toList else []) ++
    if row.envelope.isSome ∨ row.resultIv.isSome ∨ row.resultCiphertext.isSome then
      (row.terminalAt.map (· + resultRetentionMs)).toList
    else []

end MailboxCommand

namespace Mailbox

variable (mailbox : Mailbox)

def command (commandId : CommandId) : Option MailboxCommand :=
  mailbox.commands.find? (·.commandId = commandId)

/-- `UPDATE mailbox_commands SET … WHERE …`. -/
def update (condition : MailboxCommand → Bool) (set : MailboxCommand → MailboxCommand) :
    Mailbox :=
  { mailbox with
    commands := mailbox.commands.map fun row => if condition row then set row else row }

def changed (commandId : CommandId) : Mailbox :=
  let revision := mailbox.revision + 1
  { mailbox with
    revision
    changes := (mailbox.changes ++ [MailboxChange.mk revision commandId]).filter
      fun change => revision < change.revision + changeHistoryLimit
    commandRevisions := fun other =>
      if other = commandId then some revision else mailbox.commandRevisions other }

def changedAll (commandIds : List CommandId) : Mailbox :=
  commandIds.foldl changed mailbox

/-- `ORDER BY workspace_sequence`. -/
def bySequence (rows : List MailboxCommand) : List MailboxCommand :=
  rows.insertionSort (fun left right => left.workspaceSequence ≤ right.workspaceSequence)

def nonterminal : List MailboxCommand :=
  mailbox.commands.filter fun row => !row.state.isTerminal

def nonterminalCount : Nat := mailbox.nonterminal.length

def nonterminalBytes : Nat :=
  mailbox.nonterminal.foldl (fun bytes row => bytes + row.envelopeBytes) 0

def commandRevision (commandId : CommandId) : Nat :=
  (mailbox.commandRevisions commandId).getD
    (((mailbox.changes.filter (·.commandId = commandId)).map (·.revision)).foldl max 0)

def statusOf (row : MailboxCommand) : CommandStatus where
  commandId := row.commandId
  workspaceSequence := row.workspaceSequence
  revision := mailbox.commandRevision row.commandId
  fingerprint := row.fingerprint
  state := row.state
  everLeased := row.everLeased
  updatedAt := row.updatedAt
  acceptedAt := row.acceptedAt
  category := row.category
  blockedUntil := row.blockedUntil
  resultIv := row.resultIv
  resultCiphertext := row.resultCiphertext

def status (commandId : CommandId) : Option CommandStatus :=
  (mailbox.command commandId).map mailbox.statusOf

variable (now : Millis)

/-- A row of `terminalizeUnsafe`, as it was read before the loop. -/
def terminalizeCommand (categories : TerminalCategories) (row : MailboxCommand) : Mailbox :=
  if row.canStillReceiveOriginalReceipt now then
    (mailbox.update (fun stored => stored.commandId = row.commandId ∧ stored.state = .leased)
      (·.keepLease now categories.everLeased)).changed row.commandId
  else
    (mailbox.update (fun stored => stored.commandId = row.commandId ∧ !stored.state.isTerminal)
      fun stored => stored.terminate now (if row.everLeased then .outcomeUnknown else .cancelled)
        (some (if row.everLeased then categories.everLeased else categories.neverLeased))
      ).changed row.commandId

def terminalize (categories : TerminalCategories) (rows : List MailboxCommand) : Mailbox :=
  rows.foldl (fun mailbox row => mailbox.terminalizeCommand now categories row) mailbox

def terminalizeBelowFence (destructionFence : Number) (categories : TerminalCategories) : Mailbox :=
  mailbox.terminalize now categories (mailbox.nonterminal.filter (·.belowFence destructionFence))

def fenceAdvanced : TerminalCategories where
  neverLeased := "workspace-destruction-fence-advanced"
  everLeased := "workspace-destruction-fence-advanced-after-lease"

def observeDestructionFence (destructionFence : Number) : Mailbox :=
  if mailbox.destructionFence.any fun current => destructionFence ≤ current then mailbox
  else
    { mailbox with destructionFence := some destructionFence }.terminalizeBelowFence now
      destructionFence fenceAdvanced

def expireLeases : Mailbox :=
  let expired := mailbox.commands.filter (·.leaseExpired now)
  let ended := mailbox.update (fun row => row.leaseExpired now && row.isDestructive)
    fun row => row.terminate now .outcomeUnknown row.category
  let waiting := ended.update (fun row => row.leaseExpired now && !row.isDestructive)
    (·.awaitFence now)
  waiting.changedAll (expired.map (·.commandId))

section Acceptance

variable [host : MailboxHost]

def atCapacity (bytes : Nat) : Bool :=
  maxNonterminal ≤ mailbox.nonterminalCount ∨ maxMailboxBytes < mailbox.nonterminalBytes + bytes

def reservedCommand (now : Millis) (lane : String) (sequence : Nat)
    (envelope : CloudCommandEnvelope) : MailboxCommand where
  commandId := envelope.commandId
  workspaceSequence := sequence
  lane
  kind := envelope.kind
  fingerprint := envelope.fingerprint
  schemaVersion := envelope.schemaVersion
  envelope := some envelope
  envelopeBytes := host.envelopeBytes envelope
  state := .reserved
  everLeased := false
  leaseToken := none
  leaseDeadline := none
  runtimeGeneration := none
  providerSandboxId := none
  storageIncarnationId := none
  category := none
  blockedUntil := none
  resultIv := none
  resultCiphertext := none
  createdAt := now
  acceptedAt := none
  updatedAt := now
  terminalAt := none

def setCommandIdentity (commandId : CommandId) (identity : CommandIdentity) : Mailbox :=
  { mailbox with
    commandIdentities := fun other =>
      if other = commandId then some identity else mailbox.commandIdentities other }

def insertReserved (now : Millis) (lane : String) (envelope : CloudCommandEnvelope) : Mailbox :=
  let sequence := mailbox.sequence + 1
  let inserted := { mailbox with
    sequence
    commands := mailbox.commands ++ [reservedCommand now lane sequence envelope] }
  (inserted.setCommandIdentity envelope.commandId (commandIdentity envelope)).changed
    envelope.commandId

def comparableIdentity (existing : MailboxCommand) (commandId : CommandId) :
    Option CommandIdentity :=
  match mailbox.commandIdentities commandId with
  | some identity => some identity
  | none => existing.envelope.map commandIdentity

/-- The part of `reserveUnsafe` after the destruction fence is observed. -/
def reserveObserved (now : Millis) (lane : String) (envelope : CloudCommandEnvelope) :
    Response × Mailbox :=
  match mailbox.command envelope.commandId with
  | some existing =>
    if mailbox.comparableIdentity existing envelope.commandId ≠ some (commandIdentity envelope) then
      ({ body := .code "command-identity-collision", status := 409 }, mailbox)
    else
      let known :=
        if (mailbox.commandIdentities envelope.commandId).isNone then
          mailbox.setCommandIdentity envelope.commandId (commandIdentity envelope)
        else mailbox
      ({ body := .reservedAgain (known.status envelope.commandId) }, known)
  | none =>
    if mailbox.atCapacity (host.envelopeBytes envelope) then
      ({ body := .code "mailbox-capacity", status := 429 }, mailbox)
    else
      ({ body := .reserved (mailbox.sequence + 1) }, mailbox.insertReserved now lane envelope)

def reserve (now later : Millis) (envelope : CloudCommandEnvelope) : Response × Mailbox :=
  match cloudCommandLane envelope with
  | none => ({ body := .code "cloud-command-not-eligible", status := 400 }, mailbox)
  | some lane =>
    if maxEnvelopeBytes < host.envelopeBytes envelope then
      ({ body := .code "command-envelope-too-large", status := 413 }, mailbox)
    else if !isSafeInteger envelope.destructionFence ∨ envelope.destructionFence < 0 then
      ({ body := .code "command-destruction-fence-invalid", status := 400 }, mailbox)
    else if mailbox.destructionFence.any fun current =>
        envelope.destructionFence < current then
      ({ body := .code "command-destruction-fence-stale", status := 409 }, mailbox)
    else
      (mailbox.observeDestructionFence now envelope.destructionFence).reserveObserved
        later lane envelope

/-- The delivery names another workspace or account than the command is bound to. -/
def bindingMismatch (before : MailboxCommand) (delivery : MailboxWakeDelivery) : Bool :=
  (match before.envelope with
    | some envelope => envelope.workspaceId ≠ delivery.workspaceId
    | none => mailbox.wakeWorkspaceId ≠ some delivery.workspaceId) ||
    mailbox.wakeAccountId.any fun expected => expected ≠ delivery.accountId

def commitReserved (now : Millis) (before : MailboxCommand) (blockedUntil : Option String) :
    Mailbox :=
  let updated := mailbox.update
    (fun row => row.commandId = before.commandId ∧ row.state = .reserved)
    (·.accept now blockedUntil)
  if before.state = .reserved then updated.changed before.commandId else updated

/-- `next("wake-sequence")` into `wake-revision`. -/
def nextWakeRevision (nextAt : Millis) : Mailbox :=
  { mailbox with
    wakeSequence := mailbox.wakeSequence + 1
    wakeRevision := some (mailbox.wakeSequence + 1)
    wakeNextAt := some nextAt }

def armWake (now : Millis) (before : MailboxCommand)
    (delivery : Option MailboxWakeDelivery) : Mailbox :=
  match delivery with
  | none => mailbox
  | some delivery =>
    if before.state = .reserved ∨ (mailbox.wakeRevision.isNone ∧ before.state.isPending) then
      { mailbox with
        wakeWorkspaceId := some delivery.workspaceId
        wakeAccountId := some delivery.accountId }.nextWakeRevision (now + 1)
    else mailbox

def acceptanceState (state : CloudCommandState) : CloudCommandState :=
  if state = .waitingForRuntime ∨ state = .blocked then state else .accepted

def acceptanceOf (before : MailboxCommand) (current : CommandStatus) : Response :=
  match current.acceptedAt.or before.acceptedAt with
  | none => { body := .refused "command-not-accepted" current, status := 409 }
  | some acceptedAt =>
    { body := .acceptance before.commandId current.workspaceSequence current.revision
        acceptedAt (acceptanceState current.state)
      status := 202 }

def notFound : Response := { body := .code "command-not-found", status := 404 }

def commit (now : Millis) (commandId : CommandId) (blockedUntil : Option String)
    (delivery : Option MailboxWakeDelivery) : Response × Mailbox :=
  match mailbox.command commandId with
  | none => (notFound, mailbox)
  | some before =>
    if before.state = .reserved ∧ host.dispatchesWake ∧ delivery.isNone then
      ({ body := .code "wake-delivery-required", status := 400 }, mailbox)
    else if delivery.any (mailbox.bindingMismatch before) then
      ({ body := .code "wake-delivery-binding-mismatch", status := 409 }, mailbox)
    else
      let armed :=
        (mailbox.commitReserved now before blockedUntil).armWake now before delivery
      match armed.status commandId with
      -- No statement deletes a row, so this branch is not reached.
      | none => (notFound, armed)
      | some current => (acceptanceOf before current, armed)

end Acceptance

def blockCandidate (blockedUntil : String) (blocked : Nat × Mailbox)
    (candidate : MailboxCommand) : Nat × Mailbox :=
  if candidate.state = .blocked ∧ candidate.blockedUntil = some blockedUntil then blocked
  else
    (blocked.1 + 1,
      (blocked.2.update
        (fun row => row.commandId = candidate.commandId ∧ !row.everLeased ∧ row.state.isPending)
        (·.block now blockedUntil)).changed candidate.commandId)

def blockAll (blockedUntil : String) : Response × Mailbox :=
  let candidates := bySequence
    (mailbox.commands.filter fun row => !row.everLeased && row.state.isPending)
  let blocked := candidates.foldl (blockCandidate now blockedUntil) (0, mailbox)
  ({ body := .blocked blocked.1, status := 202 }, blocked.2)

def blockCommand (commandId : CommandId) (blockedUntil : String) : Response × Mailbox :=
  match mailbox.status commandId with
  | none => (notFound, mailbox)
  | some before =>
    if before.state.isTerminal then ({ body := .status before }, mailbox)
    else if before.state = .reserved then
      ({ body := .refused "command-not-accepted" before, status := 409 }, mailbox)
    else if before.state = .leased ∨ before.everLeased then
      ({ body := .refused "command-already-leased" before, status := 409 }, mailbox)
    else
      let updated := mailbox.update (fun row => row.commandId = commandId ∧ row.state.isPending)
        (·.block now blockedUntil)
      let blocked :=
        if before.state ≠ .blocked ∨ before.blockedUntil ≠ some blockedUntil then
          updated.changed commandId
        else updated
      ({ body := .status (blocked.status commandId), status := 202 }, blocked)

def block (commandId : Option CommandId) (blockedUntil : String) : Response × Mailbox :=
  match commandId with
  | none => mailbox.blockAll now blockedUntil
  | some commandId => mailbox.blockCommand now commandId blockedUntil

def rearmWake (later : Millis) : Mailbox :=
  if mailbox.wakeRevision.isNone then mailbox
  else mailbox.nextWakeRevision (later + 1)

def unblockOne (commandId : CommandId) : Mailbox :=
  (mailbox.update (fun row => row.commandId = commandId ∧ row.state = .blocked)
    (·.unblock now)).changed commandId

def unblockAll (now later : Millis) (blockedUntil : Option String) : Response × Mailbox :=
  let blocked := bySequence (mailbox.commands.filter fun row =>
    row.state = .blocked && blockedUntil.all fun reason => row.blockedUntil = some reason)
  let unblocked := (blocked.map (·.commandId)).foldl (fun mailbox commandId =>
    mailbox.unblockOne now commandId) mailbox
  ({ body := .unblocked blocked.length },
    if 0 < blocked.length then unblocked.rearmWake later else unblocked)

def unblockCommand (now later : Millis) (commandId : CommandId)
    (blockedUntil : Option String) : Response × Mailbox :=
  match mailbox.status commandId with
  | none => (notFound, mailbox)
  | some before =>
    if before.state ≠ .blocked then ({ body := .status before }, mailbox)
    else if blockedUntil.any fun reason => before.blockedUntil ≠ some reason then
      ({ body := .refused "command-block-reason-mismatch" before, status := 409 }, mailbox)
    else
      let unblocked := (mailbox.unblockOne now commandId).rearmWake later
      ({ body := .status (unblocked.status commandId) }, unblocked)

def unblock (now later : Millis) (commandId : Option CommandId)
    (blockedUntil : Option String) : Response × Mailbox :=
  match commandId with
  | none => mailbox.unblockAll now later blockedUntil
  | some commandId => mailbox.unblockCommand now later commandId blockedUntil

def cancel (commandId : CommandId) (category : String) : Response × Mailbox :=
  match mailbox.status commandId with
  | none => (notFound, mailbox)
  | some before =>
    let updated := mailbox.update
      (fun row => row.commandId = commandId ∧ row.isCancellable) (·.cancel now category)
    match updated.status commandId with
    -- No statement deletes a row, so this branch is not reached.
    | none => (notFound, updated)
    | some status =>
      let cancelled :=
        if before.state ≠ .cancelled ∧ status.state = .cancelled then
          updated.changed commandId
        else updated
      if status.state.isTerminal then
        ({ body := .status (cancelled.status commandId) }, cancelled)
      else
        ({ body := .refused "command-already-leased" status, status := 409 }, cancelled)

def observeGeneration (runtimeGeneration : Number) : Mailbox :=
  if mailbox.runtimeGeneration.all fun known => known < runtimeGeneration then
    { mailbox with runtimeGeneration := some runtimeGeneration }
  else mailbox

/-- What was leased on a replaced storage may or may not have happened. -/
def replaceStorageIncarnation (storageIncarnationId : String) : Mailbox :=
  let replaced :=
    if mailbox.storageIncarnation.any fun previous => previous ≠ storageIncarnationId then
      let affected := mailbox.nonterminal.filter (·.everLeased)
      (mailbox.update (fun row => row.everLeased && !row.state.isTerminal)
        (·.terminate now .outcomeUnknown (some "runtime-storage-replaced"))).changedAll
          (affected.map (·.commandId))
    else mailbox
  { replaced with storageIncarnation := some storageIncarnationId }

variable (input : LeaseInput)

/-- A newer runtime generation fences the runtime that held an expired lease. -/
def fenceExpiredLeases : Mailbox :=
  let fenced := mailbox.commands.filter (·.isFencedBy input)
  (mailbox.update (·.isFencedBy input) (·.fence now)).changedAll (fenced.map (·.commandId))

def runtimeFenceRequired : Bool :=
  mailbox.commands.any fun row =>
    row.state = .leaseExpiredAwaitingFence &&
      row.runtimeGeneration = some input.runtimeGeneration &&
      row.storageIncarnationId = some input.storageIncarnationId

def isFirstInLane (row : MailboxCommand) : Bool :=
  mailbox.commands.all fun prior =>
    prior.lane ≠ row.lane || row.workspaceSequence ≤ prior.workspaceSequence ||
      prior.state.isTerminal

def leaseCandidates : List MailboxCommand :=
  (bySequence (mailbox.commands.filter fun row =>
    row.state.isLeasable && mailbox.isFirstInLane row)).take leaseLimit

def leaseCandidate (tokens : CommandId → LeaseToken)
    (leased : List RuntimeLease × Mailbox) (commandId : CommandId) :
    List RuntimeLease × Mailbox :=
  let updated := leased.2.update (fun row => row.commandId = commandId ∧ row.state.isLeasable)
    (·.lease now input (tokens commandId))
  match updated.commands.find? fun row =>
      row.commandId = commandId ∧ row.leaseToken = some (tokens commandId) with
  | none => (leased.1, updated)
  | some row =>
    (leased.1 ++ [row.runtimeLease now input (tokens commandId)], updated.changed commandId)

def leaseAll (tokens : CommandId → LeaseToken) : List RuntimeLease × Mailbox :=
  (mailbox.leaseCandidates.map (·.commandId)).foldl (leaseCandidate now input tokens) ([], mailbox)

def leasePage (leases : List RuntimeLease) (fenced fenceRequired : Bool) : Response where
  body := .leases leases fenced mailbox.nonterminalCount mailbox.revision fenceRequired

def invalidLease : Bool :=
  !isSafeInteger input.runtimeGeneration || input.runtimeGeneration < 1 ||
    !isSafeInteger input.destructionFence || input.destructionFence < 0

/-- The part of `leaseUnsafe` after the runtime is known to be current. -/
def leaseCurrent (tokens : CommandId → LeaseToken) : Response × Mailbox :=
  let fenced := (mailbox.replaceStorageIncarnation now input.storageIncarnationId
    ).fenceExpiredLeases now input
  if fenced.runtimeFenceRequired input then (fenced.leasePage [] false true, fenced)
  else
    let leased := fenced.leaseAll now input tokens
    (leased.2.leasePage leased.1 false false, leased.2)

def lease (now later : Millis) (input : LeaseInput) (tokens : CommandId → LeaseToken) :
    Response × Mailbox :=
  if invalidLease input then
    ({ body := .code "runtime-fence-invalid", status := 400 }, mailbox)
  else
    let expired := mailbox.expireLeases now
    if expired.runtimeGeneration.any fun known => input.runtimeGeneration < known then
      (expired.leasePage [] true false, expired)
    else
      let current := expired.observeGeneration input.runtimeGeneration
      if current.destructionFence.any fun known => input.destructionFence < known then
        (current.leasePage [] true false, current)
      else
        (current.observeDestructionFence later input.destructionFence).leaseCurrent now input tokens

/-- The part of `acknowledgeUnsafe` after leases have expired. -/
def acknowledgeExpired (ack : RuntimeAcknowledgment) : Response × Mailbox :=
  if maxEnvelopeBytes <
      (ack.resultIv.map utf16Length).getD 0 + (ack.resultCiphertext.map utf16Length).getD 0 then
    ({ body := .code "command-result-too-large", status := 413 }, mailbox)
  else
    match mailbox.command ack.commandId with
    | none => (notFound, mailbox)
    | some row =>
      if row.fingerprint ≠ ack.fingerprint then
        ({ body := .code "command-fingerprint-mismatch", status := 409 }, mailbox)
      else if row.state.isTerminal then
        ({ body := .status (mailbox.status ack.commandId) }, mailbox)
      else if !row.accepts ack then
        ({ body := .staleRuntimeLease (mailbox.status ack.commandId) }, mailbox)
      else
        let settled := (mailbox.update (fun stored => stored.commandId = ack.commandId)
          (·.acknowledge now ack)).changed ack.commandId
        ({ body := .status (settled.status ack.commandId) }, settled)

def acknowledge (ack : RuntimeAcknowledgment) : Response × Mailbox :=
  (mailbox.expireLeases now).acknowledgeExpired now ack

def lifecycleCategories (action : LifecycleAction) : TerminalCategories where
  neverLeased := "workspace-" ++ action.text ++ "d-before-lease"
  everLeased := "workspace-" ++ action.text ++ "d-after-lease"

def lifecycle (action : LifecycleAction) (destructionFence : Option Number) : Response × Mailbox :=
  match destructionFence with
  | none =>
    ({ body := .lifecycle false false },
      mailbox.terminalize now (lifecycleCategories action) mailbox.nonterminal)
  | some destructionFence =>
    if !isSafeInteger destructionFence ∨ destructionFence < 0 then
      ({ body := .code "workspace-destruction-fence-invalid", status := 400 }, mailbox)
    else if mailbox.lifecycleFence.any fun processed =>
        destructionFence ≤ processed then
      ({ body := .lifecycle true false }, mailbox)
    else if mailbox.destructionFence.any fun known => destructionFence < known then
      ({ body := .lifecycle false true }, mailbox)
    else
      ({ body := .lifecycle false false },
        { mailbox with
          destructionFence := some destructionFence
          lifecycleFence := some destructionFence }.terminalizeBelowFence now
            destructionFence (lifecycleCategories action))

def expireReservations : Mailbox :=
  let expired := mailbox.commands.filter (·.reservationExpired now)
  (mailbox.update (·.reservationExpired now)
    (·.cancel now "reservation-expired")).changedAll (expired.map (·.commandId))

def purge : Mailbox :=
  mailbox.update (·.endedBefore (now - resultRetentionMs)) (·.purge)

def sweep : Mailbox :=
  ((mailbox.expireReservations now).expireLeases now).purge now

def wakeDelivered (revision : Nat) : Mailbox :=
  { mailbox with
    wakeDeliveredRevision := some revision
    revision := mailbox.revision + 1 }

def wakeFailed (revision : Nat) (now : Millis) : Mailbox :=
  if mailbox.wakeRevision = some revision then
    { mailbox with wakeNextAt := some (now + wakeRetryMs) }
  else mailbox

def commandDeadline : Option Millis :=
  (mailbox.commands.flatMap (·.deadlines)).min?

def wakeDeadline : Option Millis :=
  if mailbox.wakeRevision ≠ mailbox.wakeDeliveredRevision then mailbox.wakeNextAt else none

def nextAlarmDeadline : Option Millis :=
  match mailbox.commandDeadline, mailbox.wakeDeadline with
  | none, wake => wake
  | some deadline, none => some deadline
  | some deadline, some wake => some (min deadline wake)

/-- The last change of each command after a revision, oldest first:
`SELECT command_id, MAX(revision) … GROUP BY command_id ORDER BY revision`. -/
def changesAfter (afterRevision : Nat) : List MailboxChange :=
  let recent := mailbox.changes.filter fun change => afterRevision < change.revision
  (recent.filter fun change => recent.all fun other =>
      other.commandId ≠ change.commandId || other.revision ≤ change.revision).insertionSort
    fun left right => left.revision ≤ right.revision

def oldestChange : Nat := ((mailbox.changes.map (·.revision)).min?).getD 0

def watch (afterRevision : Nat) : CommandChangePage :=
  if 0 < mailbox.oldestChange ∧ afterRevision + 1 < mailbox.oldestChange then
    { changes := [], nextRevision := mailbox.revision, resetRequired := true }
  else
    let page := (mailbox.changesAfter afterRevision).take watchMaxChanges
    { changes := page.filterMap fun change => mailbox.status change.commandId
      nextRevision := (page.getLast?.map (·.revision)).getD mailbox.revision
      resetRequired := false }

end Mailbox

/-! One transaction for each request that writes. The tokens of a lease are those drawn
for its candidates. -/

inductive MailboxRequest where
  | reserve (envelope : CloudCommandEnvelope)
  | commit (commandId : CommandId) (blockedUntil : Option String)
      (delivery : Option MailboxWakeDelivery)
  | block (commandId : Option CommandId) (blockedUntil : String)
  | unblock (commandId : Option CommandId) (blockedUntil : Option String)
  | cancel (commandId : CommandId) (category : String)
  | lease (input : LeaseInput) (tokens : CommandId → LeaseToken)
  | acknowledge (ack : RuntimeAcknowledgment)
  | lifecycle (action : LifecycleAction) (destructionFence : Option Number)

def Mailbox.handle [MailboxHost] (mailbox : Mailbox) (now later : Millis) :
    MailboxRequest → Response × Mailbox
  | .reserve envelope => mailbox.reserve now later envelope
  | .commit commandId blockedUntil delivery =>
    mailbox.commit now commandId blockedUntil delivery
  | .block commandId blockedUntil => mailbox.block now commandId blockedUntil
  | .unblock commandId blockedUntil => mailbox.unblock now later commandId blockedUntil
  | .cancel commandId category => mailbox.cancel now commandId category
  | .lease input tokens => mailbox.lease now later input tokens
  | .acknowledge ack => mailbox.acknowledge now ack
  | .lifecycle action destructionFence => mailbox.lifecycle now action destructionFence

/-- A call of `dispatchWake` that is not answered yet: the wake revision read before it,
and how many operations had been handled when it started. -/
structure WakeDispatch where
  revision : Nat
  startedAt : Nat
  deriving DecidableEq

/-- What writes to the mailbox: a request, the alarm's sweep, or the end of a wake. -/
inductive MailboxOperation where
  | request (request : MailboxRequest)
  | alarm
  | wakeSettled (dispatch : WakeDispatch) (succeeded : Bool)

end Zuse.Cloud
