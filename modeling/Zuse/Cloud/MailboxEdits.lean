import Mathlib.Logic.Relation
import Mathlib.Data.List.Nodup
import Zuse.Cloud.WorkspaceMailbox

namespace Zuse.Cloud

open Zuse.Domain (Millis Number)

/-! What an operation may do to one row, and to the tables as a whole. Every transaction
is a sequence of such edits, and the invariants are proved of a single edit. -/

def MailboxCommand.view (row : MailboxCommand) : CloudCommandState × Bool × Option String :=
  (row.state, row.everLeased, row.blockedUntil)

inductive RowEdit (operation : MailboxOperation) (mailbox : Mailbox) :
    MailboxCommand → MailboxCommand → Prop
  | accept {row : MailboxCommand} (now : Millis) (blockedUntil : Option String)
      (reserved : row.state = .reserved) :
      RowEdit operation mailbox row (row.accept now blockedUntil)
  | block {row : MailboxCommand} (now : Millis) (blockedUntil : String)
      (neverLeased : row.everLeased = false) (pending : row.state.isPending = true) :
      RowEdit operation mailbox row (row.block now blockedUntil)
  | unblock {row : MailboxCommand} (now : Millis) (blocked : row.state = .blocked) :
      RowEdit operation mailbox row (row.unblock now)
  | cancel {row : MailboxCommand} (now : Millis) (category : String)
      (cancellable : row.isCancellable = true) :
      RowEdit operation mailbox row (row.cancel now category)
  | expireReservation {row : MailboxCommand} (now : Millis) (alarm : operation = .alarm)
      (expired : row.reservationExpired now = true) :
      RowEdit operation mailbox row (row.cancel now "reservation-expired")
  | keepLease {row : MailboxCommand} (now : Millis) (category : String)
      (leased : row.state = .leased) (destructive : category ∈ destructiveLeaseCategories) :
      RowEdit operation mailbox row (row.keepLease now category)
  | terminateUnleased {row : MailboxCommand} (now : Millis) (category : Option String)
      (ongoing : row.state.isTerminal = false) (neverLeased : row.everLeased = false) :
      RowEdit operation mailbox row (row.terminate now .cancelled category)
  | terminateLeased {row : MailboxCommand} (now : Millis) (category : Option String)
      (ongoing : row.state.isTerminal = false)
      (everLeased : row.everLeased = true ∨ row.state = .leased) :
      RowEdit operation mailbox row (row.terminate now .outcomeUnknown category)
  | awaitFence {row : MailboxCommand} (now : Millis) (leased : row.state = .leased)
      (ordinary : row.isDestructive = false) :
      RowEdit operation mailbox row (row.awaitFence now)
  | fence {row : MailboxCommand} (now : Millis) (input : LeaseInput)
      (fenced : row.isFencedBy input = true)
      (current : mailbox.runtimeGeneration = some input.runtimeGeneration) :
      RowEdit operation mailbox row (row.fence now)
  | lease {row : MailboxCommand} (now : Millis) (input : LeaseInput)
      (tokens : CommandId → LeaseToken) (request : operation = .request (.lease input tokens))
      (leasable : row.state.isLeasable = true) (first : mailbox.isFirstInLane row = true)
      (current : mailbox.runtimeGeneration = some input.runtimeGeneration)
      (incarnation : mailbox.storageIncarnation = some input.storageIncarnationId) :
      RowEdit operation mailbox row (row.lease now input (tokens row.commandId))
  | acknowledge {row : MailboxCommand} (now : Millis) (ack : RuntimeAcknowledgment)
      (request : operation = .request (.acknowledge ack)) (sameId : row.commandId = ack.commandId)
      (fingerprint : row.fingerprint = ack.fingerprint) (accepted : row.accepts ack = true) :
      RowEdit operation mailbox row (row.acknowledge now ack)
  | purge {row : MailboxCommand} (ended : row.terminalAt.isSome = true) :
      RowEdit operation mailbox row row.purge

structure SameCommand (before after : MailboxCommand) : Prop where
  commandId : after.commandId = before.commandId
  workspaceSequence : after.workspaceSequence = before.workspaceSequence
  lane : after.lane = before.lane
  fingerprint : after.fingerprint = before.fingerprint

variable {operation : MailboxOperation} {mailbox : Mailbox}

theorem RowEdit.same
    {before after : MailboxCommand} (edit : RowEdit operation mailbox before after) :
    SameCommand before after := by
  cases edit <;> exact ⟨rfl, rfl, rfl, rfl⟩

namespace Mailbox

/-- The tables agree but for the wake and the lifecycle fence. -/
structure SameCommands (before after : Mailbox) : Prop where
  commands : after.commands = before.commands
  changes : after.changes = before.changes
  sequence : after.sequence = before.sequence
  revision : after.revision = before.revision
  destructionFence : after.destructionFence = before.destructionFence
  runtimeGeneration : after.runtimeGeneration = before.runtimeGeneration
  storageIncarnation : after.storageIncarnation = before.storageIncarnation
  commandRevisions : after.commandRevisions = before.commandRevisions
  commandIdentities : after.commandIdentities = before.commandIdentities

/-- What an edit may do to the wake: nothing, or raise its revision, or take in that a
dispatch succeeded. -/
structure WakeEdit (operation : MailboxOperation) (before after : Mailbox) : Prop where
  revision :
    (after.wakeSequence = before.wakeSequence ∧ after.wakeRevision = before.wakeRevision ∧
      after.wakeWorkspaceId = before.wakeWorkspaceId ∧
      after.wakeAccountId = before.wakeAccountId) ∨
    (after.wakeSequence = before.wakeSequence + 1 ∧
      after.wakeRevision = some (before.wakeSequence + 1))
  delivered : after.wakeDeliveredRevision = before.wakeDeliveredRevision ∨
    ∃ dispatch, operation = .wakeSettled dispatch true ∧
      after.wakeDeliveredRevision = some dispatch.revision

theorem WakeEdit.refl : WakeEdit operation mailbox mailbox where
  revision := .inl ⟨rfl, rfl, rfl, rfl⟩
  delivered := .inl rfl

def rewrite (mailbox : Mailbox) (set : MailboxCommand → MailboxCommand) : Mailbox :=
  { mailbox with commands := mailbox.commands.map set }

/-- The row survives a destruction fence: its own fence is not below it, or the runtime
that holds it may still answer and then the command ends. -/
def Survives (row : MailboxCommand) (destructionFence : Number) : Prop :=
  row.belowFence destructionFence = false ∨ row.state = .leased ∧ row.isDestructive = true

@[simp] theorem rewrite_commands (mailbox : Mailbox) (set : MailboxCommand → MailboxCommand) :
    (mailbox.rewrite set).commands = mailbox.commands.map set := rfl

section Changed

variable (mailbox : Mailbox) (commandId : CommandId) (commandIds : List CommandId)

theorem changedAll_induction (property : Mailbox → Prop)
    (kept : ∀ mailbox commandId, property mailbox → property (mailbox.changed commandId))
    {mailbox : Mailbox} (start : property mailbox) (commandIds : List CommandId) :
    property (mailbox.changedAll commandIds) := by
  induction commandIds generalizing mailbox with
  | nil => exact start
  | cons head rest ih => exact ih (kept mailbox head start)

theorem changedAll_frame {α : Type} (read : Mailbox → α)
    (kept : ∀ mailbox commandId, read (mailbox.changed commandId) = read mailbox) :
    read (mailbox.changedAll commandIds) = read mailbox :=
  changedAll_induction (fun after => read after = read mailbox)
    (fun after commandId same => (kept after commandId).trans same) rfl commandIds

@[simp] theorem changed_commands : (mailbox.changed commandId).commands = mailbox.commands := rfl

@[simp] theorem changedAll_commands : (mailbox.changedAll commandIds).commands = mailbox.commands :=
  changedAll_frame mailbox commandIds _ fun _ _ => rfl

@[simp] theorem changedAll_sequence : (mailbox.changedAll commandIds).sequence = mailbox.sequence :=
  changedAll_frame mailbox commandIds _ fun _ _ => rfl

@[simp] theorem changedAll_destructionFence :
    (mailbox.changedAll commandIds).destructionFence = mailbox.destructionFence :=
  changedAll_frame mailbox commandIds _ fun _ _ => rfl

@[simp] theorem changedAll_runtimeGeneration :
    (mailbox.changedAll commandIds).runtimeGeneration = mailbox.runtimeGeneration :=
  changedAll_frame mailbox commandIds _ fun _ _ => rfl

@[simp] theorem changedAll_storageIncarnation :
    (mailbox.changedAll commandIds).storageIncarnation = mailbox.storageIncarnation :=
  changedAll_frame mailbox commandIds _ fun _ _ => rfl

@[simp] theorem changedAll_commandIdentities :
    (mailbox.changedAll commandIds).commandIdentities = mailbox.commandIdentities :=
  changedAll_frame mailbox commandIds _ fun _ _ => rfl

end Changed

section Edits

variable [MailboxHost]

inductive Edit (operation : MailboxOperation) : Mailbox → Mailbox → Prop
  | rewrite {mailbox : Mailbox} (set : MailboxCommand → MailboxCommand)
      (commandIds : List CommandId)
      (edits : ∀ row ∈ mailbox.commands,
        set row = row ∨ RowEdit operation mailbox row (set row))
      (recorded : ∀ row ∈ mailbox.commands, (set row).view ≠ row.view → row.commandId ∈ commandIds)
      (stored : ∀ commandId ∈ commandIds, ∃ row ∈ mailbox.commands, row.commandId = commandId) :
      Edit operation mailbox ((mailbox.rewrite set).changedAll commandIds)
  | insert {mailbox : Mailbox} (now : Millis) (lane : String) (envelope : CloudCommandEnvelope)
      (request : operation = .request (.reserve envelope))
      (inLane : cloudCommandLane envelope = some lane)
      (safe : isSafeInteger envelope.destructionFence = true)
      (nonnegative : 0 ≤ envelope.destructionFence)
      (fence : ∀ current, mailbox.destructionFence = some current →
        current ≤ envelope.destructionFence)
      (absent : mailbox.command envelope.commandId = none)
      (room : mailbox.atCapacity (MailboxHost.envelopeBytes envelope) = false) :
      Edit operation mailbox (mailbox.insertReserved now lane envelope)
  | identify {mailbox : Mailbox} (existing : MailboxCommand)
      (stored : existing ∈ mailbox.commands) (identity : CommandIdentity)
      (unknown : mailbox.commandIdentities existing.commandId = none) :
      Edit operation mailbox (mailbox.setCommandIdentity existing.commandId identity)
  | generation {mailbox : Mailbox} (runtimeGeneration : Number)
      (newer : ∀ known, mailbox.runtimeGeneration = some known → known < runtimeGeneration) :
      Edit operation mailbox { mailbox with runtimeGeneration := some runtimeGeneration }
  | incarnation {mailbox : Mailbox} (storageIncarnationId : String)
      (replaced : mailbox.storageIncarnation = none ∨
        mailbox.storageIncarnation = some storageIncarnationId ∨
        ∀ row ∈ mailbox.commands, row.everLeased = true → row.state.isTerminal = true) :
      Edit operation mailbox
        { mailbox with storageIncarnation := some storageIncarnationId }
  | fence {mailbox : Mailbox} (destructionFence : Number)
      (higher : ∀ current, mailbox.destructionFence = some current → current ≤ destructionFence)
      (survives : ∀ row ∈ mailbox.commands, row.state.isTerminal = false →
        Survives row destructionFence) :
      Edit operation mailbox { mailbox with destructionFence := some destructionFence }
  | configure {mailbox after : Mailbox} (same : SameCommands mailbox after)
      (wake : WakeEdit operation mailbox after) :
      Edit operation mailbox after
  | bump {mailbox : Mailbox} :
      Edit operation mailbox { mailbox with revision := mailbox.revision + 1 }

def Edits (operation : MailboxOperation) : Mailbox → Mailbox → Prop :=
  Relation.ReflTransGen (Edit operation)

end Edits

end Mailbox

end Zuse.Cloud
