import Mathlib.Logic.Function.Basic
import Zuse.Conversation.IngestionLease
import Zuse.Domain.Engine.SessionDomain
import Zuse.Domain.Engine.Settlement

namespace Zuse.Conversation

open Zuse.Data Zuse.Domain

/-! The sweeper of the leases, in a world of consumers and of the commands of any number of
sessions. Every statement and every transaction is a step. -/

structure StreamReceipt where
  commandId : String
  streamId : String
  receiptIdentity : Option CommandReceiptIdentity

structure ExpiredLease where
  sessionId : String
  identity : IngestionLeaseIdentity
  ownerId : String
  deriving DecidableEq

def LeaseRow.expired (row : LeaseRow) : ExpiredLease where
  sessionId := row.sessionId
  identity := row.identity
  ownerId := row.ownerId

structure SweepPass where
  now : Millis
  previousPassAt : Millis
  selected : Bool
  rows : List ExpiredLease
  discards : List ExpiredLease

/-- `cutoff` -/
def SweepPass.expiredBefore (pass : SweepPass) : Millis := min pass.previousPassAt pass.now

def SweepPass.removes (pass : SweepPass) (row : ExpiredLease) (stored : LeaseRow) : Bool :=
  stored.sessionId = row.sessionId && stored.ownerId = row.ownerId &&
    Decidable.decide (stored.expiresAt ≤ pass.expiredBefore)

def SweepPass.command (pass : SweepPass) (row : ExpiredLease) : DispatchInput :=
  { DispatchInput.plain ("ingestion-expired:" ++ row.ownerId) row.sessionId
      (.expireAttempt row.identity.turnId row.identity.attemptId pass.now) with
    expectedAttempt := some
      { requireUninterrupted := false
        turnId := row.identity.turnId
        attemptId := row.identity.attemptId }
    expectedProviderSessionId := some row.identity.providerSessionId }

structure IngestionWorld where
  clock : Millis
  log : String → List SessionEvent
  receipts : List StreamReceipt
  tables : SessionTables
  rows : List LeaseRow
  leases : List IngestionLease
  previousPassAt : Millis
  pass : Option SweepPass

inductive SweepFailure where
  | dispatch (failure : DispatchFailure)
  | ingestionLeaseRenewed

/-- `AttemptOwnershipConflict` or `ProviderSessionOwnershipConflict` -/
def SweepFailure.isOwnershipConflict : SweepFailure → Bool
  | .dispatch (.attemptOwnershipConflict ..)
  | .dispatch (.providerSessionOwnershipConflict ..) => true
  | _ => false

namespace IngestionWorld

variable [PayloadCodec] (world : IngestionWorld)

def session (streamId : String) : SessionState :=
  evolveAll initialSessionState (world.log streamId)

/-- The events of a command are appended and projected. A session row that goes takes its
lease with it. -/
def commit (input : DispatchInput) (events : List SessionEvent) : IngestionWorld :=
  let tables := world.tables.projectAll input.streamId events
  { world with
    log := Function.update world.log input.streamId (world.log input.streamId ++ events)
    receipts := ⟨input.commandId, input.streamId, input.receiptIdentity⟩ :: world.receipts
    tables
    rows := world.rows.filter fun row => tables.sessions.any (·.id = row.sessionId) }

def dispatch (input : DispatchInput) : Except DispatchFailure IngestionWorld :=
  match input.checkOwnership (world.session input.streamId) (world.log input.streamId) with
  | .error failure => .error failure
  | .ok () =>
    match world.receipts.find? (·.commandId = input.commandId) with
    | some receipt =>
      if receipt.streamId ≠ input.streamId then
        .error (.commandReceiptConflict input.commandId input.streamId receipt.streamId)
      else if identitiesConflict input.receiptIdentity receipt.receiptIdentity then
        .error (.commandReceiptIdentityConflict input.commandId)
      else .ok world
    | none =>
      match decide (world.session input.streamId) input.command with
      | .error error => .error (.domain error)
      | .ok events => .ok (world.commit input events)

/-- The transaction of a row: the attempt expires, and the row is removed with it. -/
def expireAttempt (pass : SweepPass) (row : ExpiredLease) :
    Except SweepFailure IngestionWorld :=
  match world.dispatch (pass.command row) with
  | .error failure => .error (.dispatch failure)
  | .ok next =>
    if (next.rows.filter (pass.removes row)).length = 1 then
      .ok { next with rows := next.rows.filter fun stored => !pass.removes row stored }
    else .error .ingestionLeaseRenewed

/-- `SELECT … ORDER BY expires_at, session_id LIMIT 100` -/
def selectExpired (expiredBefore : Millis) : List ExpiredLease :=
  (((world.rows.filter (·.expiresAt ≤ expiredBefore)).insertionSort fun first second =>
    first.expiresAt < second.expiresAt ∨
      first.expiresAt = second.expiresAt ∧ first.sessionId ≤ second.sessionId).take 100).map
    (·.expired)

end IngestionWorld

inductive IngestionStep where
  | wait (millis : Nat)
  /-- The insertion of `acquireIngestionLease`, which has read the clock before. -/
  | acquire (sessionId : String) (identity : IngestionLeaseIdentity) (ownerId : String)
      (leaseMs : Int) (startedAt : Millis)
  | renew (lease : Nat) (providerActivityAt : Option Millis)
  /-- `expire` or `release` is called. -/
  | retire (lease : Nat)
  /-- The statement of `expire`, which has read the clock before. -/
  | expire (lease : Nat) (now : Millis)
  | release (lease : Nat)
  | dispatch (input : DispatchInput)
  /-- A pass begins: what is left of the one before has run into its timeouts. -/
  | sweep
  | select
  | expireAttempt (row : ExpiredLease)
  | discard (row : ExpiredLease)

def SessionCommand.creates (streamId : String) : SessionCommand → Bool
  | .createSession created _ | .createSessionWithInitialTurn created .. =>
    created.sessionId = streamId
  | _ => true

section System

variable [PayloadCodec]

def ingestionSystem (startedAt : Millis) : TransitionSystem IngestionWorld IngestionStep where
  init :=
    { clock := startedAt
      log := fun _ => []
      receipts := []
      tables := {}
      rows := []
      leases := []
      previousPassAt := startedAt
      pass := none }
  step := fun world label =>
    match label with
    | .wait millis => some { world with clock := world.clock + millis }
    | .acquire sessionId identity ownerId leaseMs startedAt =>
      let lease : IngestionLease := { sessionId, identity, ownerId, leaseMs }
      if ownerId ∉ world.leases.map (·.ownerId) ∧ startedAt ≤ world.clock then
        match lease.acquire world.tables world.rows startedAt with
        | none => none
        | some rows => some { world with rows, leases := lease :: world.leases }
      else none
    | .renew index providerActivityAt =>
      match world.leases[index]? with
      | none => none
      | some lease =>
        match lease.renew world.tables world.rows world.clock providerActivityAt with
        | none => none
        | some rows => some { world with rows }
    | .retire index =>
      match world.leases[index]? with
      | none => none
      | some lease =>
        some
          { world with
            leases := Table.revise (·.ownerId) lease.ownerId IngestionLease.retire world.leases }
    | .expire index now =>
      match world.leases[index]? with
      | none => none
      | some lease =>
        if lease.retired ∧ now ≤ world.clock then
          some { world with rows := lease.expire world.rows now }
        else none
    | .release index =>
      match world.leases[index]? with
      | none => none
      | some lease =>
        if lease.retired then some { world with rows := lease.release world.rows }
        else none
    | .dispatch input =>
      if input.command.isExpireAttempt = false ∧
          SessionCommand.creates input.streamId input.command then
        match world.dispatch input with
        | .error _ => none
        | .ok next => some next
      else none
    | .sweep =>
      some
        { world with
          previousPassAt := world.clock
          pass := some
            { now := world.clock
              previousPassAt := world.previousPassAt
              selected := false
              rows := []
              discards := [] } }
    | .select =>
      match world.pass with
      | none => none
      | some pass =>
        if pass.selected then none
        else
          some
            { world with
              pass := some
                { pass with
                  selected := true
                  rows := world.selectExpired pass.expiredBefore } }
    | .expireAttempt row =>
      match world.pass with
      | none => none
      | some pass =>
        if row ∈ pass.rows then
          let rest := { pass with rows := pass.rows.erase row }
          match world.expireAttempt pass row with
          | .ok next => some { next with pass := some rest }
          | .error failure =>
            if failure.isOwnershipConflict then
              some
                { world with
                  pass := some { rest with discards := row :: pass.discards } }
            else some { world with pass := some rest }
        else none
    | .discard row =>
      match world.pass with
      | none => none
      | some pass =>
        if row ∈ pass.discards then
          some
            { world with
              rows := world.rows.filter fun stored => !pass.removes row stored
              pass := some { pass with discards := pass.discards.erase row } }
        else none

end System

end Zuse.Conversation
