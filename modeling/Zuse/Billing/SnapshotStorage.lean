import Mathlib.Data.Prod.Lex
import Mathlib.Data.String.Basic
import Zuse.Billing.ProviderMetering

namespace Zuse.Billing

open Zuse.Data

/-! Retained snapshots of one account and the billing of their storage. Every call holds the
lease of the account. A call that fails or dies is `none` and leaves the tables as they
were. -/

def snapshotRateVersion : String := "boat-snapshot-2026-10-v1"

def snapshotMonthMs : Nat := 30 * 24 * 60 * 60 * 1000

def snapshotMonthMicros : Nat := 1700000

def snapshotSettlementIntervalMs : Int := 60 * 60 * 1000

def snapshotGraceMs : Int := 7 * 24 * 60 * 60 * 1000

inductive SnapshotState where
  | creating
  | retained
  | deleting
  | deleted
  deriving DecidableEq

inductive DeletionReason where
  | superseded
  | user
  | expiry
  | account
  | missing
  | failedBuild
  deriving DecidableEq

structure CloudSnapshotRecord where
  snapshotId : String
  buildId : String
  state : SnapshotState
  createdAtMs : Int
  retainedAtMs : Option Int := none
  stoppedAtMs : Option Int := none
  deletedAtMs : Option Int := none
  deletionReason : Option DeletionReason := none
  checkpointAtMs : Option Int := none
  remainder : Nat
  graceUntilMs : Option Int := none
  attempts : Nat
  nextAttemptAtMs : Int
  lastError : Option String := none
  deriving DecidableEq

structure SnapshotCost where
  micros : Nat
  remainder : Nat

/-- Fails for an interval that is not a safe integer, which no caller passes as negative. -/
def snapshotStorageCost (durationMs : Int) (remainder rateMicros : Nat) : Option SnapshotCost :=
  if !isSafeInteger durationMs || durationMs < 0 || snapshotMonthMs ≤ remainder ||
      !isSafeInteger rateMicros then none
  else
    let numerator := durationMs.toNat * rateMicros + remainder
    let micros := numerator / snapshotMonthMs
    if !isSafeInteger micros then none
    else some { micros, remainder := numerator % snapshotMonthMs }

def storageEventId (snapshotId : String) (start until_ : Int) : String :=
  "snapshot:" ++ snapshotId ++ ":" ++ snapshotRateVersion ++ ":" ++ toString start ++ ":" ++
    toString until_

def storageUsage (accountId periodId snapshotId : String) (start until_ : Int)
    (micros : Nat) : UsageRecord where
  provider := .box
  providerEventId := storageEventId snapshotId start until_
  providerExecutionId := some (storageEventId snapshotId start until_)
  periodId
  accountId
  resourceKind := .snapshot
  resourceId := snapshotId
  startedAt := start
  endedAt := until_
  vcpuCount := 0
  memoryMib := 0
  providerCostMicros := micros

namespace BillingStore

variable (store : BillingStore)

def billStorage (accountId periodId snapshotId : String) (start until_ : Int)
    (micros : Nat) : Option BillingStore :=
  let eventId := storageEventId snapshotId start until_
  let recorded := (store.recordProviderEvent
    { provider := .box
      eventId
      type := "snapshot-storage"
      providerResourceId := some snapshotId
      occurredAtMs := some until_ }).2
  (recorded.recordProviderExecutionBatch
    { provider := .box
      eventId
      providerExecutionId := some eventId
      usage := [storageUsage accountId periodId snapshotId start until_ micros] }).map (·.2)

structure Settling where
  store : BillingStore
  cursor : Int
  remainder : Nat

def settlePeriods (accountId snapshotId : String) (end_ : Int) (settling : Settling) :
    List BillingPeriod → Option Settling
  | [] => some settling
  | period :: rest =>
    let start := max settling.cursor period.periodStartMs
    let until_ := min end_ period.periodEndMs
    if until_ ≤ start then settlePeriods accountId snapshotId end_ settling rest
    else
      let remainder := if settling.cursor < start then 0 else settling.remainder
      (snapshotStorageCost (until_ - start) remainder snapshotMonthMicros).bind fun cost =>
        (settling.store.billStorage accountId period.periodId snapshotId start until_
          cost.micros).bind fun billed =>
            settlePeriods accountId snapshotId end_
              { store := billed, cursor := until_, remainder := cost.remainder } rest

def settleSnapshot (accountId : String) (cutover : Option Int) (record : CloudSnapshotRecord)
    (nowMs : Int) : Option (CloudSnapshotRecord × BillingStore) :=
  match cutover, record.retainedAtMs with
  | some cutover, some retainedAtMs =>
    let checkpoint := record.checkpointAtMs.getD retainedAtMs
    let end_ := min nowMs (record.stoppedAtMs.getD nowMs)
    let cursor := max checkpoint cutover
    if end_ ≤ cursor then
      some ({ record with checkpointAtMs := some (max checkpoint end_) }, store)
    else if record.stoppedAtMs.isNone && end_ - cursor < snapshotSettlementIntervalMs then
      some (record, store)
    else
      (settlePeriods accountId record.snapshotId end_
        { store, cursor, remainder := record.remainder }
        (store.periodsOverlapping accountId cursor end_)).map fun settled =>
          ({ record with
             checkpointAtMs := some settled.cursor
             remainder := settled.remainder }, settled.store)
  | _, _ => some (record, store)

def summaryStatus (period : BillingPeriod) (reservedProviderCostMicros : Nat) :
    CloudBillingStatus :=
  let confirmedProviderCost := store.ledgerTotal period.periodId .providerCost
  let confirmed := calculateCloudBillingTotals confirmedProviderCost period.policy
  let totals := calculateCloudBillingTotals
    (confirmedProviderCost + reservedProviderCostMicros) period.policy
  let reservationCharge := max 0 (totals.overageChargeMicros - confirmed.overageChargeMicros)
  let overageChargeMicros := min (period.overageCapMicros : Int)
    (store.ledgerTotal period.periodId .overageCharge + reservationCharge)
  if period.status = .manual then .manual
  else if period.status = .ended then .ended
  else if period.status = .grace ∨ period.status = .billingHold ∨
      (0 < totals.overageProviderCostMicros ∧
        (period.overageCapMicros : Int) ≤ overageChargeMicros) then .billingHold
  else .active

end BillingStore

/-- The snapshots of the account and its billing. -/
structure SnapshotTables where
  snapshots : List CloudSnapshotRecord
  billing : BillingStore

namespace SnapshotTables

variable (tables : SnapshotTables)

def get (snapshotId : String) : Option CloudSnapshotRecord :=
  tables.snapshots.find? fun record => record.snapshotId = snapshotId

def isUnsettledDeleted (record : CloudSnapshotRecord) : Bool :=
  record.retainedAtMs.any fun retainedAtMs => record.stoppedAtMs.any fun stoppedAtMs =>
    record.checkpointAtMs.getD retainedAtMs < stoppedAtMs

/-- The snapshots that are not deleted, in the order that they were created. -/
def list (includeUnsettledDeleted : Bool) : List CloudSnapshotRecord :=
  (tables.snapshots.filter fun record => decide (record.state ≠ .deleted) ||
    includeUnsettledDeleted && isUnsettledDeleted record).insertionSort fun left right =>
      toLex (left.createdAtMs, left.snapshotId) ≤ toLex (right.createdAtMs, right.snapshotId)

/-- Save a record. One of another build under its name is a conflict. -/
def save (record : CloudSnapshotRecord) : Option SnapshotTables :=
  match tables.get record.snapshotId with
  | none => some { tables with snapshots := tables.snapshots ++ [record] }
  | some previous =>
    if previous.buildId = record.buildId then
      some { tables with
        snapshots := tables.snapshots.map fun other =>
          if other.snapshotId = record.snapshotId then record else other }
    else none

end SnapshotTables

structure SnapshotConfiguration where
  accountId : String
  cutover : Option Int
  enforced : Bool

structure SnapshotBuild where
  buildId : String
  provider : String
  customerOwned : Bool
  snapshotId : Option String

namespace SnapshotTables

variable (configuration : SnapshotConfiguration) (tables : SnapshotTables)

/-- Record that the build is about to save a snapshot under its provider's name. -/
def prepareSnapshotIntent (build : SnapshotBuild) (snapshotId : String) (nowMs : Int) :
    Option SnapshotTables :=
  if build.provider ≠ "box" ∨ build.customerOwned then some tables
  else
    match tables.get snapshotId with
    | some existing =>
      if existing.buildId ≠ build.buildId ∨ existing.state = .deleting ∨
          existing.state = .deleted then none
      else some tables
    | none =>
      tables.save
        { snapshotId
          buildId := build.buildId
          state := .creating
          createdAtMs := nowMs
          remainder := 0
          attempts := 0
          nextAttemptAtMs := nowMs }

/-- Settle a record up to now, where its storage stops, and queue its deletion. -/
def stopSnapshot (record : CloudSnapshotRecord) (reason : DeletionReason) (nowMs : Int) :
    Option SnapshotTables :=
  (tables.billing.settleSnapshot configuration.accountId configuration.cutover
    { record with stoppedAtMs := some nowMs } nowMs).bind fun settled =>
      ({ tables with billing := settled.2 } : SnapshotTables).save
        { settled.1 with
          state := .deleting
          deletionReason := some reason
          nextAttemptAtMs := nowMs }

def stopSnapshots (reason : DeletionReason) (nowMs : Int) (tables : SnapshotTables) :
    List CloudSnapshotRecord → Option SnapshotTables
  | [] => some tables
  | record :: rest =>
    (tables.stopSnapshot configuration record reason nowMs).bind fun next =>
      stopSnapshots reason nowMs next rest

/-- The image is retained in the place of those before it. `storedReady` says that the
stored build is ready already. -/
def promoteRetainedSnapshot (build : SnapshotBuild) (storedReady : Bool) (nowMs : Int) :
    Option SnapshotTables :=
  match build.snapshotId with
  | none => some tables
  | some snapshotId =>
    if build.provider ≠ "box" then some tables
    else
      let records := tables.list false
      let superseded := records.filter fun record => record.state = .retained
      if build.customerOwned then
        if storedReady then some tables
        else stopSnapshots configuration .superseded nowMs tables superseded
      else
        match records.find? fun record =>
            record.snapshotId = snapshotId && record.buildId = build.buildId with
        | none => none
        | some image =>
          if image.state = .deleting ∨ image.state = .deleted then none
          else if image.state = .retained then some tables
          else
            (stopSnapshots configuration .superseded nowMs tables superseded).bind
              fun next => next.save
                { image with
                  state := .retained
                  retainedAtMs := some nowMs
                  checkpointAtMs := some nowMs }

/-- `building` says that a build of the account is in progress. -/
def deleteRetainedSnapshot (snapshotId : String) (building : Bool) (nowMs : Int) :
    Option SnapshotTables :=
  match tables.get snapshotId with
  | none => none
  | some record =>
    if record.state = .deleting ∨ record.state = .deleted then some tables
    else if building then none
    else tables.stopSnapshot configuration record .user nowMs

def queueAccountSnapshotDeletion (nowMs : Int) : Option SnapshotTables :=
  stopSnapshots configuration .account nowMs tables
    ((tables.list false).filter fun record =>
      record.state ≠ .deleted && record.state ≠ .deleting)

/-- What a reconciliation reads of the other services. -/
structure Reconciliation where
  entitlements : List Entitlement
  reservedProviderCostMicros : Nat
  isMissing : String → Bool
  buildFailed : String → Bool

def accountStatus (billing : BillingStore) (period : Option BillingPeriod)
    (reservedProviderCostMicros : Nat) : CloudBillingStatus :=
  match period with
  | none => .ended
  | some period => billing.summaryStatus period reservedProviderCostMicros

/-- The storage of a snapshot that the provider does not have stops. -/
def detectMissing (input : Reconciliation) (record : CloudSnapshotRecord) (nowMs : Int) :
    CloudSnapshotRecord :=
  if input.isMissing record.snapshotId then
    { record with
      state := .deleting
      deletionReason := some .missing
      stoppedAtMs := some nowMs
      nextAttemptAtMs := nowMs }
  else record

def enforceGrace (status : CloudBillingStatus) (record : CloudSnapshotRecord) (nowMs : Int) :
    CloudSnapshotRecord :=
  if status ≠ .ended ∧ status ≠ .billingHold ∧ status ≠ .grace then
    { record with graceUntilMs := none }
  else
    match record.graceUntilMs with
    | none => { record with graceUntilMs := some (nowMs + snapshotGraceMs) }
    | some graceUntilMs =>
      if graceUntilMs ≤ nowMs then
        { record with
          state := .deleting
          deletionReason := some .expiry
          stoppedAtMs := some nowMs
          nextAttemptAtMs := nowMs }
      else record

def reconcileRecord (input : Reconciliation) (period : Option BillingPeriod)
    (record : CloudSnapshotRecord) (nowMs : Int) : Option SnapshotTables :=
  match record.state with
  | .deleting | .deleted =>
    (tables.billing.settleSnapshot configuration.accountId configuration.cutover record
      nowMs).bind fun settled =>
        ({ tables with billing := settled.2 } : SnapshotTables).save settled.1
  | .retained =>
    (tables.billing.settleSnapshot configuration.accountId configuration.cutover
      (detectMissing input record nowMs) nowMs).bind fun settled =>
        let status := accountStatus settled.2 period input.reservedProviderCostMicros
        ({ tables with billing := settled.2 } : SnapshotTables).save
          (if configuration.enforced then enforceGrace status settled.1 nowMs
           else settled.1)
  | .creating =>
    if input.buildFailed record.buildId then
      tables.save
        { record with
          state := .deleting
          deletionReason := some .failedBuild
          stoppedAtMs := some nowMs
          nextAttemptAtMs := nowMs }
    else some tables

def reconcileRecords (input : Reconciliation) (period : Option BillingPeriod) (nowMs : Int)
    (tables : SnapshotTables) : List CloudSnapshotRecord → Option SnapshotTables
  | [] => some tables
  | record :: rest =>
    (tables.reconcileRecord configuration input period record nowMs).bind fun next =>
      reconcileRecords input period nowMs next rest

/-- The transaction of `reconcileSnapshotStorage` for the account, which its cleanup
follows. -/
def reconcileSnapshotStorage (input : Reconciliation) (nowMs : Int) : Option SnapshotTables :=
  let records := tables.list configuration.cutover.isSome
  if records.isEmpty then some tables
  else
    (tables.billing.ensureAccountCloudBillingPeriod configuration.accountId
      input.entitlements nowMs).bind fun ensured =>
        reconcileRecords configuration input ensured.1 nowMs
          { tables with billing := ensured.2 } records

inductive SnapshotDeletion where
  | deleted
  | failed (code : String)
  | unavailable

/-- What a cleanup reads of the other services. -/
structure Cleanup where
  entitlements : List Entitlement
  reservedProviderCostMicros : Nat
  isRestoring : String → Bool
  deletion : String → SnapshotDeletion

def isExpiring (record : CloudSnapshotRecord) : Bool :=
  record.state = .deleting && record.deletionReason = some .expiry

def canRevive (billing : BillingStore) (input : Cleanup) (period : Option BillingPeriod) :
    Bool :=
  let status := accountStatus billing period input.reservedProviderCostMicros
  !((tables.list false).any fun record => record.state = .retained) &&
    (status = .active || status = .manual)

def deleteSnapshot (input : Cleanup) (record : CloudSnapshotRecord) (nowMs : Int) :
    Option SnapshotTables :=
  if record.state ≠ .deleting ∨ nowMs < record.nextAttemptAtMs then some tables
  else if input.isRestoring record.buildId then
    tables.save
      { record with
        nextAttemptAtMs := nowMs + 60000
        lastError := some "workspace-restore-pending" }
  else
    match input.deletion record.snapshotId with
    | .unavailable => none
    | .failed code =>
      tables.save
        { record with
          attempts := record.attempts + 1
          lastError := some code
          nextAttemptAtMs :=
            nowMs + min (60 * 60000) (30000 * 2 ^ min record.attempts 7) }
    | .deleted =>
      tables.save
        { record with state := .deleted, deletedAtMs := some nowMs, lastError := none }

def cleanupSnapshot (input : Cleanup) (record : CloudSnapshotRecord) (nowMs : Int) :
    Option SnapshotTables :=
  if isExpiring record then
    (tables.billing.ensureAccountCloudBillingPeriod configuration.accountId
      input.entitlements nowMs).bind fun ensured =>
        let next : SnapshotTables := { tables with billing := ensured.2 }
        if tables.canRevive ensured.2 input ensured.1 then
          next.save
            { record with
              state := .retained
              stoppedAtMs := none
              deletionReason := none
              graceUntilMs := none
              checkpointAtMs := some nowMs }
        else next.deleteSnapshot input record nowMs
  else tables.deleteSnapshot input record nowMs

end SnapshotTables

end Zuse.Billing
