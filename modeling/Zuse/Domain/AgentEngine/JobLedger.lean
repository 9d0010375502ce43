import Mathlib.Data.List.MinMax
import Zuse.Domain.AgentEngine.Jobs

namespace Zuse.Domain

/-! The `jobs` table and the statements that write it. The ISO texts of its columns are
ordered as the instants they denote, and a comparison with `NULL` holds of no row. -/

structure JobTable where
  rows : List Job
  lastSequence : Nat

structure ClaimInput where
  excludedKinds : List JobKind
  workerId : String
  leaseMs : Int
  minAgeMs : Int
  sessionId : Option String
  includeWaitingBefore : Option Millis

def PendingJob.row (job : PendingJob) (now : Millis) (sequence : Nat) : Job where
  id := job.id
  sequence
  sessionId := job.sessionId
  request := job.request
  status := .pending
  attemptCount := 0
  availableAt := now
  leaseOwner := none
  leaseExpiresAt := none
  causationEventId := some job.causationEventId
  correlationId := some job.correlationId
  lastError := none
  createdAt := now
  updatedAt := now
  completedAt := none

namespace JobTable

variable (table : JobTable)

/-- `UPDATE jobs SET … WHERE … RETURNING …`. -/
def update (condition : Job → Bool) (set : Job → Job) : List Job × JobTable :=
  ((table.rows.filter condition).map set,
    { rows := table.rows.map fun row => if condition row then set row else row
      lastSequence := table.lastSequence })

variable (now : Millis)

/-- `INSERT OR IGNORE`, with the inserted rows. -/
def insert (job : PendingJob) : List Job × JobTable :=
  if job.id ∈ table.rows.map (·.id) then ([], table)
  else
    let row := job.row now (table.lastSequence + 1)
    ([row], { rows := table.rows ++ [row], lastSequence := table.lastSequence + 1 })

def hasRunning (sessionId : String) : Bool :=
  table.rows.any fun row => row.sessionId = sessionId ∧ row.status = .running

def claimable (input : ClaimInput) (candidate : Job) : Bool :=
  ((candidate.status = .pending ∧ candidate.availableAt ≤ now - input.minAgeMs) ∨
      (candidate.status = .waiting ∧
        ∃ before ∈ input.includeWaitingBefore, candidate.updatedAt < before)) ∧
    (∀ sessionId ∈ input.sessionId, candidate.sessionId = sessionId) ∧
    candidate.request.kind ∉ input.excludedKinds ∧
    table.hasRunning candidate.sessionId = false

/-- The oldest claimable job: `ORDER BY sequence ASC LIMIT 1`. -/
def nextCandidate (input : ClaimInput) : Option Job :=
  (table.rows.filter (table.claimable now input)).argmin (·.sequence)

def claimed (input : ClaimInput) (row : Job) : Job :=
  { row with
    status := .running
    leaseOwner := some input.workerId
    leaseExpiresAt := some (now + input.leaseMs)
    attemptCount := row.attemptCount + 1
    lastError := none
    updatedAt := now }

def claimNext (input : ClaimInput) : List Job × JobTable :=
  match table.nextCandidate now input with
  | none => ([], table)
  | some candidate =>
    table.update (·.sequence = candidate.sequence) (claimed now input)

/-! Statements of the owner of a claim. Each takes effect only while the claim lasts. -/

def held (jobId workerId : String) (row : Job) : Bool :=
  row.id = jobId ∧ row.status = .running ∧ row.leaseOwner = some workerId ∧
    ∃ expires ∈ row.leaseExpiresAt, now < expires

def renew (jobId workerId : String) (leaseMs : Int) : List Job × JobTable :=
  table.update (held now jobId workerId) fun row =>
    { row with leaseExpiresAt := some (now + leaseMs), updatedAt := now }

def succeed (jobId workerId : String) : List Job × JobTable :=
  table.update (held now jobId workerId) fun row =>
    { row with
      status := .succeeded
      leaseOwner := none
      leaseExpiresAt := none
      completedAt := some now
      updatedAt := now }

def retry (jobId workerId : String) (delayMs : Int) (error : String) : List Job × JobTable :=
  table.update (held now jobId workerId) fun row =>
    { row with
      status := .pending
      leaseOwner := none
      leaseExpiresAt := none
      availableAt := now + delayMs
      lastError := some error
      updatedAt := now }

def hold (jobId workerId error : String) : List Job × JobTable :=
  table.update (held now jobId workerId) fun row =>
    { row with
      status := .waiting
      leaseOwner := none
      leaseExpiresAt := none
      availableAt := now
      lastError := some error
      updatedAt := now }

def fail (jobId workerId error : String) : List Job × JobTable :=
  table.update (held now jobId workerId) fun row =>
    { row with
      status := .failed
      leaseOwner := none
      leaseExpiresAt := none
      lastError := some error
      completedAt := some now
      updatedAt := now }

def requeued (error : String) (row : Job) : Job :=
  { row with
    status := .pending
    leaseOwner := none
    leaseExpiresAt := none
    availableAt := now
    lastError := some error
    updatedAt := now }

def cancelled (error : String) (row : Job) : Job :=
  { row with
    status := .cancelled
    leaseOwner := none
    leaseExpiresAt := none
    lastError := some error
    completedAt := some now
    updatedAt := now }

def reclaimExpired : List Job × JobTable :=
  table.update (fun row => row.status = .running ∧ ∃ expires ∈ row.leaseExpiresAt, expires ≤ now)
    (requeued now "Claim expired; delivery requires reconciliation.")

def cancelUnsettled (sessionId : String) (kinds : List JobKind)
    (reason : String) : List Job × JobTable :=
  table.update
    (fun row => row.sessionId = sessionId ∧ row.status.isUnsettled ∧ row.request.kind ∈ kinds)
    (cancelled now reason)

/-- The first statement of `reconcileAfterProcessLoss`. -/
def requeueAfterProcessLoss : List Job × JobTable :=
  table.update
    (fun row => (row.status = .running ∨ row.status = .waiting) ∧
      isReplayableJobKind row.request.kind)
    (requeued now "Requeued after the previous server process ended.")

/-- The second statement of `reconcileAfterProcessLoss`. -/
def cancelAfterProcessLoss : List Job × JobTable :=
  table.update (fun row => row.status.isUnsettled ∧ isReplayableJobKind row.request.kind = false)
    (cancelled now "Cancelled because the server process ended before the job completed.")

end JobTable

end Zuse.Domain
