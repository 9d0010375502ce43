import Zuse.Data.TransitionSystem
import Zuse.Domain.AgentEngine.JobLedger

namespace Zuse.Domain

open Zuse.Data List JobTable Bool PendingJob

/-! The life of one job: what a statement may do to its row, and what its row says about
everything that was done to it. -/

inductive JobAction where
  | inserted
  | claimed (owner : String)
  | renewed (owner : String)
  | settled (owner : String)
  | released
  | cancelled
  deriving DecidableEq

def JobAction.isClaim : JobAction → Bool
  | .claimed _ => true
  | _ => false

def JobAction.claimOwner : JobAction → Option String
  | .claimed owner => some owner
  | _ => none

def JobAction.isRenewal : JobAction → Bool
  | .renewed _ => true
  | _ => false

def HoldsClaim (actions : List JobAction) (owner : String) : Prop :=
  ∃ before after, actions = before ++ .claimed owner :: after ∧
    ∀ action ∈ after, action.isRenewal = true

theorem HoldsClaim.claim (actions : List JobAction) (owner : String) :
    HoldsClaim (actions ++ [.claimed owner]) owner :=
  ⟨actions, [], rfl, forall_mem_nil _⟩

variable {owner : String}

theorem HoldsClaim.renew {actions : List JobAction}
    (holds : HoldsClaim actions owner) (renewing : String) :
    HoldsClaim (actions ++ [.renewed renewing]) owner := by
  obtain ⟨before, after, split, renewals⟩ := holds
  refine ⟨before, after ++ [.renewed renewing], ?_, ?_⟩
  · rw [split, append_assoc, cons_append]
  intro action member
  rcases mem_concat.mp member with known | rfl
  · exact renewals action known
  · rfl

variable {after : Job}

namespace Job

structure SameJob (before after : Job) : Prop where
  id : after.id = before.id
  sequence : after.sequence = before.sequence
  sessionId : after.sessionId = before.sessionId
  request : after.request = before.request

def Changes (now : Millis) (before : Job) (action : JobAction) (after : Job) : Prop :=
  match action with
  | .inserted => False
  | .claimed owner =>
    (before.status = .pending ∨ before.status = .waiting) ∧ after.status = .running ∧
      after.leaseOwner = some owner ∧ after.leaseExpiresAt.isSome ∧
      after.attemptCount = before.attemptCount + 1 ∧
      after.completedAt = before.completedAt
  | .renewed owner =>
    before.status = .running ∧ before.leaseOwner = some owner ∧
      after.status = .running ∧ after.leaseOwner = some owner ∧
      after.leaseExpiresAt.isSome ∧ after.attemptCount = before.attemptCount ∧
      after.completedAt = before.completedAt
  | .settled owner =>
    before.status = .running ∧ before.leaseOwner = some owner ∧
      after.status ≠ .running ∧ after.leaseOwner = none ∧
      after.leaseExpiresAt = none ∧ after.attemptCount = before.attemptCount ∧
      after.completedAt =
        if after.status.isUnsettled then before.completedAt else some now
  | .released =>
    (before.status = .running ∨ before.status = .waiting) ∧ after.status = .pending ∧
      after.leaseOwner = none ∧ after.leaseExpiresAt = none ∧
      after.attemptCount = before.attemptCount ∧ after.completedAt = before.completedAt
  | .cancelled =>
    before.status.isUnsettled = true ∧ after.status = .cancelled ∧
      after.leaseOwner = none ∧ after.leaseExpiresAt = none ∧
      after.attemptCount = before.attemptCount ∧ after.completedAt = some now

variable {now : Millis}

theorem Changes.unsettled {before : Job} {action : JobAction}
    (changes : before.Changes now action after) : before.status.isUnsettled = true := by
  cases action with
  | inserted => exact changes.elim
  | claimed owner =>
    rcases changes.1 with pending | waiting
    · rw [pending]; rfl
    · rw [waiting]; rfl
  | renewed owner | settled owner => rw [changes.1]; rfl
  | released =>
    rcases changes.1 with running | waiting
    · rw [running]; rfl
    · rw [waiting]; rfl
  | cancelled => exact changes.1

theorem Changes.running {before : Job} {action : JobAction}
    (changes : before.Changes now action after) (noClaim : action.isClaim = false)
    (runs : after.status = .running) : before.status = .running := by
  cases action with
  | inserted => exact changes.elim
  | claimed owner => cases noClaim
  | renewed owner | settled owner => exact changes.1
  | released | cancelled =>
    rw [changes.2.1] at runs
    cases runs

/-- The row agrees with what was done to the job. -/
structure Accounted (actions : List JobAction) (job : Job) : Prop where
  inserted : actions.count .inserted = 1
  attempts : job.attemptCount = actions.countP (·.isClaim)
  owner : job.status = .running ↔ job.leaseOwner.isSome = true
  expiry : job.status = .running ↔ job.leaseExpiresAt.isSome = true
  completed : job.completedAt.isSome = true ↔ job.status.isUnsettled = false
  holds : ∀ owner, job.leaseOwner = some owner → HoldsClaim actions owner
  settled : ∀ owner,
    actions.count (.settled owner) + (if job.leaseOwner = some owner then 1 else 0) ≤
      actions.count (.claimed owner)

namespace Accounted

variable {actions : List JobAction} {before after : Job} {now : Millis}

theorem claim (accounted : before.Accounted actions)
    (changes : before.Changes now (.claimed owner) after) :
    after.Accounted (actions ++ [.claimed owner]) := by
  obtain ⟨claimable, running, leased, expires, attempts, completed⟩ := changes
  have unsettled : before.status.isUnsettled = true := by
    rcases claimable with pending | waiting
    · rw [pending]; rfl
    · rw [waiting]; rfl
  constructor
  · simpa using accounted.inserted
  · rw [attempts, accounted.attempts, countP_append]
    rfl
  · simp [running, leased]
  · simp [running, expires]
  · rw [completed, running, accounted.completed, unsettled]
    rfl
  · intro other leasedOther
    rw [leased, Option.some.injEq] at leasedOther
    rw [← leasedOther]
    exact .claim actions owner
  intro other
  have known := accounted.settled other
  simp only [count_append, count_singleton, leased, Option.some.injEq,
    reduceCtorEq, if_false, beq_iff_eq, JobAction.claimed.injEq] at known ⊢
  omega

theorem renew (accounted : before.Accounted actions)
    (changes : before.Changes now (.renewed owner) after) :
    after.Accounted (actions ++ [.renewed owner]) := by
  obtain ⟨ran, owned, running, leased, expires, attempts, completed⟩ := changes
  constructor
  · simpa using accounted.inserted
  · rw [attempts, accounted.attempts, countP_append]
    rfl
  · simp [running, leased]
  · simp [running, expires]
  · rw [completed, running, accounted.completed, ran]
  · intro other leasedOther
    exact (accounted.holds other (by rw [owned, ← leased, leasedOther])).renew owner
  · intro other
    have known := accounted.settled other
    simpa [leased, owned] using known

theorem release (accounted : before.Accounted actions) {action : JobAction}
    (noClaim : action.isClaim = false) (noInsertion : action ≠ .inserted)
    (settles : ∀ owner, action = .settled owner → before.leaseOwner = some owner)
    (stopped : after.status ≠ .running) (unleased : after.leaseOwner = none)
    (expired : after.leaseExpiresAt = none) (attempts : after.attemptCount = before.attemptCount)
    (completed : after.completedAt.isSome = true ↔ after.status.isUnsettled = false) :
    after.Accounted (actions ++ [action]) := by
  constructor
  · rw [count_append, accounted.inserted, count_singleton]
    simpa using noInsertion
  · rw [attempts, accounted.attempts]
    simp [noClaim]
  · simp [stopped, unleased]
  · simp [stopped, expired]
  · exact completed
  · intro other leasedOther
    rw [unleased] at leasedOther
    cases leasedOther
  intro other
  have known := accounted.settled other
  have notClaimed : action ≠ .claimed other := by
    rintro rfl
    cases noClaim
  simp only [count_append, count_singleton, unleased, reduceCtorEq, if_false,
    beq_iff_eq, if_neg notClaimed]
  by_cases isSettled : action = .settled other
  · rw [settles other isSettled, if_pos rfl] at known
    rw [if_pos isSettled]
    omega
  · rw [if_neg isSettled]
    omega

theorem step (accounted : before.Accounted actions) {action : JobAction}
    (changes : before.Changes now action after) :
    after.Accounted (actions ++ [action]) := by
  have incomplete : before.completedAt.isSome = false := by
    rw [eq_false_iff, Ne, accounted.completed, changes.unsettled]
    decide
  cases action with
  | inserted => exact changes.elim
  | claimed owner => exact accounted.claim changes
  | renewed owner => exact accounted.renew changes
  | settled owner =>
    obtain ⟨-, owned, stopped, unleased, expired, attempts, completed⟩ := changes
    refine accounted.release rfl ?_ ?_ stopped unleased expired attempts ?_
    · intro same
      cases same
    · rintro other same
      cases same
      exact owned
    · rw [completed]
      cases unsettled : after.status.isUnsettled <;> simp [incomplete]
  | released =>
    obtain ⟨-, pending, unleased, expired, attempts, completed⟩ := changes
    refine accounted.release rfl (by decide) ?_ ?_ unleased expired attempts ?_
    · rintro other same
      cases same
    · rw [pending]; decide
    · rw [completed, pending, incomplete]
      decide
  | cancelled =>
    obtain ⟨-, cancelled, unleased, expired, attempts, completed⟩ := changes
    refine accounted.release rfl (by decide) ?_ ?_ unleased expired attempts ?_
    · rintro other same
      cases same
    · rw [cancelled]; decide
    · rw [completed, cancelled]
      exact ⟨fun _ => rfl, fun _ => rfl⟩

end Accounted

end Job

variable {jobId workerId : String} {row candidate : Job} {condition : Job → Bool}
  {input : ClaimInput}

namespace JobTable

/-- A statement updates rows by one kind of action and leaves the others alone. -/
structure Performs (rows : List Job) (now : Millis) (action : JobAction)
    (condition : Job → Bool) (set : Job → Job) : Prop where
  same : ∀ row, Job.SameJob row (set row)
  changes : ∀ row ∈ rows, condition row = true → Job.Changes now row action (set row)

variable {now : Millis}

theorem held_iff :
    held now jobId workerId row = true ↔
      row.id = jobId ∧ row.status = .running ∧ row.leaseOwner = some workerId ∧
        ∃ expires, row.leaseExpiresAt = some expires ∧ now < expires := by
  simp [held, Option.mem_def]

inductive ClaimUpdate where
  | renew (leaseMs : Int)
  | succeed
  | retry (delayMs : Int) (error : String)
  | hold (error : String)
  | fail (error : String)

def ClaimUpdate.action (workerId : String) : ClaimUpdate → JobAction
  | .renew _ => .renewed workerId
  | _ => .settled workerId

def updateClaim (table : JobTable) (now : Millis) (jobId workerId : String) :
    ClaimUpdate → List Job × JobTable
  | .renew leaseMs => table.renew now jobId workerId leaseMs
  | .succeed => table.succeed now jobId workerId
  | .retry delayMs error => table.retry now jobId workerId delayMs error
  | .hold error => table.hold now jobId workerId error
  | .fail error => table.fail now jobId workerId error

theorem updateClaim_performs (table : JobTable) (jobId workerId : String) (update : ClaimUpdate) :
    ∃ set, table.updateClaim now jobId workerId update =
        table.update (held now jobId workerId) set ∧
      Performs table.rows now (update.action workerId) (held now jobId workerId) set := by
  cases update with
  | renew leaseMs =>
    refine ⟨_, rfl, fun row => ⟨rfl, rfl, rfl, rfl⟩, fun row _ isHeld => ?_⟩
    obtain ⟨-, running, owned, -⟩ := held_iff.mp isHeld
    exact ⟨running, owned, running, owned, rfl, rfl, rfl⟩
  | succeed | retry delayMs error | hold error | fail error =>
    refine ⟨_, rfl, fun row => ⟨rfl, rfl, rfl, rfl⟩, fun row _ isHeld => ?_⟩
    obtain ⟨-, running, owned, -⟩ := held_iff.mp isHeld
    exact ⟨running, owned, by simp, rfl, rfl, rfl, rfl⟩

variable {rows : List Job}

theorem requeued_performs (error : String)
    (claimed : ∀ row, condition row = true → row.status = .running ∨ row.status = .waiting) :
    Performs rows now .released condition (requeued now error) where
  same := fun _ => ⟨rfl, rfl, rfl, rfl⟩
  changes := fun _ _ holds => ⟨claimed _ holds, rfl, rfl, rfl, rfl, rfl⟩

theorem cancelled_performs (reason : String)
    (unsettled : ∀ row, condition row = true → row.status.isUnsettled = true) :
    Performs rows now .cancelled condition (cancelled now reason) where
  same := fun _ => ⟨rfl, rfl, rfl, rfl⟩
  changes := fun _ _ holds => ⟨unsettled _ holds, rfl, rfl, rfl, rfl, rfl⟩

theorem nextCandidate_claimable {table : JobTable}
    (found : table.nextCandidate now input = some candidate) :
    candidate ∈ table.rows ∧ (candidate.status = .pending ∨ candidate.status = .waiting) ∧
      ∀ row ∈ table.rows, row.sessionId = candidate.sessionId → row.status ≠ .running := by
  obtain ⟨stored, claimable⟩ := mem_filter.mp (argmin_mem found)
  simp only [JobTable.claimable, decide_and, and_eq_true, decide_eq_true_eq] at claimable
  obtain ⟨status, -, -, idle⟩ := claimable
  refine ⟨stored, ?_, ?_⟩
  · rcases status with pending | waiting
    · exact .inl pending.1
    · exact .inr waiting.1
  · intro row rowStored sameSession running
    simp only [hasRunning, any_eq_false, decide_eq_true_eq] at idle
    exact idle row rowStored ⟨sameSession, running⟩

end JobTable

structure LedgerEvent where
  jobId : String
  action : JobAction

structure LedgerWorld where
  table : JobTable
  now : Millis
  history : List LedgerEvent

namespace LedgerWorld

def actions (world : LedgerWorld) (jobId : String) : List JobAction :=
  (world.history.filter (·.jobId = jobId)).map (·.action)

/-- The world after a statement that performed an action on the rows it returned. -/
def write (world : LedgerWorld) (action : JobAction) (result : List Job × JobTable) :
    LedgerWorld where
  table := result.2
  now := world.now
  history := world.history ++ result.1.map fun row => ⟨row.id, action⟩

def insert (world : LedgerWorld) (job : PendingJob) : LedgerWorld :=
  world.write .inserted (world.table.insert world.now job)

def claimOwners (world : LedgerWorld) : List String :=
  world.history.filterMap (·.action.claimOwner)

end LedgerWorld

inductive LedgerStep where
  | wait (millis : Nat)
  | enqueue (jobs : List PendingJob)
  | claimNext (input : ClaimInput)
  | updateClaim (jobId workerId : String) (update : JobTable.ClaimUpdate)
  | reclaimExpired
  | cancelUnsettled (sessionId : String) (kinds : List JobKind) (reason : String)
  | requeueAfterProcessLoss
  | cancelAfterProcessLoss

/-- Any number of workers and restarts. A claim is made for an owner that has claimed
nothing before. -/
def ledgerSystem : TransitionSystem LedgerWorld LedgerStep where
  init := { table := { rows := [], lastSequence := 0 }, now := 0, history := [] }
  step := fun world label =>
    match label with
    | .wait millis =>
      some { table := world.table, now := world.now + millis, history := world.history }
    | .enqueue jobs => some (jobs.foldl LedgerWorld.insert world)
    | .claimNext input =>
      if input.workerId ∈ world.claimOwners then none
      else
        some (world.write (.claimed input.workerId) (world.table.claimNext world.now input))
    | .updateClaim jobId workerId update =>
      some (world.write (update.action workerId)
        (world.table.updateClaim world.now jobId workerId update))
    | .reclaimExpired =>
      some (world.write .released (world.table.reclaimExpired world.now))
    | .cancelUnsettled sessionId kinds reason =>
      some (world.write .cancelled (world.table.cancelUnsettled world.now sessionId kinds reason))
    | .requeueAfterProcessLoss =>
      some (world.write .released (world.table.requeueAfterProcessLoss world.now))
    | .cancelAfterProcessLoss =>
      some (world.write .cancelled (world.table.cancelAfterProcessLoss world.now))

theorem filter_key_eq {α : Type u} {κ : Type v} [DecidableEq κ] {key : α → κ}
    {items : List α} {item : α} (condition : α → Bool)
    (distinct : (items.map key).Nodup) (member : item ∈ items) :
    (items.filter condition).filter (fun other => key other = key item) =
      if condition item then [item] else [] := by
  induction items with
  | nil => cases member
  | cons head rest ih =>
    rw [map_cons, nodup_cons] at distinct
    obtain ⟨absent, restDistinct⟩ := distinct
    rcases mem_cons.mp member with rfl | later
    · have noOther : (rest.filter condition).filter (fun other => key other = key item) = [] := by
        rw [filter_eq_nil_iff]
        intro other present same
        rw [decide_eq_true_eq] at same
        exact absent (same ▸ mem_map_of_mem (mem_of_mem_filter present))
      rw [filter_cons]
      split
      · rw [filter_cons, if_pos (by simp), noOther]
      · exact noOther
    · have different : key head ≠ key item := by
        intro same
        exact absent (same ▸ mem_map_of_mem later)
      rw [filter_cons]
      split
      · rw [filter_cons, if_neg (by simpa using different)]
        exact ih restDistinct later
      · exact ih restDistinct later

namespace LedgerWorld

structure Sound (world : LedgerWorld) : Prop where
  ids : (world.table.rows.map (·.id)).Nodup
  sequences : (world.table.rows.map (·.sequence)).Nodup
  bounded : ∀ row ∈ world.table.rows, row.sequence ≤ world.table.lastSequence
  accounted : ∀ row ∈ world.table.rows, row.Accounted (world.actions row.id)
  known : ∀ event ∈ world.history, event.jobId ∈ world.table.rows.map (·.id)
  oneRunning : ∀ left ∈ world.table.rows, ∀ right ∈ world.table.rows,
    left.status = .running → right.status = .running →
    left.sessionId = right.sessionId → left.id = right.id
  owners : world.claimOwners.Nodup

theorem Sound.initial : ledgerSystem.init.Sound where
  ids := nodup_nil
  sequences := nodup_nil
  bounded := forall_mem_nil _
  accounted := forall_mem_nil _
  known := forall_mem_nil _
  oneRunning := forall_mem_nil _
  owners := nodup_nil

section Update

variable {world : LedgerWorld} {action : JobAction} {condition : Job → Bool}
  {set : Job → Job}

theorem actions_update (action : JobAction) (condition : Job → Bool)
    (ids : (world.table.rows.map (·.id)).Nodup) (same : ∀ row, Job.SameJob row (set row))
    (member : row ∈ world.table.rows) :
    (world.write action (world.table.update condition set)).actions row.id =
      world.actions row.id ++ if condition row then [action] else [] := by
  have sameId : ∀ row, (set row).id = row.id := fun row => (same row).id
  have selected := filter_key_eq condition ids member
  have onRecord : (((world.table.update condition set).1.map fun row =>
        (⟨row.id, action⟩ : LedgerEvent)).filter (·.jobId = row.id)).map (·.action) =
      if condition row then [action] else [] := by
    simp only [update, map_map, filter_map, Function.comp_def, sameId]
    rw [selected]
    split <;> rfl
  rw [actions, write, filter_append, map_append, onRecord]
  rfl

theorem mem_update (member : after ∈ (world.table.update condition set).2.rows) :
    ∃ row ∈ world.table.rows, after = if condition row then set row else row := by
  obtain ⟨row, present, same⟩ := mem_map.mp member
  exact ⟨row, present, same.symm⟩

theorem map_update (world : LedgerWorld) (condition : Job → Bool) {κ : Type}
    {key : Job → κ} (same : ∀ row, key (set row) = key row) :
    (world.table.update condition set).2.rows.map key = world.table.rows.map key := by
  simp only [update, map_map]
  apply map_congr_left
  intro row _
  simp only [Function.comp_apply]
  split
  · exact same row
  · rfl

section

variable (sound : world.Sound)
  (performs : JobTable.Performs world.table.rows world.now action condition set)
include sound performs

theorem Sound.update
    (oneRunning : ∀ left ∈ (world.table.update condition set).2.rows,
      ∀ right ∈ (world.table.update condition set).2.rows,
      left.status = .running → right.status = .running →
      left.sessionId = right.sessionId → left.id = right.id)
    (owners : (world.write action (world.table.update condition set)).claimOwners.Nodup) :
    (world.write action (world.table.update condition set)).Sound where
  ids := by
    have kept := world.map_update condition fun row => (performs.same row).id
    exact kept ▸ sound.ids
  sequences := by
    have kept := world.map_update condition fun row => (performs.same row).sequence
    exact kept ▸ sound.sequences
  bounded := by
    intro after member
    obtain ⟨row, present, rfl⟩ := mem_update member
    split
    · rw [(performs.same row).sequence]
      exact sound.bounded row present
    · exact sound.bounded row present
  accounted := by
    intro after member
    obtain ⟨row, present, rfl⟩ := mem_update member
    have recorded := actions_update action condition sound.ids performs.same present
    have accounted := sound.accounted row present
    cases met : condition row with
    | true =>
      rw [met] at recorded
      rw [if_pos rfl, (performs.same row).id, recorded]
      exact accounted.step (performs.changes row present met)
    | false =>
      rw [met, if_neg Bool.false_ne_true, append_nil] at recorded
      rw [if_neg Bool.false_ne_true, recorded]
      exact accounted
  known := by
    intro event member
    have kept := world.map_update condition fun row => (performs.same row).id
    rw [show (world.write action (world.table.update condition set)).table =
      (world.table.update condition set).2 from rfl, kept]
    rcases mem_append.mp member with before | new
    · exact sound.known event before
    · obtain ⟨after, returned, rfl⟩ := mem_map.mp new
      obtain ⟨row, updated, rfl⟩ := mem_map.mp returned
      rw [(performs.same row).id]
      exact mem_map_of_mem (mem_of_mem_filter updated)
  oneRunning := oneRunning
  owners := owners

theorem Sound.updateUnclaimed (noClaim : action.isClaim = false) :
    (world.write action (world.table.update condition set)).Sound := by
  have running : ∀ after ∈ (world.table.update condition set).2.rows,
      after.status = .running → ∃ row ∈ world.table.rows, row.status = .running ∧
        after.id = row.id ∧ after.sessionId = row.sessionId := by
    intro after member runs
    obtain ⟨row, present, rfl⟩ := mem_update member
    cases met : condition row with
    | true =>
      rw [met] at runs
      have ran := (performs.changes row present met).running noClaim runs
      exact ⟨row, present, ran, (performs.same row).id, (performs.same row).sessionId⟩
    | false =>
      rw [met] at runs
      exact ⟨row, present, runs, rfl, rfl⟩
  refine sound.update performs ?_ ?_
  · intro left leftMember right rightMember leftRuns rightRuns sameSession
    obtain ⟨leftRow, leftPresent, leftRan, leftId, leftSession⟩ :=
      running left leftMember leftRuns
    obtain ⟨rightRow, rightPresent, rightRan, rightId, rightSession⟩ :=
      running right rightMember rightRuns
    rw [leftId, rightId]
    exact sound.oneRunning leftRow leftPresent rightRow rightPresent leftRan rightRan
      (leftSession.symm.trans (sameSession.trans rightSession))
  have noOwners : ((world.table.update condition set).1.map fun row =>
      (⟨row.id, action⟩ : LedgerEvent)).filterMap (·.action.claimOwner) = [] := by
    rw [filterMap_eq_nil_iff]
    intro event member
    obtain ⟨row, -, rfl⟩ := mem_map.mp member
    cases action <;> first | rfl | cases noClaim
  rw [claimOwners, write, filterMap_append, noOwners, append_nil]
  exact sound.owners

end

end Update

variable {world next : LedgerWorld}

theorem Sound.claim_performs (sound : world.Sound)
    (found : world.table.nextCandidate world.now input = some candidate) :
    JobTable.Performs world.table.rows world.now (.claimed input.workerId)
      (·.sequence = candidate.sequence) (JobTable.claimed world.now input) := by
  obtain ⟨stored, status, -⟩ := nextCandidate_claimable found
  refine ⟨fun _ => ⟨rfl, rfl, rfl, rfl⟩, fun row present same => ?_⟩
  rw [decide_eq_true_eq] at same
  rw [inj_on_of_nodup_map sound.sequences present stored same]
  exact ⟨status, rfl, rfl, rfl, rfl, rfl⟩

theorem Sound.claimNext (sound : world.Sound) (input : ClaimInput)
    (unused : input.workerId ∉ world.claimOwners) :
    (world.write (.claimed input.workerId) (world.table.claimNext world.now input)).Sound := by
  rw [JobTable.claimNext]
  cases found : world.table.nextCandidate world.now input with
  | none =>
    have same : world.write (.claimed input.workerId) ([], world.table) = world := by
      simp [write]
    rw [same]
    exact sound
  | some candidate =>
    obtain ⟨stored, status, idle⟩ := nextCandidate_claimable found
    have isCandidate : ∀ row ∈ world.table.rows,
        row.sequence = candidate.sequence → row = candidate :=
      fun row present same => inj_on_of_nodup_map sound.sequences present stored same
    have performs := sound.claim_performs found
    refine sound.update performs ?_ ?_
    · intro left leftMember right rightMember leftRuns rightRuns sameSession
      obtain ⟨leftRow, leftPresent, rfl⟩ := mem_update leftMember
      obtain ⟨rightRow, rightPresent, rfl⟩ := mem_update rightMember
      by_cases leftClaimed : leftRow.sequence = candidate.sequence <;>
        by_cases rightClaimed : rightRow.sequence = candidate.sequence
      · rw [isCandidate _ leftPresent leftClaimed, isCandidate _ rightPresent rightClaimed]
      · rw [isCandidate _ leftPresent leftClaimed] at sameSession
        simp only [rightClaimed, decide_false, false_eq_true, if_false, decide_true,
          if_true, claimed] at rightRuns sameSession
        exact absurd rightRuns (idle rightRow rightPresent sameSession.symm)
      · rw [isCandidate _ rightPresent rightClaimed] at sameSession
        simp only [leftClaimed, decide_false, false_eq_true, if_false, decide_true,
          if_true, claimed] at leftRuns sameSession
        exact absurd leftRuns (idle leftRow leftPresent sameSession)
      · simp only [leftClaimed, rightClaimed, decide_false, false_eq_true, if_false]
          at leftRuns rightRuns sameSession ⊢
        exact sound.oneRunning leftRow leftPresent rightRow rightPresent leftRuns
          rightRuns sameSession
    · have selected := filter_key_eq (fun _ => true) sound.sequences stored
      have returned : (world.table.update (·.sequence = candidate.sequence)
          (claimed world.now input)).1 = [claimed world.now input candidate] := by
        simp only [filter_true, if_true] at selected
        rw [JobTable.update, selected]
        rfl
      rw [claimOwners, write, filterMap_append, returned, nodup_append]
      refine ⟨sound.owners, nodup_singleton _, ?_⟩
      intro owner used other new same
      rw [same, mem_singleton.mp new] at used
      exact unused used

theorem accounted_row (job : PendingJob) (now : Millis) (sequence : Nat) :
    (job.row now sequence).Accounted [.inserted] := by
  constructor
  · rfl
  · rfl
  · simp [row]
  · simp [row]
  · simp [row, JobStatus.isUnsettled]
  · intro owner leased
    cases leased
  · simp [row]

theorem Sound.insert (sound : world.Sound) (job : PendingJob) : (world.insert job).Sound := by
  rw [LedgerWorld.insert, JobTable.insert]
  split
  · have same : world.write .inserted ([], world.table) = world := by
      simp [write]
    rw [same]
    exact sound
  rename_i absent
  generalize isRow : job.row world.now (world.table.lastSequence + 1) = row
  have rowId : row.id = job.id := by rw [← isRow]; rfl
  have rowSequence : row.sequence = world.table.lastSequence + 1 := by rw [← isRow]; rfl
  have notRunning : row.status ≠ .running := by
    rw [← isRow]
    exact fun runs => by cases runs
  have rowAbsent : ∀ other ∈ world.table.rows, row.id ≠ other.id := by
    intro other present same
    exact absent (rowId ▸ same ▸ mem_map_of_mem present)
  have unknown : ∀ event ∈ world.history, event.jobId ≠ row.id := by
    intro event member same
    obtain ⟨other, present, sameId⟩ := mem_map.mp (sound.known event member)
    exact rowAbsent other present (same.symm.trans sameId.symm)
  refine ⟨?_, ?_, ?_, ?_, ?_, ?_, ?_⟩
  · rw [write, map_append, nodup_append]
    refine ⟨sound.ids, nodup_singleton _, ?_⟩
    intro known knownMember new newMember same
    obtain ⟨other, present, rfl⟩ := mem_map.mp knownMember
    rw [map_singleton, mem_singleton] at newMember
    exact rowAbsent other present (newMember.symm.trans same.symm)
  · rw [write, map_append, nodup_append]
    refine ⟨sound.sequences, nodup_singleton _, ?_⟩
    intro known knownMember new newMember same
    obtain ⟨other, present, rfl⟩ := mem_map.mp knownMember
    rw [map_singleton, mem_singleton] at newMember
    have below := sound.bounded other present
    omega
  · intro other member
    rcases mem_concat.mp member with before | rfl
    · exact Nat.le_succ_of_le (sound.bounded other before)
    · exact rowSequence.le
  · intro other member
    rcases mem_concat.mp member with before | new
    · have noEvent : ([⟨row.id, .inserted⟩] : List LedgerEvent).filter
          (·.jobId = other.id) = [] := by
        simpa using rowAbsent other before
      rw [actions, write, map_singleton, filter_append, noEvent, append_nil]
      exact sound.accounted other before
    · have noHistory : world.history.filter (·.jobId = row.id) = [] := by
        rw [filter_eq_nil_iff]
        intro event recorded same
        exact unknown event recorded (of_decide_eq_true same)
      rw [new, actions, write, filter_append, noHistory, ← isRow]
      simpa using accounted_row job world.now (world.table.lastSequence + 1)
  · intro event member
    rw [write, map_append, mem_append]
    rcases mem_append.mp member with before | new
    · exact .inl (sound.known event before)
    · rw [map_singleton, mem_singleton] at new
      rw [new]
      exact .inr (mem_singleton.mpr rfl)
  · have runsBefore : ∀ other ∈ world.table.rows ++ [row], other.status = .running →
        other ∈ world.table.rows := by
      intro other member runs
      rcases mem_concat.mp member with before | new
      · exact before
      · rw [new] at runs
        exact absurd runs notRunning
    intro left leftMember right rightMember leftRuns rightRuns
    exact sound.oneRunning left (runsBefore left leftMember leftRuns) right
      (runsBefore right rightMember rightRuns) leftRuns rightRuns
  · rw [write]
    simpa [JobAction.claimOwner, claimOwners] using sound.owners

/-- Apart from insertions and claims, a step is one statement that updates rows. -/
theorem step_updates {label : LedgerStep} (stepped : ledgerSystem.step world label = some next) :
    match label with
    | .wait _ | .enqueue _ | .claimNext _ => True
    | _ => ∃ action condition set, action.isClaim = false ∧
      JobTable.Performs world.table.rows world.now action condition set ∧
      next = world.write action (world.table.update condition set) := by
  cases label with
  | wait | enqueue | claimNext => trivial
  | updateClaim jobId workerId update =>
    cases stepped
    obtain ⟨set, updates, performs⟩ := world.table.updateClaim_performs jobId workerId update
    exact ⟨_, _, set, by cases update <;> rfl, performs, congrArg _ updates⟩
  | reclaimExpired =>
    cases stepped
    refine ⟨_, _, _, rfl, requeued_performs _ fun row met => ?_, rfl⟩
    exact .inl (of_decide_eq_true met).1
  | cancelUnsettled sessionId kinds reason =>
    cases stepped
    refine ⟨_, _, _, rfl, cancelled_performs _ fun row met => ?_, rfl⟩
    exact (of_decide_eq_true met).2.1
  | requeueAfterProcessLoss =>
    cases stepped
    refine ⟨_, _, _, rfl, requeued_performs _ fun row met => ?_, rfl⟩
    exact (of_decide_eq_true met).1
  | cancelAfterProcessLoss =>
    cases stepped
    refine ⟨_, _, _, rfl, cancelled_performs _ fun row met => ?_, rfl⟩
    exact (of_decide_eq_true met).1

theorem Sound.step (sound : world.Sound) {label : LedgerStep}
    (stepped : ledgerSystem.step world label = some next) : next.Sound := by
  cases label with
  | wait millis =>
    cases stepped
    exact ⟨sound.ids, sound.sequences, sound.bounded, sound.accounted, sound.known,
      sound.oneRunning, sound.owners⟩
  | enqueue jobs =>
    cases stepped
    induction jobs generalizing world with
    | nil => exact sound
    | cons job rest ih => exact ih (sound.insert job)
  | claimNext input =>
    simp only [ledgerSystem] at stepped
    split at stepped
    · cases stepped
    · rename_i unused
      cases stepped
      exact sound.claimNext input unused
  | updateClaim | reclaimExpired | cancelUnsettled | requeueAfterProcessLoss
  | cancelAfterProcessLoss =>
    obtain ⟨_, _, _, unclaimed, performs, rfl⟩ := step_updates stepped
    exact sound.updateUnclaimed performs unclaimed

theorem Sound.of_reachable (reachable : ledgerSystem.Reachable world) : world.Sound :=
  reachable.invariant .initial fun _ _ _ _ sound stepped => sound.step stepped

theorem mem_update_of_settled {action : JobAction} {set : Job → Job}
    (performs : JobTable.Performs world.table.rows world.now action condition set)
    (stored : row ∈ world.table.rows) (settled : row.status.isUnsettled = false) :
    row ∈ (world.table.update condition set).2.rows := by
  refine mem_map.mpr ⟨row, stored, if_neg fun met => ?_⟩
  have unsettled := (performs.changes row stored met).unsettled
  rw [settled] at unsettled
  cases unsettled

theorem mem_insert (stored : row ∈ world.table.rows) (job : PendingJob) :
    row ∈ (world.insert job).table.rows := by
  rw [insert, JobTable.insert]
  split
  · exact stored
  · exact mem_append_left _ stored

theorem Sound.keeps_settled (sound : world.Sound) {label : LedgerStep}
    (stepped : ledgerSystem.step world label = some next)
    (stored : row ∈ world.table.rows) (settled : row.status.isUnsettled = false) :
    row ∈ next.table.rows := by
  cases label with
  | wait millis =>
    cases stepped
    exact stored
  | enqueue jobs =>
    cases stepped
    induction jobs generalizing world with
    | nil => exact stored
    | cons job rest ih => exact ih (sound.insert job) (mem_insert stored job)
  | claimNext input =>
    simp only [ledgerSystem] at stepped
    split at stepped
    · cases stepped
    cases stepped
    rw [JobTable.claimNext]
    cases found : world.table.nextCandidate world.now input with
    | none => exact stored
    | some candidate =>
      exact mem_update_of_settled (sound.claim_performs found) stored settled
  | updateClaim | reclaimExpired | cancelUnsettled | requeueAfterProcessLoss
  | cancelAfterProcessLoss =>
    obtain ⟨_, _, _, _, performs, rfl⟩ := step_updates stepped
    exact mem_update_of_settled performs stored settled

theorem Sound.keeps_settled_run (sound : world.Sound) {labels : List LedgerStep}
    {last : LedgerWorld} (ran : ledgerSystem.runFrom world labels = some last)
    (stored : row ∈ world.table.rows) (settled : row.status.isUnsettled = false) :
    row ∈ last.table.rows := by
  induction labels generalizing world with
  | nil =>
    cases ran
    exact stored
  | cons label rest ih =>
    obtain ⟨next, stepped, remaining⟩ := Option.bind_eq_some_iff.mp ran
    exact ih (sound.step stepped) remaining (sound.keeps_settled stepped stored settled)

/-- A call of a claim's owner reports success only while the claim lasts. -/
def Grants (world : LedgerWorld) (jobId workerId : String) : Prop :=
  HoldsClaim (world.actions jobId) workerId ∧
    ∃ row ∈ world.table.rows, row.id = jobId ∧ row.status = .running ∧
      row.leaseOwner = some workerId ∧
      ∃ expires, row.leaseExpiresAt = some expires ∧ world.now < expires

theorem Sound.grants (sound : world.Sound) {update : JobTable.ClaimUpdate}
    (returned : (world.table.updateClaim world.now jobId workerId update).1 ≠ []) :
    world.Grants jobId workerId := by
  obtain ⟨set, updates, -⟩ := world.table.updateClaim_performs jobId workerId update
  rw [updates] at returned
  obtain ⟨after, member⟩ := exists_mem_of_ne_nil _ returned
  obtain ⟨row, updated, -⟩ := mem_map.mp member
  obtain ⟨stored, isHeld⟩ := mem_filter.mp updated
  obtain ⟨sameId, running, owned, live⟩ := held_iff.mp isHeld
  refine ⟨?_, row, stored, sameId, running, owned, live⟩
  rw [← sameId]
  exact (sound.accounted row stored).holds workerId owned

structure LeaseSafe (world : LedgerWorld) : Prop where
  oneRunning : ∀ left ∈ world.table.rows, ∀ right ∈ world.table.rows,
    left.status = .running → right.status = .running →
    left.sessionId = right.sessionId → left = right
  leased : ∀ row ∈ world.table.rows,
    (row.status = .running ↔ row.leaseOwner.isSome = true) ∧
      (row.status = .running ↔ row.leaseExpiresAt.isSome = true)
  completed : ∀ row ∈ world.table.rows, row.completedAt.isSome = true ↔
    row.status = .succeeded ∨ row.status = .failed ∨ row.status = .cancelled
  absorbing : ∀ row ∈ world.table.rows,
    row.status = .succeeded ∨ row.status = .failed ∨ row.status = .cancelled →
    ∀ labels last, ledgerSystem.runFrom world labels = some last → row ∈ last.table.rows
  insertedOnce : (world.table.rows.map (·.id)).Nodup ∧
    ∀ jobId, (world.actions jobId).count .inserted ≤ 1
  attempts : ∀ row ∈ world.table.rows, row.attemptCount = (world.actions row.id).countP (·.isClaim)
  granted : ∀ jobId workerId update,
    (world.table.updateClaim world.now jobId workerId update).1 ≠ [] →
    world.Grants jobId workerId
  settlesOnce : ∀ jobId owner,
    (world.actions jobId).count (.settled owner) ≤ (world.actions jobId).count (.claimed owner) ∧
      (world.actions jobId).count (.claimed owner) ≤ 1

theorem isUnsettled_eq_false_iff (status : JobStatus) :
    status.isUnsettled = false ↔ status = .succeeded ∨ status = .failed ∨ status = .cancelled := by
  cases status <;> simp [JobStatus.isUnsettled]

theorem Sound.actions_eq_nil (sound : world.Sound)
    (absent : jobId ∉ world.table.rows.map (·.id)) : world.actions jobId = [] := by
  rw [actions, map_eq_nil_iff, filter_eq_nil_iff]
  intro event member same
  exact absent (of_decide_eq_true same ▸ sound.known event member)

theorem Sound.count_claimed_le (sound : world.Sound) (jobId owner : String) :
    (world.actions jobId).count (.claimed owner) ≤ 1 := by
  have once := nodup_iff_count_le_one.mp sound.owners owner
  have owners : ((world.actions jobId).filterMap (·.claimOwner)).Sublist world.claimOwners := by
    rw [actions, filterMap_map]
    exact filter_sublist.filterMap _
  have counted : (world.actions jobId).count (.claimed owner) ≤
      ((world.actions jobId).filterMap (·.claimOwner)).count owner := by
    generalize world.actions jobId = actions
    induction actions with
    | nil => exact Nat.le_refl 0
    | cons action rest ih => cases action <;> simp_all [JobAction.claimOwner, count_cons]
  exact counted.trans ((owners.count_le owner).trans once)

theorem Sound.leaseSafe (sound : world.Sound) : world.LeaseSafe where
  oneRunning := by
    intro left leftStored right rightStored leftRuns rightRuns sameSession
    exact inj_on_of_nodup_map sound.ids leftStored rightStored
      (sound.oneRunning left leftStored right rightStored leftRuns rightRuns sameSession)
  leased := fun row stored =>
    ⟨(sound.accounted row stored).owner, (sound.accounted row stored).expiry⟩
  completed := by
    intro row stored
    rw [(sound.accounted row stored).completed, isUnsettled_eq_false_iff]
  absorbing := by
    intro row stored settled labels last ran
    exact sound.keeps_settled_run ran stored ((isUnsettled_eq_false_iff _).mpr settled)
  insertedOnce := by
    refine ⟨sound.ids, fun jobId => ?_⟩
    by_cases known : jobId ∈ world.table.rows.map (·.id)
    · obtain ⟨row, stored, rfl⟩ := mem_map.mp known
      exact (sound.accounted row stored).inserted.le
    · rw [sound.actions_eq_nil known]
      exact Nat.zero_le 1
  attempts := fun row stored => (sound.accounted row stored).attempts
  granted := fun _ _ _ returned => sound.grants returned
  settlesOnce := by
    intro jobId owner
    refine ⟨?_, sound.count_claimed_le jobId owner⟩
    by_cases known : jobId ∈ world.table.rows.map (·.id)
    · obtain ⟨row, stored, rfl⟩ := mem_map.mp known
      exact (Nat.le_add_right _ _).trans ((sound.accounted row stored).settled owner)
    · rw [sound.actions_eq_nil known]
      exact Nat.le_refl 0

theorem leaseSafe_of_reachable (reachable : ledgerSystem.Reachable world) : world.LeaseSafe :=
  (Sound.of_reachable reachable).leaseSafe

def expiredClaim : List LedgerStep :=
  let stop (event : String) : PendingJob :=
    { id := jobIdForEvent event 0
      sessionId := "session"
      request := .providerStop none 0
      causationEventId := event
      correlationId := "request" }
  let claim (workerId : String) : ClaimInput :=
    { excludedKinds := []
      workerId
      leaseMs := 10
      minAgeMs := 0
      sessionId := none
      includeWaitingBefore := none }
  let job := jobIdForEvent "e1" 0
  [.enqueue [stop "e1", stop "e2", stop "e1"], .claimNext (claim "slow"),
    .claimNext (claim "other"), .wait 10, .updateClaim job "slow" .succeed,
    .reclaimExpired, .claimNext (claim "fast"), .updateClaim job "slow" .succeed,
    .updateClaim job "fast" .succeed]

theorem leaseSafe_of_expiredClaim :
    ∃ world, ledgerSystem.run expiredClaim = some world ∧
      world.table.rows.map (·.status) = [.succeeded, .pending] ∧
      world.history.map (·.action) = [.inserted, .inserted, .claimed "slow", .released,
        .claimed "fast", .settled "fast"] ∧
      world.LeaseSafe := by
  have ran : (ledgerSystem.run expiredClaim).map (fun world =>
      Decidable.decide (world.table.rows.map (·.status) = [.succeeded, .pending]) &&
        Decidable.decide (world.history.map (·.action) = [.inserted, .inserted,
          .claimed "slow", .released, .claimed "fast", .settled "fast"])) = some true := by
    decide +kernel
  obtain ⟨world, reached, observed⟩ := Option.map_eq_some_iff.mp ran
  obtain ⟨statuses, actions⟩ := and_eq_true_iff.mp observed
  exact ⟨world, reached, of_decide_eq_true statuses, of_decide_eq_true actions,
    leaseSafe_of_reachable (TransitionSystem.run_reachable reached)⟩

end LedgerWorld

end Zuse.Domain
