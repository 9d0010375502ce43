import Zuse.Conversation.SessionTables

namespace Zuse.Conversation

open Zuse.Data Zuse.Domain List

/-! Leases of ingestion. A lease belongs to one consumer and one physical provider
residency. -/

structure IngestionLeaseIdentity where
  turnId : String
  attemptId : String
  providerSessionId : String
  deriving DecidableEq

/-- A row of `session_ingestion_leases`. -/
structure LeaseRow where
  sessionId : String
  identity : IngestionLeaseIdentity
  ownerId : String
  heartbeatAt : Millis
  providerActivityAt : Option Millis
  expiresAt : Millis

def ingestionLeaseMs : Int := 30000

/-- The attempt of the identity is the one under way in a session that is not archived and
that has reserved its provider session. -/
def SessionTables.isLive (tables : SessionTables) (sessionId : String)
    (identity : IngestionLeaseIdentity) : Bool :=
  (tables.sessions.any fun row =>
    row.id = sessionId && !row.archived &&
      row.providerReservationId = some identity.providerSessionId) &&
  tables.turns.any fun row =>
    row.sessionId = sessionId && row.id = identity.turnId &&
      row.activeAttemptId = identity.attemptId && row.underWay

/-- The attempt of the identity is under way in this state, at its provider session. -/
structure IngestionLeaseIdentity.LiveIn (identity : IngestionLeaseIdentity)
    (state : SessionState) : Prop where
  unarchived : state.archived = false
  reserved : state.providerReservation.map (·.providerSessionId) = some identity.providerSessionId
  underWay : ∃ turn, state.Current identity.turnId turn ∧
    turn.activeAttemptId = identity.attemptId ∧
    (turn.status = .starting ∨ turn.status = .running)

theorem SessionTables.Mirrors.live {tables : SessionTables} {sessionId : String}
    {state : SessionState} {identity : IngestionLeaseIdentity}
    (mirrors : tables.Mirrors sessionId state)
    (isLive : tables.isLive sessionId identity = true) : identity.LiveIn state := by
  simp only [SessionTables.isLive, Bool.and_eq_true, any_eq_true, decide_eq_true_eq,
    Bool.not_eq_true'] at isLive
  obtain ⟨⟨row, stored, ⟨isSession, unarchived⟩, reserved⟩,
    turn, found, ⟨⟨ofSession, ofTurn⟩, ofAttempt⟩, underWay⟩ := isLive
  have isRow := (mirrors.session row stored isSession).2
  obtain ⟨current, isCurrent, reads⟩ := mirrors.turn turn found ofSession underWay
  refine ⟨?_, ?_, current, ofTurn ▸ isCurrent, reads.activeAttemptId.trans ofAttempt, ?_⟩
  · rw [isRow] at unarchived
    exact unarchived
  · rw [isRow] at reserved
    exact reserved
  · rw [TurnRow.underWay, Bool.or_eq_true, decide_eq_true_eq, decide_eq_true_eq] at underWay
    rw [reads.status]
    exact underWay

/-- The consumer of a lease, with what its operations close over. -/
structure IngestionLease where
  sessionId : String
  identity : IngestionLeaseIdentity
  ownerId : String
  leaseMs : Int
  retired : Bool := false

namespace IngestionLease

/-- `expire` and `release` set it before their statement runs. -/
def retire (lease : IngestionLease) : IngestionLease := { lease with retired := true }

variable (lease : IngestionLease) (tables : SessionTables) (rows : List LeaseRow)

def owns (row : LeaseRow) : Bool := row.sessionId = lease.sessionId && row.ownerId = lease.ownerId

/-- `acquireIngestionLease`: the row may take the place of one that has expired, or of one
for another provider session or attempt. -/
def acquire (startedAt : Millis) : Option (List LeaseRow) :=
  let row : LeaseRow :=
    { sessionId := lease.sessionId
      identity := lease.identity
      ownerId := lease.ownerId
      heartbeatAt := startedAt
      providerActivityAt := none
      expiresAt := startedAt + lease.leaseMs }
  if tables.isLive lease.sessionId lease.identity then
    match rows.find? (·.sessionId = lease.sessionId) with
    | none => some (rows ++ [row])
    | some stored =>
      if stored.expiresAt ≤ startedAt ∨
          stored.identity.providerSessionId ≠ lease.identity.providerSessionId ∨
          stored.identity.attemptId ≠ lease.identity.attemptId then
        some (Table.revise (·.sessionId) lease.sessionId (fun _ => row) rows)
      else none
  else none

def renew (timestamp : Millis) (providerActivityAt : Option Millis) : Option (List LeaseRow) :=
  if lease.retired then none
  else if rows.any lease.owns && tables.isLive lease.sessionId lease.identity then
    some (rows.map fun row =>
      if lease.owns row then
        { row with
          heartbeatAt := timestamp
          expiresAt := timestamp + lease.leaseMs
          providerActivityAt := providerActivityAt.or row.providerActivityAt }
      else row)
  else none

def expire (now : Millis) : List LeaseRow :=
  rows.map fun row =>
    if lease.owns row then { row with expiresAt := min row.expiresAt now } else row

def release : List LeaseRow := rows.filter fun row => !lease.owns row

end IngestionLease

/-- What a row says of the consumer that keeps it. -/
structure LeaseRow.KeptBy (row : LeaseRow) (clock : Millis) (lease : IngestionLease) : Prop where
  ownerId : lease.ownerId = row.ownerId
  identity : lease.identity = row.identity
  heartbeat : row.heartbeatAt ≤ clock
  deadline : lease.retired = true ∨ row.expiresAt = row.heartbeatAt + lease.leaseMs

structure LeaseRows.Sound (rows : List LeaseRow) (leases : List IngestionLease)
    (clock : Millis) : Prop where
  oneEach : (rows.map (·.sessionId)).Nodup
  owners : (leases.map (·.ownerId)).Nodup
  latest : ∀ row ∈ rows, ∃ lease,
    leases.find? (·.sessionId = row.sessionId) = some lease ∧ row.KeptBy clock lease

namespace LeaseRows.Sound

variable {rows : List LeaseRow} {leases : List IngestionLease} {clock : Millis}

theorem initial (clock : Millis) : LeaseRows.Sound [] [] clock where
  oneEach := .nil
  owners := .nil
  latest := nofun

theorem wait (sound : LeaseRows.Sound rows leases clock) {later : Millis}
    (order : clock ≤ later) : LeaseRows.Sound rows leases later where
  oneEach := sound.oneEach
  owners := sound.owners
  latest := by
    intro row stored
    obtain ⟨lease, found, kept⟩ := sound.latest row stored
    exact ⟨lease, found,
      { kept with heartbeat := Int.le_trans kept.heartbeat order }⟩

theorem sublist (sound : LeaseRows.Sound rows leases clock) {fewer : List LeaseRow}
    (part : fewer.Sublist rows) : LeaseRows.Sound fewer leases clock where
  oneEach := sound.oneEach.sublist (part.map _)
  owners := sound.owners
  latest := fun row stored => sound.latest row (part.subset stored)

variable {lease : IngestionLease}

variable (sound : LeaseRows.Sound rows leases clock)
include sound

theorem owned (member : lease ∈ leases) {row : LeaseRow} (stored : row ∈ rows)
    (owns : lease.owns row = true) :
    leases.find? (·.sessionId = lease.sessionId) = some lease ∧ row.KeptBy clock lease := by
  simp only [IngestionLease.owns, Bool.and_eq_true, decide_eq_true_eq] at owns
  obtain ⟨latest, found, kept⟩ := sound.latest row stored
  have same : latest = lease :=
    inj_on_of_nodup_map sound.owners (mem_of_find?_eq_some found) member (kept.ownerId.trans owns.2)
  subst same
  exact ⟨owns.1 ▸ found, kept⟩

theorem rewrite (member : lease ∈ leases) {update : LeaseRow → LeaseRow}
    (sameSession : ∀ row, (update row).sessionId = row.sessionId)
    (kept : ∀ row, row.KeptBy clock lease → (update row).KeptBy clock lease) :
    LeaseRows.Sound (rows.map fun row => if lease.owns row then update row else row) leases
      clock where
  oneEach := by
    rw [map_map]
    refine (map_congr_left fun row _ => ?_) ▸ sound.oneEach
    rw [Function.comp_apply]
    split
    · exact (sameSession row).symm
    · rfl
  owners := sound.owners
  latest := by
    intro row stored
    obtain ⟨old, found, rfl⟩ := mem_map.mp stored
    by_cases owns : lease.owns old = true
    · rw [if_pos owns, sameSession]
      obtain ⟨latest, isKept⟩ := sound.owned member found owns
      have ofSession : old.sessionId = lease.sessionId := by
        simp only [IngestionLease.owns, Bool.and_eq_true, decide_eq_true_eq] at owns
        exact owns.1
      exact ⟨lease, ofSession ▸ latest, kept old isKept⟩
    · rw [if_neg owns]
      exact sound.latest old found

variable {tables : SessionTables} {after : List LeaseRow} {activity : Option Millis}

theorem renew (member : lease ∈ leases)
    (renewed : lease.renew tables rows clock activity = some after) :
    LeaseRows.Sound after leases clock := by
  unfold IngestionLease.renew at renewed
  split at renewed
  · cases renewed
  split at renewed
  · cases renewed
    refine sound.rewrite member (fun _ => rfl) fun row kept => ?_
    exact ⟨kept.ownerId, kept.identity, Int.le_refl _, .inr rfl⟩
  · cases renewed

theorem of_renew (member : lease ∈ leases) {timestamp : Millis}
    (renewed : lease.renew tables rows timestamp activity = some after) :
    lease.retired = false ∧ leases.find? (·.sessionId = lease.sessionId) = some lease ∧
      tables.isLive lease.sessionId lease.identity = true := by
  unfold IngestionLease.renew at renewed
  split at renewed
  · cases renewed
  rename_i active
  split at renewed
  · rename_i live
    rw [Bool.and_eq_true, any_eq_true] at live
    obtain ⟨⟨row, stored, owns⟩, isLive⟩ := live
    exact ⟨by simpa using active, (sound.owned member stored owns).1, isLive⟩
  · cases renewed

theorem expire (member : lease ∈ leases) (retired : lease.retired = true) (now : Millis) :
    LeaseRows.Sound (lease.expire rows now) leases clock :=
  sound.rewrite member (fun _ => rfl) fun _ kept =>
    ⟨kept.ownerId, kept.identity, kept.heartbeat, .inl retired⟩

theorem release (lease : IngestionLease) : LeaseRows.Sound (lease.release rows) leases clock :=
  sound.sublist filter_sublist

theorem retire (ownerId : String) :
    LeaseRows.Sound rows (Table.revise (·.ownerId) ownerId IngestionLease.retire leases) clock where
  oneEach := sound.oneEach
  owners := by
    rw [Table.map_revise]
    · exact sound.owners
    · intro lease _ _
      rfl
  latest := by
    intro row stored
    obtain ⟨lease, found, kept⟩ := sound.latest row stored
    refine ⟨if lease.ownerId = ownerId then lease.retire else lease, ?_, ?_⟩
    · rw [Table.revise, List.find?_map, Option.map_eq_some_iff]
      refine ⟨lease, ?_, rfl⟩
      rw [← found]
      refine congrArg (List.find? · leases) (funext fun other => ?_)
      rw [Function.comp_apply]
      split <;> rfl
    · split
      · exact ⟨kept.ownerId, kept.identity, kept.heartbeat, .inl rfl⟩
      · exact kept

theorem acquire (fresh : lease.ownerId ∉ leases.map (·.ownerId)) {startedAt : Millis}
    (order : startedAt ≤ clock) (acquired : lease.acquire tables rows startedAt = some after) :
    LeaseRows.Sound after (lease :: leases) clock := by
  have others (row : LeaseRow) (stored : row ∈ rows) (other : row.sessionId ≠ lease.sessionId) :
      ∃ latest, (lease :: leases).find? (·.sessionId = row.sessionId) = some latest ∧
        row.KeptBy clock latest := by
    obtain ⟨latest, found, kept⟩ := sound.latest row stored
    refine ⟨latest, ?_, kept⟩
    rw [List.find?_cons_of_neg (by simpa using other.symm)]
    exact found
  have own (row : LeaseRow) (isRow : row =
      { sessionId := lease.sessionId, identity := lease.identity, ownerId := lease.ownerId
        heartbeatAt := startedAt, providerActivityAt := none
        expiresAt := startedAt + lease.leaseMs }) :
      ∃ latest, (lease :: leases).find? (·.sessionId = row.sessionId) = some latest ∧
        row.KeptBy clock latest := by
    subst isRow
    exact ⟨lease, List.find?_cons_of_pos (by simp), rfl, rfl, order, .inr rfl⟩
  have owners : ((lease :: leases).map (·.ownerId)).Nodup :=
    nodup_cons.mpr ⟨fresh, sound.owners⟩
  simp only [IngestionLease.acquire] at acquired
  split at acquired
  · split at acquired
    · rename_i absent
      cases acquired
      rw [List.find?_eq_none] at absent
      refine ⟨?_, owners, ?_⟩
      · rw [map_append, nodup_append]
        refine ⟨sound.oneEach, nodup_singleton _, ?_⟩
        rintro _ known other single rfl
        obtain ⟨row, stored, rfl⟩ := mem_map.mp known
        exact absent row stored (by simpa using mem_singleton.mp single)
      · intro row member
        rcases mem_concat.mp member with stored | new
        · exact others row stored (by simpa using absent row stored)
        · exact own row (new)
    · split at acquired
      · cases acquired
        refine ⟨?_, owners, ?_⟩
        · rw [Table.map_revise]
          · exact sound.oneEach
          · intro row _ same
            exact same.symm
        · intro row member
          rcases Table.mem_revise.mp member with ⟨stored, other⟩ | ⟨old, -, -, isRow⟩
          · exact others row stored other
          · exact own row isRow
      · cases acquired
  · cases acquired

end LeaseRows.Sound

end Zuse.Conversation
