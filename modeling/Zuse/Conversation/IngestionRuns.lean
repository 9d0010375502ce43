import Zuse.Conversation.IngestionSweeper

namespace Zuse.Conversation

open Zuse.Data Zuse.Domain List SessionState Function

section Finalizing

variable [PayloadCodec] {state : SessionState} {turnId : String} {event : SessionEvent}

theorem isFinalizing_begun {outcome : SettlementOutcome} (wellFormed : state.WellFormed)
    (emitted : state.Emits event) (begun : event.finalization = some (turnId, outcome)) :
    (evolve state event).isFinalizing turnId = true := by
  cases event with
  | turnFinalizationRequested finalized attemptId recorded settledAt =>
    obtain ⟨rfl, rfl⟩ : finalized = turnId ∧ recorded = outcome := by
      simpa [SessionEvent.finalization] using begun
    obtain ⟨-, -, turn, current, -⟩ := emitted
    have sameId := wellFormed.owned.table.turnId finalized turn current.2
    refine isFinalizing_iff.mpr ⟨{ turn with status := .finalizing }, ⟨?_, ?_⟩, rfl⟩
    · simp [evolve, apply, current.2, withTurn, current.1]
    · simp [evolve, apply, current.2, withTurn, sameId]
  | _ => cases begun

theorem isFinalizing_evolve (wellFormed : state.WellFormed) (emitted : state.Emits event)
    (finalizing : state.isFinalizing turnId = true)
    (goesOn : ∀ outcome, event.settlement ≠ some (turnId, outcome)) :
    (evolve state event).isFinalizing turnId = true := by
  obtain ⟨turn, current, status⟩ := isFinalizing_iff.mp finalizing
  let row : TurnRow :=
    { id := turnId, sessionId := "", ordinal := 0, status := .finalizing
      activeAttemptId := turn.activeAttemptId }
  have shows : row.Shows state := ⟨turn, current, status, rfl⟩
  obtain ⟨next, isCurrent, reads⟩ := shows.evolve wellFormed emitted fun outcome _ same =>
    goesOn outcome (by rw [same]; rfl)
  rw [row.project_id] at isCurrent
  refine isFinalizing_iff.mpr ⟨next, isCurrent, reads.status.trans ?_⟩
  cases event with
  | attemptStarted started =>
    obtain ⟨-, -, other, otherCurrent, unfinished, -⟩ := emitted
    obtain rfl := Option.some.inj (otherCurrent.2.symm.trans
      ((Option.some.inj (otherCurrent.1.symm.trans current.1)) ▸ current.2))
    exact absurd status unfinished
  | turnsRolledBack rollback => cases emitted.2.2.1.symm.trans current.1
  | turnSettled settled outcome settledAt =>
    obtain ⟨-, -, ⟨other, otherCurrent⟩, -⟩ := emitted
    obtain rfl := Option.some.inj (otherCurrent.1.symm.trans current.1)
    exact absurd rfl (goesOn outcome)
  | turnFinalizationRequested finalized attemptId recorded settledAt =>
    rw [TurnRow.project]
    split <;> rfl
  | sessionStatusSet status updatedAt =>
    rw [TurnRow.project]
    split
    · rename_i starts
      cases starts.2
    · rfl
  | _ => rfl

def RecordedWhileFinalizing (log : List SessionEvent) (state : SessionState) : Prop :=
  ∀ turnId outcome, pendingOutcome turnId log = some outcome → state.isFinalizing turnId = true

theorem RecordedWhileFinalizing.append {log events : List SessionEvent}
    (recorded : RecordedWhileFinalizing log state) (wellFormed : state.WellFormed)
    (emitted : EmitsAll state events) :
    RecordedWhileFinalizing (log ++ events) (evolveAll state events) := by
  induction events generalizing log state with
  | nil =>
    rw [append_nil]
    exact recorded
  | cons event rest ih =>
    rw [← singleton_append, ← append_assoc]
    refine ih (fun turnId outcome pending => ?_) (wellFormed.evolve emitted.1) emitted.2
    rw [pendingOutcome_concat] at pending
    rcases pendingAfter_eq_some pending with begun | ⟨before, -, goesOn⟩
    · exact isFinalizing_begun wellFormed emitted.1 begun
    · exact isFinalizing_evolve wellFormed emitted.1 (recorded turnId outcome before) goesOn

end Finalizing

section Creation

variable [PayloadCodec] {state : SessionState} {events : List SessionEvent}
variable {created : SessionCreatedEvent}

theorem not_created_again (emitted : EmitsAll state events) (present : state.exists_ = true) :
    .sessionCreated created ∉ events := by
  intro member
  induction events generalizing state with
  | nil => cases member
  | cons event rest ih =>
    rcases mem_cons.mp member with rfl | later
    · cases present.symm.trans emitted.1.1
    · exact ih emitted.2 (exists_evolve emitted.1) later

theorem created_under {streamId : String} {command : SessionCommand}
    (emitted : EmitsAll state events) (decided : Domain.decide state command = .ok events)
    (creates : SessionCommand.creates streamId command = true)
    (member : .sessionCreated created ∈ events) : created.sessionId = streamId := by
  have first {fields : SessionCreatedFields} {rest : List SessionEvent}
      (isEvents : events = .sessionCreated fields.event :: rest)
      (sameId : fields.sessionId = streamId) : created.sessionId = streamId := by
    subst isEvents
    rcases mem_cons.mp member with same | later
    · rw [SessionEvent.sessionCreated.inj same]
      exact sameId
    · exact absurd later (not_created_again emitted.2 (exists_evolve emitted.1))
  have existing {other : SessionCommand}
      (decided : (if state.exists_ = false ∨ state.sessionId = none then .error .sessionNotFound
        else if state.deleted then .error .sessionDeletedConflict
        else decideExisting state other : Decision) = .ok events) :
      created.sessionId = streamId := by
    split at decided
    · cases decided
    · rename_i present
      rw [not_or] at present
      exact absurd member (not_created_again emitted (Bool.eq_true_of_not_eq_false present.1))
  cases command with
  | createSession fields providerThread =>
    simp only [Domain.decide, decideCreateSession] at decided
    split at decided
    · cases decided
    · cases decided
      refine first rfl ?_
      simpa [SessionCommand.creates] using creates
  | createSessionWithInitialTurn fields providerThread =>
    simp only [Domain.decide, decideCreateSessionWithInitialTurn] at decided
    split at decided
    · cases decided
    · cases decided
      refine first rfl ?_
      simpa [SessionCommand.creates] using creates
  | _ => exact existing decided

end Creation

def ExpiredLease.ReadFrom (row : ExpiredLease) (leases : List IngestionLease) : Prop :=
  ∃ lease ∈ leases, lease.sessionId = row.sessionId ∧ lease.identity = row.identity ∧
    lease.ownerId = row.ownerId

namespace IngestionWorld

variable [PayloadCodec]

structure Sound (world : IngestionWorld) : Prop where
  wellFormed : ∀ streamId, (world.session streamId).WellFormed
  rested : ∀ streamId, (world.session streamId).Rested
  mirrors : ∀ streamId, world.tables.Mirrors streamId (world.session streamId)
  leases : LeaseRows.Sound world.rows world.leases world.clock
  reads : ∀ pass, world.pass = some pass → ∀ row ∈ pass.rows, row.ReadFrom world.leases
  recorded : ∀ streamId, SettlesAsRecorded (world.log streamId)
  finalizing : ∀ streamId, RecordedWhileFinalizing (world.log streamId) (world.session streamId)

variable {world next : IngestionWorld} {input : DispatchInput} {events : List SessionEvent}

omit [PayloadCodec] in
theorem commit_log : (world.commit input events).log =
    Function.update world.log input.streamId (world.log input.streamId ++ events) := rfl

theorem session_commit (streamId : String) :
    (world.commit input events).session streamId =
      if streamId = input.streamId then evolveAll (world.session input.streamId) events
      else world.session streamId := by
  unfold session
  rw [commit_log]
  by_cases same : streamId = input.streamId
  · subst same
    rw [if_pos rfl, update_self, evolveAll_append]
  · rw [if_neg same, update_of_ne same]

theorem Sound.commit (sound : world.Sound)
    (decided : Domain.decide (world.session input.streamId) input.command = .ok events)
    (creates : SessionCommand.creates input.streamId input.command = true)
    (asRecorded : settlements events = [] ∨ Unfinalizing events ∧
      ∀ turnId outcome, (turnId, outcome) ∈ settlements events → ∀ recorded,
        pendingOutcome turnId (world.log input.streamId) = some recorded → outcome = recorded) :
    (world.commit input events).Sound := by
  have wellFormed := sound.wellFormed input.streamId
  have lawful := decide_lawful wellFormed (sound.rested input.streamId) decided
  have ownIds (created : SessionCreatedEvent) (member : .sessionCreated created ∈ events) :=
    created_under lawful.emitted decided creates member
  constructor
  · intro streamId
    rw [session_commit]
    split
    · exact wellFormed.evolveAll lawful.emitted
    · exact sound.wellFormed streamId
  · intro streamId
    rw [session_commit]
    split
    · exact lawful.rested
    · exact sound.rested streamId
  · intro streamId
    rw [session_commit]
    split
    · rename_i same
      subst same
      exact (sound.mirrors _).projectAll wellFormed lawful.emitted ownIds
    · rename_i other
      exact (sound.mirrors streamId).projectAll_other other ownIds
  · exact sound.leases.sublist filter_sublist
  · exact sound.reads
  · intro streamId
    by_cases same : streamId = input.streamId
    · subst same
      rw [commit_log, update_self]
      exact (sound.recorded _).append asRecorded
    · rw [commit_log, update_of_ne same]
      exact sound.recorded streamId
  intro streamId
  rw [session_commit]
  by_cases same : streamId = input.streamId
  · subst same
    rw [if_pos rfl]
    rw [commit_log, update_self]
    exact (sound.finalizing _).append wellFormed lawful.emitted
  · rw [if_neg same]
    rw [commit_log, update_of_ne same]
    exact sound.finalizing streamId

theorem dispatch_cases (dispatched : world.dispatch input = .ok next) :
    next = world ∨ ∃ events,
      Domain.decide (world.session input.streamId) input.command = .ok events ∧
        next = world.commit input events := by
  unfold dispatch at dispatched
  split at dispatched
  · cases dispatched
  split at dispatched
  · split at dispatched
    · cases dispatched
    · split at dispatched
      · cases dispatched
      · cases dispatched
        exact .inl rfl
  split at dispatched
  · cases dispatched
  · rename_i events decided
    cases dispatched
    exact .inr ⟨events, decided, rfl⟩

/-- The step leaves to each turn that is being finalized the outcome on record. -/
def Spares (world : IngestionWorld) : IngestionStep → Prop
  | .dispatch input =>
    ∀ settled ∈ input.command.settlement,
      ∀ recorded ∈ pendingOutcome settled.1 (world.log input.streamId), settled.2 = recorded
  | .expireAttempt row =>
    (world.session row.sessionId).isFinalizing row.identity.turnId = false
  | _ => True

instance (world : IngestionWorld) (label : IngestionStep) : Decidable (world.Spares label) := by
  cases label <;> unfold Spares <;> infer_instance

theorem Sound.initial (startedAt : Millis) : (ingestionSystem startedAt).init.Sound where
  wellFormed := fun _ => .initial
  rested := fun _ => .initial
  mirrors := fun streamId => .empty streamId _
  leases := .initial startedAt
  reads := nofun
  recorded := fun _ => .nil
  finalizing := fun _ => nofun

variable {row : ExpiredLease}

theorem Sound.readFrom (sound : world.Sound) {expiredBefore : Millis}
    (selected : row ∈ world.selectExpired expiredBefore) : row.ReadFrom world.leases := by
  obtain ⟨stored, member, rfl⟩ := mem_map.mp selected
  have isRow : stored ∈ world.rows :=
    mem_of_mem_filter ((mem_insertionSort _).mp (mem_of_mem_take member))
  obtain ⟨lease, found, kept⟩ := sound.leases.latest stored isRow
  exact ⟨lease, mem_of_find?_eq_some found, of_decide_eq_true (List.find?_some found :),
    kept.identity, kept.ownerId⟩

theorem Sound.dispatch (sound : world.Sound) (dispatched : world.dispatch input = .ok next)
    (keeps : input.command.isExpireAttempt = false)
    (creates : SessionCommand.creates input.streamId input.command = true)
    (spares : world.Spares (.dispatch input)) : next.Sound := by
  rcases dispatch_cases dispatched with rfl | ⟨events, decided, rfl⟩
  · exact sound
  refine sound.commit decided creates ((settlements_decide decided).imp id ?_)
  rintro ⟨quiet, turnId, outcome, settled, named | expires⟩
  · refine ⟨quiet, fun other result member recorded pending => ?_⟩
    rw [settled, mem_singleton] at member
    cases member
    exact spares (turnId, outcome) named recorded pending
  · cases isCommand : input.command <;> rw [isCommand] at keeps expires <;>
      first | cases expires | cases keeps

variable {pass : SweepPass}

theorem Sound.expireAttempt (sound : world.Sound)
    (expired : world.expireAttempt pass row = .ok next)
    (spares : world.Spares (.expireAttempt row)) : next.Sound := by
  unfold IngestionWorld.expireAttempt at expired
  split at expired
  · cases expired
  rename_i committed dispatched
  split at expired
  · have sweeps : committed.Sound := by
      rcases dispatch_cases dispatched with rfl | ⟨events, decided, rfl⟩
      · exact sound
      · refine sound.commit decided rfl ((settlements_decide decided).imp id ?_)
        rintro ⟨quiet, turnId, outcome, settled, named | expires⟩
        · cases named
        · refine ⟨quiet, fun other result member recorded pending => ?_⟩
          rw [settled, mem_singleton] at member
          cases member
          have ofRow : row.identity.turnId = turnId := of_decide_eq_true expires
          have finalizing := sound.finalizing _ turnId recorded pending
          rw [← ofRow] at finalizing
          cases finalizing.symm.trans spares
    cases expired
    exact { sweeps with leases := sweeps.leases.sublist filter_sublist }
  · cases expired

theorem dispatch_frame (dispatched : world.dispatch input = .ok next) :
    next.leases = world.leases ∧ next.rows ⊆ world.rows := by
  rcases dispatch_cases dispatched with rfl | ⟨events, -, rfl⟩
  · exact ⟨rfl, List.Subset.refl _⟩
  · exact ⟨rfl, filter_subset_self _⟩

theorem expireAttempt_leases (expired : world.expireAttempt pass row = .ok next) :
    next.leases = world.leases := by
  unfold IngestionWorld.expireAttempt at expired
  split at expired
  · cases expired
  rename_i committed dispatched
  split at expired
  · cases expired
    exact (dispatch_frame dispatched).1
  · cases expired

theorem Sound.step {startedAt : Millis} {label : IngestionStep} (sound : world.Sound)
    (stepped : (ingestionSystem startedAt).step world label = some next)
    (spares : world.Spares label) : next.Sound := by
  cases label with
  | wait millis =>
    cases stepped
    exact { sound with
      leases := sound.leases.wait (Int.le_add_of_nonneg_right (Int.natCast_nonneg millis)) }
  | acquire sessionId identity ownerId leaseMs readAt =>
    simp only [ingestionSystem] at stepped
    split at stepped
    · rename_i admitted
      split at stepped
      · cases stepped
      · rename_i rows acquired
        cases stepped
        refine { sound with leases := ?_, reads := ?_ }
        · exact sound.leases.acquire admitted.1 admitted.2 acquired
        · intro pass isPass row member
          obtain ⟨lease, isLease, same⟩ := sound.reads pass isPass row member
          exact ⟨lease, mem_cons_of_mem _ isLease, same⟩
    · cases stepped
  | renew index activity =>
    simp only [ingestionSystem] at stepped
    split at stepped
    · cases stepped
    rename_i lease found
    split at stepped
    · cases stepped
    · rename_i rows renewed
      cases stepped
      exact { sound with
        leases := sound.leases.renew (mem_of_getElem? found) renewed }
  | retire index =>
    simp only [ingestionSystem] at stepped
    split at stepped
    · cases stepped
    rename_i lease found
    cases stepped
    refine { sound with leases := sound.leases.retire lease.ownerId, reads := ?_ }
    intro pass isPass row member
    obtain ⟨other, isLease, same⟩ := sound.reads pass isPass row member
    by_cases retired : other.ownerId = lease.ownerId
    · exact ⟨other.retire, Table.mem_revise.mpr (.inr ⟨other, isLease, retired, rfl⟩), same⟩
    · exact ⟨other, Table.mem_revise.mpr (.inl ⟨isLease, retired⟩), same⟩
  | expire index now =>
    simp only [ingestionSystem] at stepped
    split at stepped
    · cases stepped
    rename_i lease found
    split at stepped
    · rename_i admitted
      cases stepped
      exact { sound with
        leases := sound.leases.expire (mem_of_getElem? found) admitted.1 now }
    · cases stepped
  | release index =>
    simp only [ingestionSystem] at stepped
    split at stepped
    · cases stepped
    rename_i lease found
    split at stepped
    · cases stepped
      exact { sound with leases := sound.leases.release lease }
    · cases stepped
  | dispatch input =>
    simp only [ingestionSystem] at stepped
    split at stepped
    · rename_i admitted
      split at stepped
      · cases stepped
      · rename_i dispatched
        cases stepped
        exact sound.dispatch dispatched admitted.1 admitted.2 spares
    · cases stepped
  | sweep =>
    cases stepped
    refine { sound with reads := ?_ }
    rintro pass isPass row member
    cases isPass
    cases member
  | select =>
    simp only [ingestionSystem] at stepped
    split at stepped
    · cases stepped
    split at stepped
    · cases stepped
    cases stepped
    refine { sound with reads := ?_ }
    rintro pass isPass row member
    cases isPass
    exact sound.readFrom member
  | expireAttempt row =>
    simp only [ingestionSystem] at stepped
    split at stepped
    · cases stepped
    rename_i pass isPass
    have kept (other : ExpiredLease) (member : other ∈ pass.rows.erase row) :
        other.ReadFrom world.leases :=
      sound.reads pass isPass other (mem_of_mem_erase member)
    split at stepped
    · split at stepped
      · rename_i committed expired
        cases stepped
        refine { sound.expireAttempt expired spares with reads := ?_ }
        rintro _ ⟨⟩ other member
        rw [expireAttempt_leases expired]
        exact kept other member
      · split at stepped
        · cases stepped
          refine { sound with reads := ?_ }
          rintro _ ⟨⟩ other member
          exact kept other member
        · cases stepped
          refine { sound with reads := ?_ }
          rintro _ ⟨⟩ other member
          exact kept other member
    · cases stepped
  | discard row =>
    simp only [ingestionSystem] at stepped
    split at stepped
    · cases stepped
    rename_i pass isPass
    split at stepped
    · cases stepped
      refine
        { sound with
          leases := sound.leases.sublist filter_sublist
          reads := ?_ }
      rintro _ ⟨⟩ other member
      exact sound.reads pass isPass other member
    · cases stepped

structure ExpiresDead (world next : IngestionWorld) (pass : SweepPass) (row : ExpiredLease)
    (stored : LeaseRow) (lease : IngestionLease) : Prop where
  isRow : stored ∈ world.rows ∧ stored.expired = row
  isLatest : world.leases.find? (·.sessionId = row.sessionId) = some lease ∧
    lease.ownerId = row.ownerId
  due : stored.expiresAt ≤ pass.previousPassAt
  notRenewed : lease.retired = true ∨ stored.heartbeatAt + lease.leaseMs ≤ pass.previousPassAt
  removed : ∀ other ∈ next.rows, other.sessionId ≠ row.sessionId

theorem Sound.expiresDead (sound : world.Sound) (isPass : world.pass = some pass)
    (isRow : row ∈ pass.rows) (expired : world.expireAttempt pass row = .ok next) :
    ∃ stored lease, ExpiresDead world next pass row stored lease := by
  unfold IngestionWorld.expireAttempt at expired
  split at expired
  · cases expired
  rename_i committed dispatched
  split at expired
  · rename_i one
    cases expired
    have subset := (dispatch_frame dispatched).2
    obtain ⟨stored, isOne⟩ := length_eq_one_iff.mp one
    have member : stored ∈ committed.rows.filter (pass.removes row) := by
      rw [isOne]
      exact mem_singleton_self stored
    obtain ⟨kept, removes⟩ := mem_filter.mp member
    simp only [SweepPass.removes, Bool.and_eq_true, decide_eq_true_eq] at removes
    obtain ⟨⟨sameSession, sameOwner⟩, due⟩ := removes
    obtain ⟨lease, latest, keeps⟩ := sound.leases.latest stored (subset kept)
    obtain ⟨reader, isReader, -, identity, owner⟩ := sound.reads pass isPass row isRow
    have sameLease : reader = lease :=
      inj_on_of_nodup_map sound.leases.owners isReader
        (mem_of_find?_eq_some latest) (owner.trans (sameOwner.symm.trans keeps.ownerId.symm))
    subst sameLease
    have before : stored.expiresAt ≤ pass.previousPassAt := due.trans (min_le_left _ _)
    refine ⟨stored, reader, ⟨subset kept, ?_⟩, ⟨sameSession ▸ latest, owner⟩, before, ?_, ?_⟩
    · rw [LeaseRow.expired, sameSession, sameOwner, ← keeps.identity, identity]
    · refine keeps.deadline.imp id fun deadline => ?_
      rw [← deadline]
      exact before
    · intro other remains ofSession
      obtain ⟨present, stays⟩ := mem_filter.mp remains
      have same : other = stored :=
        inj_on_of_nodup_map sound.leases.oneEach (subset present) (subset kept)
          (ofSession.trans sameSession.symm)
      subst same
      simp [SweepPass.removes, sameSession, sameOwner, due] at stays
  · cases expired

structure EndsOnlyDead (world : IngestionWorld) : Prop where
  oneLease : (world.rows.map (·.sessionId)).Nodup
  renews : ∀ lease ∈ world.leases, ∀ timestamp activity rows,
    lease.renew world.tables world.rows timestamp activity = some rows →
      lease.retired = false ∧ world.leases.find? (·.sessionId = lease.sessionId) = some lease ∧
        lease.identity.LiveIn (world.session lease.sessionId)
  expires : ∀ pass row next, world.pass = some pass → row ∈ pass.rows →
    world.expireAttempt pass row = .ok next →
      ∃ stored lease, ExpiresDead world next pass row stored lease
  recorded : ∀ streamId, SettlesAsRecorded (world.log streamId)
  pending : ∀ streamId turnId outcome,
    pendingOutcome turnId (world.log streamId) = some outcome →
      (world.session streamId).isFinalizing turnId = true

theorem Sound.endsOnlyDead (sound : world.Sound) : world.EndsOnlyDead where
  oneLease := sound.leases.oneEach
  renews := by
    intro lease member timestamp activity rows renewed
    obtain ⟨active, latest, isLive⟩ := sound.leases.of_renew member renewed
    exact ⟨active, latest, (sound.mirrors lease.sessionId).live isLive⟩
  expires := fun _ _ _ isPass isRow expired => sound.expiresDead isPass isRow expired
  recorded := sound.recorded
  pending := sound.finalizing

/-- In every run that spares the turns that are being finalized, the sweeps end only
ingestion that is dead. -/
theorem endsOnlyDead_of_spares {startedAt : Millis} {labels : List IngestionStep}
    (spares : (ingestionSystem startedAt).EachStep Spares (ingestionSystem startedAt).init labels)
    (ran : (ingestionSystem startedAt).run labels = some world) : world.EndsOnlyDead := by
  have sound : world.Sound :=
    spares.invariant Sound (fun _ _ _ sound spared stepped => sound.step stepped spared) ran
      (.initial startedAt)
  exact sound.endsOnlyDead

end IngestionWorld

section Sample

def sampleIdentity : IngestionLeaseIdentity where
  turnId := "turn"
  attemptId := attemptIdFor "turn" 1
  providerSessionId := "provider session"

def ingestedTurn : List IngestionStep :=
  [.dispatch (.plain "create" "session" (.createSession (.plain "session") none)),
    .dispatch (.plain "start" "session" (.startTurn "turn" 0)),
    .dispatch (.plain "reserve" "session" (.reserveProviderSession
      { ownerAttempt := some { turnId := "turn", attemptId := attemptIdFor "turn" 1 }
        expectedModel := none, expectedWorktreeId := none, providerId := "codex"
        providerSessionId := "provider session", reservedAt := 0 })),
    .acquire "session" sampleIdentity "owner" ingestionLeaseMs 0]

def sweptTurn : List IngestionStep :=
  [.wait 31000, .sweep, .sweep, .select,
    .expireAttempt
      { sessionId := "session", identity := sampleIdentity, ownerId := "owner" }]

def finalizedTurn : List IngestionStep :=
  [.dispatch (.plain "again" "session" (.startTurn "next" 40000)),
    .dispatch (.plain "finalize" "session" (.finalizeTurn "next" .completed 41000)),
    .dispatch (.plain "settle" "session" (.settleTurn "next" .completed 42000))]

/-- One turn is swept, and the next one finalized and settled. -/
theorem endsOnlyDead_of_sweptTurn :
    ∃ world : IngestionWorld, (@ingestionSystem rejectingCodec 0).run
        (ingestedTurn ++ sweptTurn ++ finalizedTurn) = some world ∧
      world.rows = [] ∧ .turnSettled "next" .completed 42000 ∈ world.log "session" ∧
      @IngestionWorld.EndsOnlyDead rejectingCodec world := by
  have spares : (@ingestionSystem rejectingCodec 0).EachStep
      (@IngestionWorld.Spares rejectingCodec) (@ingestionSystem rejectingCodec 0).init
      (ingestedTurn ++ sweptTurn ++ finalizedTurn) := by
    decide +kernel
  have ran : (((@ingestionSystem rejectingCodec 0).run
      (ingestedTurn ++ sweptTurn ++ finalizedTurn)).any fun world =>
        world.rows = [] && .turnSettled "next" .completed 42000 ∈ world.log "session") = true := by
    decide +kernel
  obtain ⟨world, reached, facts⟩ := (Option.any_eq_true _ _).mp ran
  simp only [Bool.and_eq_true, decide_eq_true_eq] at facts
  exact ⟨world, reached, facts.1, facts.2,
    @IngestionWorld.endsOnlyDead_of_spares rejectingCodec world 0 _ spares reached⟩

/-- The lease is not renewed while the turn is being finalized, and the sweeper settles the
turn as failed although it was completed. -/
theorem not_endsOnlyDead :
    ¬ ∀ (startedAt : Millis) (labels : List IngestionStep) (world : IngestionWorld),
      (@ingestionSystem rejectingCodec startedAt).run labels = some world →
        @IngestionWorld.EndsOnlyDead rejectingCodec world := by
  intro claim
  have ran : (((@ingestionSystem rejectingCodec 0).run
      (ingestedTurn ++ .dispatch (.plain "finalize" "session"
        (.finalizeTurn "turn" .completed 1)) :: sweptTurn)).any fun world =>
      (world.log "session")[6]? = some (.turnSettled "turn" .error 31000) &&
        pendingOutcome "turn" ((world.log "session").take 6) = some .completed) = true := by
    decide +kernel
  obtain ⟨world, reached, settled⟩ := (Option.any_eq_true _ _).mp ran
  simp only [Bool.and_eq_true, decide_eq_true_eq] at settled
  have asRecorded := @IngestionWorld.EndsOnlyDead.recorded rejectingCodec world
    (claim 0 _ world reached) "session" 6 "turn" .error 31000 settled.1 .completed settled.2
  cases asRecorded

end Sample

end Zuse.Conversation
