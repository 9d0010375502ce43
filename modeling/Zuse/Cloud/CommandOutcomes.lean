import Zuse.Cloud.LaneExclusion

namespace Zuse.Cloud

open Zuse.Domain (Millis Number)
open Zuse.Data List Mailbox Option

/-! What the outcome of a command says about its life: whether a runtime ever had it,
which envelope it had, and that its acceptance is never taken back. -/

def MailboxCall.reserves (call : MailboxCall) : Option CloudCommandEnvelope :=
  match call.operation, call.response with
  | .request (.reserve envelope), some { body := .reserved _, status := _ } => some envelope
  | _, _ => none

def NeverLeased (calls : List MailboxCall) (commandId : CommandId) : Prop :=
  ∀ call ∈ calls, ∀ lease ∈ call.leases, lease.commandId ≠ some commandId

variable {row : MailboxCommand} {calls : List MailboxCall} {commandId : CommandId}

namespace Mailbox

variable [host : MailboxHost] {operation : MailboxOperation} {mailbox after : Mailbox}

def NoReserve (operation : MailboxOperation) : Prop :=
  ∀ envelope, operation ≠ .request (.reserve envelope)

omit host in
theorem alarm_noReserve : NoReserve .alarm := by
  rintro _ ⟨⟩

omit host in
theorem alarm_noLease : NoLease .alarm := by
  rintro _ _ ⟨⟩

theorem Edit.origin_old (edit : Edit operation mailbox after)
    (noReserve : NoReserve operation) (member : row ∈ after.commands) :
    ∃ stored ∈ mailbox.commands, row = stored ∨ RowEdit operation mailbox stored row := by
  cases edit with
  | insert now lane envelope request => exact absurd request (noReserve envelope)
  | rewrite set ids edits recorded =>
    rw [changedAll_commands] at member
    obtain ⟨stored, storedMember, rfl⟩ := mem_map.mp member
    exact ⟨stored, storedMember, edits stored storedMember⟩
  | configure same =>
    rw [same.commands] at member
    exact ⟨row, member, .inl rfl⟩
  | identify | generation | incarnation | fence | bump => exact ⟨row, member, .inl rfl⟩

/-- Every command that goes on has the envelope of a reservation of the history. -/
def ReservedIn (calls : List MailboxCall) (mailbox : Mailbox) : Prop :=
  ∀ row ∈ mailbox.commands, row.state.isTerminal = false →
    ∃ call ∈ calls, ∃ envelope, call.reserves = some envelope ∧
      row.envelope = some envelope ∧ row.envelopeBytes = host.envelopeBytes envelope

theorem ReservedIn.edits (reserved : ReservedIn calls mailbox)
    (sound : Sound mailbox) (edits : Edits operation mailbox after)
    (noReserve : NoReserve operation) : ReservedIn calls after := by
  refine (edits.preserves (fun reached => Sound reached ∧ ReservedIn calls reached) ?_
    ⟨sound, reserved⟩).2
  rintro reached next ⟨reachedSound, reachedReserved⟩ edit
  refine ⟨reachedSound.edit edit, ?_⟩
  intro row member ongoing
  obtain ⟨stored, storedMember, unchanged | rowEdit⟩ := edit.origin_old noReserve member
  · subst unchanged
    exact reachedReserved row storedMember ongoing
  · obtain ⟨started, sameEnvelope, sameBytes⟩ :=
      rowEdit.keeps_envelope (reachedSound.valid stored storedMember) ongoing
    rw [sameEnvelope, sameBytes]
    exact reachedReserved stored storedMember started

variable {calls : List MailboxCall}

theorem ReservedIn.mono {more : List MailboxCall} (reserved : ReservedIn calls mailbox)
    (sub : calls ⊆ more) : ReservedIn more mailbox := by
  intro row member ongoing
  obtain ⟨call, known, rest⟩ := reserved row member ongoing
  exact ⟨call, sub known, rest⟩

theorem Edit.identity (edit : Edit operation mailbox after) {identity : CommandIdentity}
    (known : mailbox.commandIdentities commandId = some identity ∧ commandId ∈ mailbox.commandIds) :
    after.commandIdentities commandId = some identity ∧ commandId ∈ after.commandIds := by
  obtain ⟨stored, isRow⟩ := known
  have kept : commandId ∈ after.commandIds := by
    obtain ⟨row, member, rfl⟩ := mem_map.mp isRow
    obtain ⟨edited, editedMember, unchanged | rowEdit⟩ := edit.image member
    · exact unchanged ▸ mem_map_of_mem editedMember
    · exact rowEdit.same.commandId ▸ mem_map_of_mem editedMember
  refine ⟨?_, kept⟩
  cases edit with
  | rewrite set ids edits recorded => rw [changedAll_commandIdentities]; exact stored
  | insert now lane envelope request inLane safe nonnegative fence absent room =>
    refine (if_neg ?_).trans stored
    rintro rfl
    exact command_eq_none.mp absent isRow
  | identify existing isStored other unknown =>
    refine (if_neg ?_).trans stored
    rintro rfl
    rw [unknown] at stored
    cases stored
  | configure same => rw [same.commandIdentities]; exact stored
  | generation | incarnation | fence | bump => exact stored

variable {commandId : CommandId} {identity : CommandIdentity}

theorem identity_of_history (sound : Sound mailbox) (history : History mailbox calls after)
    (known : mailbox.commandIdentities commandId = some identity ∧ commandId ∈ mailbox.commandIds) :
    after.commandIdentities commandId = some identity ∧ commandId ∈ after.commandIds :=
  (history.preserves (fun reached => Sound reached ∧
    (reached.commandIdentities commandId = some identity ∧ commandId ∈ reached.commandIds))
    (fun _ reached => reached.1.distinct)
    (fun _ _ _ reached edit => ⟨reached.1.edit edit, edit.identity reached.2⟩) ⟨sound, known⟩).2

def Accepted (commandId : CommandId) (mailbox : Mailbox) : Prop :=
  ∃ row ∈ mailbox.commands, row.commandId = commandId ∧ row.acceptedAt.isSome = true

omit host in
theorem RowEdit.accepted {before edited : MailboxCommand}
    (edit : RowEdit operation mailbox before edited)
    (accepted : before.acceptedAt.isSome = true) : edited.acceptedAt.isSome = true := by
  cases edit with
  | accept => rfl
  | _ => exact accepted

theorem Edit.accepted (edit : Edit operation mailbox after)
    (accepted : Accepted commandId mailbox) : Accepted commandId after := by
  obtain ⟨row, member, sameId, isAccepted⟩ := accepted
  obtain ⟨edited, editedMember, unchanged | rowEdit⟩ := edit.image member
  · exact ⟨edited, editedMember, unchanged ▸ sameId, unchanged ▸ isAccepted⟩
  · exact ⟨edited, editedMember, rowEdit.same.commandId.trans sameId,
      RowEdit.accepted rowEdit isAccepted⟩

theorem accepted_of_history (sound : Sound mailbox) (history : History mailbox calls after)
    (accepted : Accepted commandId mailbox) : Accepted commandId after :=
  (history.preserves (fun reached => Sound reached ∧ Accepted commandId reached)
    (fun _ reached => reached.1.distinct)
    (fun _ _ _ reached edit => ⟨reached.1.edit edit, edit.accepted reached.2⟩) ⟨sound, accepted⟩).2

variable {now : Millis}

theorem commit_accepted {blockedUntil : Option String}
    {delivery : Option MailboxWakeDelivery} (distinct : mailbox.commandIds.Nodup)
    (committed : (mailbox.commit now commandId blockedUntil delivery).1.status = 202) :
    Accepted commandId (mailbox.commit now commandId blockedUntil delivery).2 := by
  rw [commit] at committed ⊢
  split at committed
  · cases committed
  rename_i before found
  obtain ⟨stored, sameId⟩ := (command_eq_some distinct).mp found
  split at committed
  · cases committed
  rename_i delivered
  rw [if_neg delivered]
  split at committed
  · cases committed
  rename_i bound
  rw [if_neg bound]
  dsimp only at committed ⊢
  have committing : Edit .alarm mailbox (mailbox.commitReserved now before blockedUntil) :=
    commitReserved_edit distinct stored blockedUntil
  have arming : Edit .alarm (mailbox.commitReserved now before blockedUntil)
      ((mailbox.commitReserved now before blockedUntil).armWake now before delivery) :=
    armWake_edit before delivery
  split at committed
  · cases committed
  rename_i current isCurrent
  obtain ⟨row, member, rowId, isStatus⟩ :=
    status_eq_some (arming.distinct (committing.distinct distinct)) isCurrent
  rw [acceptanceOf] at committed
  split at committed
  · cases committed
  rename_i acceptedAt isAccepted
  rcases or_eq_some_iff.mp isAccepted with now | ⟨_, already⟩
  · refine ⟨row, member, rowId, ?_⟩
    rw [← isStatus] at now
    exact isSome_iff_exists.mpr ⟨acceptedAt, now⟩
  · refine arming.accepted (committing.accepted ⟨before, stored, sameId, ?_⟩)
    exact isSome_iff_exists.mpr ⟨acceptedAt, already⟩

omit host in
theorem sweep_cancelled (member : row ∈ (mailbox.sweep now).commands)
    (cancelled : row.state = .cancelled) :
    ∃ stored ∈ mailbox.commands, stored.commandId = row.commandId ∧
      (stored.state = .cancelled ∨ stored.state = .reserved) := by
  rw [sweep, expireLeases_eq] at member
  obtain ⟨ended, endedMember, isPurged⟩ := mem_map.mp member
  rw [changedAll_commands] at endedMember
  obtain ⟨checked, checkedMember, isEnded⟩ := mem_map.mp endedMember
  rw [expireReservations, changedAll_commands] at checkedMember
  obtain ⟨stored, storedMember, isChecked⟩ := mem_map.mp checkedMember
  have purged : row.commandId = ended.commandId ∧ row.state = ended.state := by
    rw [← isPurged]
    split <;> exact ⟨rfl, rfl⟩
  have kept : ended = checked := by
    split at isEnded
    · rw [purged.2, ← isEnded, leaseEnded] at cancelled
      split at cancelled <;> cases cancelled
    · exact isEnded.symm
  refine ⟨stored, storedMember, ?_⟩
  split at isChecked
  · rename_i expired
    refine ⟨?_, .inr (MailboxCommand.reserved_of_reservationExpired expired)⟩
    rw [purged.1, kept, ← isChecked]
    rfl
  · rw [purged.1, kept, ← isChecked]
    rw [purged.2, kept, ← isChecked] at cancelled
    exact ⟨rfl, .inl cancelled⟩

theorem Edits.everLeased (sound : Sound mailbox) (edits : Edits operation mailbox after)
    (noLease : NoLease operation) (member : row ∈ after.commands)
    (everLeased : row.everLeased = true) :
    ∃ stored ∈ mailbox.commands, stored.commandId = row.commandId ∧ stored.everLeased = true := by
  have traced := edits.preserves (fun reached => Sound reached ∧
    ∀ row ∈ reached.commands, row.everLeased = true → ∃ stored ∈ mailbox.commands,
      stored.commandId = row.commandId ∧ stored.everLeased = true) ?_
    ⟨sound, fun row member leased => ⟨row, member, rfl, leased⟩⟩
  · exact traced.2 row member everLeased
  rintro reached next ⟨reachedSound, reachedTraced⟩ edit
  have nextSound := reachedSound.edit edit
  refine ⟨nextSound, fun row member leased => ?_⟩
  rcases edit.origin member with ⟨stored, storedMember, unchanged | rowEdit⟩ | ⟨reserved, _⟩
  · subst unchanged
    exact reachedTraced row storedMember leased
  · have same : row.everLeased = stored.everLeased := by
      cases rowEdit with
      | lease now input tokens request => exact absurd request (noLease input tokens)
      | _ => rfl
    rw [rowEdit.same.commandId]
    exact reachedTraced stored storedMember (same.symm.trans leased)
  · have unleased := (nextSound.valid row member).leasing false (by rw [reserved]; rfl)
    rw [unleased] at leased
    cases leased

variable {envelope : CloudCommandEnvelope}

theorem reserveObserved_identity {lane : String}
    (known : mailbox.commandIdentities envelope.commandId = some identity ∧
      envelope.commandId ∈ mailbox.commandIds)
    (accepted : (mailbox.reserveObserved now lane envelope).1.ok = true) :
    identity = commandIdentity envelope := by
  rw [reserveObserved] at accepted
  split at accepted
  · split at accepted
    · cases accepted
    · rename_i same
      rw [comparableIdentity, known.1] at same
      exact some.inj (not_not.mp same)
  · rename_i absent
    exact absurd known.2 (command_eq_none.mp absent)

theorem reserve_identity {later : Millis} (distinct : mailbox.commandIds.Nodup)
    (known : mailbox.commandIdentities envelope.commandId = some identity ∧
      envelope.commandId ∈ mailbox.commandIds)
    (accepted : (mailbox.reserve now later envelope).1.ok = true) :
    identity = commandIdentity envelope := by
  rw [reserve] at accepted
  split at accepted
  · cases accepted
  split at accepted
  · cases accepted
  split at accepted
  · cases accepted
  split at accepted
  · cases accepted
  have observed : Edits .alarm mailbox
      (mailbox.observeDestructionFence now envelope.destructionFence) :=
    observeDestructionFence_edits now distinct _
  exact reserveObserved_identity (observed.preserves (fun reached =>
    reached.commandIdentities envelope.commandId = some identity ∧
      envelope.commandId ∈ reached.commandIds)
    (fun _ _ reached edit => edit.identity reached) known) accepted

end Mailbox

variable {mailbox : Mailbox}

section Calls

variable [host : MailboxHost] {call : MailboxCall}

/-- A call inserts the row that it reserves, or it inserts none. -/
inductive Reserving (call : MailboxCall) : Prop
  | none (operation : MailboxOperation) (empty : call.reserves = none)
      (noReserve : Mailbox.NoReserve operation)
      (edits : Mailbox.Edits operation call.before call.after)
  | insert (now : Millis) (lane : String) (envelope : CloudCommandEnvelope) (between : Mailbox)
      (edits : ∀ operation, Mailbox.Edits operation call.before between)
      (reservable : Mailbox.Reservable between lane envelope)
      (reserves : call.reserves = some envelope)
      (after : call.after = between.insertReserved now lane envelope)

theorem Performs.reserving (performs : Performs call)
    (distinct : call.before.commandIds.Nodup) : Reserving call := by
  have edits := performs.edits distinct
  cases performs with
  | request now later request before =>
    cases request with
    | reserve envelope =>
      rcases reserve_cases now later distinct envelope with
        ⟨notReserved, kept⟩ | ⟨lane, between, started, reservable, same⟩
      · refine .none .alarm ?_ alarm_noReserve (kept _)
        change MailboxCall.reserves ⟨_, some (before.reserve now later envelope).1, _, _⟩ = none
        generalize (before.reserve now later envelope).1 = response at notReserved
        obtain ⟨body, status⟩ := response
        cases body with
        | reserved sequence => exact absurd rfl (notReserved sequence)
        | _ => rfl
      refine .insert later lane envelope between started reservable ?_ ?_
      · change MailboxCall.reserves
          ⟨_, some (before.reserve now later envelope).1, _, _⟩ = some envelope
        rw [same]
        rfl
      · change (before.reserve now later envelope).2 = _
        rw [same]
    | _ => exact .none _ rfl (by rintro _ ⟨⟩) edits
  | _ => exact .none _ rfl (by rintro _ ⟨⟩) edits

/-- What the history says about the rows that it leads to. -/
structure OutcomeLog (calls : List MailboxCall) (mailbox : Mailbox) : Prop where
  reserved : Mailbox.ReservedIn calls mailbox
  leased : ∀ row ∈ mailbox.commands, row.everLeased = true → ¬NeverLeased calls row.commandId
  identities : ∀ call ∈ calls, ∀ envelope, call.reserves = some envelope →
    mailbox.commandIdentities envelope.commandId = some (commandIdentity envelope) ∧
      envelope.commandId ∈ mailbox.commandIds

variable {calls : List MailboxCall}

theorem OutcomeLog.append_reserved (log : OutcomeLog calls call.before)
    (sound : call.before.Sound) (reserving : Reserving call) :
    Mailbox.ReservedIn (calls ++ [call]) call.after := by
  have earlier := log.reserved.mono (subset_append_left calls [call])
  cases reserving with
  | none operation empty noReserve edits => exact earlier.edits sound edits noReserve
  | insert now lane envelope between edits reservable reserves after =>
    have kept := earlier.edits sound (edits .alarm) alarm_noReserve
    rw [after]
    intro row member ongoing
    rcases mem_concat.mp member with known | rfl
    · exact kept row known ongoing
    · exact ⟨call, mem_append_right _ (mem_singleton_self _), envelope, reserves, rfl, rfl⟩

omit host in
theorem NeverLeased.of_append
    (never : NeverLeased (calls ++ [call]) commandId) : NeverLeased calls commandId :=
  fun other member => never other (mem_append_left _ member)

theorem OutcomeLog.append_leased (log : OutcomeLog calls call.before)
    (sound : call.before.Sound) (leasing : Leasing call)
    (member : row ∈ call.after.commands) (everLeased : row.everLeased = true) :
    ¬NeverLeased (calls ++ [call]) row.commandId := by
  intro never
  have earlier {stored : MailboxCommand} (storedMember : stored ∈ call.before.commands)
      (sameId : stored.commandId = row.commandId) (leased : stored.everLeased = true) :
      False :=
    log.leased stored storedMember leased (sameId ▸ never.of_append)
  cases leasing with
  | none operation empty noLease edits =>
    obtain ⟨stored, storedMember, sameId, leased⟩ :=
      edits.everLeased sound noLease member everLeased
    exact earlier storedMember sameId leased
  | loop now input tokens between started leases after =>
    have betweenSound := started.sound sound
    rw [after] at member
    rcases betweenSound.row_of_leaseAll member with ⟨kept, _⟩ | ⟨candidate, listed, rfl⟩
    · obtain ⟨stored, storedMember, sameId, leased⟩ :=
        (started.edits .alarm).everLeased sound alarm_noLease kept everLeased
      exact earlier storedMember sameId leased
    have handedOut : candidate.runtimeLease now input (tokens candidate.commandId) ∈
        call.leases := by
      rw [leases, leaseAll_eq betweenSound.distinct]
      exact mem_map_of_mem listed
    exact never call (mem_append_right _ (mem_singleton_self _)) _ handedOut
      (betweenSound.candidate_commandId listed _)

theorem OutcomeLog.append_identities (log : OutcomeLog calls call.before)
    (performs : Performs call) (distinct : call.before.commandIds.Nodup)
    (reserving : Reserving call) :
    ∀ other ∈ calls ++ [call], ∀ envelope, other.reserves = some envelope →
      call.after.commandIdentities envelope.commandId = some (commandIdentity envelope) ∧
        envelope.commandId ∈ call.after.commandIds := by
  intro other member envelope reserves
  rcases mem_concat.mp member with known | isNew
  · exact (performs.edits distinct).preserves (fun reached =>
      reached.commandIdentities envelope.commandId = some (commandIdentity envelope) ∧
        envelope.commandId ∈ reached.commandIds)
      (fun _ _ reached edit => edit.identity reached) (log.identities other known _ reserves)
  rw [isNew] at reserves
  cases reserving with
  | none operation empty =>
    rw [empty] at reserves
    cases reserves
  | insert now lane inserted between edits reservable isInserted after =>
    rw [isInserted] at reserves
    cases reserves
    rw [after]
    refine ⟨if_pos rfl, ?_⟩
    exact mem_map.mpr ⟨_, mem_append_right _ (mem_singleton_self _), rfl⟩

theorem OutcomeLog.of_history
    (history : History Mailbox.empty calls mailbox) : OutcomeLog calls mailbox := by
  induction history with
  | start =>
    exact ⟨forall_mem_nil _, forall_mem_nil _, forall_mem_nil _⟩
  | call history performs ih =>
    have sound := Sound.of_history history
    have reserving := performs.reserving sound.distinct
    exact ⟨ih.append_reserved sound reserving,
      fun row => ih.append_leased sound (performs.leasing sound.distinct),
      ih.append_identities performs sound.distinct reserving⟩

theorem History.reservedOnce (history : History Mailbox.empty calls mailbox) :
    (calls.filterMap (·.reserves)).Pairwise fun first again =>
      first.commandId ≠ again.commandId := by
  induction history with
  | start => exact List.Pairwise.nil
  | @call calls call history performs ih =>
    have log := OutcomeLog.of_history history
    have distinct := (Sound.of_history history).distinct
    rw [filterMap_append]
    refine pairwise_append.mpr ⟨ih, pairwise_filterMap.mpr ?_, ?_⟩
    · exact pairwise_singleton _ _
    intro envelope known repeated isLast sameId
    obtain ⟨other, otherMember, reserved⟩ := mem_filterMap.mp known
    obtain ⟨last, lastMember, reservedLast⟩ := mem_filterMap.mp isLast
    rw [mem_singleton.mp lastMember] at reservedLast
    cases performs.reserving distinct with
    | none operation empty =>
      rw [empty] at reservedLast
      cases reservedLast
    | insert now lane inserted between edits reservable isInserted after =>
      rw [isInserted] at reservedLast
      cases reservedLast
      have stays := (edits .alarm).preserves (fun reached =>
        reached.commandIdentities envelope.commandId =
          some (commandIdentity envelope) ∧ envelope.commandId ∈ reached.commandIds)
        (fun _ _ reached edit => edit.identity reached)
        (log.identities other otherMember envelope reserved)
      exact command_eq_none.mp reservable.absent (sameId ▸ stays.2)

end Calls

namespace MailboxWorld

def envelopeBytes [host : MailboxHost] (world : MailboxWorld) : Nat :=
  world.mailbox.nonterminal.foldl
    (fun bytes row => bytes + (row.envelope.map host.envelopeBytes).getD 0) 0

structure Truthful [MailboxHost] (world : MailboxWorld) : Prop where
  cancelled : ∀ row ∈ world.mailbox.commands, row.state = .cancelled →
    NeverLeased world.calls row.commandId
  unleased : ∀ row ∈ world.mailbox.commands, NeverLeased world.calls row.commandId →
    row.state ≠ .applied ∧ row.state ≠ .rejected ∧ row.state ≠ .outcomeUnknown
  kept : ∀ row ∈ world.mailbox.commands, row.state.isTerminal = false →
    row.terminalAt = none ∧ ∃ call ∈ world.calls, ∃ envelope,
      call.reserves = some envelope ∧ envelope.commandId = row.commandId ∧
        row.envelope = some envelope
  carried : ∀ earlier call later, world.calls = earlier ++ call :: later →
    ∀ lease ∈ call.leases, ∃ reservation ∈ earlier, ∃ envelope,
      reservation.reserves = some envelope ∧ lease.command = some envelope
  sequences : (world.mailbox.commands.map (·.workspaceSequence)).Nodup
  reservedOnce : (world.calls.filterMap (·.reserves)).Pairwise fun first again =>
    first.commandId ≠ again.commandId
  identity : ∀ earlier first between again later,
    world.calls = earlier ++ first :: (between ++ again :: later) →
    ∀ envelope repeated, first.reserves = some envelope →
      again.operation = .request (.reserve repeated) →
      again.response.any (·.ok) = true → repeated.commandId = envelope.commandId →
      commandIdentity envelope = commandIdentity repeated
  count : world.mailbox.nonterminal.length ≤ maxNonterminal
  bytes : world.envelopeBytes ≤ maxMailboxBytes
  committed : ∀ earlier commit later, world.calls = earlier ++ commit :: later →
    ∀ commandId blockedUntil delivery,
      commit.operation = .request (.commit commandId blockedUntil delivery) →
      commit.response.any (·.status = 202) = true →
      ∀ call ∈ later, call.operation = .alarm →
        ∀ row ∈ call.after.commands, row.commandId = commandId → row.state = .cancelled →
          ∃ stored ∈ call.before.commands, stored.commandId = commandId ∧ stored.state = .cancelled

theorem envelopeBytes_eq [host : MailboxHost] (reserved : Mailbox.ReservedIn calls mailbox) :
    mailbox.nonterminal.foldl
        (fun bytes row => bytes + (row.envelope.map host.envelopeBytes).getD 0) 0 =
      mailbox.nonterminalBytes := by
  refine foldl_ext _ _ _ fun bytes row member => ?_
  obtain ⟨stored, ongoing⟩ := mem_nonterminal.mp member
  obtain ⟨_, _, envelope, _, isEnvelope, sameBytes⟩ := reserved row stored ongoing
  rw [isEnvelope, sameBytes]
  rfl

theorem truthful_of_reachable [host : MailboxHost] {world : MailboxWorld}
    (reachable : mailboxSystem.Reachable world) : world.Truthful := by
  have history := history_of_reachable reachable
  have sound := Sound.of_history history
  have log := OutcomeLog.of_history history
  constructor
  case cancelled =>
    intro row member isCancelled call callMember lease listed sameId
    obtain ⟨leased, leasedMember, leaseOf⟩ :=
      (LeaseLog.of_history history).covered call callMember lease listed
    have isRow : leased = row := eq_of_commandId sound.distinct leasedMember member
      (some.inj (leaseOf.commandId.symm.trans sameId))
    have never := (sound.valid row member).leasing false (by rw [isCancelled]; rfl)
    rw [← isRow, leaseOf.everLeased] at never
    cases never
  case unleased =>
    intro row member never
    have notLeased : row.everLeased ≠ true := fun leased => log.leased row member leased never
    have leasing := (sound.valid row member).leasing true
    refine ⟨?_, ?_, ?_⟩ <;> intro isState <;>
      exact notLeased (leasing (by rw [isState]; rfl))
  case kept =>
    intro row member ongoing
    obtain ⟨call, callMember, envelope, reserves, isEnvelope, _⟩ :=
      log.reserved row member ongoing
    exact ⟨((sound.valid row member).unended ongoing).1, call, callMember, envelope,
      reserves, sound.envelopes row member envelope isEnvelope, isEnvelope⟩
  case carried =>
    intro earlier call later split lease listed
    rw [split] at history
    obtain ⟨before, performs, _⟩ := history.at_call
    have beforeSound := Sound.of_history before
    cases performs.leasing beforeSound.distinct with
    | none operation empty => rw [empty] at listed; cases listed
    | loop now input tokens between started leases after =>
      have betweenSound := started.sound beforeSound
      rw [leases] at listed
      obtain ⟨row, candidate, _, rfl⟩ := betweenSound.lease_of_leaseAll listed
      obtain ⟨member, leasable, _⟩ := mem_leaseCandidates candidate
      have reserved := (OutcomeLog.of_history before).reserved.edits beforeSound
        (started.edits .alarm) alarm_noReserve
      obtain ⟨reservation, known, envelope, reserves, isEnvelope, _⟩ :=
        reserved row member (MailboxCommand.not_terminal_of_isPending
          (MailboxCommand.isPending_of_isLeasable leasable))
      exact ⟨reservation, known, envelope, reserves, isEnvelope⟩
  case sequences => exact sound.sequences_distinct
  case reservedOnce => exact history.reservedOnce
  case identity =>
    intro earlier first between again later split envelope repeated reserves isReserve
      accepted sameId
    rw [split] at history
    obtain ⟨before, performsFirst, rest⟩ := history.at_call
    obtain ⟨middle, performsAgain, _⟩ := rest.at_call
    have firstLog := OutcomeLog.of_history (before.call performsFirst)
    have firstSound := Sound.of_history (before.call performsFirst)
    have known := identity_of_history firstSound middle (firstLog.identities first
      (mem_append_right _ (mem_singleton_self _)) envelope reserves)
    have againSound := firstSound.history middle
    rw [← sameId] at known
    cases performsAgain with
    | request now laterNow request tables =>
      cases isReserve
      exact reserve_identity againSound.distinct known accepted
    | _ => cases isReserve
  case count => exact sound.count
  case bytes =>
    rw [envelopeBytes, envelopeBytes_eq log.reserved]
    exact sound.bytes
  case committed =>
    intro earlier commit later split commandId blockedUntil delivery isCommit answered call
      callMember isAlarm row member sameId isCancelled
    rw [split] at history
    obtain ⟨before, performsCommit, rest⟩ := history.at_call
    have beforeSound := Sound.of_history before
    have accepted : Accepted commandId commit.after := by
      cases performsCommit with
      | request now laterNow request tables =>
        cases isCommit
        exact commit_accepted beforeSound.distinct (of_decide_eq_true answered)
      | _ => cases isCommit
    have commitSound := beforeSound.performs performsCommit
    obtain ⟨middle, final, laterSplit⟩ := append_of_mem callMember
    rw [laterSplit] at rest
    obtain ⟨toCall, performsCall, _⟩ := rest.at_call
    have callSound := commitSound.history toCall
    obtain ⟨acceptedRow, acceptedMember, acceptedId, isAccepted⟩ :=
      accepted_of_history commitSound toCall accepted
    have swept (now : Millis) (sweptMember : row ∈ (call.before.sweep now).commands) :
        ∃ stored ∈ call.before.commands, stored.commandId = commandId ∧
          stored.state = .cancelled := by
      obtain ⟨stored, storedMember, storedId, state⟩ :=
        sweep_cancelled sweptMember isCancelled
      refine ⟨stored, storedMember, storedId.trans sameId, state.resolve_right ?_⟩
      intro reserved
      have isRow : stored = acceptedRow := eq_of_commandId callSound.distinct
        storedMember acceptedMember (storedId.trans (sameId.trans acceptedId.symm))
      rw [← isRow, (callSound.valid stored storedMember).unaccepted reserved] at isAccepted
      cases isAccepted
    cases performsCall with
    | alarm now tables => exact swept now member
    | alarmUnbound now laterNow revision tables =>
      refine swept now ?_
      rw [wakeFailed] at member
      split at member <;> exact member
    | _ => cases isAlarm

def settledCommands : List MailboxStep :=
  let request (instant : Millis) (request : MailboxRequest) : MailboxStep :=
    .request (.at instant) request
  [request 1 (.reserve (plainEnvelope "sent" 0)),
    request 2 (.commit "sent" none (some plainDelivery)),
    request 3 (.reserve (plainEnvelope "dropped" 0)),
    request 4 (.commit "dropped" none (some plainDelivery)),
    request 5 (.cancel "dropped" "user"),
    request 6 (.reserve (plainEnvelope "left" 0)),
    request 7 (.lease (plainLease 1) fun commandId => commandId),
    request 8 (.acknowledge
      { commandId := "sent", leaseToken := "sent", fingerprint := "sent", state := .applied,
        category := none, resultIv := none, resultCiphertext := none }),
    .alarm (.at 60006)]

theorem truthful_of_settledCommands :
    ∃ world, (@mailboxSystem plainHost).run settledCommands = some world ∧
      world.mailbox.commands.map (·.state) = [.applied, .cancelled, .cancelled] ∧
      @Truthful plainHost world := by
  have ran : ((@mailboxSystem plainHost).run settledCommands).map (fun world =>
      Decidable.decide
        (world.mailbox.commands.map (·.state) = [.applied, .cancelled, .cancelled])) =
      some true := by
    decide +kernel
  obtain ⟨world, reached, observed⟩ := map_eq_some_iff.mp ran
  exact ⟨world, reached, of_decide_eq_true observed,
    @truthful_of_reachable plainHost world (TransitionSystem.run_reachable reached)⟩

end MailboxWorld

end Zuse.Cloud
