import Zuse.Cloud.MailboxInvariants

namespace Zuse.Cloud

open Zuse.Domain (Millis Number)
open Zuse.Data List Mailbox MailboxCommand Option

/-! Lanes and leases over a whole run: a lane has one holder at a time, a later lease of a
command is fenced from the earlier ones, and only the outstanding lease settles it. -/

def RuntimeLease.commandId (lease : RuntimeLease) : Option CommandId :=
  lease.command.map (·.commandId)

def ResponseBody.leaseList : ResponseBody → List RuntimeLease
  | .leases listed _ _ _ _ => listed
  | _ => []

def MailboxCall.leases (call : MailboxCall) : List RuntimeLease :=
  match call.operation with
  | .request (.lease _ _) => (call.response.map (·.body.leaseList)).getD []
  | _ => []

/-- A reservation is refused before its destruction fence is observed. -/
def ResponseBody.refusesFence (body : ResponseBody) : Bool :=
  body = .code "cloud-command-not-eligible" ∨ body = .code "command-envelope-too-large" ∨
    body = .code "command-destruction-fence-invalid" ∨
    body = .code "command-destruction-fence-stale"

/-- A lease request is refused before its destruction fence is observed. -/
def ResponseBody.refusesLease : ResponseBody → Bool
  | .leases _ fenced _ _ _ => fenced
  | _ => true

def MailboxCall.acceptedFence (call : MailboxCall) : Option Number :=
  match call.operation, call.response with
  | .request (.reserve envelope), some response =>
    if response.body.refusesFence then none else some envelope.destructionFence
  | .request (.lease input _), some response =>
    if response.body.refusesLease then none else some input.destructionFence
  | .request (.lifecycle _ destructionFence), some response =>
    if response.body = .lifecycle false false then destructionFence else none
  | _, _ => none

/-- The command was leased with the token, it was not leased again, and every call since
has left it held with that token. -/
def OutstandingLease (calls : List MailboxCall) (commandId : CommandId)
    (token : LeaseToken) : Prop :=
  ∃ earlier leasing later, calls = earlier ++ leasing :: later ∧
    (∃ lease ∈ leasing.leases, lease.commandId = some commandId ∧ lease.leaseToken = token) ∧
    ∀ call ∈ later, (∀ lease ∈ call.leases, lease.commandId ≠ some commandId) ∧
      ∃ row ∈ call.after.commands, row.commandId = commandId ∧
        row.state.isHeld = true ∧ row.leaseToken = some token

variable {lease : RuntimeLease}

theorem OutstandingLease.start {calls : List MailboxCall} {call : MailboxCall}
    {commandId : CommandId} (listed : lease ∈ call.leases)
    (sameId : lease.commandId = some commandId) :
    OutstandingLease (calls ++ [call]) commandId lease.leaseToken :=
  ⟨calls, call, [], rfl, ⟨lease, listed, sameId, rfl⟩, forall_mem_nil _⟩

theorem OutstandingLease.extend {calls : List MailboxCall} {call : MailboxCall}
    {commandId : CommandId} {token : LeaseToken}
    (outstanding : OutstandingLease calls commandId token)
    (notLeased : ∀ lease ∈ call.leases, lease.commandId ≠ some commandId)
    (held : ∃ row ∈ call.after.commands, row.commandId = commandId ∧
      row.state.isHeld = true ∧ row.leaseToken = some token) :
    OutstandingLease (calls ++ [call]) commandId token := by
  obtain ⟨earlier, leasing, later, split, leased, since⟩ := outstanding
  refine ⟨earlier, leasing, later ++ [call], ?_, leased, ?_⟩
  · rw [split, append_assoc, cons_append]
  intro other member
  rcases mem_concat.mp member with known | rfl
  · exact since other known
  · exact ⟨notLeased, held⟩

variable {fence : Number} {tokens : CommandId → LeaseToken}

namespace Mailbox

variable {operation : MailboxOperation} {mailbox after : Mailbox}

/-- The lease was made from the row, and while the command goes on a later one has the
same storage and no older generation. -/
structure LeaseOf (lease : RuntimeLease) (row : MailboxCommand) : Prop where
  commandId : lease.commandId = some row.commandId
  everLeased : row.everLeased = true
  fenced : row.state.isTerminal = false →
    (∃ generation, row.runtimeGeneration = some generation ∧ lease.runtimeGeneration ≤ generation) ∧
    row.storageIncarnationId = some lease.storageIncarnationId

variable {row : MailboxCommand}

theorem LeaseOf.edit {edited : MailboxCommand}
    (leaseOf : LeaseOf lease row) (sound : Sound mailbox) (member : row ∈ mailbox.commands)
    (edit : RowEdit operation mailbox row edited) : LeaseOf lease edited := by
  refine ⟨edit.same.commandId.symm ▸ leaseOf.commandId, ?_, ?_⟩
  · cases edit with
    | lease => rfl
    | _ => exact leaseOf.everLeased
  intro ongoing
  have started := (edit.keeps_envelope (sound.valid row member) ongoing).1
  obtain ⟨⟨generation, isGeneration, le⟩, incarnation⟩ := leaseOf.fenced started
  cases edit with
  | lease now input tokens request leasable first current sameIncarnation =>
    have leased := sound.leased row member started leaseOf.everLeased
    obtain ⟨stored, isStored, known, isKnown, storedLe, _⟩ := leased.generation
    rw [isGeneration] at isStored
    cases isStored
    rw [current] at isKnown
    cases isKnown
    refine ⟨⟨_, rfl, le.trans storedLe⟩, ?_⟩
    rw [← incarnation, leased.incarnation, sameIncarnation]
    rfl
  | _ => exact ⟨⟨generation, isGeneration, le⟩, incarnation⟩

variable {row : MailboxCommand} {input : LeaseInput}

theorem LeaseOf.superseded (leaseOf : LeaseOf lease row)
    (sound : Sound mailbox) (member : row ∈ mailbox.commands)
    (leasable : row.state.isLeasable = true)
    (current : mailbox.runtimeGeneration = some input.runtimeGeneration)
    (incarnation : mailbox.storageIncarnation = some input.storageIncarnationId) :
    lease.storageIncarnationId = input.storageIncarnationId ∧
      lease.runtimeGeneration < input.runtimeGeneration := by
  have pending := isPending_of_isLeasable leasable
  have ongoing := not_terminal_of_isPending pending
  obtain ⟨⟨generation, isGeneration, le⟩, sameIncarnation⟩ := leaseOf.fenced ongoing
  have leased := sound.leased row member ongoing leaseOf.everLeased
  obtain ⟨stored, isStored, known, isKnown, _, older⟩ := leased.generation
  have notHeld : row.state.isHeld = false := by
    cases state : row.state <;> rw [state] at pending <;> first | rfl | cases pending
  rw [isGeneration] at isStored
  cases isStored
  rw [current] at isKnown
  cases isKnown
  refine ⟨some.inj ?_, lt_of_le_of_lt le (older notHeld)⟩
  rw [← sameIncarnation, leased.incarnation, incarnation]

section LeaseLoop

variable {now : Millis} {input : LeaseInput} {tokens : CommandId → LeaseToken}
  {row : MailboxCommand}

variable (sound : Sound mailbox)
include sound

theorem Sound.candidate_commandId (candidate : row ∈ mailbox.leaseCandidates) (token : LeaseToken) :
    (row.runtimeLease now input token).commandId = some row.commandId := by
  obtain ⟨member, leasable, _⟩ := mem_leaseCandidates candidate
  have ongoing := not_terminal_of_isPending (isPending_of_isLeasable leasable)
  obtain ⟨envelope, isEnvelope⟩ :=
    isSome_iff_exists.mp ((sound.valid row member).unended ongoing).2
  rw [RuntimeLease.commandId, runtimeLease, isEnvelope, map_some,
    sound.envelopes row member envelope isEnvelope]

theorem Sound.lease_of_leaseAll (listed : lease ∈ (mailbox.leaseAll now input tokens).1) :
    ∃ row ∈ mailbox.leaseCandidates, lease.commandId = some row.commandId ∧
      lease = row.runtimeLease now input (tokens row.commandId) := by
  rw [leaseAll_eq sound.distinct] at listed
  obtain ⟨row, candidate, rfl⟩ := mem_map.mp listed
  exact ⟨row, candidate, sound.candidate_commandId candidate _, rfl⟩

theorem Sound.row_of_leaseAll (member : row ∈ (mailbox.leaseAll now input tokens).2.commands) :
    (row ∈ mailbox.commands ∧ row.commandId ∉ mailbox.leaseCandidates.map (·.commandId)) ∨
      ∃ stored ∈ mailbox.leaseCandidates, row = leasedRow now input tokens stored := by
  rw [leaseAll_eq sound.distinct, changedAll_commands] at member
  obtain ⟨stored, storedMember, rfl⟩ := mem_map.mp member
  rw [setAll]
  split
  · rename_i listed
    obtain ⟨candidate, isCandidate, sameId⟩ := mem_map.mp listed
    cases eq_of_commandId sound.distinct (mem_leaseCandidates isCandidate).1 storedMember sameId
    exact .inr ⟨stored, isCandidate, rfl⟩
  · rename_i unlisted
    exact .inl ⟨storedMember, unlisted⟩

theorem Sound.leased_mem_leaseAll (candidate : row ∈ mailbox.leaseCandidates) :
    leasedRow now input tokens row ∈ (mailbox.leaseAll now input tokens).2.commands := by
  rw [leaseAll_eq sound.distinct, changedAll_commands]
  refine mem_map.mpr ⟨row, (mem_leaseCandidates candidate).1, ?_⟩
  rw [setAll, if_pos (mem_map_of_mem candidate)]

theorem Sound.leaseAll_first (candidate : row ∈ mailbox.leaseCandidates) {prior : MailboxCommand}
    (member : prior ∈ (mailbox.leaseAll now input tokens).2.commands)
    (sameLane : prior.lane = row.lane) (earlier : prior.workspaceSequence < row.workspaceSequence) :
    prior.state.isTerminal = true := by
  have first := isFirstInLane_iff.mp (mem_leaseCandidates candidate).2.2
  rcases sound.row_of_leaseAll member with ⟨stored, _⟩ | ⟨stored, isCandidate, rfl⟩
  · exact first prior stored sameLane earlier
  obtain ⟨storedMember, leasable, _⟩ := mem_leaseCandidates isCandidate
  have ended := first stored storedMember sameLane earlier
  rw [not_terminal_of_isPending (isPending_of_isLeasable leasable)] at ended
  cases ended

theorem Sound.leaseOf_leaseAll (listed : lease ∈ (mailbox.leaseAll now input tokens).1) :
    ∃ row ∈ (mailbox.leaseAll now input tokens).2.commands, LeaseOf lease row := by
  obtain ⟨row, candidate, sameId, rfl⟩ := sound.lease_of_leaseAll listed
  exact ⟨_, sound.leased_mem_leaseAll candidate, sameId, rfl, fun _ => ⟨⟨_, rfl, le_refl _⟩, rfl⟩⟩

end LeaseLoop

theorem Sound.candidate_fence (sound : Sound mailbox) (candidate : row ∈ mailbox.leaseCandidates)
    (isFence : mailbox.destructionFence = some fence) :
    ∃ envelope, row.envelope = some envelope ∧ fence ≤ envelope.destructionFence := by
  obtain ⟨member, leasable, _⟩ := mem_leaseCandidates candidate
  have ongoing := not_terminal_of_isPending (isPending_of_isLeasable leasable)
  obtain ⟨envelope, isEnvelope⟩ :=
    isSome_iff_exists.mp ((sound.valid row member).unended ongoing).2
  refine ⟨envelope, isEnvelope, ?_⟩
  rcases sound.fences row member ongoing fence isFence with above | ⟨leased, _⟩
  · rw [belowFence, envelopeFence, isEnvelope] at above
    simp only [map_some] at above
    rw [Option.filter] at above
    split at above
    · simpa using above
    · cases above
  · rw [leased] at leasable
    cases leasable

variable {now : Millis}

theorem lifecycle_fence {action : LifecycleAction}
    (processed : (mailbox.lifecycle now action (some fence)).1.body = .lifecycle false false) :
    ∃ current,
      (mailbox.lifecycle now action (some fence)).2.destructionFence = some current ∧
        fence ≤ current := by
  rw [lifecycle] at processed ⊢
  split at processed
  · cases processed
  rename_i valid
  rw [if_neg valid]
  split at processed
  · cases processed
  rename_i fresh
  rw [if_neg fresh]
  split at processed
  · cases processed
  rename_i accepted
  rw [if_neg accepted]
  refine ⟨fence, ?_, le_refl _⟩
  exact terminalize_frame (·.destructionFence) (fun _ _ _ => rfl) fun _ _ => rfl

def NoLease (operation : MailboxOperation) : Prop :=
  ∀ input tokens, operation ≠ .request (.lease input tokens)

variable [MailboxHost]

theorem Edit.held (edit : Edit operation mailbox after) (noLease : NoLease operation)
    (member : row ∈ after.commands) (held : row.state.isHeld = true) :
    ∃ stored ∈ mailbox.commands, stored.commandId = row.commandId ∧
      stored.state.isHeld = true ∧ stored.leaseToken = row.leaseToken := by
  rcases edit.origin member with ⟨stored, storedMember, unchanged | rowEdit⟩ | ⟨reserved, _⟩
  · exact ⟨stored, storedMember, unchanged ▸ rfl, unchanged ▸ held, unchanged ▸ rfl⟩
  · refine ⟨stored, storedMember, rowEdit.same.commandId.symm, ?_⟩
    cases rowEdit with
    | keepLease now category leased | awaitFence now leased => exact ⟨by rw [leased]; rfl, rfl⟩
    | lease now input tokens request => exact absurd request (noLease input tokens)
    | purge ended => exact ⟨held, rfl⟩
    | accept now blockedUntil => cases blockedUntil <;> cases held
    | acknowledge now ack =>
      obtain ⟨_, _, _, state, _⟩ := ack
      cases state <;> cases held
    | _ => cases held
  · rw [reserved] at held
    cases held

theorem Edits.held (edits : Edits operation mailbox after) (noLease : NoLease operation)
    (member : row ∈ after.commands) (held : row.state.isHeld = true) :
    ∃ stored ∈ mailbox.commands, stored.commandId = row.commandId ∧
      stored.state.isHeld = true ∧ stored.leaseToken = row.leaseToken := by
  induction edits generalizing row with
  | refl => exact ⟨row, member, rfl, held, rfl⟩
  | tail _ edit ih =>
    obtain ⟨between, betweenMember, sameId, betweenHeld, sameToken⟩ :=
      edit.held noLease member held
    obtain ⟨stored, storedMember, storedId, storedHeld, storedToken⟩ :=
      ih betweenMember betweenHeld
    exact ⟨stored, storedMember, storedId.trans sameId, storedHeld, storedToken.trans sameToken⟩

theorem Edits.leaseOf (sound : Sound mailbox) (edits : Edits operation mailbox after)
    (covered : ∃ row ∈ mailbox.commands, LeaseOf lease row) :
    ∃ row ∈ after.commands, LeaseOf lease row := by
  refine (edits.preserves (fun reached => Sound reached ∧
    ∃ row ∈ reached.commands, LeaseOf lease row) ?_ ⟨sound, covered⟩).2
  rintro reached next ⟨reachedSound, row, member, leaseOf⟩ edit
  refine ⟨reachedSound.edit edit, ?_⟩
  obtain ⟨edited, editedMember, unchanged | rowEdit⟩ := edit.image member
  · exact ⟨edited, editedMember, unchanged ▸ leaseOf⟩
  · exact ⟨edited, editedMember, leaseOf.edit reachedSound member rowEdit⟩

/-- A command that a call with an acknowledgment ends is settled by its outstanding lease,
or a destruction fence had come and the time of its lease was over. -/
theorem acknowledge_settles (distinct : mailbox.commandIds.Nodup)
    {ack : RuntimeAcknowledgment} {settled : MailboxCommand}
    (member : row ∈ mailbox.commands) (ongoing : row.state.isTerminal = false)
    (settledMember : settled ∈ (mailbox.acknowledge now ack).2.commands)
    (sameId : settled.commandId = row.commandId) (ended : settled.state.isTerminal = true) :
    (row.isDestructive = true ∧ row.leaseExpired now = true ∧
        settled = row.terminate now .outcomeUnknown row.category) ∨
      row.commandId = ack.commandId ∧ row.fingerprint = ack.fingerprint ∧
        row.state.isHeld = true ∧ row.leaseToken = some ack.leaseToken := by
  obtain ⟨expiredRow, isExpiredRow⟩ : ∃ expiredRow, expiredRow =
    if row.leaseExpired now then leaseEnded now row else row := ⟨_, rfl⟩
  have expiredMember : expiredRow ∈ (mailbox.expireLeases now).commands := by
    rw [expireLeases_eq, changedAll_commands]
    exact mem_map.mpr ⟨row, member, isExpiredRow.symm⟩
  have expiredDistinct : (mailbox.expireLeases now).commandIds.Nodup :=
    (expireLeases_edit .alarm mailbox now).distinct distinct
  have expiredId : expiredRow.commandId = row.commandId := by
    rw [isExpiredRow, leaseEnded]
    split
    · split <;> rfl
    · rfl
  have ofExpired : expiredRow.state.isTerminal = true →
      row.isDestructive = true ∧ row.leaseExpired now = true ∧
        expiredRow = row.terminate now .outcomeUnknown row.category := by
    intro expiredEnded
    rw [isExpiredRow, leaseEnded] at expiredEnded
    split at expiredEnded
    · rename_i expired
      split at expiredEnded
      · rename_i destructive
        rw [isExpiredRow, if_pos expired, leaseEnded, if_pos destructive]
        exact ⟨destructive, expired, rfl⟩
      · cases expiredEnded
    · rw [ongoing] at expiredEnded
      cases expiredEnded
  rw [acknowledge] at settledMember
  rcases acknowledgeExpired_cases now expiredDistinct ack with
    unchanged | ⟨found, foundMember, foundId, fingerprint, accepted, updated⟩
  · rw [unchanged] at settledMember
    cases eq_of_commandId expiredDistinct settledMember expiredMember (sameId.trans expiredId.symm)
    exact .inl (ofExpired ended)
  rw [updated] at settledMember
  obtain ⟨stored, storedMember, isSettled⟩ := mem_map.mp settledMember
  split at isSettled
  · rename_i isAck
    have storedId := of_decide_eq_true isAck
    subst isSettled
    cases eq_of_commandId expiredDistinct storedMember foundMember (storedId.trans foundId.symm)
    cases eq_of_commandId expiredDistinct foundMember expiredMember (sameId.trans expiredId.symm)
    obtain ⟨held, sameToken⟩ := isHeld_of_accepts accepted
    refine .inr ⟨expiredId.symm.trans foundId, ?_⟩
    rw [isExpiredRow, leaseEnded] at fingerprint held sameToken
    split at held
    · rename_i expired
      have leased := leased_of_leaseExpired expired
      split at held
      · cases held
      · rename_i ordinary
        rw [if_pos expired, if_neg ordinary] at fingerprint sameToken
        exact ⟨fingerprint, by rw [leased]; rfl, sameToken⟩
    · rename_i notExpired
      rw [if_neg notExpired] at fingerprint sameToken
      exact ⟨fingerprint, held, sameToken⟩
  · subst isSettled
    cases eq_of_commandId expiredDistinct storedMember expiredMember (sameId.trans expiredId.symm)
    exact .inl (ofExpired ended)

theorem reserveObserved_destructionFence (now : Millis) (lane : String)
    (envelope : CloudCommandEnvelope) :
    (mailbox.reserveObserved now lane envelope).2.destructionFence = mailbox.destructionFence := by
  rw [reserveObserved]
  split
  · split
    · rfl
    · split <;> rfl
  · split <;> rfl

variable {later : Millis}

theorem reserve_fence {envelope : CloudCommandEnvelope}
    (accepted : (mailbox.reserve now later envelope).1.body.refusesFence = false) :
    ∃ current, (mailbox.reserve now later envelope).2.destructionFence = some current ∧
      envelope.destructionFence ≤ current := by
  rw [reserve] at accepted ⊢
  split at accepted
  · cases accepted
  split at accepted
  · cases accepted
  rename_i fits
  split at accepted
  · cases accepted
  rename_i valid
  split at accepted
  · cases accepted
  · rename_i fresh
    simp only [if_neg fits, if_neg valid, if_neg fresh]
    rw [reserveObserved_destructionFence]
    exact le_observeDestructionFence mailbox now envelope.destructionFence

theorem leaseCurrent_fence (distinct : mailbox.commandIds.Nodup)
    (current : mailbox.runtimeGeneration = some input.runtimeGeneration)
    (fence : ∃ destructionFence, mailbox.destructionFence = some destructionFence ∧
      input.destructionFence ≤ destructionFence) :
    ∃ destructionFence,
      (mailbox.leaseCurrent now input tokens).2.destructionFence = some destructionFence ∧
        input.destructionFence ≤ destructionFence := by
  rcases leaseCurrent_cases now tokens current fence with
    ⟨_, kept⟩ | ⟨between, started, same⟩
  · obtain ⟨destructionFence, isFence, le⟩ := fence
    obtain ⟨higher, isHigher, higherLe⟩ := (kept .alarm).fence_mono isFence
    exact ⟨higher, isHigher, le.trans higherLe⟩
  · rw [same, leaseAll_eq ((started.edits .alarm).distinct distinct)]
    simp only [changedAll_destructionFence]
    exact started.fence

theorem lease_fence (distinct : mailbox.commandIds.Nodup)
    (accepted : (mailbox.lease now later input tokens).1.body.refusesLease = false) :
    ∃ current, (mailbox.lease now later input tokens).2.destructionFence = some current ∧
      input.destructionFence ≤ current := by
  rw [lease] at accepted ⊢
  split at accepted
  · cases accepted
  rename_i valid
  rw [if_neg valid]
  dsimp only at accepted ⊢
  split at accepted
  · cases accepted
  rename_i notOlder
  rw [if_neg notOlder]
  split at accepted
  · cases accepted
  rename_i fresh
  rw [if_neg fresh]
  refine leaseCurrent_fence ?_ ?_ (le_observeDestructionFence _ _ _)
  · have expired := expireLeases_edit .alarm mailbox now
    have observed := Edits.trans (.single expired) (observeGeneration_edits input.runtimeGeneration)
    exact ((observed.trans (observeDestructionFence_edits later
      (observed.distinct distinct) input.destructionFence))).distinct distinct
  · rw [observeDestructionFence_frame (·.runtimeGeneration) (fun _ _ _ => rfl)
      (fun _ _ => rfl) fun _ _ => rfl]
    exact observeGeneration_eq notOlder

end Mailbox

section Calls

variable [MailboxHost] {call : MailboxCall}

inductive Leasing (call : MailboxCall) : Prop
  | none (operation : MailboxOperation) (empty : call.leases = [])
      (noLease : Mailbox.NoLease operation) (edits : Mailbox.Edits operation call.before call.after)
  | loop (now : Millis) (input : LeaseInput) (tokens : CommandId → LeaseToken)
      (between : Mailbox) (started : Mailbox.LeasesFrom call.before between input)
      (leases : call.leases = (between.leaseAll now input tokens).1)
      (after : call.after = (between.leaseAll now input tokens).2)

theorem Performs.leasing (performs : Performs call)
    (distinct : call.before.commandIds.Nodup) : Leasing call := by
  have edits := performs.edits distinct
  cases performs with
  | request now later request before =>
    cases request with
    | lease input tokens =>
      rcases lease_cases now later distinct input tokens with
        ⟨empty, kept⟩ | ⟨between, started, same⟩
      · refine .none .alarm ?_ (by rintro _ _ ⟨⟩) (kept _)
        change ResponseBody.leaseList (before.lease now later input tokens).1.body = []
        generalize (before.lease now later input tokens).1 = response at empty
        obtain ⟨body, status⟩ := response
        cases body with
        | leases listed fenced count revision fenceRequired =>
          exact empty _ _ _ _ _ rfl
        | _ => rfl
      refine .loop now input tokens between started ?_ ?_
      · change ResponseBody.leaseList (before.lease now later input tokens).1.body = _
        rw [same]
        rfl
      · change (before.lease now later input tokens).2 = _
        rw [same]
    | _ => exact .none _ rfl (by rintro _ _ ⟨⟩) edits
  | alarm | alarmUnbound | delivered | failed => exact .none _ rfl (by rintro _ _ ⟨⟩) edits

variable {between : Mailbox} {input : LeaseInput}

theorem Mailbox.LeasesFrom.sound {before : Mailbox}
    (started : Mailbox.LeasesFrom before between input) (sound : before.Sound) : between.Sound :=
  sound.edits (started.edits .alarm)

/-- A later lease of the same command is on the same storage, for a newer runtime. -/
def Supersedes (earlier later : RuntimeLease) : Prop :=
  earlier.commandId = later.commandId →
    earlier.storageIncarnationId = later.storageIncarnationId ∧
      earlier.runtimeGeneration < later.runtimeGeneration

structure LeaseLog (calls : List MailboxCall) (mailbox : Mailbox) : Prop where
  covered : ∀ call ∈ calls, ∀ lease ∈ call.leases,
    ∃ row ∈ mailbox.commands, Mailbox.LeaseOf lease row
  outstanding : ∀ row ∈ mailbox.commands, row.state.isHeld = true →
    ∀ token, row.leaseToken = some token → OutstandingLease calls row.commandId token
  supersedes : (calls.flatMap (·.leases)).Pairwise Supersedes

variable {calls : List MailboxCall}

section

variable (log : LeaseLog calls call.before) (sound : call.before.Sound)
include log sound

theorem LeaseLog.call_none {operation : MailboxOperation} (empty : call.leases = [])
    (noLease : Mailbox.NoLease operation) (edits : Mailbox.Edits operation call.before call.after) :
    LeaseLog (calls ++ [call]) call.after where
  covered := by
    intro other member lease listed
    rcases mem_concat.mp member with known | rfl
    · exact edits.leaseOf sound (log.covered other known lease listed)
    · rw [empty] at listed
      cases listed
  outstanding := by
    intro row member held token isToken
    obtain ⟨stored, storedMember, sameId, storedHeld, sameToken⟩ :=
      edits.held noLease member held
    have outstanding := log.outstanding stored storedMember storedHeld token
      (sameToken.trans isToken)
    rw [sameId] at outstanding
    refine outstanding.extend ?_ ⟨row, member, rfl, held, isToken⟩
    rw [empty]
    exact forall_mem_nil _
  supersedes := by
    rw [flatMap_append, flatMap_singleton, empty, append_nil]
    exact log.supersedes

theorem LeaseLog.call_loop {now : Millis} (started : Mailbox.LeasesFrom call.before between input)
    (leases : call.leases = (between.leaseAll now input tokens).1)
    (after : call.after = (between.leaseAll now input tokens).2)
    (edits : Mailbox.Edits call.operation call.before call.after) :
    LeaseLog (calls ++ [call]) call.after where
  covered := by
    intro other member lease listed
    rcases mem_concat.mp member with known | rfl
    · exact edits.leaseOf sound (log.covered other known lease listed)
    · rw [leases] at listed
      rw [after]
      exact (started.sound sound).leaseOf_leaseAll listed
  outstanding := by
    have betweenSound := started.sound sound
    intro row member held token isToken
    have rowMember := member
    rw [after] at member
    rcases betweenSound.row_of_leaseAll member with ⟨kept, unlisted⟩ | ⟨stored, candidate, rfl⟩
    · obtain ⟨stored, storedMember, sameId, storedHeld, sameToken⟩ :=
        (started.edits .alarm).held (by rintro _ _ ⟨⟩) kept held
      have outstanding := log.outstanding stored storedMember storedHeld token
        (sameToken.trans isToken)
      rw [sameId] at outstanding
      refine outstanding.extend ?_ ⟨row, rowMember, rfl, held, isToken⟩
      intro lease listed
      rw [leases] at listed
      obtain ⟨other, candidate, otherId, _⟩ := betweenSound.lease_of_leaseAll listed
      rw [otherId]
      intro same
      exact unlisted (some.inj same ▸ mem_map_of_mem candidate)
    · cases isToken
      have listed : stored.runtimeLease now input (tokens stored.commandId) ∈ call.leases := by
        rw [leases, leaseAll_eq betweenSound.distinct]
        exact mem_map_of_mem candidate
      exact OutstandingLease.start listed (betweenSound.candidate_commandId candidate _)
  supersedes := by
    have betweenSound := started.sound sound
    rw [flatMap_append, flatMap_singleton, pairwise_append]
    refine ⟨log.supersedes, ?_, ?_⟩
    · rw [leases, leaseAll_eq betweenSound.distinct, pairwise_map]
      have distinct := pairwise_map.mp (leaseCandidates_distinct betweenSound.distinct)
      refine distinct.imp_of_mem fun leftCandidate rightCandidate differ same => ?_
      rw [betweenSound.candidate_commandId leftCandidate,
        betweenSound.candidate_commandId rightCandidate] at same
      exact absurd (some.inj same) differ
    intro earlier earlierListed later laterListed same
    obtain ⟨other, otherMember, otherListed⟩ := mem_flatMap.mp earlierListed
    obtain ⟨row, rowMember, leaseOf⟩ := (started.edits .alarm).leaseOf sound
      (log.covered other otherMember earlier otherListed)
    rw [leases] at laterListed
    obtain ⟨stored, candidate, laterId, rfl⟩ := betweenSound.lease_of_leaseAll laterListed
    obtain ⟨storedMember, leasable, _⟩ := mem_leaseCandidates candidate
    rw [leaseOf.commandId, laterId] at same
    cases eq_of_commandId betweenSound.distinct rowMember storedMember (some.inj same)
    exact leaseOf.superseded betweenSound storedMember leasable started.current started.incarnation

theorem LeaseLog.append (performs : Performs call) : LeaseLog (calls ++ [call]) call.after := by
  cases performs.leasing sound.distinct with
  | none operation empty noLease edits => exact log.call_none sound empty noLease edits
  | loop now input tokens between started leases after =>
    exact log.call_loop sound started leases after (performs.edits sound.distinct)

end

variable {mailbox : Mailbox}

theorem LeaseLog.of_history
    (history : History Mailbox.empty calls mailbox) : LeaseLog calls mailbox := by
  induction history with
  | start => exact ⟨forall_mem_nil _, forall_mem_nil _, List.Pairwise.nil⟩
  | call history performs ih => exact ih.append (Sound.of_history history) performs

theorem Performs.acceptedFence (performs : Performs call) (distinct : call.before.commandIds.Nodup)
    (accepted : call.acceptedFence = some fence) :
    ∃ current, call.after.destructionFence = some current ∧ fence ≤ current := by
  cases performs with
  | request now later request before =>
    cases request with
    | reserve envelope =>
      simp only [MailboxCall.acceptedFence] at accepted
      split at accepted
      · cases accepted
      · rename_i taken
        cases accepted
        exact reserve_fence (Bool.eq_false_iff.mpr taken)
    | lease input tokens =>
      simp only [MailboxCall.acceptedFence] at accepted
      split at accepted
      · cases accepted
      · rename_i taken
        cases accepted
        exact lease_fence distinct (Bool.eq_false_iff.mpr taken)
    | lifecycle action destructionFence =>
      simp only [MailboxCall.acceptedFence] at accepted
      split at accepted
      · rename_i processed
        subst accepted
        exact lifecycle_fence processed
      · cases accepted
    | _ => cases accepted
  | _ => cases accepted

def FenceLog (calls : List MailboxCall) (mailbox : Mailbox) : Prop :=
  ∀ call ∈ calls, ∀ fence, call.acceptedFence = some fence →
    ∃ current, mailbox.destructionFence = some current ∧ fence ≤ current

theorem FenceLog.of_history
    (history : History Mailbox.empty calls mailbox) : FenceLog calls mailbox := by
  induction history with
  | start => exact forall_mem_nil _
  | call history performs ih =>
    have distinct := (Sound.of_history history).distinct
    intro other member fence accepted
    rcases mem_concat.mp member with known | isNew
    · obtain ⟨current, isCurrent, le⟩ := ih other known fence accepted
      obtain ⟨higher, isHigher, higherLe⟩ :=
        (performs.edits distinct).fence_mono isCurrent
      exact ⟨higher, isHigher, le.trans higherLe⟩
    · rw [isNew] at accepted
      exact performs.acceptedFence distinct accepted

end Calls

namespace MailboxWorld

structure LaneSafe (world : MailboxWorld) : Prop where
  oneHeld : ∀ left ∈ world.mailbox.commands, ∀ right ∈ world.mailbox.commands,
    left.lane = right.lane → left.state.isHeld = true → right.state.isHeld = true →
    left = right
  inLaneOrder : ∀ call ∈ world.calls, ∀ lease ∈ call.leases,
    ∃ row ∈ call.after.commands, lease.commandId = some row.commandId ∧
      row.workspaceSequence = lease.workspaceSequence ∧ row.state = .leased ∧
      row.leaseToken = some lease.leaseToken ∧
      ∀ prior ∈ call.after.commands, prior.lane = row.lane →
        prior.workspaceSequence < row.workspaceSequence → prior.state.isTerminal = true
  supersedes : (world.calls.flatMap (·.leases)).Pairwise Supersedes
  fenced : ∀ earlier call later, world.calls = earlier ++ call :: later →
    ∀ lease ∈ call.leases, ∀ other ∈ earlier ++ [call], ∀ fence, other.acceptedFence = some fence →
      ∃ envelope, lease.command = some envelope ∧ fence ≤ envelope.destructionFence
  settles : ∀ earlier call later, world.calls = earlier ++ call :: later →
    ∀ ack, call.operation = .request (.acknowledge ack) →
    ∀ row ∈ call.before.commands, ∀ settled ∈ call.after.commands,
      settled.commandId = row.commandId → row.state.isTerminal = false →
      settled.state.isTerminal = true →
      (row.isDestructive = true ∧ ∃ now, row.leaseExpired now = true ∧
          settled = row.terminate now .outcomeUnknown row.category) ∨
        row.commandId = ack.commandId ∧ row.fingerprint = ack.fingerprint ∧
          OutstandingLease earlier ack.commandId ack.leaseToken
  absorbing : ∀ earlier call later, world.calls = earlier ++ call :: later →
    ∀ row ∈ call.after.commands, row.state.isTerminal = true →
      ∃ last ∈ world.mailbox.commands, last.commandId = row.commandId ∧ last.state = row.state

theorem laneSafe_of_reachable [MailboxHost] {world : MailboxWorld}
    (reachable : mailboxSystem.Reachable world) :
    world.LaneSafe := by
  have history := history_of_reachable reachable
  have sound := Sound.of_history history
  constructor
  case oneHeld =>
    intro left leftMember right rightMember
    exact sound.eq_of_held leftMember rightMember
  case inLaneOrder =>
    intro call member lease listed
    obtain ⟨earlier, later, split⟩ := append_of_mem member
    rw [split] at history
    obtain ⟨before, performs, _⟩ := history.at_call
    have beforeSound := Sound.of_history before
    cases performs.leasing beforeSound.distinct with
    | none operation empty => rw [empty] at listed; cases listed
    | loop now input tokens between started leases after =>
      have betweenSound := started.sound beforeSound
      rw [leases] at listed
      obtain ⟨row, candidate, sameId, rfl⟩ := betweenSound.lease_of_leaseAll listed
      rw [after]
      exact ⟨_, betweenSound.leased_mem_leaseAll candidate, sameId, rfl, rfl, rfl,
        fun prior => betweenSound.leaseAll_first candidate⟩
  case supersedes => exact (LeaseLog.of_history history).supersedes
  case fenced =>
    intro earlier call later split lease listed other otherMember fence accepted
    rw [split] at history
    obtain ⟨before, performs, _⟩ := history.at_call
    have beforeSound := Sound.of_history before
    obtain ⟨current, isCurrent, le⟩ := FenceLog.of_history (before.call performs) other
      otherMember fence accepted
    cases performs.leasing beforeSound.distinct with
    | none operation empty => rw [empty] at listed; cases listed
    | loop now input tokens between started leases after =>
      have betweenSound := started.sound beforeSound
      rw [leases] at listed
      obtain ⟨row, candidate, _, rfl⟩ := betweenSound.lease_of_leaseAll listed
      rw [after, leaseAll_eq betweenSound.distinct] at isCurrent
      simp only [changedAll_destructionFence] at isCurrent
      obtain ⟨envelope, isEnvelope, above⟩ :=
        betweenSound.candidate_fence candidate isCurrent
      exact ⟨envelope, isEnvelope, le.trans above⟩
  case settles =>
    intro earlier call later split ack isAck row member settled settledMember sameId ongoing ended
    rw [split] at history
    obtain ⟨before, performs, _⟩ := history.at_call
    have beforeSound := Sound.of_history before
    have log := LeaseLog.of_history before
    cases performs with
    | request now laterNow request tables =>
      cases isAck
      rcases acknowledge_settles beforeSound.distinct member ongoing settledMember
        sameId ended with ⟨destructive, expired, same⟩ | ⟨isRow, fingerprint, held, token⟩
      · exact .inl ⟨destructive, now, expired, same⟩
      · refine .inr ⟨isRow, fingerprint, ?_⟩
        rw [← isRow]
        exact log.outstanding row member held ack.leaseToken token
    | _ => cases isAck
  case absorbing =>
    intro earlier call later split row member ended
    rw [split] at history
    obtain ⟨before, performs, after⟩ := history.at_call
    exact absorbing_of_history ((Sound.of_history before).performs performs) after member ended

def fencedRuntime : List MailboxStep :=
  let reserve (instant : Millis) (commandId : CommandId) : List MailboxStep :=
    [.request (.at instant) (.reserve (plainEnvelope commandId 0)),
      .request (.at instant) (.commit commandId none (some plainDelivery))]
  let lease (instant : Millis) (generation : Number) (token : LeaseToken) : MailboxStep :=
    .request (.at instant) (.lease (plainLease generation) fun _ => token)
  let ack (instant : Millis) (token : LeaseToken) : MailboxStep :=
    .request (.at instant) (.acknowledge
      { commandId := "first", leaseToken := token, fingerprint := "first", state := .applied,
        category := none, resultIv := none, resultCiphertext := none })
  reserve 1 "first" ++ reserve 2 "second" ++
    [lease 3 1 "slow", .alarm (.at 40000), lease 40001 1 "same", lease 40002 2 "fast",
      .wakeSettled (.at 40003) ⟨2, 5⟩ true, ack 40004 "slow", ack 40005 "fast",
      lease 40006 2 "next"]

theorem laneSafe_of_fencedRuntime :
    ∃ world, (@mailboxSystem plainHost).run fencedRuntime = some world ∧
      world.mailbox.commands.map (·.state) = [.applied, .leased] ∧
      (world.calls.flatMap (·.leases)).map (·.leaseToken) = ["slow", "fast", "next"] ∧
      world.LaneSafe := by
  have ran : ((@mailboxSystem plainHost).run fencedRuntime).map (fun world =>
      Decidable.decide (world.mailbox.commands.map (·.state) = [.applied, .leased]) &&
        Decidable.decide ((world.calls.flatMap (·.leases)).map (·.leaseToken) =
          ["slow", "fast", "next"])) = some true := by
    decide +kernel
  obtain ⟨world, reached, observed⟩ := map_eq_some_iff.mp ran
  obtain ⟨states, tokens⟩ := Bool.and_eq_true_iff.mp observed
  exact ⟨world, reached, of_decide_eq_true states, of_decide_eq_true tokens,
    @laneSafe_of_reachable plainHost world (TransitionSystem.run_reachable reached)⟩

end MailboxWorld

end Zuse.Cloud
