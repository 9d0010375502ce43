import Zuse.Cloud.MailboxInvariants

namespace Zuse.Cloud

open Zuse.Domain (Millis Number)
open Zuse.Data List Decidable Mailbox

/-! The wake of the runtime: its revision is not delivered until a dispatch that started
after it was raised succeeds, and the alarm is set in time for the next deadline. -/

variable {row : MailboxCommand} {now : Millis}

namespace Mailbox

variable {mailbox before after : Mailbox} {operation : MailboxOperation}

structure WakeProgress (operation : MailboxOperation) (before after : Mailbox) : Prop where
  sequence : before.wakeSequence ≤ after.wakeSequence
  revision :
    (after.wakeSequence = before.wakeSequence ∧ after.wakeRevision = before.wakeRevision ∧
      after.wakeWorkspaceId = before.wakeWorkspaceId ∧
      after.wakeAccountId = before.wakeAccountId) ∨
    ∃ raised, after.wakeRevision = some raised ∧ before.wakeSequence < raised ∧
      raised ≤ after.wakeSequence
  delivered : after.wakeDeliveredRevision = before.wakeDeliveredRevision ∨
    ∃ dispatch, operation = .wakeSettled dispatch true ∧
      after.wakeDeliveredRevision = some dispatch.revision

theorem WakeProgress.refl : WakeProgress operation mailbox mailbox where
  sequence := le_refl _
  revision := .inl ⟨rfl, rfl, rfl, rfl⟩
  delivered := .inl rfl

variable {between : Mailbox}

theorem WakeProgress.tail (progress : WakeProgress operation before between)
    (edit : WakeEdit operation between after) : WakeProgress operation before after := by
  constructor
  case sequence =>
    rcases edit.revision with ⟨same, _⟩ | ⟨next, _⟩
    · exact same ▸ progress.sequence
    · exact next ▸ Nat.le_succ_of_le progress.sequence
  case revision =>
    rcases edit.revision with ⟨sameSequence, sameRevision, sameWorkspace, sameAccount⟩ |
      ⟨next, raised⟩
    · rw [sameSequence, sameRevision, sameWorkspace, sameAccount]
      exact progress.revision
    · exact .inr ⟨_, raised, Nat.lt_succ_of_le progress.sequence, le_of_eq next.symm⟩
  case delivered =>
    rcases edit.delivered with same | delivered
    · rw [same]
      exact progress.delivered
    · exact .inr delivered

section Edits

variable [MailboxHost]

theorem Edit.wake (edit : Edit operation mailbox after) : WakeEdit operation mailbox after := by
  cases edit with
  | rewrite set ids =>
    have kept {α : Type} (read : Mailbox → α)
        (changed : ∀ mailbox commandId, read (mailbox.changed commandId) = read mailbox)
        (rewritten : read (mailbox.rewrite set) = read mailbox) :
        read ((mailbox.rewrite set).changedAll ids) = read mailbox :=
      (changedAll_frame _ ids read changed).trans rewritten
    exact ⟨.inl ⟨kept _ (fun _ _ => rfl) rfl, kept _ (fun _ _ => rfl) rfl,
      kept _ (fun _ _ => rfl) rfl, kept _ (fun _ _ => rfl) rfl⟩,
      .inl (kept _ (fun _ _ => rfl) rfl)⟩
  | configure same wake => exact wake
  | insert | identify | generation | incarnation | fence | bump =>
    exact ⟨.inl ⟨rfl, rfl, rfl, rfl⟩, .inl rfl⟩

theorem Edits.wake (edits : Edits operation mailbox after) :
    WakeProgress operation mailbox after :=
  edits.preserves (WakeProgress operation mailbox)
    (fun _ _ progress edit => progress.tail edit.wake) .refl

end Edits

/-- The wake has a revision above those of the tables before. -/
def Raises (before after : Mailbox) : Prop :=
  ∃ raised, after.wakeRevision = some raised ∧ before.wakeSequence < raised

theorem Raises.of_eq (raises : Raises between after)
    (same : between.wakeSequence = before.wakeSequence) : Raises before after := by
  obtain ⟨raised, isRaised, above⟩ := raises
  exact ⟨raised, isRaised, same ▸ above⟩

theorem armWake_raises (now : Millis) (delivery : MailboxWakeDelivery)
    (reserved : row.state = .reserved) :
    Raises mailbox (mailbox.armWake now row (some delivery)) := by
  simp only [armWake, reserved, true_or, if_true]
  exact ⟨mailbox.wakeSequence + 1, rfl, Nat.lt_succ_self _⟩

variable {later : Millis}

theorem rearmWake_raises (armed : mailbox.wakeRevision.isSome = true) :
    Raises mailbox (mailbox.rearmWake later) := by
  rw [rearmWake, if_neg (by rw [Option.isNone_eq_false_iff.mpr armed]; exact Bool.noConfusion)]
  exact ⟨mailbox.wakeSequence + 1, rfl, Nat.lt_succ_self _⟩

/-- The tables have another row of the command's id, in another state. -/
def Leaves (state : CloudCommandState) (before after : Mailbox) : Prop :=
  ∃ row ∈ before.commands, row.state = state ∧
    ∃ next ∈ after.commands, next.commandId = row.commandId ∧ next.state ≠ state

theorem not_leaves_self (distinct : mailbox.commandIds.Nodup) (state : CloudCommandState) :
    ¬Leaves state mailbox mailbox := by
  rintro ⟨row, member, isState, next, nextMember, sameId, differs⟩
  exact differs (eq_of_commandId distinct nextMember member sameId ▸ isState)

theorem commitReserved_wakeSequence (mailbox : Mailbox) (now : Millis)
    (row : MailboxCommand) (blockedUntil : Option String) :
    (mailbox.commitReserved now row blockedUntil).wakeSequence = mailbox.wakeSequence := by
  rw [commitReserved]
  split <;> rfl

variable [MailboxHost] {blockedUntil : Option String}

theorem commit_raises {commandId : CommandId} {delivery : MailboxWakeDelivery}
    (stored : mailbox.command commandId = some row) (reserved : row.state = .reserved)
    (accepted : (mailbox.commit now commandId blockedUntil (some delivery)).1.status = 202) :
    Raises mailbox (mailbox.commit now commandId blockedUntil (some delivery)).2 := by
  rw [commit, stored] at accepted ⊢
  dsimp only at accepted ⊢
  split at accepted
  · cases accepted
  rename_i delivered
  rw [if_neg delivered]
  split at accepted
  · cases accepted
  rename_i bound
  rw [if_neg bound]
  have raises := (armWake_raises now delivery reserved).of_eq
    (commitReserved_wakeSequence mailbox now row blockedUntil)
  split <;> exact raises

omit [MailboxHost] in
theorem unblockOne_wake (mailbox : Mailbox) (now : Millis) (commandId : CommandId) :
    (mailbox.unblockOne now commandId).wakeSequence = mailbox.wakeSequence ∧
      (mailbox.unblockOne now commandId).wakeRevision = mailbox.wakeRevision :=
  ⟨rfl, rfl⟩

omit [MailboxHost] in
theorem unblockAll_raises (distinct : mailbox.commandIds.Nodup)
    (armed : mailbox.wakeRevision.isSome = true)
    (unblocked : Leaves .blocked mailbox (mailbox.unblockAll now later blockedUntil).2) :
    Raises mailbox (mailbox.unblockAll now later blockedUntil).2 := by
  have loop (ids : List CommandId) : ∀ mailbox : Mailbox,
      (ids.foldl (fun mailbox commandId => mailbox.unblockOne now commandId)
        mailbox).wakeSequence = mailbox.wakeSequence ∧
      (ids.foldl (fun mailbox commandId => mailbox.unblockOne now commandId)
        mailbox).wakeRevision = mailbox.wakeRevision := by
    induction ids with
    | nil => exact fun _ => ⟨rfl, rfl⟩
    | cons head rest ih => exact fun mailbox => ih (mailbox.unblockOne now head)
  rw [unblockAll] at unblocked ⊢
  split
  · obtain ⟨sameSequence, sameRevision⟩ := loop ((bySequence (mailbox.commands.filter
      fun row => row.state = .blocked && blockedUntil.all fun reason =>
        row.blockedUntil = some reason)).map (·.commandId)) mailbox
    exact (rearmWake_raises (sameRevision ▸ armed)).of_eq sameSequence
  · rename_i nothing
    rw [length_eq_zero_iff.mp (Nat.eq_zero_of_not_pos nothing)] at unblocked
    exact absurd unblocked (not_leaves_self distinct .blocked)

omit [MailboxHost] in
theorem unblock_raises {commandId : Option CommandId}
    (distinct : mailbox.commandIds.Nodup) (armed : mailbox.wakeRevision.isSome = true)
    (unblocked : Leaves .blocked mailbox (mailbox.unblock now later commandId blockedUntil).2) :
    Raises mailbox (mailbox.unblock now later commandId blockedUntil).2 := by
  cases commandId with
  | none => exact unblockAll_raises distinct armed unblocked
  | some commandId =>
    have unchanged := not_leaves_self distinct .blocked
    simp only [unblock, unblockCommand] at unblocked ⊢
    split at unblocked
    · exact absurd unblocked unchanged
    split at unblocked
    · exact absurd unblocked unchanged
    rename_i blocked
    rw [if_neg blocked]
    split at unblocked
    · exact absurd unblocked unchanged
    rename_i matching
    rw [if_neg matching]
    have raises : Raises (mailbox.unblockOne now commandId)
        ((mailbox.unblockOne now commandId).rearmWake later) :=
      rearmWake_raises armed
    exact raises.of_eq (unblockOne_wake mailbox now commandId).1

/-- The tables number their wakes, and a bound mailbox has one. -/
structure WakeSound (mailbox : Mailbox) : Prop where
  revision : ∀ current, mailbox.wakeRevision = some current → current ≤ mailbox.wakeSequence
  delivered : ∀ current, mailbox.wakeDeliveredRevision = some current →
    current ≤ mailbox.wakeSequence
  bound : mailbox.wakeBound = true → mailbox.wakeRevision.isSome = true

omit [MailboxHost] in
theorem WakeSound.progress (sound : WakeSound before)
    (progress : WakeProgress operation before after)
    (settles : ∀ dispatch, operation = .wakeSettled dispatch true →
      dispatch.revision ≤ before.wakeSequence) : WakeSound after := by
  constructor
  case revision =>
    intro current isCurrent
    rcases progress.revision with ⟨sameSequence, sameRevision, _⟩ | ⟨raised, isRaised, _, le⟩
    · rw [sameSequence]
      exact sound.revision current (sameRevision ▸ isCurrent)
    · rw [isRaised] at isCurrent
      cases isCurrent
      exact le
  case delivered =>
    intro current isCurrent
    refine le_trans ?_ progress.sequence
    rcases progress.delivered with same | ⟨dispatch, isSettled, isDelivered⟩
    · exact sound.delivered current (same ▸ isCurrent)
    · rw [isDelivered] at isCurrent
      cases isCurrent
      exact settles dispatch isSettled
  case bound =>
    intro bound
    rcases progress.revision with ⟨_, sameRevision, sameWorkspace, sameAccount⟩ |
      ⟨raised, isRaised, _⟩
    · rw [wakeBound, sameWorkspace, sameAccount] at bound
      rw [sameRevision]
      exact sound.bound bound
    · rw [isRaised]
      rfl

end Mailbox

/-- A commit that accepts a reserved command with a delivery binding, or an unblock of at
least one command while a binding exists. -/
inductive ArmsWake (call : MailboxCall) : Prop
  | commit (commandId : CommandId) (blockedUntil : Option String)
      (delivery : MailboxWakeDelivery) (row : MailboxCommand)
      (operation : call.operation = .request (.commit commandId blockedUntil (some delivery)))
      (stored : call.before.command commandId = some row) (reserved : row.state = .reserved)
      (accepted : call.response.any (·.status = 202) = true)
  | unblock (commandId : Option CommandId) (blockedUntil : Option String)
      (operation : call.operation = .request (.unblock commandId blockedUntil))
      (bound : call.before.wakeBound = true)
      (unblocked : Mailbox.Leaves .blocked call.before call.after)

variable {call : MailboxCall} {world : MailboxWorld}

section Steps

variable [MailboxHost]

theorem Performs.raises (performs : Performs call)
    (distinct : call.before.commandIds.Nodup) (sound : call.before.WakeSound)
    (arms : ArmsWake call) : Mailbox.Raises call.before call.after := by
  cases performs with
  | request now later request before =>
    cases arms with
    | commit commandId blockedUntil delivery row operation stored reserved accepted =>
      cases operation
      exact commit_raises stored reserved (of_decide_eq_true accepted)
    | unblock commandId blockedUntil operation bound unblocked =>
      cases operation
      exact unblock_raises distinct (sound.bound bound) unblocked
  | _ =>
    cases arms with
    | commit commandId blockedUntil delivery row operation
    | unblock commandId blockedUntil operation => cases operation

/-- How a step moves the dispatches that are not answered. -/
structure Dispatches (world next : MailboxWorld) (call : MailboxCall) : Prop where
  started : ∀ dispatch ∈ next.dispatches, dispatch ∈ world.dispatches ∨
    call.operation = .alarm ∧ dispatch.startedAt = world.calls.length ∧
      next.mailbox.wakeRevision = some dispatch.revision
  settled : ∀ dispatch succeeded, call.operation = .wakeSettled dispatch succeeded →
    dispatch ∈ world.dispatches

theorem MailboxWorld.step_dispatches {next : MailboxWorld} {label : MailboxStep}
    (stepped : world.step label = some next)
    (calls : next.calls = world.calls ++ [call]) : Dispatches world next call := by
  have only {other : MailboxCall} (same : next.calls = world.calls ++ [other]) : call = other := by
    rw [calls] at same
    exact singleton_injective (append_cancel_left same)
  cases label with
  | request clock request =>
    rw [step] at stepped
    split at stepped
    · cases stepped
      have first : (world.scheduleFirst clock request).calls = world.calls ∧
          (world.scheduleFirst clock request).dispatches = world.dispatches := by
        rw [scheduleFirst]
        split <;> exact ⟨rfl, rfl⟩
      have kept : (world.handle clock request).dispatches = world.dispatches ∧
          ∃ other, (world.handle clock request).calls = world.calls ++ [other] ∧
            other.operation = .request request := by
        rw [handle]
        split <;> refine ⟨first.2, _, congrArg (· ++ _) first.1, rfl⟩
      obtain ⟨same, other, appended, isRequest⟩ := kept
      refine ⟨fun dispatch member => .inl (same ▸ member), ?_⟩
      intro dispatch succeeded isSettled
      rw [only appended, isRequest] at isSettled
      cases isSettled
    · cases stepped
  | alarm clock =>
    rw [step] at stepped
    split at stepped
    · cases stepped
      have isAlarm {response : Option Response} {before after : Mailbox}
          (same : call = ⟨.alarm, response, before, after⟩) : call.operation = .alarm :=
        congrArg MailboxCall.operation same
      have notSettled (alarm : call.operation = .alarm) : ∀ dispatch succeeded,
          call.operation = .wakeSettled dispatch succeeded → dispatch ∈ world.dispatches := by
        intro dispatch succeeded isSettled
        rw [alarm] at isSettled
        cases isSettled
      simp only [runAlarm] at only ⊢
      split at only
      · exact ⟨fun dispatch member => .inl member, notSettled (isAlarm (only rfl))⟩
      · rename_i revision due
        by_cases bound : (world.mailbox.sweep clock.now).wakeBound = true
        · simp only [if_pos bound] at only ⊢
          refine ⟨?_, notSettled (isAlarm (only rfl))⟩
          intro dispatch member
          rcases mem_concat.mp member with old | rfl
          · exact .inl old
          · refine .inr ⟨isAlarm (only rfl), rfl, ?_⟩
            rw [wakeDue] at due
            split at due
            · exact due
            · cases due
        · simp only [if_neg bound] at only ⊢
          exact ⟨fun dispatch member => .inl member, notSettled (isAlarm (only rfl))⟩
    · cases stepped
  | wakeSettled clock settling succeeded =>
    rw [step] at stepped
    split at stepped
    · rename_i enabled
      cases stepped
      refine ⟨fun dispatch member => .inl (mem_of_mem_erase member), ?_⟩
      intro dispatch success isSettled
      rw [only rfl] at isSettled
      cases isSettled
      exact enabled.2
    · cases stepped

end Steps

variable {earlier : List MailboxCall}

namespace MailboxWorld

structure WakeSound (world : MailboxWorld) : Prop where
  distinct : world.mailbox.commandIds.Nodup
  mailbox : world.mailbox.WakeSound
  dispatches : ∀ dispatch ∈ world.dispatches,
    dispatch.revision ≤ world.mailbox.wakeSequence ∧ dispatch.startedAt < world.calls.length

/-- A dispatch that started after the call succeeded, or the wake is still raised. -/
def Owes (world : MailboxWorld) (position : Nat) (later : List MailboxCall) : Prop :=
  (∃ settled ∈ later, ∃ dispatch, settled.operation = .wakeSettled dispatch true ∧
    position < dispatch.startedAt) ∨
  ∃ raised current, world.mailbox.wakeRevision = some current ∧ raised ≤ current ∧
    (∀ delivered, world.mailbox.wakeDeliveredRevision = some delivered → delivered < raised) ∧
    ∀ dispatch ∈ world.dispatches, dispatch.startedAt ≤ position → dispatch.revision < raised

variable {later : List MailboxCall}

theorem Owes.undelivered {position : Nat} (owes : world.Owes position later) :
    world.mailbox.wakeRevision ≠ world.mailbox.wakeDeliveredRevision ∨
      ∃ settled ∈ later, ∃ dispatch, settled.operation = .wakeSettled dispatch true ∧
        position < dispatch.startedAt := by
  rcases owes with settled | ⟨raised, current, isCurrent, above, delivered, _⟩
  · exact .inr settled
  · refine .inl fun same => ?_
    have below := delivered current (same ▸ isCurrent)
    exact absurd above (not_le.mpr below)

variable [MailboxHost] {world next : MailboxWorld} {call : MailboxCall}

theorem WakeSound.step (sound : world.WakeSound) (performs : Performs call)
    (before : call.before = world.mailbox) (after : call.after = next.mailbox)
    (calls : next.calls = world.calls ++ [call]) (dispatches : Dispatches world next call) :
    next.WakeSound := by
  have edits := performs.edits (before.symm ▸ sound.distinct)
  rw [before, after] at edits
  have progress := edits.wake
  have settles (dispatch : WakeDispatch) (settled : call.operation = .wakeSettled dispatch true) :
      dispatch.revision ≤ world.mailbox.wakeSequence :=
    (sound.dispatches dispatch (dispatches.settled dispatch true settled)).1
  have nextSound := sound.mailbox.progress progress settles
  refine ⟨edits.distinct sound.distinct, nextSound, ?_⟩
  intro dispatch member
  rw [calls, length_append]
  rcases dispatches.started dispatch member with old | ⟨_, startedAt, isCurrent⟩
  · obtain ⟨bounded, started⟩ := sound.dispatches dispatch old
    exact ⟨bounded.trans progress.sequence, Nat.lt_succ_of_lt started⟩
  · exact ⟨nextSound.revision dispatch.revision isCurrent, startedAt ▸ Nat.lt_succ_self _⟩

theorem WakeSound.raises (sound : world.WakeSound) (performs : Performs call)
    (before : call.before = world.mailbox) (after : call.after = next.mailbox)
    (dispatches : Dispatches world next call) (arms : ArmsWake call) :
    next.Owes world.calls.length [] := by
  obtain ⟨raised, isRaised, above⟩ := performs.raises (before.symm ▸ sound.distinct)
    (before.symm ▸ sound.mailbox) arms
  have edits := performs.edits (before.symm ▸ sound.distinct)
  rw [before] at above edits
  rw [after] at isRaised edits
  have isRequest : ∃ request, call.operation = .request request := by
    cases arms with
    | commit commandId blockedUntil delivery row operation
    | unblock commandId blockedUntil operation => exact ⟨_, operation⟩
  obtain ⟨request, operation⟩ := isRequest
  refine .inr ⟨raised, raised, isRaised, le_refl _, ?_, ?_⟩
  · intro delivered isDelivered
    rcases edits.wake.delivered with same | ⟨dispatch, isSettled, _⟩
    · exact lt_of_le_of_lt (sound.mailbox.delivered delivered (same ▸ isDelivered)) above
    · rw [operation] at isSettled
      cases isSettled
  intro dispatch member early
  rcases dispatches.started dispatch member with old | ⟨isAlarm, _, _⟩
  · exact lt_of_le_of_lt (sound.dispatches dispatch old).1 above
  · rw [operation] at isAlarm
    cases isAlarm

theorem Owes.step {position : Nat} {later : List MailboxCall}
    (owes : world.Owes position later) (sound : world.WakeSound) (performs : Performs call)
    (before : call.before = world.mailbox) (after : call.after = next.mailbox)
    (started : position < world.calls.length) (dispatches : Dispatches world next call) :
    next.Owes position (later ++ [call]) := by
  rcases owes with ⟨settled, member, dispatch, isSettled, startedLater⟩ |
    ⟨raised, current, isCurrent, above, delivered, early⟩
  · exact .inl ⟨settled, mem_append_left _ member, dispatch, isSettled, startedLater⟩
  have edits := performs.edits (before.symm ▸ sound.distinct)
  rw [before, after] at edits
  have stillRaised : ∃ current, next.mailbox.wakeRevision = some current ∧ raised ≤ current := by
    rcases edits.wake.revision with ⟨_, sameRevision, _⟩ | ⟨newer, isNewer, newerThan, _⟩
    · exact ⟨current, sameRevision.trans isCurrent, above⟩
    · have bounded := sound.mailbox.revision current isCurrent
      exact ⟨newer, isNewer, (above.trans bounded).trans (le_of_lt newerThan)⟩
  have stillEarly : ∀ dispatch ∈ next.dispatches, dispatch.startedAt ≤ position →
      dispatch.revision < raised := by
    intro dispatch member beforeRaise
    rcases dispatches.started dispatch member with old | ⟨_, startedAt, _⟩
    · exact early dispatch old beforeRaise
    · exact absurd (startedAt ▸ beforeRaise) (not_le.mpr started)
  obtain ⟨nextCurrent, isNextCurrent, nextAbove⟩ := stillRaised
  rcases edits.wake.delivered with same | ⟨dispatch, isSettled, isDelivered⟩
  · exact .inr ⟨raised, nextCurrent, isNextCurrent, nextAbove, same ▸ delivered, stillEarly⟩
  by_cases startedLater : position < dispatch.startedAt
  · exact .inl ⟨call, mem_append_right _ (mem_singleton_self _), dispatch, isSettled, startedLater⟩
  refine .inr ⟨raised, nextCurrent, isNextCurrent, nextAbove, ?_, stillEarly⟩
  intro nextDelivered isNext
  rw [isDelivered] at isNext
  cases isNext
  exact early dispatch (dispatches.settled dispatch true isSettled) (not_lt.mp startedLater)

theorem wakeSound_of_reachable (reachable : mailboxSystem.Reachable world) : world.WakeSound := by
  induction reachable with
  | init =>
    refine ⟨nodup_nil, ⟨?_, ?_, ?_⟩, forall_mem_nil _⟩
    · rintro _ ⟨⟩
    · rintro _ ⟨⟩
    · rintro ⟨⟩
  | step _ stepped ih =>
    obtain ⟨call, performs, before, after, calls⟩ := step_call stepped
    exact ih.step performs before after calls (step_dispatches stepped calls)

theorem owes_of_reachable (reachable : mailboxSystem.Reachable world)
    (split : world.calls = earlier ++ call :: later) (arms : ArmsWake call) :
    world.Owes earlier.length later := by
  induction reachable generalizing later with
  | init => exact absurd split (by simp [mailboxSystem, init])
  | @step world next label reached stepped ih =>
    obtain ⟨last, performs, before, after, calls⟩ := step_call stepped
    have sound := wakeSound_of_reachable reached
    have dispatches := step_dispatches stepped calls
    rw [calls] at split
    rcases eq_nil_or_concat later with rfl | ⟨init, final, rfl⟩
    · obtain ⟨sameCalls, sameCall⟩ := append_inj' split rfl
      cases sameCall
      rw [← sameCalls]
      exact sound.raises performs before after dispatches arms
    rw [concat_eq_append, ← cons_append, ← append_assoc] at split
    obtain ⟨sameCalls, sameCall⟩ := append_inj' split rfl
    cases sameCall
    rw [concat_eq_append]
    refine (ih sameCalls).step sound performs before after ?_ dispatches
    rw [sameCalls, length_append, length_cons]
    omega

end MailboxWorld

namespace MailboxCommand

theorem keepLease_deadlines (leased : row.state = .leased) (now : Millis) (category : String) :
    (row.keepLease now category).deadlines = row.deadlines := by
  simp [deadlines, keepLease, leased]

theorem terminate_deadlines {state : CloudCommandState}
    (ended : state.isTerminal = true) {deadline : Millis} {category : Option String}
    (listed : deadline ∈ (row.terminate now state category).deadlines) :
    deadline = now + resultRetentionMs := by
  have notReserved : state ≠ .reserved := by
    rintro rfl
    cases ended
  have notLeased : state ≠ .leased := by
    rintro rfl
    cases ended
  simp only [deadlines, terminate, notReserved, notLeased, if_false, nil_append] at listed
  exact mem_singleton.mp (mem_ite_nil_right.mp listed).2

end MailboxCommand

variable {envelope : CloudCommandEnvelope}

namespace Mailbox

variable {mailbox before after : Mailbox}

def DeadlinesFrom (bound : Millis) (before after : Mailbox) : Prop :=
  ∀ row ∈ after.commands, ∀ deadline ∈ row.deadlines,
    (∃ stored ∈ before.commands, deadline ∈ stored.deadlines) ∨ bound ≤ deadline

theorem DeadlinesFrom.update {bound : Millis} (kept : DeadlinesFrom bound before mailbox)
    {condition : MailboxCommand → Bool} {set : MailboxCommand → MailboxCommand}
    (sets : ∀ row, condition row = true → ∀ deadline ∈ (set row).deadlines,
      deadline ∈ row.deadlines ∨ bound ≤ deadline) :
    DeadlinesFrom bound before (mailbox.update condition set) := by
  intro row member deadline listed
  obtain ⟨stored, storedMember, rfl⟩ := mem_map.mp member
  split at listed
  · rename_i holds
    rcases sets stored holds deadline listed with old | late
    · exact kept stored storedMember deadline old
    · exact .inr late
  · exact kept stored storedMember deadline listed

theorem DeadlinesFrom.terminalize {categories : TerminalCategories} (rows : List MailboxCommand)
    (kept : DeadlinesFrom (now + resultRetentionMs) before mailbox) :
    DeadlinesFrom (now + resultRetentionMs) before (mailbox.terminalize now categories rows) := by
  induction rows generalizing mailbox with
  | nil => exact kept
  | cons row rest ih =>
    refine ih ?_
    change DeadlinesFrom _ before (mailbox.terminalizeCommand now categories row)
    rw [terminalizeCommand]
    split
    · refine DeadlinesFrom.update kept fun stored holds deadline listed => ?_
      have leased := (of_decide_eq_true holds).2
      exact .inl (MailboxCommand.keepLease_deadlines leased now _ ▸ listed)
    · refine DeadlinesFrom.update kept fun stored holds deadline listed => ?_
      refine .inr (le_of_eq (MailboxCommand.terminate_deadlines ?_ listed).symm)
      split <;> rfl

theorem deadlinesFrom_observeDestructionFence (now : Millis) (destructionFence : Number) :
    DeadlinesFrom (now + resultRetentionMs) mailbox
      (mailbox.observeDestructionFence now destructionFence) := by
  have start : DeadlinesFrom (now + resultRetentionMs) mailbox mailbox :=
    fun row member deadline listed => .inl ⟨row, member, listed⟩
  rw [observeDestructionFence]
  split
  · exact start
  · exact DeadlinesFrom.terminalize _ start

variable {deadline : Millis}

theorem nextAlarmDeadline_mem (next : mailbox.nextAlarmDeadline = some deadline) :
    (∃ row ∈ mailbox.commands, deadline ∈ row.deadlines) ∨
      mailbox.wakeDeadline = some deadline := by
  have command {instant : Millis} (first : mailbox.commandDeadline = some instant) :
      ∃ row ∈ mailbox.commands, instant ∈ row.deadlines :=
    mem_flatMap.mp (List.min?_mem first)
  rw [nextAlarmDeadline] at next
  split at next
  · exact .inr next
  · rename_i first _
    exact .inl (command (next ▸ first))
  rename_i first wakeAt isFirstDeadline wake
  cases next
  rcases min_choice first wakeAt with isFirst | isWake
  · rw [isFirst]
    exact .inl (command isFirstDeadline)
  · rw [isWake]
    exact .inr wake

theorem nextAlarmDeadline_le
    (listed : (∃ row ∈ mailbox.commands, deadline ∈ row.deadlines) ∨
      mailbox.wakeDeadline = some deadline) :
    ∃ next, mailbox.nextAlarmDeadline = some next ∧ next ≤ deadline := by
  have command (stored : ∃ row ∈ mailbox.commands, deadline ∈ row.deadlines) :
      ∃ first, mailbox.commandDeadline = some first ∧ first ≤ deadline := by
    have member := mem_flatMap.mpr stored
    cases isFirst : mailbox.commandDeadline with
    | none =>
      rw [commandDeadline, List.min?_eq_none_iff] at isFirst
      rw [isFirst] at member
      cases member
    | some first => exact ⟨first, rfl, (List.min?_eq_some_iff.mp isFirst).2 deadline member⟩
  rw [nextAlarmDeadline]
  split
  · rename_i none
    rcases listed with stored | wake
    · obtain ⟨first, isFirst, _⟩ := command stored
      rw [none] at isFirst
      cases isFirst
    · exact ⟨deadline, wake, le_refl _⟩
  · rename_i current isCurrent noWake
    rcases listed with stored | wake
    · obtain ⟨first, isFirst, le⟩ := command stored
      rw [isCurrent] at isFirst
      cases isFirst
      exact ⟨current, rfl, le⟩
    · rw [noWake] at wake
      cases wake
  rename_i current wake isCurrent isWake
  refine ⟨min current wake, rfl, ?_⟩
  rcases listed with stored | listedWake
  · obtain ⟨first, isFirst, le⟩ := command stored
    rw [isCurrent] at isFirst
    cases isFirst
    exact (min_le_left _ _).trans le
  · rw [isWake] at listedWake
    cases listedWake
    exact min_le_right _ _

theorem nextAlarmDeadline_observeDestructionFence {destructionFence : Number}
    (next : (mailbox.observeDestructionFence now destructionFence).nextAlarmDeadline =
      some deadline) :
    (∃ earlier, mailbox.nextAlarmDeadline = some earlier ∧ earlier ≤ deadline) ∨
      now + resultRetentionMs ≤ deadline := by
  rcases nextAlarmDeadline_mem next with ⟨row, member, listed⟩ | wake
  · rcases deadlinesFrom_observeDestructionFence now destructionFence row member deadline
      listed with stored | late
    · exact .inl (nextAlarmDeadline_le (.inl stored))
    · exact .inr late
  have same : (mailbox.observeDestructionFence now destructionFence).wakeDeadline =
      mailbox.wakeDeadline :=
    observeDestructionFence_frame _ (fun _ _ _ => rfl) (fun _ _ => rfl) (fun _ _ => rfl)
      destructionFence
  exact .inl (nextAlarmDeadline_le (.inr (same ▸ wake)))

variable [host : MailboxHost]

def refusesReserve (mailbox : Mailbox) (now : Millis) (envelope : CloudCommandEnvelope) :
    Bool :=
  (cloudCommandLane envelope).isNone || maxEnvelopeBytes < host.envelopeBytes envelope ||
    !isSafeInteger envelope.destructionFence ||
    envelope.destructionFence < 0 ||
    (mailbox.destructionFence.any fun current => envelope.destructionFence < current) ||
    let observed := mailbox.observeDestructionFence now envelope.destructionFence
    match observed.command envelope.commandId with
    | some existing =>
      observed.comparableIdentity existing envelope.commandId ≠ some (commandIdentity envelope)
    | none => observed.atCapacity (host.envelopeBytes envelope)

theorem reserve_refused {later : Millis}
    (refused : (mailbox.reserve now later envelope).1.ok = false) :
    mailbox.refusesReserve now envelope = true ∧
      ((mailbox.reserve now later envelope).2 = mailbox ∨
        (mailbox.reserve now later envelope).2 =
          mailbox.observeDestructionFence now envelope.destructionFence) := by
  rw [reserve] at refused ⊢
  rw [refusesReserve]
  cases inLane : cloudCommandLane envelope with
  | none => exact ⟨rfl, .inl rfl⟩
  | some lane =>
    rw [inLane] at refused
    dsimp only at refused ⊢
    split at refused
    · rename_i large
      rw [if_pos large]
      exact ⟨by simp [large], .inl rfl⟩
    rename_i notLarge
    rw [if_neg notLarge]
    split at refused
    · rename_i invalid
      rcases invalid with notSafe | negative
      · simp [notSafe]
      · simp [negative]
    rename_i valid
    rw [if_neg valid]
    split at refused
    · rename_i stale
      rw [if_pos stale]
      exact ⟨by simp [stale], .inl rfl⟩
    rename_i current
    rw [if_neg current]
    rw [reserveObserved] at refused ⊢
    cases stored : (mailbox.observeDestructionFence now
        envelope.destructionFence).command envelope.commandId with
    | some existing =>
      rw [stored] at refused
      dsimp only at refused ⊢
      split at refused
      · rename_i collision
        rw [if_pos collision]
        exact ⟨by simp [collision], .inr rfl⟩
      · cases refused
    | none =>
      rw [stored] at refused
      dsimp only at refused ⊢
      split at refused
      · rename_i full
        rw [if_pos full]
        exact ⟨by simp [full], .inr rfl⟩
      · cases refused

end Mailbox

namespace MailboxWorld

/-- The step is not a refused reservation that finds the alarm due: that one moves the
alarm and does not compute it again. -/
def KeepsAlarm [MailboxHost] (world : MailboxWorld) : MailboxStep → Bool
  | .request clock (.reserve envelope) =>
    !(world.alarm.any (fun instant => instant ≤ clock.before) &&
      world.mailbox.refusesReserve clock.now envelope)
  | _ => true

/-- While no handler runs, the alarm is set in time for the next deadline. -/
def Scheduled (world : MailboxWorld) : Prop :=
  world.dispatches = [] → ∀ deadline, world.mailbox.nextAlarmDeadline = some deadline →
    ∃ instant, world.alarm = some instant ∧ instant ≤ max deadline (world.recomputedAt + 1)

/-- `schedule` never sets the alarm later than asked for. -/
theorem schedule_le (alarm : Option Millis) (now instant : Millis) :
    ∃ scheduled, schedule alarm now instant = some scheduled ∧ scheduled ≤ instant := by
  cases alarm with
  | none => exact ⟨instant, rfl, le_refl _⟩
  | some current =>
    simp only [schedule]
    split
    · exact ⟨instant, rfl, le_refl _⟩
    · rename_i kept
      exact ⟨current, rfl, not_lt.mp fun later => kept (.inr later)⟩

theorem schedule_le_current {current : Millis} (instant : Millis) (toCome : now < current) :
    ∃ scheduled, schedule (some current) now instant = some scheduled ∧ scheduled ≤ current := by
  simp only [schedule]
  split
  · rename_i moved
    have earlier := moved.resolve_left (not_le.mpr toCome)
    exact ⟨instant, rfl, le_of_lt earlier⟩
  · exact ⟨current, rfl, le_refl _⟩

theorem scheduled_scheduleNext (world : MailboxWorld) (clock : Clock) (now : Millis) :
    Scheduled { world.scheduleNext clock with now } := by
  intro _ deadline next
  have isNext : world.mailbox.nextAlarmDeadline = some deadline := next
  obtain ⟨scheduled, isScheduled, le⟩ :=
    schedule_le world.alarm clock.after (max (clock.after + 1) deadline)
  refine ⟨scheduled, ?_, max_comm (clock.after + 1) deadline ▸ le⟩
  simp only [scheduleNext, isNext]
  exact isScheduled

variable [MailboxHost] {world next : MailboxWorld}

theorem Scheduled.refused (scheduled : world.Scheduled) {clock : Clock}
    (refused : (world.mailbox.reserve clock.now clock.later envelope).1.ok = false)
    (keeps : world.KeepsAlarm (.request clock (.reserve envelope)) = true) (now : Millis) :
    Scheduled { (world.scheduleFirst clock (.reserve envelope)).record
      (.request (.reserve envelope)) (some (world.mailbox.reserve clock.now clock.later envelope).1)
      (world.mailbox.reserve clock.now clock.later envelope).2 with now } := by
  obtain ⟨isRefused, unchanged⟩ := reserve_refused refused
  have toCome : ∀ current, world.alarm = some current → clock.before < current := by
    intro current isCurrent
    rw [KeepsAlarm, isRefused, isCurrent] at keeps
    simpa using keeps
  intro idle deadline isNext
  -- The deadline is not before one of the old ones, or it is a retention away.
  have source : (∃ earlier, world.mailbox.nextAlarmDeadline = some earlier ∧
      earlier ≤ deadline) ∨ clock.now + resultRetentionMs ≤ deadline := by
    rcases unchanged with same | observed
    · exact .inl ⟨deadline, same ▸ isNext, le_refl _⟩
    · rw [observed] at isNext
      exact nextAlarmDeadline_observeDestructionFence isNext
  change ∃ instant, schedule world.alarm clock.before (clock.before + reservationTtlMs) =
    some instant ∧ instant ≤ max deadline (world.recomputedAt + 1)
  rcases source with ⟨earlier, isEarlier, le⟩ | late
  · obtain ⟨current, isCurrent, bounded⟩ := scheduled idle earlier isEarlier
    obtain ⟨instant, isInstant, notLater⟩ :=
      schedule_le_current (clock.before + reservationTtlMs) (toCome current isCurrent)
    rw [isCurrent]
    exact ⟨instant, isInstant, notLater.trans (bounded.trans (max_le_max_right _ le))⟩
  · obtain ⟨instant, isInstant, le⟩ :=
      schedule_le world.alarm clock.before (clock.before + reservationTtlMs)
    refine ⟨instant, isInstant, le.trans (le_max_of_le_left (le_trans ?_ late))⟩
    exact add_le_add clock.ordered.1 (by decide)

theorem Scheduled.step {label : MailboxStep} (scheduled : world.Scheduled)
    (keeps : world.KeepsAlarm label = true) (stepped : world.step label = some next) :
    next.Scheduled := by
  cases label with
  | request clock request =>
    rw [MailboxWorld.step] at stepped
    split at stepped
    · cases stepped
      rw [handle]
      split
      · exact scheduled_scheduleNext _ clock clock.after
      · rename_i skipped
        cases request with
        | reserve envelope =>
          exact scheduled.refused (Bool.eq_false_iff.mpr skipped) keeps clock.after
        | _ => exact absurd rfl skipped
    · cases stepped
  | alarm clock =>
    rw [MailboxWorld.step] at stepped
    split at stepped
    · cases stepped
      simp only [runAlarm]
      split
      · exact scheduled_scheduleNext _ clock clock.after
      · split
        · intro idle
          exact absurd idle (by simp)
        · exact scheduled_scheduleNext _ clock clock.after
    · cases stepped
  | wakeSettled clock dispatch succeeded =>
    rw [MailboxWorld.step] at stepped
    split at stepped
    · cases stepped
      exact scheduled_scheduleNext _ clock clock.after
    · cases stepped

theorem scheduled_of_reachable
    (reachable : (mailboxSystem.restrict fun world label =>
      world.KeepsAlarm label = true).Reachable world) : world.Scheduled := by
  induction reachable with
  | init =>
    intro _ deadline next
    cases next
  | step _ stepped ih =>
    obtain ⟨keeps, moved⟩ := TransitionSystem.restrict_step.mp stepped
    exact ih.step keeps moved

structure NoLostWake (world : MailboxWorld) : Prop where
  undelivered : ∀ earlier call later, world.calls = earlier ++ call :: later → ArmsWake call →
    world.mailbox.wakeRevision ≠ world.mailbox.wakeDeliveredRevision ∨
      ∃ settled ∈ later, ∃ dispatch, settled.operation = .wakeSettled dispatch true ∧
        earlier.length < dispatch.startedAt
  scheduled : world.Scheduled

theorem undelivered_of_reachable (reachable : mailboxSystem.Reachable world)
    {later : List MailboxCall}
    (split : world.calls = earlier ++ call :: later) (arms : ArmsWake call) :
    world.mailbox.wakeRevision ≠ world.mailbox.wakeDeliveredRevision ∨
      ∃ settled ∈ later, ∃ dispatch, settled.operation = .wakeSettled dispatch true ∧
        earlier.length < dispatch.startedAt :=
  (owes_of_reachable reachable split arms).undelivered

theorem noLostWake_of_reachable
    (reachable : (mailboxSystem.restrict fun world label =>
      world.KeepsAlarm label = true).Reachable world) : world.NoLostWake where
  undelivered := fun _ _ _ split arms =>
    undelivered_of_reachable reachable.of_restrict split arms
  scheduled := scheduled_of_reachable reachable

def overtakenDispatch : List MailboxStep :=
  [.request (.at 1) (.reserve (plainEnvelope "first" 0)),
    .request (.at 2) (.commit "first" (some "provider") (some plainDelivery)),
    .alarm (.at 3),
    .request (.at 4) (.unblock none none),
    .request (.at 4) (.reserve (plainEnvelope "first" (-1))),
    .wakeSettled (.at 5) ⟨1, 2⟩ true]

omit [MailboxHost] in
theorem noLostWake_of_overtakenDispatch :
    ∃ world, ((@mailboxSystem plainHost).restrict fun world label =>
        @KeepsAlarm plainHost world label = true).run overtakenDispatch = some world ∧
      world.mailbox.wakeRevision = some 2 ∧ world.mailbox.wakeDeliveredRevision = some 1 ∧
      world.alarm = some 6 ∧ world.NoLostWake := by
  have ran : (((@mailboxSystem plainHost).restrict fun world label =>
      @KeepsAlarm plainHost world label = true).run overtakenDispatch).map (fun world =>
        decide (world.mailbox.wakeRevision = some 2) &&
          decide (world.mailbox.wakeDeliveredRevision = some 1) &&
            decide (world.alarm = some 6)) = some true := by
    decide +kernel
  obtain ⟨world, reached, observed⟩ := Option.map_eq_some_iff.mp ran
  obtain ⟨observed, alarm⟩ := Bool.and_eq_true_iff.mp observed
  obtain ⟨revision, delivered⟩ := Bool.and_eq_true_iff.mp observed
  exact ⟨world, reached, of_decide_eq_true revision, of_decide_eq_true delivered,
    of_decide_eq_true alarm,
    @noLostWake_of_reachable plainHost world (TransitionSystem.run_reachable reached)⟩

def refusedReservation : List MailboxStep :=
  [.request (.at 1) (.reserve (plainEnvelope "first" 1)),
    .request (.at 2) (.commit "first" none (some plainDelivery)),
    .request (.at 10) (.reserve (plainEnvelope "second" 0))]

omit [MailboxHost] in
theorem not_noLostWake :
    ¬∀ world, (@mailboxSystem plainHost).Reachable world → world.NoLostWake := by
  intro holds
  have ran : ((@mailboxSystem plainHost).run refusedReservation).map (fun world =>
      decide (world.dispatches = []) &&
        decide (world.mailbox.nextAlarmDeadline = some 3) &&
          (decide (world.alarm = some 60010) &&
            decide (world.recomputedAt = 2))) = some true := by
    decide +kernel
  obtain ⟨world, reached, observed⟩ := Option.map_eq_some_iff.mp ran
  obtain ⟨before, after⟩ := Bool.and_eq_true_iff.mp observed
  obtain ⟨idle, deadline⟩ := Bool.and_eq_true_iff.mp before
  obtain ⟨alarm, recomputed⟩ := Bool.and_eq_true_iff.mp after
  have noLostWake := holds world (@TransitionSystem.run_reachable _ _ _ _ _ reached)
  obtain ⟨instant, isInstant, bounded⟩ :=
    noLostWake.scheduled (of_decide_eq_true idle) 3 (of_decide_eq_true deadline)
  rw [of_decide_eq_true alarm] at isInstant
  cases isInstant
  rw [of_decide_eq_true recomputed] at bounded
  exact absurd bounded (by decide)

end MailboxWorld

end Zuse.Cloud
