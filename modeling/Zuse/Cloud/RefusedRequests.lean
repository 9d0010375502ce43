import Zuse.Cloud.MailboxInvariants

namespace Zuse.Cloud

open Zuse.Domain (Millis Number)
open Zuse.Data
open List

/-- Answered with a 4xx code or with `fenced: true`. -/
def Response.refused (response : Response) : Bool :=
  Decidable.decide (400 ≤ response.status ∧ response.status < 500) ||
    match response.body with
    | .leases _ fenced _ _ _ => fenced
    | _ => false

/-- What a mailbox is asked, with its alarm and the ends of its wakes. -/
inductive MailboxQuestion where
  | request (now later : Millis) (request : MailboxRequest)
  | status (commandId : CommandId)
  | watch (afterRevision : Nat)
  | alarm (now : Millis)
  | wakeDelivered (revision : Nat)
  | wakeFailed (revision : Nat) (now : Millis)

inductive MailboxAnswer where
  | response (response : Response)
  | status (status : Option CommandStatus)
  | page (page : CommandChangePage)
  | wake (due : Option Nat)

section Questions

variable [host : MailboxHost]

def Mailbox.ask (mailbox : Mailbox) : MailboxQuestion → MailboxAnswer × Mailbox
  | .request now later request => (mailbox.handle now later request).map .response id
  | .status commandId => (.status (mailbox.status commandId), mailbox)
  | .watch afterRevision => (.page (mailbox.watch afterRevision), mailbox)
  | .alarm now => (.wake (mailbox.sweep now).wakeDue, mailbox.sweep now)
  | .wakeDelivered revision => (.wake none, mailbox.wakeDelivered revision)
  | .wakeFailed revision now => (.wake none, mailbox.wakeFailed revision now)

def Mailbox.answers (mailbox : Mailbox) : List MailboxQuestion → List MailboxAnswer
  | [] => []
  | question :: rest => (mailbox.ask question).1 :: (mailbox.ask question).2.answers rest

/-- Whatever is asked later, the answers are those from before, apart from leases that had
passed their deadline. -/
def Mailbox.Unaltered (now : Millis) (before after : Mailbox) : Prop :=
  ∃ start, (start = before ∨ start = before.expireLeases now) ∧
    ∀ questions, after.answers questions = start.answers questions

/-- The request brings a newer destruction fence or runtime generation, and it is stored
before the last check that can refuse the request. -/
def MailboxRequest.storesFirst (mailbox : Mailbox) : MailboxRequest → Bool
  | .reserve envelope =>
    (cloudCommandLane envelope).isSome && host.envelopeBytes envelope ≤ maxEnvelopeBytes &&
      isSafeInteger envelope.destructionFence && 0 ≤ envelope.destructionFence &&
      mailbox.destructionFence.all fun known => known < envelope.destructionFence
  | .lease input _ =>
    !Mailbox.invalidLease input &&
      (mailbox.destructionFence.any fun known => input.destructionFence < known) &&
      mailbox.runtimeGeneration.all fun known => known < input.runtimeGeneration
  | _ => false

end Questions

/-- A command that goes on is reserved or was accepted. -/
def MailboxCommand.Due (row : MailboxCommand) : Prop :=
  row.state.isTerminal = false → row.state = .reserved ∨ row.acceptedAt.isSome = true

theorem RowEdit.due {operation : MailboxOperation} {mailbox : Mailbox}
    {before after : MailboxCommand} (edit : RowEdit operation mailbox before after)
    (valid : before.Valid) (due : before.Due) : after.Due := by
  have accepted : before.state.isTerminal = false → before.state ≠ .reserved → after.acceptedAt =
      before.acceptedAt → after.Due :=
    fun ongoing other same _ => .inr (same ▸ (due ongoing).resolve_left other)
  cases edit with
  | accept => exact fun _ => .inr rfl
  | block now blockedUntil neverLeased pending =>
    exact accepted (MailboxCommand.not_terminal_of_isPending pending)
      (by rintro reserved; rw [reserved] at pending; cases pending) rfl
  | unblock now blocked | awaitFence now blocked | keepLease now category blocked =>
    exact accepted (by rw [blocked]; rfl) (by rw [blocked]; simp) rfl
  | fence now input fenced =>
    have held := MailboxCommand.isHeld_of_isFencedBy fenced
    exact accepted (by rw [held]; rfl) (by rw [held]; simp) rfl
  | lease now input tokens request leasable =>
    have pending := MailboxCommand.isPending_of_isLeasable leasable
    exact accepted (MailboxCommand.not_terminal_of_isPending pending)
      (by rintro reserved; rw [reserved] at leasable; cases leasable) rfl
  | acknowledge now ack =>
    intro ongoing
    cases state : ack.state <;>
      simp [MailboxCommand.acknowledge, MailboxCommand.terminate, state,
        CloudCommandState.isTerminal] at ongoing
  | purge ended =>
    intro ongoing
    rw [(valid.unended ongoing).1] at ended
    cases ended
  | cancel | expireReservation | terminateUnleased | terminateLeased =>
    intro ongoing
    cases ongoing

namespace Mailbox

variable {mailbox : Mailbox} {now later : Millis}

theorem due_of_history [MailboxHost] {calls : List MailboxCall}
    (history : History Mailbox.empty calls mailbox) : ∀ row ∈ mailbox.commands, row.Due :=
  (history.preserves (fun reached => Sound reached ∧ ∀ row ∈ reached.commands, row.Due)
    (fun _ reached => reached.1.distinct)
    (fun _ _ _ reached edit => ⟨reached.1.edit edit, fun row member => by
      obtain ⟨stored, isStored, rfl | rowEdit⟩ | ⟨reserved, _⟩ := edit.origin member
      · exact reached.2 row isStored
      · exact rowEdit.due (reached.1.valid stored isStored) (reached.2 stored isStored)
      · exact fun _ => .inl reserved⟩)
    ⟨.empty, forall_mem_nil _⟩).2

theorem update_id {condition : MailboxCommand → Bool} {set : MailboxCommand → MailboxCommand}
    (none : ∀ row ∈ mailbox.commands, condition row = false) :
    mailbox.update condition set = mailbox := by
  have same : mailbox.commands.map (fun row => if condition row then set row else row) =
      mailbox.commands :=
    (map_congr_left fun row member => by simp [none row member]).trans (map_id _)
  rw [update, same]

theorem block_unaltered (commandId : Option CommandId) (blockedUntil : String) :
    (mailbox.block now commandId blockedUntil).1.refused = true →
      (mailbox.block now commandId blockedUntil).2 = mailbox := by
  cases commandId with
  | none => exact fun refused => by cases refused
  | some commandId =>
    rw [block, blockCommand]
    repeat' split
    all_goals first | exact fun _ => rfl | exact fun refused => by cases refused

theorem unblock_unaltered (commandId : Option CommandId) (blockedUntil : Option String) :
    (mailbox.unblock now later commandId blockedUntil).1.refused = true →
      (mailbox.unblock now later commandId blockedUntil).2 = mailbox := by
  cases commandId with
  | none => exact fun refused => by cases refused
  | some commandId =>
    rw [unblock, unblockCommand]
    repeat' split
    all_goals first | exact fun _ => rfl | exact fun refused => by cases refused

theorem cancel_unaltered (distinct : mailbox.commandIds.Nodup) (commandId : CommandId)
    (category : String) :
    (mailbox.cancel now commandId category).1.refused = true →
      (mailbox.cancel now commandId category).2 = mailbox := by
  rw [cancel]
  split
  · exact fun _ => rfl
  rename_i before found
  obtain ⟨row, stored, sameId, rfl⟩ := status_eq_some distinct found
  dsimp only
  by_cases cancellable : row.isCancellable = true
  · have read := command_update (fun row => row.commandId = commandId ∧ row.isCancellable)
      (·.cancel now category) (fun _ => rfl) distinct stored sameId
    intro refused
    rw [status, read] at refused
    simp [sameId, cancellable, statusOf, MailboxCommand.cancel, CloudCommandState.isTerminal,
      Response.refused] at refused
  have unchanged : mailbox.update (fun row => row.commandId = commandId ∧ row.isCancellable)
      (·.cancel now category) = mailbox := by
    refine update_id fun other member => decide_eq_false fun both => cancellable ?_
    rw [← eq_of_commandId distinct member stored (both.1.trans sameId.symm)]
    exact both.2
  rw [unchanged, found]
  dsimp only
  have same : ¬((mailbox.statusOf row).state ≠ .cancelled ∧
      (mailbox.statusOf row).state = .cancelled) := fun both => both.1 both.2
  split <;> exact fun _ => rfl

theorem acknowledge_unaltered (ack : RuntimeAcknowledgment) :
    (mailbox.acknowledge now ack).1.refused = true →
      (mailbox.acknowledge now ack).2 = mailbox.expireLeases now := by
  rw [acknowledge, acknowledgeExpired]
  repeat' split
  all_goals first | exact fun _ => rfl | exact fun refused => by cases refused

theorem lifecycle_unaltered (action : LifecycleAction) {destructionFence : Option Number} :
    (mailbox.lifecycle now action destructionFence).1.refused = true →
      (mailbox.lifecycle now action destructionFence).2 = mailbox := by
  unfold lifecycle
  repeat' split
  all_goals first | exact fun _ => rfl | exact fun refused => by cases refused

section Refusals

variable [host : MailboxHost]

theorem reserve_unaltered {envelope : CloudCommandEnvelope}
    (first : (MailboxRequest.reserve envelope).storesFirst mailbox = false) :
    (mailbox.reserve now later envelope).1.refused = true →
      (mailbox.reserve now later envelope).2 = mailbox := by
  unfold reserve
  split
  · exact fun _ => rfl
  rename_i lane inLane
  split
  · exact fun _ => rfl
  rename_i small
  split
  · exact fun _ => rfl
  rename_i valid
  split
  · exact fun _ => rfl
  rw [not_or, Bool.not_eq_true', not_lt] at valid
  have known : (mailbox.destructionFence.any fun known =>
      envelope.destructionFence ≤ known) = true := by
    simp only [MailboxRequest.storesFirst, inLane, Option.isSome_some, valid.1, valid.2,
      not_lt.mp small, decide_true, Bool.true_and] at first
    cases stored : mailbox.destructionFence with
    | none => simp [stored] at first
    | some fence => simpa [stored] using first
  rw [observeDestructionFence]
  unfold reserveObserved
  repeat' split
  all_goals first | exact fun _ => rfl | exact fun refused => by cases refused

theorem commit_unaltered (distinct : mailbox.commandIds.Nodup)
    (due : ∀ row ∈ mailbox.commands, row.Due) (commandId : CommandId)
    (blockedUntil : Option String) (delivery : Option MailboxWakeDelivery) :
    (mailbox.commit now commandId blockedUntil delivery).1.refused = true →
      (mailbox.commit now commandId blockedUntil delivery).2 = mailbox := by
  unfold commit
  split
  · exact fun _ => rfl
  rename_i before found
  obtain ⟨stored, sameId⟩ := (command_eq_some distinct).mp found
  split
  · exact fun _ => rfl
  split
  · exact fun _ => rfl
  have read : ((mailbox.commitReserved now before blockedUntil).armWake now before
      delivery).command commandId =
        some (if before.state = .reserved then before.accept now blockedUntil else before) := by
    have commands : ((mailbox.commitReserved now before blockedUntil).armWake now before
        delivery).commands = (mailbox.update
          (fun row => row.commandId = before.commandId ∧ row.state = .reserved)
          (·.accept now blockedUntil)).commands := by
      unfold armWake commitReserved
      repeat' split
      all_goals rfl
    have updated := command_update (fun row => row.commandId = before.commandId ∧
      row.state = .reserved) (·.accept now blockedUntil) (fun _ => rfl) distinct stored sameId
    simpa [command, commands] using updated
  dsimp only
  rw [status, read]
  by_cases reserved : before.state = .reserved
  · intro refused
    simp [reserved, acceptanceOf, statusOf, MailboxCommand.accept, Response.refused] at refused
  cases accepted : before.acceptedAt with
  | some instant =>
    intro refused
    simp [reserved, acceptanceOf, statusOf, accepted, Response.refused] at refused
  | none =>
    have ended : before.state.isTerminal = true := by
      by_contra ongoing
      have := due before stored (Bool.eq_false_iff.mpr ongoing)
      simp [reserved, accepted] at this
    have pending : before.state.isPending = false := by
      cases state : before.state <;> rw [state] at ended <;> first | rfl | cases ended
    have unchanged : mailbox.commitReserved now before blockedUntil = mailbox := by
      rw [commitReserved, if_neg reserved]
      refine update_id fun row member => decide_eq_false fun both => reserved ?_
      rw [← eq_of_commandId distinct member stored both.1]
      exact both.2
    have unarmed : mailbox.armWake now before delivery = mailbox := by
      cases delivery with
      | none => rfl
      | some delivery => simp [armWake, reserved, pending]
    rw [unchanged, unarmed]
    exact fun _ => rfl

theorem lease_unaltered {input : LeaseInput} {tokens : CommandId → LeaseToken}
    (first : (MailboxRequest.lease input tokens).storesFirst mailbox = false) :
    (mailbox.lease now later input tokens).1.refused = true →
      (mailbox.lease now later input tokens).2 = mailbox ∨
        (mailbox.lease now later input tokens).2 = mailbox.expireLeases now := by
  rw [lease]
  split
  · exact fun _ => .inl rfl
  rename_i valid
  have fence : (mailbox.expireLeases now).destructionFence = mailbox.destructionFence :=
    changedAll_destructionFence _ _
  have generation : (mailbox.expireLeases now).runtimeGeneration = mailbox.runtimeGeneration :=
    changedAll_runtimeGeneration _ _
  dsimp only
  split
  · exact fun _ => .inr rfl
  have observed : ((mailbox.expireLeases now).observeGeneration
      input.runtimeGeneration).destructionFence = mailbox.destructionFence := by
    rw [observeGeneration]
    split <;> exact fence
  rw [observed]
  split
  · rename_i stale
    have known : ¬(mailbox.runtimeGeneration.all fun known =>
        known < input.runtimeGeneration) = true := by
      simpa [MailboxRequest.storesFirst, valid, stale] using first
    rw [observeGeneration, generation, if_neg known]
    exact fun _ => .inr rfl
  · unfold leaseCurrent
    dsimp only
    split <;> exact fun refused => by cases refused

theorem handle_unaltered {request : MailboxRequest} (distinct : mailbox.commandIds.Nodup)
    (due : ∀ row ∈ mailbox.commands, row.Due) (first : request.storesFirst mailbox = false)
    (refused : (mailbox.handle now later request).1.refused = true) :
    (mailbox.handle now later request).2 = mailbox ∨
      (mailbox.handle now later request).2 = mailbox.expireLeases now := by
  cases request with
  | reserve envelope => exact .inl (reserve_unaltered first refused)
  | commit commandId blockedUntil delivery =>
    exact .inl (commit_unaltered distinct due commandId blockedUntil delivery refused)
  | block commandId blockedUntil => exact .inl (block_unaltered commandId blockedUntil refused)
  | unblock commandId blockedUntil => exact .inl (unblock_unaltered commandId blockedUntil refused)
  | cancel commandId category => exact .inl (cancel_unaltered distinct commandId category refused)
  | lease input tokens => exact lease_unaltered first refused
  | acknowledge ack => exact .inr (acknowledge_unaltered ack refused)
  | lifecycle action destructionFence => exact .inl (lifecycle_unaltered action refused)

end Refusals

/-- A request that is refused and stores nothing before that changes no later answer. -/
theorem unaltered_of_refused [MailboxHost] {world : MailboxWorld} {request : MailboxRequest}
    (reachable : mailboxSystem.Reachable world) (first : request.storesFirst world.mailbox = false)
    (refused : (world.mailbox.handle now later request).1.refused = true) :
    world.mailbox.Unaltered now (world.mailbox.handle now later request).2 := by
  have history := history_of_reachable reachable
  exact ⟨_, handle_unaltered (Sound.of_history history).distinct (due_of_history history) first
    refused, fun _ => rfl⟩

def acceptedRun : List MailboxStep :=
  [.request (.at 1) (.reserve (plainEnvelope "command" 0)),
    .request (.at 2) (.commit "command" none (some plainDelivery))]

def collidingEnvelope (destructionFence : Number) : CloudCommandEnvelope :=
  { plainEnvelope "command" destructionFence with fingerprint := "other" }

theorem unaltered_of_collision :
    ∃ world, (@mailboxSystem plainHost).run acceptedRun = some world ∧
      (@Mailbox.handle plainHost world.mailbox 3 3 (.reserve (collidingEnvelope 0))).1.refused =
        true ∧
      @Mailbox.Unaltered plainHost 3 world.mailbox
        (@Mailbox.handle plainHost world.mailbox 3 3 (.reserve (collidingEnvelope 0))).2 := by
  have ran : ((@mailboxSystem plainHost).run acceptedRun).map (fun world =>
      !@MailboxRequest.storesFirst plainHost world.mailbox (.reserve (collidingEnvelope 0)) &&
        (@Mailbox.handle plainHost world.mailbox 3 3
          (.reserve (collidingEnvelope 0))).1.refused) = some true := by
    decide +kernel
  obtain ⟨world, reached, observed⟩ := Option.map_eq_some_iff.mp ran
  obtain ⟨first, refused⟩ := Bool.and_eq_true_iff.mp observed
  exact ⟨world, reached, refused, @unaltered_of_refused 3 3 plainHost world _
    (TransitionSystem.run_reachable reached) (Bool.not_eq_true' _ ▸ first) refused⟩

end Mailbox

end Zuse.Cloud
