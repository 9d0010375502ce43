import Zuse.Conversation.SendDelivery

namespace Zuse.Conversation

open Zuse.Data Zuse.Domain List SessionEvent SendWorld Except

namespace SendWorld

variable (job : SendJob) (world : SendWorld)

def standing : Option TurnState :=
  ownedTurn world.session job.turnId job.expectedAttempt.attemptId

/-- The attempt was superseded, its turn is being settled, or the user has interrupted
it. -/
def decided : Bool :=
  world.interrupted || (world.standing job).all (·.status = .finalizing)

/-- The delivery was begun, neither completed nor released, and nothing is decided about
the attempt. -/
def undecided : Bool :=
  (world.effect = .started ∨ world.effect = .outcomeUnknown) && !world.decided job

end SendWorld

/-- The steps that leave no delivery behind: it is begun with the claim, and an execution
that holds the claim of an undecided delivery neither dies, nor is interrupted before it
has found out about the delivery, nor ends without an answer of the opened session. No
replay of an earlier command cancels the job then. -/
def SendStart.accounts [PayloadCodec] (start : SendStart) (world : SendWorld) : SendLabel → Bool
  | .perform owner _ answer =>
    match world.executions.get? owner with
    | none => true
    | some execution =>
      (execution.phase ≠ .beginning || answer ≠ .ok || world.effect ≠ .missing ||
          world.claimedBy owner) &&
        (!(world.undecided start.job && world.holds owner) ||
          (answer ≠ .dies && (answer ≠ .interrupted || execution.deliveryStarted) &&
            (execution.phase ≠ .ensuring || answer ≠ .refused) &&
            (execution.phase ≠ .awaitingReopened || answer ≠ .uncertain)))
  | .dispatch commandId _ =>
    !(world.undecided start.job && (world.receipts.find? (·.commandId = commandId)).any (·.cancels))
  | _ => true

namespace SendWorld

variable {job : SendJob} {world next : SendWorld}

theorem decided_iff : world.decided job = true ↔ world.interrupted = true ∨
    ∀ turn, world.standing job = some turn → turn.status = .finalizing := by
  rw [decided]
  cases world.standing job <;> simp

theorem not_decided_iff : world.decided job = false ↔ world.interrupted = false ∧
    ∃ turn, world.standing job = some turn ∧ turn.status ≠ .finalizing := by
  rw [← Bool.not_eq_true, decided_iff, not_or, Bool.not_eq_true, not_forall]
  simp only [Classical.not_imp]

theorem undecided_iff : world.undecided job = true ↔
    (world.effect = .started ∨ world.effect = .outcomeUnknown) ∧ world.decided job = false := by
  rw [undecided, Bool.and_eq_true, decide_eq_true_eq, Bool.not_eq_true']

theorem decided_of_not_standing (gone : world.standing job = none) : world.decided job = true := by
  refine decided_iff.mpr (.inr fun turn owned => ?_)
  cases gone.symm.trans owned

variable [PayloadCodec]

structure Sane (job : SendJob) (world : SendWorld) : Prop where
  wellFormed : world.session.WellFormed
  rested : world.session.Rested
  present : world.session.Present
  issued : world.session.Issued job.turnId job.expectedAttempt.attemptId
  running : world.interrupted = false → ∀ turn, world.standing job = some turn →
    turn.phase = some .running
  recovered : ∀ receipt ∈ world.receipts, receipt.commandId = job.recoverId →
    world.decided job = true
  settled : ∀ receipt ∈ world.receipts, receipt.commandId = job.finalizeId →
    world.decided job = true
  explained : ∀ receipt ∈ world.receipts,
    receipt.commandId = job.explainId → receipt.cancels = false

structure Advances (job : SendJob) (world next : SendWorld) : Prop where
  sane : next.Sane job
  decided : world.decided job = true → next.decided job = true
  unsettled : world.status.isUnsettled = true →
    next.status.isUnsettled = true ∨ next.decided job = true
  holds : ∀ owner, next.holds owner = true → world.holds owner = true
  lease : ∀ owner, next.leaseOwner = some owner → world.leaseOwner = some owner
  owners : next.owners = world.owners

section Commit

variable {commandId : String} {command : SessionCommand} {events : List SessionEvent}

variable (sane : world.Sane job)
include sane

theorem Sane.standing_commit (decides : decide world.session command = .ok events)
    (inScope : ∀ event ∈ events, event.leavesScope job.turnId = false) {turn : TurnState}
    (owned : (world.commit commandId command events).standing job = some turn) :
    ∃ before, world.standing job = some before ∧
      (before.status = .finalizing → turn.status = .finalizing) ∧
      ((∀ event ∈ events, event.interruptsTurn = false) → before.phase = some .running →
        turn.phase = some .running) ∧
      ((∃ event ∈ events, event.finalizes job.turnId = true) → turn.status = .finalizing) :=
  SessionState.ownedTurn_evolveAll sane.wellFormed
    (decide_lawful sane.wellFormed sane.rested decides).emitted
    (fun event member => (leavesScope_eq_false.mp (inScope event member)).1)
    sane.issued owned

theorem Sane.decided_commit (commandId : String)
    (decides : decide world.session command = .ok events)
    (inScope : ∀ event ∈ events, event.leavesScope job.turnId = false)
    (decided : world.decided job = true) :
    (world.commit commandId command events).decided job = true := by
  rw [decided_iff] at decided ⊢
  obtain interrupted | finalizing := decided
  · exact .inl (by simp [commit, interrupted])
  · refine .inr fun turn owned => ?_
    obtain ⟨before, standing, final, -, -⟩ := sane.standing_commit decides inScope owned
    exact final (finalizing before standing)

section

variable (decides : decide world.session command = .ok events)
  (inScope : ∀ event ∈ events, event.leavesScope job.turnId = false)
include decides inScope

theorem Sane.decided_of_cancels (cancelled : cancels command events = true) :
    (world.commit commandId command events).decided job = true := by
  have emitted := (decide_lawful sane.wellFormed sane.rested decides).emitted
  have noRestart : ∀ event ∈ events, event.restarts job.turnId = false := fun event member =>
    (leavesScope_eq_false.mp (inScope event member)).1
  have superseded {started : AttemptStartedEvent} (member : .attemptStarted started ∈ events) :
      (world.commit commandId command events).decided job = true :=
    decided_of_not_standing (SessionState.not_owned_of_attemptStarted sane.wellFormed emitted
      noRestart sane.issued member)
  rw [cancels, Bool.or_eq_true, any_eq_true] at cancelled
  obtain expires | ⟨event, member, ends⟩ := cancelled
  · cases command with
    | expireAttempt turnId attemptId expiredAt =>
      rw [sane.present.decide_eq sane.wellFormed rfl] at decides
      obtain ⟨started, member⟩ | ⟨outcome, member⟩ := decideExpireAttempt_ends decides
      · exact superseded member
      · exact decided_of_not_standing (SessionState.not_owned_of_turnSettled
          sane.wellFormed emitted noRestart sane.issued member)
    | _ => cases expires
  rw [Bool.or_eq_true] at ends
  obtain starts | interrupts := ends
  · cases event with
    | attemptStarted started => exact superseded member
    | _ => cases starts
  cases event with
  | turnInterruptRequested =>
    refine decided_iff.mpr (.inl ?_)
    rw [commit, Bool.or_eq_true, any_eq_true]
    exact .inr ⟨_, member, rfl⟩
  | _ => cases interrupts

theorem Sane.commit
    (decidedBy : commandId = job.recoverId ∨ commandId = job.finalizeId →
      (world.commit commandId command events).decided job = true)
    (explains : commandId = job.explainId → cancels command events = false) :
    (world.commit commandId command events).Sane job := by
  have lawful := decide_lawful sane.wellFormed sane.rested decides
  have noRestart : ∀ event ∈ events, event.restarts job.turnId = false := fun event member =>
    (leavesScope_eq_false.mp (inScope event member)).1
  have monotone := sane.decided_commit commandId decides inScope
  constructor
  · exact sane.wellFormed.evolveAll lawful.emitted
  · exact lawful.rested
  · exact sane.present.evolveAll lawful.emitted inScope
  · exact sane.issued.evolveAll sane.wellFormed lawful.emitted noRestart
  · intro calm turn owned
    rw [SendWorld.commit, Bool.or_eq_false_iff] at calm
    obtain ⟨before, standing, -, running, -⟩ := sane.standing_commit decides inScope owned
    refine running (fun event member => ?_) (sane.running calm.1 before standing)
    exact Bool.eq_false_of_not_eq_true fun interrupts =>
      absurd (any_eq_true.mpr ⟨event, member, interrupts⟩) (by rw [calm.2]; simp)
  · intro receipt member recovers
    rcases mem_cons.mp member with rfl | earlier
    · exact decidedBy (.inl recovers)
    · exact monotone (sane.recovered receipt earlier recovers)
  · intro receipt member settles
    rcases mem_cons.mp member with rfl | earlier
    · exact decidedBy (.inr settles)
    · exact monotone (sane.settled receipt earlier settles)
  · intro receipt member explained
    rcases mem_cons.mp member with rfl | earlier
    · exact explains explained
    · exact sane.explained receipt earlier explained

end

end Commit

omit [PayloadCodec] in
theorem Advances.of_same (sane : world.Sane job) (session : next.session = world.session)
    (receipts : next.receipts = world.receipts) (status : next.status = world.status)
    (lease : next.leaseOwner = world.leaseOwner) (lapsed : next.lapsed = world.lapsed)
    (owners : next.owners = world.owners) (interrupted : next.interrupted = world.interrupted) :
    Advances job world next := by
  have standing : next.standing job = world.standing job := by
    rw [standing, standing, session]
  have decided : next.decided job = world.decided job := by
    rw [SendWorld.decided, SendWorld.decided, standing, interrupted]
  constructor
  · exact
      { wellFormed := session ▸ sane.wellFormed
        rested := session ▸ sane.rested
        present := session ▸ sane.present
        issued := session ▸ sane.issued
        running := by rw [interrupted, standing]; exact sane.running
        recovered := by rw [receipts, decided]; exact sane.recovered
        settled := by rw [receipts, decided]; exact sane.settled
        explained := by rw [receipts]; exact sane.explained }
  · exact fun known => decided.trans known
  · exact fun unsettled => .inl (status ▸ unsettled)
  · intro owner held
    rw [SendWorld.holds, status, lease, lapsed] at held
    exact held
  · exact fun owner leased => lease ▸ leased
  · exact owners

structure Releases (world next : SendWorld) : Prop where
  holds : ∀ owner, next.holds owner = true → world.holds owner = true
  lease : ∀ owner, next.leaseOwner = some owner → world.leaseOwner = some owner
  owners : next.owners = world.owners

omit [PayloadCodec] in
theorem Releases.cancelIf (world : SendWorld) (cancels : Bool) :
    Releases world (world.cancelIf cancels) := by
  unfold SendWorld.cancelIf cancel
  split
  · split
    · constructor
      · nofun
      · nofun
      · rfl
    · exact ⟨fun _ => id, fun _ => id, rfl⟩
  · exact ⟨fun _ => id, fun _ => id, rfl⟩

omit [PayloadCodec] in
theorem cancelIf_kept (world : SendWorld) (cancels : Bool) :
    (world.cancelIf cancels).session = world.session ∧
      (world.cancelIf cancels).receipts = world.receipts ∧
      (world.cancelIf cancels).interrupted = world.interrupted := by
  unfold SendWorld.cancelIf cancel
  split
  · split <;> exact ⟨rfl, rfl, rfl⟩
  · exact ⟨rfl, rfl, rfl⟩

omit [PayloadCodec] in
theorem Advances.cancelIf (sane : world.Sane job) {cancels : Bool}
    (decides : cancels = true → world.decided job = true) :
    Advances job world (world.cancelIf cancels) := by
  have releases := Releases.cancelIf world cancels
  have same := cancelIf_kept world cancels
  cases cancels with
  | false => exact .of_same sane rfl rfl rfl rfl rfl rfl rfl
  | true =>
    have kept : (world.cancelIf true).decided job = true := by
      rw [SendWorld.decided, SendWorld.standing, same.1, same.2.2]
      exact decides rfl
    refine ⟨?_, fun _ => kept, fun _ => .inr kept, releases.holds, releases.lease, releases.owners⟩
    exact
      { wellFormed := same.1 ▸ sane.wellFormed
        rested := same.1 ▸ sane.rested
        present := same.1 ▸ sane.present
        issued := same.1 ▸ sane.issued
        running := by
          rw [standing, same.1, same.2.2]
          exact sane.running
        recovered := fun _ _ _ => kept
        settled := fun _ _ _ => kept
        explained := same.2.1 ▸ sane.explained }

section Commit

variable {commandId : String} {command : SessionCommand} {events : List SessionEvent}

theorem Advances.commit (sane : world.Sane job)
    (decides : decide world.session command = .ok events)
    (inScope : ∀ event ∈ events, event.leavesScope job.turnId = false)
    (decidedBy : commandId = job.recoverId ∨ commandId = job.finalizeId →
      (world.commit commandId command events).decided job = true)
    (explains : commandId = job.explainId → cancels command events = false) :
    Advances job world (world.commit commandId command events) := by
  have releases := Releases.cancelIf world (cancels command events)
  refine ⟨sane.commit decides inScope decidedBy explains,
    sane.decided_commit commandId decides inScope, fun unsettled => ?_, releases.holds,
      releases.lease,
    releases.owners⟩
  cases cancelled : cancels command events with
  | true => exact .inr (sane.decided_of_cancels decides inScope cancelled)
  | false =>
    rw [SendWorld.commit, cancelled]
    exact .inl unsettled

end Commit

section Dispatch

variable {commandId : String} {command : SessionCommand}

theorem checkOwnership_owned (state : SessionState) :
    (job.owned commandId command).checkOwnership state [] =
      if (job.owned commandId command).actualAttemptId state [] job.expectedAttempt =
          some job.expectedAttempt.attemptId then .ok ()
      else .error (.attemptOwnershipConflict job.turnId job.expectedAttempt.attemptId
        ((job.owned commandId command).actualAttemptId state [] job.expectedAttempt)) :=
  rfl

theorem Sane.admits (sane : world.Sane job) (undecided : world.decided job = false) :
    (job.owned commandId command).checkOwnership world.session [] = .ok () := by
  obtain ⟨calm, turn, standing, -⟩ := not_decided_iff.mp undecided
  obtain ⟨⟨isCurrent, found⟩, active⟩ := Ready.ownedTurn_eq_some.mp standing
  have running := sane.running calm turn standing
  have actual : (job.owned commandId command).actualAttemptId world.session []
      job.expectedAttempt = some job.expectedAttempt.attemptId := by
    change world.session.turns.get? job.expectedAttempt.turnId = some turn at found
    unfold DispatchInput.actualAttemptId
    rw [if_pos, found, Option.map_some, active]
    refine ⟨.inl isCurrent, sane.present.live.2, sane.present.unarchived, .inr ?_⟩
    rw [found, Option.bind_some, running]
  rw [checkOwnership_owned, if_pos actual]

theorem dispatch_owned (commandId : String) (command : SessionCommand) :
    (∃ turnId attemptId actual, world.dispatch (job.owned commandId command) =
        .error (.attemptOwnershipConflict turnId attemptId actual) ∧
      (job.owned commandId command).checkOwnership world.session [] ≠ .ok ()) ∨
    (job.owned commandId command).checkOwnership world.session [] = .ok () ∧
      ((∃ receipt ∈ world.receipts, receipt.commandId = commandId ∧
        world.dispatch (job.owned commandId command) = .ok (world.cancelIf receipt.cancels)) ∨
      (∃ error, decide world.session command = .error error ∧
        world.dispatch (job.owned commandId command) = .error (.domain error)) ∨
      ∃ events, decide world.session command = .ok events ∧
        world.dispatch (job.owned commandId command) =
          .ok (world.commit commandId command events)) := by
  cases guarded : (job.owned commandId command).checkOwnership world.session [] with
  | error failure =>
    left
    have conflict := guarded
    rw [checkOwnership_owned] at conflict
    split at conflict
    · cases conflict
    obtain rfl := error.inj conflict
    refine ⟨job.turnId, job.expectedAttempt.attemptId,
      (job.owned commandId command).actualAttemptId world.session [] job.expectedAttempt,
      ?_, nofun⟩
    rw [dispatch, guarded]
  | ok admitted =>
    refine .inr ⟨rfl, ?_⟩
    have looked : (job.owned commandId command).commandId = commandId := rfl
    have ordered : (job.owned commandId command).command = command := rfl
    rw [dispatch, guarded, looked, ordered]
    cases known : world.receipts.find? (·.commandId = commandId) with
    | some receipt =>
      have found := List.find?_some known
      exact .inl ⟨receipt, mem_of_find?_eq_some known, of_decide_eq_true found, rfl⟩
    | none =>
      right
      cases decides : decide world.session command with
      | error error => exact .inl ⟨error, rfl, rfl⟩
      | ok events => exact .inr ⟨events, rfl, rfl⟩

section

variable (sane : world.Sane job)
include sane

theorem Sane.dispatch_owned_ok (ran : world.dispatch (job.owned commandId command) = .ok next)
    (inScope : ∀ events, decide world.session command = .ok events →
      ∀ event ∈ events, event.leavesScope job.turnId = false)
    (decidedBy : commandId = job.recoverId ∨ commandId = job.finalizeId →
      ∀ events, decide world.session command = .ok events →
        (world.commit commandId command events).decided job = true)
    (explains : commandId = job.explainId → ∀ events,
      decide world.session command = .ok events → cancels command events = false)
    (fresh : commandId ∈ job.commandIds ∨ commandId ∉ world.receipts.map (·.commandId)) :
    Advances job world next ∧
      (commandId = job.recoverId ∨ commandId = job.finalizeId → next.decided job = true) := by
  obtain ⟨_, _, _, failed, -⟩ | ⟨-, replayed⟩ := world.dispatch_owned commandId command
  · cases failed.symm.trans ran
  obtain ⟨receipt, member, same, replay⟩ | ⟨error, -, failed⟩ | ⟨events, decides, committed⟩ :=
    replayed
  · obtain rfl := ok.inj (replay.symm.trans ran)
    have known : commandId ∈ job.commandIds :=
      fresh.resolve_right fun unknown =>
        unknown (mem_map.mpr ⟨receipt, member, same⟩)
    have kept : commandId = job.recoverId ∨ commandId = job.finalizeId →
        world.decided job = true := by
      rintro (rfl | rfl)
      · exact sane.recovered receipt member same
      · exact sane.settled receipt member same
    have advances : Advances job world (world.cancelIf receipt.cancels) := by
      refine .cancelIf sane fun cancels => ?_
      simp only [SendJob.commandIds, mem_cons, not_mem_nil, or_false] at known
      obtain recovers | rfl | settles := known
      · exact kept (.inl recovers)
      · rw [sane.explained receipt member same] at cancels
        cases cancels
      · exact kept (.inr settles)
    exact ⟨advances, fun deciding => advances.decided (kept deciding)⟩
  · cases failed.symm.trans ran
  obtain rfl := ok.inj (committed.symm.trans ran)
  exact ⟨.commit sane decides (inScope events decides)
    (fun deciding => decidedBy deciding events decides)
    (fun explained => explains explained events decides),
    fun deciding => decidedBy deciding events decides⟩

theorem Sane.dispatch_undecided (undecided : world.decided job = false)
    (commandId : String) (command : SessionCommand) :
    (∃ next, world.dispatch (job.owned commandId command) = .ok next) ∨
      ∃ error, decide world.session command = .error error ∧
        world.dispatch (job.owned commandId command) = .error (.domain error) := by
  obtain ⟨_, _, _, -, refused⟩ | ⟨-, replayed⟩ := world.dispatch_owned commandId command
  · exact absurd (sane.admits undecided) refused
  obtain ⟨receipt, -, -, replay⟩ | ⟨error, decides, failed⟩ | ⟨events, -, committed⟩ := replayed
  · exact .inl ⟨_, replay⟩
  · exact .inr ⟨error, decides, failed⟩
  · exact .inl ⟨_, committed⟩

omit [PayloadCodec] in
theorem decide_setStatus (status : SessionStatus) (nowMs : Millis) :
    decide world.session (.setStatus status nowMs) = .ok [] ∨
      decide world.session (.setStatus status nowMs) = .ok [.sessionStatusSet status nowMs] := by
  rw [sane.present.decide_eq sane.wellFormed rfl, decideExisting]
  split
  · exact .inl rfl
  · exact .inr rfl

omit [PayloadCodec] in
theorem decide_persistMessage {message : MessageFields}
    (revision : message.checkpointRevision = none) (final : message.checkpointFinal = none) :
    decide world.session (.persistMessage message) = .ok [] ∨
      decide world.session (.persistMessage message) = .ok [.messagePersisted message] := by
  rw [sane.present.decide_eq sane.wellFormed rfl, decideExisting, decidePersistMessage,
    revision, final, if_neg (by simp)]
  dsimp only
  split
  · exact .inl rfl
  · exact .inr rfl

omit [PayloadCodec] in
theorem Sane.accepts_finalizeTurn
    (undecided : world.decided job = false) (outcome : SettlementOutcome) (settledAt : Millis)
    (error : DomainError) :
    decide world.session (.finalizeTurn job.turnId outcome settledAt) ≠ .error error := by
  intro refused
  obtain ⟨-, turn, standing, -⟩ := not_decided_iff.mp undecided
  have isCurrent := (Ready.ownedTurn_eq_some.mp standing).1.1
  rw [sane.present.decide_eq sane.wellFormed rfl, decideExisting, decideFinalizeTurn,
    if_neg (not_not.mpr isCurrent)] at refused
  split at refused <;> cases refused

end

theorem receipts_dispatch_owned (ran : world.dispatch (job.owned commandId command) = .ok next) :
    ∀ receipt ∈ next.receipts, receipt ∈ world.receipts ∨ receipt.commandId = commandId := by
  obtain ⟨_, _, _, failed, -⟩ | ⟨-, replayed⟩ := world.dispatch_owned commandId command
  · cases failed.symm.trans ran
  obtain ⟨receipt, -, -, replay⟩ | ⟨error, -, failed⟩ | ⟨events, -, committed⟩ := replayed
  · obtain rfl := ok.inj (replay.symm.trans ran)
    intro kept member
    unfold cancelIf cancel at member
    left
    split at member
    · split at member <;> exact member
    · exact member
  · cases failed.symm.trans ran
  obtain rfl := ok.inj (committed.symm.trans ran)
  intro kept member
  rcases mem_cons.mp member with rfl | earlier
  · exact .inr rfl
  · exact .inl earlier

variable {outcome : SettlementOutcome} {settledAt : Millis} {events : List SessionEvent}

omit [PayloadCodec] in
theorem Sane.inScope_of_finalizes (sane : world.Sane job)
    (decides : decide world.session (.finalizeTurn job.turnId outcome settledAt) = .ok events) :
    ∀ event ∈ events, event.leavesScope job.turnId = false := by
  rw [sane.present.decide_eq sane.wellFormed rfl, decideExisting, decideFinalizeTurn] at decides
  split at decides
  · rw [Ready.notCurrent_ok decides]
    simp
  split at decides
  · cases decides
    simp
  · cases decides
    simp [leavesScope, restarts, archives, deletes]

theorem Sane.decided_of_finalizes (sane : world.Sane job) (commandId : String)
    (decides : decide world.session (.finalizeTurn job.turnId outcome settledAt) = .ok events) :
    (world.commit commandId (.finalizeTurn job.turnId outcome settledAt) events).decided job =
      true := by
  refine decided_iff.mpr (.inr fun turn owned => ?_)
  obtain ⟨before, standing, final, -, finalizes⟩ :=
    sane.standing_commit decides (sane.inScope_of_finalizes decides) owned
  obtain ⟨⟨isCurrent, found⟩, -⟩ := Ready.ownedTurn_eq_some.mp standing
  rw [sane.present.decide_eq sane.wellFormed rfl, decideExisting, decideFinalizeTurn,
    if_neg (not_not.mpr isCurrent), found] at decides
  split at decides
  · rename_i finalizing
    exact final (of_decide_eq_true finalizing)
  · obtain rfl := ok.inj decides
    exact finalizes ⟨_, mem_cons_self, decide_eq_true rfl⟩

end Dispatch

end SendWorld

end Zuse.Conversation
