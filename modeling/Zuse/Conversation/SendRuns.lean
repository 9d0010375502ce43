import Zuse.Conversation.SendOutcomes

namespace Zuse.Conversation

open Zuse.Data Zuse.Domain SendWorld String ReactorEffectState Except InsertionMap
open SendJob (commandIds)
open SessionEvent (leavesScope restarts archives deletes)

theorem eq_of_append_eq {left right : String} (first second : String)
    (same : first ++ left = second ++ right)
    (lengths : left.toList.length = right.toList.length) : left = right := by
  have chars := congrArg toList same
  rw [toList_append, toList_append] at chars
  exact toList_injective (List.append_inj' chars lengths).2

namespace SendJob

variable (job : SendJob)

theorem explainId_ne_recoverId : job.explainId ≠ job.recoverId := by
  intro same
  unfold explainId recoverId outcomeUnknownMessageId at same
  have lengths := congrArg length same
  have first : "message:persist:".length = 16 := by decide +kernel
  have third : ":recover".length = 8 := by decide +kernel
  rw [length_append, length_append, length_append] at lengths
  omega

theorem recoverId_ne_finalizeId : job.recoverId ≠ job.finalizeId := by
  intro same
  unfold recoverId finalizeId at same
  have split : ":recover" = ":r" ++ "ecover" := by decide +kernel
  rw [split, ← append_assoc] at same
  exact absurd (eq_of_append_eq _ _ same (by decide +kernel)) (by decide +kernel)

theorem explainId_ne_finalizeId : job.explainId ≠ job.finalizeId := by
  intro same
  unfold explainId finalizeId at same
  have chars := congrArg (fun text : String => text.toList.head?) same
  have first : "message:persist:".toList = 'm' :: "essage:persist:".toList := by
    decide +kernel
  have second : "turn:finalize:".toList = 't' :: "urn:finalize:".toList := by decide +kernel
  simp only [toList_append, first, second, List.cons_append, List.head?_cons] at chars
  exact absurd (Option.some.inj chars) (by decide)

end SendJob

def SendPhase.passes : SendPhase → Bool
  | .recovering .marking _ | .begun .completed | .begun .outcomeUnknown | .ended _ => false
  | _ => true

namespace SendWorld

variable {job : SendJob} {world next : SendWorld} {owner : String}
  {before after : SendExecution}

structure Accounted [PayloadCodec] (job : SendJob) (world : SendWorld) : Prop where
  sane : world.Sane job
  known : ∀ owner execution, world.executions.get? owner = some execution → owner ∈ world.owners
  leased : ∀ owner, world.leaseOwner = some owner → owner ∈ world.owners
  marked : world.effect = .outcomeUnknown → world.decided job = true
  marking : ∀ owner execution onExit, world.executions.get? owner = some execution →
    execution.phase = .recovering .marking onExit → world.decided job = true
  begun : ∀ owner execution, world.executions.get? owner = some execution →
    (execution.phase = .begun .completed → world.effect = .completed) ∧
      (execution.phase = .begun .outcomeUnknown → world.effect = .outcomeUnknown)
  kept : world.undecided job = true → world.status.isUnsettled = true
  ended : world.undecided job = true → ∀ owner execution exit,
    world.executions.get? owner = some execution → execution.phase = .ended exit →
      world.holds owner = true → exit = .onDemand

/-- What an execution may come to with its delivery undecided. -/
structure Lands (job : SendJob) (next : SendWorld) (owner : String) (phase : SendPhase) :
    Prop where
  marking : ∀ onExit, phase = .recovering .marking onExit → next.decided job = true
  begun : (phase = .begun .completed → next.effect = .completed) ∧
    (phase = .begun .outcomeUnknown → next.effect = .outcomeUnknown)
  ended : ∀ exit, phase = .ended exit → next.undecided job = true →
    next.holds owner = true → exit = .onDemand

variable [PayloadCodec]

section

variable (accounted : world.Accounted job) (found : world.executions.get? owner = some before)
  (executions : next.executions = world.executions.set owner after)
include accounted found executions

theorem Accounted.advance (advances : Advances job world next)
    (terminal : world.effect.terminal = true → next.effect = world.effect)
    (unknown : next.effect = .outcomeUnknown → next.decided job = true)
    (arises : next.undecided job = true → world.undecided job = true ∨ next.claimedBy owner = true)
    (lands : Lands job next owner after.phase) : next.Accounted job := by
  constructor
  · exact advances.sane
  · intro other execution isNext
    rw [advances.owners]
    obtain ⟨rfl, -⟩ | earlier := get?_set_cases (executions ▸ isNext)
    · exact accounted.known owner before found
    · exact accounted.known other execution earlier
  · intro other leased
    rw [advances.owners]
    exact accounted.leased other (advances.lease other leased)
  · exact unknown
  · intro other execution onExit isNext marks
    obtain ⟨-, rfl⟩ | earlier := get?_set_cases (executions ▸ isNext)
    · exact lands.marking onExit marks
    · exact advances.decided (accounted.marking other execution onExit earlier marks)
  · intro other execution isNext
    obtain ⟨-, rfl⟩ | earlier := get?_set_cases (executions ▸ isNext)
    · exact lands.begun
    · obtain ⟨completed, unknown⟩ := accounted.begun other execution earlier
      refine ⟨fun isBegun => ?_, fun isBegun => ?_⟩
      · have same := completed isBegun
        rw [terminal (by rw [same]; rfl), same]
      · have same := unknown isBegun
        rw [terminal (by rw [same]; rfl), same]
  · intro undecided
    obtain earlier | claimed := arises undecided
    · refine (advances.unsettled (accounted.kept earlier)).resolve_right fun decided => ?_
      rw [(undecided_iff.mp undecided).2] at decided
      cases decided
    · rw [claimedBy, decide_eq_true_eq] at claimed
      rw [claimed.1]
      rfl
  intro undecided other execution exit isNext isEnded held
  obtain ⟨rfl, rfl⟩ | isEarlier := get?_set_cases (executions ▸ isNext)
  · exact lands.ended exit isEnded undecided held
  obtain earlier | claimed := arises undecided
  · exact accounted.ended earlier other execution exit isEarlier isEnded (advances.holds other held)
  rw [claimedBy, decide_eq_true_eq] at claimed
  rw [holds, decide_eq_true_eq] at held
  obtain rfl := Option.some.inj (claimed.2.symm.trans held.2.1)
  rw [executions, get?_set_self] at isNext
  obtain rfl := Option.some.inj isNext
  exact lands.ended exit isEnded undecided (decide_eq_true held)

theorem Accounted.moves (effect : next.effect = world.effect) (advances : Advances job world next)
    (lands : Lands job next owner after.phase) : next.Accounted job := by
  refine accounted.advance found executions advances (fun _ => effect) (fun unknown => ?_)
    (fun undecided => .inl ?_) lands
  · exact advances.decided (accounted.marked (effect.symm.trans unknown))
  · obtain ⟨open_, notDecided⟩ := undecided_iff.mp undecided
    refine undecided_iff.mpr ⟨effect ▸ open_, Bool.eq_false_of_not_eq_true fun decided => ?_⟩
    rw [advances.decided decided] at notDecided
    cases notDecided

end

theorem Accounted.elsewhere (accounted : world.Accounted job)
    (executions : next.executions = world.executions) (effect : next.effect = world.effect)
    (advances : Advances job world next) : next.Accounted job := by
  have undecided_of (undecided : next.undecided job = true) : world.undecided job = true := by
    obtain ⟨isOpen, notDecided⟩ := undecided_iff.mp undecided
    refine undecided_iff.mpr ⟨effect ▸ isOpen, Bool.eq_false_of_not_eq_true fun decided => ?_⟩
    rw [advances.decided decided] at notDecided
    cases notDecided
  constructor
  · exact advances.sane
  · rw [executions, advances.owners]
    exact accounted.known
  · intro owner leased
    rw [advances.owners]
    exact accounted.leased owner (advances.lease owner leased)
  · exact fun unknown => advances.decided (accounted.marked (effect.symm.trans unknown))
  · rw [executions]
    exact fun owner execution onExit found marks =>
      advances.decided (accounted.marking owner execution onExit found marks)
  · rw [executions, effect]
    exact accounted.begun
  · intro undecided
    refine (advances.unsettled (accounted.kept (undecided_of undecided))).resolve_right
      fun decided => ?_
    rw [(undecided_iff.mp undecided).2] at decided
    cases decided
  · rw [executions]
    exact fun undecided owner execution exit found isEnded held =>
      accounted.ended (undecided_of undecided) owner execution exit found isEnded
        (advances.holds owner held)

variable {phase : SendPhase}

omit [PayloadCodec] in
theorem Lands.passing (passes : phase.passes = true) : Lands job next owner phase where
  marking := by
    rintro onExit rfl
    cases passes
  begun := by
    constructor <;>
    · rintro rfl
      cases passes
  ended := by
    rintro exit rfl
    cases passes

variable {onExit : Bool}

omit [PayloadCodec] in
theorem Lands.marks (decided : next.decided job = true) :
    Lands job next owner (.recovering .marking onExit) where
  marking := fun _ _ => decided
  begun := ⟨nofun, nofun⟩
  ended := nofun

variable {exit : SendExit}

omit [PayloadCodec] in
theorem Lands.ends
    (parked : next.undecided job = true → next.holds owner = true → exit = .onDemand) :
    Lands job next owner (.ended exit) where
  marking := nofun
  begun := ⟨nofun, nofun⟩
  ended := fun _ same => by
    cases same
    exact parked

omit [PayloadCodec] in
theorem Lands.of_decided (decided : next.decided job = true) :
    Lands job next owner (.ended exit) := by
  refine .ends fun undecided => ?_
  rw [(undecided_iff.mp undecided).2] at decided
  cases decided

omit [PayloadCodec] in
theorem Advances.move (advances : Advances job world next) (owner : String)
    (execution : SendExecution) : Advances job world (next.move owner execution) :=
  ⟨{ advances.sane with }, advances.decided, advances.unsettled, advances.holds,
    advances.lease, advances.owners⟩

theorem Accounted.move (accounted : world.Accounted job)
    (found : world.executions.get? owner = some before)
    (lands : Lands job world owner after.phase) : (world.move owner after).Accounted job :=
  accounted.moves found rfl rfl (.of_same accounted.sane rfl rfl rfl rfl rfl rfl rfl)
    { lands with }

theorem Accounted.dispatched (accounted : world.Accounted job)
    (found : world.executions.get? owner = some before) {input : DispatchInput}
    (ran : world.dispatch input = .ok next) (advances : Advances job world next)
    (lands : Lands job next owner after.phase) : (next.move owner after).Accounted job := by
  have same := SameDelivery.of_dispatch ran
  exact accounted.moves found (congrArg (·.set owner after) same.executions) same.effect
    (advances.move owner after) { lands with }

section Dispatch

variable {commandId : String} {command : SessionCommand} {started : Bool}

theorem Sane.decided_of_failed (sane : world.Sane job) (commandId : String)
    (accepts : world.decided job = false → ∀ error, decide world.session command ≠ .error error)
    (failed : ∀ next, world.dispatch (job.owned commandId command) ≠ .ok next) :
    world.decided job = true := by
  refine Bool.eq_true_of_not_eq_false fun undecided => ?_
  obtain ⟨next, ran⟩ | ⟨error, refuses, -⟩ :=
    sane.dispatch_undecided undecided commandId command
  · exact failed next ran
  · exact accepts undecided error refuses

theorem Accounted.dispatchThen {event : SessionEvent} (accounted : world.Accounted job)
    (found : world.executions.get? owner = some before) (conflict : SendExit)
    (decides : decide world.session command = .ok [] ∨
      decide world.session command = .ok [event])
    (inScope : event.leavesScope job.turnId = false)
    (explains : commandId = job.explainId → cancels command [event] = false)
    (fresh : commandId = job.explainId ∨
      commandId ∉ job.commandIds ∧ commandId ∉ world.receipts.map (·.commandId))
    (passes : phase.passes = true) :
    (SendProcess.dispatchThen world owner started (job.owned commandId command) conflict
      phase).Accounted job := by
  have decided (events) (ran : decide world.session command = .ok events) :
      events = [] ∨ events = [event] := by
    obtain none_ | one := decides
    · exact .inl (ok.inj (ran.symm.trans none_))
    · exact .inr (ok.inj (ran.symm.trans one))
  have accepts (error) : decide world.session command ≠ .error error := by
    intro refused
    obtain none_ | one := decides
    · cases none_.symm.trans refused
    · cases one.symm.trans refused
  have plain : ¬(commandId = job.recoverId ∨ commandId = job.finalizeId) := by
    rintro (rfl | rfl)
    · obtain same | ⟨notOwn, -⟩ := fresh
      · exact job.explainId_ne_recoverId same.symm
      · simp [commandIds] at notOwn
    · obtain same | ⟨notOwn, -⟩ := fresh
      · exact job.explainId_ne_finalizeId same.symm
      · simp [commandIds] at notOwn
  unfold SendProcess.dispatchThen
  split
  · rename_i dispatched ran
    obtain ⟨advances, -⟩ := accounted.sane.dispatch_owned_ok ran
      (fun events ran => by obtain rfl | rfl := decided events ran <;> simp [inScope])
      (fun deciding => absurd deciding plain)
      (fun same events ran => by
        have kept := explains same
        obtain rfl | rfl := decided events ran
        · exact (Bool.or_false _).trans (Bool.or_eq_false_iff.mp kept).1
        · exact kept)
      (fresh.imp (fun same => by simp [commandIds, same]) And.right)
    exact accounted.dispatched found ran advances (.passing passes)
  · rename_i failed
    refine accounted.move found (.of_decided ?_)
    refine accounted.sane.decided_of_failed commandId (fun _ => accepts) fun next ran => ?_
    cases failed.symm.trans ran
  · rename_i _ failed
    refine accounted.move found (.of_decided ?_)
    refine accounted.sane.decided_of_failed commandId (fun _ => accepts) fun next ran => ?_
    cases failed.symm.trans ran

end Dispatch

variable {process : SendProcess} {draw : SendDraw} {started : Bool}

section

variable (accounted : world.Accounted process.job)
include accounted

section

variable (found : world.executions.get? owner = some before)
include found

theorem Accounted.setStatus
    (fresh : draw.uuid ∉ process.job.commandIds ∧ draw.uuid ∉ world.receipts.map (·.commandId))
    (status : SessionStatus) (conflict : SendExit) (passes : phase.passes = true) :
    (SendProcess.dispatchThen world owner started
      (process.job.setStatus draw.uuid status draw.nowMs) conflict phase).Accounted
        process.job := by
  refine accounted.dispatchThen found conflict
    (decide_setStatus accounted.sane status draw.nowMs) rfl ?_ (.inr fresh) passes
  rintro same
  refine absurd ?_ fresh.1
  simp [commandIds, same]

theorem Accounted.persistError {messageId : String}
    (fresh : "message:persist:" ++ messageId = process.job.explainId ∨
      "message:persist:" ++ messageId ∉ process.job.commandIds ∧
      "message:persist:" ++ messageId ∉ world.receipts.map (·.commandId))
    (message : String) (conflict : SendExit) (passes : phase.passes = true) :
    (SendProcess.dispatchThen world owner started
      (process.job.persistError messageId message draw.nowMs) conflict phase).Accounted
        process.job := by
  unfold SendJob.persistError
  generalize isFields : MessageFields.mk none messageId (some process.job.turnId) "system"
    "error" _ none none none draw.nowMs = fields
  have revision : fields.checkpointRevision = none := by rw [← isFields]
  have final : fields.checkpointFinal = none := by rw [← isFields]
  exact accounted.dispatchThen found conflict
    (decide_persistMessage accounted.sane revision final) rfl (fun _ => rfl) fresh passes

theorem Accounted.recover {step : RecoveryStep}
    (isBefore : before.phase = .recovering step onExit) :
    (process.recover world owner started draw onExit step).Accounted process.job := by
  have sane := accounted.sane
  cases step with
  | recovering =>
    have refuses : decide world.session (.recoverTurn process.job.turnId
        process.job.expectedAttempt.attemptId draw.nowMs) =
        decideRecoverTurn world.session process.job.turnId
          process.job.expectedAttempt.attemptId draw.nowMs :=
      sane.present.decide_eq sane.wellFormed rfl
    simp only [SendProcess.recover]
    split
    · rename_i dispatched ran
      have inScope (events : List SessionEvent) (decides : decide world.session
          (.recoverTurn process.job.turnId process.job.expectedAttempt.attemptId draw.nowMs) =
            .ok events) : ∀ event ∈ events, event.leavesScope process.job.turnId = false :=
        decideRecoverTurn_inScope (refuses.symm.trans decides) _
      have supersedes (events : List SessionEvent) (decides : decide world.session
          (.recoverTurn process.job.turnId process.job.expectedAttempt.attemptId draw.nowMs) =
            .ok events) : (world.commit process.job.recoverId (.recoverTurn process.job.turnId
              process.job.expectedAttempt.attemptId draw.nowMs) events).decided process.job =
                true := by
        refine sane.decided_of_cancels decides (inScope events decides) ?_
        obtain ⟨attempt, member⟩ := decideRecoverTurn_starts (refuses.symm.trans decides)
        rw [cancels, Bool.or_eq_true, List.any_eq_true]
        exact .inr ⟨_, member, rfl⟩
      obtain ⟨advances, decided⟩ := sane.dispatch_owned_ok ran inScope (fun _ => supersedes)
        (fun explains => absurd explains.symm process.job.explainId_ne_recoverId)
        (.inl List.mem_cons_self)
      exact accounted.dispatched found ran advances (.marks (decided (.inl rfl)))
    · exact accounted.move found (.passing rfl)
    · rename_i failed
      refine accounted.move found (.of_decided (Bool.eq_true_of_not_eq_false fun undecided => ?_))
      obtain ⟨_, ran⟩ | ⟨_, -, refused⟩ :=
        sane.dispatch_undecided undecided process.job.recoverId _
      · cases failed.symm.trans ran
      · cases failed.symm.trans refused
    rename_i notRefused _ failed
    refine accounted.move found (.of_decided (Bool.eq_true_of_not_eq_false fun undecided => ?_))
    obtain ⟨_, ran⟩ | ⟨_, decides, refused⟩ :=
      sane.dispatch_undecided undecided process.job.recoverId _
    · cases failed.symm.trans ran
    · obtain ⟨message, rfl⟩ := decideRecoverTurn_error (refuses.symm.trans decides)
      exact notRefused message (error.inj (failed.symm.trans refused))
  | explaining => exact accounted.persistError found (.inl rfl) _ _ rfl
  | settling =>
    have settles {failure : DispatchFailure}
        (failed : world.dispatch (process.job.settleTurn draw.nowMs) = .error failure) :
        world.decided process.job = true := by
      refine sane.decided_of_failed process.job.finalizeId
        (fun undecided => sane.accepts_finalizeTurn undecided .error draw.nowMs)
        fun next ran => ?_
      cases failed.symm.trans ran
    simp only [SendProcess.recover]
    split
    · rename_i dispatched ran
      obtain ⟨advances, decided⟩ := sane.dispatch_owned_ok ran (fun _ => sane.inScope_of_finalizes)
        (fun _ _ => sane.decided_of_finalizes process.job.finalizeId)
        (fun explains => absurd explains.symm process.job.explainId_ne_finalizeId)
        (.inl (by simp [commandIds]))
      exact accounted.dispatched found ran advances (.marks (decided (.inr rfl)))
    · rename_i failed
      exact accounted.move found (.marks (settles failed))
    · rename_i failed
      exact accounted.move found (.of_decided (settles failed))
  | marking =>
    have decided := accounted.marking owner before onExit found isBefore
    refine accounted.advance found rfl (.of_same sane rfl rfl rfl rfl rfl rfl rfl)
      markOutcomeUnknown_of_terminal (fun _ => decided)
      (fun undecided => ?_) (.of_decided decided)
    have notDecided : world.decided process.job = false := (undecided_iff.mp undecided).2
    rw [decided] at notDecided
    cases notDecided

end

end

omit [PayloadCodec] in
/-- A standing attempt is what `activeAttempt` reads. -/
theorem Sane.activeAttempt_eq (sane : world.Sane job) (undecided : world.decided job = false) :
    activeAttempt world.session = some (job.turnId, job.expectedAttempt.attemptId) := by
  obtain ⟨-, turn, standing, -⟩ := not_decided_iff.mp undecided
  obtain ⟨⟨isCurrent, found⟩, active⟩ := Ready.ownedTurn_eq_some.mp standing
  have sameId := sane.wellFormed.owned.table.turnId _ turn found
  rw [activeAttempt, sane.present.unarchived, if_neg Bool.false_ne_true,
    SessionState.currentTurn, isCurrent, Option.bind_some, found, Option.map_some, sameId,
    active]

omit [PayloadCodec] in
theorem not_undecided_of_decided (decided : world.decided job = true) :
    world.undecided job ≠ true := by
  intro undecided
  rw [(undecided_iff.mp undecided).2] at decided
  cases decided

/-- What the steps that are accounted for ask of an execution. -/
structure Allows (job : SendJob) (world : SendWorld) (owner : String)
    (execution : SendExecution) (answer : SendAnswer) : Prop where
  begins : execution.phase = .beginning → answer = .ok → world.effect = .missing →
    world.claimedBy owner = true
  lives : world.undecided job = true → world.holds owner = true → answer ≠ .dies
  finds : world.undecided job = true → world.holds owner = true → answer = .interrupted →
    execution.deliveryStarted = true
  opens : world.undecided job = true → world.holds owner = true →
    execution.phase = .ensuring → answer ≠ .refused
  answers : world.undecided job = true → world.holds owner = true →
    execution.phase = .awaitingReopened → answer ≠ .uncertain

variable {answer : SendAnswer}

theorem Allows.of_accounts {start : SendStart} (found : world.executions.get? owner = some before)
    (allowed : start.accounts world (.perform owner draw answer) = true) :
    Allows start.job world owner before answer := by
  simp only [SendStart.accounts, found, Bool.and_eq_true, Bool.or_eq_true,
    Bool.not_eq_true', Bool.and_eq_false_iff, decide_eq_true_eq] at allowed
  obtain ⟨begins, stays⟩ := allowed
  constructor
  · intro begun ok missing
    simpa [begun, ok, missing] using begins
  all_goals
    intro undecided held
    rw [undecided, held] at stays
    simp only [Bool.true_eq_false, or_self, false_or] at stays
  · exact stays.1.1.1
  · exact fun interrupted => stays.1.1.2.resolve_left (not_not.mpr interrupted)
  · exact fun ensuring => stays.1.2.resolve_left (not_not.mpr ensuring)
  · exact fun awaiting => stays.2.resolve_left (not_not.mpr awaiting)

section Perform

variable (accounted : world.Accounted process.job)
  (found : world.executions.get? owner = some before)

include accounted found

/-- `begin`, with the claim where it takes the receipt. -/
theorem Accounted.begins {execution : SendExecution}
    (begun : execution.phase = .begun world.effect.begin_.1)
    (claimed : world.effect = .missing → world.claimedBy owner = true) :
    ({ world with effect := world.effect.begin_.2 }.move owner execution).Accounted
      process.job := by
  have advances : Advances process.job world
      ({ world with effect := world.effect.begin_.2 }.move owner execution) :=
    .of_same accounted.sane rfl rfl rfl rfl rfl rfl rfl
  refine accounted.advance found rfl advances begin_of_terminal
    (fun unknown => ?_) (fun undecided => ?_) ?_
  · cases effect : world.effect with
    | outcomeUnknown => exact accounted.marked effect
    | _ =>
      rw [effect] at unknown
      cases unknown
  · obtain ⟨isOpen, notDecided⟩ := undecided_iff.mp undecided
    cases effect : world.effect with
    | missing => exact .inr (claimed effect)
    | _ =>
      rw [effect] at isOpen
      exact .inl (undecided_iff.mpr ⟨by rw [effect]; exact isOpen, notDecided⟩)
  rw [begun]
  constructor
  · nofun
  · change (_ → world.effect.begin_.2 = _) ∧ (_ → world.effect.begin_.2 = _)
    cases effect : world.effect <;> simp [begin_]
  · nofun

theorem Accounted.proceed (isBefore : before.phase = phase)
    (fresh : [draw.uuid, "message:persist:" ++ draw.uuid].all (fun id =>
      id ∉ process.job.commandIds ∧ id ∉ world.receipts.map (·.commandId)) = true)
    (claimed : phase = .beginning → world.effect = .missing → world.claimedBy owner = true)
    (proceeded : process.proceed world owner started draw phase = some next) :
    next.Accounted process.job := by
  have sane := accounted.sane
  simp only [List.all_cons, List.all_nil, Bool.and_true, Bool.and_eq_true,
    decide_eq_true_eq] at fresh
  obtain ⟨freshId, freshMessage⟩ := fresh
  cases phase with
  | renewing =>
    cases proceeded
    refine accounted.move found ?_
    split
    · exact .passing rfl
    · rename_i lost
      exact .ends fun _ held => absurd held lost
  | lookingUp =>
    cases proceeded
    refine accounted.move found ?_
    rw [if_pos ⟨sane.present.live.1, sane.present.live.2, sane.present.unarchived⟩]
    exact .passing rfl
  | comparing =>
    cases proceeded
    refine accounted.move found ?_
    split
    · exact .passing rfl
    · rename_i other
      refine .of_decided (Bool.eq_true_of_not_eq_false fun undecided => ?_)
      exact other (sane.activeAttempt_eq undecided)
  | preparing =>
    cases proceeded
    exact accounted.move found (.passing rfl)
  | beginning =>
    cases proceeded
    exact accounted.begins found rfl (claimed rfl)
  | begun began =>
    obtain ⟨completed, unknown⟩ := accounted.begun owner before found
    cases began with
    | completed =>
      cases proceeded
      refine accounted.move found (.ends fun undecided => ?_)
      obtain ⟨started | unknown, -⟩ := undecided_iff.mp undecided
      · cases (completed isBefore).symm.trans started
      · cases (completed isBefore).symm.trans unknown
    | outcomeUnknown =>
      cases proceeded
      exact accounted.move found (.of_decided (accounted.marked (unknown isBefore)))
    | started | alreadyStarted =>
      cases proceeded
      exact accounted.move found (.passing rfl)
  | settingRunning =>
    cases proceeded
    exact accounted.setStatus found freshId _ _ rfl
  | sending | awaiting | ensuring | awaitingReopened =>
    cases proceeded
    exact accounted.moves found rfl rfl (.of_same sane rfl rfl rfl rfl rfl rfl rfl) (.passing rfl)
  | completing =>
    cases proceeded
    have unknown (same : world.effect.complete = .outcomeUnknown) :
        world.decided process.job = true := by
      refine accounted.marked ?_
      rw [complete] at same
      split at same
      · assumption
      · cases same
    have closed (undecided : undecided process.job
        { world with effect := world.effect.complete } = true) : False := by
      obtain ⟨started | same, notDecided⟩ := undecided_iff.mp undecided
      · have terminal := world.effect.terminal_complete
        rw [show world.effect.complete = .started from started] at terminal
        cases terminal
      exact not_undecided_of_decided (unknown same) (undecided_iff.mpr
        ⟨.inr (by
          have isComplete : world.effect.complete = .outcomeUnknown := same
          rw [complete] at isComplete
          split at isComplete
          · assumption
          · cases isComplete), notDecided⟩)
    exact accounted.advance found rfl (.of_same sane rfl rfl rfl rfl rfl rfl rfl)
      complete_of_terminal unknown
      (fun undecided => (closed undecided).elim) (.ends fun undecided => (closed undecided).elim)
  | reporting reason =>
    cases proceeded
    exact accounted.persistError found (.inr freshMessage) _ _ rfl
  | settingError reason =>
    cases proceeded
    refine accounted.setStatus found freshId _ _ ?_
    split <;> rfl
  | releasing =>
    cases proceeded
    have kept (same : world.effect.releaseUndelivered ≠ .missing) :
        world.effect.releaseUndelivered = world.effect ∧ world.effect ≠ .started := by
      rw [releaseUndelivered] at same ⊢
      split at same
      · exact absurd rfl same
      · rename_i other
        rw [if_neg other]
        exact ⟨rfl, other⟩
    have unknown (same : world.effect.releaseUndelivered = .outcomeUnknown) :
        world.decided process.job = true := by
      refine accounted.marked ?_
      rw [← (kept (by rw [same]; simp)).1]
      exact same
    have closed (undecided : undecided process.job
        { world with effect := world.effect.releaseUndelivered } = true) : False := by
      obtain ⟨started | same, notDecided⟩ := undecided_iff.mp undecided
      · change world.effect.releaseUndelivered = _ at started
        obtain ⟨same, other⟩ := kept (by rw [started]; simp)
        exact other (same.symm.trans started)
      · rw [show world.decided process.job = false from notDecided] at unknown
        cases unknown same
    exact accounted.advance found rfl (.of_same sane rfl rfl rfl rfl rfl rfl rfl)
      releaseUndelivered_of_terminal unknown
      (fun undecided => (closed undecided).elim) (.ends fun undecided => (closed undecided).elim)
  | recovering step onExit =>
    cases proceeded
    exact accounted.recover found isBefore
  | ended exit => cases proceeded

theorem Accounted.perform
    (fresh : [draw.uuid, "message:persist:" ++ draw.uuid].all (fun id =>
      id ∉ process.job.commandIds ∧ id ∉ world.receipts.map (·.commandId)) = true)
    (allows : Allows process.job world owner before answer)
    (performed : process.perform world owner before draw answer = some next) :
    next.Accounted process.job := by
  obtain ⟨started, phase⟩ := before
  cases answer with
  | ok => exact accounted.proceed found rfl fresh (fun begun => allows.begins begun rfl) performed
  | refused =>
    cases phase with
    | preparing =>
      cases performed
      exact accounted.move found (.ends fun _ _ => rfl)
    | ensuring =>
      cases performed
      exact accounted.move found
        (.ends fun undecided held => absurd rfl (allows.opens undecided held rfl))
    | _ => cases performed
  | undelivered =>
    cases phase with
    | awaiting | awaitingReopened =>
      cases performed
      exact accounted.moves found rfl rfl (.of_same accounted.sane rfl rfl rfl rfl rfl rfl rfl)
        (.passing rfl)
    | _ => cases performed
  | uncertain =>
    cases phase with
    | awaiting =>
      cases performed
      exact accounted.moves found rfl rfl (.of_same accounted.sane rfl rfl rfl rfl rfl rfl rfl)
        (.passing rfl)
    | awaitingReopened =>
      cases performed
      exact accounted.moves found rfl rfl (.of_same accounted.sane rfl rfl rfl rfl rfl rfl rfl)
        (.ends fun undecided held => absurd rfl (allows.answers undecided held rfl))
    | _ => cases performed
  | failed reason =>
    cases phase with
    | ensuring =>
      cases performed
      exact accounted.move found (.passing rfl)
    | _ => cases performed
  | dies =>
    have dies : (world.move owner ⟨started, .ended .never⟩).Accounted process.job :=
      accounted.move found (.ends fun undecided held => absurd rfl (allows.lives undecided held))
    cases phase with
    | awaiting | awaitingReopened | ended => cases performed
    | _ =>
      cases performed
      exact dies
  | interrupted =>
    have interrupted : (world.move owner
        ⟨started, if started then .recovering .recovering true else .ended .never⟩).Accounted
          process.job := by
      refine accounted.move found ?_
      cases started with
      | true => exact .passing rfl
      | false => exact .ends fun undecided held => by cases allows.finds undecided held rfl
    cases phase with
    | recovering step onExit =>
      cases onExit with
      | true => cases performed
      | false =>
        cases performed
        exact interrupted
    | ended => cases performed
    | _ =>
      cases performed
      exact interrupted

end Perform

variable {start : SendStart}

variable (accounted : world.Accounted job)
include accounted

variable {owner : String}

theorem Accounted.claim (fresh : owner ∉ world.owners) :
    SendWorld.Accounted job
      { world with
        status := .running
        leaseOwner := some owner
        lapsed := false
        owners := owner :: world.owners
        executions := world.executions.set owner ⟨false, .renewing⟩ } := by
  constructor
  · exact { accounted.sane with }
  · intro other execution isNext
    obtain ⟨rfl, -⟩ | earlier := get?_set_cases isNext
    · exact List.mem_cons_self
    · exact List.mem_cons_of_mem _ (accounted.known other execution earlier)
  · intro other leased
    cases leased
    exact List.mem_cons_self
  · exact accounted.marked
  · intro other execution onExit isNext marks
    obtain ⟨-, rfl⟩ | earlier := get?_set_cases isNext
    · cases marks
    · exact accounted.marking other execution onExit earlier marks
  · intro other execution isNext
    obtain ⟨-, rfl⟩ | earlier := get?_set_cases isNext
    · exact ⟨nofun, nofun⟩
    · exact accounted.begun other execution earlier
  · exact fun _ => rfl
  intro _ other execution exit isNext isEnded held
  obtain ⟨-, rfl⟩ | earlier := get?_set_cases isNext
  · cases isEnded
  · rw [holds, decide_eq_true_eq] at held
    obtain rfl := Option.some.inj held.2.1
    exact absurd (accounted.known owner execution earlier) fresh

theorem Accounted.unclaim (session : next.session = world.session)
    (receipts : next.receipts = world.receipts) (interrupted : next.interrupted = world.interrupted)
    (owners : next.owners = world.owners) (effect : next.effect = world.effect)
    (executions : ∀ owner execution, next.executions.get? owner = some execution →
      world.executions.get? owner = some execution)
    (leased : ∀ owner, next.leaseOwner = some owner → world.leaseOwner = some owner)
    (held : ∀ owner, next.holds owner = true → world.holds owner = true)
    (unsettled : world.undecided job = true → next.status.isUnsettled = true) :
    next.Accounted job := by
  have standing : next.standing job = world.standing job := by
    rw [standing, standing, session]
  have decided : next.decided job = world.decided job := by
    rw [decided, decided, standing, interrupted]
  have undecided : next.undecided job = world.undecided job := by
    rw [undecided, undecided, effect, decided]
  constructor
  · exact
      { wellFormed := session ▸ accounted.sane.wellFormed
        rested := session ▸ accounted.sane.rested
        present := session ▸ accounted.sane.present
        issued := session ▸ accounted.sane.issued
        running := by rw [interrupted, standing]; exact accounted.sane.running
        recovered := by rw [receipts, decided]; exact accounted.sane.recovered
        settled := by rw [receipts, decided]; exact accounted.sane.settled
        explained := by rw [receipts]; exact accounted.sane.explained }
  · rw [owners]
    exact fun owner execution found => accounted.known owner execution (executions _ _ found)
  · rw [owners]
    exact fun owner isLeased => accounted.leased owner (leased owner isLeased)
  · rw [effect, decided]
    exact accounted.marked
  · rw [decided]
    exact fun owner execution onExit found =>
      accounted.marking owner execution onExit (executions _ _ found)
  · rw [effect]
    exact fun owner execution found => accounted.begun owner execution (executions _ _ found)
  · rw [undecided]
    exact unsettled
  · rw [undecided]
    exact fun isOpen owner execution exit found isEnded isHeld =>
      accounted.ended isOpen owner execution exit (executions _ _ found) isEnded (held owner isHeld)

theorem Accounted.settle {started : Bool}
    (found : world.executions.get? owner = some ⟨started, .ended exit⟩) :
    (SendStart.settle world owner exit).Accounted job := by
  have fewer (other : String) (execution : SendExecution)
      (isNext : (world.executions.delete owner).get? other = some execution) :
      world.executions.get? other = some execution := by
    rw [get?_delete] at isNext
    split at isNext
    · cases isNext
    · exact isNext
  unfold SendStart.settle
  split
  · rename_i isHeld
    refine accounted.unclaim rfl rfl rfl rfl rfl fewer ?_ ?_ ?_
    · nofun
    · intro other held
      rw [holds, decide_eq_true_eq] at held
      cases held.2.1
    · intro undecided
      rw [accounted.ended undecided owner _ exit found rfl isHeld]
      rfl
  · exact accounted.unclaim rfl rfl rfl rfl rfl fewer (fun _ => id) (fun _ => id) accounted.kept

theorem Accounted.cancelIf {cancels : Bool}
    (spares : world.undecided job = true → cancels = false) :
    (world.cancelIf cancels).Accounted job := by
  have releases := Releases.cancelIf world cancels
  have same := SameDelivery.cancelIf world cancels
  have kept := cancelIf_kept world cancels
  refine accounted.unclaim kept.1 kept.2.1 kept.2.2 releases.owners same.effect ?_
    releases.lease releases.holds fun undecided => ?_
  · rw [same.executions]
    exact fun _ _ => id
  · rw [spares undecided]
    exact accounted.kept undecided

end SendWorld

namespace SendStart

variable [PayloadCodec] {start : SendStart} {world next : SendWorld} {label : SendLabel}

theorem accounted_init : start.init.Accounted start.job where
  sane :=
    { wellFormed := (Session.Sound.of_reachable start.reached).wellFormed
      rested := (Session.Sound.of_reachable start.reached).rested
      present := start.present
      issued := start.issued
      running := by
        intro calm turn standing
        change (ownedTurn start.session.state start.job.turnId _).any _ = false at calm
        change ownedTurn start.session.state start.job.turnId _ = some turn at standing
        rw [standing, Option.any_some, decide_eq_false_iff_not, not_not] at calm
        exact calm
      recovered := fun receipt member same => by
        refine absurd ?_ (start.unused receipt member)
        simp [commandIds, same]
      settled := fun receipt member same => by
        refine absurd ?_ (start.unused receipt member)
        simp [commandIds, same]
      explained := fun receipt member same => by
        refine absurd ?_ (start.unused receipt member)
        simp [commandIds, same] }
  known := nofun
  leased := nofun
  marked := nofun
  marking := nofun
  begun := nofun
  kept := fun _ => rfl
  ended := nofun

theorem commit_advances {commandId : String} {command : SessionCommand}
    {events : List SessionEvent} (sane : world.Sane start.job)
    (foreign : start.foreign commandId command = true)
    (decides : decide world.session command = .ok events)
    (inScope : ∀ event ∈ events, event.leavesScope start.job.turnId = false) :
    SendWorld.Advances start.job world (world.commit commandId command events) := by
  have own (known : commandId ∈ start.job.commandIds) :
      commandId = start.job.finalizeId ∧
        ∃ outcome settledAt, command = .finalizeTurn start.job.turnId outcome settledAt := by
    unfold SendStart.foreign at foreign
    rw [Bool.or_eq_true, decide_eq_true_eq, Bool.and_eq_true, decide_eq_true_eq] at foreign
    obtain ⟨isFinalize, finalizes⟩ := foreign.resolve_left (not_not.mpr known)
    refine ⟨isFinalize, ?_⟩
    cases command with
    | finalizeTurn turnId outcome settledAt =>
      exact ⟨outcome, settledAt, by rw [of_decide_eq_true finalizes]⟩
    | _ => cases finalizes
  refine .commit sane decides inScope ?_ fun explains => ?_
  · rintro (recovers | settles)
    · obtain ⟨same, -⟩ := own (by simp [commandIds, recovers])
      exact absurd (recovers.symm.trans same) start.job.recoverId_ne_finalizeId
    · obtain ⟨-, outcome, settledAt, rfl⟩ := own (by simp [commandIds, settles])
      exact sane.decided_of_finalizes commandId decides
  · obtain ⟨same, -⟩ := own (by simp [commandIds, explains])
    exact absurd (explains.symm.trans same) start.job.explainId_ne_finalizeId

theorem step_accounted (accounted : world.Accounted start.job)
    (allowed : start.accounts world label = true)
    (stepped : start.step world label = some next) : next.Accounted start.job := by
  cases label with
  | claim owner =>
    rw [step] at stepped
    split at stepped
    · rename_i free
      cases stepped
      exact accounted.claim free.2
    · cases stepped
  | perform owner draw answer =>
    rw [step] at stepped
    split at stepped
    · rename_i fresh
      obtain ⟨before, found, performed⟩ := Option.bind_eq_some_iff.mp stepped
      exact accounted.perform found fresh (.of_accounts found allowed) performed
    · cases stepped
  | settle owner =>
    rw [step] at stepped
    split at stepped
    · rename_i exit found
      cases stepped
      exact accounted.settle found
    · cases stepped
  | lapse =>
    rw [step] at stepped
    split at stepped
    · cases stepped
      refine accounted.unclaim rfl rfl rfl rfl rfl (fun _ _ => id) (fun _ => id) ?_ accounted.kept
      intro owner held
      rw [holds, decide_eq_true_eq] at held
      cases held.2.2
    · cases stepped
  | reclaimExpired =>
    rw [step] at stepped
    split at stepped
    · cases stepped
      refine accounted.unclaim rfl rfl rfl rfl rfl (fun _ _ => id) ?_ ?_ fun _ => rfl
      · intro owner leased
        cases leased
      · intro owner held
        rw [holds, decide_eq_true_eq] at held
        cases held.1
    · cases stepped
  | restart =>
    cases stepped
    split
    · refine accounted.unclaim rfl rfl rfl rfl rfl (fun _ _ found => by cases found) ?_ ?_
        fun _ => rfl
      · intro owner leased
        cases leased
      · intro owner held
        rw [holds, decide_eq_true_eq] at held
        cases held.1
    · exact accounted.unclaim rfl rfl rfl rfl rfl (fun _ _ found => by cases found)
        (fun _ => id) (fun _ => id) accounted.kept
  | dispatch commandId command =>
    rw [step] at stepped
    split at stepped
    · rename_i foreign
      split at stepped
      · rename_i receipt known
        cases stepped
        refine accounted.cancelIf fun undecided => ?_
        simp only [accounts, undecided, known, Bool.true_and, Option.any_some,
          Bool.not_eq_true'] at allowed
        exact allowed
      · split at stepped
        · cases stepped
        · rename_i events decides
          split at stepped
          · cases stepped
          · rename_i inScope
            cases stepped
            have same : SameDelivery world (world.commit commandId command events) :=
              .commit commandId command events
            refine accounted.elsewhere same.executions same.effect
              (commit_advances accounted.sane foreign decides fun event member => ?_)
            exact Bool.eq_false_of_not_eq_true fun leaves =>
              inScope (List.any_eq_true.mpr ⟨event, member, leaves⟩)
    · cases stepped

end SendStart

end Zuse.Conversation
