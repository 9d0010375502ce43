import Zuse.Conversation.SendRuns

namespace Zuse.Conversation

open Zuse.Data Zuse.Domain SendWorld List TransitionSystem InsertionMap
open SendProcess (recover)

namespace SendStart

variable [PayloadCodec] (start : SendStart)

def accountedSystem : TransitionSystem SendWorld SendLabel :=
  start.system.restrict fun world label => start.accounts world label = true

/-- Repeated often enough, the step decides about the attempt. -/
def Decides (world : SendWorld) (label : SendLabel) : Prop :=
  ∃ count last, start.accountedSystem.runFrom world (List.replicate count label) = some last ∧
    last.decided start.job = true

variable {start} {world next : SendWorld}

theorem Decides.here {label : SendLabel} (decided : world.decided start.job = true) :
    start.Decides world label :=
  ⟨0, world, rfl, decided⟩

theorem Decides.step {label : SendLabel}
    (stepped : start.accountedSystem.step world label = some next)
    (later : start.Decides next label) : start.Decides world label := by
  obtain ⟨count, last, ran, decided⟩ := later
  refine ⟨count + 1, last, ?_, decided⟩
  rw [replicate_succ, runFrom, stepped]
  exact ran

/-- An execution that finds the delivery begun, with nothing in its way. -/
structure Tends (start : SendStart) (world : SendWorld) (owner : String) (draw : SendDraw)
    (execution : SendExecution) : Prop where
  accounted : world.Accounted start.job
  started : world.effect = .started
  found : world.executions.get? owner = some execution
  fresh : start.draws world draw = true

namespace Tends

variable {owner : String} {draw : SendDraw} {execution : SendExecution}

theorem step (tends : Tends start world owner draw execution)
    (proceeded : start.toSendProcess.proceed world owner execution.deliveryStarted draw
      execution.phase = some next)
    (later : next.Accounted start.job → start.Decides next (.perform owner draw .ok)) :
    start.Decides world (.perform owner draw .ok) := by
  have allowed : start.accounts world (.perform owner draw .ok) = true := by
    simp [accounts, tends.found, tends.started]
  have stepped : start.step world (.perform owner draw .ok) = some next := by
    rw [SendStart.step, if_pos tends.fresh, tends.found]
    exact proceeded
  exact .step (restrict_step.mpr ⟨allowed, stepped⟩)
    (later (step_accounted tends.accounted allowed stepped))

theorem moves (tends : Tends start world owner draw execution) (after : SendExecution)
    (proceeded : start.toSendProcess.proceed world owner execution.deliveryStarted draw
      execution.phase = some (world.move owner after))
    (later : ∀ {next}, Tends start next owner draw after →
      start.Decides next (.perform owner draw .ok)) :
    start.Decides world (.perform owner draw .ok) :=
  tends.step proceeded fun accounted =>
    later ⟨accounted, tends.started, get?_set_self .., tends.fresh⟩

theorem marks (tends : Tends start world owner draw execution) (next : SendWorld)
    (started onExit : Bool)
    (proceeded : start.toSendProcess.proceed world owner execution.deliveryStarted draw
      execution.phase = some (next.move owner ⟨started, .recovering .marking onExit⟩)) :
    start.Decides world (.perform owner draw .ok) :=
  tends.step proceeded fun accounted =>
    .here (accounted.marking owner _ onExit (get?_set_self ..) rfl)

variable {started onExit : Bool}

theorem settling (tends : Tends start world owner draw ⟨started, .recovering .settling onExit⟩) :
    start.Decides world (.perform owner draw .ok) := by
  have sane := tends.accounted.sane
  cases decided : world.decided start.job with
  | true => exact .here decided
  | false =>
    obtain ⟨dispatched, ran⟩ | ⟨error, refused, -⟩ := sane.dispatch_undecided decided
      start.job.finalizeId (.finalizeTurn start.job.turnId .error draw.nowMs)
    · refine tends.marks dispatched started onExit ?_
      change some (recover ..) = _
      have settles : world.dispatch (start.job.settleTurn draw.nowMs) = .ok dispatched := ran
      rw [recover, settles]
    · exact absurd refused (sane.accepts_finalizeTurn decided _ _ error)

theorem explaining
    (tends : Tends start world owner draw ⟨started, .recovering .explaining onExit⟩) :
    start.Decides world (.perform owner draw .ok) := by
  have sane := tends.accounted.sane
  cases decided : world.decided start.job with
  | true => exact .here decided
  | false =>
    obtain ⟨dispatched, ran⟩ | ⟨error, refused, -⟩ := sane.dispatch_undecided decided
      start.job.explainId (start.job.persistOutcomeUnknown draw.nowMs).command
    · have same := SameDelivery.of_dispatch ran
      have proceeded : start.toSendProcess.proceed world owner started draw
          (.recovering .explaining onExit) =
            some (dispatched.move owner ⟨started, .recovering .settling onExit⟩) := by
        change some (recover ..) = _
        have explains : world.dispatch (start.job.persistOutcomeUnknown draw.nowMs) =
          .ok dispatched := ran
        rw [recover, SendProcess.dispatchThen, explains]
      refine tends.step proceeded fun accounted => ?_
      have settles (fresh : start.draws dispatched draw = true) : Tends start
          (dispatched.move owner ⟨started, .recovering .settling onExit⟩) owner draw
            ⟨started, .recovering .settling onExit⟩ :=
        ⟨accounted, same.effect.trans tends.started, get?_set_self .., fresh⟩
      refine (settles ?_).settling
      have fresh := tends.fresh
      rw [draws, all_eq_true] at fresh ⊢
      intro id member
      have unused := of_decide_eq_true (fresh id member)
      refine decide_eq_true ⟨unused.1, fun used => ?_⟩
      obtain ⟨receipt, isReceipt, rfl⟩ := mem_map.mp used
      obtain earlier | explains := receipts_dispatch_owned ran receipt isReceipt
      · exact unused.2 (mem_map_of_mem earlier)
      · exact unused.1 (by simp [SendJob.commandIds, explains])
    · generalize isFields : (start.job.persistOutcomeUnknown draw.nowMs).command = command
        at refused
      obtain ⟨message, rfl, revision, final⟩ : ∃ message, command = .persistMessage message ∧
          message.checkpointRevision = none ∧ message.checkpointFinal = none :=
        ⟨_, isFields.symm, rfl, rfl⟩
      obtain none_ | one := decide_persistMessage sane revision final
      · cases none_.symm.trans refused
      · cases one.symm.trans refused

theorem recovering
    (tends : Tends start world owner draw ⟨started, .recovering .recovering onExit⟩) :
    start.Decides world (.perform owner draw .ok) := by
  have sane := tends.accounted.sane
  cases decided : world.decided start.job with
  | true => exact .here decided
  | false =>
    obtain ⟨dispatched, ran⟩ | ⟨error, refused, failed⟩ := sane.dispatch_undecided decided
      start.job.recoverId (start.job.recoverTurn draw.nowMs).command
    · refine tends.marks dispatched started onExit ?_
      change some (recover ..) = _
      have recovers : world.dispatch (start.job.recoverTurn draw.nowMs) = .ok dispatched := ran
      rw [recover, recovers]
    have recovers : decide world.session (start.job.recoverTurn draw.nowMs).command =
        decideExisting world.session (start.job.recoverTurn draw.nowMs).command :=
      sane.present.decide_eq sane.wellFormed rfl
    obtain ⟨message, rfl⟩ := decideRecoverTurn_error (recovers.symm.trans refused)
    refine tends.moves ⟨started, .recovering .explaining onExit⟩ ?_ explaining
    change some (recover ..) = _
    have refuses : world.dispatch (start.job.recoverTurn draw.nowMs) =
      .error (.domain (.validationFailed message)) := failed
    rw [recover, refuses]

theorem beginning (tends : Tends start world owner draw ⟨started, .beginning⟩) :
    start.Decides world (.perform owner draw .ok) := by
  have same : { world with effect := world.effect.begin_.2 } = world := by
    rw [tends.started]
    exact congrArg (fun effect => { world with effect }) tends.started.symm
  refine tends.moves ⟨started, .begun .alreadyStarted⟩ ?_ fun begun =>
    begun.moves ⟨true, .recovering .recovering false⟩ rfl recovering
  change some (SendWorld.move { world with effect := world.effect.begin_.2 } owner
    ⟨started, .begun world.effect.begin_.1⟩) = _
  rw [same, tends.started]
  rfl

theorem renewing (tends : Tends start world owner draw ⟨false, .renewing⟩)
    (held : world.holds owner = true) : start.Decides world (.perform owner draw .ok) := by
  refine tends.moves ⟨false, .lookingUp⟩ ?_ fun looking => ?_
  · change some _ = some _
    rw [held]
    rfl
  have present := looking.accounted.sane.present
  refine looking.moves ⟨false, .comparing⟩ ?_ fun comparing => ?_
  · change some _ = some _
    rw [if_pos ⟨present.live.1, present.live.2, present.unarchived⟩]
  rename_i compared
  cases decided : compared.decided start.job with
  | true => exact .here decided
  | false =>
    refine comparing.moves ⟨false, .preparing⟩ ?_ fun preparing =>
      preparing.moves ⟨false, .beginning⟩ rfl beginning
    change some _ = some _
    rw [if_pos (comparing.accounted.sane.activeAttempt_eq decided)]

end Tends

/-- After a restart the next execution of the job, with nothing in its way, decides about
the attempt. -/
def LaterDecides (start : SendStart) (world : SendWorld) : Prop :=
  ∃ requeued claimed owner draw,
    start.accountedSystem.step world .restart = some requeued ∧
      start.accountedSystem.step requeued (.claim owner) = some claimed ∧
      start.Decides claimed (.perform owner draw .ok)

omit [PayloadCodec] in
theorem exists_longer (texts : List String) :
    ∃ text : String, ∀ other ∈ texts, other.length < text.length := by
  induction texts with
  | nil => exact ⟨"", nofun⟩
  | cons first rest ih =>
    obtain ⟨text, longer⟩ := ih
    refine ⟨first ++ text ++ "a", fun other member => ?_⟩
    have one : "a".length = 1 := by decide +kernel
    rw [String.length_append, String.length_append]
    rcases mem_cons.mp member with rfl | later
    · omega
    · have := longer other later
      omega

theorem laterDecides (accounted : world.Accounted start.job)
    (undecided : world.undecided start.job = true) : start.LaterDecides world := by
  obtain ⟨isOpen, notDecided⟩ := undecided_iff.mp undecided
  have started : world.effect = .started := by
    refine isOpen.resolve_right fun unknown => ?_
    rw [accounted.marked unknown] at notDecided
    cases notDecided
  have unsettled := accounted.kept undecided
  let requeued : SendWorld :=
    { (if world.status = .running ∨ world.status = .waiting then
          { world with status := .pending, leaseOwner := none }
        else world) with executions := .empty }
  have restarted : start.step world .restart = some requeued := rfl
  have requeuedStatus : requeued.status = .pending := by
    change (if _ then _ else _ : SendWorld).status = _
    split
    · rfl
    · rename_i other
      cases status : world.status <;> simp [status, JobStatus.isUnsettled] at other unsettled ⊢
  have kept : requeued.owners = world.owners ∧ requeued.effect = .started ∧
      requeued.receipts = world.receipts := by
    change (if _ then _ else _ : SendWorld).owners = _ ∧
      (if _ then _ else _ : SendWorld).effect = _ ∧ (if _ then _ else _ : SendWorld).receipts = _
    split <;> exact ⟨rfl, started, rfl⟩
  obtain ⟨owner, newOwner⟩ := exists_longer requeued.owners
  obtain ⟨uuid, newId⟩ := exists_longer
    (start.job.commandIds ++ requeued.receipts.map (·.commandId))
  let claimed : SendWorld :=
    { requeued with
      status := .running
      leaseOwner := some owner
      lapsed := false
      owners := owner :: requeued.owners
      executions := requeued.executions.set owner ⟨false, .renewing⟩ }
  have claims : start.step requeued (.claim owner) = some claimed := by
    rw [step, if_pos]
    exact ⟨.inl requeuedStatus, fun used => (newOwner owner used).false⟩
  have fresh : start.draws claimed ⟨0, uuid⟩ = true := by
    have isNew (text : String) (longer : uuid.length ≤ text.length) :
        Decidable.decide (text ∉ start.job.commandIds ∧
          text ∉ claimed.receipts.map (·.commandId)) = true := by
      refine decide_eq_true ⟨fun used => ?_, fun used => ?_⟩
      · exact absurd (newId text (mem_append_left _ used)) (by omega)
      · exact absurd (newId text (mem_append_right _ used)) (by omega)
    rw [draws, all_cons, all_cons, all_nil, Bool.and_true, Bool.and_eq_true]
    refine ⟨isNew _ le_rfl, isNew _ ?_⟩
    rw [String.length_append]
    exact Nat.le_add_left ..
  have restartAllowed : start.accounts world .restart = true := rfl
  have claimAllowed : start.accounts requeued (.claim owner) = true := rfl
  have afterClaim :=
    step_accounted (step_accounted accounted restartAllowed restarted) claimAllowed claims
  refine ⟨requeued, claimed, owner, ⟨0, uuid⟩,
    restrict_step.mpr ⟨restartAllowed, restarted⟩,
    restrict_step.mpr ⟨claimAllowed, claims⟩, ?_⟩
  refine Tends.renewing ⟨afterClaim, kept.2.1, get?_set_self .., fresh⟩ ?_
  rw [SendWorld.holds, decide_eq_true_eq]
  exact ⟨rfl, rfl, rfl⟩

/-- The provider is called again only if every earlier call was proven undelivered, and
the receipt of a delivery that is over stays as it is. -/
def SendsOnce (start : SendStart) (world : SendWorld) : Prop :=
  ∀ label next, start.step world label = some next →
    (world.sends.length < next.sends.length → Undelivered world.sends) ∧
      (world.effect.terminal = true → next.effect = world.effect)

/-- While nothing is decided about a delivery that was begun, its job is unsettled, and a
later execution of the job decides about it. -/
def LeavesNone (start : SendStart) (world : SendWorld) : Prop :=
  world.undecided start.job = true → world.status.isUnsettled = true ∧ start.LaterDecides world

theorem accounted_of_reachable (reachable : start.accountedSystem.Reachable world) :
    world.Accounted start.job := by
  induction reachable with
  | init => exact accounted_init
  | step _ stepped ih =>
    obtain ⟨allowed, stepped⟩ := restrict_step.mp stepped
    exact step_accounted ih allowed stepped

theorem sendsOnce_of_reachable (reachable : start.system.Reachable world) :
    start.SendsOnce world := by
  intro label next stepped
  exact ⟨(step_fences (fenced_everywhere reachable) stepped).2,
    fun terminal => step_terminal terminal stepped⟩

theorem sends_of_reachable (start : SendStart) :
    (∀ world, start.system.Reachable world → start.SendsOnce world) ∧
      ∀ world, start.accountedSystem.Reachable world →
        start.SendsOnce world ∧ start.LeavesNone world := by
  refine ⟨fun _ => sendsOnce_of_reachable, fun world reachable => ?_⟩
  have accounted := accounted_of_reachable reachable
  exact ⟨sendsOnce_of_reachable reachable.of_restrict, fun undecided =>
    ⟨accounted.kept undecided, laterDecides accounted undecided⟩⟩

end SendStart

def firstTurn : SessionCommand :=
  .createSessionWithInitialTurn (.plain "session") none "turn" "message" "" ""

def firstSend : SendJob :=
  { id := "job", sessionId := "session", turnId := "turn", attemptId := none }

def startedSession : Session :=
  ((@sessionSystem rejectingCodec).run [firstTurn]).get (by decide +kernel)

def firstStart : @SendStart rejectingCodec :=
  @SendStart.mk rejectingCodec
    { job := firstSend, isProviderAuthenticationRequired := fun _ => false }
    startedSession []
    (@TransitionSystem.run_reachable _ _ (@sessionSystem rejectingCodec) [firstTurn] _
      (Option.some_get _).symm)
    ⟨⟨by decide +kernel, by decide +kernel⟩, by decide +kernel⟩
    ⟨1, by decide +kernel, by decide +kernel⟩ (nofun)

def answers (owner : String) (list : List SendAnswer) : List SendLabel :=
  list.zipIdx.map fun (answer, index) =>
    .perform owner ⟨0, String.ofList (List.replicate index 'i')⟩ answer

def diesReopened : List SendLabel :=
  .claim "first" :: answers "first" (List.replicate 8 .ok ++ [.undelivered, .ok, .uncertain]) ++
    [.settle "first"]

def lostInCall : List SendLabel :=
  .claim "first" :: answers "first" (List.replicate 8 .ok) ++ [.restart]

theorem sends_of_lostInCall :
    ∃ world, (@SendStart.accountedSystem rejectingCodec firstStart).run lostInCall = some world ∧
      world.undecided firstSend = true ∧ @SendStart.SendsOnce rejectingCodec firstStart world ∧
      world.status.isUnsettled = true ∧
      @SendStart.LaterDecides rejectingCodec firstStart world := by
  have runs : ((@SendStart.accountedSystem rejectingCodec firstStart).run lostInCall).any
      (fun world => world.undecided firstSend) = true := by
    decide +kernel
  obtain ⟨world, ran, undecided⟩ := (Option.any_eq_true _ _).mp runs
  obtain ⟨once, leaves⟩ := (@SendStart.sends_of_reachable rejectingCodec firstStart).2 world
    (run_reachable ran)
  exact ⟨world, ran, undecided, once, (leaves undecided).1, (leaves undecided).2⟩

theorem not_sends_of_reachable :
    ¬∀ (codec : PayloadCodec) (start : @SendStart codec) (world : SendWorld),
      (@SendStart.system codec start).Reachable world →
        @SendStart.SendsOnce codec start world ∧ @SendStart.LeavesNone codec start world := by
  intro always
  have runs : ((@SendStart.system rejectingCodec firstStart).run diesReopened).any
      (fun world => world.undecided firstSend && !world.status.isUnsettled) = true := by
    decide +kernel
  obtain ⟨world, ran, observed⟩ := (Option.any_eq_true _ _).mp runs
  rw [Bool.and_eq_true, Bool.not_eq_true'] at observed
  obtain ⟨-, leaves⟩ := always rejectingCodec firstStart world (run_reachable ran)
  cases observed.2.symm.trans (leaves observed.1).1

end Zuse.Conversation
