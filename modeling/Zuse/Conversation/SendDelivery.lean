import Zuse.Conversation.ProviderJobs

namespace Zuse.Conversation

open Zuse.Data Zuse.Domain SendPhase InsertionMap ReactorEffectState Option

/-! The receipt is taken for one delivery at a time, and a delivery that takes it finds
every earlier call of the provider proven undelivered. -/

namespace SendPhase

/-- The execution has taken the receipt, and may still call the provider or release
it. -/
def delivers : SendPhase → Bool
  | .begun .started | .settingRunning | .sending | .awaiting | .ensuring
  | .awaitingReopened | .completing | .reporting _ | .settingError _ | .releasing => true
  | _ => false

def resends : SendPhase → Bool
  | .begun .started | .settingRunning | .sending | .ensuring | .reporting _
  | .settingError _ | .releasing => true
  | _ => false

def awaits : SendPhase → Bool
  | .awaiting | .awaitingReopened => true
  | _ => false

variable {phase : SendPhase}

theorem delivers_of_resends (resends : phase.resends = true) : phase.delivers = true := by
  cases phase with
  | begun began => cases began <;> first | rfl | cases resends
  | _ => first | rfl | cases resends

theorem delivers_of_awaits (awaits : phase.awaits = true) : phase.delivers = true := by
  cases phase <;> first | rfl | cases awaits

end SendPhase

variable {input : DispatchInput}

namespace SendWorld

/-- The calls of the provider were all proven undelivered. -/
def Undelivered (sends : List SendRecord) : Prop :=
  ∀ send ∈ sends, send.outcome = .undelivered

structure Fenced (world : SendWorld) : Prop where
  one : ∀ left right before other, world.executions.get? left = some before →
    world.executions.get? right = some other → before.phase.delivers = true →
    other.phase.delivers = true → left = right
  idle : world.effect = .missing → ∀ owner execution,
    world.executions.get? owner = some execution → execution.phase.delivers = false
  unsent : world.effect = .missing → Undelivered world.sends
  resends : ∀ owner execution, world.executions.get? owner = some execution →
    execution.phase.resends = true → Undelivered world.sends
  awaits : ∀ owner execution, world.executions.get? owner = some execution →
    execution.phase.awaits = true → ∀ send ∈ world.sends,
      send.outcome = .undelivered ∨ send.owner = owner ∧ send.outcome = .unanswered

namespace Fenced

variable {world next : SendWorld} {owner : String} {before after : SendExecution}

variable (fenced : world.Fenced)
include fenced

theorem fewer
    (executions : ∀ owner execution, next.executions.get? owner = some execution →
      world.executions.get? owner = some execution)
    (effect : next.effect = world.effect) (sends : next.sends = world.sends) :
    next.Fenced where
  one := fun left right before other isLeft isRight =>
    fenced.one left right before other (executions _ _ isLeft) (executions _ _ isRight)
  idle := fun missing owner execution found =>
    fenced.idle (effect ▸ missing) owner execution (executions _ _ found)
  unsent := fun missing => sends ▸ fenced.unsent (effect ▸ missing)
  resends := fun owner execution found =>
    sends ▸ fenced.resends owner execution (executions _ _ found)
  awaits := fun owner execution found =>
    sends ▸ fenced.awaits owner execution (executions _ _ found)

theorem place (executions : next.executions = world.executions.set owner after)
    (effect : next.effect = world.effect) (sends : next.sends = world.sends)
    (delivers : after.phase.delivers = false) : next.Fenced := by
  have found {other : String} {execution : SendExecution}
      (isNext : next.executions.get? other = some execution) :
      execution.phase.delivers = false ∨ world.executions.get? other = some execution := by
    obtain ⟨-, rfl⟩ | known := get?_set_cases (executions ▸ isNext)
    · exact .inl delivers
    · exact .inr known
  have kept {other : String} {execution : SendExecution}
      (isNext : next.executions.get? other = some execution)
      (holds : execution.phase.delivers = true) :
      world.executions.get? other = some execution := by
    refine (found isNext).resolve_left fun idle => ?_
    rw [holds] at idle
    cases idle
  constructor
  · intro left right leftExecution rightExecution isLeft isRight leftHolds rightHolds
    exact fenced.one left right leftExecution rightExecution (kept isLeft leftHolds)
      (kept isRight rightHolds) leftHolds rightHolds
  · intro missing other execution isNext
    obtain idle | known := found isNext
    · exact idle
    · exact fenced.idle (effect ▸ missing) other execution known
  · exact fun missing => sends ▸ fenced.unsent (effect ▸ missing)
  · intro other execution isNext resends
    exact sends ▸ fenced.resends other execution (kept isNext (delivers_of_resends resends)) resends
  · intro other execution isNext awaits
    exact sends ▸ fenced.awaits other execution (kept isNext (delivers_of_awaits awaits)) awaits

theorem proceeds (found : world.executions.get? owner = some before)
    (executions : next.executions = world.executions.set owner after)
    (sends : next.sends = world.sends)
    (delivers : after.phase.delivers = true → before.phase.delivers = true)
    (resends : after.phase.resends = true → before.phase.resends = true)
    (awaits : after.phase.awaits = true → before.phase.awaits = true)
    (effect : next.effect = .missing → world.effect = .missing ∨ before.phase = .releasing ∧
      after.phase.delivers = false) :
    next.Fenced := by
  have origin {other : String} {execution : SendExecution}
      (isNext : next.executions.get? other = some execution)
      (holds : execution.phase.delivers = true) :
      ∃ earlier, world.executions.get? other = some earlier ∧ earlier.phase.delivers = true := by
    obtain ⟨rfl, rfl⟩ | same := get?_set_cases (executions ▸ isNext)
    · exact ⟨before, found, delivers holds⟩
    · exact ⟨execution, same, holds⟩
  have released (missing : next.effect = .missing) : world.effect = .missing ∨
      before.phase.resends = true ∧ after.phase.delivers = false := by
    obtain missing | ⟨releasing, ended⟩ := effect missing
    · exact .inl missing
    · exact .inr ⟨by rw [releasing]; rfl, ended⟩
  constructor
  · intro left right leftExecution rightExecution isLeft isRight leftHolds rightHolds
    obtain ⟨leftEarlier, isEarlierLeft, leftHeld⟩ := origin isLeft leftHolds
    obtain ⟨rightEarlier, isEarlierRight, rightHeld⟩ := origin isRight rightHolds
    exact fenced.one left right leftEarlier rightEarlier isEarlierLeft isEarlierRight
      leftHeld rightHeld
  · intro missing other execution isNext
    rw [Bool.eq_false_iff]
    intro holds
    obtain ⟨earlier, isEarlier, held⟩ := origin isNext holds
    obtain missing | ⟨resends, ended⟩ := released missing
    · rw [fenced.idle missing other earlier isEarlier] at held
      cases held
    · have same := fenced.one owner other before earlier found isEarlier
        (delivers_of_resends resends) held
      obtain ⟨-, rfl⟩ | isKnown := get?_set_cases (executions ▸ isNext)
      · rw [ended] at holds
        cases holds
      · rw [executions, ← same, get?_set_self] at isNext
        obtain rfl := some.inj isNext
        rw [ended] at holds
        cases holds
  · intro missing
    rw [sends]
    obtain missing | ⟨resends, -⟩ := released missing
    · exact fenced.unsent missing
    · exact fenced.resends owner before found resends
  · intro other execution isNext holds
    rw [sends]
    obtain ⟨rfl, rfl⟩ | same := get?_set_cases (executions ▸ isNext)
    · exact fenced.resends owner before found (resends holds)
    · exact fenced.resends other execution same holds
  intro other execution isNext holds
  rw [sends]
  obtain ⟨rfl, rfl⟩ | same := get?_set_cases (executions ▸ isNext)
  · exact fenced.awaits owner before found (awaits holds)
  · exact fenced.awaits other execution same holds

omit fenced in
theorem of_sole
    (sole : ∀ {other execution}, next.executions.get? other = some execution →
      execution.phase.delivers = true → owner = other ∧ execution = after)
    (taken : next.effect ≠ .missing)
    (resends : after.phase.resends = true → Undelivered next.sends)
    (awaits : after.phase.awaits = true → ∀ send ∈ next.sends, send.outcome = .undelivered ∨
      send.owner = owner ∧ send.outcome = .unanswered) :
    next.Fenced := by
  constructor
  · intro left right leftExecution rightExecution isLeft isRight leftHolds rightHolds
    exact (sole isLeft leftHolds).1.symm.trans (sole isRight rightHolds).1
  · exact fun missing => absurd missing taken
  · exact fun missing => absurd missing taken
  · intro other execution isNext holds
    obtain ⟨-, rfl⟩ := sole isNext (delivers_of_resends holds)
    exact resends holds
  · intro other execution isNext holds
    obtain ⟨rfl, rfl⟩ := sole isNext (delivers_of_awaits holds)
    exact awaits holds

theorem takes (missing : world.effect = .missing)
    (executions : next.executions = world.executions.set owner after)
    (sends : next.sends = world.sends) (effect : next.effect = .started)
    (begun : after.phase = .begun .started) : next.Fenced := by
  have mine {other : String} {execution : SendExecution}
      (isNext : next.executions.get? other = some execution)
      (holds : execution.phase.delivers = true) : owner = other ∧ execution = after := by
    obtain ⟨same, rfl⟩ | known := get?_set_cases (executions ▸ isNext)
    · exact ⟨same, rfl⟩
    · rw [fenced.idle missing other execution known] at holds
      cases holds
  refine of_sole mine ?_ (fun _ => sends ▸ fenced.unsent missing) ?_
  · rw [effect]
    nofun
  · intro awaits
    rw [begun] at awaits
    cases awaits

theorem calls (found : world.executions.get? owner = some before)
    (executions : next.executions = world.executions.set owner after)
    (effect : next.effect = world.effect) (held : before.phase.delivers = true)
    (resends : after.phase.resends = true → Undelivered next.sends)
    (awaits : after.phase.awaits = true → ∀ send ∈ next.sends, send.outcome = .undelivered ∨
      send.owner = owner ∧ send.outcome = .unanswered) :
    next.Fenced := by
  have mine {other : String} {execution : SendExecution}
      (isNext : next.executions.get? other = some execution)
      (holds : execution.phase.delivers = true) : owner = other ∧ execution = after := by
    obtain ⟨same, rfl⟩ | known := get?_set_cases (executions ▸ isNext)
    · exact ⟨same, rfl⟩
    · have same := fenced.one owner other before execution found known held holds
      rw [executions, ← same, get?_set_self] at isNext
      exact ⟨same, (some.inj isNext).symm⟩
  refine of_sole mine (fun missing => ?_) resends awaits
  rw [fenced.idle (effect ▸ missing) owner before found] at held
  cases held

end Fenced

/-- Neither the executions nor the receipt nor the calls of the provider have changed. -/
structure SameDelivery (world next : SendWorld) : Prop where
  executions : next.executions = world.executions
  effect : next.effect = world.effect
  sends : next.sends = world.sends

variable (world : SendWorld)

theorem SameDelivery.cancelIf (cancels : Bool) : SameDelivery world (world.cancelIf cancels) := by
  unfold SendWorld.cancelIf cancel
  split
  · split <;> exact ⟨rfl, rfl, rfl⟩
  · exact ⟨rfl, rfl, rfl⟩

variable {world} [PayloadCodec]

theorem SameDelivery.commit (commandId : String) (command : SessionCommand)
    (events : List SessionEvent) :
    SameDelivery world (world.commit commandId command events) := by
  have cancelled := SameDelivery.cancelIf world (cancels command events)
  exact ⟨cancelled.executions, cancelled.effect, cancelled.sends⟩

theorem SameDelivery.of_dispatch {next : SendWorld}
    (dispatched : world.dispatch input = .ok next) : SameDelivery world next := by
  unfold SendWorld.dispatch at dispatched
  split at dispatched
  · cases dispatched
  split at dispatched
  · cases dispatched
    exact .cancelIf ..
  · split at dispatched
    · cases dispatched
    · cases dispatched
      exact .commit ..

end SendWorld

open SendWorld

namespace SendProcess

variable [PayloadCodec] {process : SendProcess} {world next : SendWorld} {owner : String}
  {before : SendExecution} {draw : SendDraw}

structure Arrives (world : SendWorld) (owner : String) (started : Bool) (next : SendWorld)
    (phase : SendPhase) : Prop where
  executions : next.executions = world.executions.set owner ⟨started, phase⟩
  sends : next.sends = world.sends

omit [PayloadCodec] in
theorem Arrives.move (owner : String) (started : Bool) (phase : SendPhase) :
    Arrives world owner started (world.move owner ⟨started, phase⟩) phase :=
  ⟨rfl, rfl⟩

theorem Arrives.of_dispatch {dispatched : SendWorld}
    (ran : world.dispatch input = .ok dispatched) (owner : String) (started : Bool)
    (phase : SendPhase) :
    Arrives world owner started (dispatched.move owner ⟨started, phase⟩) phase ∧
      (dispatched.move owner ⟨started, phase⟩).effect = world.effect := by
  have same := SameDelivery.of_dispatch ran
  refine ⟨⟨?_, same.sends⟩, same.effect⟩
  exact congrArg (·.set owner ⟨started, phase⟩) same.executions

theorem dispatchThen_arrives (world : SendWorld) (owner : String) (started : Bool)
    (input : DispatchInput) (conflict : SendExit) (after : SendPhase) :
    ∃ phase, (phase = after ∨ ∃ exit, phase = .ended exit) ∧
      Arrives world owner started (dispatchThen world owner started input conflict after) phase ∧
      (dispatchThen world owner started input conflict after).effect = world.effect := by
  unfold dispatchThen
  split
  · rename_i dispatched ran
    exact ⟨after, .inl rfl, Arrives.of_dispatch ran owner started after⟩
  · exact ⟨_, .inr ⟨_, rfl⟩, .move .., rfl⟩
  · exact ⟨_, .inr ⟨_, rfl⟩, .move .., rfl⟩

theorem recover_arrives (world : SendWorld) (owner : String) (started : Bool)
    (draw : SendDraw) (onExit : Bool) (step : RecoveryStep) :
    ∃ phase, phase.delivers = false ∧
      Arrives world owner started (process.recover world owner started draw onExit step) phase ∧
      ((process.recover world owner started draw onExit step).effect = world.effect ∨
        (process.recover world owner started draw onExit step).effect =
          world.effect.markOutcomeUnknown) := by
  cases step with
  | recovering | settling =>
    simp only [recover]
    split
    · rename_i dispatched ran
      obtain ⟨arrives, effect⟩ :=
        Arrives.of_dispatch ran owner started (.recovering .marking onExit)
      exact ⟨_, rfl, arrives, .inl effect⟩
    all_goals exact ⟨_, rfl, .move .., .inl rfl⟩
  | explaining =>
    obtain ⟨phase, isPhase, arrives, effect⟩ := dispatchThen_arrives world owner started
      (process.job.persistOutcomeUnknown draw.nowMs) (recoveryExit onExit)
      (.recovering .settling onExit)
    refine ⟨phase, ?_, arrives, .inl effect⟩
    obtain rfl | ⟨exit, rfl⟩ := isPhase <;> rfl
  | marking => exact ⟨_, rfl, ⟨rfl, rfl⟩, .inr rfl⟩

/-- A step keeps the fence; if it calls the provider, then every earlier call was proven
undelivered. -/
def Fences (world next : SendWorld) : Prop :=
  next.Fenced ∧ (world.sends.length < next.sends.length → Undelivered world.sends)

omit [PayloadCodec] in
theorem Fences.of_sends (fenced : next.Fenced) (sends : next.sends = world.sends) :
    Fences world next :=
  ⟨fenced, fun more => absurd (congrArg List.length sends) more.ne'⟩

variable {phase : SendPhase} {started : Bool}

section

variable (fenced : world.Fenced) (found : world.executions.get? owner = some before)
include fenced found

omit [PayloadCodec] in
theorem Arrives.fences (arrives : Arrives world owner started next phase)
    (delivers : phase.delivers = true → before.phase.delivers = true)
    (resends : phase.resends = true → before.phase.resends = true)
    (awaits : phase.awaits = true → before.phase.awaits = true)
    (effect : next.effect = .missing → world.effect = .missing ∨
      before.phase = .releasing ∧ phase.delivers = false) : Fences world next :=
  .of_sends (fenced.proceeds found arrives.executions arrives.sends delivers resends awaits
    effect) arrives.sends

omit [PayloadCodec] in
theorem Arrives.leaves
    (arrives : Arrives world owner started next phase) (idle : phase.delivers = false)
    (effect : next.effect = .missing → world.effect = .missing ∨ before.phase = .releasing) :
    Fences world next := by
  refine arrives.fences fenced found (fun holds => ?_) (fun holds => ?_) (fun holds => ?_)
    fun missing => (effect missing).imp_right fun releasing => ⟨releasing, idle⟩
  · rw [idle] at holds
    cases holds
  · rw [delivers_of_resends holds] at idle
    cases idle
  · rw [delivers_of_awaits holds] at idle
    cases idle

theorem dispatchThen_fences {conflict : SendExit} {after : SendPhase}
    (resends : before.phase.resends = true) (calm : after.awaits = false) :
    Fences world (dispatchThen world owner started input conflict after) := by
  obtain ⟨phase, isPhase, arrives, effect⟩ :=
    dispatchThen_arrives world owner started input conflict after
  refine arrives.fences fenced found (fun _ => delivers_of_resends resends)
    (fun _ => resends) (fun awaits => ?_) fun missing => .inl (effect.symm.trans missing)
  obtain rfl | ⟨exit, rfl⟩ := isPhase
  · rw [calm] at awaits
    cases awaits
  · cases awaits

variable {execution : SendExecution}

omit [PayloadCodec] in
theorem issue_fences
    (resends : before.phase.resends = true) (calm : execution.phase.resends = false) :
    Fences world ((world.issue owner).move owner execution) := by
  have unsent := fenced.resends owner before found resends
  refine ⟨fenced.calls found rfl rfl (delivers_of_resends resends) ?_ ?_, fun _ => unsent⟩
  · intro again
    rw [calm] at again
    cases again
  · rintro - send isSend
    rcases List.mem_cons.mp isSend with rfl | earlier
    · exact .inr ⟨rfl, rfl⟩
    · exact .inl (unsent send earlier)

omit [PayloadCodec] in
theorem answered_fences {outcome : SendOutcome}
    (awaits : before.phase.awaits = true) (calm : execution.phase.awaits = false)
    (proven : execution.phase.resends = true → outcome = .undelivered) :
    Fences world ((world.answered owner outcome).move owner execution) := by
  refine ⟨fenced.calls found rfl rfl (delivers_of_awaits awaits) ?_ ?_, fun more => ?_⟩
  · intro resends send isSend
    obtain ⟨earlier, isEarlier, rfl⟩ := List.mem_map.mp isSend
    split
    · exact proven resends
    · rename_i other
      exact (fenced.awaits owner before found awaits earlier isEarlier).resolve_right other
  · intro again
    rw [calm] at again
    cases again
  · exact absurd (List.length_map _) more.ne'

theorem proceed_fences
    (proceeded : process.proceed world owner before.deliveryStarted draw before.phase =
      some next) : Fences world next := by
  obtain ⟨started, phase⟩ := before
  cases phase with
  | renewing | lookingUp | comparing =>
    cases proceeded
    refine (Arrives.move ..).leaves fenced found ?_ .inl
    split <;> rfl
  | preparing =>
    cases proceeded
    exact (Arrives.move ..).leaves fenced found rfl .inl
  | beginning =>
    cases proceeded
    cases effect : world.effect with
    | missing => exact .of_sends (fenced.takes effect rfl rfl rfl rfl) rfl
    | _ => exact Arrives.leaves fenced found ⟨rfl, rfl⟩ rfl nofun
  | begun began =>
    cases began with
    | started =>
      cases proceeded
      exact (Arrives.move ..).fences fenced found (fun _ => rfl) (fun _ => rfl) (nofun) .inl
    | _ =>
      cases proceeded
      exact (Arrives.move ..).leaves fenced found rfl .inl
  | settingRunning | reporting reason =>
    cases proceeded
    exact dispatchThen_fences fenced found rfl rfl
  | settingError reason =>
    cases proceeded
    refine dispatchThen_fences fenced found rfl ?_
    split <;> rfl
  | sending | ensuring =>
    cases proceeded
    exact issue_fences fenced found rfl rfl
  | awaiting | awaitingReopened =>
    cases proceeded
    exact answered_fences fenced found rfl rfl nofun
  | completing =>
    cases proceeded
    refine Arrives.leaves fenced found ⟨rfl, rfl⟩ rfl fun missing => ?_
    have terminal := world.effect.terminal_complete
    change world.effect.complete = _ at missing
    rw [missing] at terminal
    cases terminal
  | releasing =>
    cases proceeded
    exact Arrives.leaves fenced found ⟨rfl, rfl⟩ rfl fun _ => .inr rfl
  | recovering step onExit =>
    cases proceeded
    obtain ⟨phase, idle, arrives, effect⟩ :=
      process.recover_arrives world owner started draw onExit step
    refine arrives.leaves fenced found idle fun missing => .inl ?_
    obtain same | marked := effect
    · exact same.symm.trans missing
    · exact markOutcomeUnknown_eq_missing.mp (marked.symm.trans missing)
  | ended exit => cases proceeded

variable {answer : SendAnswer}

theorem perform_fences (performed : process.perform world owner before draw answer = some next) :
    Fences world next := by
  obtain ⟨started, phase⟩ := before
  cases answer with
  | ok => exact proceed_fences fenced found performed
  | refused =>
    cases phase with
    | preparing | ensuring =>
      cases performed
      exact (Arrives.move ..).leaves fenced found rfl .inl
    | _ => cases performed
  | undelivered =>
    cases phase with
    | awaiting | awaitingReopened =>
      cases performed
      exact answered_fences fenced found rfl rfl fun _ => rfl
    | _ => cases performed
  | uncertain =>
    cases phase with
    | awaiting | awaitingReopened =>
      cases performed
      exact answered_fences fenced found rfl rfl nofun
    | _ => cases performed
  | failed reason =>
    cases phase with
    | ensuring =>
      cases performed
      exact (Arrives.move ..).fences fenced found (fun _ => rfl) (fun _ => rfl) (nofun) .inl
    | _ => cases performed
  | dies =>
    cases phase with
    | awaiting | awaitingReopened | ended => cases performed
    | _ =>
      cases performed
      exact (Arrives.move ..).leaves fenced found rfl .inl
  | interrupted =>
    have leaves : Fences world (world.move owner
        ⟨started, if started then .recovering .recovering true else .ended .never⟩) := by
      refine (Arrives.move ..).leaves fenced found ?_ .inl
      split <;> rfl
    cases phase with
    | recovering step onExit =>
      cases onExit with
      | true => cases performed
      | false =>
        cases performed
        exact leaves
    | ended => cases performed
    | _ =>
      cases performed
      exact leaves

end

theorem proceed_terminal (terminal : world.effect.terminal = true)
    (proceeded : process.proceed world owner started draw phase = some next) :
    next.effect = world.effect := by
  cases phase with
  | begun began => cases began <;> cases proceeded <;> rfl
  | beginning =>
    cases proceeded
    exact begin_of_terminal terminal
  | completing =>
    cases proceeded
    exact complete_of_terminal terminal
  | releasing =>
    cases proceeded
    exact releaseUndelivered_of_terminal terminal
  | settingRunning | reporting | settingError =>
    cases proceeded
    obtain ⟨_, _, _, effect⟩ := dispatchThen_arrives world owner started _ _ _
    exact effect
  | recovering step onExit =>
    cases proceeded
    obtain ⟨_, _, _, same | marked⟩ :=
      process.recover_arrives world owner started draw onExit step
    · exact same
    · exact marked.trans (markOutcomeUnknown_of_terminal terminal)
  | ended => cases proceeded
  | _ =>
    cases proceeded
    rfl

theorem perform_terminal (terminal : world.effect.terminal = true)
    (performed : process.perform world owner before draw answer = some next) :
    next.effect = world.effect := by
  cases answer with
  | ok => exact proceed_terminal terminal performed
  | _ =>
    simp only [perform] at performed
    split at performed <;> cases performed <;> rfl

end SendProcess

namespace SendStart

variable [PayloadCodec] {start : SendStart} {world next : SendWorld} {label : SendLabel}

theorem fenced_init : start.init.Fenced where
  one := nofun
  idle := nofun
  unsent := nofun
  resends := nofun
  awaits := nofun

omit [PayloadCodec] in
theorem settle_keeps (world : SendWorld) (owner : String) (exit : SendExit) :
    (settle world owner exit).executions = world.executions.delete owner ∧
      (settle world owner exit).effect = world.effect ∧
      (settle world owner exit).sends = world.sends := by
  unfold settle
  split <;> exact ⟨rfl, rfl, rfl⟩

theorem step_cases (stepped : start.step world label = some next) :
    (∃ owner draw answer before, label = .perform owner draw answer ∧
        world.executions.get? owner = some before ∧
        start.toSendProcess.perform world owner before draw answer = some next) ∨
      next.effect = world.effect ∧ next.sends = world.sends ∧
        ((∃ owner, next.executions = world.executions.set owner ⟨false, .renewing⟩) ∨
          ∀ owner execution, next.executions.get? owner = some execution →
            world.executions.get? owner = some execution) := by
  have same {other : SendWorld} (kept : SameDelivery world other) :
      other.effect = world.effect ∧ other.sends = world.sends ∧
        ((∃ owner, other.executions = world.executions.set owner ⟨false, .renewing⟩) ∨
          ∀ owner execution, other.executions.get? owner = some execution →
            world.executions.get? owner = some execution) :=
    ⟨kept.effect, kept.sends, .inr fun _ _ found => kept.executions ▸ found⟩
  cases label with
  | claim owner =>
    rw [step] at stepped
    split at stepped
    · cases stepped
      exact .inr ⟨rfl, rfl, .inl ⟨owner, rfl⟩⟩
    · cases stepped
  | perform owner draw answer =>
    rw [step] at stepped
    split at stepped
    · obtain ⟨before, found, performed⟩ := bind_eq_some_iff.mp stepped
      exact .inl ⟨owner, draw, answer, before, rfl, found, performed⟩
    · cases stepped
  | settle owner =>
    rw [step] at stepped
    split at stepped
    · rename_i exit found
      cases stepped
      obtain ⟨executions, effect, sends⟩ := settle_keeps world owner exit
      refine .inr ⟨effect, sends, .inr fun other execution isNext => ?_⟩
      rw [executions, get?_delete] at isNext
      split at isNext
      · cases isNext
      · exact isNext
    · cases stepped
  | lapse | reclaimExpired =>
    rw [step] at stepped
    split at stepped
    · cases stepped
      exact .inr (same ⟨rfl, rfl, rfl⟩)
    · cases stepped
  | restart =>
    cases stepped
    refine .inr ⟨?_, ?_, .inr nofun⟩
    · split <;> rfl
    · split <;> rfl
  | dispatch commandId command =>
    rw [step] at stepped
    split at stepped
    · split at stepped
      · cases stepped
        exact .inr (same (.cancelIf ..))
      · split at stepped
        · cases stepped
        · split at stepped
          · cases stepped
          · cases stepped
            exact .inr (same (.commit ..))
    · cases stepped

theorem step_fences (fenced : world.Fenced) (stepped : start.step world label = some next) :
    SendProcess.Fences world next := by
  obtain ⟨owner, draw, answer, before, -, found, performed⟩ |
    ⟨effect, sends, ⟨owner, placed⟩ | fewer⟩ := step_cases stepped
  · exact SendProcess.perform_fences fenced found performed
  · exact .of_sends (fenced.place placed effect sends rfl) sends
  · exact .of_sends (fenced.fewer fewer effect sends) sends

theorem step_terminal (terminal : world.effect.terminal = true)
    (stepped : start.step world label = some next) : next.effect = world.effect := by
  obtain ⟨owner, draw, answer, before, -, found, performed⟩ | ⟨effect, -⟩ :=
    step_cases stepped
  · exact SendProcess.perform_terminal terminal performed
  · exact effect

theorem fenced_everywhere (reachable : start.system.Reachable world) : world.Fenced := by
  induction reachable with
  | init => exact fenced_init
  | step _ stepped ih => exact (step_fences ih stepped).1

end SendStart

end Zuse.Conversation
