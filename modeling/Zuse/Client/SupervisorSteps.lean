import Zuse.Client.SupervisorDispatch

namespace Zuse.Client

open Zuse.Data Option

/-! What each operation of a connection does to its sessions, to its commands and to its
status. -/

variable {Ω κ : Type} {deps : SupervisorDeps Ω κ} {entry next : Connection Ω κ}

namespace Connection

structure Steady (entry next : Connection Ω κ) : Prop where
  moves : Sessions.Moves entry.toSessions next.toSessions
  commands : next.commands = entry.commands
  removed : next.removed = entry.removed

variable {last : Connection Ω κ}

namespace Steady

theorem of_same (sessions : next.toSessions = entry.toSessions)
    (commands : next.commands = entry.commands) : Steady entry next where
  moves := by
    rw [sessions]
    exact .refl
  commands := commands
  removed := by
    rw [sessions]

theorem of_move (moved : Sessions.Move entry.toSessions next.toSessions)
    (commands : next.commands = entry.commands) (removed : next.removed = entry.removed) :
    Steady entry next :=
  ⟨.single moved, commands, removed⟩

theorem refl (entry : Connection Ω κ) : Steady entry entry := of_same rfl rfl

theorem trans (before : Steady entry next) (after : Steady next last) : Steady entry last where
  moves := before.moves.trans after.moves
  commands := after.commands.trans before.commands
  removed := after.removed.trans before.removed

end Steady

theorem goOffline_steady (entry : Connection Ω κ) : Steady entry entry.goOffline :=
  .of_same rfl rfl

theorem invalidateClient_steady (entry : Connection Ω κ) : Steady entry entry.invalidateClient :=
  .of_move (.invalidate entry.toSessions) rfl rfl

theorem ensureClient_steady (entry : Connection Ω κ) :
    Steady entry (entry.ensureClient deps).2 := by
  unfold ensureClient
  split
  · exact .refl entry
  rename_i present
  split
  · exact goOffline_steady entry
  split
  · exact .refl entry
  split
  · exact .refl entry
  · exact .refl entry
  · rename_i absent idle
    exact .of_move (.begin entry.toSessions _ ((Bool.not_eq_true _).mp present) absent idle) rfl rfl

theorem markFailure_steady (cause : κ) (previousAttempts : Nat) :
    Steady entry (entry.markFailure deps cause previousAttempts) := by
  unfold markFailure
  split
  · exact goOffline_steady entry
  split
  · exact .of_same rfl rfl
  split
  · exact .of_same rfl rfl
  · exact .of_same rfl rfl

theorem reconnectLostSession_steady : Steady entry (entry.reconnectLostSession deps) := by
  unfold reconnectLostSession
  dsimp only
  split
  · exact .of_same rfl rfl
  · refine Steady.trans ?_ (ensureClient_steady _)
    exact .of_same rfl rfl

theorem replaceAfterFailure_steady (cause : κ) :
    Steady entry (entry.replaceAfterFailure deps cause) := by
  unfold replaceAfterFailure
  split
  · exact (invalidateClient_steady entry).trans reconnectLostSession_steady
  · exact (invalidateClient_steady entry).trans (markFailure_steady cause _)

theorem confirmFailure_steady (cause : κ) (client : Nat) :
    Steady entry (entry.confirmFailure cause client) := by
  unfold confirmFailure
  split
  · exact .refl entry
  · exact .of_same rfl rfl

theorem handleFailure_steady (cause : κ) (expectedGeneration : Option Nat)
    (confirmWithProbe : Bool) :
    Steady entry (entry.handleFailure deps cause expectedGeneration confirmWithProbe) := by
  unfold handleFailure
  split
  · exact .refl entry
  split
  · split
    · exact confirmFailure_steady cause _
    · exact replaceAfterFailure_steady cause
  · exact replaceAfterFailure_steady cause

theorem retryNow_steady : Steady entry (entry.retryNow deps) := by
  unfold retryNow
  split
  · exact .refl entry
  dsimp only
  split
  · exact .of_same rfl rfl
  · refine Steady.trans ?_ (ensureClient_steady _)
    exact (invalidateClient_steady entry).trans (.of_same rfl rfl)

theorem replaceSession_steady : Steady entry (entry.replaceSession deps) := by
  unfold replaceSession
  split
  · exact .refl entry
  split
  · exact (invalidateClient_steady entry).trans reconnectLostSession_steady
  split
  · exact retryNow_steady
  · exact .refl entry

theorem checkHealth_steady : Steady entry (entry.checkHealth deps) := by
  unfold checkHealth
  split
  · exact .refl entry
  split
  · exact .of_same rfl rfl
  · split
    · exact retryNow_steady
    · exact .refl entry
  · exact .refl entry

theorem setOnline_steady (online : Bool) : Steady entry (entry.setOnline deps online) := by
  unfold setOnline
  split
  · exact .refl entry
  split
  · split
    · exact .refl entry
    · exact (invalidateClient_steady entry).trans (.of_same rfl rfl)
  split
  · refine Steady.trans ?_ retryNow_steady
    exact .of_same rfl rfl
  · exact .refl entry

theorem updateOptions_steady (options : Ω) : Steady entry (entry.updateOptions deps options) := by
  unfold updateOptions
  dsimp only
  split
  · exact .of_same rfl rfl
  have dropped : Steady entry
      ((clearRetry { entry with options }).invalidateClient.announce deps) :=
    (invalidateClient_steady entry).trans (.of_same rfl rfl)
  split
  · exact dropped.trans (ensureClient_steady _)
  · exact dropped

variable {index : Nat} {failure : Option κ}

theorem probed_steady (stepped : entry.probed deps index failure = some next) :
    Steady entry next := by
  unfold probed at stepped
  split at stepped
  · cases stepped
  obtain ⟨probe, _, rfl⟩ := map_eq_some_iff.mp stepped
  dsimp only
  split
  · split
    · exact .of_same rfl rfl
    · rename_i failure _ _ _
      have replaced : Steady entry (replaceAfterFailure deps
          { entry with probes := entry.probes.eraseIdx index } failure) := by
        refine Steady.trans ?_ (replaceAfterFailure_steady failure)
        exact .of_same rfl rfl
      exact replaced.trans (.of_same rfl rfl)
  · exact .of_same rfl rfl
  · split
    · exact .of_same rfl rfl
    · have dropped : Steady entry
          (invalidateClient { entry with probes := entry.probes.eraseIdx index }) := by
        refine Steady.trans ?_ (invalidateClient_steady _)
        exact .of_same rfl rfl
      exact dropped.trans reconnectLostSession_steady
  · exact .of_same rfl rfl

theorem retryDue_steady (stepped : entry.retryDue deps = some next) : Steady entry next := by
  unfold retryDue at stepped
  split at stepped
  · cases stepped
    refine Steady.trans ?_ (ensureClient_steady _)
    exact .of_same rfl rfl
  · cases stepped

theorem disposeNext_steady (stepped : entry.disposeNext = some next) : Steady entry next := by
  unfold disposeNext at stepped
  split at stepped
  · rename_i session rest _ chained
    cases stepped
    exact .of_move (.disposeNext entry.toSessions session rest chained) rfl rfl
  · cases stepped

theorem disposalDone_steady (stepped : entry.disposalDone = some next) : Steady entry next := by
  obtain ⟨session, _, rfl⟩ := map_eq_some_iff.mp stepped
  exact .of_move (.disposalDone entry.toSessions) rfl rfl

variable {id : Nat}

theorem advance_steady (sound : entry.toSessions.Sound)
    (stepped : entry.advance deps id failure = some next) : Steady entry next := by
  obtain ⟨attempt, isAttempt, moved⟩ := bind_eq_some_iff.mp stepped
  have same := sound.ids id attempt isAttempt
  subst same
  have found : entry.toSessions.attempts[attempt.id]? = some attempt := isAttempt
  have restage : ∀ stage : AttemptStage κ, attempt.stage.plain = true →
      stage.plain = true → Steady entry (entry.setStage attempt stage) :=
    fun stage old new => .of_move (.restage _ attempt stage found old new) rfl rfl
  split at moved
  · rename_i sessions isStage
    split at moved
    · cases moved
      exact restage _ (by rw [isStage]; rfl) rfl
    · cases moved
  · rename_i cause isStage
    cases moved
    exact restage _ (by rw [isStage]; rfl) rfl
  · rename_i isStage
    cases moved
    refine restage _ (by rw [isStage]; rfl) ?_
    split
    · rfl
    · rfl
  · rename_i cause isStage
    cases moved
    exact restage _ (by rw [isStage]; rfl) rfl
  · rename_i isStage
    have old : attempt.stage.plain = true := by
      rw [isStage]
      rfl
    cases moved
    split
    · exact .of_move (.createLate _ attempt _ found old) rfl rfl
    · exact .of_move (.create _ attempt found old) rfl rfl
  · rename_i session isStage
    split at moved
    · split at moved
      · cases moved
        exact .of_move (.discard _ attempt session _ found isStage) rfl rfl
      · cases moved
    · cases moved
      split
      · exact .of_move (.discard _ attempt session _ found isStage) rfl rfl
      · rename_i fresh
        exact .of_move (.validated _ attempt session found isStage
          ((Bool.not_eq_true _).mp fresh)) rfl rfl
  · rename_i cause isStage
    cases moved
    exact restage _ (by rw [isStage]; rfl) rfl
  · cases moved

theorem forget_sessions (attempt : Attempt κ) :
    (entry.forget attempt).toSessions = { entry.toSessions with
      inFlight :=
        if entry.inFlight = some attempt.id then none else entry.inFlight } := by
  unfold forget
  split
  · rfl
  · rfl

theorem forget_commands (attempt : Attempt κ) :
    (entry.forget attempt).commands = entry.commands := by
  unfold forget
  split
  · rfl
  · rfl

variable {attempt : Attempt κ}

theorem finish_steady {outcome seen : Outcome κ}
    (found : entry.toSessions.attempts[attempt.id]? = some attempt)
    (old : attempt.stage = .settled outcome)
    (lost : entry.toSessions.superseded attempt = true ∨ ∃ cause, outcome = .rejected cause) :
    Steady entry ((entry.forget attempt).setStage attempt (.finished outcome seen)) := by
  have sessions : ((entry.forget attempt).setStage attempt (.finished outcome seen)).toSessions =
      Sessions.restaged (entry.forget attempt).toSessions attempt (.finished outcome seen) := rfl
  refine .of_move ?_ (forget_commands attempt) ?_
  · rw [sessions, forget_sessions]
    exact .finish _ attempt outcome seen found old lost
  · show (entry.forget attempt).toSessions.removed = _
    rw [forget_sessions]

/-- What every step keeps: the sessions move, the dispatcher stays in order and the
receipts stay as given. -/
structure Keeps (entry next : Connection Ω κ) : Prop where
  moves : Sessions.Moves entry.toSessions next.toSessions
  dispatching : Dispatching entry.removed entry.commands → Dispatching next.removed next.commands
  receipts : Receipts entry.commands next.commands

namespace Keeps

theorem trans (before : Keeps entry next) (after : Keeps next last) : Keeps entry last where
  moves := before.moves.trans after.moves
  dispatching := fun holds => after.dispatching (before.dispatching holds)
  receipts := before.receipts.trans after.receipts

theorem of_steady (steady : Steady entry next) : Keeps entry next where
  moves := steady.moves
  dispatching := by
    rw [steady.commands, steady.removed]
    exact id
  receipts := by
    rw [steady.commands]
    exact .refl _

theorem restage {index : Nat} {command : CommandEntry κ} {stage : CommandStage κ}
    (steady : Steady entry next) (found : entry.commands[index]? = some command)
    (unsettled : Dispatching entry.removed entry.commands → entry.removed = false →
      command.settled = false)
    (running : ({ command with stage } : CommandEntry κ).operates = true →
      command.operates = true ∨ entry.removed = false) :
    Keeps entry (next.setCommand index { command with stage }) where
  moves := steady.moves
  dispatching := by
    intro dispatching
    show Dispatching next.removed (next.commands.set index { command with stage })
    rw [steady.commands, steady.removed]
    exact dispatching.restage found (unsettled dispatching) running
  receipts := by
    show Receipts entry.commands (next.commands.set index { command with stage })
    rw [steady.commands]
    exact .set found rfl fun _ => rfl

end Keeps

theorem ensureClient_removed (command : CommandEntry κ) (removed : entry.removed = true) :
    ({ command with stage := .awaiting (entry.ensureClient deps).1 } :
      CommandEntry κ).operates = false := by
  rw [ensureClient, if_pos removed]
  rfl

theorem run_keeps (index : Nat) : Keeps entry (entry.run deps index) := by
  unfold run
  split
  · exact .of_steady (.refl entry)
  rename_i command found
  split
  · exact .of_steady (.refl entry)
  rename_i waits
  refine Keeps.restage (ensureClient_steady entry) found ?_ ?_
  · intro _ _
    cases settled : command.settled with
    | false => rfl
    | true =>
      rw [settled, Bool.or_true] at waits
      exact absurd rfl waits
  intro operates
  cases removed : entry.removed with
  | false => exact .inr rfl
  | true =>
    rw [ensureClient_removed command removed] at operates
    cases operates

theorem runs_keep (indices : List Nat) (entry : Connection Ω κ) :
    Keeps entry (indices.foldl (fun entry index => run deps entry index) entry) := by
  induction indices generalizing entry with
  | nil => exact .of_steady (.refl entry)
  | cons index rest ih => exact (run_keeps index).trans (ih _)

theorem dispatchCommand_keeps (commandId : String) :
    Keeps entry (entry.dispatchCommand deps commandId) := by
  unfold dispatchCommand
  split
  · exact .of_steady (.refl entry)
  rename_i fresh
  refine Keeps.trans ?_ (run_keeps entry.commands.length)
  exact {
    moves := .refl
    dispatching := fun dispatching =>
      dispatching.dispatch ((Bool.not_eq_true _).mp fresh)
    receipts := .concat _ _ }

variable {command : CommandEntry κ}

theorem inFlight_unsettled (found : entry.commands[index]? = some command)
    (runs : command.stage ≠ .idle) (dispatching : Dispatching entry.removed entry.commands)
    (present : entry.removed = false) : command.settled = false := by
  cases settled : command.settled with
  | false => rfl
  | true =>
    exact absurd (dispatching.idle present command (List.mem_of_getElem? found) settled) runs

theorem catchFailure_keeps {cause : κ} (found : entry.commands[index]? = some command)
    (runs : command.stage ≠ .idle) :
    Keeps entry (entry.catchFailure deps index command cause) := by
  have running : ({ command with stage := .failing cause } : CommandEntry κ).operates =
      true → command.operates = true ∨ entry.removed = false := by
    intro operates
    cases operates
  unfold catchFailure
  split
  · exact .restage (handleFailure_steady cause none false) found
      (inFlight_unsettled found runs) running
  · exact .restage (.refl entry) found (inFlight_unsettled found runs) running

theorem resume_keeps (stepped : entry.resume deps index = some next) : Keeps entry next := by
  obtain ⟨command, found, resumed⟩ := bind_eq_some_iff.mp stepped
  split at resumed
  · rename_i ensured isStage
    have runs : command.stage ≠ .idle := by
      rw [isStage]
      intro same
      cases same
    obtain ⟨outcome, isOutcome, rfl⟩ := map_eq_some_iff.mp resumed
    split
    · refine .restage (.refl entry) found (inFlight_unsettled found runs) ?_
      intro _
      refine .inl ?_
      rw [CommandEntry.operates, isStage]
      cases ensured with
      | now outcome =>
        cases isOutcome
        rfl
      | attempt id owner => rfl
    · exact catchFailure_keeps found runs
  · cases resumed

theorem complete_keeps (stepped : entry.complete deps index failure = some next) :
    Keeps entry next := by
  obtain ⟨command, found, completed⟩ := bind_eq_some_iff.mp stepped
  split at completed
  · rename_i session isStage
    have runs : command.stage ≠ .idle := by
      rw [isStage]
      intro same
      cases same
    cases completed
    refine .restage (.refl entry) found (inFlight_unsettled found runs) ?_
    intro operates
    cases operates
  · rename_i session cause isStage
    have runs : command.stage ≠ .idle := by
      rw [isStage]
      intro same
      cases same
    cases completed
    exact catchFailure_keeps found runs
  · cases completed

theorem settled_keeps {receipt : Receipt κ} (found : entry.commands[index]? = some command)
    (runs : command.stage ≠ .idle) (given : receipt ≠ .pending) :
    Keeps entry ((entry.setCommand index
      { command.settle receipt with stage := .idle }).unlist command.commandId) where
  moves := .refl
  dispatching := by
    intro dispatching
    exact dispatching.unlist found (inFlight_unsettled found runs dispatching) rfl rfl
      ((Dispatching.settle_receipt command given).mp rfl) rfl
  receipts := by
    have kept : Receipts entry.commands (entry.commands.set index
        { command.settle receipt with stage := .idle }) :=
      .set found rfl fun given => command.settle_kept receipt given
    refine kept.trans (.map ?_ _)
    intro other
    obtain ⟨_, sameReceipt, _, sameId⟩ := Dispatching.drop_eq command.commandId other
    exact ⟨sameId, fun _ => sameReceipt⟩

theorem settleCommand_keeps (stepped : entry.settleCommand deps index = some next) :
    Keeps entry next := by
  obtain ⟨command, found, settled⟩ := bind_eq_some_iff.mp stepped
  split at settled
  · rename_i isStage
    cases settled
    exact settled_keeps found (by rw [isStage]; intro same; cases same) nofun
  · rename_i cause isStage
    have runs : command.stage ≠ .idle := by
      rw [isStage]
      intro same
      cases same
    split at settled
    · cases settled
      refine .restage (.refl entry) found (inFlight_unsettled found runs) ?_
      intro operates
      cases operates
    · cases settled
      exact settled_keeps found runs nofun
  · cases settled

theorem remove_keeps : Keeps entry (entry.remove deps) := by
  unfold remove
  split
  · exact .of_steady (.refl entry)
  exact {
    moves := .single (.remove entry.toSessions)
    dispatching := fun dispatching => dispatching.failPending
    receipts := by
      refine .map ?_ _
      intro command
      split
      · split
        · exact ⟨rfl, fun _ => rfl⟩
        · exact ⟨rfl, command.settle_kept _⟩
      · exact ⟨rfl, fun _ => rfl⟩ }

variable {session : Nat}

section

variable (found : entry.toSessions.attempts[attempt.id]? = some attempt)
  (old : attempt.stage = .settled (.ready session))
  (fresh : entry.toSessions.superseded attempt = false)
include found old fresh

theorem connected_steady : Steady entry (entry.connected attempt session) := by
  have moved := Sessions.Move.connect entry.toSessions attempt session found old fresh
  unfold connected forget
  split
  · rename_i held
    rw [if_pos held] at moved
    exact .of_move moved rfl rfl
  · rename_i other
    rw [if_neg other] at moved
    exact .of_move moved rfl rfl

theorem connect_keeps : Keeps entry (entry.connect deps attempt session) := by
  have connected := Keeps.of_steady (connected_steady found old fresh)
  unfold connect
  split
  · exact connected.trans (runs_keep _ _)
  · exact connected

end

theorem finishAttempt_keeps (sound : entry.toSessions.Sound)
    (stepped : entry.finishAttempt deps id = some next) : Keeps entry next := by
  obtain ⟨attempt, isAttempt, finished⟩ := bind_eq_some_iff.mp stepped
  have same := sound.ids id attempt isAttempt
  subst same
  have found : entry.toSessions.attempts[attempt.id]? = some attempt := isAttempt
  split at finished
  · rename_i session isStage
    cases finished
    split
    · rename_i late
      exact .of_steady (finish_steady found isStage (.inl late))
    · rename_i fresh
      exact connect_keeps found isStage ((Bool.not_eq_true _).mp fresh)
  · rename_i cause isStage
    cases finished
    have seen : Steady entry ((entry.forget attempt).setStage attempt
        (.finished (.rejected cause) (.rejected cause))) :=
      finish_steady found isStage (.inr ⟨cause, rfl⟩)
    split
    · exact .of_steady seen
    · exact .of_steady (seen.trans (markFailure_steady cause _))
  · cases finished

structure Proper (entry : Connection Ω κ) : Prop where
  sessions : entry.toSessions.Sound
  dispatching : Dispatching entry.removed entry.commands

theorem step_keeps {event : ConnectionEvent Ω κ} (sound : entry.toSessions.Sound)
    (stepped : entry.step deps event = some next) : Keeps entry next := by
  cases event with
  | getClient =>
    cases stepped
    exact .of_steady (ensureClient_steady entry)
  | dispatchCommand commandId =>
    cases stepped
    exact dispatchCommand_keeps commandId
  | reportFailure cause expectedGeneration =>
    cases stepped
    exact .of_steady (handleFailure_steady cause expectedGeneration _)
  | retryNow =>
    cases stepped
    exact .of_steady retryNow_steady
  | replaceSession =>
    cases stepped
    exact .of_steady replaceSession_steady
  | checkHealth =>
    cases stepped
    exact .of_steady checkHealth_steady
  | setOnline online =>
    cases stepped
    exact .of_steady (setOnline_steady online)
  | updateOptions options =>
    cases stepped
    exact .of_steady (updateOptions_steady options)
  | remove =>
    cases stepped
    exact remove_keeps
  | resume index => exact resume_keeps stepped
  | complete index failure => exact complete_keeps stepped
  | settleCommand index => exact settleCommand_keeps stepped
  | advance attempt failure => exact .of_steady (advance_steady sound stepped)
  | finishAttempt attempt => exact finishAttempt_keeps sound stepped
  | disposeNext => exact .of_steady (disposeNext_steady stepped)
  | disposalDone => exact .of_steady (disposalDone_steady stepped)
  | probed index failure => exact .of_steady (probed_steady stepped)
  | retryDue => exact .of_steady (retryDue_steady stepped)
  | platform online | tick now =>
    cases stepped
    exact .of_steady (.of_same rfl rfl)

theorem Proper.step {event : ConnectionEvent Ω κ} (proper : entry.Proper)
    (stepped : entry.step deps event = some next) : next.Proper :=
  have keeps := step_keeps proper.sessions stepped
  ⟨proper.sessions.moves keeps.moves, keeps.dispatching proper.dispatching⟩

theorem fresh_proper (options : Ω) (platformOnline : Bool) (now : Nat) :
    (fresh deps options platformOnline now : Connection Ω κ).Proper where
  sessions := by
    refine ⟨?_, ?_, rfl, List.Perm.refl _, ?_, ?_, ?_, ?_⟩
    · intro index attempt found
      cases found
    · intro index attempt found
      cases found
    · intro index
      constructor
      · intro held
        cases held
      · intro current
        obtain ⟨attempt, found, _⟩ := current
        cases found
    · intro isSome
      cases isSome
    · intro _ session held
      cases held
    · intro index attempt session found
      cases found
  dispatching := .empty

end Connection

end Zuse.Client
