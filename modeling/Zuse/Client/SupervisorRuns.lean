import Zuse.Client.SupervisorServing

namespace Zuse.Client

open Zuse.Data List CommandEntry

variable {Ω κ : Type} {deps : SupervisorDeps Ω κ} {entry next : Connection Ω κ}

namespace Connection

def Quiet (entry : Connection Ω κ) : Prop :=
  (∀ attempt ∈ entry.attempts, attempt.stage.finish? = true) ∧ entry.closing = []

/-- No session is disposed of twice or while it is the client, and once nothing is under
way each one that was created is the client or was disposed of. -/
structure Custody (entry : Connection Ω κ) : Prop where
  once : entry.disposed.Nodup
  client : ∀ session, entry.client = some session → session ∉ entry.disposed
  quiet : entry.Quiet → ∀ session ∈ entry.created,
    entry.client = some session ∨ session ∈ entry.disposed

def executing (command : CommandEntry κ) : Bool :=
  match command.stage with
  | .executing _ => true
  | _ => false

/-- The operation of an id is executed by one run at a time. -/
def Exclusive (entry : Connection Ω κ) : Prop :=
  ((entry.commands.filter executing).map CommandEntry.commandId).Nodup

/-- The status is right, and no dispatched command is pending in a connected entry unless
it is in flight. -/
def Served (entry : Connection Ω κ) : Prop :=
  entry.Linked ∧ (entry.status = .connected → ∀ command ∈ entry.commands,
    command.inFlight = false → command.receipt ≠ .pending)

theorem Proper.custody (proper : entry.Proper) : entry.Custody := by
  have sound := proper.sessions
  have distinct : entry.toSessions.holders.Nodup := by
    rw [sound.held.nodup_iff, sound.created]
    exact nodup_range
  have disposal := (nodup_append.mp distinct).2.1
  have tail := (nodup_append.mp disposal).2.1
  refine ⟨(nodup_append.mp tail).2.1, ?_, ?_⟩
  · intro session held member
    have kept : entry.disposeClient = some session := by
      have isSome : entry.client.isSome = true := by
        rw [held]
        rfl
      exact (sound.client isSome).2.trans held
    refine (nodup_append.mp disposal).2.2 session ?_ session ?_ rfl
    · rw [kept]
      exact mem_singleton_self session
    · exact mem_append_right _ member
  · intro quiet session created
    obtain ⟨ended, closing⟩ := quiet
    have member := sound.held.mem_iff.mpr created
    cases mem_append.mp member with
    | inl validates =>
      obtain ⟨attempt, isAttempt, isSession⟩ := mem_filterMap.mp validates
      have finished := ended attempt isAttempt
      rw [Sessions.attemptSession] at isSession
      cases stage : attempt.stage with
      | validating other
      | closing sessions | preparing | creating | discarding cause | settled outcome =>
        rw [stage] at finished
        cases finished
      | finished outcome seen =>
        rw [stage] at isSession
        cases isSession
    | inr rest =>
      cases mem_append.mp rest with
      | inl kept =>
        have dispose : entry.disposeClient = some session := Option.mem_toList.mp kept
        refine .inl ?_
        cases held : entry.client with
        | none =>
          obtain ⟨index, attempt, found, current, _⟩ :=
            sound.waiting held session dispose
          have finished := ended attempt (mem_of_getElem? found)
          rw [current.2] at finished
          cases finished
        | some other =>
          have isSome : entry.client.isSome = true := by
            rw [held]
            rfl
          have same := (sound.client isSome).2
          rw [dispose, held] at same
          exact same.symm
      | inr after =>
        have closed : entry.toSessions.closing = [] := closing
        rw [closed] at after
        exact .inr after

theorem Proper.exclusive (proper : entry.Proper) : entry.Exclusive := by
  refine proper.dispatching.nodup.sublist ?_
  induction entry.commands with
  | nil => exact List.Sublist.refl _
  | cons command rest ih =>
    rw [filter_cons, filterMap_cons]
    cases executes : executing command with
    | true =>
      have operates : command.operates = true := by
        unfold executing at executes
        split at executes
        · rename_i session isStage
          rw [operates, isStage]
        · cases executes
      simp only [runningId, operates, Bool.true_or, if_true, map_cons]
      exact ih.cons_cons _
    | false =>
      simp only [Bool.false_eq_true, if_false]
      split
      · exact ih
      · exact ih.cons _

theorem Serving.served (serving : entry.Serving deps) (proper : entry.Proper) : entry.Served := by
  refine ⟨serving.linked, ?_⟩
  intro connected command member idle pending
  have present : entry.removed = false := by
    cases removed : entry.removed with
    | false => rfl
    | true => exact absurd connected (serving.removed removed)
  have unsettled : command.settled = false := by
    cases settled : command.settled with
    | false => rfl
    | true => exact absurd pending ((proper.dispatching.receipt command member).mp settled)
  have listed := proper.dispatching.listed present command member
  have isIdle : command.stage = .idle := by
    unfold inFlight at idle
    split at idle
    · assumption
    · cases idle
  have free := serving.unstuck connected command member
  simp [stuck, isIdle, unsettled, listed] at free

theorem fresh_serving (options : Ω) (platformOnline : Bool) (now : Nat) :
    (fresh deps options platformOnline now : Connection Ω κ).Serving deps where
  linked := by
    refine ⟨?_, fun isSome => by cases isSome⟩
    intro connected
    simp only [fresh] at connected
    split at connected
    · cases connected
    · cases connected
  removed := by
    intro removed
    cases removed
  unstuck := by
    intro _ command member
    cases member

variable {options : Ω} {platformOnline : Bool} {now : Nat}

theorem proper_of_run
    (reachable : (supervisorSystem deps options platformOnline now).Reachable entry) :
    entry.Proper := by
  induction reachable with
  | init => exact fresh_proper options platformOnline now
  | step _ stepped ih => exact ih.step stepped

theorem served_of_regular (events : List (ConnectionEvent Ω κ)) (proper : entry.Proper)
    (serving : entry.Serving deps)
    (regular : (supervisorSystem deps options platformOnline now).EachStep (Regular deps)
      entry events) :
    (supervisorSystem deps options platformOnline now).Everywhere Served entry events := by
  induction events generalizing entry with
  | nil => exact serving.served proper
  | cons event rest ih =>
    refine ⟨serving.served proper, ?_⟩
    rw [TransitionSystem.EachStep] at regular
    cases stepped : (supervisorSystem deps options platformOnline now).step entry event with
    | none => trivial
    | some next =>
      rw [stepped] at regular
      obtain ⟨now, later⟩ := regular
      exact ih (proper.step stepped) (serving.step proper now stepped) later

end Connection

open Connection

/-- Of every supervised connection: in each step of each run every session is kept or
disposed of once, a new client is of a new generation, an operation has one run at a time
and a receipt is given once; and along the runs of regular steps the status is right and
no command is parked on a connected entry. -/
theorem supervised (deps : SupervisorDeps Ω κ) (options : Ω) (platformOnline : Bool) (now : Nat) :
    (∀ entry event next,
      (supervisorSystem deps options platformOnline now).Reachable entry →
        entry.step deps event = some next →
          next.Custody ∧ next.Exclusive ∧ entry.toSessions.Succeeds next.toSessions ∧
            Receipts entry.commands next.commands) ∧
    ∀ events,
      (supervisorSystem deps options platformOnline now).EachStep (Regular deps)
        (fresh deps options platformOnline now) events →
      (supervisorSystem deps options platformOnline now).Everywhere Served
        (fresh deps options platformOnline now) events := by
  refine ⟨?_, ?_⟩
  · intro entry event next reachable stepped
    have proper := proper_of_run reachable
    have after := proper.step stepped
    have keeps := step_keeps proper.sessions stepped
    exact ⟨after.custody, after.exclusive, keeps.moves.succeeds, keeps.receipts⟩
  · intro events regular
    exact served_of_regular events (fresh_proper options platformOnline now)
      (fresh_serving options platformOnline now) regular

def retryingDeps : SupervisorDeps Unit String where
  requiresNetwork := fun _ => true
  maxAutomaticAttempts := fun _ => none
  shouldReconnectOnOptionsChange := fun _ _ => false
  isAuthError := fun _ => false
  isRetryableCommandError := fun cause => cause = "socket closed"
  isIgnorableFailure := fun _ => false
  validates := true
  confirmFailuresWithProbe := true
  newError := id
  messageOf := id

instance Connection.Regular.decidable (entry : Connection Unit String)
    (event : ConnectionEvent Unit String) : Decidable (Regular retryingDeps entry event) :=
  decidable_of_iff (_ ∧ _ ∧ _ ∧ _)
    ⟨fun ⟨asks, removes, catches, arrives⟩ => ⟨asks, removes, catches, arrives⟩,
      fun ⟨asks, removes, catches, arrives⟩ => ⟨asks, removes, catches, arrives⟩⟩

/-- The session is lost under a command, which is parked and runs again on the second
session. -/
def secondSession : List (ConnectionEvent Unit String) :=
  .getClient :: replicate 4 (.advance 0 none) ++
    [.finishAttempt 0, .dispatchCommand "send", .resume 0, .complete 0 (some "socket closed"),
      .settleCommand 0, .retryDue, .disposeNext, .disposalDone] ++
    replicate 4 (.advance 1 none) ++
    [.finishAttempt 1, .resume 0, .complete 0 none, .settleCommand 0]

theorem supervised_of_secondSession :
    (supervisorSystem retryingDeps () true 0).Everywhere Served (.fresh retryingDeps () true 0)
        secondSession ∧
      ((supervisorSystem retryingDeps () true 0).run secondSession).map (fun entry =>
        (entry.client, entry.commands)) =
          some (some 1, [⟨"send", false, true, .fulfilled, .idle⟩]) := by
  have regular : (supervisorSystem retryingDeps () true 0).EachStep (Regular retryingDeps)
      (.fresh retryingDeps () true 0) secondSession := by
    decide +kernel
  refine ⟨(supervised retryingDeps () true 0).2 secondSession regular, ?_⟩
  decide +kernel

def firstRetry : List (ConnectionEvent Unit String) :=
  [.dispatchCommand "send", .advance 0 none, .advance 0 none,
    .advance 0 (some "socket closed"), .finishAttempt 0, .resume 0, .settleCommand 0,
    .retryDue, .advance 1 none, .advance 1 none, .advance 1 none, .advance 1 none,
    .finishAttempt 1]

def parkedCommand (entry : Connection Unit String) : Bool :=
  entry.status = .connected && entry.client = some 0 && entry.inFlight = none &&
    !entry.retry && entry.closing = [] && entry.probes = [] &&
      entry.commands = [⟨"send", true, false, .pending, .idle⟩]

theorem parks :
    ((supervisorSystem retryingDeps () true 0).run firstRetry).any parkedCommand = true := by
  decide +kernel

/-- A connected entry does not serve all its commands in every run. -/
theorem not_served_always :
    ¬∀ entry, (supervisorSystem retryingDeps () true 0).Reachable entry → entry.Served := by
  intro always
  obtain ⟨entry, ran, parked⟩ := (Option.any_eq_true _ _).mp parks
  have served := always entry (TransitionSystem.run_reachable ran)
  simp only [parkedCommand, Bool.and_eq_true, decide_eq_true_eq] at parked
  refine served.2 parked.1.1.1.1.1.1 ⟨"send", true, false, .pending, .idle⟩ ?_ rfl rfl
  rw [parked.2]
  exact mem_singleton_self _

end Zuse.Client
