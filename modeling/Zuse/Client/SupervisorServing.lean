import Zuse.Client.SupervisorSteps

namespace Zuse.Client

open Zuse.Data Bool List Option CommandEntry

/-! When a connected entry has a client and leaves no command parked. -/

variable {Ω κ : Type} {deps : SupervisorDeps Ω κ} {entry next : Connection Ω κ}

namespace Connection

/-- The status says that there is a client exactly when there is one. -/
def Linked (entry : Connection Ω κ) : Prop :=
  entry.status = .connected ↔ entry.client.isSome = true

/-- There is no client, and the status does not claim one. -/
def Down (entry : Connection Ω κ) : Prop :=
  entry.status ≠ .connected ∧ entry.client = none

/-- A step after which the status is right, and connected only if it was so before. -/
def Falls (entry next : Connection Ω κ) : Prop :=
  next.Linked ∧ (next.status = .connected → entry.status = .connected)

theorem Down.falls (down : next.Down) : Falls entry next := by
  refine ⟨⟨fun connected => absurd connected down.1, ?_⟩, fun connected => absurd connected down.1⟩
  intro isSome
  rw [down.2] at isSome
  cases isSome

theorem Linked.down (linked : entry.Linked) (absent : entry.client = none) : entry.Down := by
  refine ⟨?_, absent⟩
  intro connected
  have isSome := linked.mp connected
  rw [absent] at isSome
  cases isSome

theorem Linked.falls (linked : entry.Linked) (status : next.status = entry.status)
    (client : next.client = entry.client) : Falls entry next := by
  refine ⟨?_, ?_⟩
  · rw [Linked, status, client]
    exact linked
  · rw [status]
    exact id

theorem goOffline_down (absent : entry.client = none) : entry.goOffline.Down :=
  ⟨nofun, absent⟩

theorem ensureClient_down (down : entry.Down) : (entry.ensureClient deps).2.Down := by
  unfold ensureClient
  split
  · exact down
  split
  · exact goOffline_down down.2
  split
  · exact down
  split
  · exact down
  · exact down
  refine ⟨?_, down.2⟩
  simp only [beginAttempt]
  split
  · intro same
    cases same
  · intro same
    cases same

variable {session : Nat}

theorem ensureClient_held (held : entry.client = some session)
    (online : entry.isOnline deps = true) : (entry.ensureClient deps).2 = entry := by
  unfold ensureClient
  split
  · rfl
  split
  · rename_i offline
    rw [online] at offline
    cases offline
  split
  · rfl
  rw [held]

theorem ensureClient_falls (linked : entry.Linked)
    (online : entry.client.isSome = true → entry.isOnline deps = true) :
    Falls entry (entry.ensureClient deps).2 := by
  cases held : entry.client with
  | none => exact (ensureClient_down (linked.down held)).falls
  | some session =>
    have isOnline := online (by rw [held]; rfl)
    rw [ensureClient_held held isOnline]
    exact linked.falls rfl rfl

theorem markFailure_down (cause : κ) (previousAttempts : Nat) (absent : entry.client = none) :
    (entry.markFailure deps cause previousAttempts).Down := by
  unfold markFailure
  split
  · exact goOffline_down absent
  split
  · exact ⟨nofun, absent⟩
  split
  · exact ⟨nofun, absent⟩
  · exact ⟨nofun, absent⟩

theorem reconnectLostSession_down (absent : entry.client = none) :
    (entry.reconnectLostSession deps).Down := by
  unfold reconnectLostSession
  dsimp only
  split
  · exact goOffline_down absent
  · exact ensureClient_down ⟨nofun, absent⟩

theorem replaceAfterFailure_down (cause : κ) : (entry.replaceAfterFailure deps cause).Down := by
  unfold replaceAfterFailure
  split
  · exact reconnectLostSession_down rfl
  · exact markFailure_down cause _ rfl

section

variable (linked : entry.Linked)
include linked

theorem handleFailure_falls (cause : κ) (expectedGeneration : Option Nat)
    (confirmWithProbe : Bool) :
    Falls entry (entry.handleFailure deps cause expectedGeneration confirmWithProbe) := by
  unfold handleFailure
  split
  · exact linked.falls rfl rfl
  split
  · split
    · unfold confirmFailure
      split
      · exact linked.falls rfl rfl
      · exact linked.falls rfl rfl
    · exact (replaceAfterFailure_down cause).falls
  · exact (replaceAfterFailure_down cause).falls

theorem retryNow_falls (online : entry.client.isSome = true → entry.isOnline deps = true) :
    Falls entry (entry.retryNow deps) := by
  unfold retryNow
  split
  · exact linked.falls rfl rfl
  dsimp only
  split
  · rename_i offline
    have absent : entry.client = none := by
      cases held : entry.client with
      | none => rfl
      | some session =>
        have isOnline := online (by rw [held]; rfl)
        have same : entry.clearRetry.isOnline deps = entry.isOnline deps := rfl
        rw [same, isOnline] at offline
        cases offline
    exact Down.falls ⟨nofun, absent⟩
  · refine Down.falls (ensureClient_down ⟨?_, rfl⟩)
    split
    · intro same
      cases same
    · intro same
      cases same

theorem Linked.no_client {status : ConnectionStatus} (here : entry.status = status)
    (other : status ≠ .connected) : entry.client = none := by
  cases held : entry.client with
  | none => rfl
  | some session =>
    have connected := linked.mpr (by rw [held]; rfl)
    rw [here] at connected
    exact absurd connected other

theorem retryNow_falls_idle (absent : entry.client = none) : Falls entry (entry.retryNow deps) := by
  apply retryNow_falls linked
  intro isSome
  rw [absent] at isSome
  cases isSome

theorem replaceSession_falls : Falls entry (entry.replaceSession deps) := by
  unfold replaceSession
  split
  · exact linked.falls rfl rfl
  split
  · exact (reconnectLostSession_down rfl).falls
  split
  · rename_i waiting
    have reconnecting := of_decide_eq_true ((and_eq_true _ _).mp waiting).1
    exact retryNow_falls_idle linked (linked.no_client reconnecting (by
      intro same; cases same))
  · exact linked.falls rfl rfl

theorem checkHealth_falls : Falls entry (entry.checkHealth deps) := by
  unfold checkHealth
  split
  · exact linked.falls rfl rfl
  split
  · exact linked.falls rfl rfl
  · rename_i reconnecting
    split
    · exact retryNow_falls_idle linked (linked.no_client reconnecting (by
        intro same; cases same))
    · exact linked.falls rfl rfl
  · exact linked.falls rfl rfl

theorem setOnline_falls (online : Bool) : Falls entry (entry.setOnline deps online) := by
  unfold setOnline
  split
  · exact linked.falls rfl rfl
  split
  · split
    · exact linked.falls rfl rfl
    · exact (goOffline_down rfl).falls
  split
  · rename_i offline
    have absent := linked.no_client offline nofun
    let waiting : Connection Ω κ := { entry with status := .reconnecting, error := none }
    have down : waiting.Down := ⟨nofun, absent⟩
    have began : Falls entry waiting := down.falls
    have again : Falls waiting (waiting.retryNow deps) :=
      retryNow_falls_idle began.1 absent
    exact ⟨again.1, fun connected => began.2 (again.2 connected)⟩
  · exact linked.falls rfl rfl

theorem updateOptions_falls (options : Ω) : Falls entry (entry.updateOptions deps options) := by
  unfold updateOptions
  dsimp only
  split
  · exact linked.falls rfl rfl
  have down : ((clearRetry { entry with options }).invalidateClient.announce deps).Down := by
    refine ⟨?_, rfl⟩
    simp only [announce]
    split
    · intro same
      cases same
    · intro same
      cases same
  split
  · exact (ensureClient_down down).falls
  · exact down.falls

end

variable {index : Nat} {failure : Option κ}

theorem probed_falls (linked : entry.Linked)
    (stepped : entry.probed deps index failure = some next) : Falls entry next := by
  unfold probed at stepped
  split at stepped
  · cases stepped
  obtain ⟨probe, _, rfl⟩ := map_eq_some_iff.mp stepped
  dsimp only
  split
  · split
    · exact linked.falls rfl rfl
    · exact Down.falls (replaceAfterFailure_down _)
  · exact linked.falls rfl rfl
  · split
    · exact linked.falls rfl rfl
    · exact (reconnectLostSession_down rfl).falls
  · exact linked.falls rfl rfl

/-- In a connected entry every listed command is in flight, and none is about to wait for
another session. -/
structure Serving (deps : SupervisorDeps Ω κ) (entry : Connection Ω κ) : Prop where
  linked : entry.Linked
  removed : entry.removed = true → entry.status ≠ .connected
  unstuck : entry.status = .connected → ∀ command ∈ entry.commands, command.stuck deps = false

theorem Serving.falls (serving : entry.Serving deps) (steady : Steady entry next)
    (falls : Falls entry next) : next.Serving deps where
  linked := falls.1
  removed := by
    rw [steady.removed]
    exact fun removed connected => serving.removed removed (falls.2 connected)
  unstuck := by
    rw [steady.commands]
    exact fun connected => serving.unstuck (falls.2 connected)

variable {command : CommandEntry κ}

theorem Serving.restage (serving : entry.Serving deps)
    (moves : entry.status = .connected → command.stuck deps = false) :
    (entry.setCommand index command).Serving deps where
  linked := serving.linked
  removed := serving.removed
  unstuck := by
    intro connected other member
    obtain kept | new := mem_or_eq_of_mem_set member
    · exact serving.unstuck connected other kept
    · rw [new]
      exact moves connected

def caught (entry : Connection Ω κ) : ConnectionEvent Ω κ → Option κ
  | .resume index =>
    entry.commands[index]?.bind fun command =>
      match command.stage with
      | .awaiting ensured =>
        (entry.outcomeOf ensured).bind fun outcome =>
          match outcome with
          | .ready _ => none
          | .rejected cause => some cause
      | _ => none
  | .complete _ failure => failure
  | _ => none

def asksClient : ConnectionEvent Ω κ → Bool
  | .getClient => true
  | .dispatchCommand _ => true
  | .retryNow => true
  | .retryDue => true
  | _ => false

def arriving (entry : Connection Ω κ) : ConnectionEvent Ω κ → Bool
  | .finishAttempt id =>
    entry.attempts[id]?.any fun attempt =>
      !entry.superseded attempt &&
        match attempt.stage with
        | .settled (.ready _) => true
        | _ => false
  | _ => false

/-- Under which a step leaves no command parked on a connected entry: the client is not
asked for, or retried, while the platform is offline and there is one; the entry is not
removed while it is connected; a failure that a command may be retried after is not
ignored; and when a session arrives no command is between its failure and the dispatcher,
and the parked ones are run again, because the session is not the first one and the
platform is online. -/
structure Regular (deps : SupervisorDeps Ω κ) (entry : Connection Ω κ)
    (event : ConnectionEvent Ω κ) : Prop where
  asks : asksClient event = true → entry.client.isSome = true → entry.isOnline deps = true
  removes : event = .remove → entry.status ≠ .connected
  catches : ∀ cause ∈ entry.caught event, entry.status = .connected →
    deps.isRetryableCommandError cause = true → deps.isIgnorableFailure cause = false
  arrives : entry.arriving event = true → ∀ command ∈ entry.commands,
    command.stuck deps = true →
      command.inFlight = false ∧ 0 < entry.generation ∧ entry.isOnline deps = true

theorem awaiting_unstuck (command : CommandEntry κ) (ensured : Ensured κ) :
    ({ command with stage := .awaiting ensured } : CommandEntry κ).stuck deps = false :=
  and_false _

theorem dispatchCommand_serving (serving : entry.Serving deps) (commandId : String)
    (online : entry.client.isSome = true → entry.isOnline deps = true) :
    (entry.dispatchCommand deps commandId).Serving deps := by
  unfold dispatchCommand
  split
  · exact serving
  let listed : Connection Ω κ := { entry with
    commands := entry.commands ++ [⟨commandId, true, false, .pending, .idle⟩] }
  have found : listed.commands[entry.commands.length]? =
      some ⟨commandId, true, false, .pending, .idle⟩ :=
    Table.getElem?_concat_iff.mpr (.inl ⟨rfl, rfl⟩)
  have steady : Steady listed (listed.ensureClient deps).2 := ensureClient_steady listed
  have falls : Falls listed (listed.ensureClient deps).2 :=
    ensureClient_falls serving.linked online
  unfold run
  rw [found]
  refine ⟨falls.1, ?_, ?_⟩
  · intro removed connected
    exact serving.removed (steady.removed.symm.trans removed) (falls.2 connected)
  intro connected command member
  have before := serving.unstuck (falls.2 connected)
  obtain ⟨position, atPosition⟩ := getElem?_of_mem member
  have foundNow : (listed.ensureClient deps).2.commands[entry.commands.length]? =
      some ⟨commandId, true, false, .pending, .idle⟩ := by
    rw [steady.commands]
    exact found
  obtain ⟨_, rfl⟩ | ⟨apart, isOther⟩ := (Table.getElem?_set_iff foundNow).mp atPosition
  · exact awaiting_unstuck _ _
  · rw [steady.commands] at isOther
    obtain ⟨last, _⟩ | earlier := Table.getElem?_concat_iff.mp isOther
    · exact absurd last apart
    · exact before command (mem_of_getElem? earlier)

variable {cause : κ}

theorem handleFailure_heard {expectedGeneration : Option Nat}
    (heard : entry.failureIgnored deps cause expectedGeneration = false) :
    entry.handleFailure deps cause expectedGeneration false =
      entry.replaceAfterFailure deps cause := by
  unfold handleFailure
  rw [heard]
  simp only [Bool.false_eq_true, if_false, Bool.false_and]
  split
  · rfl
  · rfl

section

variable (serving : entry.Serving deps)
include serving

theorem catchFailure_serving
    (heard : entry.status = .connected → deps.isRetryableCommandError cause = true →
      deps.isIgnorableFailure cause = false) :
    (entry.catchFailure deps index command cause).Serving deps := by
  unfold catchFailure
  split
  · rename_i retryable
    have falls : Falls entry (entry.handleFailure deps cause none false) :=
      handleFailure_falls serving.linked cause none false
    have after := serving.falls (handleFailure_steady cause none false) falls
    apply after.restage
    -- a connected entry hears of the failure and gives up its session
    intro connected
    have before := falls.2 connected
    have present : entry.removed = false := by
      cases removed : entry.removed with
      | false => rfl
      | true => exact absurd before (serving.removed removed)
    have isHeard : entry.failureIgnored deps cause none = false := by
      rw [failureIgnored, present, heard before retryable, before]
      rfl
    rw [handleFailure_heard isHeard] at connected
    exact absurd connected (replaceAfterFailure_down cause).1
  · rename_i final
    apply serving.restage
    intro _
    simp only [stuck, (Bool.not_eq_true _).mp final, Bool.and_false]

theorem resume_serving
    (heard : ∀ cause ∈ entry.caught (.resume index : ConnectionEvent Ω κ), entry.status =
      .connected → deps.isRetryableCommandError cause = true →
      deps.isIgnorableFailure cause = false)
    (stepped : entry.resume deps index = some next) : next.Serving deps := by
  obtain ⟨command, found, resumed⟩ := bind_eq_some_iff.mp stepped
  split at resumed
  · rename_i ensured isStage
    obtain ⟨outcome, isOutcome, rfl⟩ := map_eq_some_iff.mp resumed
    split
    · exact serving.restage fun _ => and_false _
    · rename_i cause
      apply catchFailure_serving serving
      apply heard cause
      simp only [caught, found, bind_some, isStage, isOutcome, mem_some_iff]
  · cases resumed

theorem complete_serving
    (heard : ∀ cause ∈ failure, entry.status = .connected →
      deps.isRetryableCommandError cause = true → deps.isIgnorableFailure cause = false)
    (stepped : entry.complete deps index failure = some next) : next.Serving deps := by
  obtain ⟨command, found, completed⟩ := bind_eq_some_iff.mp stepped
  split at completed
  · cases completed
    exact serving.restage fun _ => and_false _
  · rename_i session cause isStage
    cases completed
    exact catchFailure_serving serving (heard cause rfl)
  · cases completed

theorem unlist_serving {commandId : String} : (entry.unlist commandId).Serving deps where
  linked := serving.linked
  removed := serving.removed
  unstuck := by
    intro connected command member
    obtain ⟨old, isOld, rfl⟩ := mem_map.mp member
    split
    · simp only [stuck, Bool.false_and]
    · exact serving.unstuck connected old isOld

theorem settleCommand_serving (dispatching : Dispatching entry.removed entry.commands)
    (stepped : entry.settleCommand deps index = some next) : next.Serving deps := by
  obtain ⟨command, found, settled⟩ := bind_eq_some_iff.mp stepped
  have ended : ∀ receipt : Receipt κ,
      ({ command.settle receipt with stage := .idle } : CommandEntry κ).stuck deps =
        false := by
    intro receipt
    simp only [stuck, settle, Bool.not_true, Bool.and_false, Bool.false_and]
  split at settled
  · cases settled
    exact unlist_serving (serving.restage fun _ => ended _)
  · rename_i cause isStage
    split at settled
    · rename_i retryable
      cases settled
      apply serving.restage
      -- were the entry connected, the failing command would already be stuck in it
      intro connected
      have before := serving.unstuck connected command (mem_of_getElem? found)
      have present : entry.removed = false := by
        cases removed : entry.removed with
        | false => rfl
        | true => exact absurd connected (serving.removed removed)
      have unsettled := inFlight_unsettled found
        (by rw [isStage]; intro same; cases same) dispatching present
      have listed := dispatching.listed present command (mem_of_getElem? found)
      simp [stuck, isStage, retryable, unsettled, listed] at before
    · cases settled
      exact unlist_serving (serving.restage fun _ => ended _)
  · cases settled

theorem remove_serving (down : entry.status ≠ .connected) : (entry.remove deps).Serving deps := by
  unfold remove
  split
  · exact serving
  refine ⟨?_, fun _ => down, fun connected => absurd connected down⟩
  exact ⟨fun connected => absurd connected down, fun isSome => by cases isSome⟩

end

/-- What the loop over the commands of a connected entry keeps. -/
structure Redispatching (deps : SupervisorDeps Ω κ) (before : Connection Ω κ)
    (indices : List Nat) (entry : Connection Ω κ) : Prop where
  status : entry.status = before.status
  client : entry.client = before.client
  removed : entry.removed = before.removed
  online : entry.isOnline deps = true
  waiting : ∀ (index : Nat) (command : CommandEntry κ),
    entry.commands[index]? = some command → command.stuck deps = true →
      command.inFlight = false ∧ index ∈ indices

variable {before : Connection Ω κ}

theorem run_redispatching {rest : List Nat} (held : before.client = some session)
    (loop : Redispatching deps before (index :: rest) entry) :
    Redispatching deps before rest (entry.run deps index) := by
  have same := ensureClient_held (loop.client.trans held) loop.online
  have skipped : ∀ (passes : ∀ command : CommandEntry κ,
      entry.commands[index]? = some command → command.stuck deps = true →
        command.inFlight = true), Redispatching deps before rest entry := by
    intro passes
    refine ⟨loop.status, loop.client, loop.removed, loop.online, ?_⟩
    intro other command found stuck
    obtain ⟨idle, member⟩ := loop.waiting other command found stuck
    refine ⟨idle, ?_⟩
    cases member with
    | head =>
      rw [passes command found stuck] at idle
      cases idle
    | tail _ later => exact later
  unfold run
  split
  · rename_i none
    apply skipped
    intro command found
    rw [none] at found
    cases found
  rename_i command found
  split
  · rename_i passed
    apply skipped
    intro other isOther stuck
    rw [found] at isOther
    cases isOther
    simp only [CommandEntry.stuck, and_eq_true, not_eq_true'] at stuck
    simpa [stuck.1.1, stuck.1.2] using passed
  dsimp only
  rw [same]
  refine ⟨loop.status, loop.client, loop.removed, loop.online, ?_⟩
  intro other later isLater stuck
  obtain ⟨_, rfl⟩ | ⟨apart, isLater⟩ := (Table.getElem?_set_iff found).mp isLater
  · rw [awaiting_unstuck] at stuck
    cases stuck
  obtain ⟨idle, member⟩ := loop.waiting other later isLater stuck
  refine ⟨idle, ?_⟩
  cases member with
  | head => exact absurd rfl apart
  | tail _ later => exact later

theorem runs_redispatching
    (held : before.client = some session) (indices : List Nat) {entry : Connection Ω κ}
    (loop : Redispatching deps before indices entry) :
    Redispatching deps before []
      (indices.foldl (fun entry index => run deps entry index) entry) := by
  induction indices generalizing entry with
  | nil => exact loop
  | cons index rest ih => exact ih (run_redispatching held loop)

theorem runs_unstuck (indices : List Nat)
    (unstuck : ∀ command ∈ entry.commands, command.stuck deps = false) :
    indices.foldl (fun entry index => run deps entry index) entry = entry := by
  induction indices with
  | nil => rfl
  | cons index rest ih =>
    have same : entry.run deps index = entry := by
      unfold run
      split
      · rfl
      rename_i command found
      split
      · rfl
      rename_i waits
      have idle := unstuck command (mem_of_getElem? found)
      simp only [not_eq_true, or_eq_false_iff, not_eq_false'] at waits
      obtain ⟨⟨inFlight, unsettled⟩, listed⟩ := waits
      have isIdle : command.stage = .idle := by
        unfold CommandEntry.inFlight at inFlight
        split at inFlight
        · assumption
        · cases inFlight
      simp [stuck, isIdle, unsettled, listed] at idle
    rw [foldl_cons, same]
    exact ih

theorem connect_serving {attempt : Attempt κ} (fresh : entry.superseded attempt = false)
    (arrives : ∀ command ∈ entry.commands, command.stuck deps = true →
      command.inFlight = false ∧ 0 < entry.generation ∧ entry.isOnline deps = true) :
    (entry.connect deps attempt session).Serving deps := by
  have commands : (entry.connected attempt session).commands = entry.commands :=
    forget_commands attempt
  have present : (entry.connected attempt session).removed = false := by
    have isPresent := (or_eq_false_iff.mp fresh).1
    unfold connected forget
    split
    · exact isPresent
    · exact isPresent
  have online : (entry.connected attempt session).isOnline deps = entry.isOnline deps := by
    unfold connected forget
    split
    · rfl
    · rfl
  have linked : (entry.connected attempt session).Linked := ⟨fun _ => rfl, fun _ => rfl⟩
  have serves : (∀ command ∈ entry.commands, command.stuck deps = false) →
      (entry.connected attempt session).Serving deps := by
    intro unstuck
    refine ⟨linked, ?_, ?_⟩
    · intro removed
      rw [present] at removed
      cases removed
    · intro _ command member
      rw [commands] at member
      exact unstuck command member
  unfold connect
  split
  · cases isOnline : entry.isOnline deps with
    | true =>
      have loop : Redispatching deps (entry.connected attempt session)
          (range (entry.connected attempt session).commands.length)
          (entry.connected attempt session) := by
        refine ⟨rfl, rfl, rfl, online.trans isOnline, ?_⟩
        intro index command found stuck
        obtain ⟨bound, _⟩ := List.getElem?_eq_some_iff.mp found
        have member := mem_of_getElem? found
        rw [commands] at member
        exact ⟨(arrives command member stuck).1, mem_range.mpr bound⟩
      have done := runs_redispatching rfl _ loop
      refine ⟨?_, ?_, ?_⟩
      · rw [redispatchPending, Linked, done.status, done.client]
        exact linked
      · intro removed
        rw [redispatchPending, done.removed, present] at removed
        cases removed
      · intro _ command member
        cases stuck : command.stuck deps with
        | false => rfl
        | true =>
          obtain ⟨position, found⟩ := getElem?_of_mem member
          have none := (done.waiting position command found stuck).2
          cases none
    | false =>
      have unstuck : ∀ command ∈ entry.commands, command.stuck deps = false := by
        intro command member
        cases stuck : command.stuck deps with
        | false => rfl
        | true =>
          have needed := (arrives command member stuck).2.2
          rw [isOnline] at needed
          cases needed
      rw [redispatchPending, runs_unstuck]
      · exact serves unstuck
      · rw [commands]
        exact unstuck
  · rename_i first
    apply serves
    intro command member
    cases stuck : command.stuck deps with
    | false => rfl
    | true => exact absurd (arrives command member stuck).2.1 first

variable {id : Nat}

theorem finishAttempt_serving (serving : entry.Serving deps) (sound : entry.toSessions.Sound)
    (arrives : entry.arriving (.finishAttempt id : ConnectionEvent Ω κ) = true →
      ∀ command ∈ entry.commands, command.stuck deps = true →
        command.inFlight = false ∧ 0 < entry.generation ∧ entry.isOnline deps = true)
    (stepped : entry.finishAttempt deps id = some next) : next.Serving deps := by
  obtain ⟨attempt, isAttempt, finished⟩ := bind_eq_some_iff.mp stepped
  have same := sound.ids id attempt isAttempt
  subst same
  have found : entry.toSessions.attempts[attempt.id]? = some attempt := isAttempt
  have kept : ∀ stage, Falls entry ((entry.forget attempt).setStage attempt stage) := by
    intro stage
    apply serving.linked.falls
    · unfold forget
      split
      · rfl
      · rfl
    · unfold forget
      split
      · rfl
      · rfl
  split at finished
  · rename_i session isStage
    cases finished
    split
    · rename_i late
      exact serving.falls (finish_steady found isStage (.inl late)) (kept _)
    · rename_i fresh
      apply connect_serving ((not_eq_true _).mp fresh)
      apply arrives
      simp [arriving, isAttempt, isStage, fresh]
  · rename_i cause isStage
    cases finished
    have seen : Steady entry ((entry.forget attempt).setStage attempt
        (.finished (.rejected cause) (.rejected cause))) :=
      finish_steady found isStage (.inr ⟨cause, rfl⟩)
    split
    · exact serving.falls seen (kept _)
    · rename_i fresh
      -- a current attempt means that there is no client
      have absent : entry.client = none := by
        refine sound.no_client found ⟨(not_eq_true _).mp fresh, ?_⟩
        rw [isStage]
        rfl
      have none : ((entry.forget attempt).setStage attempt
          (.finished (.rejected cause) (.rejected cause))).client = none := by
        unfold forget
        split
        · exact absent
        · exact absent
      exact serving.falls (seen.trans (markFailure_steady cause _))
        (markFailure_down cause _ none).falls
  · cases finished

theorem advance_status (stepped : entry.advance deps id failure = some next) :
    next.status = entry.status ∧ next.client = entry.client := by
  obtain ⟨attempt, isAttempt, moved⟩ := bind_eq_some_iff.mp stepped
  split at moved
  · split at moved
    · cases moved
      exact ⟨rfl, rfl⟩
    · cases moved
  · cases moved
    exact ⟨rfl, rfl⟩
  · cases moved
    exact ⟨rfl, rfl⟩
  · cases moved
    exact ⟨rfl, rfl⟩
  · cases moved
    split
    · exact ⟨rfl, rfl⟩
    · exact ⟨rfl, rfl⟩
  · split at moved
    · split at moved
      · cases moved
        exact ⟨rfl, rfl⟩
      · cases moved
    · cases moved
      split
      · exact ⟨rfl, rfl⟩
      · exact ⟨rfl, rfl⟩
  · cases moved
    exact ⟨rfl, rfl⟩
  · cases moved

theorem Serving.step {event : ConnectionEvent Ω κ} (serving : entry.Serving deps)
    (proper : entry.Proper) (regular : Regular deps entry event)
    (stepped : entry.step deps event = some next) : next.Serving deps := by
  have sound := proper.sessions
  cases event with
  | getClient =>
    cases stepped
    exact serving.falls (ensureClient_steady entry)
      (ensureClient_falls serving.linked (regular.asks rfl))
  | dispatchCommand commandId =>
    cases stepped
    exact dispatchCommand_serving serving commandId (regular.asks rfl)
  | reportFailure cause expectedGeneration =>
    cases stepped
    exact serving.falls (handleFailure_steady cause expectedGeneration _)
      (handleFailure_falls serving.linked cause expectedGeneration _)
  | retryNow =>
    cases stepped
    exact serving.falls retryNow_steady (retryNow_falls serving.linked (regular.asks rfl))
  | replaceSession =>
    cases stepped
    exact serving.falls replaceSession_steady (replaceSession_falls serving.linked)
  | checkHealth =>
    cases stepped
    exact serving.falls checkHealth_steady (checkHealth_falls serving.linked)
  | setOnline online =>
    cases stepped
    exact serving.falls (setOnline_steady online) (setOnline_falls serving.linked online)
  | updateOptions options =>
    cases stepped
    exact serving.falls (updateOptions_steady options) (updateOptions_falls serving.linked options)
  | remove =>
    cases stepped
    exact remove_serving serving (regular.removes rfl)
  | resume index => exact resume_serving serving regular.catches stepped
  | complete index failure => exact complete_serving serving regular.catches stepped
  | settleCommand index => exact settleCommand_serving serving proper.dispatching stepped
  | advance attempt failure =>
    obtain ⟨status, client⟩ := advance_status stepped
    exact serving.falls (advance_steady sound stepped) (serving.linked.falls status client)
  | finishAttempt attempt =>
    exact finishAttempt_serving serving sound regular.arrives stepped
  | disposeNext =>
    refine serving.falls (disposeNext_steady stepped) ?_
    have disposed : entry.disposeNext = some next := stepped
    unfold disposeNext at disposed
    split at disposed
    · cases disposed
      exact serving.linked.falls rfl rfl
    · cases disposed
  | disposalDone =>
    refine serving.falls (disposalDone_steady stepped) ?_
    obtain ⟨session, _, rfl⟩ := map_eq_some_iff.mp stepped
    exact serving.linked.falls rfl rfl
  | probed index failure =>
    exact serving.falls (probed_steady stepped) (probed_falls serving.linked stepped)
  | retryDue =>
    refine serving.falls (retryDue_steady stepped) ?_
    have due : entry.retryDue deps = some next := stepped
    unfold retryDue at due
    split at due
    · cases due
      let cleared : Connection Ω κ := { entry with retry := false }
      have began : Falls entry cleared := serving.linked.falls rfl rfl
      have ensured : Falls cleared (cleared.ensureClient deps).2 :=
        ensureClient_falls began.1 (regular.asks rfl)
      exact ⟨ensured.1, fun connected => began.2 (ensured.2 connected)⟩
    · cases due
  | platform online | tick now =>
    cases stepped
    exact serving.falls (.of_same rfl rfl) (serving.linked.falls rfl rfl)

end Connection

end Zuse.Client
