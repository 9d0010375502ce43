import Zuse.Device.BrokerActions

namespace Zuse.Device

open Zuse.Data InsertionMap Store

/-! Each operation of the broker keeps its discipline, and when it returns the commands
whose authority it took away are settled. -/

section Operations

variable {operation : Operation} {broker : Broker} {principal : Option DevicePrincipal}

theorem statusUnlocked_keeps {post : DeviceBridgeStatus → Broker → Prop}
    (known : ∀ status last, last.Sound → broker.store.Progress last.store → post status last) :
    (statusUnlocked principal).Keeps (discipline operation) post broker := by
  apply Task.Keeps.bind
  apply synchronize_keeps
  intro identity first _ progress _
  apply Task.Keeps.bind
  apply ask_keeps
  intro _ second listed _
  apply Task.Keeps.gets
  apply Task.Keeps.bind
  apply ask_keeps
  intro _ last granted sound
  apply known _ last sound
  rw [granted.store, listed.store]
  exact progress

variable {post : Unit → Broker → Prop}

theorem invalidate_keeps
    (known : ∀ last, last.Sound → broker.store.Progress last.store →
      (∀ id command, broker.store.stored id = some command → last.store.Settled id) →
      post () last) :
    invalidate.Keeps (discipline operation) post broker := by
  apply Task.Keeps.bind
  apply tellOther_keeps rfl (.inl rfl)
  intro cleared clears _
  apply Task.Keeps.bind
  refine stopActive_keeps nofun nofun ?_
  intro stopped stopping
  apply tellOther_keeps rfl (.inr stopping.quiet)
  intro last saves sound
  have kept : ∀ id command, broker.store.stored id = some command →
      ∃ next, last.store.stored id = some next ∧ (active command = false → next = command) := by
    rw [saves]
    have kept := stopping.progress.kept
    rw [clears] at kept
    exact kept
  have settled : ∀ id command, broker.store.stored id = some command → last.store.Settled id := by
    intro id command found
    obtain ⟨next, isNext, _⟩ := kept id command found
    refine ⟨next, isNext, ?_⟩
    rw [saves] at isNext
    exact stopping.quiet id next isNext
  exact known last sound ⟨kept, fun _ => settled⟩ settled

theorem initializeBroker_keeps (idle : ∀ id, broker.running.get? id = none)
    (known : ∀ last, last.Sound → broker.store.Progress last.store → post () last) :
    initializeBroker.Keeps (discipline operation) post broker := by
  apply Task.Keeps.bind
  apply ask_keeps
  intro _ listed meanwhile sound
  apply Task.Keeps.bind
  let invariant : List DeviceCommand → Broker → Prop := fun rest current =>
    current.Sound ∧ (∀ id, current.running.get? id = none) ∧
      broker.store.Progress current.store ∧ Awaiting rest current.store
  have begins : invariant broker.store.commands.commands listed := by
    refine ⟨sound, fun id => meanwhile.running id (idle id), ?_, ?_⟩
    · rw [meanwhile.store]
      exact .refl _
    · rw [meanwhile.store]
      exact awaiting_commands _
  refine (Task.Keeps.forEach ?_ begins).mono ?_
  · intro command rest current holds
    obtain ⟨_, none, progress, awaiting⟩ := holds
    split
    · rename_i live
      have found := awaiting.head live
      let marked : DeviceCommand := { command with state := .unknown }
      have save : ∀ {post : Unit → Broker → Prop},
          (∀ last, (current.withStore (current.store.save marked)).Meanwhile last →
            last.Sound → post () last) →
          (saveCommand marked).Keeps (discipline operation) post current :=
        saveCommand_keeps found live nofun (.inr (none _))
      apply save
      intro last saved lastSound
      have replaced := replaced_of_save saved
      exact ⟨lastSound, fun id => saved.running id (none id),
        progress.trans (replaced.progress found live), awaiting.replaced live replaced⟩
    · exact ⟨by assumption, none, progress, awaiting.tail⟩
  · intro _ last finished
    obtain ⟨_, _, progress, _⟩ := finished
    apply Task.Keeps.bind
    apply synchronize_keeps
    intro _ final finalSound further _
    exact known final finalSound (progress.trans further)

variable {command : DeviceCommand}

theorem active_of_running (running : command.state = .running) : active command = true := by
  rw [active, running]
  rfl

variable {id : String} {before : Store} {now : Nat}

theorem sweepLease_keeps (sound : broker.Sound) (progress : before.Progress broker.store) :
    (sweepLease now id).Keeps (discipline operation)
      (fun _ last => last.Sound ∧ before.Progress last.store) broker := by
  apply Task.Keeps.gets
  split
  · apply Task.Keeps.bind
    apply ask_keeps
    intro _ read meanwhile readSound
    rw [← meanwhile.store] at progress ⊢
    split
    · rename_i command isStored
      split
      · rename_i live
        have same := stored_id isStored
        subst same
        apply Task.Keeps.bind
        refine stop_keeps readSound isStored live (by intro pending; cases pending) ?_
        intro _ last lastSound replaced
        exact ⟨lastSound, progress.trans (replaced.progress isStored live)⟩
      · exact ⟨readSound, progress⟩
    · exact ⟨readSound, progress⟩
  · exact ⟨sound, progress⟩

theorem sweepEntry_keeps (sound : broker.Sound) (progress : before.Progress broker.store) :
    (sweepEntry now id).Keeps (discipline operation)
      (fun _ last => last.Sound ∧ before.Progress last.store) broker := by
  apply Task.Keeps.gets
  split
  · rename_i entry held
    split
    · obtain ⟨same, _, command, isStored, running⟩ := sound.running id entry held
      subst same
      have live : active command = true := active_of_running running
      apply Task.Keeps.bind
      refine stop_keeps sound isStored live nofun ?_
      intro _ last lastSound replaced
      exact ⟨lastSound, progress.trans (replaced.progress isStored live)⟩
    · exact ⟨sound, progress⟩
  · exact ⟨sound, progress⟩

theorem sweep_keeps :
    sweep.Keeps (discipline operation)
      (fun _ last => last.Sound ∧ broker.store.Progress last.store) broker := by
  apply Task.Keeps.bind
  apply synchronize_keeps
  intro identity synchronized sound progress _
  apply Task.Keeps.gets
  apply Task.Keeps.gets
  apply Task.Keeps.bind
  let invariant : List String → Broker → Prop := fun _ current =>
    current.Sound ∧ broker.store.Progress current.store
  have begins : invariant synchronized.pendingLeases.keys synchronized := ⟨sound, progress⟩
  refine (Task.Keeps.forEach ?_ begins).mono ?_
  · intro id rest current holds
    exact sweepLease_keeps holds.1 holds.2
  intro _ swept holds
  have again : invariant swept.running.keys swept := holds
  refine Task.Keeps.forEach ?_ again
  intro id rest current holds
  exact sweepEntry_keeps holds.1 holds.2

theorem finish_keeps {exitCode : Option Int} {error : Option String} (sound : broker.Sound)
    :
    (finish id exitCode error).Keeps (discipline operation)
      (fun _ last => last.Sound ∧ broker.store.Progress last.store) broker := by
  apply Task.Keeps.gets
  split
  · exact ⟨sound, .refl _⟩
  rename_i entry held
  obtain ⟨same, _, command, isStored, running⟩ := sound.running id entry held
  subst same
  have live : active command = true := active_of_running running
  have permitted : Permitted operation broker (broker.kill entry.command.id) :=
    .of_same rfl rfl rfl
  apply Task.Keeps.modify permitted (sound.kill entry.command.id)
  have found : (broker.kill entry.command.id).store.stored
      (entry.ended exitCode error).id = some command := isStored
  apply saveCommand_keeps found live
  · intro pending
    simp only [Entry.ended] at pending
    split at pending
    · cases pending
    · cases pending
  · exact .inr (broker.kill_idle entry.command.id)
  · intro last meanwhile lastSound
    exact ⟨lastSound, (replaced_of_save meanwhile).progress isStored live⟩

theorem stored_of_fresh {store : Store} {stored : DeviceCommand}
    (fresh : store.stored command.id = none) (found : store.stored id = some stored) :
    (store.save command).stored id = some stored := by
  rw [stored_save, if_neg]
  · exact found
  · intro equal
    rw [equal, found] at fresh
    cases fresh

theorem Broker.Sound.reserve (sound : broker.Sound)
    (fresh : broker.store.stored command.id = none) :
    (broker.withStore (broker.store.save command)).Sound where
  running := by
    intro id entry held
    obtain ⟨same, spawned, stored, isStored, running⟩ := sound.running id entry held
    exact ⟨same, spawned, stored, stored_of_fresh fresh isStored, running⟩
  spawned := by
    intro id member
    obtain ⟨stored, isStored, past⟩ := sound.spawned id member
    exact ⟨stored, stored_of_fresh fresh isStored, past⟩
  once := sound.once
  barred := by
    intro id member
    obtain ⟨stored, isStored, past⟩ := sound.barred id member
    exact ⟨stored, stored_of_fresh fresh isStored, past⟩
  few := sound.few

theorem progress_of_reserve {store : Store} (fresh : store.stored command.id = none) :
    store.Progress (store.save command) where
  kept := by
    exact fun id stored found => ⟨stored, stored_of_fresh fresh found, fun _ => rfl⟩
  linked := fun changed => absurd rfl changed

theorem reserveCommand_keeps {post : Bool → Broker → Prop} (taken : ∀ last, post false last)
    (known : ∀ last, broker.store.stored command.id = none →
      (broker.withStore (broker.store.save command)).Meanwhile last → last.Sound → post true last) :
    (reserveCommand command).Keeps (discipline operation) post broker := by
  apply Task.Keeps.request (Permitted.refl operation)
  intro later meanwhile sound
  have stored : later.store.commands = broker.store.commands := by rw [meanwhile.store]
  cases has : broker.store.commands.rows.has command.id with
  | true =>
    have same : later.store.commands.reserveCommand command = later.store.commands := by
      rw [CommandTable.reserveCommand, stored, if_pos has]
    simp only [same]
    refine ⟨Permitted.refl operation later, sound, ?_⟩
    intro _ last _ _
    rw [stored, has]
    exact taken last
  | false =>
    have saved : later.store.commands.reserveCommand command =
        later.store.commands.saveCommand command := by
      rw [CommandTable.reserveCommand, stored, if_neg]
      rw [has]
      exact Bool.false_ne_true
    have fresh : broker.store.stored command.id = none :=
      has_eq_false.mp has
    have freshLater : later.store.stored command.id = none := by
      rw [meanwhile.store]
      exact fresh
    have progress := progress_of_reserve freshLater
    simp only [saved]
    refine ⟨⟨progress, .inl rfl, rfl⟩, sound.reserve freshLater, ?_⟩
    intro _ last further lastSound
    rw [stored, has]
    apply known last fresh _ lastSound
    have moved := meanwhile.withStore (broker.store.save command)
    rw [← meanwhile.store] at moved ⊢
    exact moved.trans further

theorem Broker.Sound.hold (sound : broker.Sound) (id : String)
    (room : broker.held < maxActive ∨ (broker.pendingLeases.get? id).isSome) :
    (broker.hold id).Sound where
  running := sound.running
  spawned := sound.spawned
  once := sound.once
  barred := sound.barred
  few := by
    have few := sound.few
    obtain free | isHeld := room
    · have size := size_set_le broker.pendingLeases id (broker.now + leaseMs)
      simp only [Broker.held, Broker.hold] at *
      omega
    obtain ⟨lease, held⟩ := Option.isSome_iff_exists.mp isHeld
    have size : (broker.pendingLeases.set id (broker.now + leaseMs)).size = _ :=
      size_set_of_mem held
    simp only [Broker.held, Broker.hold, size] at *
    exact few

variable {input : DeviceCommandInput} {identity : DeviceIdentity}

theorem request_keeps {principal : DevicePrincipal} :
    (request input principal identity).Keeps (discipline operation)
      (fun _ last => broker.store.Progress last.store) broker := by
  apply Task.Keeps.gets
  split
  · trivial
  rename_i room
  apply Task.Keeps.gets
  apply Task.Keeps.bind
  apply reserveCommand_keeps
  · intro last
    trivial
  intro last fresh meanwhile sound
  have free : last.held < maxActive :=
    Nat.lt_of_le_of_lt meanwhile.held (Nat.lt_of_not_le room)
  have permitted : Permitted operation last (last.hold input.id) := .of_same rfl rfl rfl
  apply Task.Keeps.modify permitted (sound.hold input.id (.inl free))
  have reserved : broker.store.Progress last.store := by
    rw [meanwhile.store]
    exact progress_of_reserve fresh
  have isStored : last.store.stored input.id =
      some (requestedCommand input principal identity broker.now) := by
    rw [meanwhile.store]
    exact (stored_save _ _ _).trans (if_pos rfl)
  apply Task.Keeps.bind
  apply allows_keeps
  intro allowed granted further grantedSound authorised
  have storedNow : granted.store.stored input.id =
      some (requestedCommand input principal identity broker.now) := by
    rw [further.store]
    exact isStored
  have progress : broker.store.Progress granted.store := by
    rw [further.store]
    exact reserved
  split
  · rename_i isAllowed
    apply Task.Keeps.bind
    apply start_keeps grantedSound storedNow rfl (authorised isAllowed)
    intro started _ replaced
    exact progress.trans (replaced.progress storedNow rfl)
  · exact progress

theorem execute_keeps {stored : Option DeviceCommand} :
    (execute input principal identity stored).Keeps (discipline operation)
      (fun _ last => broker.store.Progress last.store) broker := by
  unfold execute
  split
  · split
    · trivial
    · split
      · trivial
      · exact Progress.refl _
  · split
    · trivial
    · split
      · exact request_keeps
      · trivial
  · trivial

theorem Broker.renew_memory (command : DeviceCommand) :
    (broker.renew command).store = broker.store ∧
      (broker.renew command).spawned = broker.spawned ∧
        (broker.renew command).barred = broker.barred := by
  unfold Broker.renew
  split
  · split
    · exact ⟨rfl, rfl, rfl⟩
    · exact ⟨rfl, rfl, rfl⟩
  · split
    · exact ⟨rfl, rfl, rfl⟩
    · exact ⟨rfl, rfl, rfl⟩

theorem Broker.Sound.extend {id : String} {entry changed : Entry} (sound : broker.Sound)
    (held : broker.running.get? id = some entry) (same : changed.command.id = entry.command.id) :
    ({ broker with running := broker.running.set id changed } : Broker).Sound := by
  refine sound.shrink rfl rfl ?_ ?_ (fun _ => .inl) (fun unavailable => unavailable)
  · intro other found isFound
    obtain ⟨equal, rfl⟩ | isFound := get?_set_cases isFound
    · subst equal
      exact ⟨entry, held, same⟩
    · exact ⟨found, isFound, rfl⟩
  · have size : (broker.running.set id changed).size = _ := size_set_of_mem held
    simp only [Broker.held, size, Nat.le_refl]

variable {decision : DeviceCommandDecision}

section

variable (sound : broker.Sound)
include sound

variable {enabled : Bool}

section

variable (found : broker.store.stored command.id = some command)
include found

theorem holds_lease (pending : command.state = .pending)
    (current : ¬lapsed broker enabled principal command = true) :
    broker.running.get? command.id = none ∧ (broker.pendingLeases.get? command.id).isSome := by
  have idle : broker.running.get? command.id = none := by
    cases held : broker.running.get? command.id with
    | none => rfl
    | some entry =>
      obtain ⟨_, _, stored, isStored, running⟩ := sound.running command.id entry held
      rw [found] at isStored
      cases isStored
      rw [pending] at running
      cases running
  refine ⟨idle, ?_⟩
  cases held : broker.pendingLeases.get? command.id with
  | some lease => rfl
  | none =>
    refine absurd ?_ current
    simp [lapsed, active, pending, Broker.lease, idle, held]

theorem Broker.Sound.renew (current : ¬lapsed broker enabled principal command = true) :
    (broker.renew command).Sound := by
  unfold Broker.renew
  dsimp only
  split
  · rename_i pending
    obtain ⟨idle, held⟩ := holds_lease sound found pending current
    rw [idle]
    exact sound.hold command.id (.inr held)
  · split
    · rename_i entry held
      exact sound.extend held rfl
    · exact sound

theorem poll_keeps {withOutput : Bool} :
    (poll withOutput enabled principal command).Keeps (discipline operation)
      (fun _ last => broker.store.Progress last.store) broker := by
  apply Task.Keeps.gets
  split
  · rename_i expired
    have live : active command = true := ((Bool.and_eq_true _ _).mp expired).1
    refine stop_keeps sound found live nofun ?_
    intro _ last _ replaced
    exact replaced.progress found live
  rename_i current
  have memory := broker.renew_memory command
  have renewed := sound.renew found current
  refine Task.Keeps.modify ?_ ?_ ?_
  · split
    · exact Permitted.of_same memory.1 memory.2.1 memory.2.2
    · exact Permitted.refl operation broker
  · split
    · exact renewed
    · exact sound
  have progress : broker.store.Progress
      (if isRuntime principal then broker.renew command else broker).store := by
    split
    · rw [memory.1]
      exact .refl _
    · exact .refl _
  exact progress

theorem cancel_keeps :
    (cancel command).Keeps (discipline operation)
      (fun _ last => broker.store.Progress last.store ∧ last.store.Settled command.id)
      broker := by
  unfold cancel
  split
  · rename_i live
    refine stop_keeps sound found live nofun ?_
    intro _ last _ replaced
    exact ⟨replaced.progress found live, settled_of_replaced replaced nofun nofun⟩
  · rename_i inactive
    rw [Bool.not_eq_true] at inactive
    exact ⟨.refl _, command, found, inactive⟩

end

theorem remember_keeps {post : Unit → Broker → Prop}
    (known : ∀ last, last.Sound → last.store.stored = broker.store.stored →
      last.store.config = broker.store.config → post () last) :
    (remember command decision).Keeps (discipline operation) post broker := by
  unfold remember
  split
  · apply Task.Keeps.gets
    apply tellOther_keeps rfl (.inl rfl)
    intro last saved lastSound
    apply known last lastSound
    · rw [saved]
      rfl
    · rw [saved]
  · exact known broker sound rfl rfl

end

theorem startAllowed_keeps (progress : before.Progress broker.store) :
    (startAllowed id).Keeps (discipline operation)
      (fun _ last => before.Progress last.store) broker := by
  apply Task.Keeps.bind
  apply ask_keeps
  intro _ listed meanwhile sound
  let invariant : List DeviceCommand → Broker → Prop := fun rest current =>
    current.Sound ∧ before.Progress current.store ∧ Awaiting rest current.store
  have begins : invariant broker.store.commands.commands listed := by
    refine ⟨sound, ?_, ?_⟩
    · rw [meanwhile.store]
      exact progress
    · rw [meanwhile.store]
      exact awaiting_commands _
  refine (Task.Keeps.forEach ?_ begins).mono fun _ last finished => finished.2.1
  intro other rest current holds
  obtain ⟨currentSound, reached, awaiting⟩ := holds
  apply Task.Keeps.gets
  split
  · rename_i waits
    obtain ⟨_, pending, _⟩ := of_decide_eq_true waits
    have live : active other = true := by
      rw [active, pending]
      rfl
    apply Task.Keeps.bind
    apply allows_keeps
    intro allowed granted further grantedSound authorised
    have sameStore : granted.store = current.store := further.store
    have found : granted.store.stored other.id = some other := by
      rw [sameStore]
      exact awaiting.head live
    split
    · rename_i isAllowed
      apply start_keeps grantedSound found pending (authorised isAllowed)
      intro last lastSound replaced
      rw [sameStore] at replaced found
      exact ⟨lastSound, reached.trans (replaced.progress found live),
        awaiting.replaced live replaced⟩
    · refine ⟨grantedSound, ?_, ?_⟩
      · rw [sameStore]
        exact reached
      · rw [sameStore]
        exact awaiting.tail
  · exact ⟨currentSound, reached, awaiting.tail⟩

theorem decideCommand_keeps (sound : broker.Sound)
    (asked : operation = .handle (.decide command.id decision) principal)
    (found : broker.store.stored command.id = some command) :
    (decideCommand decision principal command).Keeps (discipline operation)
      (fun _ last => broker.store.Progress last.store ∧
        (decision = .Deny → last.store.Settled command.id)) broker := by
  unfold decideCommand
  split
  · trivial
  rename_i user
  split
  · trivial
  rename_i pending
  rw [not_not] at pending
  have live : active command = true := by
    rw [active, pending]
    rfl
  have stops : ∀ {state : CommandState}, state ≠ .pending → state ≠ .running →
      (stop command state).Keeps (discipline operation)
        (fun _ last => broker.store.Progress last.store ∧
          (decision = .Deny → last.store.Settled command.id)) broker := by
    intro state past ended
    apply stop_keeps sound found live past
    intro _ last _ replaced
    exact ⟨replaced.progress found live, fun _ => settled_of_replaced replaced past ended⟩
  apply Task.Keeps.gets
  split
  · exact stops (by decide) (by decide)
  split
  · exact stops (by decide) (by decide)
  rename_i allowed
  apply Task.Keeps.bind
  apply remember_keeps sound
  intro remembered rememberedSound stored config
  have foundNow : remembered.store.stored command.id = some command := by
    rw [stored]
    exact found
  have authorised : Authorised operation remembered.store command :=
    .inr ⟨decision, principal, asked, allowed, (Bool.not_eq_true _).mp user⟩
  apply Task.Keeps.bind
  apply start_keeps rememberedSound foundNow pending authorised
  intro started startedSound replaced
  have progress : broker.store.Progress started.store :=
    (Progress.of_same stored config).trans (replaced.progress foundNow live)
  split
  · apply Task.Keeps.bind
    refine (startAllowed_keeps progress).mono ?_
    intro _ last reached
    exact ⟨reached, fun denied => absurd denied allowed⟩
  · exact ⟨progress, fun denied => absurd denied allowed⟩

theorem revoke_keeps :
    (revoke id principal).Keeps (discipline operation)
      (fun _ last => broker.store.Progress last.store ∧
        ∃ grant, grantOf broker.store.grants.values id
            (principal.map DevicePrincipal.accountId) = some grant ∧
          ∀ other ∈ broker.store.activeIds (deviceGrantMatches grant),
            last.store.Settled other) broker := by
  unfold revoke
  split
  · trivial
  apply Task.Keeps.bind
  apply Task.Keeps.bind
  apply ask_keeps
  intro _ read meanwhile _
  split
  · trivial
  rename_i grant isGrant
  apply Task.Keeps.bind
  apply tellOther_keeps rfl (.inl rfl)
  intro deleted deletes _
  apply Task.Keeps.bind
  refine stopActive_keeps nofun nofun ?_
  intro stopped stopping
  refine statusUnlocked_keeps fun _ last _ progress => ?_
  have stored : deleted.store.stored = broker.store.stored := by
    rw [deletes, meanwhile.store]
    rfl
  have config : deleted.store.config = broker.store.config := by
    rw [deletes, meanwhile.store]
  have whole : broker.store.Progress last.store :=
    ((Progress.of_same stored config).trans stopping.progress).trans progress
  refine ⟨whole, grant, isGrant, ?_⟩
  intro other listed
  obtain ⟨command, found, live, isMatch⟩ := mem_activeIds.mp listed
  rw [← stored] at found
  obtain member | settled := stopping.stopped other command found live isMatch
  · cases member
  · exact progress.settled settled

end Operations

def Fulfils (operation : Operation) (begun : Broker) (_ : DeviceBridgeResult)
    (last : Broker) : Prop :=
  begun.store.Progress last.store ∧ ∀ id ∈ operation.revoked begun.store, last.store.Settled id

section Whole

variable {broker : Broker}
variable {principal : Option DevicePrincipal} {operation : Operation} {id : String}

theorem readCommand_keeps {post : Option DeviceCommand → Broker → Prop}
    (known : ∀ last, last.store = broker.store → last.Sound → post (broker.store.stored id) last) :
    (readCommand id principal).Keeps (discipline operation) post broker := by
  unfold readCommand
  split
  · apply Task.Keeps.bind
    apply ask_keeps
    intro _ last meanwhile sound
    split
    · trivial
    · exact known last meanwhile.store sound
  · trivial

theorem withCommand_keeps {next : DeviceCommand → Run DeviceCommand}
    {post : DeviceBridgeResult → Broker → Prop}
    (known : ∀ command last, last.store = broker.store → last.Sound →
      last.store.stored command.id = some command → command.id = id →
        (next command).Keeps (discipline operation) (fun result => post (.command result)) last) :
    (withCommand id principal next).Keeps (discipline operation) post broker := by
  apply Task.Keeps.bind
  apply readCommand_keeps
  intro last same sound
  split
  · rename_i command found
    have isId := stored_id found
    apply Task.Keeps.bind
    apply known command last same sound
    · rw [same, isId]
      exact found
    · exact isId
  · trivial

theorem handle_keeps (action : DeviceBridgeAction) (principal : Option DevicePrincipal) :
    (handle action principal).Keeps (discipline (.handle action principal))
      (Fulfils (.handle action principal) broker) broker := by
  apply Task.Keeps.gets
  split
  · trivial
  apply Task.Keeps.bind
  apply synchronize_keeps
  intro identity synced sound progress stored
  split
  · trivial
  apply Task.Keeps.gets
  have none : ∀ {last : Broker}, synced.store.Progress last.store →
      broker.store.Progress last.store ∧ ∀ id ∈ ([] : List String), last.store.Settled id :=
    fun further => ⟨progress.trans further, by intro _ member; cases member⟩
  have one : ∀ {last : Broker} {id : String}, synced.store.Progress last.store →
      last.store.Settled id → broker.store.Progress last.store ∧
        ∀ other ∈ broker.store.activeIds (fun command => command.id = id),
          last.store.Settled other := by
    intro last id further settled
    refine ⟨progress.trans further, ?_⟩
    intro other listed
    obtain ⟨command, found, _, isId⟩ := mem_activeIds.mp listed
    rw [decide_eq_true_iff, stored_id found] at isId
    rw [isId]
    exact settled
  cases action with
  | status =>
    apply Task.Keeps.map
    refine statusUnlocked_keeps fun _ _ _ further => ?_
    exact none further
  | execute input =>
    dsimp only
    split
    · apply Task.Keeps.bind
      apply readCommand_keeps
      intro read same _
      apply Task.Keeps.map
      refine execute_keeps.mono fun _ _ further => ?_
      rw [same] at further
      exact none further
    · trivial
  | poll id | lease id =>
    apply withCommand_keeps
    intro command read same readSound found _
    refine (poll_keeps readSound found).mono fun _ _ further => ?_
    rw [same] at further
    exact none further
  | cancel id =>
    apply withCommand_keeps
    intro command read same readSound found isId
    refine (cancel_keeps readSound found).mono fun _ _ settled => ?_
    rw [same, isId] at settled
    exact one settled.1 settled.2
  | decide id decision =>
    dsimp only
    split
    · apply withCommand_keeps
      intro command read same readSound found isId
      subst isId
      refine (decideCommand_keeps readSound rfl found).mono fun _ _ settled => ?_
      rw [same] at settled
      cases decision with
      | Deny => exact one settled.1 (settled.2 rfl)
      | AllowOnce | AllowForSession | AlwaysAllow => exact none settled.1
    · trivial
  | revoke id =>
    apply Task.Keeps.map
    refine revoke_keeps.mono fun _ last settled => ?_
    obtain ⟨further, grant, isGrant, all⟩ := settled
    refine ⟨progress.trans further, ?_⟩
    obtain same | empty := stored
    · rw [same] at isGrant all
      simp only [Operation.revoked, isGrant]
      exact all
    · rw [empty] at isGrant
      cases isGrant

theorem program_keeps (operation : Operation) (accepted : server.accepts operation = true)
    (sound : broker.Sound) :
    operation.program.Keeps (discipline operation) (Fulfils operation broker) broker := by
  cases operation with
  | initializeBroker => cases accepted
  | handle action principal => exact handle_keeps action principal
  | status =>
    apply Task.Keeps.map
    refine statusUnlocked_keeps fun _ _ _ progress => ⟨progress, ?_⟩
    intro _ member
    cases member
  | invalidate =>
    apply Task.Keeps.bind
    apply invalidate_keeps
    intro last _ progress settled
    refine ⟨progress, ?_⟩
    intro id listed
    obtain ⟨command, found, _⟩ := mem_activeIds.mp listed
    exact settled id command found
  | sweep =>
    apply Task.Keeps.bind
    refine sweep_keeps.mono fun _ _ swept => ⟨swept.2, ?_⟩
    intro _ member
    cases member
  | finish id exitCode error =>
    apply Task.Keeps.bind
    refine (finish_keeps sound).mono fun _ _ finished => ⟨finished.2, ?_⟩
    intro _ member
    cases member

end Whole

end Zuse.Device
