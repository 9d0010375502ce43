import Zuse.Device.BrokerDiscipline

namespace Zuse.Device

open Zuse.Data Broker InsertionMap List Store

/-! What each program of the broker does to the stored commands, and that it keeps the
discipline of whichever operation runs it. -/

def Store.save (store : Store) (command : DeviceCommand) : Store :=
  { store with commands := store.commands.saveCommand command }

@[simp] theorem Store.stored_save (store : Store) (command : DeviceCommand) (id : String) :
    (store.save command).stored id =
      if command.id = id then some command else store.stored id :=
  get?_set store.commands.rows command.id id command

variable {id : String}

theorem Store.stored_id {store : Store} {command : DeviceCommand}
    (found : store.stored id = some command) : command.id = id :=
  store.commands.keyed id command found

structure Store.Replaced (before after : Store) (id : String) (state : CommandState) :
    Prop where
  config : after.config = before.config
  grants : after.grants = before.grants
  others : ∀ other, id ≠ other → after.stored other = before.stored other
  self : ∃ command, after.stored id = some command ∧ command.state = state

variable {state : CommandState} {old : DeviceCommand}

theorem Store.Replaced.progress {before after : Store} (replaced : before.Replaced after id state)
    (found : before.stored id = some old) (live : active old = true) :
    before.Progress after where
  kept := by
    intro other command isOther
    by_cases same : id = other
    · subst same
      obtain ⟨next, isNext, _⟩ := replaced.self
      refine ⟨next, isNext, ?_⟩
      intro inactive
      rw [found] at isOther
      cases isOther
      rw [live] at inactive
      cases inactive
    · refine ⟨command, ?_, fun _ => rfl⟩
      rw [replaced.others other same]
      exact isOther
  linked := fun changed => absurd replaced.config changed

section Commands

variable {operation : Operation} {broker : Broker} {command : DeviceCommand}

theorem Broker.Sound.save (sound : broker.Sound) (past : command.state ≠ .pending)
    (idle : command.state = .running ∨ broker.running.get? command.id = none) :
    (broker.withStore (broker.store.save command)).Sound where
  running := by
    intro id entry held
    obtain ⟨same, spawned, stored, isStored, running⟩ := sound.running id entry held
    refine ⟨same, spawned, ?_⟩
    simp only [withStore, stored_save]
    split
    · rename_i equal
      subst equal
      obtain isRunning | none := idle
      · exact ⟨command, rfl, isRunning⟩
      · rw [withStore] at held
        rw [none] at held
        cases held
    · exact ⟨stored, isStored, running⟩
  spawned := by
    intro id member
    simp only [withStore, stored_save]
    split
    · exact ⟨command, rfl, past⟩
    · exact sound.spawned id member
  once := sound.once
  barred := by
    intro id member
    simp only [withStore, stored_save]
    split
    · exact ⟨command, rfl, .inl past⟩
    · exact sound.barred id member
  few := sound.few

variable {last : Broker}

theorem replaced_of_save
    (meanwhile : (broker.withStore (broker.store.save command)).Meanwhile last) :
    broker.store.Replaced last.store command.id command.state where
  config := by rw [meanwhile.store]; rfl
  grants := by rw [meanwhile.store]; rfl
  others := by
    intro other different
    rw [meanwhile.store]
    show (broker.store.save command).stored other = _
    rw [stored_save, if_neg different]
  self := by
    refine ⟨command, ?_, rfl⟩
    rw [meanwhile.store]
    show (broker.store.save command).stored command.id = _
    rw [stored_save, if_pos rfl]

variable {post : Unit → Broker → Prop}

theorem saveCommand_keeps
    (found : broker.store.stored command.id = some old) (live : active old = true)
    (past : command.state ≠ .pending)
    (idle : command.state = .running ∨ broker.running.get? command.id = none)
    (known : ∀ last, (broker.withStore (broker.store.save command)).Meanwhile last →
      last.Sound → post () last) :
    (saveCommand command).Keeps (discipline operation) post broker := by
  apply tell_keeps _ known
  intro later meanwhile sound
  have idleLater := idle.imp_right (meanwhile.running command.id)
  have saved := sound.save past idleLater
  rw [meanwhile.store] at saved
  refine ⟨⟨?_, .inl rfl, rfl⟩, saved⟩
  rw [meanwhile.store]
  exact (replaced_of_save (.refl _)).progress found live

theorem Broker.Sound.latest_id (sound : broker.Sound) (command : DeviceCommand) :
    (broker.latest command).id = command.id := by
  rw [latest]
  cases held : broker.running.get? command.id with
  | none => rfl
  | some entry => exact (sound.running command.id entry held).1

theorem stop_keeps {post : DeviceCommand → Broker → Prop} (sound : broker.Sound)
    (found : broker.store.stored command.id = some old) (live : active old = true)
    (past : state ≠ .pending) (known : ∀ result last, last.Sound →
      broker.store.Replaced last.store command.id state → post result last) :
    (stop command state).Keeps (discipline operation) post broker := by
  have permitted : Permitted operation broker (broker.kill command.id) :=
    .of_same rfl rfl rfl
  apply Task.Keeps.modify permitted (sound.kill command.id)
  apply Task.Keeps.bind
  have sameId : ({ broker.latest command with state } : DeviceCommand).id = command.id :=
    sound.latest_id command
  refine saveCommand_keeps ?_ live past ?_ ?_
  · rw [sameId]
    exact found
  · rw [sameId]
    exact .inr (broker.kill_idle command.id)
  intro last meanwhile finalSound
  apply known _ last finalSound
  have replaced := replaced_of_save meanwhile
  rw [sameId] at replaced
  exact replaced

def Broker.dropLease (broker : Broker) (id : String) : Broker :=
  { broker with pendingLeases := broker.pendingLeases.delete id }

theorem Broker.Sound.dropLease (sound : broker.Sound) (id : String) :
    (broker.dropLease id).Sound := by
  refine sound.shrink rfl rfl (fun _ entry found => ⟨entry, found, rfl⟩) ?_
    (fun _ => .inl) (fun same => same)
  exact Nat.add_le_add_left (size_delete_le _ id) _

theorem Broker.Sound.spawn (lease : Nat) (sound : broker.Sound)
    (stored : broker.store.stored command.id = some command)
    (running : command.state = .running) (first : command.id ∉ broker.spawned)
    (room : broker.held < maxActive) : (broker.spawnSupervisedCommand command lease).Sound where
  running := by
    intro id entry held
    simp only [spawnSupervisedCommand] at held
    obtain ⟨same, rfl⟩ | held := get?_set_cases held
    · subst same
      exact ⟨rfl, mem_append_right _ (mem_singleton_self _), command, stored, running⟩
    · obtain ⟨same, spawned, known⟩ := sound.running id entry held
      exact ⟨same, mem_append_left _ spawned, known⟩
  spawned := by
    intro id member
    cases mem_append.mp member with
    | inl earlier => exact sound.spawned id earlier
    | inr new =>
      rw [mem_singleton] at new
      subst new
      refine ⟨command, stored, ?_⟩
      rw [running]
      intro pending
      cases pending
  once := by
    apply Nodup.append sound.once (nodup_singleton _)
    exact disjoint_singleton.mpr first
  barred := sound.barred
  few := by
    have absent : broker.running.get? command.id = none := by
      cases held : broker.running.get? command.id with
      | none => rfl
      | some entry => exact absurd (sound.running _ _ held).2.1 first
    have size : (broker.running.set command.id ⟨command, lease, 0⟩).size = _ :=
      size_set_of_absent absent
    simp only [held, spawnSupervisedCommand, size] at room ⊢
    omega

theorem Broker.room {lease : Nat} (sound : broker.Sound)
    (held : broker.pendingLeases.get? id = some lease) (meanwhile : broker.Meanwhile last)
    (available : ¬last.unavailable = true) : (last.dropLease id).held < maxActive := by
  have few := sound.few
  have delete := size_delete_le last.pendingLeases id
  obtain still | unavailable | fewer := meanwhile.leases id lease held
  · have smaller := size_delete_lt still
    have shrunk := meanwhile.held
    simp only [Broker.held, Broker.dropLease] at *
    omega
  · exact absurd unavailable available
  · simp only [Broker.held, Broker.dropLease] at *
    omega

theorem Authorised.congr {before after : Store} {other : DeviceCommand}
    (authorised : Authorised operation before command)
    (grants : after.grants = before.grants) (same : other.id = command.id)
    (matches_ : ∀ grant, deviceGrantMatches grant other = deviceGrantMatches grant command) :
    Authorised operation after other := by
  obtain ⟨grant, member, isMatch⟩ | user := authorised
  · refine .inl ⟨grant, ?_, (matches_ grant).trans isMatch⟩
    rw [grants]
    exact member
  · refine .inr ?_
    rw [same]
    exact user

/-- A pending command is started where it is authorised: until its process is spawned
nobody may have barred it without making the broker unavailable. -/
theorem start_keeps (sound : broker.Sound) (found : broker.store.stored command.id = some command)
    (pending : command.state = .pending)
    (authorised : Authorised operation broker.store command) (known : ∀ last, last.Sound →
      broker.store.Replaced last.store command.id .running → post () last) :
    (start command).Keeps (discipline operation) post broker := by
  apply Task.Keeps.gets
  split
  · trivial
  rename_i available
  apply Task.Keeps.gets
  apply Task.Keeps.gets
  split
  · trivial
  rename_i lease held
  split
  · trivial
  have live : active command = true := by
    rw [active, pending]
    rfl
  let started : DeviceCommand := { command with state := .running }
  have past : started.state ≠ .pending := by
    intro same
    cases same
  have saved : (broker.withStore (broker.store.save started)).Sound :=
    sound.save past (.inl rfl)
  have save : ∀ {post : Unit → Broker → Prop},
      (∀ last, (broker.withStore (broker.store.save started)).Meanwhile last →
        last.Sound → post () last) →
      (saveCommand started).Keeps (discipline operation) post broker :=
    saveCommand_keeps found live past (.inl rfl)
  apply Task.Keeps.bind
  apply save
  intro last meanwhile finalSound
  apply Task.Keeps.gets
  split
  · trivial
  rename_i stillAvailable
  have replaced := replaced_of_save meanwhile
  have first : command.id ∉ last.spawned := by
    rw [meanwhile.spawned]
    intro member
    obtain ⟨stored, isStored, past⟩ := sound.spawned command.id member
    rw [found] at isStored
    cases isStored
    exact past pending
  have unbarred : command.id ∉ last.barred := by
    intro member
    obtain earlier | unavailable := meanwhile.bars command.id member
    · obtain ⟨stored, isStored, past⟩ := sound.barred command.id earlier
      rw [found] at isStored
      cases isStored
      obtain past | unavailable := past
      · exact past pending
      · exact available unavailable
    · exact stillAvailable unavailable
  have stored : last.store.stored command.id = some started := by
    rw [meanwhile.store]
    exact (stored_save _ _ _).trans (if_pos rfl)
  have room := room saved held meanwhile stillAvailable
  have permitted : Permitted operation last (last.dropLease command.id) :=
    .of_same rfl rfl rfl
  apply Task.Keeps.modify permitted (finalSound.dropLease command.id)
  have spawned : ((last.dropLease started.id).spawnSupervisedCommand started lease).Sound :=
    (finalSound.dropLease started.id).spawn lease stored rfl first room
  refine ⟨⟨.refl _, .inr ⟨started, ?_⟩, rfl⟩, spawned, known _ spawned replaced⟩
  exact {
    store := rfl
    spawned := rfl
    first := first
    unbarred := unbarred
    stored := stored
    running := rfl
    authorised := authorised.congr replaced.grants rfl fun _ => rfl }

end Commands

end Zuse.Device
