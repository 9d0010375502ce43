import Zuse.Device.BrokerHandling

namespace Zuse.Device

open Zuse.Data List Option

theorem opened_sound (store : Store) (now : Nat) : (Broker.opened store now).Sound where
  running := by
    intro id entry held
    cases held
  spawned := by
    intro id member
    cases member
  once := nodup_nil
  barred := by
    intro id member
    cases member
  few := Nat.zero_le _

theorem Broker.Sound.bar {broker : Broker} (sound : broker.Sound) {ids : List String}
    (past : ∀ id ∈ ids, ∃ command, broker.store.stored id = some command ∧
      (command.state ≠ .pending ∨ broker.unavailable = true)) :
    (broker.bar ids).Sound where
  running := sound.running
  spawned := sound.spawned
  once := sound.once
  barred := by
    intro id member
    cases mem_append.mp member with
    | inl earlier => exact sound.barred id earlier
    | inr new => exact past id new
  few := sound.few

theorem Broker.Meanwhile.bar {before after : Broker} (meanwhile : before.Meanwhile after)
    (unavailable : after.unavailable = true) (ids : List String) :
    before.Meanwhile (after.bar ids) where
  store := meanwhile.store
  spawned := meanwhile.spawned
  running := meanwhile.running
  leases := fun id lease held =>
    (meanwhile.leases id lease held).imp_right fun _ => .inl unavailable
  held := meanwhile.held
  unavailable := fun _ => unavailable
  barred := List.Subset.trans meanwhile.barred (subset_append_left _ _)
  bars := fun _ _ => .inr unavailable

theorem arrive_keeps (operation : Operation) (broker : Broker) (sound : broker.Sound) :
    broker.Meanwhile (operation.arrive broker) ∧ (operation.arrive broker).Sound := by
  cases operation with
  | invalidate =>
    refine ⟨broker.killAll_meanwhile.bar broker.killAll_unavailable _, ?_⟩
    apply sound.killAll.bar
    intro id listed
    obtain ⟨command, found, _⟩ := mem_activeIds.mp listed
    rw [← broker.killAll_meanwhile.store] at found
    exact ⟨command, found, .inr broker.killAll_unavailable⟩
  | initializeBroker | handle action principal | status | sweep | finish id exitCode error =>
    exact ⟨.refl broker, sound⟩

theorem recover_keeps (operation : Operation) (broker : Broker) (sound : broker.Sound) :
    broker.Meanwhile (operation.recover broker) ∧ (operation.recover broker).Sound := by
  cases operation with
  | sweep => exact ⟨broker.killAll_meanwhile, sound.killAll⟩
  | finish id exitCode error => exact ⟨broker.kill_meanwhile id, sound.kill id⟩
  | initializeBroker | handle action principal | status | invalidate => exact ⟨.refl broker, sound⟩

theorem interrupt_keeps (which : Interruption) (broker next : Broker)
    (sound : broker.Sound) (happened : interrupt which broker = some next) :
    broker.Meanwhile next ∧ next.Sound := by
  cases which with
  | close =>
    cases happened
    have unavailable : ({ broker.killAll with closed := true } : Broker).unavailable =
        true := Bool.or_true _
    have killed := broker.killAll_meanwhile
    refine ⟨?_, ?_⟩
    · exact {
        store := killed.store
        spawned := killed.spawned
        running := killed.running
        leases := fun _ _ _ => .inr (.inl unavailable)
        held := killed.held
        unavailable := fun _ => unavailable
        barred := killed.barred
        bars := fun _ _ => .inr unavailable }
    · exact sound.killAll.shrink rfl rfl (fun _ entry held => ⟨entry, held, rfl⟩)
        (Nat.le_refl _) (fun _ => .inl) fun _ => unavailable
  | tick now =>
    cases happened
    refine ⟨?_, ?_⟩
    · exact {
        store := rfl
        spawned := rfl
        running := fun _ none => none
        leases := fun _ _ held => .inl held
        held := Nat.le_refl _
        unavailable := fun unavailable => unavailable
        barred := List.Subset.refl _
        bars := fun _ member => .inl member }
    · exact sound.shrink rfl rfl (fun _ entry held => ⟨entry, held, rfl⟩)
        (Nat.le_refl _) (fun _ => .inl) fun unavailable => unavailable
  | output id onStderr text bytes =>
    obtain ⟨entry, held, rfl⟩ := map_eq_some_iff.mp happened
    have size : (broker.running.set id (entry.receive onStderr text bytes)).size = _ :=
      InsertionMap.size_set_of_mem held
    refine ⟨?_, sound.extend held rfl⟩
    exact {
      store := rfl
      spawned := rfl
      running := by
        intro other none
        simp only [InsertionMap.get?_set]
        rw [if_neg]
        · exact none
        · intro same
          rw [same, none] at held
          cases held
      leases := fun _ _ held => .inl held
      held := by simp only [Broker.held, size, Nat.le_refl]
      unavailable := fun unavailable => unavailable
      barred := List.Subset.refl _
      bars := fun _ member => .inl member }

theorem server_disciplined :
    server.Disciplined discipline Broker.Sound Broker.Meanwhile Fulfils where
  sound_eq := fun _ => rfl
  rely_eq := fun _ => rfl
  refl := .refl
  trans := Broker.Meanwhile.trans
  arrive := arrive_keeps
  refuse := recover_keeps
  recover := recover_keeps
  interrupt := interrupt_keeps
  program := fun operation _ accepted sound => program_keeps operation accepted sound

abbrev BrokerWorld := SerialServer.World Broker Answer DeviceBridgeResult Operation

abbrev BrokerEvent := SerialServer.Event Answer Operation Interruption

variable {store : Store} {now : Nat} {world : BrokerWorld}

theorem proper_of_run (reachable : (system store now).Reachable world) :
    server.Proper discipline Broker.Sound Fulfils world := by
  refine SerialServer.proper_of_reachable server_disciplined (opened_sound store now) ?_ reachable
  apply Task.Keeps.bind
  apply initializeBroker_keeps
  · intro id
    rfl
  · intro last _ progress
    refine ⟨progress, ?_⟩
    intro _ member
    cases member

/-- What one step does to the authority of the broker: it spawns at most one process, that
of a command which is stored as running, was never spawned, is not barred and is authorised
at that moment; it removes no row, changes no settled command and stores another link only
once every command is settled. -/
structure Authoritative (world next : BrokerWorld) : Prop where
  spawns : next.state.spawned = world.state.spawned ∨
    ∃ current ∈ world.current, ∃ command, Spawns current.operation world.state next.state command
  absorbing : ∀ id command, world.state.store.stored id = some command →
    active command = false → next.state.store.stored id = some command
  progress : world.state.store.Progress next.state.store
  barred : world.state.barred ⊆ next.state.barred

variable {next : BrokerWorld}

theorem Authoritative.of_progress (spawns : next.state.spawned = world.state.spawned ∨
      ∃ current ∈ world.current, ∃ command, Spawns current.operation world.state next.state command)
    (progress : world.state.store.Progress next.state.store)
    (barred : world.state.barred ⊆ next.state.barred) : Authoritative world next where
  spawns := spawns
  absorbing := by
    intro id command found inactive
    obtain ⟨other, isOther, same⟩ := progress.kept id command found
    rwa [same inactive] at isOther
  progress := progress
  barred := barred

theorem authoritative_of_change
    (change : SerialServer.Change discipline Broker.Meanwhile world next) :
    Authoritative world next := by
  cases change with
  | same same =>
    apply Authoritative.of_progress
    · exact .inl (by rw [same])
    · rw [same]
      exact .refl _
    · rw [same]
      exact List.Subset.refl _
  | guaranteed current runs changed =>
    apply Authoritative.of_progress
    · exact changed.spawned.imp_right fun spawns => ⟨current, runs, spawns⟩
    · exact changed.progress
    · rw [changed.barred]
      exact List.Subset.refl _
  | relied changed =>
    apply Authoritative.of_progress
    · exact .inl changed.spawned
    · rw [changed.store]
      exact .refl _
    · exact changed.barred

variable {event : BrokerEvent}

theorem authoritative_of_run (reachable : (system store now).Reachable world)
    (stepped : server.step world event = some next) : Authoritative world next :=
  authoritative_of_change
    (SerialServer.step_proper server_disciplined (proper_of_run reachable) stepped).2

/-- An authority is taken away with this step: an invalidation is asked for while the
command is active; its row is settled, as cancel, deny, revoke, invalidate and a link change
do; another link is stored, which concerns every command there is; or an operation returns
that has cancelled it, denied it, revoked its grant or invalidated it. -/
inductive Revoked (world next : BrokerWorld) : BrokerEvent → String → Prop
  | invalidated (id : String) (live : id ∈ world.state.store.activeIds fun _ => true) :
      Revoked world next (.call .invalidate) id
  | stopped (event : BrokerEvent) (id : String)
      (live : id ∈ world.state.store.activeIds fun _ => true)
      (settled : next.state.store.Settled id) : Revoked world next event id
  | relinked (event : BrokerEvent) (id : String)
      (changed : next.state.store.config ≠ world.state.store.config)
      (stored : (world.state.store.stored id).isSome) : Revoked world next event id
  | returned (current : SerialServer.Current Broker Answer DeviceBridgeResult Operation)
      (value : DeviceBridgeResult) (answer : Answer) (id : String)
      (runs : world.current = some current) (returns : current.task = .pure value)
      (revoked : id ∈ current.operation.revoked current.begun.store) :
      Revoked world next (.proceed answer) id

/-- What keeps a command from ever being spawned again: it is barred, or settled. -/
def Broker.Gone (broker : Broker) (id : String) : Prop :=
  id ∈ broker.barred ∨ broker.store.Settled id

variable {id : String}

theorem Authoritative.gone (step : Authoritative world next)
    (gone : world.state.Gone id) : next.state.Gone id :=
  gone.imp (fun barred => step.barred barred) step.progress.settled

theorem Spawns.not_gone {operation : Operation} {before after : Broker} {command : DeviceCommand}
    (spawns : Spawns operation before after command) : ¬before.Gone command.id := by
  rintro (barred | ⟨other, isOther, inactive⟩)
  · exact spawns.unbarred barred
  · cases spawns.stored.symm.trans isOther
    rw [active_of_running spawns.running] at inactive
    cases inactive

/-- A step that stores something spawns nothing. -/
theorem Authoritative.same_spawned (step : Authoritative world next)
    (changed : next.state.store ≠ world.state.store) :
    next.state.spawned = world.state.spawned := by
  obtain same | ⟨_, _, _, spawns⟩ := step.spawns
  · exact same
  · exact absurd spawns.store changed

theorem gone_of_revoked (reachable : (system store now).Reachable world)
    (stepped : server.step world event = some next) (revoked : Revoked world next event id) :
    next.state.Gone id ∧ next.state.spawned = world.state.spawned := by
  have proper := proper_of_run reachable
  have step := authoritative_of_run reachable stepped
  cases revoked with
  | invalidated _ live =>
    have arrived := arrive_keeps .invalidate world.state proper.state
    have barred : id ∈ (Operation.invalidate.arrive world.state).barred :=
      mem_append_right _ live
    simp only [SerialServer.step] at stepped
    split at stepped
    · cases stepped
      split
      · exact ⟨.inl barred, arrived.1.spawned⟩
      · have refused := (recover_keeps .invalidate _ arrived.2).1
        exact ⟨.inl (refused.barred barred), refused.spawned.trans arrived.1.spawned⟩
    · cases stepped
  | stopped _ _ live settled =>
    refine ⟨.inr settled, step.same_spawned fun same => ?_⟩
    obtain ⟨command, found, isActive, _⟩ := mem_activeIds.mp live
    obtain ⟨other, isOther, inactive⟩ := settled
    rw [same, found] at isOther
    cases isOther
    rw [isActive] at inactive
    cases inactive
  | relinked _ _ changed stored =>
    obtain ⟨command, found⟩ := isSome_iff_exists.mp stored
    refine ⟨.inr (step.progress.linked changed id command found), step.same_spawned ?_⟩
    exact fun same => changed (congrArg Store.config same)
  | returned current value answer _ runs returns revoked =>
    have fulfilled := (proper.current current runs).2
    rw [returns] at fulfilled
    simp only [SerialServer.step, runs, map_some, SerialServer.proceed, returns,
      some.injEq] at stepped
    subst stepped
    exact ⟨.inr (fulfilled.2 id revoked), rfl⟩

theorem never_spawned {last : BrokerWorld} {events : List BrokerEvent}
    (reachable : (system store now).Reachable world) (gone : world.state.Gone id)
    (ran : (system store now).runFrom world events = some last)
    (spawned : id ∈ last.state.spawned) : id ∈ world.state.spawned := by
  induction events generalizing world with
  | nil =>
    cases ran
    exact spawned
  | cons event rest ih =>
    obtain ⟨next, stepped, remaining⟩ := bind_eq_some_iff.mp ran
    have step := authoritative_of_run reachable stepped
    have later := ih (reachable.step stepped) (step.gone gone) remaining
    obtain same | ⟨_, _, command, spawns⟩ := step.spawns
    · rw [same] at later
      exact later
    rw [spawns.spawned] at later
    cases mem_append.mp later with
    | inl earlier => exact earlier
    | inr new =>
      rw [mem_singleton] at new
      subst new
      exact absurd gone spawns.not_gone

/-- The authority of the broker in every run: each process is spawned once, with the
authority of its command at that moment; what is settled stays settled; never more than
four processes and leases are held; and a command whose authority was taken away is not
spawned afterwards. -/
theorem authority_of_reachable {store : Store} {now : Nat} {world next : BrokerWorld}
    {event : BrokerEvent} (reachable : (system store now).Reachable world)
    (stepped : server.step world event = some next) :
    world.state.spawned.Nodup ∧ world.state.held ≤ maxActive ∧ Authoritative world next ∧
      ∀ id, Revoked world next event id → ∀ events last,
        (system store now).runFrom next events = some last →
          id ∈ last.state.spawned → id ∈ world.state.spawned := by
  have sound := (proper_of_run reachable).state
  refine ⟨sound.once, sound.few, authoritative_of_run reachable stepped, ?_⟩
  intro id revoked events last ran spawned
  obtain ⟨gone, same⟩ := gone_of_revoked reachable stepped revoked
  rw [← same]
  exact never_spawned (reachable.step stepped) gone ran spawned

def emptyStore : Store where
  config := none
  commands := ⟨.empty, by intro _ _ found; cases found⟩
  grants := .empty

def linked (linkKey accountId : String) : Answer where
  fails := false
  applies := true
  identity := ⟨linkKey, "device", "laptop", "/home", true, none, some (some accountId), none⟩

def caller (actor : Actor) : Option DevicePrincipal :=
  some ⟨"account", "workspace", "chat", none, "session", 0, actor⟩

def carried (operation : Operation) (answer : Answer) (steps : Nat) : List BrokerEvent :=
  .call operation :: .start :: replicate steps (.proceed answer)

/-- A command runs and another one waits; while the user allows the latter, another account
has linked the computer, so that the operation stops it, stores the link and then fails. -/
def relinking : List BrokerEvent :=
  let answer := linked "link" "account"
  replicate 15 (.proceed answer) ++
    carried (.handle (.execute ⟨"first", "ls", "/home"⟩) (caller .runtime)) answer 18 ++
    carried (.handle (.decide "first" .AllowOnce) (caller .user)) answer 20 ++
    carried (.handle (.execute ⟨"second", "ls", "/home"⟩) (caller .runtime)) answer 18 ++
    carried (.handle (.decide "second" .AllowOnce) (caller .user)) (linked "other" "stranger") 18

theorem authority_of_relinked :
    ∃ world next, (system emptyStore 0).run relinking = some world ∧
      server.step world (.proceed (linked "other" "stranger")) = some next ∧
      world.state.spawned = ["first"] ∧ Authoritative world next ∧
      ∀ events last, (system emptyStore 0).runFrom next events = some last →
        "second" ∉ last.state.spawned := by
  have runs : ((system emptyStore 0).run relinking).any (fun world =>
      (server.step world (.proceed (linked "other" "stranger"))).any fun next =>
        world.state.spawned = ["first"] && world.state.store.config = some "link" &&
          next.state.store.config = some "other" &&
          (world.state.store.stored "second").isSome) = true := by
    decide +kernel
  obtain ⟨world, ran, rest⟩ := (any_eq_true _ _).mp runs
  obtain ⟨next, stepped, facts⟩ := (any_eq_true _ _).mp rest
  simp only [Bool.and_eq_true, decide_eq_true_eq] at facts
  obtain ⟨⟨⟨spawned, before⟩, after⟩, stored⟩ := facts
  obtain ⟨-, -, step, never⟩ :=
    authority_of_reachable (TransitionSystem.run_reachable ran) stepped
  have changed : next.state.store.config ≠ world.state.store.config := by
    rw [before, after]
    decide
  refine ⟨world, next, ran, stepped, spawned, step, fun events last continued late => ?_⟩
  have early := never "second" (.relinked _ _ changed stored) events last continued late
  rw [spawned] at early
  exact absurd early (by decide)

end Zuse.Device
