import Zuse.Device.BrokerOperations

namespace Zuse.Device

open Zuse.Data List CommandTable

/-- The active ones of the commands that a loop still has to visit are stored as listed. -/
structure Awaiting (rest : List DeviceCommand) (store : Store) : Prop where
  nodup : ((rest.filter active).map DeviceCommand.id).Nodup
  stored : ∀ command ∈ rest, active command = true → store.stored command.id = some command

variable {after : Store}

namespace Awaiting

variable {command : DeviceCommand} {rest : List DeviceCommand} {store : Store}

variable (awaiting : Awaiting (command :: rest) store)
include awaiting

theorem head (live : active command = true) : store.stored command.id = some command :=
  awaiting.stored command mem_cons_self live

theorem tail : Awaiting rest store where
  nodup := awaiting.nodup.sublist
    (((sublist_cons_self command rest).filter active).map DeviceCommand.id)
  stored := fun other member => awaiting.stored other (mem_cons_of_mem command member)

theorem replaced {state : CommandState} (live : active command = true)
    (changed : store.Replaced after command.id state) : Awaiting rest after where
  nodup := awaiting.tail.nodup
  stored := by
    intro other member liveOther
    rw [changed.others]
    · exact awaiting.tail.stored other member liveOther
    have distinct := awaiting.nodup
    rw [filter_cons, if_pos live, map_cons, nodup_cons] at distinct
    intro same
    apply distinct.1
    rw [same]
    exact mem_map_of_mem (mem_filter.mpr ⟨member, liveOther⟩)

end Awaiting

variable {command : DeviceCommand}

theorem CommandTable.mem_values {table : CommandTable} :
    command ∈ table.rows.values ↔ table.command command.id = some command := by
  rw [InsertionMap.mem_values]
  constructor
  · intro found
    obtain ⟨id, isStored⟩ := found
    rw [table.keyed id command isStored]
    exact isStored
  · intro found
    exact ⟨command.id, found⟩

theorem CommandTable.ids_nodup (table : CommandTable) :
    (table.rows.values.map DeviceCommand.id).Nodup := by
  have keys : table.rows.values.map DeviceCommand.id = table.rows.keys := by
    rw [InsertionMap.values, map_map]
    apply map_congr_left
    intro entry member
    exact table.keyed entry.1 entry.2 (InsertionMap.mem_entries.mp member)
  rw [keys]
  exact table.rows.keys_nodup

theorem CommandTable.filter_commands (table : CommandTable) :
    table.commands.filter active = table.rows.values.filter active := by
  have none : (((table.rows.values.filter fun command => !active command).insertionSort
      fun first second => second.createdAt ≤ first.createdAt).take 20).filter active = [] := by
    rw [filter_eq_nil_iff]
    intro command member
    have sorted := (mem_insertionSort _).mp (mem_of_mem_take member)
    have inactive := (mem_filter.mp sorted).2
    rw [Bool.not_eq_true'] at inactive
    rw [inactive]
    exact Bool.false_ne_true
  rw [commands, filter_append, none, append_nil, filter_filter]
  simp only [Bool.and_self]

theorem awaiting_commands (store : Store) : Awaiting store.commands.commands store where
  nodup := by
    rw [store.commands.filter_commands]
    exact store.commands.ids_nodup.sublist (filter_sublist.map _)
  stored := by
    intro command member live
    have both : command ∈ store.commands.commands.filter active :=
      mem_filter.mpr ⟨member, live⟩
    rw [store.commands.filter_commands] at both
    exact mem_values.mp (mem_of_mem_filter both)

variable {store : Store} {id : String}

theorem mem_commands (found : store.stored id = some command) (live : active command = true) :
    command ∈ store.commands.commands := by
  have same := Store.stored_id found
  subst same
  have listed : command ∈ store.commands.rows.values.filter active :=
    mem_filter.mpr ⟨mem_values.mpr found, live⟩
  rw [← store.commands.filter_commands] at listed
  exact mem_of_mem_filter listed

theorem mem_activeIds {which : DeviceCommand → Bool} :
    id ∈ store.activeIds which ↔ ∃ command, store.stored id = some command ∧
      active command = true ∧ which command = true := by
  rw [Store.activeIds, mem_map]
  constructor
  · intro listed
    obtain ⟨command, member, same⟩ := listed
    obtain ⟨isRow, both⟩ := mem_filter.mp member
    obtain ⟨live, chosen⟩ := (Bool.and_eq_true _ _).mp both
    subst same
    exact ⟨command, mem_values.mp isRow, live, chosen⟩
  intro found
  obtain ⟨command, isStored, live, chosen⟩ := found
  have same := Store.stored_id isStored
  subst same
  refine ⟨command, mem_filter.mpr ⟨mem_values.mpr isStored, ?_⟩, rfl⟩
  rw [live, chosen]
  rfl

section Actions

variable {operation : Operation} {broker : Broker}

theorem Broker.Sound.withStore (sound : broker.Sound)
    (same : store.stored = broker.store.stored) : (broker.withStore store).Sound where
  running := by
    intro id entry held
    simp only [Broker.withStore, same]
    exact sound.running id entry held
  spawned := by
    simp only [Broker.withStore, same]
    exact sound.spawned
  once := sound.once
  barred := by
    simp only [Broker.withStore, same]
    exact sound.barred
  few := sound.few

variable {post : Unit → Broker → Prop}

theorem tellOther_keeps {update : Store → Store}
    (same : (update broker.store).stored = broker.store.stored)
    (linked : (update broker.store).config = broker.store.config ∨
      ∀ id command, broker.store.stored id = some command → active command = false)
    (known : ∀ last, last.store = update broker.store → last.Sound → post () last) :
    (tell update).Keeps (discipline operation) post broker := by
  apply tell_keeps
  · intro later meanwhile sound
    have sameLater : (update broker.store).stored = later.store.stored := by
      rw [meanwhile.store]
      exact same
    refine ⟨⟨?_, .inl rfl, rfl⟩, sound.withStore sameLater⟩
    rw [meanwhile.store]
    have kept : ∀ id command, broker.store.stored id = some command →
        (update broker.store).stored id = some command := by
      rw [same]
      exact fun _ _ found => found
    exact {
      kept := fun id command found => ⟨command, kept id command found, fun _ => rfl⟩
      linked := fun changed id command found =>
        ⟨command, kept id command found, linked.resolve_left changed id command found⟩ }
  · intro last meanwhile sound
    exact known last meanwhile.store sound

variable {command : DeviceCommand}

theorem allows_keeps {post : Bool → Broker → Prop}
    (known : ∀ allowed last, broker.Meanwhile last → last.Sound →
      (allowed = true → Authorised operation last.store command) → post allowed last) :
    (allows command).Keeps (discipline operation) post broker := by
  apply Task.Keeps.bind
  apply ask_keeps
  intro _ last meanwhile sound
  apply known _ last meanwhile sound
  intro allowed
  obtain ⟨grant, member, isMatch⟩ := any_eq_true.mp allowed
  refine .inl ⟨grant, ?_, isMatch⟩
  rw [meanwhile.store]
  exact member

structure Stopping (which : DeviceCommand → Bool) (before : Store)
    (rest : List DeviceCommand) (broker : Broker) : Prop where
  sound : broker.Sound
  config : broker.store.config = before.config
  grants : broker.store.grants = before.grants
  progress : before.Progress broker.store
  origin : ∀ id, before.stored id = none → broker.store.stored id = none
  stopped : ∀ id command, before.stored id = some command → active command = true →
    which command = true → command ∈ rest ∨ broker.store.Settled id
  awaiting : Awaiting rest broker.store

variable {before : Store} {state : CommandState}

theorem settled_of_replaced (replaced : before.Replaced after id state) (past : state ≠ .pending)
    (ended : state ≠ .running) : after.Settled id := by
  obtain ⟨command, found, same⟩ := replaced.self
  refine ⟨command, found, ?_⟩
  rw [active, same, decide_eq_false past, decide_eq_false ended]
  rfl

variable {which : DeviceCommand → Bool} {rest : List DeviceCommand}

theorem Stopping.stop {last : Broker} (stopping : Stopping which before (command :: rest) broker)
    (live : active command = true) (past : state ≠ .pending) (ended : state ≠ .running)
    (sound : last.Sound) (replaced : broker.store.Replaced last.store command.id state) :
    Stopping which before rest last where
  sound := sound
  config := replaced.config.trans stopping.config
  grants := replaced.grants.trans stopping.grants
  progress := stopping.progress.trans (replaced.progress (stopping.awaiting.head live) live)
  origin := by
    intro id none
    have absent := stopping.origin id none
    rw [replaced.others]
    · exact absent
    · intro same
      subst same
      rw [stopping.awaiting.head live] at absent
      cases absent
  stopped := by
    intro id other found liveOther chosen
    have progress := replaced.progress (stopping.awaiting.head live) live
    obtain member | already := stopping.stopped id other found liveOther chosen
    · cases member with
      | head =>
        refine .inr ?_
        have same := Store.stored_id found
        subst same
        exact settled_of_replaced replaced past ended
      | tail _ later => exact .inl later
    · exact .inr (progress.settled already)
  awaiting := stopping.awaiting.replaced live replaced

theorem Stopping.skip (stopping : Stopping which before (command :: rest) broker)
    (spared : ¬(active command && which command) = true) :
    Stopping which before rest broker where
  sound := stopping.sound
  config := stopping.config
  grants := stopping.grants
  progress := stopping.progress
  origin := stopping.origin
  stopped := by
    intro id other found live chosen
    obtain member | already := stopping.stopped id other found live chosen
    · cases member with
      | head =>
        rw [live, chosen] at spared
        exact absurd rfl spared
      | tail _ later => exact .inl later
    · exact .inr already
  awaiting := stopping.awaiting.tail

theorem stopActive_keeps (past : state ≠ .pending) (ended : state ≠ .running)
    (known : ∀ last, Stopping which broker.store [] last → post () last) :
    (stopActive which state).Keeps (discipline operation) post broker := by
  apply Task.Keeps.bind
  apply ask_keeps
  intro _ listed meanwhile sound
  have begins : Stopping which broker.store broker.store.commands.commands listed := {
    sound := sound
    config := by rw [meanwhile.store]
    grants := by rw [meanwhile.store]
    progress := by
      rw [meanwhile.store]
      exact .refl _
    origin := by
      rw [meanwhile.store]
      exact fun _ none => none
    stopped := fun _ _ found live _ => .inl (mem_commands found live)
    awaiting := by
      rw [meanwhile.store]
      exact awaiting_commands _ }
  refine (Task.Keeps.forEach ?_ begins).mono fun _ last stopped => known last stopped
  intro command rest current stopping
  split
  · rename_i chosen
    have live := ((Bool.and_eq_true _ _).mp chosen).1
    apply Task.Keeps.bind
    apply stop_keeps stopping.sound (stopping.awaiting.head live) live past
    intro _ last finalSound replaced
    exact stopping.stop live past ended finalSound replaced
  · rename_i spared
    exact stopping.skip spared

theorem Stopping.quiet (stopped : Stopping (fun _ => true) before [] broker) (id : String)
    (command : DeviceCommand) (found : broker.store.stored id = some command) :
    active command = false := by
  cases earlier : before.stored id with
  | none =>
    rw [stopped.origin id earlier] at found
    cases found
  | some old =>
    cases live : active old with
    | false =>
      obtain ⟨next, isNext, same⟩ := stopped.progress.kept id old earlier
      rw [found] at isNext
      cases isNext
      rw [same live]
      exact live
    | true =>
      obtain member | settled := stopped.stopped id old earlier live rfl
      · cases member
      · obtain ⟨next, isNext, inactive⟩ := settled
        rw [found] at isNext
        cases isNext
        exact inactive

theorem Broker.Sound.enable (sound : broker.Sound) (disabled : Bool)
    (quiet : ∀ id command, broker.store.stored id = some command → active command = false) :
    ({ broker with disabled } : Broker).Sound where
  running := sound.running
  spawned := sound.spawned
  once := sound.once
  barred := by
    intro id member
    obtain ⟨command, found, _⟩ := sound.barred id member
    refine ⟨command, found, .inl ?_⟩
    intro pending
    have inactive := quiet id command found
    rw [active, pending] at inactive
    cases inactive
  few := sound.few

theorem synchronize_keeps {post : DeviceIdentity → Broker → Prop}
    (known : ∀ identity last, last.Sound → broker.store.Progress last.store →
      last.store = broker.store ∨ last.store.grants = .empty → post identity last) :
    synchronize.Keeps (discipline operation) post broker := by
  apply Task.Keeps.bind
  apply ask_keeps
  intro reply identified first _
  apply Task.Keeps.bind
  apply ask_keeps
  intro _ loaded second sound
  have same : loaded.store = broker.store := second.store.trans first.store
  apply Task.Keeps.gets
  dsimp only
  split
  · apply Task.Keeps.bind
    refine stopActive_keeps nofun nofun ?_
    intro stopped stopping
    apply Task.Keeps.bind
    apply tellOther_keeps rfl (.inl rfl)
    intro cleared clears _
    have quietNow : ∀ id command, cleared.store.stored id = some command →
        active command = false := by
      rw [clears]
      exact stopping.quiet
    apply Task.Keeps.bind
    apply tellOther_keeps rfl (.inr quietNow)
    intro saved saves savedSound
    have quiet : ∀ id command, saved.store.stored id = some command → active command = false := by
      rw [saves]
      exact quietNow
    have progress : broker.store.Progress saved.store := {
      kept := by
        rw [saves, clears, ← same]
        exact stopping.progress.kept
      linked := by
        intro _ id command found
        rw [← same] at found
        obtain ⟨next, isNext, _⟩ := stopping.progress.kept id command found
        have isSaved : saved.store.stored id = some next := by
          rw [saves, clears]
          exact isNext
        exact ⟨next, isSaved, quiet id next isSaved⟩ }
    have permitted : Permitted operation saved
        { saved with disabled := !(reply.identity.enabled.getD reply.identity.connected) } :=
      .of_same rfl rfl rfl
    apply Task.Keeps.modify permitted (savedSound.enable _ quiet)
    refine known _ _ (savedSound.enable _ quiet) progress (.inr ?_)
    rw [saves, clears]
  · apply known _ loaded sound
    · rw [same]
      exact .refl _
    · exact .inl same

end Actions

end Zuse.Device
