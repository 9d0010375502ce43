import Zuse.Device.CommandBroker

namespace Zuse.Device

open Zuse.Data Broker InsertionMap

/-! What the operations of the broker rely on and what they guarantee. -/

def Store.stored (store : Store) (id : String) : Option DeviceCommand :=
  store.commands.command id

def Store.Settled (store : Store) (id : String) : Prop :=
  ∃ command, store.stored id = some command ∧ active command = false

/-- Rows stay, those of settled commands as they are, and once the link has changed every
command is settled. -/
structure Store.Progress (before after : Store) : Prop where
  kept : ∀ id command, before.stored id = some command →
    ∃ next, after.stored id = some next ∧ (active command = false → next = command)
  linked : after.config ≠ before.config → ∀ id command,
    before.stored id = some command → after.Settled id

theorem Store.Progress.of_same {before after : Store}
    (stored : after.stored = before.stored) (config : after.config = before.config) :
    before.Progress after where
  kept := fun id command found => ⟨command, by rw [stored]; exact found, fun _ => rfl⟩
  linked := fun changed => absurd config changed

theorem Store.Progress.refl (store : Store) : store.Progress store := .of_same rfl rfl

theorem Store.Progress.settled {before after : Store} (progress : before.Progress after)
    {id : String} (settled : before.Settled id) : after.Settled id := by
  obtain ⟨command, found, inactive⟩ := settled
  obtain ⟨next, isNext, same⟩ := progress.kept id command found
  exact ⟨next, isNext, by rw [same inactive]; exact inactive⟩

theorem Store.Progress.trans {first second third : Store}
    (before : first.Progress second) (after : second.Progress third) :
    first.Progress third where
  kept := by
    intro id command found
    obtain ⟨middle, isMiddle, sameMiddle⟩ := before.kept id command found
    obtain ⟨last, isLast, sameLast⟩ := after.kept id middle isMiddle
    refine ⟨last, isLast, ?_⟩
    intro inactive
    have unchanged := sameMiddle inactive
    rw [← unchanged]
    exact sameLast (by rw [unchanged]; exact inactive)
  linked := by
    intro changed id command found
    by_cases same : second.config = first.config
    · obtain ⟨middle, isMiddle, _⟩ := before.kept id command found
      exact after.linked (fun equal => changed (equal.trans same)) id middle isMiddle
    · exact after.settled (before.linked same id command found)

def Broker.held (broker : Broker) : Nat :=
  broker.running.size + broker.pendingLeases.size

/-- The invariant: a process that is held was spawned and its command is stored as
running, every command spawned so far is stored past its request, and a barred command is
past its request wherever the broker would start one. -/
structure Broker.Sound (broker : Broker) : Prop where
  running : ∀ id entry, broker.running.get? id = some entry →
    entry.command.id = id ∧ id ∈ broker.spawned ∧
      ∃ command, broker.store.stored id = some command ∧ command.state = .running
  spawned : ∀ id ∈ broker.spawned, ∃ command,
    broker.store.stored id = some command ∧ command.state ≠ .pending
  once : broker.spawned.Nodup
  barred : ∀ id ∈ broker.barred, ∃ command, broker.store.stored id = some command ∧
    (command.state ≠ .pending ∨ broker.unavailable = true)
  few : broker.held ≤ maxActive

/-- What others do while an operation waits: they drop processes and leases, close the
broker or disable it, but they store nothing and spawn nothing. -/
structure Broker.Meanwhile (before after : Broker) : Prop where
  store : after.store = before.store
  spawned : after.spawned = before.spawned
  running : ∀ id, before.running.get? id = none → after.running.get? id = none
  leases : ∀ id lease, before.pendingLeases.get? id = some lease →
    after.pendingLeases.get? id = some lease ∨ after.unavailable = true ∨ after.held < before.held
  held : after.held ≤ before.held
  unavailable : before.unavailable = true → after.unavailable = true
  barred : before.barred ⊆ after.barred
  bars : ∀ id ∈ after.barred, id ∈ before.barred ∨ after.unavailable = true

/-- A command may run where a grant matches it or the user has just allowed it. -/
def Authorised (operation : Operation) (store : Store) (command : DeviceCommand) : Prop :=
  (∃ grant ∈ store.grants.values, deviceGrantMatches grant command = true) ∨
    ∃ decision principal, operation = .handle (.decide command.id decision) principal ∧
      decision ≠ .Deny ∧ isRuntime principal = false

/-- A process is spawned for a command that is stored as running; at that moment nothing is
stored. -/
structure Spawns (operation : Operation) (before after : Broker)
    (command : DeviceCommand) : Prop where
  store : after.store = before.store
  spawned : after.spawned = before.spawned ++ [command.id]
  first : command.id ∉ before.spawned
  unbarred : command.id ∉ before.barred
  stored : before.store.stored command.id = some command
  running : command.state = .running
  authorised : Authorised operation before.store command

/-- What every change of an operation guarantees. -/
structure Permitted (operation : Operation) (before after : Broker) : Prop where
  progress : before.store.Progress after.store
  spawned : after.spawned = before.spawned ∨ ∃ command, Spawns operation before after command
  barred : after.barred = before.barred

def discipline (operation : Operation) : Task.Discipline Broker where
  sound := Broker.Sound
  rely := Broker.Meanwhile
  guarantee := Permitted operation

theorem Broker.Meanwhile.refl (broker : Broker) : broker.Meanwhile broker where
  store := rfl
  spawned := rfl
  running := fun _ none => none
  leases := fun _ _ held => .inl held
  held := Nat.le_refl _
  unavailable := id
  barred := List.Subset.refl _
  bars := fun _ member => .inl member

theorem Broker.Meanwhile.trans {first second third : Broker}
    (before : first.Meanwhile second) (after : second.Meanwhile third) :
    first.Meanwhile third where
  store := after.store.trans before.store
  spawned := after.spawned.trans before.spawned
  running := fun id none => after.running id (before.running id none)
  leases := by
    intro id lease held
    obtain still | unavailable | fewer := before.leases id lease held
    · obtain still | unavailable | fewer := after.leases id lease still
      · exact .inl still
      · exact .inr (.inl unavailable)
      · exact .inr (.inr (Nat.lt_of_lt_of_le fewer before.held))
    · exact .inr (.inl (after.unavailable unavailable))
    · exact .inr (.inr (Nat.lt_of_le_of_lt after.held fewer))
  held := Nat.le_trans after.held before.held
  unavailable := fun first => after.unavailable (before.unavailable first)
  barred := List.Subset.trans before.barred after.barred
  bars := by
    intro id member
    obtain earlier | unavailable := after.bars id member
    · exact (before.bars id earlier).imp_right after.unavailable
    · exact .inr unavailable

variable {before after : Broker}

theorem Permitted.of_same {operation : Operation} (store : after.store = before.store)
    (spawned : after.spawned = before.spawned) (barred : after.barred = before.barred) :
    Permitted operation before after where
  progress := by rw [store]; exact .refl _
  spawned := .inl spawned
  barred := barred

theorem Permitted.refl (operation : Operation) (broker : Broker) :
    Permitted operation broker broker :=
  .of_same rfl rfl rfl

def Broker.withStore (broker : Broker) (store : Store) : Broker := { broker with store }

theorem Broker.Meanwhile.withStore (store : Store) (meanwhile : before.Meanwhile after) :
    (before.withStore store).Meanwhile (after.withStore store) where
  store := rfl
  spawned := meanwhile.spawned
  running := meanwhile.running
  leases := meanwhile.leases
  held := meanwhile.held
  unavailable := meanwhile.unavailable
  barred := meanwhile.barred
  bars := meanwhile.bars

theorem Broker.Sound.shrink (sound : before.Sound) (store : after.store = before.store)
    (spawned : after.spawned = before.spawned)
    (running : ∀ id entry, after.running.get? id = some entry →
      ∃ old, before.running.get? id = some old ∧ entry.command.id = old.command.id)
    (held : after.held ≤ before.held) (barred : ∀ id ∈ after.barred, id ∈ before.barred ∨
      after.unavailable = true ∧ (before.store.stored id).isSome)
    (unavailable : before.unavailable = true → after.unavailable = true) :
    after.Sound where
  running := by
    intro id entry found
    obtain ⟨old, isOld, same⟩ := running id entry found
    rw [store, spawned, same]
    exact sound.running id old isOld
  spawned := by
    rw [spawned, store]
    exact sound.spawned
  once := by
    rw [spawned]
    exact sound.once
  barred := by
    intro id member
    rw [store]
    obtain earlier | ⟨now, isStored⟩ := barred id member
    · obtain ⟨command, found, past⟩ := sound.barred id earlier
      exact ⟨command, found, past.imp_right unavailable⟩
    · obtain ⟨command, found⟩ := Option.isSome_iff_exists.mp isStored
      exact ⟨command, found, .inr now⟩
  few := Nat.le_trans held sound.few

theorem Broker.held_kill_le (broker : Broker) (id : String) : (broker.kill id).held ≤ broker.held :=
  Nat.add_le_add (size_delete_le _ id) (size_delete_le _ id)

variable {broker : Broker}

theorem Broker.held_kill_lt {id : String} {lease : Nat}
    (held : broker.pendingLeases.get? id = some lease) : (broker.kill id).held < broker.held :=
  Nat.add_lt_add_of_le_of_lt (size_delete_le _ id) (size_delete_lt held)

theorem Broker.kill_meanwhile (broker : Broker) (id : String) :
    broker.Meanwhile (broker.kill id) where
  store := rfl
  spawned := rfl
  running := by
    intro other none
    simp only [kill, get?_delete]
    split
    · rfl
    · exact none
  leases := by
    intro other lease held
    by_cases same : id = other
    · subst same
      exact .inr (.inr (held_kill_lt held))
    · refine .inl ?_
      simp only [kill, get?_delete, if_neg same]
      exact held
  held := broker.held_kill_le id
  unavailable := fun unavailable => unavailable
  barred := List.Subset.refl _
  bars := fun _ member => .inl member

theorem Broker.Sound.kill (sound : broker.Sound) (id : String) : (broker.kill id).Sound := by
  refine sound.shrink rfl rfl ?_ (broker.held_kill_le id) (fun _ => .inl) fun same => same
  intro other entry found
  simp only [Broker.kill, get?_delete] at found
  split at found
  · cases found
  · exact ⟨entry, found, rfl⟩

theorem Broker.kill_idle (broker : Broker) (id : String) :
    (broker.kill id).running.get? id = none := by
  simp only [kill, get?_delete, if_true]

theorem Broker.killed (ids : List String) (broker : Broker) :
    broker.Meanwhile (ids.foldl Broker.kill broker) ∧
      (broker.Sound → (ids.foldl Broker.kill broker).Sound) := by
  induction ids generalizing broker with
  | nil => exact ⟨.refl broker, id⟩
  | cons id rest ih =>
    obtain ⟨meanwhile, sound⟩ := ih (broker.kill id)
    exact ⟨(broker.kill_meanwhile id).trans meanwhile, fun now => sound (now.kill id)⟩

theorem Broker.killed_disabled (ids : List String) (broker : Broker) :
    (ids.foldl Broker.kill broker).disabled = broker.disabled := by
  induction ids generalizing broker with
  | nil => rfl
  | cons id rest ih => exact ih (broker.kill id)

theorem Broker.killAll_disabled (broker : Broker) : broker.killAll.disabled = true :=
  killed_disabled broker.running.keys _

theorem Broker.killAll_unavailable (broker : Broker) : broker.killAll.unavailable = true := by
  rw [unavailable, broker.killAll_disabled, Bool.true_or]

theorem Broker.disabled_meanwhile (broker : Broker) :
    broker.Meanwhile { broker with disabled := true, pendingLeases := .empty } where
  store := rfl
  spawned := rfl
  running := fun _ none => none
  leases := fun _ _ _ => .inr (.inl (Bool.true_or _))
  held := Nat.add_le_add_left (Nat.zero_le _) _
  unavailable := fun _ => Bool.true_or _
  barred := List.Subset.refl _
  bars := fun _ member => .inl member

theorem Broker.killAll_meanwhile (broker : Broker) : broker.Meanwhile broker.killAll :=
  broker.disabled_meanwhile.trans (killed _ _).1

theorem Broker.Sound.killAll (sound : broker.Sound) : broker.killAll.Sound := by
  apply (killed _ _).2
  refine sound.shrink rfl rfl ?_ (Nat.add_le_add_left (Nat.zero_le _) _) (fun _ => .inl) ?_
  · intro id entry found
    exact ⟨entry, found, rfl⟩
  · exact fun _ => Bool.true_or _

section Requests

variable {operation : Operation} {broker : Broker}

theorem ask_keeps {answer : Answer → Store → α} {post : α → Broker → Prop}
    (known : ∀ reply last, broker.Meanwhile last → last.Sound →
      post (answer reply broker.store) last) :
    (ask answer).Keeps (discipline operation) post broker := by
  apply Task.Keeps.request (Permitted.refl operation)
  intro later meanwhile sound
  refine ⟨Permitted.refl operation later, sound, ?_⟩
  intro reply last further finalSound
  rw [meanwhile.store]
  exact known reply last (meanwhile.trans further) finalSound

theorem tell_keeps {update : Store → Store} {post : Unit → Broker → Prop}
    (permitted : ∀ later, broker.Meanwhile later → later.Sound →
      Permitted operation later (later.withStore (update broker.store)) ∧
        (later.withStore (update broker.store)).Sound)
    (known : ∀ last, (broker.withStore (update broker.store)).Meanwhile last →
      last.Sound → post () last) :
    (tell update).Keeps (discipline operation) post broker := by
  apply Task.Keeps.request (Permitted.refl operation)
  intro later meanwhile sound
  obtain ⟨guaranteed, still⟩ := permitted later meanwhile sound
  have same : { later with store := update later.store } =
      later.withStore (update broker.store) := by
    rw [meanwhile.store, withStore]
  rw [same]
  refine ⟨guaranteed, still, ?_⟩
  intro _ last further finalSound
  exact known last ((meanwhile.withStore _).trans further) finalSound

end Requests

end Zuse.Device
