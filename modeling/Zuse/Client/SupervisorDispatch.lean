import Zuse.Client.SupervisorSessions

namespace Zuse.Client

open Zuse.Data List Table

/-! The dispatcher: each id is listed once, an operation that may run belongs to one entry
of its id, and a receipt that was given stays. -/

variable {κ : Type}

namespace CommandEntry

/-- Whether the run of a command executes its operation or may still come to it. -/
def operates (command : CommandEntry κ) : Bool :=
  match command.stage with
  | .executing _ => true
  | .awaiting (.attempt _ _) => true
  | .awaiting (.now (.ready _)) => true
  | _ => false

def runningId (removed : Bool) (command : CommandEntry κ) : Option String :=
  if command.operates || (!removed && command.listed) then some command.commandId else none

def stuck {Ω : Type} (deps : SupervisorDeps Ω κ) (command : CommandEntry κ) : Bool :=
  command.listed && !command.settled &&
    match command.stage with
    | .idle => true
    | .failing cause => deps.isRetryableCommandError cause
    | _ => false

end CommandEntry

open CommandEntry

/-- Every entry stays in its place under its id, and a receipt that was given is kept. -/
def Receipts (commands next : List (CommandEntry κ)) : Prop :=
  ∀ (index : Nat) (command : CommandEntry κ), commands[index]? = some command →
    ∃ later, next[index]? = some later ∧ later.commandId = command.commandId ∧
      (command.receipt ≠ .pending → later.receipt = command.receipt)

variable {new : CommandEntry κ} {update : CommandEntry κ → CommandEntry κ}

namespace Receipts

theorem refl (commands : List (CommandEntry κ)) : Receipts commands commands :=
  fun _ command found => ⟨command, found, rfl, fun _ => rfl⟩

theorem trans {first second third : List (CommandEntry κ)} (before : Receipts first second)
    (after : Receipts second third) : Receipts first third := by
  intro index command found
  obtain ⟨middle, isMiddle, sameId, kept⟩ := before index command found
  obtain ⟨last, isLast, sameLast, keptLast⟩ := after index middle isMiddle
  refine ⟨last, isLast, sameLast.trans sameId, ?_⟩
  intro given
  have unchanged := kept given
  rw [← unchanged]
  exact keptLast (by rw [unchanged]; exact given)

theorem set {commands : List (CommandEntry κ)} {index : Nat}
    {command : CommandEntry κ} (found : commands[index]? = some command)
    (same : new.commandId = command.commandId)
    (kept : command.receipt ≠ .pending → new.receipt = command.receipt) :
    Receipts commands (commands.set index new) := by
  intro other old isOld
  by_cases here : other = index
  · subst here
    rw [found] at isOld
    cases isOld
    exact ⟨new, (getElem?_set_iff found).mpr (.inl ⟨rfl, rfl⟩), same, kept⟩
  · exact ⟨old, (getElem?_set_iff found).mpr (.inr ⟨here, isOld⟩), rfl, fun _ => rfl⟩

theorem map
    (kept : ∀ command, (update command).commandId = command.commandId ∧
      (command.receipt ≠ .pending → (update command).receipt = command.receipt))
    (commands : List (CommandEntry κ)) : Receipts commands (commands.map update) := by
  intro index command found
  refine ⟨update command, ?_, kept command⟩
  rw [List.getElem?_map, found]
  rfl

theorem concat (commands : List (CommandEntry κ)) (new : CommandEntry κ) :
    Receipts commands (commands ++ [new]) :=
  fun _ command found =>
    ⟨command, getElem?_concat_iff.mpr (.inr found), rfl, fun _ => rfl⟩

end Receipts

theorem CommandEntry.settle_kept (command : CommandEntry κ) (receipt : Receipt κ)
    (given : command.receipt ≠ .pending) : (command.settle receipt).receipt = command.receipt := by
  rw [settle]
  cases held : command.receipt with
  | pending => exact absurd held given
  | fulfilled | rejected cause => rfl

structure Dispatching (removed : Bool) (commands : List (CommandEntry κ)) : Prop where
  receipt : ∀ command ∈ commands, command.settled = true ↔ command.receipt ≠ .pending
  listed : removed = false → ∀ command ∈ commands, command.listed = !command.settled
  idle : removed = false → ∀ command ∈ commands, command.settled = true → command.stage = .idle
  nodup : (commands.filterMap (runningId removed)).Nodup

namespace Dispatching

variable {removed : Bool} {commands : List (CommandEntry κ)} {index : Nat}
  {command : CommandEntry κ}

theorem empty : Dispatching removed ([] : List (CommandEntry κ)) where
  receipt := by
    intro command member
    cases member
  listed := by
    intro _ command member
    cases member
  idle := by
    intro _ command member
    cases member
  nodup := nodup_nil

theorem operates_of_inFlight (command : CommandEntry κ) (idle : command.stage = .idle) :
    command.operates = false := by
  rw [operates, idle]

theorem replace (dispatching : Dispatching removed commands)
    (found : commands[index]? = some command)
    (receipt : new.settled = true ↔ new.receipt ≠ .pending)
    (listed : removed = false → new.listed = !new.settled)
    (idle : removed = false → new.settled = true → new.stage = .idle)
    (running : new.runningId removed = none ∨ new.runningId removed = command.runningId removed) :
    Dispatching removed (commands.set index new) where
  receipt := by
    intro other member
    obtain replaced | kept := mem_or_eq_of_mem_set member
    · exact dispatching.receipt other replaced
    · rw [kept]
      exact receipt
  listed := by
    intro present other member
    obtain replaced | kept := mem_or_eq_of_mem_set member
    · exact dispatching.listed present other replaced
    · rw [kept]
      exact listed present
  idle := by
    intro present other member
    obtain replaced | kept := mem_or_eq_of_mem_set member
    · exact dispatching.idle present other replaced
    · rw [kept]
      exact idle present
  nodup := by
    obtain ⟨rest, before, after⟩ := filterMap_set (runningId removed) found new
    have distinct := before.nodup_iff.mp dispatching.nodup
    rw [after.nodup_iff]
    obtain none | same := running
    · rw [none]
      exact distinct.sublist (sublist_append_right _ rest)
    · rw [same]
      exact distinct

theorem mem_of_found (found : commands[index]? = some command) : command ∈ commands :=
  mem_of_getElem? found

theorem restage {stage : CommandStage κ} (dispatching : Dispatching removed commands)
    (found : commands[index]? = some command)
    (unsettled : removed = false → command.settled = false)
    (running : ({ command with stage } : CommandEntry κ).operates = true →
      command.operates = true ∨ removed = false) :
    Dispatching removed (commands.set index { command with stage }) := by
  have member := mem_of_found found
  refine dispatching.replace found (dispatching.receipt command member)
    (fun present => dispatching.listed present command member) ?_ ?_
  · intro present settled
    have unsettled := unsettled present
    have isSettled : command.settled = true := settled
    rw [unsettled] at isSettled
    cases isSettled
  cases now : ({ command with stage } : CommandEntry κ).operates with
  | false =>
    cases listed : (!removed && command.listed) with
    | false =>
      refine .inl ?_
      simp only [runningId, now, listed, Bool.or_self, Bool.false_eq_true, if_false]
    | true =>
      refine .inr ?_
      simp only [runningId, now, listed, Bool.or_true, if_true]
  | true =>
    refine .inr ?_
    have before : (command.operates || (!removed && command.listed)) = true := by
      obtain already | present := running now
      · rw [already, Bool.true_or]
      · rw [present, dispatching.listed present command member, unsettled present]
        simp
    simp only [runningId, now, before, Bool.true_or, if_true]

theorem listed_of_runningId {id : String} (dispatching : Dispatching false commands)
    (member : command ∈ commands) (running : command.runningId false = some id) :
    command.listed = true ∧ command.commandId = id := by
  rw [runningId] at running
  split at running
  · rename_i either
    cases running
    refine ⟨?_, rfl⟩
    obtain operates | listed := (Bool.or_eq_true _ _).mp either
    · cases settled : command.settled with
      | true =>
        rw [operates_of_inFlight command (dispatching.idle rfl command member settled)] at operates
        cases operates
      | false =>
        rw [dispatching.listed rfl command member, settled]
        rfl
    · exact listed
  · cases running

theorem dispatch {commandId : String} (dispatching : Dispatching removed commands)
    (fresh : (commands.any fun command =>
      command.listed && command.commandId = commandId) = false) :
    Dispatching removed (commands ++ [⟨commandId, true, false, .pending, .idle⟩]) where
  receipt := by
    intro command member
    cases mem_append.mp member with
    | inl earlier => exact dispatching.receipt command earlier
    | inr new =>
      rw [mem_singleton] at new
      subst new
      simp
  listed := by
    intro present command member
    cases mem_append.mp member with
    | inl earlier => exact dispatching.listed present command earlier
    | inr new =>
      rw [mem_singleton] at new
      subst new
      rfl
  idle := by
    intro present command member settled
    cases mem_append.mp member with
    | inl earlier => exact dispatching.idle present command earlier settled
    | inr new =>
      rw [mem_singleton] at new
      subst new
      rfl
  nodup := by
    rw [filterMap_append]
    cases removed with
    | true =>
      simp only [filterMap_cons, runningId, operates, Bool.not_true, Bool.false_and,
        Bool.or_self, Bool.false_eq_true, if_false, filterMap_nil, append_nil]
      exact dispatching.nodup
    | false =>
      apply List.Nodup.append dispatching.nodup
      · exact nodup_singleton _
      intro id earlier new
      simp only [filterMap_cons, runningId, Bool.not_false, Bool.and_self,
        Bool.or_true, if_true, filterMap_nil, mem_singleton] at new
      subst new
      obtain ⟨command, member, running⟩ := mem_filterMap.mp earlier
      obtain ⟨listed, same⟩ := dispatching.listed_of_runningId member running
      rw [any_eq_false] at fresh
      exact fresh command member (by rw [listed, same]; simp)

theorem settle_receipt (command : CommandEntry κ) {receipt : Receipt κ}
    (given : receipt ≠ .pending) :
    (command.settle receipt).settled = true ↔ (command.settle receipt).receipt ≠ .pending := by
  refine ⟨fun _ => ?_, fun _ => rfl⟩
  rw [settle]
  cases held : command.receipt with
  | pending => exact given
  | fulfilled | rejected cause =>
    intro same
    cases same

theorem filterMap_map_sublist
    (shrinks : ∀ command, (update command).runningId removed = none ∨
      (update command).runningId removed = command.runningId removed)
    (commands : List (CommandEntry κ)) :
    ((commands.map update).filterMap (runningId removed)).Sublist
      (commands.filterMap (runningId removed)) := by
  induction commands with
  | nil => exact List.Sublist.refl _
  | cons first rest ih =>
    rw [map_cons, filterMap_cons, filterMap_cons]
    obtain none | same := shrinks first
    · rw [none]
      cases first.runningId removed with
      | none => exact ih
      | some id => exact ih.cons id
    · rw [same]
      cases first.runningId removed with
      | none => exact ih
      | some id => exact ih.cons_cons id

theorem failPending {cause : κ} (dispatching : Dispatching removed commands) :
    Dispatching true (commands.map fun command =>
      if command.listed then
        { (if command.settled then command else command.settle (.rejected cause)) with
          listed := false }
      else command) where
  receipt := by
    intro command member
    obtain ⟨old, isOld, rfl⟩ := mem_map.mp member
    split
    · split
      · exact dispatching.receipt old isOld
      · exact settle_receipt old nofun
    · exact dispatching.receipt old isOld
  listed := by
    intro absent
    cases absent
  idle := by
    intro absent
    cases absent
  nodup := by
    have before : (commands.filterMap (runningId true)).Nodup := by
      refine dispatching.nodup.sublist ?_
      clear dispatching
      induction commands with
      | nil => exact List.Sublist.refl _
      | cons first rest ih =>
        rw [filterMap_cons, filterMap_cons]
        cases operates : first.operates with
        | true =>
          simp only [runningId, operates, Bool.true_or, if_true]
          exact ih.cons_cons _
        | false =>
          simp only [runningId, operates, Bool.not_true, Bool.false_and, Bool.or_self,
            Bool.false_eq_true, if_false, Bool.false_or]
          split
          · exact ih
          · exact ih.cons _
    refine before.sublist (filterMap_map_sublist ?_ commands)
    intro command
    refine .inr ?_
    split
    · split
      · simp [runningId, operates]
      · simp [runningId, operates, settle]
    · rfl

def drop (commandId : String) (command : CommandEntry κ) : CommandEntry κ :=
  if command.commandId = commandId then { command with listed := false } else command

theorem drop_eq (commandId : String) (command : CommandEntry κ) :
    (drop commandId command).settled = command.settled ∧
      (drop commandId command).receipt = command.receipt ∧
        (drop commandId command).stage = command.stage ∧
          (drop commandId command).commandId = command.commandId := by
  unfold drop
  split
  · exact ⟨rfl, rfl, rfl, rfl⟩
  · exact ⟨rfl, rfl, rfl, rfl⟩

theorem drop_runningId (commandId : String) (command : CommandEntry κ) :
    (drop commandId command).runningId removed = none ∨
      (drop commandId command).runningId removed = command.runningId removed := by
  unfold drop
  split
  · cases now : command.operates with
    | true =>
      have still : ({ command with listed := false } : CommandEntry κ).operates = true := now
      exact .inr (by simp only [runningId, still, now, Bool.true_or, if_true])
    | false =>
      have still : ({ command with listed := false } : CommandEntry κ).operates = false :=
        now
      exact .inl (by simp only [runningId, still, Bool.and_false, Bool.or_self,
        Bool.false_eq_true, if_false])
  · exact .inr rfl

theorem unlist (dispatching : Dispatching removed commands)
    (found : commands[index]? = some command)
    (unsettled : removed = false → command.settled = false)
    (same : new.commandId = command.commandId) (settled : new.settled = true)
    (given : new.receipt ≠ .pending) (ended : new.stage = .idle) :
    Dispatching removed ((commands.set index new).map (drop command.commandId)) := by
  have running : removed = false → command.listed = true := by
    intro present
    rw [dispatching.listed present command (mem_of_found found), unsettled present]
    rfl
  -- an entry that is still listed under the id would be a second one that may run
  have alone : removed = false → ∀ (position : Nat) (other : CommandEntry κ),
      position ≠ index → commands[position]? = some other →
        other.commandId = command.commandId → other.listed = false := by
    intro present position other apart isOther equal
    have isListed := running present
    subst present
    cases listed : other.listed with
    | false => rfl
    | true =>
      have runs : command.runningId false = some command.commandId := by
        simp [runningId, isListed]
      have otherRuns : other.runningId false = some command.commandId := by
        simp [runningId, listed, equal]
      exact absurd (index_unique dispatching.nodup isOther found otherRuns runs) apart
  constructor
  · intro other member
    obtain ⟨old, isOld, rfl⟩ := mem_map.mp member
    obtain ⟨sameSettled, sameReceipt, _⟩ := drop_eq command.commandId old
    rw [sameSettled, sameReceipt]
    obtain replaced | kept := mem_or_eq_of_mem_set isOld
    · exact dispatching.receipt old replaced
    · rw [kept, settled]
      exact ⟨fun _ => given, fun _ => rfl⟩
  · intro present other member
    obtain ⟨old, isOld, rfl⟩ := mem_map.mp member
    obtain ⟨position, atPosition⟩ := List.getElem?_of_mem isOld
    obtain ⟨_, rfl⟩ | ⟨apart, isOther⟩ := (getElem?_set_iff found).mp atPosition
    · rw [drop, if_pos same, settled]
      rfl
    · have listed := dispatching.listed present old (mem_of_found isOther)
      by_cases equal : old.commandId = command.commandId
      · rw [drop, if_pos equal, ← listed]
        exact (alone present position old apart isOther equal).symm
      · rw [drop, if_neg equal]
        exact listed
  · intro present other member isSettled
    obtain ⟨old, isOld, rfl⟩ := mem_map.mp member
    obtain ⟨sameSettled, _, sameStage, _⟩ := drop_eq command.commandId old
    rw [sameSettled] at isSettled
    rw [sameStage]
    obtain replaced | kept := mem_or_eq_of_mem_set isOld
    · exact dispatching.idle present old replaced isSettled
    · rw [kept]
      exact ended
  · refine List.Nodup.sublist (filterMap_map_sublist (drop_runningId _) _) ?_
    obtain ⟨rest, before, after⟩ := filterMap_set (runningId removed) found new
    have distinct := before.nodup_iff.mp dispatching.nodup
    rw [after.nodup_iff]
    have halted : new.operates = false := operates_of_inFlight new ended
    cases removed with
    | true =>
      have none : new.runningId true = none := by
        simp only [runningId, halted, Bool.not_true, Bool.false_and, Bool.or_self,
          Bool.false_eq_true, if_false]
      rw [none]
      exact distinct.sublist (sublist_append_right _ rest)
    | false =>
      have runs : command.runningId false = some new.commandId := by
        simp only [runningId, running rfl, Bool.not_false, Bool.and_self, Bool.or_true,
          if_true, same]
      cases listed : new.listed with
      | true =>
        have still : new.runningId false = some new.commandId := by
          simp only [runningId, listed, Bool.not_false, Bool.and_self, Bool.or_true, if_true]
        rw [still, ← runs]
        exact distinct
      | false =>
        have none : new.runningId false = none := by
          simp only [runningId, halted, listed, Bool.and_false, Bool.or_self,
            Bool.false_eq_true, if_false]
        rw [none]
        exact distinct.sublist (sublist_append_right _ rest)

end Dispatching

end Zuse.Client
