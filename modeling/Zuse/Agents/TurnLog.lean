import Mathlib.Data.List.Infix
import Zuse.Agents.TurnBatches
import Zuse.Agents.TurnSystem

namespace Zuse.Agents

open Zuse.Data List ProviderEventEnvelope TurnLogEntry

/-! A log in which every turn is opened before its envelopes and completes once. -/

namespace ProviderEventEnvelope

def isOfItem : ProviderEventEnvelope → Bool
  | session _ _ => false
  | turn _ event _ => event.parentItemId.isSome || event.toolItemId.isSome

variable (owner : Option ProviderAttemptOwnership) (envelope : ProviderEventEnvelope)
  (id : AgentTurnId)

@[simp] theorem owned_turnId : (envelope.owned owner).turnId = envelope.turnId := by
  unfold owned
  split
  · rfl
  · split
    · rfl
    · split <;> rfl

@[simp] theorem owned_isTerminalOf :
    (envelope.owned owner).isTerminalOf id = envelope.isTerminalOf id := by
  unfold owned
  split
  · rfl
  · split
    · rfl
    · split <;> rfl

@[simp] theorem owned_isCompletedOf :
    (envelope.owned owner).isCompletedOf id = envelope.isCompletedOf id := by
  unfold owned
  split
  · rfl
  split
  · rfl
  · rename_i turnId event own
    split
    · rfl
    · cases event <;> rfl

@[simp] theorem owned_isOfItem : (envelope.owned owner).isOfItem = envelope.isOfItem := by
  unfold owned
  split
  · rfl
  · split
    · rfl
    · split <;> rfl

variable {envelope id}

theorem isTerminalOf_of_isCompletedOf (completed : envelope.isCompletedOf id = true) :
    envelope.isTerminalOf id = true ∧ envelope.turnId = some id := by
  cases envelope with
  | session => cases completed
  | turn turnId event own =>
    cases event with
    | completed reason =>
      have same : turnId = id := of_decide_eq_true completed
      simp [isTerminalOf, ProviderEventEnvelope.turnId, same, AgentEvent.isTerminal]
    | _ => cases completed

end ProviderEventEnvelope

variable {turnId : AgentTurnId}

namespace TurnLogEntry

def completes (turnId : AgentTurnId) : TurnLogEntry → Bool
  | emitted envelope _ => envelope.isCompletedOf turnId
  | _ => false

def isOf (turnId : AgentTurnId) : TurnLogEntry → Bool
  | emitted envelope _ => envelope.turnId = some turnId
  | _ => false

variable {entry : TurnLogEntry}

theorem isOf_of_completes
    (completed : entry.completes turnId = true) : entry.isOf turnId = true := by
  cases entry with
  | emitted envelope byOrigin =>
    exact decide_eq_true (isTerminalOf_of_isCompletedOf completed).2
  | _ => cases completed

def emissions (owner : Option ProviderAttemptOwnership)
    (envelopes : List ProviderEventEnvelope) (byOrigin : Bool) : List TurnLogEntry :=
  envelopes.map fun envelope => emitted (envelope.owned owner) byOrigin

section

variable {owner : Option ProviderAttemptOwnership}
  {envelopes : List ProviderEventEnvelope} {byOrigin : Bool}

theorem emissions_cons (head : ProviderEventEnvelope) :
    emissions owner (head :: envelopes) byOrigin =
      [emitted (head.owned owner) byOrigin] ++ emissions owner envelopes byOrigin := rfl

theorem emissions_append (back : List ProviderEventEnvelope) :
    emissions owner (envelopes ++ back) byOrigin =
      emissions owner envelopes byOrigin ++ emissions owner back byOrigin :=
  map_append

variable {turnId : AgentTurnId}

theorem emissions_completes (quiet : ∀ envelope ∈ envelopes, envelope.isCompletedOf turnId = false)
    (member : entry ∈ emissions owner envelopes byOrigin) : entry.completes turnId = false := by
  obtain ⟨envelope, isEnvelope, rfl⟩ := mem_map.mp member
  rw [completes, owned_isCompletedOf]
  exact quiet envelope isEnvelope

theorem emissions_isOf (other : ∀ envelope ∈ envelopes, envelope.turnId ≠ some turnId)
    (member : entry ∈ emissions owner envelopes byOrigin) : entry.isOf turnId = false := by
  obtain ⟨envelope, isEnvelope, rfl⟩ := mem_map.mp member
  rw [isOf, owned_turnId]
  exact decide_eq_false (other envelope isEnvelope)

theorem opened_not_mem_emissions {released : Deferred} :
    opened turnId released ∉ emissions owner envelopes byOrigin := by
  intro member
  obtain ⟨envelope, _, same⟩ := mem_map.mp member
  cases same

end

/-- What may follow an entry: after the `Completed` of a turn only output of its items,
and no opening of a turn after an envelope of it. -/
structure Precedes (first later : TurnLogEntry) : Prop where
  completed : ∀ turnId, first.completes turnId = true → ∀ envelope byOrigin,
    later = .emitted envelope byOrigin → envelope.turnId = some turnId →
      byOrigin = true ∧ envelope.isTerminalOf turnId = false
  opened : ∀ turnId released, later = .opened turnId released → first.isOf turnId = false

end TurnLogEntry

theorem mem_openedIds {log : List TurnLogEntry} :
    turnId ∈ openedIds log ↔ ∃ released, .opened turnId released ∈ log := by
  rw [openedIds, mem_filterMap]
  constructor
  · rintro ⟨entry, member, isOpened⟩
    cases entry with
    | opened id released =>
      cases isOpened
      exact ⟨released, member⟩
    | _ => cases isOpened
  · rintro ⟨released, member⟩
    exact ⟨_, member, rfl⟩

theorem openedIds_append (first second : List TurnLogEntry) :
    openedIds (first ++ second) = openedIds first ++ openedIds second :=
  filterMap_append

structure LogSound (log : List TurnLogEntry) : Prop where
  ordered : log.Pairwise TurnLogEntry.Precedes
  opensFirst : ∀ earlier envelope byOrigin,
    earlier ++ [.emitted envelope byOrigin] <+: log → ∀ turnId,
      envelope.turnId = some turnId → turnId ∈ openedIds earlier
  routed : ∀ envelope, .emitted envelope true ∈ log → envelope.isOfItem = true

namespace LogSound

variable {log : List TurnLogEntry}

variable (sound : LogSound log)
include sound

variable {entry : TurnLogEntry} {turnId : AgentTurnId}

theorem opened_of_isOf (member : entry ∈ log) (isOf : entry.isOf turnId = true) :
    turnId ∈ openedIds log := by
  cases entry with
  | emitted envelope byOrigin =>
    obtain ⟨earlier, later, split⟩ := append_of_mem member
    have listed : earlier ++ [.emitted envelope byOrigin] <+: log :=
      ⟨later, by rw [split, append_assoc, singleton_append]⟩
    rw [split, openedIds_append]
    exact mem_append_left _ (sound.opensFirst earlier envelope byOrigin listed turnId
      (of_decide_eq_true isOf))
  | _ => cases isOf

theorem append (ordered : ∀ first ∈ log, first.Precedes entry)
    (opensFirst : ∀ envelope byOrigin, entry = .emitted envelope byOrigin →
      ∀ turnId, envelope.turnId = some turnId → turnId ∈ openedIds log)
    (routed : ∀ envelope, entry = .emitted envelope true → envelope.isOfItem = true) :
    LogSound (log ++ [entry]) := by
  refine ⟨pairwise_append.mpr ⟨sound.ordered, pairwise_singleton _ _, ?_⟩, ?_, ?_⟩
  · intro first member last isLast
    rw [mem_singleton.mp isLast]
    exact ordered first member
  · intro earlier envelope byOrigin listed turnId isTurn
    rcases prefix_concat_iff.mp listed with whole | inner
    · obtain ⟨same, sameEntry⟩ := append_inj' whole rfl
      rw [same]
      exact opensFirst envelope byOrigin (singleton_injective sameEntry).symm turnId isTurn
    · exact sound.opensFirst earlier envelope byOrigin inner turnId isTurn
  · intro envelope member
    rcases mem_concat.mp member with old | new
    · exact sound.routed envelope old
    · exact routed envelope (new).symm

theorem openTurn (released : Deferred) (unseen : ∀ entry ∈ log, entry.isOf turnId = false) :
    LogSound (log ++ [.opened turnId released]) := by
  refine sound.append (fun first member => ⟨?_, ?_⟩) ?_ ?_
  · rintro _ _ _ _ ⟨⟩
  · rintro _ _ ⟨⟩
    exact unseen first member
  · rintro _ _ ⟨⟩
  · rintro _ ⟨⟩

theorem note (notEmitted : ∀ envelope byOrigin, entry ≠ .emitted envelope byOrigin)
    (notOpened : ∀ turnId released, entry ≠ .opened turnId released) :
    LogSound (log ++ [entry]) := by
  refine sound.append (fun first member => ⟨?_, ?_⟩) ?_ ?_
  · intro turnId _ envelope byOrigin same
    exact absurd same (notEmitted envelope byOrigin)
  · intro turnId released same
    exact absurd same (notOpened turnId released)
  · intro envelope byOrigin same
    exact absurd same (notEmitted envelope byOrigin)
  · intro envelope same
    exact absurd same (notEmitted envelope true)

theorem emit {envelope : ProviderEventEnvelope} {byOrigin : Bool}
    (opened : ∀ turnId, envelope.turnId = some turnId → turnId ∈ openedIds log)
    (late : ∀ turnId, envelope.turnId = some turnId →
      (∃ entry ∈ log, entry.completes turnId = true) → byOrigin = true ∧
      envelope.isTerminalOf turnId = false)
    (routed : byOrigin = true → envelope.isOfItem = true) :
    LogSound (log ++ [.emitted envelope byOrigin]) := by
  refine sound.append (fun first member => ⟨?_, ?_⟩) ?_ ?_
  · rintro turnId completed _ _ ⟨⟩ isTurn
    exact late turnId isTurn ⟨first, member, completed⟩
  · rintro _ _ ⟨⟩
  · rintro _ _ ⟨⟩
    exact opened
  · rintro _ ⟨⟩
    exact routed rfl

theorem emitAll (owner : Option ProviderAttemptOwnership)
    {envelopes : List ProviderEventEnvelope}
    (running : ∀ envelope ∈ envelopes, ∀ turnId, envelope.turnId = some turnId →
      turnId ∈ openedIds log ∧ ∀ entry ∈ log, entry.completes turnId = false)
    (quiet : ∀ envelope ∈ envelopes, ∀ turnId, envelope.isCompletedOf turnId = false) :
    LogSound (log ++ TurnLogEntry.emissions owner envelopes false) := by
  induction envelopes generalizing log with
  | nil => simpa [emissions] using sound
  | cons head rest ih =>
    have first : LogSound (log ++ [.emitted (head.owned owner) false]) := by
      refine sound.emit (fun turnId isTurn => ?_) (fun turnId isTurn completed => ?_) ?_
      · rw [owned_turnId] at isTurn
        exact (running head mem_cons_self turnId isTurn).1
      · rw [owned_turnId] at isTurn
        obtain ⟨entry, member, completed⟩ := completed
        rw [(running head mem_cons_self turnId isTurn).2 entry member] at completed
        cases completed
      · rintro ⟨⟩
    rw [emissions_cons, ← append_assoc]
    refine ih first ?_ fun envelope member => quiet envelope (mem_cons_of_mem head member)
    intro envelope member turnId isTurn
    obtain ⟨opened, running⟩ := running envelope (mem_cons_of_mem head member) turnId isTurn
    refine ⟨by rw [openedIds_append]; exact mem_append_left _ opened, ?_⟩
    intro entry isEntry
    rcases mem_concat.mp isEntry with old | rfl
    · exact running entry old
    · rw [completes, owned_isCompletedOf]
      exact quiet head mem_cons_self turnId

theorem complete (owner : Option ProviderAttemptOwnership) (opened : turnId ∈ openedIds log)
    (running : ∀ entry ∈ log, entry.completes turnId = false)
    (front back : List ProviderEventEnvelope) (reason : CompletedReason)
    (before : ∀ envelope ∈ front, envelope.turnId = some turnId ∧
      envelope.isCompletedOf turnId = false)
    (after : ∀ envelope ∈ back, envelope.turnId = none) :
    LogSound (log ++ TurnLogEntry.emissions owner
      (front ++ turnEnvelope turnId (.completed reason) :: back) false) := by
  have started : LogSound (log ++ emissions owner front false) := by
    refine sound.emitAll owner ?_ ?_
    · intro envelope member id isTurn
      cases (before envelope member).1.symm.trans isTurn
      exact ⟨opened, running⟩
    intro envelope member id
    by_contra completed
    obtain ⟨_, isTurn⟩ := isTerminalOf_of_isCompletedOf (eq_true_of_ne_false completed)
    cases (before envelope member).1.symm.trans isTurn
    exact completed (before envelope member).2
  have completed : LogSound (log ++ emissions owner front false ++
      [.emitted ((turnEnvelope turnId (.completed reason)).owned owner) false]) := by
    refine started.emit (fun id isTurn => ?_) (fun id isTurn already => ?_) ?_
    · rw [owned_turnId] at isTurn
      cases isTurn
      rw [openedIds_append]
      exact mem_append_left _ opened
    · rw [owned_turnId] at isTurn
      cases isTurn
      obtain ⟨entry, member, completes⟩ := already
      rcases mem_append.mp member with old | new
      · rw [running entry old] at completes
        cases completes
      · rw [emissions_completes
          (fun envelope isFront => (before envelope isFront).2) new] at completes
        cases completes
    · rintro ⟨⟩
  rw [emissions_append, emissions_cons, ← append_assoc, ← append_assoc]
  refine completed.emitAll owner ?_ ?_
  · intro envelope member id isTurn
    rw [after envelope member] at isTurn
    cases isTurn
  intro envelope member id
  by_contra completes
  obtain ⟨_, isTurn⟩ := isTerminalOf_of_isCompletedOf (eq_true_of_ne_false completes)
  rw [after envelope member] at isTurn
  cases isTurn

theorem completes_once (turnId : AgentTurnId) : (log.filter (·.completes turnId)).length ≤ 1 := by
  have ordered := sound.ordered.filter (·.completes turnId)
  have completed (entry : TurnLogEntry) (member : entry ∈ log.filter (·.completes turnId)) :
      entry.completes turnId = true := (mem_filter.mp member).2
  generalize log.filter (·.completes turnId) = entries at ordered completed
  match entries, ordered, completed with
  | [], _, _ => exact Nat.zero_le _
  | [_], _, _ => exact le_refl _
  | first :: second :: rest, ordered, completed =>
    have before := rel_of_pairwise_cons ordered mem_cons_self
    have firstDone := completed first mem_cons_self
    have secondDone := completed second (mem_cons_of_mem _ mem_cons_self)
    cases second with
    | emitted envelope byOrigin =>
      obtain ⟨terminal, isTurn⟩ :=
        isTerminalOf_of_isCompletedOf secondDone
      have late := before.completed turnId firstDone envelope byOrigin rfl isTurn
      rw [late.2] at terminal
      cases terminal
    | _ => cases secondDone

end LogSound

end Zuse.Agents
