import Zuse.Domain.Engine.Redispatch

namespace Zuse.Domain

open Zuse.Data List

/-! Dispatches and catch-ups share the work of projection. What they make of it together is
one replay of the whole event log. -/

namespace SessionDomain

variable {ρ : Type u} {project : StoredEvent SessionEvent → ρ → ρ}

def replay (project : StoredEvent SessionEvent → ρ → ρ) (readModel : ρ)
    (records : List (StoredEvent SessionEvent)) : ρ :=
  records.foldl (fun readModel record => project record readModel) readModel

section

variable {projected : Option Nat × ρ} {records : List (StoredEvent SessionEvent)}

theorem projectRecords_fresh
    (ordered : records.Pairwise fun left right => left.sequence < right.sequence)
    (fresh : ∀ record ∈ records, projected.1.getD 0 < record.sequence) :
    (records.foldl (projectRecord project) projected).2 = replay project projected.2 records := by
  induction records generalizing projected with
  | nil => rfl
  | cons head rest ih =>
    rw [pairwise_cons] at ordered
    rw [forall_mem_cons] at fresh
    rw [foldl_cons, projectRecord, if_neg (Nat.not_le_of_lt fresh.1)]
    apply ih ordered.2
    intro record member
    exact Nat.max_lt.mpr ⟨fresh.2 record member, ordered.1 record member⟩

theorem cursor_projectRecords_le {bound : Nat} (behind : projected.1.getD 0 ≤ bound)
    (bounded : ∀ record ∈ records, record.sequence ≤ bound) :
    (records.foldl (projectRecord project) projected).1.getD 0 ≤ bound := by
  induction records generalizing projected with
  | nil => exact behind
  | cons head rest ih =>
    rw [forall_mem_cons] at bounded
    rw [foldl_cons, projectRecord]
    split
    · exact ih behind bounded.2
    · exact ih (Nat.max_le.mpr ⟨behind, bounded.1⟩) bounded.2

end

section

variable [PayloadCodec] {domain next : SessionDomain ρ} {emptyModel : ρ}
variable {input : DispatchInput} {eventIds : List String} {receipt : CommandReceipt}

structure Projected (project : StoredEvent SessionEvent → ρ → ρ) (emptyModel : ρ)
    (domain : SessionDomain ρ) : Prop where
  behind : domain.projectorCursor.getD 0 ≤ domain.storage.lastSequence
  replayed : domain.readModel = replay project emptyModel domain.storage.events

theorem Projected.dispatch (holds : domain.Projected project emptyModel) (sound : domain.Sound)
    (draws : domain.Draws input eventIds)
    (dispatched : domain.dispatchTransactionally project input eventIds =
      .ok (receipt, next)) : next.Projected project emptyModel := by
  have sequenced : next.storage.Sequenced := (sound.dispatch draws dispatched).sequenced
  rw [dispatchTransactionally] at dispatched
  split at dispatched
  · cases dispatched
  cases ran : input.run domain.storage eventIds with
  | error failure =>
    rw [ran] at dispatched
    cases dispatched
  | ok outcome =>
    obtain ⟨known, storage⟩ := outcome
    rw [ran] at dispatched
    cases dispatched
    cases run_appends sound.sequenced sequenced ran with
    | inl same =>
      subst same
      have projected : (receiptEvents domain.storage input.streamId receipt).foldl
          (projectRecord project) (domain.projectorCursor, domain.readModel) =
            (domain.projectorCursor, domain.readModel) :=
        projectRecords_known fun record member => sound.projected record (mem_receiptEvents member)
      simp only [projected]
      exact ⟨holds.behind, holds.replayed⟩
    | inr appended =>
      obtain ⟨events, grown, later⟩ := appended
      have ordered : storage.events.Pairwise _ := sequenced.ordered
      rw [events, pairwise_append] at ordered
      refine ⟨?_, ?_⟩
      · apply cursor_projectRecords_le (holds.behind.trans grown)
        exact fun record member => sequenced.bounded record (mem_receiptEvents member)
      · change Prod.snd _ = replay project emptyModel storage.events
        rw [projectRecords_fresh ordered.2.1 fun record member =>
          holds.behind.trans_lt (later record member), events, replay, replay, foldl_append,
          holds.replayed]
        rfl

theorem Projected.step (holds : domain.Projected project emptyModel) (sound : domain.Sound)
    {label : SessionDomainStep}
    (stepped : (sessionDomainSystem project emptyModel).step domain label = some next) :
    next.Projected project emptyModel := by
  cases label with
  | dispatch input eventIds =>
    simp only [sessionDomainSystem] at stepped
    split at stepped
    · rename_i draws
      split at stepped
      · cases stepped
      · rename_i receipt final dispatched
        cases stepped
        exact holds.dispatch sound draws dispatched
    · cases stepped
  | ledger label =>
    simp only [sessionDomainSystem] at stepped
    split at stepped
    · cases stepped
    · cases stepped
      exact ⟨holds.behind, holds.replayed⟩
  | catchUp =>
    cases stepped
    have nothingNew : (domain.catchUp project) = domain := by
      rw [catchUp, projectRecords_known]
      intro record member
      rw [sound.sequenced.allEventsAfterSequence_eq] at member
      exact sound.projected record (mem_of_mem_filter member)
    rw [nothingNew]
    exact holds
  | commitElsewhere rows =>
    cases stepped
    exact ⟨Nat.le_add_right_of_le holds.behind, holds.replayed⟩
  | closeAdmission | restart | beginForkConstruction sessionId
  | completeForkConstruction sessionId | beginCheckpointRestore
  | completeCheckpointRestore =>
    cases stepped
    exact ⟨holds.behind, holds.replayed⟩

theorem committed_together (reachable : (sessionDomainSystem project emptyModel).Reachable domain) :
    domain.readModel = replay project emptyModel domain.storage.events ∧
      ∀ record ∈ domain.storage.events, ∀ job ∈ jobsForSessionEvent record,
        job.id ∈ domain.ledger.table.rows.map (·.id) := by
  have holds : domain.Projected project emptyModel := by
    induction reachable with
    | init => exact ⟨Nat.le_refl _, rfl⟩
    | step before stepped holds => exact holds.step (Sound.of_reachable before) stepped
  exact ⟨holds.replayed, (Sound.of_reachable reachable).enqueued⟩

end

def sequences (record : StoredEvent SessionEvent) (readModel : List Nat) : List Nat :=
  readModel ++ [record.sequence]

theorem committed_together_of_retriedTurn :
    ∃ domain, (@sessionDomainSystem rejectingCodec _ sequences []).run retriedTurn = some domain ∧
      domain.readModel = replay sequences [] domain.storage.events ∧
        ∀ record ∈ domain.storage.events, ∀ job ∈ jobsForSessionEvent record,
          job.id ∈ domain.ledger.table.rows.map (·.id) := by
  have ends : ((@sessionDomainSystem rejectingCodec _ sequences []).run retriedTurn).isSome =
    true := by decide +kernel
  obtain ⟨domain, ran⟩ := Option.isSome_iff_exists.mp ends
  exact ⟨domain, ran, @committed_together _ _ rejectingCodec _ _
    (TransitionSystem.run_reachable ran)⟩

end SessionDomain

end Zuse.Domain
