import Zuse.PublicApi.LedgerSystem

namespace Zuse.PublicApi

open List

section Invariant

variable {owner : String → String → String} {world : LedgerWorld}

def ApiLedger.HasReceipt (ledger : ApiLedger) (workspaceId turnId : String) : Prop :=
  ∃ receipt ∈ ledger.receipts, receipt.workspaceId = workspaceId ∧ receipt.turnId = turnId

/-- A message of a user that waits, was delivered with a turn that has not ended, or was
settled with a turn. -/
def ApiLedger.Stands (ledger : ApiLedger) (message : ApiMessage) : Prop :=
  message.status = .pending ∨
    (message.status = .delivered ∧ ∃ turnId, message.turnId = some turnId ∧
      ¬ ledger.HasReceipt message.workspaceId turnId) ∨
    (message.status = .settled ∧ ∃ turnId, message.turnId = some turnId)

structure RowsInv (owner : String → String → String) (ledger : ApiLedger) : Prop where
  ids : (ledger.messages.map (·.messageId)).Nodup
  receipts : (ledger.receipts.map fun receipt =>
    (receipt.workspaceId, receipt.turnId)).Nodup
  answers : ∀ message ∈ ledger.messages, message.role = .assistant →
    message.status = .settled ∧ ∃ turnId, message.turnId = some turnId ∧
      ledger.HasReceipt message.workspaceId turnId
  oneAnswer : ∀ first ∈ ledger.messages, ∀ second ∈ ledger.messages,
    first.role = .assistant → second.role = .assistant →
      first.workspaceId = second.workspaceId → first.turnId = second.turnId → first = second
  owned : ∀ message ∈ ledger.messages, message.role = .user →
    ∀ turnId, message.turnId = some turnId → owner message.workspaceId turnId = message.messageId
  stands : ∀ message ∈ ledger.messages, message.role = .user → ledger.Stands message

structure LedgerInv (owner : String → String → String) (world : LedgerWorld) : Prop where
  rows : RowsInv owner world.ledger
  known : ∀ message ∈ world.ledger.messages,
    ⟨message.workspaceId, message.messageId, message.seq⟩ ∈ world.created
  createdIds : world.createdIds.Nodup
  ordered : world.created.Pairwise fun earlier later =>
    earlier.workspaceId = later.workspaceId → earlier.seq < later.seq
  top : ∀ entry ∈ world.created, ∃ message ∈ world.ledger.messages,
    message.workspaceId = entry.workspaceId ∧ entry.seq ≤ message.seq
  settledIds : (world.settled.map (·.messageId)).Nodup
  settledRows : ∀ entry ∈ world.settled,
    owner entry.workspaceId entry.turnId = entry.messageId ∧ entry.messageId ∈ world.createdIds ∧
      ∀ message ∈ world.ledger.messages, message.messageId = entry.messageId →
        message.role = .user ∧ message.status = .settled ∧
          message.workspaceId = entry.workspaceId ∧ message.turnId = some entry.turnId
  settledKnown : ∀ message ∈ world.ledger.messages, message.role = .user →
    message.status = .settled → ∀ turnId, message.turnId = some turnId →
      ⟨message.workspaceId, turnId, message.messageId⟩ ∈ world.settled
  acknowledgedRows : ∀ entry ∈ world.acknowledged, entry ∈ world.settled ∨
    ∃ message ∈ world.ledger.messages, message.messageId = entry.messageId ∧
      message.role = .user ∧ message.status = .delivered ∧
      message.workspaceId = entry.workspaceId ∧ message.turnId = some entry.turnId

theorem LedgerInv.unique (inv : LedgerInv owner world) {first second : ApiMessage}
    (isFirst : first ∈ world.ledger.messages) (isSecond : second ∈ world.ledger.messages)
    (same : first.messageId = second.messageId) : first = second :=
  inj_on_of_nodup_map inv.rows.ids isFirst isSecond same

variable {message : ApiMessage}

theorem LedgerInv.createdId (inv : LedgerInv owner world)
    (member : message ∈ world.ledger.messages) : message.messageId ∈ world.createdIds :=
  mem_map.mpr ⟨_, inv.known message member, rfl⟩

/-- A later message with the names of an earlier one: one that was settled is the same, and
one that was delivered has its turn. -/
structure ApiMessage.Follows (old message : ApiMessage) : Prop where
  messageId : message.messageId = old.messageId
  workspaceId : message.workspaceId = old.workspaceId
  seq : message.seq = old.seq
  role : message.role = old.role
  settled : old.status = .settled → message = old
  delivered : old.status = .delivered → message.status ≠ .pending ∧ message.turnId = old.turnId

theorem ApiMessage.Follows.refl (message : ApiMessage) : message.Follows message where
  messageId := rfl
  workspaceId := rfl
  seq := rfl
  role := rfl
  settled := fun _ => rfl
  delivered := fun delivered => ⟨by simp [delivered], rfl⟩

structure Alters (owner : String → String → String) (world : LedgerWorld)
    (ledger : ApiLedger) : Prop where
  rows : RowsInv owner ledger
  messages : ∀ message ∈ ledger.messages,
    (∃ old ∈ world.ledger.messages, old.Follows message) ∨
      message.messageId ∉ world.createdIds ∧
        ∀ entry ∈ world.created, entry.workspaceId = message.workspaceId → entry.seq < message.seq
  one : ∀ first ∈ ledger.messages, ∀ second ∈ ledger.messages,
    first.messageId ∉ world.createdIds → second.messageId ∉ world.createdIds →
      first = second
  kept : ∀ message ∈ world.ledger.messages, message.status = .delivered →
    ∃ later ∈ ledger.messages, later.messageId = message.messageId
  top : ∀ message ∈ world.ledger.messages, ∃ later ∈ ledger.messages,
    later.workspaceId = message.workspaceId ∧ message.seq ≤ later.seq
  receipts : ∀ receipt ∈ world.ledger.receipts, receipt ∈ ledger.receipts

variable {ledger : ApiLedger}

theorem isNew_iff (inv : LedgerInv owner world) (alters : Alters owner world ledger)
    (member : message ∈ ledger.messages) :
    world.isNew message = true ↔ message.messageId ∉ world.createdIds := by
  constructor
  · intro new
    rcases alters.messages message member with ⟨old, isOld, follows⟩ | ⟨fresh, _⟩
    · simp only [LedgerWorld.isNew, Bool.not_eq_true', any_eq_false,
        decide_eq_true_eq] at new
      exact absurd follows.messageId.symm (new old isOld)
    · exact fresh
  · intro fresh
    simp only [LedgerWorld.isNew, Bool.not_eq_true', any_eq_false, decide_eq_true_eq]
    intro old isOld same
    exact fresh (same ▸ inv.createdId isOld)

theorem newlySettled_iff :
    world.newlySettled message = true ↔
      message.role = .user ∧ message.status = .settled ∧
        ∀ old ∈ world.ledger.messages, old.messageId = message.messageId →
          old.status ≠ .settled := by
  simp [LedgerWorld.newlySettled, and_assoc]

theorem new_nodup (inv : LedgerInv owner world) (alters : Alters owner world ledger) :
    (ledger.messages.filter world.isNew).Pairwise fun _ _ => False := by
  have distinct : (ledger.messages.filter world.isNew).Nodup :=
    (List.Nodup.of_map _ alters.rows.ids).filter _
  refine List.Pairwise.imp_of_mem ?_ distinct
  intro first second isFirst isSecond unlike
  obtain ⟨firstStored, firstNew⟩ := mem_filter.mp isFirst
  obtain ⟨secondStored, secondNew⟩ := mem_filter.mp isSecond
  exact unlike (alters.one first firstStored second secondStored
    ((isNew_iff inv alters firstStored).mp firstNew)
    ((isNew_iff inv alters secondStored).mp secondNew))

theorem LedgerInv.after (inv : LedgerInv owner world) (alters : Alters owner world ledger) :
    LedgerInv owner (world.after ledger) := by
  have newEntries : ∀ entry, entry ∈ (world.after ledger).created ↔
      entry ∈ world.created ∨ ∃ message ∈ ledger.messages,
        message.messageId ∉ world.createdIds ∧
          entry = ⟨message.workspaceId, message.messageId, message.seq⟩ := by
    intro entry
    simp only [LedgerWorld.after, mem_append, mem_map, mem_filter]
    constructor
    · rintro (earlier | ⟨message, ⟨member, new⟩, rfl⟩)
      · exact .inl earlier
      · exact .inr ⟨message, member, (isNew_iff inv alters member).mp new, rfl⟩
    · rintro (earlier | ⟨message, member, fresh, rfl⟩)
      · exact .inl earlier
      · exact .inr ⟨message, ⟨member, (isNew_iff inv alters member).mpr fresh⟩, rfl⟩
  have settledEntries : ∀ entry, entry ∈ (world.after ledger).settled ↔
      entry ∈ world.settled ∨ ∃ message ∈ ledger.messages,
        world.newlySettled message = true ∧
          entry = ⟨message.workspaceId, message.turnId.getD "", message.messageId⟩ := by
    intro entry
    simp only [LedgerWorld.after, mem_append, mem_map, mem_filter]
    constructor
    · rintro (earlier | ⟨message, ⟨member, new⟩, rfl⟩)
      · exact .inl earlier
      · exact .inr ⟨message, member, new, rfl⟩
    · rintro (earlier | ⟨message, member, new, rfl⟩)
      · exact .inl earlier
      · exact .inr ⟨message, ⟨member, new⟩, rfl⟩
  have known : ∀ message ∈ ledger.messages,
      ⟨message.workspaceId, message.messageId, message.seq⟩ ∈ (world.after ledger).created := by
    intro message member
    rcases alters.messages message member with ⟨old, isOld, follows⟩ | ⟨fresh, _⟩
    · refine (newEntries _).mpr (.inl ?_)
      rw [follows.workspaceId, follows.messageId, follows.seq]
      exact inv.known old isOld
    · exact (newEntries _).mpr (.inr ⟨message, member, fresh, rfl⟩)
  have idsGrow : ∀ id ∈ world.createdIds, id ∈ (world.after ledger).createdIds := by
    intro id member
    obtain ⟨entry, isEntry, rfl⟩ := mem_map.mp member
    exact mem_map.mpr ⟨entry, (newEntries entry).mpr (.inl isEntry), rfl⟩
  -- A message that is newly settled is not one that was settled before.
  have unsettled : ∀ message ∈ ledger.messages, world.newlySettled message = true →
      message.messageId ∉ world.settled.map (·.messageId) := by
    intro message member new settled
    obtain ⟨_, _, unlike⟩ := newlySettled_iff.mp new
    obtain ⟨entry, isEntry, same⟩ := mem_map.mp settled
    obtain ⟨_, created, rows⟩ := inv.settledRows entry isEntry
    rcases alters.messages message member with ⟨old, isOld, follows⟩ | ⟨fresh, _⟩
    · have was := rows old isOld (follows.messageId.symm.trans same.symm)
      exact unlike old isOld follows.messageId.symm was.2.1
    · exact fresh (same ▸ created)
  constructor
  · exact alters.rows
  · exact known
  · unfold LedgerWorld.createdIds
    rw [LedgerWorld.after, map_append]
    refine nodup_append.mpr ⟨inv.createdIds, ?_, ?_⟩
    · rw [map_map]
      exact (alters.rows.ids).sublist (filter_sublist.map _)
    · intro id isOld new isNew same
      rw [map_map] at isNew
      obtain ⟨message, member, rfl⟩ := mem_map.mp isNew
      obtain ⟨stored, new⟩ := mem_filter.mp member
      have sameId : id = message.messageId := same
      exact (isNew_iff inv alters stored).mp new (sameId ▸ isOld)
  · refine pairwise_append.mpr ⟨inv.ordered, ?_, ?_⟩
    · refine pairwise_map.mpr ((new_nodup inv alters).imp ?_)
      exact fun impossible => absurd impossible id
    · intro earlier isEarlier later isLater sameWorkspace
      obtain ⟨message, member, rfl⟩ := mem_map.mp isLater
      obtain ⟨stored, new⟩ := mem_filter.mp member
      have fresh := (isNew_iff inv alters stored).mp new
      rcases alters.messages message stored with ⟨old, isOld, follows⟩ | ⟨_, above⟩
      · exact absurd (follows.messageId ▸ inv.createdId isOld) fresh
      · exact above earlier isEarlier sameWorkspace
  · intro entry member
    rcases (newEntries entry).mp member with earlier | ⟨message, stored, _, rfl⟩
    · obtain ⟨message, isMessage, sameWorkspace, below⟩ := inv.top entry earlier
      obtain ⟨later, isLater, same, bound⟩ := alters.top message isMessage
      exact ⟨later, isLater, same.trans sameWorkspace, Nat.le_trans below bound⟩
    · exact ⟨message, stored, rfl, Nat.le_refl _⟩
  · rw [LedgerWorld.after, map_append]
    refine nodup_append.mpr ⟨inv.settledIds, ?_, ?_⟩
    · rw [map_map]
      exact (alters.rows.ids).sublist (filter_sublist.map _)
    · intro id isOld new isNew same
      rw [map_map] at isNew
      obtain ⟨message, member, rfl⟩ := mem_map.mp isNew
      obtain ⟨stored, newly⟩ := mem_filter.mp member
      have sameId : id = message.messageId := same
      exact unsettled message stored newly (sameId ▸ isOld)
  · intro entry member
    rcases (settledEntries entry).mp member with earlier | ⟨message, stored, newly, rfl⟩
    · obtain ⟨owned, created, rows⟩ := inv.settledRows entry earlier
      refine ⟨owned, idsGrow _ created, ?_⟩
      intro message isMessage same
      rcases alters.messages message isMessage with ⟨old, isOld, follows⟩ | ⟨fresh, _⟩
      · have was := rows old isOld (follows.messageId.symm.trans same)
        rw [follows.settled was.2.1]
        exact was
      · exact absurd (same ▸ created) fresh
    · obtain ⟨user, settled, _⟩ := newlySettled_iff.mp newly
      have turn : ∃ turnId, message.turnId = some turnId := by
        rcases alters.rows.stands message stored user with waits | ⟨waits, _⟩ | ⟨_, turn⟩
        · exact absurd (waits.symm.trans settled) (by simp)
        · exact absurd (waits.symm.trans settled) (by simp)
        · exact turn
      obtain ⟨turnId, found⟩ := turn
      rw [found]
      refine ⟨alters.rows.owned message stored user turnId found,
        mem_map.mpr ⟨_, known message stored, rfl⟩, ?_⟩
      intro other isOther same
      cases inj_on_of_nodup_map alters.rows.ids isOther stored same
      exact ⟨user, settled, rfl, found⟩
  · intro message member user settled turnId found
    rcases alters.messages message member with ⟨old, isOld, follows⟩ | ⟨fresh, _⟩
    · by_cases was : old.status = .settled
      · have same := follows.settled was
        rw [same] at user found ⊢
        exact (settledEntries _).mpr (.inl (inv.settledKnown old isOld user was turnId found))
      · refine (settledEntries _).mpr (.inr ⟨message, member, ?_, ?_⟩)
        · refine newlySettled_iff.mpr ⟨user, settled, ?_⟩
          intro other isOther same
          rw [inv.unique isOther isOld (same.trans follows.messageId)]
          exact was
        · rw [found, Option.getD_some]
    · refine (settledEntries _).mpr (.inr ⟨message, member, ?_, ?_⟩)
      · refine newlySettled_iff.mpr ⟨user, settled, ?_⟩
        intro other isOther same
        exact absurd (same ▸ inv.createdId isOther) fresh
      · rw [found, Option.getD_some]
  · intro entry member
    rcases inv.acknowledgedRows entry member with settled |
      ⟨message, isMessage, id, user, delivered, workspace, turn⟩
    · exact .inl ((settledEntries entry).mpr (.inl settled))
    · obtain ⟨later, isLater, same⟩ := alters.kept message isMessage delivered
      rcases alters.messages later isLater with ⟨old, isOld, follows⟩ | ⟨fresh, _⟩
      · cases inv.unique isOld isMessage (follows.messageId.symm.trans same)
        obtain ⟨notPending, sameTurn⟩ := follows.delivered delivered
        have laterUser := follows.role.trans user
        rcases alters.rows.stands later isLater laterUser with waits | ⟨waits, _⟩ | ⟨ended, _⟩
        · exact absurd waits notPending
        · exact .inr ⟨later, isLater, same.trans id, laterUser, waits,
            follows.workspaceId.trans workspace, sameTurn.trans turn⟩
        · refine .inl ((settledEntries entry).mpr (.inr ⟨later, isLater, ?_, ?_⟩))
          · refine newlySettled_iff.mpr ⟨laterUser, ended, ?_⟩
            intro other isOther sameId
            rw [inv.unique isOther isMessage (sameId.trans same), delivered]
            simp
          · rw [sameTurn, turn, Option.getD_some, follows.workspaceId, workspace, same, id]
      · exact absurd (same ▸ inv.createdId isMessage) fresh

end Invariant

end Zuse.PublicApi
