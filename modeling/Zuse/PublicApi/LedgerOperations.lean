import Zuse.PublicApi.LedgerInvariant

namespace Zuse.PublicApi

open List ApiLedger Data Table Option

variable {messageId : String}

namespace ApiLedger

variable {ledger : ApiLedger} {message : ApiMessage}

theorem message?_some (found : ledger.message? messageId = some message) :
    message ∈ ledger.messages ∧ message.messageId = messageId := by
  have same := List.find?_some found
  exact ⟨mem_of_find?_eq_some found, of_decide_eq_true same⟩

variable {workspaceId turnId : String}

theorem receipt?_isSome :
    (ledger.receipt? workspaceId turnId).isSome ↔ ledger.HasReceipt workspaceId turnId := by
  unfold receipt? HasReceipt
  simp

theorem assistant?_some (found : ledger.assistant? workspaceId turnId = some message) :
    message ∈ ledger.messages ∧ message.workspaceId = workspaceId ∧
      message.role = .assistant ∧ message.turnId = some turnId := by
  have meets := List.find?_some found
  simp only [Bool.and_eq_true, decide_eq_true_eq] at meets
  exact ⟨mem_of_find?_eq_some found, meets.1.1, meets.1.2, meets.2⟩

theorem assistant?_none (absent : ledger.assistant? workspaceId turnId = none) :
    ∀ message ∈ ledger.messages, message.workspaceId = workspaceId →
      message.role = .assistant → message.turnId ≠ some turnId := by
  intro message member workspace assistant turn
  have unlike := List.find?_eq_none.mp absent message member
  simp [workspace, assistant, turn] at unlike

theorem lt_nextApiMessageSeq (member : message ∈ ledger.messages) :
    message.seq < ledger.nextApiMessageSeq message.workspaceId :=
  lt_nextRowId (mem_map.mpr ⟨message, mem_filter.mpr ⟨member, decide_eq_true rfl⟩, rfl⟩)

end ApiLedger

section Operations

variable {owner : String → String → String} {world : LedgerWorld}

theorem LedgerInv.above (inv : LedgerInv owner world) (workspaceId : String) :
    ∀ entry ∈ world.created, entry.workspaceId = workspaceId →
      entry.seq < world.ledger.nextApiMessageSeq workspaceId := by
  rintro entry member rfl
  obtain ⟨message, isMessage, same, below⟩ := inv.top entry member
  rw [← same]
  exact Nat.lt_of_le_of_lt below (lt_nextApiMessageSeq isMessage)

variable {ledger : ApiLedger}

theorem Alters.of_eq (inv : LedgerInv owner world)
    (messages : ledger.messages = world.ledger.messages)
    (receipts : ledger.receipts = world.ledger.receipts) : Alters owner world ledger := by
  have hasReceipt : ∀ workspaceId turnId, ledger.HasReceipt workspaceId turnId ↔
      world.ledger.HasReceipt workspaceId turnId := by
    intro workspaceId turnId
    unfold HasReceipt
    rw [receipts]
  constructor
  · constructor
    · rw [messages]
      exact inv.rows.ids
    · rw [receipts]
      exact inv.rows.receipts
    · rw [messages]
      intro message member assistant
      obtain ⟨settled, turnId, turn, has⟩ := inv.rows.answers message member assistant
      exact ⟨settled, turnId, turn, (hasReceipt _ _).mpr has⟩
    · rw [messages]
      exact inv.rows.oneAnswer
    · rw [messages]
      exact inv.rows.owned
    · rw [messages]
      intro message member user
      rcases inv.rows.stands message member user with
        waits | ⟨delivered, turnId, turn, none⟩ | settled
      · exact .inl waits
      · exact .inr (.inl ⟨delivered, turnId, turn, fun has => none ((hasReceipt _ _).mp has)⟩)
      · exact .inr (.inr settled)
  · rw [messages]
    exact fun message member => .inl ⟨message, member, .refl message⟩
  · rw [messages]
    intro first isFirst second _ fresh
    exact absurd (inv.createdId isFirst) fresh
  · rw [messages]
    exact fun message member _ => ⟨message, member, rfl⟩
  · rw [messages]
    exact fun message member => ⟨message, member, rfl, Nat.le_refl _⟩
  · rw [receipts]
    exact fun _ member => member

theorem Alters.congr {other : ApiLedger} (alters : Alters owner world ledger)
    (messages : other.messages = ledger.messages)
    (receipts : other.receipts = ledger.receipts) : Alters owner world other := by
  obtain ⟨rows, rest⟩ := alters
  cases ledger
  cases messages
  cases receipts
  constructor
  · exact ⟨rows.ids, rows.receipts, rows.answers, rows.oneAnswer, rows.owned, rows.stands⟩
  all_goals assumption

theorem alters_revise (inv : LedgerInv owner world) {old : ApiMessage}
    (isOld : old ∈ world.ledger.messages) (user : old.role = .user)
    {update : ApiMessage → ApiMessage} (follows : old.Follows (update old))
    (owned : ∀ turnId, (update old).turnId = some turnId →
      owner old.workspaceId turnId = old.messageId)
    (stands : world.ledger.Stands (update old)) :
    Alters owner world (world.ledger.reviseMessage old.messageId update) := by
  have rows : ∀ message,
      message ∈ (world.ledger.reviseMessage old.messageId update).messages →
        (message ∈ world.ledger.messages ∧ message.messageId ≠ old.messageId) ∨
          message = update old := by
    intro message member
    rcases mem_revise.mp member with earlier | ⟨other, isOther, same, rfl⟩
    · exact .inl earlier
    · rw [inv.unique isOther isOld same]
      exact .inr rfl
  have ids : ((world.ledger.reviseMessage old.messageId update).messages.map
      (·.messageId)) = world.ledger.messages.map (·.messageId) := by
    refine map_revise ?_
    intro other isOther same
    rw [inv.unique isOther isOld same]
    exact follows.messageId
  have there : update old ∈ (world.ledger.reviseMessage old.messageId update).messages :=
    mem_revise.mpr (.inr ⟨old, isOld, rfl, rfl⟩)
  have stays : ∀ message ∈ world.ledger.messages, message.messageId ≠ old.messageId →
      message ∈ (world.ledger.reviseMessage old.messageId update).messages :=
    fun message member other => mem_revise.mpr (.inl ⟨member, other⟩)
  have notAnswer : (update old).role ≠ .assistant := by
    rw [follows.role, user]
    simp
  constructor
  · constructor
    · exact ids ▸ inv.rows.ids
    · exact inv.rows.receipts
    · intro message member assistant
      rcases rows message member with ⟨earlier, _⟩ | rfl
      · exact inv.rows.answers message earlier assistant
      · exact absurd assistant notAnswer
    · intro first isFirst second isSecond firstAnswer secondAnswer
      rcases rows first isFirst with ⟨firstOld, _⟩ | rfl
      · rcases rows second isSecond with ⟨secondOld, _⟩ | rfl
        · exact inv.rows.oneAnswer first firstOld second secondOld firstAnswer secondAnswer
        · exact absurd secondAnswer notAnswer
      · exact absurd firstAnswer notAnswer
    · intro message member isUser turnId turn
      rcases rows message member with ⟨earlier, _⟩ | rfl
      · exact inv.rows.owned message earlier isUser turnId turn
      · rw [follows.workspaceId, follows.messageId]
        exact owned turnId turn
    · intro message member isUser
      rcases rows message member with ⟨earlier, _⟩ | rfl
      · exact inv.rows.stands message earlier isUser
      · exact stands
  · intro message member
    rcases rows message member with ⟨earlier, _⟩ | rfl
    · exact .inl ⟨message, earlier, .refl message⟩
    · exact .inl ⟨old, isOld, follows⟩
  · intro first isFirst second _ fresh
    rcases rows first isFirst with ⟨earlier, _⟩ | rfl
    · exact absurd (inv.createdId earlier) fresh
    · exact absurd (follows.messageId ▸ inv.createdId isOld) fresh
  · intro message member _
    by_cases same : message.messageId = old.messageId
    · exact ⟨update old, there, follows.messageId.trans same.symm⟩
    · exact ⟨message, stays message member same, rfl⟩
  · intro message member
    by_cases same : message.messageId = old.messageId
    · cases inv.unique member isOld same
      exact ⟨update old, there, follows.workspaceId, Nat.le_of_eq follows.seq.symm⟩
    · exact ⟨message, stays message member same, rfl, Nat.le_refl _⟩
  · exact fun _ member => member

variable {message : ApiMessage} {workspaceId turnId : String}

section

variable (inv : LedgerInv owner world)
include inv

omit inv in
theorem alters_concat {base result : ApiLedger} (alters : Alters owner world base)
    (known : ∀ other ∈ base.messages, other.messageId ∈ world.createdIds)
    (fresh : message.messageId ∉ world.createdIds)
    (above : ∀ entry ∈ world.created, entry.workspaceId = message.workspaceId →
      entry.seq < message.seq)
    (messages : result.messages = base.messages ++ [message])
    (receipts : ∀ receipt ∈ base.receipts, receipt ∈ result.receipts)
    (rows : RowsInv owner result) : Alters owner world result where
  rows := rows
  messages := by
    rw [messages]
    intro other member
    rcases mem_concat.mp member with earlier | rfl
    · exact alters.messages other earlier
    · exact .inr ⟨fresh, above⟩
  one := by
    rw [messages]
    intro first isFirst second isSecond firstFresh secondFresh
    rcases mem_concat.mp isFirst with firstOld | rfl
    · exact absurd (known first firstOld) firstFresh
    · rcases mem_concat.mp isSecond with secondOld | secondNew
      · exact absurd (known second secondOld) secondFresh
      · rw [secondNew]
  kept := by
    rw [messages]
    intro other member delivered
    obtain ⟨later, isLater, same⟩ := alters.kept other member delivered
    exact ⟨later, mem_append_left _ isLater, same⟩
  top := by
    rw [messages]
    intro other member
    obtain ⟨later, isLater, rest⟩ := alters.top other member
    exact ⟨later, mem_append_left _ isLater, rest⟩
  receipts := fun receipt member => receipts receipt (alters.receipts receipt member)

omit inv in
theorem concat_ids {messages : List ApiMessage} (distinct : (messages.map (·.messageId)).Nodup)
    (known : ∀ other ∈ messages, other.messageId ∈ world.createdIds)
    (fresh : message.messageId ∉ world.createdIds) :
    ((messages ++ [message]).map (·.messageId)).Nodup := by
  rw [map_append]
  refine nodup_append.mpr ⟨distinct, nodup_singleton _, ?_⟩
  intro id isOld new isNew same
  obtain ⟨other, member, rfl⟩ := mem_map.mp isOld
  cases mem_singleton.mp isNew
  have sameId : other.messageId = message.messageId := same
  exact fresh (sameId ▸ known other member)

theorem alters_append {input : AppendApiMessageInput}
    (regular : world.Regular owner (.append input)) :
    Alters owner world (world.ledger.appendApiMessage input).2 := by
  obtain ⟨user, status, owned, unused⟩ := regular
  unfold appendApiMessage
  split
  · exact .of_eq inv rfl rfl
  rename_i absent
  rw [absent] at unused
  have fresh : input.messageId ∉ world.createdIds := by simpa using unused
  have known : ∀ other ∈ world.ledger.messages, other.messageId ∈ world.createdIds :=
    fun other member => inv.createdId member
  refine alters_concat (.of_eq inv rfl rfl) known fresh (inv.above input.workspaceId) rfl
    (fun _ member => member) ?_
  constructor
  · exact concat_ids inv.rows.ids known fresh
  · exact inv.rows.receipts
  · intro message member assistant
    rcases mem_concat.mp member with earlier | rfl
    · exact inv.rows.answers message earlier assistant
    · exact absurd (user.symm.trans assistant) (by simp)
  · intro first isFirst second isSecond firstAnswer secondAnswer
    rcases mem_concat.mp isFirst with firstOld | firstNew
    · rcases mem_concat.mp isSecond with secondOld | rfl
      · exact inv.rows.oneAnswer first firstOld second secondOld firstAnswer secondAnswer
      · exact absurd (user.symm.trans secondAnswer) (by simp)
    · cases firstNew
      exact absurd (user.symm.trans firstAnswer) (by simp)
  · intro message member isUser turnId turn
    rcases mem_concat.mp member with earlier | rfl
    · exact inv.rows.owned message earlier isUser turnId turn
    · exact owned turnId turn
  intro message member isUser
  rcases mem_concat.mp member with earlier | rfl
  · exact inv.rows.stands message earlier isUser
  rcases status with pending | ⟨delivered, some_turn⟩
  · left
    simp [pending]
  obtain ⟨turnId, turn⟩ := isSome_iff_exists.mp some_turn
  right
  -- A turn that has ended settles its message when that is appended.
  by_cases ended : (world.ledger.assistant? input.workspaceId turnId).isSome = true ∨
      (world.ledger.receipt? input.workspaceId turnId).isSome = true
  · simp [user, delivered, turn, ended]
  left
  have absent : ¬ world.ledger.HasReceipt input.workspaceId turnId :=
    fun has => ended (.inr (receipt?_isSome.mpr has))
  refine ⟨?_, turnId, turn, absent⟩
  simp only [not_or, Bool.not_eq_true] at ended
  simp [user, delivered, turn, ended.1, ended.2]

theorem alters_acknowledge {commandTurnId : Option String} {nowMs : Int}
    (regular : world.Regular owner (.acknowledge workspaceId messageId turnId commandTurnId nowMs))
    :
    Alters owner world
      (world.ledger.ackApiCommand workspaceId messageId (some turnId) commandTurnId nowMs).2 ∧
    ((world.ledger.ackApiCommand workspaceId messageId (some turnId) commandTurnId nowMs).1 = true →
      ∃ message ∈ (world.ledger.ackApiCommand workspaceId messageId (some turnId)
          commandTurnId nowMs).2.messages,
        message.messageId = messageId ∧ message.role = .user ∧
          message.workspaceId = workspaceId ∧ message.turnId = some turnId ∧
          (message.status = .delivered ∨ message.status = .settled)) := by
  obtain ⟨owned, answered⟩ := regular
  unfold ackApiCommand
  split
  · refine ⟨.of_eq inv rfl rfl, ?_⟩
    intro failed
    cases failed
  rename_i message found
  obtain ⟨stored, meets⟩ := filter_eq_some_iff.mp found
  simp only [Bool.and_eq_true, decide_eq_true_eq] at meets
  obtain ⟨member, rfl⟩ := message?_some stored
  obtain ⟨rfl, user⟩ := meets
  split
  · rename_i ended
    refine ⟨.of_eq inv rfl rfl, ?_⟩
    intro same
    exact ⟨message, member, rfl, user, rfl, by simpa using same, ended⟩
  split
  · refine ⟨.of_eq inv rfl rfl, ?_⟩
    intro failed
    cases failed
  rename_i waits
  have pending : message.status = .pending := by simpa using waits
  split
  · refine ⟨.of_eq inv rfl rfl, ?_⟩
    intro failed
    cases failed
  simp only [reduceCtorEq, if_false, isSome_none, Bool.false_or,
    any_some, none_or]
  -- The answer is there if the turn has ended.
  have ended : world.ledger.HasReceipt message.workspaceId turnId →
      (world.ledger.assistant? message.workspaceId turnId).isSome = true := by
    intro has
    rcases answered (receipt?_isSome.mpr has) with answer | gone
    · exact answer
    · exact absurd pending (gone message member rfl)
  refine ⟨alters_revise inv member user ?_ ?_ ?_, ?_⟩
  · refine ⟨rfl, rfl, rfl, rfl, ?_, ?_⟩
    · exact fun settled => absurd (pending.symm.trans settled) (by simp)
    · exact fun delivered => absurd (pending.symm.trans delivered) (by simp)
  · intro other turn
    cases turn
    exact owned
  · by_cases answer : (world.ledger.assistant? message.workspaceId turnId).isSome = true
    · exact .inr (.inr ⟨if_pos answer, turnId, rfl⟩)
    · exact .inr (.inl ⟨if_neg answer, turnId, rfl, fun has => answer (ended has)⟩)
  intro _
  refine ⟨_, mem_revise.mpr (.inr ⟨message, member, rfl, rfl⟩), rfl, user, rfl, rfl, ?_⟩
  split
  · exact .inr rfl
  · exact .inl rfl

theorem alters_claim (workspaceId : String) (nowMs : Int) :
    Alters owner world (world.ledger.claimNextApiCommand workspaceId nowMs).2 := by
  unfold claimNextApiCommand
  split
  · exact .of_eq inv rfl rfl
  rename_i first found
  obtain ⟨member, meets⟩ := mem_filter.mp (mem_of_orderFirst found)
  simp only [Bool.and_eq_true, decide_eq_true_eq] at meets
  obtain ⟨⟨⟨_, user⟩, pending⟩, _⟩ := meets
  refine alters_revise inv member user ?_ ?_ (.inl pending)
  · refine ⟨rfl, rfl, rfl, rfl, ?_, ?_⟩
    · exact fun settled => absurd (pending.symm.trans settled) (by simp)
    · exact fun delivered => absurd (pending.symm.trans delivered) (by simp)
  · exact inv.rows.owned first member user

end

theorem settlementCandidates_mem :
    message ∈ world.ledger.settlementCandidates workspaceId turnId ↔
      message ∈ world.ledger.messages ∧ message.workspaceId = workspaceId ∧
        message.role = .user ∧ message.status ≠ .settled ∧
        (message.turnId = some turnId ∨ message.turnId = none ∧ message.status = .delivered) := by
  simp [settlementCandidates, and_assoc]

theorem candidate_turn (inv : LedgerInv owner world)
    (candidate : message ∈ world.ledger.settlementCandidates workspaceId turnId) :
    message.turnId = some turnId := by
  obtain ⟨member, _, user, unsettled, turn⟩ := settlementCandidates_mem.mp candidate
  rcases turn with turn | ⟨without, delivered⟩
  · exact turn
  · rcases inv.rows.stands message member user with waits | ⟨_, other, found, _⟩ | ⟨ended, _⟩
    · exact absurd (delivered.symm.trans waits) (by simp)
    · exact absurd (without.symm.trans found) (by simp)
    · exact absurd ended unsettled

theorem alters_settle (inv : LedgerInv owner world) (workspaceId turnId : String) :
    Alters owner world (world.ledger.settleApiTurnUserMessage workspaceId turnId) ∧
      (world.ledger.settleApiTurnUserMessage workspaceId turnId).receipts = world.ledger.receipts ∧
      (∀ message ∈ (world.ledger.settleApiTurnUserMessage workspaceId turnId).messages,
        message.messageId ∈ world.createdIds ∧
          (message.role = .assistant → message ∈ world.ledger.messages) ∧
          (message.role = .user → message.workspaceId = workspaceId →
            message.turnId = some turnId → message.status = .settled)) := by
  unfold settleApiTurnUserMessage
  split
  · rename_i none
    rw [orderFirst_eq_none] at none
    refine ⟨.of_eq inv rfl rfl, rfl, ?_⟩
    intro message member
    refine ⟨inv.createdId member, fun _ => member, ?_⟩
    intro user workspace turn
    by_cases settled : message.status = .settled
    · exact settled
    · have candidate : message ∈ world.ledger.settlementCandidates workspaceId turnId :=
        settlementCandidates_mem.mpr ⟨member, workspace, user, settled, .inl turn⟩
      rw [none] at candidate
      cases candidate
  · rename_i candidate found
    have among := mem_of_orderFirst found
    obtain ⟨member, workspace, user, unsettled, _⟩ := settlementCandidates_mem.mp among
    have turn := candidate_turn inv among
    have owns := inv.rows.owned candidate member user turnId turn
    refine ⟨alters_revise inv member user ?_ ?_ ?_, rfl, ?_⟩
    · refine ⟨rfl, rfl, rfl, rfl, fun settled => absurd settled unsettled, ?_⟩
      exact fun _ => ⟨by simp, turn.symm⟩
    · intro other same
      cases same
      exact owns
    · exact .inr (.inr ⟨rfl, turnId, rfl⟩)
    · intro message isMessage
      rcases mem_revise.mp isMessage with ⟨earlier, other⟩ | ⟨old, isOld, same, rfl⟩
      · refine ⟨inv.createdId earlier, fun _ => earlier, ?_⟩
        intro isUser inWorkspace ofTurn
        -- Another message of the turn would have the same id.
        have ownsToo := inv.rows.owned message earlier isUser turnId ofTurn
        rw [inWorkspace, ← workspace] at ownsToo
        exact absurd (ownsToo.symm.trans owns) other
      · cases inv.unique isOld member same
        have known : candidate.messageId ∈ world.createdIds := inv.createdId member
        exact ⟨known, fun answer => absurd (user.symm.trans answer) (by simp), fun _ _ _ => rfl⟩

theorem fannedOut_rows (before changed : ApiLedger) (input : RecordApiTurnEventInput)
    (receipt : ApiTurnReceipt) (outcome : RecordApiTurnEventOutcome) :
    ((fannedOut before input receipt outcome changed).2.messages = changed.messages ∧
      (fannedOut before input receipt outcome changed).2.receipts = changed.receipts ∧
      (fannedOut before input receipt outcome changed).1 = outcome) ∨
    fannedOut before input receipt outcome changed = (.died, before) := by
  have kept : ∀ {accountId : String} {settledAtMs : Int} {fanout : ApiTurnWebhookFanout}
      {targets : List ApiWebhookTarget} {ledger after : ApiLedger},
      targets.foldlM (fanOutTo accountId settledAtMs fanout) ledger = some after →
        after.messages = ledger.messages ∧ after.receipts = ledger.receipts := by
    intro accountId settledAtMs fanout targets
    induction targets with
    | nil =>
      intro ledger after sent
      cases sent
      exact ⟨rfl, rfl⟩
    | cons target rest ih =>
      intro ledger after sent
      obtain ⟨middle, first, later⟩ := bind_eq_some_iff.mp sent
      have step : middle.messages = ledger.messages ∧ middle.receipts = ledger.receipts := by
        unfold fanOutTo at first
        split at first
        · cases first
          exact ⟨rfl, rfl⟩
        split at first
        · cases first
          exact ⟨rfl, rfl⟩
        · split at first
          · cases first
          · cases first
            exact ⟨rfl, rfl⟩
      exact ⟨(ih later).1.trans step.1, (ih later).2.trans step.2⟩
  unfold fannedOut
  split
  · rename_i after sent
    left
    unfold applyApiWebhookFanout at sent
    split at sent
    · cases sent
      exact ⟨rfl, rfl, rfl⟩
    · obtain ⟨messages, receipts⟩ := kept sent
      exact ⟨messages, receipts, rfl⟩
  · exact .inr rfl

theorem alters_fannedOut (inv : LedgerInv owner world) {changed : ApiLedger}
    (alters : Alters owner world changed) (input : RecordApiTurnEventInput)
    (receipt : ApiTurnReceipt) (outcome : RecordApiTurnEventOutcome) :
    Alters owner world (fannedOut world.ledger input receipt outcome changed).2 := by
  rcases fannedOut_rows world.ledger changed input receipt outcome with
    ⟨messages, receipts, _⟩ | died
  · exact alters.congr messages receipts
  · rw [died]
    exact .of_eq inv rfl rfl

theorem alters_record (store : LedgerStore) {input : RecordApiTurnEventInput}
    (inv : LedgerInv owner world) (regular : world.Regular owner (.recordEvent input)) :
    Alters owner world (world.ledger.recordApiTurnEvent store input).2 := by
  have same : Alters owner world world.ledger := .of_eq inv rfl rfl
  unfold recordApiTurnEvent
  split
  · rename_i replay answered unreceipted
    obtain ⟨member, workspace, assistant, turn⟩ := assistant?_some answered
    obtain ⟨_, turnId, found, has⟩ := inv.rows.answers replay member assistant
    cases turn.symm.trans found
    rw [workspace, ← receipt?_isSome, unreceipted] at has
    cases has
  · split
    · exact same
    · exact alters_fannedOut inv same _ _ _
  · split
    · exact same
    · exact alters_fannedOut inv same _ _ _
  rename_i unanswered unreceipted
  have fresh : input.messageId ∉ world.createdIds := by
    rcases regular with receipted | unused
    · rw [unreceipted] at receipted
      cases receipted
    · exact unused
  have untaken : world.ledger.message? input.messageId = none := by
    unfold message?
    rw [List.find?_eq_none]
    intro message member taken
    exact fresh (of_decide_eq_true taken ▸ inv.createdId member)
  rw [untaken]
  obtain ⟨alters, sameReceipts, settled⟩ :=
    alters_settle inv input.workspaceId input.turnId
  have absent : ¬ world.ledger.HasReceipt input.workspaceId input.turnId := by
    rw [← receipt?_isSome, unreceipted]
    simp
  have noAnswer := assistant?_none unanswered
  have known : ∀ message ∈
      (world.ledger.settleApiTurnUserMessage input.workspaceId input.turnId).messages,
      message.messageId ∈ world.createdIds := fun message member => (settled message member).1
  refine alters_fannedOut inv (alters_concat alters known fresh
    (inv.above input.workspaceId) rfl ?_ ?_) _ _ _
  · intro receipt member
    rw [sameReceipts] at member
    exact mem_append_left _ member
  -- The new receipt is the only one of its turn, and settles its message.
  constructor
  · exact concat_ids alters.rows.ids known fresh
  · rw [map_append]
    refine nodup_append.mpr ⟨inv.rows.receipts, nodup_singleton _, ?_⟩
    intro key isOld new isNew sameKey
    obtain ⟨receipt, member, rfl⟩ := mem_map.mp isOld
    cases mem_singleton.mp isNew
    exact absent ⟨receipt, member, congrArg Prod.fst sameKey, congrArg Prod.snd sameKey⟩
  · intro message member assistant
    rcases mem_concat.mp member with earlier | rfl
    · obtain ⟨status, turnId, turn, receipt, isReceipt, names⟩ :=
        inv.rows.answers message ((settled message earlier).2.1 assistant) assistant
      exact ⟨status, turnId, turn, receipt, mem_append_left _ isReceipt, names⟩
    · exact ⟨rfl, input.turnId, rfl, input.receipt,
        mem_append_right _ (mem_singleton.mpr rfl), rfl, rfl⟩
  · intro first isFirst second isSecond firstAnswer secondAnswer workspace turn
    rcases mem_concat.mp isFirst with firstOld | firstNew
    · rcases mem_concat.mp isSecond with secondOld | rfl
      · exact inv.rows.oneAnswer first ((settled first firstOld).2.1 firstAnswer) second
          ((settled second secondOld).2.1 secondAnswer) firstAnswer secondAnswer workspace
          turn
      · exact absurd turn
          (noAnswer first ((settled first firstOld).2.1 firstAnswer) workspace firstAnswer)
    · cases firstNew
      rcases mem_concat.mp isSecond with secondOld | secondNew
      · exact absurd turn.symm (noAnswer second ((settled second secondOld).2.1 secondAnswer)
          workspace.symm secondAnswer)
      · exact (secondNew).symm
  · intro message member user
    rcases mem_concat.mp member with earlier | rfl
    · exact alters.rows.owned message earlier user
    · cases user
  intro message member user
  rcases mem_concat.mp member with earlier | new
  · rcases alters.rows.stands message earlier user with
      waits | ⟨delivered, turnId, turn, without⟩ | ended
    · exact .inl waits
    · refine .inr (.inl ⟨delivered, turnId, turn, ?_⟩)
      rintro ⟨receipt, member', workspace, ofTurn⟩
      rcases mem_concat.mp member' with isOld | rfl
      · refine without ⟨receipt, ?_, workspace, ofTurn⟩
        rw [sameReceipts]
        exact isOld
      · have ended := (settled message earlier).2.2 user workspace.symm
          (turn.trans (congrArg some ofTurn.symm))
        exact absurd (delivered.symm.trans ended) (by simp)
    · exact .inr (.inr ended)
  · cases new
    cases user

theorem alters_prune (store : LedgerStore) (inv : LedgerInv owner world) (beforeMs : Int) :
    Alters owner world (world.ledger.pruneApiData store beforeMs) := by
  have stored : ∀ message ∈ (world.ledger.pruneApiData store beforeMs).messages,
      message ∈ world.ledger.messages := fun _ member => mem_of_mem_filter member
  constructor
  · constructor
    · exact inv.rows.ids.sublist (filter_sublist.map _)
    · exact inv.rows.receipts
    · exact fun message member => inv.rows.answers message (stored message member)
    · exact fun first isFirst second isSecond =>
        inv.rows.oneAnswer first (stored first isFirst) second (stored second isSecond)
    · exact fun message member => inv.rows.owned message (stored message member)
    · exact fun message member => inv.rows.stands message (stored message member)
  · exact fun message member => .inl ⟨message, stored message member, .refl message⟩
  · intro first isFirst second _ fresh
    exact absurd (inv.createdId (stored first isFirst)) fresh
  · intro message member delivered
    refine ⟨message, mem_filter.mpr ⟨member, ?_⟩, rfl⟩
    simp [keepsMessage, delivered]
  · -- The newest message of a workspace stays.
    intro message member
    obtain ⟨newest, isNewest, above, bounds⟩ := exists_greatest ApiMessage.seq
      (mem_filter.mpr ⟨member, decide_eq_true rfl⟩ :
        message ∈ world.ledger.messages.filter fun other =>
          other.workspaceId = message.workspaceId)
    obtain ⟨isStored, sameWorkspace⟩ := mem_filter.mp isNewest
    have workspace := of_decide_eq_true sameWorkspace
    refine ⟨newest, mem_filter.mpr ⟨isStored, ?_⟩, workspace, above⟩
    have first : world.ledger.recencyRank newest = 1 := by
      unfold recencyRank
      rw [filter_eq_nil_iff.mpr]
      · rfl
      · intro other isOther later
        simp only [Bool.and_eq_true, decide_eq_true_eq] at later
        have bound := bounds other
          (mem_filter.mpr ⟨isOther, decide_eq_true (later.1.trans workspace)⟩)
        omega
    simp [keepsMessage, first, protectedMessages]
  · exact fun _ member => member

end Operations

end Zuse.PublicApi
