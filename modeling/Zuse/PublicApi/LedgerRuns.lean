import Zuse.PublicApi.DeliveryInvariant
import Zuse.PublicApi.LedgerOperations

namespace Zuse.PublicApi

open Data (TransitionSystem)
open List ApiLedger

section Runs

variable {store : LedgerStore} {owner : String → String → String} {world : LedgerWorld}
  {label : LedgerStep}

/-- What holds of the messages and receipts of a world. -/
structure SettlesOnce (world : LedgerWorld) : Prop where
  receipts : (world.ledger.receipts.map fun receipt =>
    (receipt.workspaceId, receipt.turnId)).Nodup
  answers : ∀ message ∈ world.ledger.messages, message.role = .assistant →
    ∃ turnId, message.turnId = some turnId ∧ world.ledger.HasReceipt message.workspaceId turnId ∧
      ∀ other ∈ world.ledger.messages, other.role = .assistant →
        other.workspaceId = message.workspaceId → other.turnId = message.turnId → other = message
  sequence : world.created.Pairwise fun earlier later =>
    earlier.workspaceId = later.workspaceId → earlier.seq < later.seq
  created : ∀ message ∈ world.ledger.messages,
    ⟨message.workspaceId, message.messageId, message.seq⟩ ∈ world.created
  turns : (world.settled.map fun entry => (entry.workspaceId, entry.turnId)).Nodup
  messages : (world.settled.map (·.messageId)).Nodup
  acknowledged : ∀ entry ∈ world.acknowledged,
    world.ledger.HasReceipt entry.workspaceId entry.turnId →
      entry ∈ world.settled ∧
        ∀ message ∈ world.ledger.messages, message.messageId = entry.messageId →
          message.status = .settled ∧ message.turnId = some entry.turnId

structure StepSettles (store : LedgerStore) (world : LedgerWorld) (label : LedgerStep) :
    Prop where
  unchanged : ∀ message ∈ world.ledger.messages, message.status = .settled →
    ∀ later ∈ (world.step store label).ledger.messages,
      later.messageId = message.messageId → later = message
  receipts : ∀ receipt ∈ world.ledger.receipts, receipt ∈ (world.step store label).ledger.receipts
  recorded : ∀ input, label = .recordEvent input →
    (world.ledger.recordApiTurnEvent store input).1 ≠ .died →
      (world.step store label).ledger.HasReceipt input.workspaceId input.turnId
  repeated : ∀ input stored, label = .recordEvent input →
    world.ledger.receipt? input.workspaceId input.turnId = some stored →
      (world.step store label).ledger.messages = world.ledger.messages ∧
        (world.step store label).ledger.receipts = world.ledger.receipts ∧
        ApiLedger.Delivers input world.ledger (world.step store label).ledger ∧
        (apiTurnReceiptMatchesInput stored input = false →
          (world.ledger.recordApiTurnEvent store input).1 = .conflict stored ∧
            (world.step store label).ledger = world.ledger)

theorem LedgerInv.settlesOnce (inv : LedgerInv owner world) : SettlesOnce world where
  receipts := inv.rows.receipts
  answers := by
    intro message member assistant
    obtain ⟨_, turnId, turn, has⟩ := inv.rows.answers message member assistant
    exact ⟨turnId, turn, has, fun other isOther answer workspace same =>
      inv.rows.oneAnswer other isOther message member answer assistant workspace same⟩
  sequence := inv.ordered
  created := inv.known
  turns := by
    refine List.Nodup.of_map (fun key => owner key.1 key.2) ?_
    rw [map_map]
    refine (map_congr_left fun entry member => ?_) ▸ inv.settledIds
    exact (inv.settledRows entry member).1.symm
  messages := inv.settledIds
  acknowledged := by
    intro entry member has
    rcases inv.acknowledgedRows entry member with settled |
      ⟨message, isMessage, _, user, delivered, workspace, turn⟩
    · refine ⟨settled, fun message isMessage same => ?_⟩
      obtain ⟨_, ended, _, found⟩ := (inv.settledRows entry settled).2.2 message isMessage same
      exact ⟨ended, found⟩
    rcases inv.rows.stands message isMessage user with
      waits | ⟨_, turnId, found, without⟩ | ⟨ended, _⟩
    · exact absurd (delivered.symm.trans waits) (by simp)
    · cases turn.symm.trans found
      exact absurd (workspace ▸ has) without
    · exact absurd (delivered.symm.trans ended) (by simp)

theorem ledgerInv_init : LedgerInv owner {} where
  rows :=
    { ids := nodup_nil
      receipts := nodup_nil
      answers := forall_mem_nil _
      oneAnswer := forall_mem_nil _
      owned := forall_mem_nil _
      stands := forall_mem_nil _ }
  known := forall_mem_nil _
  createdIds := nodup_nil
  ordered := List.Pairwise.nil
  top := forall_mem_nil _
  settledIds := nodup_nil
  settledRows := forall_mem_nil _
  settledKnown := forall_mem_nil _
  acknowledgedRows := forall_mem_nil _

variable (store) in
theorem alters_step (inv : LedgerInv owner world) (regular : world.Regular owner label) :
    Alters owner world (world.step store label).ledger := by
  cases label with
  | append input => exact alters_append inv regular
  | claim workspaceId nowMs => exact alters_claim inv workspaceId nowMs
  | acknowledge workspaceId messageId turnId commandTurnId nowMs =>
    exact (alters_acknowledge inv regular).1
  | recordEvent input => exact alters_record store inv regular
  | prune beforeMs => exact alters_prune store inv beforeMs
  | deliver webhooks deliveries => exact .of_eq inv rfl rfl

theorem ledgerInv_step (inv : LedgerInv owner world) (regular : world.Regular owner label) :
    LedgerInv owner (world.step store label) := by
  have alters := alters_step store inv regular
  cases label with
  | acknowledge workspaceId messageId turnId commandTurnId nowMs =>
    have next := inv.after alters
    have acknowledged := (alters_acknowledge inv regular).2
    refine
      { rows := next.rows
        known := next.known
        createdIds := next.createdIds
        ordered := next.ordered
        top := next.top
        settledIds := next.settledIds
        settledRows := next.settledRows
        settledKnown := next.settledKnown
        acknowledgedRows := ?_ }
    intro entry member
    simp only [LedgerWorld.step] at member
    split at member
    · rename_i accepted
      rcases Data.mem_concat.mp member with earlier | rfl
      · exact next.acknowledgedRows entry earlier
      · obtain ⟨message, isMessage, id, user, workspace, turn, status⟩ :=
          acknowledged accepted
        rcases status with delivered | settled
        · exact .inr ⟨message, isMessage, id, user, delivered, workspace, turn⟩
        · left
          have known := next.settledKnown message isMessage user settled turnId turn
          rw [workspace, id] at known
          exact known
    · exact next.acknowledgedRows entry member
  | append input
  | claim workspaceId nowMs
  | recordEvent input | prune beforeMs | deliver webhooks deliveries => exact inv.after alters

variable {input : RecordApiTurnEventInput}

variable (store) in
theorem record_repeated {stored : ApiTurnReceipt}
    (receipted : world.ledger.receipt? input.workspaceId input.turnId = some stored) :
    (world.ledger.recordApiTurnEvent store input).2.messages = world.ledger.messages ∧
      (world.ledger.recordApiTurnEvent store input).2.receipts = world.ledger.receipts ∧
      (apiTurnReceiptMatchesInput stored input = false →
        world.ledger.recordApiTurnEvent store input = (.conflict stored, world.ledger)) := by
  have fanned : ∀ outcome,
      (fannedOut world.ledger input stored outcome world.ledger).2.messages =
          world.ledger.messages ∧
        (fannedOut world.ledger input stored outcome world.ledger).2.receipts =
          world.ledger.receipts := by
    intro outcome
    rcases fannedOut_rows world.ledger world.ledger input stored outcome with
      ⟨messages, receipts, _⟩ | died
    · exact ⟨messages, receipts⟩
    · rw [died]
      exact ⟨rfl, rfl⟩
  unfold recordApiTurnEvent
  rw [receipted]
  cases world.ledger.assistant? input.workspaceId input.turnId with
  | none =>
    dsimp only
    split
    · exact ⟨rfl, rfl, fun _ => rfl⟩
    · rename_i matching
      exact ⟨(fanned _).1, (fanned _).2, fun differs => absurd differs matching⟩
  | some replay =>
    dsimp only
    split
    · exact ⟨rfl, rfl, fun _ => rfl⟩
    · rename_i matching
      exact ⟨(fanned _).1, (fanned _).2, fun differs => absurd (.inl differs) matching⟩

theorem record_receipted (answered : (world.ledger.recordApiTurnEvent store input).1 ≠ .died) :
    (world.ledger.recordApiTurnEvent store input).2.HasReceipt input.workspaceId input.turnId := by
  cases receipted : world.ledger.receipt? input.workspaceId input.turnId with
  | some stored =>
    have has : world.ledger.HasReceipt input.workspaceId input.turnId :=
      receipt?_isSome.mp (by rw [receipted]; rfl)
    unfold HasReceipt
    rw [(record_repeated store receipted).2.1]
    exact has
  | none =>
    have new : ∀ changed outcome, changed.receipts = world.ledger.receipts ++ [input.receipt] →
        (fannedOut world.ledger input input.receipt outcome changed).1 ≠ .died →
          (fannedOut world.ledger input input.receipt outcome changed).2.HasReceipt
            input.workspaceId input.turnId := by
      intro changed outcome grown alive
      rcases fannedOut_rows world.ledger changed input input.receipt outcome with
        ⟨_, receipts, _⟩ | died
      · refine ⟨input.receipt, ?_, rfl, rfl⟩
        rw [receipts, grown]
        exact mem_append_right _ (mem_singleton.mpr rfl)
      · rw [died] at alive
        exact absurd rfl alive
    revert answered
    unfold recordApiTurnEvent
    split
    · split
      · exact fun answered => absurd rfl answered
      · exact new _ _ rfl
    · rename_i stored found
      exact absurd (receipted.symm.trans found) (by simp)
    · rename_i stored _ found
      exact absurd (receipted.symm.trans found) (by simp)
    · dsimp only
      split
      · exact fun answered => absurd rfl answered
      · exact new _ _ rfl

theorem stepSettles (inv : LedgerInv owner world) (regular : world.Regular owner label) :
    StepSettles store world label := by
  have alters := alters_step store inv regular
  constructor
  · intro message member settled later isLater same
    rcases alters.messages later isLater with ⟨old, isOld, follows⟩ | ⟨fresh, _⟩
    · cases inv.unique isOld member (follows.messageId.symm.trans same)
      exact follows.settled settled
    · exact absurd (same ▸ inv.createdId member) fresh
  · exact alters.receipts
  · rintro input rfl answered
    exact record_receipted answered
  rintro input stored rfl receipted
  obtain ⟨messages, receipts, conflicts⟩ := record_repeated store receipted
  refine ⟨messages, receipts, recordApiTurnEvent_delivers world.ledger store input, ?_⟩
  intro differs
  have conflict := conflicts differs
  exact ⟨congrArg Prod.fst conflict, congrArg Prod.snd conflict⟩

/-- In every run where each turn belongs to one message and none is acknowledged after the
answer of its turn was pruned, each message is settled once, by its turn. -/
theorem settlesOnce_of_run {labels : List LedgerStep} {last : LedgerWorld}
    (regular : (ledgerRuns store).EachStep (LedgerWorld.Regular owner) {} labels)
    (ran : (ledgerRuns store).run labels = some last) :
    SettlesOnce last ∧ (ledgerRuns store).EachStep (StepSettles store) {} labels := by
  constructor
  · refine (TransitionSystem.EachStep.invariant (LedgerInv owner) ?_ regular ran
      ledgerInv_init).settlesOnce
    intro world label next inv meets stepped
    cases stepped
    exact ledgerInv_step inv meets
  · refine TransitionSystem.EachStep.conclude (LedgerInv owner) ?_ regular ledgerInv_init
    intro world label next inv meets stepped
    cases stepped
    exact ⟨ledgerInv_step inv meets, stepSettles inv meets⟩

end Runs

def sampleMessage (messageId : String) (createdAtMs : Int) : AppendApiMessageInput where
  messageId
  workspaceId := "workspace"
  accountId := "account"
  role := .user
  sealedContent := "text"
  turnId := if messageId = "message" then some "command" else none
  status := .pending
  createdAtMs

def sampleEvent : RecordApiTurnEventInput where
  messageId := "answer"
  workspaceId := "workspace"
  accountId := "account"
  turnId := "turn"
  outcome := .completed
  sealedContent := "reply"
  contentDigest := "digest"
  nowMs := 0
  receivedAtMs := 0

def sampleLedgerRun : List LedgerStep :=
  [.append (sampleMessage "message" 0), .claim "workspace" 0, .recordEvent sampleEvent,
    .acknowledge "workspace" "message" "turn" (some "command") 1, .recordEvent sampleEvent]

def sampleOwner (_ turnId : String) : String :=
  if turnId = "turn" ∨ turnId = "command" then "message" else ""

theorem settlesOnce_sample :
    ((ledgerRuns .memory).run sampleLedgerRun).any (fun last =>
      (last.ledger.messages.map (·.status) = [.settled, .settled]) ∧
        (last.settled.map fun entry => (entry.workspaceId, entry.turnId)).Nodup) = true := by
  obtain ⟨last, ran, settled⟩ := (Option.any_eq_true _ _).mp
    (show ((ledgerRuns .memory).run sampleLedgerRun).any (fun last =>
      last.ledger.messages.map (·.status) = [.settled, .settled]) = true by decide +kernel)
  have regular : (ledgerRuns .memory).EachStep (LedgerWorld.Regular sampleOwner) {}
      sampleLedgerRun := by decide +kernel
  have once := (settlesOnce_of_run regular ran).1
  rw [ran]
  exact decide_eq_true ⟨of_decide_eq_true settled, once.turns⟩

theorem ledgerRuns_runFrom (store : LedgerStore) (labels : List LedgerStep) (world : LedgerWorld) :
    (ledgerRuns store).runFrom world labels =
      some (labels.foldl (fun world label => world.step store label) world) := by
  induction labels generalizing world with
  | nil => rfl
  | cons label rest ih => exact ih _

def fillerId (index : Nat) : String := String.ofList ('#' :: List.replicate index '.')

theorem fillerId_inj {first second : Nat} (same : fillerId first = fillerId second) :
    first = second := by
  have lists := congrArg (fun id => id.toList.length) same
  simpa [fillerId] using lists

def fillers (count : Nat) : List LedgerStep :=
  (List.range count).map fun index => .append (sampleMessage (fillerId index) 1)

variable {ledger : ApiLedger}

theorem appendApiMessage_new (input : AppendApiMessageInput)
    (absent : ledger.message? input.messageId = none) :
    ∃ message, (ledger.appendApiMessage input).2 =
        { ledger with messages := ledger.messages ++ [message] } ∧
      message.messageId = input.messageId ∧ message.workspaceId = input.workspaceId ∧
      message.role = input.role ∧
      message.seq = ledger.nextApiMessageSeq input.workspaceId := by
  unfold appendApiMessage
  rw [absent]
  exact ⟨_, rfl, rfl, rfl, rfl, rfl⟩

theorem filled (world : LedgerWorld) (count : Nat)
    (unlike : ∀ message ∈ world.ledger.messages, ∀ index, message.messageId ≠ fillerId index) :
    ∃ added : List ApiMessage,
      ((fillers count).foldl (fun world label => world.step .postgres label)
        world).ledger.messages = world.ledger.messages ++ added ∧
      ((fillers count).foldl (fun world label => world.step .postgres label)
        world).ledger.receipts = world.ledger.receipts ∧
      added.length = count ∧
      ∀ message ∈ added, message.workspaceId = "workspace" ∧ message.role = .user ∧
        (∃ index < count, message.messageId = fillerId index) ∧
        ∀ old ∈ world.ledger.messages, old.workspaceId = "workspace" →
          old.seq < message.seq := by
  induction count with
  | zero => exact ⟨[], (append_nil _).symm, rfl, rfl, fun _ member => by cases member⟩
  | succ count ih =>
    obtain ⟨added, messages, receipts, length, facts⟩ := ih
    unfold fillers at messages receipts ⊢
    rw [range_succ, map_append, foldl_append]
    generalize ((List.range count).map fun index =>
      LedgerStep.append (sampleMessage (fillerId index) 1)).foldl
        (fun world label => world.step .postgres label) world = before at messages receipts ⊢
    have free : before.ledger.message? (fillerId count) = none := by
      unfold message?
      rw [List.find?_eq_none, messages]
      intro message member taken
      have same : message.messageId = fillerId count := of_decide_eq_true taken
      rcases mem_append.mp member with isOld | isAdded
      · exact unlike message isOld count same
      · obtain ⟨_, _, ⟨index, below, id⟩, _⟩ := facts message isAdded
        have reached := fillerId_inj (id.symm.trans same)
        omega
    obtain ⟨new, appended, id, workspace, role, seq⟩ :=
      appendApiMessage_new (sampleMessage (fillerId count) 1) free
    simp only [map_cons, map_nil, foldl_cons, foldl_nil,
      LedgerWorld.step, LedgerWorld.after, appended]
    refine ⟨added ++ [new], ?_, receipts, ?_, ?_⟩
    · rw [messages, append_assoc]
    · rw [length_append, length, length_singleton]
    intro message member
    rcases Data.mem_concat.mp member with earlier | rfl
    · obtain ⟨workspace, role, ⟨index, below, id⟩, above⟩ := facts message earlier
      exact ⟨workspace, role, ⟨index, Nat.lt_succ_of_lt below, id⟩, above⟩
    refine ⟨workspace, role, ⟨count, Nat.lt_succ_self count, id⟩, ?_⟩
    intro old isOld inWorkspace
    have stored : old ∈ before.ledger.messages := by
      rw [messages]
      exact mem_append_left _ isOld
    have above := lt_nextApiMessageSeq stored
    rw [inWorkspace] at above
    rw [seq]
    exact above

def answered : LedgerWorld :=
  ((({} : LedgerWorld).step .postgres (.append (sampleMessage "message" 0))).step .postgres
    (.recordEvent sampleEvent))

theorem pruned_answer {added : List ApiMessage}
    (messages : ledger.messages = answered.ledger.messages ++ added)
    (receipts : ledger.receipts = answered.ledger.receipts) (many : 1000 ≤ added.length)
    (facts : ∀ message ∈ added, message.workspaceId = "workspace" ∧ message.role = .user ∧
      ∀ old ∈ answered.ledger.messages, old.workspaceId = "workspace" → old.seq < message.seq) :
    ∃ waiting rest, (ledger.pruneApiData .postgres 1).messages = waiting :: rest ∧
      waiting.messageId = "message" ∧ waiting.workspaceId = "workspace" ∧
      waiting.role = .user ∧ waiting.status = .pending ∧
      waiting.turnId = some "command" ∧ ∀ message ∈ rest, message.role = .user := by
  obtain ⟨waiting, answer, rows, waitingIs, answerIs⟩ :
      ∃ waiting answer, answered.ledger.messages = [waiting, answer] ∧
        (waiting.messageId = "message" ∧ waiting.workspaceId = "workspace" ∧
          waiting.role = .user ∧ waiting.status = .pending ∧
          waiting.turnId = some "command") ∧
        (answer.role = .assistant ∧ answer.workspaceId = "workspace" ∧
          answer.turnId = some "turn" ∧ answer.createdAtMs = 0 ∧
          answer.status = .settled) := by
    refine ⟨_, _, rfl, ?_, ?_⟩ <;> decide +kernel
  obtain ⟨id, workspace, role, status, turn⟩ := waitingIs
  obtain ⟨answerRole, answerWorkspace, answerTurn, answerCreated, answerStatus⟩ := answerIs
  have kept : ledger.keepsMessage 1 waiting = true := by
    simp [keepsMessage, status]
  have receipted : (ledger.receipt? "workspace" "turn").isSome = true := by
    unfold receipt?
    rw [receipts]
    decide +kernel
  have old : 1000 < ledger.recencyRank answer := by
    unfold recencyRank
    have newer : added ⊆ ledger.messages.filter fun other =>
        other.workspaceId = answer.workspaceId && answer.seq < other.seq := by
      intro message member
      obtain ⟨inWorkspace, _, above⟩ := facts message member
      refine mem_filter.mpr ⟨messages ▸ mem_append_right _ member, ?_⟩
      have later := above answer (rows ▸ by simp) answerWorkspace
      simp [inWorkspace, answerWorkspace, later]
    have bound : added.length ≤ (ledger.messages.filter fun other =>
        other.workspaceId = answer.workspaceId && answer.seq < other.seq).length := by
      rw [messages, filter_append, length_append]
      have all : added.filter (fun other => other.workspaceId = answer.workspaceId &&
          answer.seq < other.seq) = added := by
        refine filter_eq_self.mpr ?_
        intro message member
        exact (mem_filter.mp (newer member)).2
      rw [all]
      exact Nat.le_add_left _ _
    omega
  have removed : ledger.keepsMessage 1 answer = false := by
    have far : ¬ ledger.recencyRank answer ≤ protectedMessages := by
      unfold protectedMessages
      omega
    simp [keepsMessage, far, answerCreated, answerRole, answerTurn,
      answerWorkspace, answerStatus, receipted]
  refine ⟨waiting, added.filter (ledger.keepsMessage 1), ?_, id, workspace, role, status, turn, ?_⟩
  · rw [pruneApiData, messages, rows]
    simp [kept, removed]
  · intro message member
    exact (facts message (mem_of_mem_filter member)).2.1

/-- A message that is acknowledged with a turn whose answer was pruned is never settled. -/
theorem not_settled :
    ¬ ∀ (labels : List LedgerStep) (last : LedgerWorld),
      (ledgerRuns .postgres).run labels = some last →
      ∀ entry ∈ last.acknowledged,
        last.ledger.HasReceipt entry.workspaceId entry.turnId →
          ∀ message ∈ last.ledger.messages, message.messageId = entry.messageId →
            message.status = .settled := by
  intro claim
  -- The message and its answer, the others, the prune and the acknowledgement.
  have plain : ∀ message ∈ answered.ledger.messages,
      message.messageId.toList.head? ≠ some '#' := by decide +kernel
  obtain ⟨count, many⟩ : ∃ count : Nat, 1000 ≤ count := ⟨1000, Nat.le_refl _⟩
  obtain ⟨added, messages, receipts, length, facts⟩ := filled answered count (by
    intro message member index same
    have heads := congrArg (fun id => id.toList.head?) same
    exact plain message member (heads.trans (by simp [fillerId])))
  generalize filledWorld : (fillers count).foldl
    (fun world label => world.step .postgres label) answered = full
    at messages receipts
  obtain ⟨waiting, rest, kept, id, workspace, role, status, turn, users⟩ :=
    pruned_answer messages receipts (length ▸ many) fun message member =>
      have fact := facts message member
      ⟨fact.1, fact.2.1, fact.2.2.2⟩
  have found : (full.ledger.pruneApiData .postgres 1).message? "message" = some waiting := by
    simp [message?, kept, id]
  have unanswered : (full.ledger.pruneApiData .postgres 1).assistant? "workspace" "turn" = none := by
    unfold assistant?
    rw [List.find?_eq_none, kept]
    intro message member
    rcases mem_cons.mp member with rfl | isRest
    · simp [role]
    · simp [users message isRest]
  obtain ⟨acked, outcome, receipted, delivered, member, same, waits⟩ :
      ∃ acked, (full.ledger.pruneApiData .postgres 1).ackApiCommand "workspace" "message"
          (some "turn") (some "command") 2 = (true, acked) ∧
        acked.HasReceipt "workspace" "turn" ∧
        ∃ message ∈ acked.messages, message.messageId = "message" ∧
          message.status = .delivered := by
    refine ⟨(full.ledger.pruneApiData .postgres 1).reviseMessage "message" fun message =>
      { message with
        turnId := some "turn"
        status := .delivered
        deliveredAtMs := some 2 }, ?_, ?_,
      { waiting with
        turnId := some "turn"
        status := .delivered
        deliveredAtMs := some 2 }, ?_, id, rfl⟩
    · simp [ackApiCommand, found, Option.filter, workspace, role, status, turn, unanswered]
    · show ∃ receipt ∈ full.ledger.receipts, _
      rw [receipts]
      decide +kernel
    · refine Data.Table.mem_revise.mpr (.inr ⟨waiting, ?_, id, rfl⟩)
      rw [kept]
      exact mem_cons_self
  have ran : (ledgerRuns .postgres).run
      ([.append (sampleMessage "message" 0), .recordEvent sampleEvent] ++ (fillers count ++
        [.prune 1, .acknowledge "workspace" "message" "turn" (some "command") 2])) =
        some ((full.step .postgres (.prune 1)).step .postgres
          (.acknowledge "workspace" "message" "turn" (some "command") 2)) := by
    unfold TransitionSystem.run
    rw [ledgerRuns_runFrom, foldl_append, foldl_append, ← filledWorld]
    rfl
  have noted : ⟨"workspace", "turn", "message"⟩ ∈ ((full.step .postgres (.prune 1)).step
      .postgres (.acknowledge "workspace" "message" "turn" (some "command") 2)).acknowledged := by
    show _ ∈ if ((full.ledger.pruneApiData .postgres 1).ackApiCommand "workspace" "message"
      (some "turn") (some "command") 2).1 then _ else _
    rw [outcome]
    exact mem_append_right _ (mem_singleton.mpr rfl)
  have later : ((full.step .postgres (.prune 1)).step .postgres (.acknowledge "workspace"
      "message" "turn" (some "command") 2)).ledger = acked := congrArg Prod.snd outcome
  rw [← later] at receipted member
  exact absurd ((claim _ _ ran _ noted receipted _ member same).symm.trans waits) (by decide)

end Zuse.PublicApi
