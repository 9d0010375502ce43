import Mathlib.Algebra.Order.Ring.Unbundled.Rat
import Zuse.Domain.Core.Transcript
import Zuse.Domain.Projectors.MessageRows

namespace Zuse.Domain

open Zuse.Data List Option MessageFields

/-! The messages of one session in its log, in the database and with a client. -/

def messageHistory (id : String) (history : List MessageFields) : SessionEvent → List MessageFields
  | .messagePersisted message =>
    if message.messageId = id then history ++ [message] else history
  | .turnsRolledBack rollback => if id ∈ rollback.removedMessageIds then [] else history
  | _ => history

/-- What a message and its row have in common. -/
structure MessageBody where
  turnId : Option String
  role : String
  kind : String
  contentJson : String
  parentItemId : Option String
  checkpointRevision : Option Number
  checkpointFinal : Option Bool
  deriving DecidableEq

def MessageFields.body (message : MessageFields) : MessageBody where
  turnId := message.turnId
  role := message.role
  kind := message.kind
  contentJson := message.contentJson
  parentItemId := message.parentItemId
  checkpointRevision := message.checkpointRevision
  checkpointFinal := message.checkpointFinal

def MessageRow.body (row : MessageRow) : MessageBody where
  turnId := row.turnId
  role := row.role
  kind := row.kind
  contentJson := row.contentJson
  parentItemId := row.parentItemId
  checkpointRevision := row.checkpointRevision
  checkpointFinal := row.checkpointFinal

def MessageFields.checkpoint (message : MessageFields) : Option MessageCheckpointState :=
  message.checkpointRevision.map fun revision =>
    { revision, final := message.checkpointFinal = some true }

/-- Nothing follows a final checkpoint, and only a later one follows a checkpoint. -/
def Supersedes (earlier later : MessageFields) : Prop :=
  ∀ revision ∈ earlier.checkpointRevision,
    earlier.checkpointFinal ≠ some true ∧ ∃ next ∈ later.checkpointRevision, revision < next

theorem Supersedes.trans {first second third : MessageFields}
    (early : Supersedes first second) (late : Supersedes second third) :
    Supersedes first third := by
  intro revision isRevision
  obtain ⟨notFinal, next, isNext, below⟩ := early revision isRevision
  obtain ⟨_, last, isLast, above⟩ := late next isNext
  exact ⟨notFinal, last, isLast, lt_trans below above⟩

structure MessageReplicas (κ : Type u) where
  state : SessionState
  sequence : Nat
  log : List SessionEvent
  rows : MessageRows
  timeline : List (Message κ)

def SessionEvent.persistedMessage : SessionEvent → Option MessageFields
  | .messagePersisted message => some message
  | _ => none

/-- A command, and how many events of other streams were logged before it. -/
structure Dispatch where
  command : SessionCommand
  skipped : Nat

section System

variable {κ : Type u} [PayloadCodec] (decoder : MessageDecoder κ) (sessionId : String)

namespace MessageReplicas

variable (replicas : MessageReplicas κ)

def history (id : String) : List MessageFields :=
  replicas.log.foldl (messageHistory id) []

def last (id : String) : Option MessageFields := (replicas.history id).getLast?

/-- Log the events of a command, project them and show them to the client. -/
def commit (skipped : Nat) (events : List SessionEvent) : MessageReplicas κ where
  state := evolveAll replicas.state events
  sequence := replicas.sequence + skipped + events.length
  log := replicas.log ++ events
  rows := projectMessagesFrom replicas.rows (replicas.sequence + skipped + 1) events
  timeline := events.foldl (fun messages event =>
    applyTimelineEvent messages (timelineEventFromDomain decoder sessionId event))
    replicas.timeline

end MessageReplicas

def committed (state : SessionState) (command : SessionCommand) : List SessionEvent :=
  match decide state command with
  | .error _ => []
  | .ok events => events

def messageSystem : TransitionSystem (MessageReplicas κ) Dispatch where
  init :=
    { state := initialSessionState, sequence := 0, log := [], rows := .empty
      timeline := [] }
  step := fun replicas dispatch =>
    match decide replicas.state dispatch.command with
    | .error _ => none
    | .ok events => some (replicas.commit decoder sessionId dispatch.skipped events)

namespace MessageReplicas

/-- A turn is submitted with a new message, and a rollback names what it removes. -/
structure Promised (replicas : MessageReplicas κ) (dispatch : Dispatch) : Prop where
  unused : ∀ id ∈ dispatch.command.submittedMessageId, ∀ event ∈ replicas.log,
    ∀ message ∈ event.persistedMessage, message.messageId ≠ id
  exact : ∀ throughOrdinal messageSequence removedMessageIds rolledBackAt,
    dispatch.command =
        .rollbackTurns throughOrdinal messageSequence removedMessageIds rolledBackAt →
      ∀ id, id ∈ removedMessageIds ↔
        ∃ row ∈ replicas.rows.get? id, messageSequence < (row.sequence : Number)

def Keeps (_ : MessageReplicas κ) (dispatch : Dispatch) : Prop :=
  ∀ deletedAt, dispatch.command ≠ .deleteSession deletedAt

/-- A notice of the decider does not take the id of a checkpointed message. -/
def Unclaimed (replicas : MessageReplicas κ) (dispatch : Dispatch) : Prop :=
  dispatch.command.leavesNotice = true →
    ∀ event ∈ committed replicas.state dispatch.command,
      ∀ message ∈ event.persistedMessage,
        replicas.state.messageCheckpoints.get? message.messageId = none

def Readable (replicas : MessageReplicas κ) (dispatch : Dispatch) : Prop :=
  ∀ event ∈ committed replicas.state dispatch.command,
    ∀ message ∈ event.persistedMessage, (readMessage decoder sessionId message).isSome = true

section Decidable

variable (replicas : MessageReplicas κ) (dispatch : Dispatch)

omit [PayloadCodec] in
theorem promised_iff : replicas.Promised dispatch ↔
    (∀ id ∈ dispatch.command.submittedMessageId, ∀ event ∈ replicas.log,
      ∀ message ∈ event.persistedMessage, message.messageId ≠ id) ∧
    (match dispatch.command with
    | .rollbackTurns _ messageSequence removedMessageIds _ =>
      Decidable.decide (∀ id ∈ removedMessageIds ++ replicas.rows.keys, id ∈ removedMessageIds ↔
        ∃ row ∈ replicas.rows.get? id, messageSequence < (row.sequence : Number))
    | _ => true) = true := by
  obtain ⟨command, _⟩ := dispatch
  constructor
  · rintro ⟨unused, removes⟩
    refine ⟨unused, ?_⟩
    cases command with
    | rollbackTurns => exact decide_eq_true fun id _ => removes _ _ _ _ rfl id
    | _ => rfl
  · rintro ⟨unused, removes⟩
    refine ⟨unused, ?_⟩
    rintro throughOrdinal messageSequence removedMessageIds rolledBackAt rfl id
    by_cases known : id ∈ removedMessageIds ++ replicas.rows.keys
    · exact of_decide_eq_true removes id known
    obtain ⟨kept, absent⟩ := not_or.mp fun either => known (mem_append.mpr either)
    refine ⟨fun removed => absurd removed kept, ?_⟩
    rintro ⟨row, found, -⟩
    exact absurd (InsertionMap.mem_keys.mpr (isSome_iff_exists.mpr ⟨row, found⟩)) absent

instance Promised.decidable : Decidable (replicas.Promised dispatch) :=
  decidable_of_iff _ (promised_iff replicas dispatch).symm

omit [PayloadCodec] in
theorem keeps_iff : replicas.Keeps dispatch ↔
    (match dispatch.command with | .deleteSession _ => false | _ => true) = true := by
  obtain ⟨command, _⟩ := dispatch
  cases command <;> simp [Keeps]

instance Keeps.decidable : Decidable (replicas.Keeps dispatch) :=
  decidable_of_iff _ (keeps_iff replicas dispatch).symm

instance Unclaimed.decidable : Decidable (replicas.Unclaimed dispatch) :=
  inferInstanceAs (Decidable (_ → _))

end Decidable

instance Readable.decidable (replicas : MessageReplicas κ) (dispatch : Dispatch) :
    Decidable (Readable decoder sessionId replicas dispatch) :=
  decidable_of_iff
    ((committed replicas.state dispatch.command).all (fun event =>
      event.persistedMessage.all fun message =>
        (readMessage decoder sessionId message).isSome) = true)
    (by simp [Readable, Option.all_eq_true])

/-- The replicas agree on an id, and take what follows its checkpoints. -/
structure Converged (replicas : MessageReplicas κ) (id : String) : Prop where
  row : (replicas.rows.get? id).map MessageRow.body = (replicas.last id).map MessageFields.body
  message : findMessage replicas.timeline id =
    (replicas.last id).bind (readMessage decoder sessionId)
  readable : ∀ message ∈ replicas.last id, (readMessage decoder sessionId message).isSome
  revisions : ((replicas.history id).filterMap MessageFields.checkpointRevision).Pairwise (· < ·)
  sealed : ∀ earlier ∈ replicas.history id, earlier.checkpointFinal = some true →
    ∀ message : MessageFields, message.messageId = id → message.checkpointRevision.isSome →
      ∀ events, decide replicas.state (.persistMessage message) = .ok events → events = []
  versioned : ∀ earlier ∈ replicas.history id, earlier.checkpointRevision.isSome →
    ∀ message : MessageFields, message.messageId = id → message.checkpointRevision = none →
      ∀ events, decide replicas.state (.persistMessage message) = .ok events → events = []

end MessageReplicas

end System

theorem foldl_transcript {σ : Type v} {fold : σ → SessionEvent → σ}
    (quiet : ∀ state event, event.changesTranscript = false → fold state event = state)
    (events : List SessionEvent) (state : σ) :
    events.foldl fold state = (transcript events).foldl fold state := by
  induction events generalizing state with
  | nil => rfl
  | cons event rest ih =>
    rw [foldl_cons, transcript_cons, ih]
    cases changes : event.changesTranscript with
    | false => rw [quiet state event changes]; rfl
    | true => rfl

theorem messageHistory_of_quiet (id : String) (history : List MessageFields)
    (event : SessionEvent) (quiet : event.changesTranscript = false) :
    messageHistory id history event = history := by
  cases event <;> first | rfl | cases quiet

theorem projectMessages_of_quiet (rows : MessageRows) (sequence : Nat)
    (event : SessionEvent) (quiet : event.changesTranscript = false) :
    projectMessages rows sequence event = rows := by
  cases event <;> first | rfl | cases quiet

theorem applyTimelineEvent_of_quiet {κ : Type u} (decoder : MessageDecoder κ)
    (sessionId : String) (messages : List (Message κ)) (event : SessionEvent)
    (quiet : event.changesTranscript = false) :
    applyTimelineEvent messages (timelineEventFromDomain decoder sessionId event) =
      messages := by
  cases event <;> first | rfl | cases quiet

theorem messageCheckpoints_evolveAll [PayloadCodec] (events : List SessionEvent)
    (state : SessionState) :
    (evolveAll state events).messageCheckpoints =
      events.foldl checkpointsAfter state.messageCheckpoints := by
  induction events generalizing state with
  | nil => rfl
  | cons event rest ih =>
    rw [foldl_cons, ← messageCheckpoints_evolve]
    exact ih (evolve state event)

variable {events : List SessionEvent}

theorem projectMessagesFrom_nothing
    (nothing : transcript events = []) (rows : MessageRows) (sequence : Nat) :
    projectMessagesFrom rows sequence events = rows := by
  induction events generalizing sequence with
  | nil => rfl
  | cons event rest ih =>
    rw [transcript_cons] at nothing
    cases changes : event.changesTranscript with
    | true => simp [changes] at nothing
    | false =>
      simp only [changes, Bool.false_eq_true, if_false] at nothing
      rw [projectMessagesFrom, projectMessages_of_quiet rows sequence event changes]
      exact ih nothing (sequence + 1)

theorem projectMessagesFrom_once {changed : SessionEvent}
    (once : transcript events = [changed]) (rows : MessageRows) (sequence : Nat) :
    ∃ number, projectMessagesFrom rows sequence events =
      projectMessages rows number changed := by
  induction events generalizing sequence with
  | nil => cases once
  | cons event rest ih =>
    rw [transcript_cons] at once
    cases changes : event.changesTranscript with
    | true =>
      simp only [changes, if_true, List.cons.injEq] at once
      obtain ⟨rfl, nothing⟩ := once
      exact ⟨sequence, projectMessagesFrom_nothing nothing _ _⟩
    | false =>
      simp only [changes, Bool.false_eq_true, if_false] at once
      obtain ⟨number, same⟩ := ih once (sequence + 1)
      refine ⟨number, ?_⟩
      rw [projectMessagesFrom, projectMessages_of_quiet rows sequence event changes]
      exact same

section Agreement

variable {κ : Type u} {decoder : MessageDecoder κ} {sessionId : String}

/-- The checkpoint of the decider, the row and the message of the client all are those of
the last message of a history. -/
structure Agreement (decoder : MessageDecoder κ) (sessionId : String)
    (checkpoint : Option MessageCheckpointState) (row : Option MessageRow)
    (shown : Option (Message κ)) (history : List MessageFields) : Prop where
  checkpoint : checkpoint = history.getLast?.bind MessageFields.checkpoint
  row : row.map MessageRow.body = history.getLast?.map MessageFields.body
  message : shown = history.getLast?.bind (readMessage decoder sessionId)
  readable : ∀ message ∈ history, (readMessage decoder sessionId message).isSome
  paired : ∀ message ∈ history, message.checkpointRevision.isNone = message.checkpointFinal.isNone
  ordered : history.Pairwise Supersedes

theorem Agreement.absent : Agreement decoder sessionId none none none [] where
  checkpoint := rfl
  row := rfl
  message := rfl
  readable := forall_mem_nil _
  paired := forall_mem_nil _
  ordered := .nil

theorem exists_last {α : Type v} {before : α → α → Prop} {items : List α} {item : α}
    (ordered : items.Pairwise before) (member : item ∈ items) :
    ∃ last, items.getLast? = some last ∧ (item = last ∨ before item last) := by
  obtain rfl | ⟨front, last, rfl⟩ := eq_nil_or_concat items
  · cases member
  rw [concat_eq_append] at member ordered ⊢
  refine ⟨last, List.getLast?_concat, ?_⟩
  rcases mem_concat.mp member with early | late
  · exact .inr ((pairwise_append.mp ordered).2.2 item early last mem_cons_self)
  · exact .inl (late)

/-- The row after a message that the `INSERT` meets. -/
def MessageRow.upserted (sequence : Nat) (message : MessageFields) : Option MessageRow → MessageRow
  | none => .inserted sequence message
  | some stored =>
    if stored.accepts (.inserted sequence message) then
      stored.updated (.inserted sequence message)
    else stored

theorem get?_projectMessages_persisted (rows : MessageRows) (sequence : Nat)
    (message : MessageFields) (id : String) :
    (projectMessages rows sequence (.messagePersisted message)).get? id =
      if message.messageId = id then
        some (MessageRow.upserted sequence message (rows.get? message.messageId))
      else rows.get? id := by
  simp only [projectMessages]
  cases held : rows.get? message.messageId with
  | none => simp [MessageRow.upserted]
  | some stored =>
    simp only [MessageRow.upserted]
    split
    · simp
    · by_cases same : message.messageId = id
      · subst same
        simp [held]
      · simp [same]

structure Follows (history : List MessageFields) (message : MessageFields) : Prop where
  paired : message.checkpointRevision.isNone = message.checkpointFinal.isNone
  supersedes : ∀ last ∈ history.getLast?, Supersedes last message

variable {checkpoint : Option MessageCheckpointState}

variable {shown : Option (Message κ)} {history : List MessageFields}
  {message : MessageFields}

theorem Agreement.accepts {stored : MessageRow}
    (agreement : Agreement decoder sessionId checkpoint (some stored) shown history)
    (follows : Follows history message) (sequence : Nat) :
    stored.accepts (.inserted sequence message) = true := by
  have body := agreement.row
  cases isLast : history.getLast? with
  | none =>
    rw [isLast] at body
    cases body
  | some last =>
    rw [isLast, map_some, map_some, some.injEq] at body
    have revision : stored.checkpointRevision = last.checkpointRevision :=
      congrArg MessageBody.checkpointRevision body
    have final : stored.checkpointFinal = last.checkpointFinal :=
      congrArg MessageBody.checkpointFinal body
    have supersedes := follows.supersedes last isLast
    have paired := agreement.paired last (mem_of_getLast? isLast)
    simp only [MessageRow.accepts, MessageRow.inserted, revision, final,
      decide_eq_true_eq]
    cases held : last.checkpointRevision with
    | none =>
      have open_ : last.checkpointFinal = none := by
        simpa [held] using paired.symm
      refine ⟨by simp [open_], ?_⟩
      cases given : message.checkpointRevision with
      | none => exact .inl ⟨rfl, rfl⟩
      | some next => exact .inr ⟨next, rfl, fun _ none => absurd none (by simp)⟩
    | some current =>
      obtain ⟨notFinal, next, isNext, below⟩ := supersedes current held
      refine ⟨notFinal, .inr ⟨next, isNext, fun _ isCurrent => ?_⟩⟩
      cases isCurrent
      exact below

variable {row : Option MessageRow}

theorem Agreement.persisted (agreement : Agreement decoder sessionId checkpoint row shown history)
    (follows : Follows history message) (readable : (readMessage decoder sessionId message).isSome)
    (supplied : message.checkpointRevision = none → checkpoint = none) (sequence : Nat) :
    Agreement decoder sessionId (message.checkpoint.or checkpoint)
      (some (MessageRow.upserted sequence message row))
      (readMessage decoder sessionId message) (history ++ [message]) where
  checkpoint := by
    cases given : message.checkpointRevision with
    | none => simp [MessageFields.checkpoint, given, supplied given]
    | some revision => simp [MessageFields.checkpoint, given]
  row := by
    rw [List.getLast?_concat]
    cases row with
    | none => rfl
    | some stored =>
      rw [MessageRow.upserted, if_pos (agreement.accepts follows sequence)]
      rfl
  message := by
    rw [List.getLast?_concat, bind_some]
  readable := by
    intro other member
    rcases mem_concat.mp member with early | late
    · exact agreement.readable other early
    · exact late ▸ readable
  paired := by
    intro other member
    rcases mem_concat.mp member with early | late
    · exact agreement.paired other early
    · exact late ▸ follows.paired
  ordered := by
    refine pairwise_append.mpr ⟨agreement.ordered, pairwise_singleton _ _, ?_⟩
    intro earlier member later isLater
    obtain rfl := mem_singleton.mp isLater
    obtain ⟨last, isLast, same | before⟩ := exists_last agreement.ordered member
    · exact same ▸ follows.supersedes last isLast
    · exact before.trans (follows.supersedes last isLast)

theorem Agreement.follows (agreement : Agreement decoder sessionId checkpoint row shown history)
    (paired : message.checkpointRevision.isNone = message.checkpointFinal.isNone)
    (unversioned : message.checkpointRevision = none → checkpoint = none)
    (ahead : ∀ revision ∈ message.checkpointRevision, ∀ current ∈ checkpoint,
      current.final = false ∧ current.revision < revision) :
    Follows history message where
  paired := paired
  supersedes := by
    intro last isLast revision isRevision
    have held : checkpoint = some
        { revision, final := last.checkpointFinal = some true } := by
      rw [agreement.checkpoint, mem_def.mp isLast, bind_some,
        MessageFields.checkpoint, mem_def.mp isRevision, map_some]
    cases given : message.checkpointRevision with
    | none =>
      rw [unversioned given] at held
      cases held
    | some next =>
      obtain ⟨notFinal, below⟩ := ahead next given _ held
      exact ⟨by simpa using notFinal, next, rfl, below⟩

end Agreement

section Commits

variable {κ : Type u} [PayloadCodec] {decoder : MessageDecoder κ} {sessionId : String}
  {replicas : MessageReplicas κ} {events : List SessionEvent}

namespace MessageReplicas

def Agree (decoder : MessageDecoder κ) (sessionId : String) (replicas : MessageReplicas κ)
    (id : String) : Prop :=
  Agreement decoder sessionId (replicas.state.messageCheckpoints.get? id)
    (replicas.rows.get? id) (findMessage replicas.timeline id) (replicas.history id)

theorem history_commit (skipped : Nat) (id : String) :
    (replicas.commit decoder sessionId skipped events).history id =
      (transcript events).foldl (messageHistory id) (replicas.history id) := by
  rw [← foldl_transcript (messageHistory_of_quiet id)]
  exact foldl_append

theorem timeline_commit (skipped : Nat) :
    (replicas.commit decoder sessionId skipped events).timeline =
      (transcript events).foldl (fun messages event =>
        applyTimelineEvent messages (timelineEventFromDomain decoder sessionId event))
        replicas.timeline :=
  foldl_transcript (applyTimelineEvent_of_quiet decoder sessionId) events _

theorem checkpoints_commit (skipped : Nat) :
    (replicas.commit decoder sessionId skipped events).state.messageCheckpoints =
      (transcript events).foldl checkpointsAfter replicas.state.messageCheckpoints := by
  rw [← foldl_transcript fun checkpoints event quiet =>
    checkpointsAfter_of_quiet quiet checkpoints]
  exact messageCheckpoints_evolveAll events replicas.state

variable {id : String} {message : MessageFields}

omit [PayloadCodec] in
theorem mem_history {log : List SessionEvent} {history : List MessageFields}
    (member : message ∈ log.foldl (messageHistory id) history) :
    message ∈ history ∨ .messagePersisted message ∈ log ∧ message.messageId = id := by
  induction log generalizing history with
  | nil => exact .inl member
  | cons event rest ih =>
    rcases ih member with early | ⟨late, same⟩
    · cases event with
      | messagePersisted persisted =>
        simp only [messageHistory] at early
        split at early
        next same =>
          rcases mem_concat.mp early with before | rfl
          · exact .inl before
          · exact .inr ⟨mem_cons_self, same⟩
        next => exact .inl early
      | turnsRolledBack rollback =>
        simp only [messageHistory] at early
        split at early
        · cases early
        · exact .inl early
      | _ => exact .inl early
    · exact .inr ⟨mem_cons_of_mem event late, same⟩

theorem Agree.of_nothing (agree : replicas.Agree decoder sessionId id)
    (nothing : transcript events = []) (skipped : Nat) :
    (replicas.commit decoder sessionId skipped events).Agree decoder sessionId id := by
  unfold Agree
  rw [history_commit, timeline_commit, checkpoints_commit, nothing]
  have rows : (replicas.commit decoder sessionId skipped events).rows = replicas.rows :=
    projectMessagesFrom_nothing nothing _ _
  rw [rows]
  exact agree

theorem rows_commit (once : transcript events = [event]) (skipped : Nat) :
    ∃ number, (replicas.commit decoder sessionId skipped events).rows =
      projectMessages replicas.rows number event :=
  projectMessagesFrom_once once _ _

theorem Agree.of_persisted (agree : ∀ id, replicas.Agree decoder sessionId id)
    (once : transcript events = [.messagePersisted message])
    (accepts : replicas.state.Accepts message)
    (readable : (readMessage decoder sessionId message).isSome) (skipped : Nat) :
    (replicas.commit decoder sessionId skipped events).Agree decoder sessionId id := by
  unfold Agree
  obtain ⟨number, projected⟩ := rows_commit once skipped
  rw [history_commit, timeline_commit, checkpoints_commit, once, projected,
    get?_projectMessages_persisted]
  simp only [foldl_cons, foldl_nil]
  have shown : timelineEventFromDomain decoder sessionId (.messagePersisted message) =
      (readMessage decoder sessionId message).elim .noop
        (MessageTimelineEvent.messagePersisted message.turnId) := by
    simp only [timelineEventFromDomain]
    cases readMessage decoder sessionId message <;> rfl
  obtain ⟨read, isRead⟩ := isSome_iff_exists.mp readable
  have named : read.id = message.messageId := by
    unfold readMessage at isRead
    split at isRead
    · cases isRead
      rfl
    · cases isRead
  rw [shown, isRead, elim_some, findMessage_persisted, named]
  by_cases same : message.messageId = id
  · subst same
    have follows := (agree message.messageId).follows accepts.paired accepts.unversioned
      accepts.supersedes
    have kept := (agree message.messageId).persisted follows readable accepts.unversioned number
    rw [isRead] at kept
    simp only [messageHistory, if_true]
    have checkpoint : (checkpointsAfter replicas.state.messageCheckpoints
        (.messagePersisted message)).get? message.messageId =
        message.checkpoint.or (replicas.state.messageCheckpoints.get? message.messageId) := by
      simp only [checkpointsAfter, checkpoint]
      cases message.checkpointRevision <;> simp
    rw [checkpoint]
    exact kept
  · simp only [messageHistory, same, if_false]
    have checkpoint : (checkpointsAfter replicas.state.messageCheckpoints
        (.messagePersisted message)).get? id = replicas.state.messageCheckpoints.get? id := by
      simp only [checkpointsAfter]
      cases message.checkpointRevision <;> simp [same]
    rw [checkpoint]
    exact agree id

theorem Agree.of_rolledBack {rollback : TurnsRolledBackEvent}
    (agree : replicas.Agree decoder sessionId id)
    (once : transcript events = [.turnsRolledBack rollback])
    (exactly : id ∈ rollback.removedMessageIds ↔
      ∃ row ∈ replicas.rows.get? id, rollback.messageSequence < (row.sequence : Number))
    (skipped : Nat) :
    (replicas.commit decoder sessionId skipped events).Agree decoder sessionId id := by
  unfold Agree
  obtain ⟨number, projected⟩ := rows_commit once skipped
  rw [history_commit, timeline_commit, checkpoints_commit, once, projected]
  simp only [foldl_cons, foldl_nil, timelineEventFromDomain,
    findMessage_rolledBack, checkpointsAfter, messageHistory, projectMessages,
    InsertionMap.get?_filter, InsertionMap.get?_foldl_delete]
  by_cases removed : id ∈ rollback.removedMessageIds
  · obtain ⟨row, isRow, above⟩ := exactly.mp removed
    simp only [removed, if_true]
    rw [mem_def.mp isRow, filter_some, if_neg (by simpa using above)]
    exact .absent
  simp only [removed, if_false]
  have kept : (replicas.rows.get? id).filter (fun row =>
      (row.sequence : Number) ≤ rollback.messageSequence) = replicas.rows.get? id := by
    cases held : replicas.rows.get? id with
    | none => rfl
    | some row =>
      have below : (row.sequence : Number) ≤ rollback.messageSequence :=
        not_lt.mp fun above => removed (exactly.mpr ⟨row, held, above⟩)
      simp [below]
  rw [kept]
  exact agree

theorem Agree.step {dispatch : Dispatch} (agree : ∀ id, replicas.Agree decoder sessionId id)
    (promised : replicas.Promised dispatch) (keeps : replicas.Keeps dispatch)
    (unclaimed : replicas.Unclaimed dispatch)
    (readable : replicas.Readable decoder sessionId dispatch)
    (decided : decide replicas.state dispatch.command = .ok events) (id : String) :
    (replicas.commit decoder sessionId dispatch.skipped events).Agree decoder sessionId
      id := by
  have change := transcriptChange_decide decided
  have isEvent : ∀ event, transcript events = [event] →
      event ∈ committed replicas.state dispatch.command := by
    intro event once
    have member : event ∈ transcript events := by simp [once]
    rw [committed, decided]
    exact (mem_filter.mp member).1
  generalize isTranscript : transcript events = changed at change
  cases change with
  | nothing => exact (agree id).of_nothing isTranscript _
  | persisted message isCommand accepts =>
    exact .of_persisted agree isTranscript accepts
      (readable _ (isEvent _ isTranscript) message rfl) _
  | written message author revision final =>
    have free : replicas.state.messageCheckpoints.get? message.messageId = none := by
      rcases author with submitted | notice
      · have new : replicas.history message.messageId = [] := by
          refine eq_nil_iff_forall_not_mem.mpr fun earlier member => ?_
          rcases mem_history member with none | ⟨logged, same⟩
          · cases none
          · exact promised.unused _ submitted _ logged earlier rfl same
        rw [(agree message.messageId).checkpoint, new]
        rfl
      · exact unclaimed notice _ (isEvent _ isTranscript) message rfl
    refine .of_persisted agree isTranscript ⟨?_, fun _ => free, ?_⟩
      (readable _ (isEvent _ isTranscript) message rfl) _
    · simp [revision, final]
    · rw [revision]
      exact fun _ none => absurd none (not_mem_none _)
  | rolledBack rollback isCommand =>
    exact (agree id).of_rolledBack isTranscript (promised.exact _ _ _ _ isCommand id) _
  | deleted deletedAt isCommand => exact absurd isCommand (keeps deletedAt)

omit [PayloadCodec] in
theorem persistMessage_decided {state : SessionState}
    (decided : decide state (.persistMessage message) = .ok events) :
    decidePersistMessage state message = .ok events := by
  simp only [decide] at decided
  split at decided
  · cases decided
  split at decided
  · cases decided
  exact decided

omit [PayloadCodec] in
theorem Agree.converged (agree : replicas.Agree decoder sessionId id) :
    replicas.Converged decoder sessionId id where
  row := agree.row
  message := agree.message
  readable := fun message member =>
    agree.readable message (mem_of_getLast? member)
  revisions := by
    refine List.Pairwise.filterMap _ ?_ agree.ordered
    intro earlier later supersedes revision isRevision next isNext
    obtain ⟨_, _, isLater, below⟩ := supersedes revision isRevision
    obtain rfl := some.inj ((mem_def.mp isLater).symm.trans isNext)
    exact below
  sealed := by
    intro earlier member final message named versioned events decided
    have decided := persistMessage_decided decided
    obtain ⟨last, isLast, order⟩ := exists_last agree.ordered member
    have paired := agree.paired earlier member
    obtain ⟨revision, isRevision⟩ : ∃ revision, earlier.checkpointRevision = some revision := by
      rw [final] at paired
      exact ne_none_iff_exists'.mp fun none => by simp [none] at paired
    have same : earlier = last := by
      rcases order with same | before
      · exact same
      · exact absurd final (before revision isRevision).1
    have held := agree.checkpoint
    rw [isLast, ← same, bind_some, checkpoint, isRevision] at held
    unfold decidePersistMessage at decided
    split at decided
    · cases decided
    split at decided
    next none => simp [none] at versioned
    next =>
      split at decided
      · cases decided
      · rw [named, held, if_pos (by simp [final])] at decided
        cases decided
        rfl
  versioned := by
    intro earlier member versioned message named unversioned events decided
    have decided := persistMessage_decided decided
    obtain ⟨last, isLast, order⟩ := exists_last agree.ordered member
    obtain ⟨revision, isRevision⟩ := isSome_iff_exists.mp versioned
    have lastVersioned : ∃ current, last.checkpointRevision = some current := by
      rcases order with same | before
      · exact ⟨revision, same ▸ isRevision⟩
      · obtain ⟨_, next, isNext, _⟩ := before revision isRevision
        exact ⟨next, isNext⟩
    obtain ⟨current, isCurrent⟩ := lastVersioned
    have held := agree.checkpoint
    rw [isLast, bind_some, checkpoint, isCurrent, ← named] at held
    unfold decidePersistMessage at decided
    split at decided
    · cases decided
    rw [unversioned] at decided
    simp only [InsertionMap.has, held] at decided
    cases decided
    rfl

end MessageReplicas

end Commits

section Runs

variable {κ : Type u} [PayloadCodec]

theorem messages_converge (decoder : MessageDecoder κ) (sessionId : String)
    (dispatches : List Dispatch) (replicas : MessageReplicas κ)
    (each : (messageSystem decoder sessionId).EachStep
      (fun replicas dispatch => replicas.Promised dispatch ∧ replicas.Keeps dispatch ∧
        replicas.Unclaimed dispatch ∧ replicas.Readable decoder sessionId dispatch)
      (messageSystem decoder sessionId).init dispatches)
    (ran : (messageSystem decoder sessionId).run dispatches = some replicas)
    (id : String) : replicas.Converged decoder sessionId id := by
  have agree : ∀ id, replicas.Agree decoder sessionId id := by
    refine each.invariant (fun replicas => ∀ id, replicas.Agree decoder sessionId id) ?_ ran ?_
    · intro replicas dispatch next agree condition stepped
      obtain ⟨promised, keeps, unclaimed, readable⟩ := condition
      simp only [messageSystem] at stepped
      split at stepped
      · cases stepped
      next events decided =>
        cases stepped
        exact MessageReplicas.Agree.step agree promised keeps unclaimed readable decided
    · exact fun id => .absent
  exact (agree id).converged

end Runs

section Sample

def interruptedJson : String := jsonObject [("_tag", jsonString "interrupted")]

def otherModelJson : String :=
  jsonObject
    [("_tag", jsonString "model_switch"), ("fromProviderId", jsonString "codex"),
      ("fromModel", jsonString "model"),
      ("toProviderId", jsonString "codex"),
      ("toModel", jsonString "other"),
      ("context", jsonString "preserved")]

@[reducible] def interruptedCodec : PayloadCodec where
  decodeContent := fun text =>
    if text = interruptedJson then some .interrupted
    else if text = otherModelJson then some .modelSwitch
    else none
  decodeComposerInput := fun _ => none
  decodePermissionRequest := fun _ => none

def interruptedDecoder : MessageDecoder MessageContent where
  decodeContent := interruptedCodec.decodeContent
  decodeRole := decodeRole

def sampleMessage (id contentJson : String) (checkpoint : Option (Number × Bool)) :
    MessageFields where
  inputOwner := none
  messageId := id
  turnId := none
  role := "system"
  kind := "interrupted"
  contentJson
  parentItemId := none
  checkpointRevision := checkpoint.map Prod.fst
  checkpointFinal := checkpoint.map Prod.snd
  createdAt := 1

def sampleDispatches (id contentJson : String) (checkpoint : Option (Number × Bool)) :
    List Dispatch :=
  [{ command := .createSession (.plain "session") none, skipped := 0 },
    { command := .persistMessage (sampleMessage id contentJson checkpoint), skipped := 0 }]

def sampleSystem : TransitionSystem (MessageReplicas MessageContent) Dispatch :=
  @messageSystem _ interruptedCodec interruptedDecoder "session"

def SampleConverges (condition : MessageReplicas MessageContent → Dispatch → Prop) : Prop :=
  ∀ dispatches replicas, sampleSystem.EachStep condition sampleSystem.init dispatches →
    sampleSystem.run dispatches = some replicas →
      ∀ id, replicas.Converged interruptedDecoder "session" id

theorem not_converges_deleted :
    ¬ SampleConverges fun replicas dispatch => replicas.Promised dispatch ∧
      replicas.Unclaimed dispatch ∧
      replicas.Readable interruptedDecoder "session" dispatch := by
  intro claim
  let dispatches := sampleDispatches "message" interruptedJson none ++
    [{ command := .deleteSession 2, skipped := 0 }]
  have ran : ((sampleSystem.run dispatches).any fun replicas =>
      (replicas.rows.get? "message").isNone && (replicas.last "message").isSome) = true := by
    decide +kernel
  obtain ⟨replicas, reached, differs⟩ := (any_eq_true _ _).mp ran
  simp only [Bool.and_eq_true, isNone_iff_eq_none, isSome_iff_exists] at differs
  obtain ⟨noRow, last, isLast⟩ := differs
  have row := (claim dispatches replicas (by decide +kernel) reached "message").row
  rw [noRow, isLast] at row
  cases row

theorem not_converges_claimed :
    ¬ SampleConverges fun replicas dispatch => replicas.Promised dispatch ∧
      replicas.Keeps dispatch ∧
      replicas.Readable interruptedDecoder "session" dispatch := by
  intro claim
  let notice := "model-switch:session:2"
  let dispatches := sampleDispatches notice interruptedJson (some (1, false)) ++
    [{ command := .setModel "other" 2, skipped := 0 }]
  have ran : ((sampleSystem.run dispatches).any fun replicas =>
      Decidable.decide ((replicas.rows.get? notice).map MessageRow.body ≠
        (replicas.last notice).map body)) = true := by
    decide +kernel
  obtain ⟨replicas, reached, differs⟩ := (any_eq_true _ _).mp ran
  exact of_decide_eq_true differs
    (claim dispatches replicas (by decide +kernel) reached notice).row

theorem not_converges_unreadable :
    ¬ SampleConverges fun replicas dispatch => replicas.Promised dispatch ∧
      replicas.Keeps dispatch ∧ replicas.Unclaimed dispatch := by
  intro claim
  let dispatches := sampleDispatches "message" "" none
  have ran : ((sampleSystem.run dispatches).any fun replicas =>
      (replicas.last "message").any fun message =>
        (readMessage interruptedDecoder "session" message).isNone) = true := by
    decide +kernel
  obtain ⟨replicas, reached, unread⟩ := (any_eq_true _ _).mp ran
  obtain ⟨last, isLast, isNone⟩ := (any_eq_true _ _).mp unread
  have readable := (claim dispatches replicas (by decide +kernel) reached "message").readable
    last isLast
  rw [isNone_iff_eq_none] at isNone
  rw [isNone] at readable
  cases readable

/-- None of the conditions can go. -/
theorem not_messages_converge :
    (¬ SampleConverges fun replicas dispatch => replicas.Promised dispatch ∧
      replicas.Unclaimed dispatch ∧
      replicas.Readable interruptedDecoder "session" dispatch) ∧
    (¬ SampleConverges fun replicas dispatch => replicas.Promised dispatch ∧
      replicas.Keeps dispatch ∧
      replicas.Readable interruptedDecoder "session" dispatch) ∧
    ¬ SampleConverges fun replicas dispatch => replicas.Promised dispatch ∧
      replicas.Keeps dispatch ∧ replicas.Unclaimed dispatch :=
  ⟨not_converges_deleted, not_converges_claimed, not_converges_unreadable⟩

/-- A checkpoint and the final one after it; then a turn that is submitted and rolled back,
whose message is persisted again. -/
def rolledBackTurn : List Dispatch :=
  sampleDispatches "message" interruptedJson (some (1, false)) ++
    [{ command := .persistMessage (sampleMessage "message" interruptedJson (some (2, true)))
       skipped := 0 },
      { command := .submitTurn "turn" "prompt" "user" "interrupted" interruptedJson none "" 2
        skipped := 1 },
      { command := .settleTurn "turn" .completed 3, skipped := 0 },
      { command := .rollbackTurns 0 3 ["prompt"] 4, skipped := 0 },
      { command := .persistMessage (sampleMessage "prompt" interruptedJson (some (1, false)))
        skipped := 0 }]

theorem messages_converge_rolledBack :
    ∃ replicas : MessageReplicas MessageContent,
      (@messageSystem MessageContent interruptedCodec interruptedDecoder "session").run
          rolledBackTurn = some replicas ∧
        ∀ id, replicas.Converged interruptedDecoder "session" id := by
  have ran : (sampleSystem.run rolledBackTurn).isSome = true := by decide +kernel
  obtain ⟨replicas, reached⟩ := isSome_iff_exists.mp ran
  exact ⟨replicas, reached, @messages_converge _ interruptedCodec interruptedDecoder "session"
    rolledBackTurn replicas (by decide +kernel) reached⟩

end Sample

end Zuse.Domain
