import Zuse.Domain.Projectors.MessageRows

namespace Zuse.Domain

open List

theorem filter_before {α : Type u} {number : α → Nat} {front back : List α} {item : α}
    (ordered : (front ++ item :: back).Pairwise fun left right => number left < number right) :
    (front ++ item :: back).filter (fun other => number other < number item) = front := by
  obtain ⟨_, fromItem, across⟩ := pairwise_append.mp ordered
  have after := (pairwise_cons.mp fromItem).1
  have early : front.filter (fun other => number other < number item) = front :=
    filter_eq_self.mpr fun other member => by
      simpa using across other member item mem_cons_self
  have late : back.filter (fun other => number other < number item) = [] :=
    filter_eq_nil_iff.mpr fun other member => by
      simpa using Nat.le_of_lt (after other member)
  simp [filter_append, early, late]

/-- `Number.MAX_SAFE_INTEGER`, where no cursor is given. -/
def lastPageCursor : Nat := 9007199254740991

structure MessageTable where
  sessionId : String
  rows : List MessageRow
  ordered : rows.Pairwise fun left right => left.sequence < right.sequence
  distinct : (rows.map MessageRow.id).Nodup
  bounded : ∀ row ∈ rows, row.sequence < lastPageCursor

structure TimelineItem (κ : Type u) where
  message : Message κ
  sequence : Nat

structure SessionTimelineMessagePage (κ : Type u) where
  items : List (TimelineItem κ)
  olderMessageSequence : Option Nat

structure SessionTimelineSnapshot (κ : Type u) where
  messages : List (Message κ)
  olderMessageSequence : Option Nat
  totalMessageCount : Nat

def latestTimelineMessageLimit : Nat := 100

section

variable {κ : Type u} (decoder : MessageDecoder κ)

def MessageRow.timelineItem (sessionId : String) (row : MessageRow) : Option (TimelineItem κ) :=
  match decoder.decodeContent row.contentJson, decoder.decodeRole row.role with
  | some content, some role =>
    some
      { message := { id := row.id, sessionId, role, content, createdAt := row.createdAt }
        sequence := row.sequence }
  | _, _ => none

/-- Drop the oldest messages until the projection fits, and page from there. -/
def omitForBudget (exceedsBudget : List (Message κ) → Bool) :
    List (TimelineItem κ) → Option Nat → List (TimelineItem κ) × Option Nat
  | [], cursor => ([], cursor)
  | omitted :: rest, cursor =>
    if exceedsBudget ((omitted :: rest).map TimelineItem.message) then
      omitForBudget exceedsBudget rest
        (some ((rest.head?.map TimelineItem.sequence).getD (omitted.sequence + 1)))
    else (omitted :: rest, cursor)

end

namespace MessageTable

variable {κ : Type u} (table : MessageTable) (decoder : MessageDecoder κ)

def messagePage (beforeSequence : Option Nat) (limit : Nat) : List MessageRow × Option Nat :=
  let before := beforeSequence.getD lastPageCursor
  let records :=
    (table.rows.filter fun row => row.sequence < before).reverse.take (limit + 1)
  let items := (records.take limit).reverse
  (items, if limit < records.length then items.head?.map MessageRow.sequence else none)

def timelineItem (row : MessageRow) : Option (TimelineItem κ) :=
  row.timelineItem decoder table.sessionId

def readMessagePage (beforeSequence : Option Nat) : SessionTimelineMessagePage κ :=
  let page := table.messagePage beforeSequence latestTimelineMessageLimit
  { items := page.1.filterMap (table.timelineItem decoder)
    olderMessageSequence := page.2 }

def readSnapshot (exceedsBudget : List (Message κ) → Bool) : SessionTimelineSnapshot κ :=
  let page := table.readMessagePage decoder none
  let kept := omitForBudget exceedsBudget page.items page.olderMessageSequence
  { messages := kept.1.map TimelineItem.message
    olderMessageSequence := kept.2
    totalMessageCount := table.rows.length }

/-- The pages before a cursor, newest first; `none` where a page does not advance it. -/
def readHistory (beforeSequence : Nat) : Option (List (SessionTimelineMessagePage κ)) :=
  let page := table.readMessagePage decoder (some beforeSequence)
  match page.olderMessageSequence with
  | none => some [page]
  | some older =>
    if older < beforeSequence then (readHistory older).map (page :: ·) else none

def snapshotHistory (snapshot : SessionTimelineSnapshot κ) :
    Option (List (SessionTimelineMessagePage κ)) :=
  match snapshot.olderMessageSequence with
  | none => some []
  | some beforeSequence => table.readHistory decoder beforeSequence

def readable : List (TimelineItem κ) := table.rows.filterMap (table.timelineItem decoder)

def unreadable : List MessageRow :=
  table.rows.filter fun row => (table.timelineItem decoder row).isNone

/-- What can be read of the rows before a cursor, nothing where there is none. -/
def readableBefore (cursor : Option Nat) : List (TimelineItem κ) :=
  cursor.elim [] fun before => (table.readable decoder).filter fun item =>
    item.sequence < before

variable {table decoder}

theorem timelineItem_sequence {row : MessageRow} {item : TimelineItem κ}
    (read : table.timelineItem decoder row = some item) :
    item.sequence = row.sequence ∧ item.message.id = row.id := by
  unfold timelineItem MessageRow.timelineItem at read
  split at read
  · cases read
    exact ⟨rfl, rfl⟩
  · cases read

theorem readable_before (before : Nat) (rows : List MessageRow) :
    (rows.filter fun row => row.sequence < before).filterMap (table.timelineItem decoder) =
      (rows.filterMap (table.timelineItem decoder)).filter fun item =>
        item.sequence < before := by
  induction rows with
  | nil => rfl
  | cons row rows ih =>
    cases read : table.timelineItem decoder row with
    | none => by_cases early : row.sequence < before <;> simp [early, read, ih]
    | some item =>
      have same := (timelineItem_sequence read).1
      by_cases early : row.sequence < before
      · simp [early, read, same, ih]
      · simp [early, read, same, ih]

theorem readable_ordered : (table.readable decoder).Pairwise fun left right =>
    left.sequence < right.sequence := by
  refine List.Pairwise.filterMap _ ?_ table.ordered
  intro left right before leftItem readLeft rightItem readRight
  rw [(timelineItem_sequence readLeft).1, (timelineItem_sequence readRight).1]
  exact before

theorem readable_distinct : ((table.readable decoder).map fun item => item.message.id).Nodup := by
  have pairs : table.rows.Pairwise fun left right => left.id ≠ right.id :=
    pairwise_map.mp table.distinct
  refine pairwise_map.mpr (List.Pairwise.filterMap _ ?_ pairs)
  intro left right different leftItem readLeft rightItem readRight
  rw [(timelineItem_sequence readLeft).2, (timelineItem_sequence readRight).2]
  exact different

theorem length_readable :
    (table.readable decoder).length + (table.unreadable decoder).length = table.rows.length := by
  unfold readable unreadable
  induction table.rows with
  | nil => rfl
  | cons row rows ih =>
    cases read : table.timelineItem decoder row with
    | none => simp [read, ← ih, Nat.add_assoc]
    | some item => simp [read, ← ih, Nat.add_right_comm]

theorem filter_filter_before {older before : Nat} (earlier : older ≤ before)
    (rows : List MessageRow) :
    (rows.filter fun row => row.sequence < before).filter (fun row => row.sequence < older) =
      rows.filter fun row => row.sequence < older := by
  rw [filter_filter]
  refine filter_congr fun row _ => ?_
  by_cases early : row.sequence < older
  · simp [early, Nat.lt_of_lt_of_le early earlier]
  · simp [early]

theorem messagePage_split (beforeSequence : Option Nat) {limit : Nat} (positive : 0 < limit) :
    let before := beforeSequence.getD lastPageCursor
    let page := table.messagePage beforeSequence limit
    (∀ older ∈ page.2, older < before) ∧
      (table.rows.filter fun row => row.sequence < before) =
        (page.2.elim [] fun older => table.rows.filter fun row => row.sequence < older) ++
          page.1 := by
  intro before page
  have ordered : (table.rows.filter fun row => row.sequence < before).Pairwise
      fun left right => left.sequence < right.sequence := table.ordered.filter _
  have within : ∀ row ∈ table.rows.filter (fun row => row.sequence < before),
      row.sequence < before := fun row member => by simpa using (mem_filter.mp member).2
  have itemsEq : page.1 = (table.rows.filter fun row => row.sequence < before).drop
      ((table.rows.filter fun row => row.sequence < before).length - limit) := by
    change (((table.rows.filter fun row => row.sequence < before).reverse.take
      (limit + 1)).take limit).reverse = _
    rw [take_take, Nat.min_eq_left (Nat.le_succ limit), reverse_take,
      reverse_reverse, length_reverse]
  have olderEq : page.2 =
      if limit < min (limit + 1) (table.rows.filter fun row => row.sequence < before).length
      then page.1.head?.map MessageRow.sequence else none := by
    change (if limit < ((table.rows.filter fun row => row.sequence < before).reverse.take
      (limit + 1)).length then _ else none) = _
    rw [length_take, length_reverse]
    rfl
  have shrink (older : Nat) (earlier : older ≤ before) :=
    filter_filter_before earlier table.rows
  generalize (table.rows.filter fun row => row.sequence < before) = eligible at *
  by_cases all : eligible.length ≤ limit
  · rw [if_neg (by omega)] at olderEq
    rw [olderEq, itemsEq, Nat.sub_eq_zero_of_le all]
    exact ⟨fun _ none => absurd none (Option.not_mem_none _), rfl⟩
  rw [if_pos (by omega), itemsEq] at olderEq
  have bound : eligible.length - limit < eligible.length := by omega
  have cut := drop_eq_getElem_cons bound
  have whole := take_append_drop (eligible.length - limit) eligible
  rw [cut, List.head?_cons, Option.map_some] at olderEq
  rw [olderEq]
  have early := within _ (getElem_mem bound)
  refine ⟨fun older isOlder => Option.some.inj isOlder ▸ early, ?_⟩
  rw [cut] at whole
  have front := filter_before (whole.symm ▸ ordered)
  rw [whole, shrink _ (Nat.le_of_lt early)] at front
  rw [Option.elim_some, front, itemsEq, take_append_drop]

theorem readMessagePage_split (beforeSequence : Option Nat) :
    let before := beforeSequence.getD lastPageCursor
    let page := table.readMessagePage decoder beforeSequence
    (∀ older ∈ page.olderMessageSequence, older < before) ∧
      table.readableBefore decoder (some before) =
        table.readableBefore decoder page.olderMessageSequence ++ page.items := by
  have positive : 0 < latestTimelineMessageLimit := by decide
  have split := table.messagePage_split beforeSequence positive
  refine ⟨split.1, ?_⟩
  have read := congrArg (List.filterMap (table.timelineItem decoder)) split.2
  rw [filterMap_append, readable_before] at read
  have front (cursor : Option Nat) :
      (cursor.elim [] fun older => table.rows.filter fun row =>
        row.sequence < older).filterMap (table.timelineItem decoder) =
        table.readableBefore decoder cursor := by
    cases cursor with
    | none => rfl
    | some older => exact readable_before older table.rows
  rw [front] at read
  exact read

theorem readableBefore_last :
    table.readableBefore decoder (some lastPageCursor) = table.readable decoder := by
  have all : (table.rows.filter fun row => row.sequence < lastPageCursor) = table.rows :=
    filter_eq_self.mpr fun row member => by simpa using table.bounded row member
  rw [readableBefore, Option.elim_some, readable, ← readable_before, all]

theorem omitForBudget_split (exceedsBudget : List (Message κ) → Bool)
    {items : List (TimelineItem κ)} {cursor : Option Nat}
    (split : table.readable decoder = table.readableBefore decoder cursor ++ items) :
    let kept := omitForBudget exceedsBudget items cursor
    table.readable decoder = table.readableBefore decoder kept.2 ++ kept.1 := by
  induction items generalizing cursor with
  | nil => exact split
  | cons omitted rest ih =>
    rw [omitForBudget]
    split
    · apply ih
      have ordered : (table.readable decoder).Pairwise _ := table.readable_ordered
      cases rest with
      | nil =>
        have all : table.readableBefore decoder (some (omitted.sequence + 1)) =
            table.readable decoder := by
          refine filter_eq_self.mpr fun item member => ?_
          rw [split] at member ordered
          cases mem_append.mp member with
          | inl earlier =>
            have across := (pairwise_append.mp ordered).2.2
            have before := across item earlier omitted (mem_singleton_self _)
            simpa using Nat.lt_succ_of_lt before
          | inr same => simp [mem_singleton.mp same]
        rw [List.head?_nil, Option.map_none, Option.getD_none, all, append_nil]
      | cons next others =>
        rw [List.head?_cons, Option.map_some, Option.getD_some]
        have whole : table.readable decoder =
            (table.readableBefore decoder cursor ++ [omitted]) ++ next :: others := by
          rw [split, append_assoc, singleton_append]
        have front := filter_before (whole ▸ ordered)
        rw [← whole] at front
        rw [readableBefore, Option.elim_some, front, ← whole]
    · exact split

theorem readHistory_eq (beforeSequence : Nat) :
    ∃ pages, table.readHistory decoder beforeSequence = some pages ∧
      pages.reverse.flatMap SessionTimelineMessagePage.items =
        table.readableBefore decoder (some beforeSequence) := by
  induction beforeSequence using Nat.strongRecOn with
  | ind beforeSequence ih =>
    obtain ⟨earlier, split⟩ :=
      @readMessagePage_split κ table decoder (some beforeSequence)
    rw [Option.getD_some] at earlier split
    rw [readHistory]
    cases older : (table.readMessagePage decoder (some beforeSequence)).olderMessageSequence with
    | none =>
      rw [split, older]
      simp [readableBefore]
    | some cursor =>
      have before := earlier cursor older
      obtain ⟨pages, history, shown⟩ := ih cursor before
      refine ⟨table.readMessagePage decoder (some beforeSequence) :: pages, ?_, ?_⟩
      · simp [before, history]
      · rw [split, older, ← shown]
        simp

theorem readSnapshot_pages (exceedsBudget : List (Message κ) → Bool) :
    let snapshot := table.readSnapshot decoder exceedsBudget
    ∃ pages shown, table.snapshotHistory decoder snapshot = some pages ∧
      snapshot.messages = shown.map TimelineItem.message ∧
      pages.reverse.flatMap SessionTimelineMessagePage.items ++ shown = table.readable decoder := by
  intro snapshot
  have page := (@readMessagePage_split κ table decoder none).2
  rw [Option.getD_none, readableBefore_last] at page
  have split := omitForBudget_split exceedsBudget page
  change table.readable decoder = table.readableBefore decoder snapshot.olderMessageSequence ++
    (omitForBudget exceedsBudget (table.readMessagePage decoder none).items
      (table.readMessagePage decoder none).olderMessageSequence).1 at split
  rw [snapshotHistory]
  cases older : snapshot.olderMessageSequence with
  | none =>
    rw [older] at split
    exact ⟨[], _, rfl, rfl, split.symm⟩
  | some cursor =>
    obtain ⟨pages, history, before⟩ := @readHistory_eq κ table decoder cursor
    rw [older, ← before] at split
    exact ⟨pages, _, history, rfl, split.symm⟩

theorem readSnapshot_complete (exceedsBudget : List (Message κ) → Bool) :
    let snapshot := table.readSnapshot decoder exceedsBudget
    ∃ pages, table.snapshotHistory decoder snapshot = some pages ∧
      (pages.reverse.flatMap SessionTimelineMessagePage.items).map TimelineItem.message ++
        snapshot.messages = (table.readable decoder).map TimelineItem.message := by
  obtain ⟨pages, shown, history, messages, same⟩ :=
    @readSnapshot_pages κ table decoder exceedsBudget
  refine ⟨pages, history, ?_⟩
  rw [messages, ← map_append, same]

end MessageTable

/-- A row of `messages` as it is stored. -/
structure StoredMessageRow where
  id : String
  turnId : Option String
  role : String
  kind : String
  contentJson : String
  parentItemId : Option String
  createdAt : String
  sequence : Nat
  checkpointRevision : Option Number
  checkpointFinal : Option Bool

/-- The rows of a session, of the table in which each has its own sequence and id. -/
structure StoredMessages where
  sessionId : String
  rows : List StoredMessageRow
  ordered : rows.Pairwise fun left right => left.sequence < right.sequence
  distinct : (rows.map StoredMessageRow.id).Nodup
  bounded : ∀ row ∈ rows, row.sequence < lastPageCursor

/-- `dateParse` is `Date.parse`, `none` where that is not a number. -/
def StoredMessageRow.messageRecord (dateParse : String → Option Millis)
    (row : StoredMessageRow) : Except String MessageRow :=
  match dateParse row.createdAt with
  | none => .error ("invalid timestamp: " ++ row.createdAt)
  | some createdAt => .ok { row with createdAt }

namespace StoredMessages

variable {κ : Type u} (stored : StoredMessages) (dateParse : String → Option Millis)
  (decoder : MessageDecoder κ)

/-- A row with an invalid timestamp fails its page, also where it is only looked ahead at. -/
def messagePage (beforeSequence : Option Nat) (limit : Nat) :
    Except String (List MessageRow × Option Nat) :=
  let before := beforeSequence.getD lastPageCursor
  let rows := (stored.rows.filter fun row => row.sequence < before).reverse.take (limit + 1)
  (rows.mapM (StoredMessageRow.messageRecord dateParse)).map fun records =>
    let items := (records.take limit).reverse
    (items, if limit < records.length then items.head?.map MessageRow.sequence else none)

def readMessagePage (beforeSequence : Option Nat) : Except String (SessionTimelineMessagePage κ) :=
  (stored.messagePage dateParse beforeSequence latestTimelineMessageLimit).map fun page =>
    { items := page.1.filterMap (MessageRow.timelineItem decoder stored.sessionId)
      olderMessageSequence := page.2 }

def readSnapshot (exceedsBudget : List (Message κ) → Bool) :
    Except String (SessionTimelineSnapshot κ) :=
  (stored.readMessagePage dateParse decoder none).map fun page =>
    let kept := omitForBudget exceedsBudget page.items page.olderMessageSequence
    { messages := kept.1.map TimelineItem.message
      olderMessageSequence := kept.2
      totalMessageCount := stored.rows.length }

def readHistory (beforeSequence : Nat) : Except String (List (SessionTimelineMessagePage κ)) :=
  match stored.readMessagePage dateParse decoder (some beforeSequence) with
  | .error message => .error message
  | .ok page =>
    match page.olderMessageSequence with
    | none => .ok [page]
    | some older =>
      if older < beforeSequence then (readHistory older).map (page :: ·)
      else .error "Transcript pagination did not advance"

def snapshotHistory (snapshot : SessionTimelineSnapshot κ) :
    Except String (List (SessionTimelineMessagePage κ)) :=
  match snapshot.olderMessageSequence with
  | none => .ok []
  | some beforeSequence => stored.readHistory dateParse decoder beforeSequence

/-- The item that a row is to be shown as, where it can be decoded. -/
structure Decodes (row : StoredMessageRow) (item : TimelineItem κ) : Prop where
  id : item.message.id = row.id
  sessionId : item.message.sessionId = stored.sessionId
  role : decoder.decodeRole row.role = some item.message.role
  content : decoder.decodeContent row.contentJson = some item.message.content
  createdAt : dateParse row.createdAt = some item.message.createdAt
  sequence : item.sequence = row.sequence

/-- A snapshot and its pages, followed until no older one is left, show every row that can be
decoded once: each page is in order and older than all that was shown before it. -/
def VisitsOnce (exceedsBudget : List (Message κ) → Bool) : Prop :=
  ∃ snapshot pages shown,
    stored.readSnapshot dateParse decoder exceedsBudget = .ok snapshot ∧
    stored.snapshotHistory dateParse decoder snapshot = .ok pages ∧
    snapshot.messages = shown.map TimelineItem.message ∧
    (∀ item, item ∈ pages.reverse.flatMap SessionTimelineMessagePage.items ++ shown ↔
      ∃ row ∈ stored.rows, stored.Decodes dateParse decoder row item) ∧
    (pages.reverse.flatMap SessionTimelineMessagePage.items ++ shown).Pairwise
      (fun left right => left.sequence < right.sequence) ∧
    ((pages.reverse.flatMap SessionTimelineMessagePage.items ++ shown).map
      fun item => item.message.id).Nodup

/-- The row with its timestamp read. -/
def record (row : StoredMessageRow) : MessageRow :=
  { row with createdAt := (dateParse row.createdAt).getD 0 }

/-- The table of the rows with their timestamps read. -/
def table : MessageTable where
  sessionId := stored.sessionId
  rows := stored.rows.map (record dateParse)
  ordered := pairwise_map.mpr stored.ordered
  distinct := by
    rw [map_map]
    exact stored.distinct
  bounded := by
    intro row member
    obtain ⟨held, isHeld, rfl⟩ := mem_map.mp member
    exact stored.bounded held isHeld

variable {stored dateParse decoder}

variable (valid : ∀ row ∈ stored.rows, (dateParse row.createdAt).isSome)
include valid

theorem messageRecord_eq {rows : List StoredMessageRow} (subset : rows ⊆ stored.rows) :
    rows.mapM (StoredMessageRow.messageRecord dateParse) = .ok (rows.map (record dateParse)) := by
  induction rows with
  | nil => rfl
  | cons row rest ih =>
    obtain ⟨here, later⟩ := cons_subset.mp subset
    obtain ⟨createdAt, parsed⟩ := Option.isSome_iff_exists.mp (valid row here)
    rw [mapM_cons, ih later, StoredMessageRow.messageRecord, map_cons, record, parsed]
    rfl

theorem messagePage_eq (beforeSequence : Option Nat) (limit : Nat) :
    stored.messagePage dateParse beforeSequence limit =
      .ok ((stored.table dateParse).messagePage beforeSequence limit) := by
  have subset : ((stored.rows.filter fun row =>
      row.sequence < beforeSequence.getD lastPageCursor).reverse.take (limit + 1)) ⊆
        stored.rows := fun row member =>
    mem_of_mem_filter (mem_reverse.mp (mem_of_mem_take member))
  have rows : ((stored.table dateParse).rows.filter fun row =>
      row.sequence < beforeSequence.getD lastPageCursor) =
        (stored.rows.filter fun row =>
          row.sequence < beforeSequence.getD lastPageCursor).map (record dateParse) :=
    filter_map
  unfold messagePage MessageTable.messagePage
  dsimp only
  rw [messageRecord_eq valid subset, rows, ← map_reverse, ← map_take]
  rfl

theorem readMessagePage_eq (beforeSequence : Option Nat) :
    stored.readMessagePage dateParse decoder beforeSequence =
      .ok ((stored.table dateParse).readMessagePage decoder beforeSequence) := by
  rw [readMessagePage, messagePage_eq valid]
  rfl

theorem readHistory_of_table {beforeSequence : Nat} {pages : List (SessionTimelineMessagePage κ)}
    (read : (stored.table dateParse).readHistory decoder beforeSequence = some pages) :
    stored.readHistory dateParse decoder beforeSequence = .ok pages := by
  induction beforeSequence using Nat.strongRecOn generalizing pages with
  | ind beforeSequence ih =>
    rw [MessageTable.readHistory] at read
    rw [readHistory, readMessagePage_eq valid]
    cases older : ((stored.table dateParse).readMessagePage decoder
        (some beforeSequence)).olderMessageSequence with
    | none =>
      simp only [older] at read ⊢
      exact congrArg Except.ok (Option.some.inj read)
    | some cursor =>
      simp only [older] at read ⊢
      split at read
      · rename_i earlier
        obtain ⟨rest, isRest, rfl⟩ := Option.map_eq_some_iff.mp read
        rw [if_pos earlier, ih cursor earlier isRest]
        rfl
      · cases read

theorem mem_readable {item : TimelineItem κ} :
    item ∈ (stored.table dateParse).readable decoder ↔
      ∃ row ∈ stored.rows, stored.Decodes dateParse decoder row item := by
  rw [MessageTable.readable, table, mem_filterMap]
  simp only [mem_map, exists_exists_and_eq_and]
  refine exists_congr fun row => and_congr_right fun member => ?_
  obtain ⟨createdAt, parsed⟩ := Option.isSome_iff_exists.mp (valid row member)
  rw [MessageTable.timelineItem, MessageRow.timelineItem, record, parsed]
  constructor
  · intro read
    split at read
    · rename_i content role isContent isRole
      cases read
      exact ⟨rfl, rfl, isRole, isContent, parsed, rfl⟩
    · cases read
  · intro decodes
    obtain ⟨⟨id, sessionId, role, content, readAt⟩, sequence⟩ := item
    obtain ⟨rfl, rfl, isRole, isContent, isRead, rfl⟩ := decodes
    cases parsed.symm.trans isRead
    simp only [isRole, isContent]
    rfl

/-- Paging shows every row that can be decoded once where all timestamps are valid, and no
page is followed by a cursor that does not advance. -/
theorem paging_visits_once (exceedsBudget : List (Message κ) → Bool) :
    stored.VisitsOnce dateParse decoder exceedsBudget ∧
    ∀ beforeSequence page,
      stored.readMessagePage dateParse decoder (some beforeSequence) = .ok page →
        ∀ older ∈ page.olderMessageSequence, older < beforeSequence := by
  constructor
  · obtain ⟨pages, shown, history, messages, same⟩ :=
      @MessageTable.readSnapshot_pages κ (stored.table dateParse) decoder exceedsBudget
    refine ⟨(stored.table dateParse).readSnapshot decoder exceedsBudget, pages, shown, ?_, ?_,
      messages, ?_⟩
    · rw [readSnapshot, readMessagePage_eq valid, MessageTable.readSnapshot, table, length_map]
      rfl
    · rw [MessageTable.snapshotHistory] at history
      rw [snapshotHistory]
      split at history
      · exact congrArg Except.ok (Option.some.inj history)
      · exact readHistory_of_table valid history
    · rw [same]
      exact ⟨fun item => mem_readable valid, MessageTable.readable_ordered,
        MessageTable.readable_distinct⟩
  · intro beforeSequence page read
    rw [readMessagePage_eq valid] at read
    cases read
    exact (MessageTable.readMessagePage_split (some beforeSequence)).1

end StoredMessages

def sampleDateParse (text : String) : Option Millis :=
  if text = "2026-01-01T00:00:00.000Z" then some 1767225600000 else none

def sampleMessageDecoder : MessageDecoder String where
  decodeContent text := if text = "\x7b" then none else some text
  decodeRole role := if role = "user" then some .user else none

def sampleStoredRow (id contentJson createdAt : String) (sequence : Nat) : StoredMessageRow where
  id := id
  turnId := none
  role := "user"
  kind := "user"
  contentJson := contentJson
  parentItemId := none
  createdAt := createdAt
  sequence := sequence
  checkpointRevision := none
  checkpointFinal := none

def sampleStored (createdAt : String) : StoredMessages where
  sessionId := "session"
  rows :=
    [sampleStoredRow "first" "hello" "2026-01-01T00:00:00.000Z" 1,
      sampleStoredRow "broken" "\x7b" "2026-01-01T00:00:00.000Z" 2,
      sampleStoredRow "last" "bye" createdAt 5]
  ordered := by simp [sampleStoredRow]
  distinct := by simp [sampleStoredRow]
  bounded := by simp [sampleStoredRow, lastPageCursor]

/-- A snapshot of one message and the page before it show two of three rows. -/
theorem paging_visits_once_sample :
    (sampleStored "2026-01-01T00:00:00.000Z").VisitsOnce sampleDateParse sampleMessageDecoder
      fun messages => 1 < messages.length :=
  (StoredMessages.paging_visits_once (by decide) _).1

/-- One row with an invalid timestamp fails the page that all of them are on. -/
theorem not_paging_visits_once :
    ¬(sampleStored "never").VisitsOnce sampleDateParse sampleMessageDecoder fun _ => false := by
  rintro ⟨snapshot, pages, shown, read, _⟩
  have fails : (sampleStored "never").readSnapshot sampleDateParse sampleMessageDecoder
      (fun _ => false) = .error "invalid timestamp: never" := rfl
  cases fails.symm.trans read

end Zuse.Domain
