import Mathlib.Data.List.Dedup
import Zuse.Client.SessionTimeline

namespace Zuse.Client

open Zuse.Data Zuse.Domain List InsertionMap TimelineItem
open SessionTimelineMessagePage (items)
open SessionTimelinePhase (noConfusion)

/-! A complete snapshot series and what a client's timeline is after it. -/

section Series

variable {κ φ ε : Type}

/-- What the server sends for a session whose rows do not change meanwhile. -/
structure CatchUpSource (κ φ : Type) where
  table : MessageTable
  decoder : MessageDecoder κ
  exceedsBudget : List (Message κ) → Bool
  rest : φ
  cursor : SessionStreamCursor

namespace CatchUpSource

variable (source : CatchUpSource κ φ)

def snapshot : SessionTimelineSnapshot κ :=
  source.table.readSnapshot source.decoder source.exceedsBudget

/-- A retained cursor of another epoch, or ahead of the stream, is reset. -/
def resets (held : Option SessionStreamCursor) : Bool :=
  ∃ retained ∈ held, retained.epoch ≠ source.cursor.epoch ∨ source.cursor.version < retained.version

def snapshotFrame : SessionTimelineFrame κ φ ε :=
  .snapshot source.cursor.version
    { messages := source.snapshot.messages
      olderMessageSequence := source.snapshot.olderMessageSequence
      runtimeObservation := none
      rest := source.rest }
    (some source.cursor) source.snapshot.olderMessageSequence
    (some source.snapshot.totalMessageCount) false

def chunkFrame (page : SessionTimelineMessagePage κ) : SessionTimelineFrame κ φ ε :=
  .snapshotChunk source.cursor.version (page.items.map TimelineItem.message)
    page.olderMessageSequence (some source.cursor)

def series (held : Option SessionStreamCursor) : Option (List (SessionTimelineFrame κ φ ε)) :=
  (source.table.snapshotHistory source.decoder source.snapshot).map fun pages =>
    (if source.resets held then [.resetRequired source.cursor] else []) ++
      source.snapshotFrame :: (pages.map source.chunkFrame ++
        [.synchronized source.cursor.version (some source.cursor)])

def durable : List (Message κ) :=
  (source.table.readable source.decoder).map TimelineItem.message

end CatchUpSource

variable (ε) in
/-- The series ends live and keeps the optimistic messages that are not durable. -/
def CatchesUp [TimelineDomain κ φ ε] (source : CatchUpSource κ φ)
    (state : SessionTimelineState κ φ) : Prop :=
  ∃ frames : List (SessionTimelineFrame κ φ ε), source.series state.cursor = some frames ∧
    let final := frames.foldl (fun state frame => reduceSessionTimelineFrame state frame) state
    final.phase = .live ∧
      ∀ message ∈ state.optimistic.messages, message.id ∉ source.durable.map Message.id →
        ∃ projection ∈ final.projection, message.id ∈ projection.messages.map Message.id

end Series

section Assembly

variable {κ : Type}

theorem keys_filed (messages : List (Message κ)) (key : String) (value : Message κ) :
    (messages.foldl (fun map message => map.set message.id message)
      (InsertionMap.empty : InsertionMap String (Message κ))).get? key = some value →
        value.id = key := by
  have general (map : InsertionMap String (Message κ))
      (filed : ∀ key value, map.get? key = some value → value.id = key) :
      ∀ key value, (messages.foldl (fun map message => map.set message.id message) map).get?
        key = some value → value.id = key := by
    induction messages generalizing map with
    | nil => exact filed
    | cons message messages ih =>
      refine ih _ fun key value found => ?_
      rw [get?_set] at found
      split at found
      next same => exact Option.some.inj found ▸ same
      next => exact filed key value found
  exact general .empty (fun _ _ none => by cases none) key value

theorem byId_distinct (messages : List (Message κ)) : ((byId messages).map Message.id).Nodup := by
  rw [byId, values_map_key (keys_filed messages)]
  exact keys_nodup _

variable {id : String}

theorem mem_byId {messages : List (Message κ)} :
    id ∈ (byId messages).map Message.id ↔ id ∈ messages.map Message.id := by
  have general (map : InsertionMap String (Message κ)) :
      id ∈ (messages.foldl (fun map message => map.set message.id message) map).keys ↔
        id ∈ map.keys ∨ id ∈ messages.map Message.id := by
    induction messages generalizing map with
    | nil => simp
    | cons message messages ih =>
      rw [foldl_cons, ih, InsertionMap.mem_keys, InsertionMap.mem_keys]
      by_cases same : message.id = id
      · simp [same]
      · simp [same, Ne.symm same]
  rw [byId, values_map_key (keys_filed messages), general]
  simp [InsertionMap.mem_keys]

def prependPages (pages : List (SessionTimelineMessagePage κ)) (shown : List (Message κ)) :
    List (Message κ) :=
  pages.foldl (fun shown page =>
    if page.items.map TimelineItem.message = [] then shown
    else byId (page.items.map TimelineItem.message ++ shown)) shown

variable {pages : List (SessionTimelineMessagePage κ)} {shown : List (Message κ)}

theorem mem_prependPages :
    id ∈ (prependPages pages shown).map Message.id ↔
      id ∈ ((pages.reverse.flatMap items).map
          TimelineItem.message).map Message.id ∨ id ∈ shown.map Message.id := by
  induction pages generalizing shown with
  | nil => simp [prependPages]
  | cons page pages ih =>
    have step : prependPages (page :: pages) shown = prependPages pages
        (if page.items.map message = [] then shown
        else byId (page.items.map message ++ shown)) := rfl
    rw [step, ih]
    split
    next none =>
      have empty := map_eq_nil_iff.mp none
      simp [empty]
    next =>
      rw [mem_byId, reverse_cons, flatMap_append, map_append,
        map_append, map_append, mem_append, mem_append]
      simp only [flatMap_cons, flatMap_nil, append_nil]
      tauto

theorem prependPages_nothing (nothing : pages.reverse.flatMap items = [])
    (shown : List (Message κ)) : prependPages pages shown = shown := by
  induction pages with
  | nil => rfl
  | cons page pages ih =>
    rw [reverse_cons, flatMap_append, append_eq_nil_iff] at nothing
    have empty : page.items = [] := by simpa using nothing.2
    have step : prependPages (page :: pages) shown = prependPages pages
        (if page.items.map message = [] then shown
        else byId (page.items.map message ++ shown)) := rfl
    rw [step, empty]
    exact ih nothing.1

theorem prependPages_distinct
    (some_ : pages.reverse.flatMap items ≠ [] ∨ (shown.map Message.id).Nodup) :
    ((prependPages pages shown).map Message.id).Nodup := by
  induction pages generalizing shown with
  | nil => simpa [prependPages] using some_
  | cons page pages ih =>
    have step : prependPages (page :: pages) shown = prependPages pages
        (if page.items.map message = [] then shown
        else byId (page.items.map message ++ shown)) := rfl
    rw [step]
    split
    next none =>
      have empty := map_eq_nil_iff.mp none
      rw [reverse_cons, flatMap_append, flatMap_cons, empty] at some_
      exact ih (by simpa using some_)
    next => exact ih (.inr (byId_distinct _))

end Assembly

section Reduction

variable {κ φ ε : Type} (source : CatchUpSource κ φ) (state : SessionTimelineState κ φ)

def Awaits : Prop :=
  state.phase ≠ .deleted ∧
    (source.resets state.cursor = true ∨ state.resetEpoch = none ∨
      state.resetEpoch = some source.cursor.epoch)

/-- The messages of older pages that a head refresh at the same cursor keeps. -/
def keptPages : List (Message κ) :=
  match state.projection with
  | none => []
  | some previous =>
    if state.resetEpoch = none ∧ state.cursor = some source.cursor ∧
        source.snapshot.olderMessageSequence ≠ none then
      previous.messages.take ((previous.messages.findIdx? fun message =>
        some message.id = source.snapshot.messages.head?.map Message.id).getD 0)
    else []

/-- The optimistic messages that neither the head nor a kept page holds. -/
def retainedOptimistic : List (Message κ) :=
  (state.optimistic.without fun message =>
    message.id ∈ (keptPages source state ++ source.snapshot.messages).map Message.id).values

def besideHead : List (Message κ) := keptPages source state ++ retainedOptimistic source state

/-- How many messages are shown that the server does not read. A page that holds a message
merges those of one id. -/
def surplus : Nat :=
  if source.durable.length = source.snapshot.messages.length then
    (besideHead source state).length
  else
    (((besideHead source state).map Message.id).dedup.filter fun id =>
      id ∉ source.durable.map Message.id).length

variable {source state}

def entered (source : CatchUpSource κ φ) (state : SessionTimelineState κ φ) :
    SessionTimelineState κ φ :=
  if source.resets state.cursor then reduceResetRequired state source.cursor else state

theorem entered_optimistic : (entered source state).optimistic = state.optimistic := by
  unfold entered reduceResetRequired
  split
  · split <;> rfl
  · rfl

theorem resets_iff {held : SessionStreamCursor} (isHeld : state.cursor = some held) :
    source.resets state.cursor = true ↔
      held.epoch ≠ source.cursor.epoch ∨ source.cursor.version < held.version := by
  simp [CatchUpSource.resets, isHeld]

theorem entered_preserves (next : SessionTimelineProjection κ φ)
    (head : next.messages = source.snapshot.messages)
    (older : next.olderMessageSequence = source.snapshot.olderMessageSequence) :
    (preserveSessionTimelineHistory
      (if (entered source state).resetEpoch = none then (entered source state).projection
        else none)
      (entered source state).cursor next source.cursor).messages =
        keptPages source state ++ source.snapshot.messages := by
  by_cases reset : source.resets state.cursor = true
  · have elsewhere : state.cursor ≠ some source.cursor := by
      intro same
      have differs := (resets_iff same).mp reset
      simp at differs
    have pending : (entered source state).resetEpoch ≠ none := by
      unfold entered reduceResetRequired
      rw [if_pos reset]
      split
      next same => simp [same]
      next => simp
    have none_ : keptPages source state = [] := by
      unfold keptPages
      cases state.projection with
      | none => rfl
      | some previous => simp [elsewhere]
    rw [if_neg pending, none_, ← head]
    rfl
  · have same : entered source state = state := if_neg reset
    rw [same]
    unfold keptPages preserveSessionTimelineHistory
    by_cases pending : state.resetEpoch = none
    · rw [if_pos pending]
      cases state.projection with
      | none => exact head
      | some previous =>
        by_cases here : state.cursor = some source.cursor ∧
            source.snapshot.olderMessageSequence ≠ none
        · have kept : ¬(state.cursor ≠ some source.cursor ∨
              next.olderMessageSequence = none) := by
            rw [older]
            tauto
          simp only [if_neg kept, if_pos (And.intro pending here), head]
          split
          next found =>
            rw [found]
            simp [head]
          next found =>
            rw [found]
            simp [head]
          next index _ found =>
            rw [found]
            simp
        · have drops : state.cursor ≠ some source.cursor ∨
              next.olderMessageSequence = none := by
            rw [older]
            tauto
          have none_ : ¬(state.resetEpoch = none ∧ state.cursor = some source.cursor ∧
              source.snapshot.olderMessageSequence ≠ none) := fun all => here all.2
          simp only [if_pos drops, if_neg none_, head, nil_append]
    · rw [if_neg pending]
      have none_ : ¬(state.resetEpoch = none ∧ state.cursor = some source.cursor ∧
          source.snapshot.olderMessageSequence ≠ none) := fun all => pending all.1
      cases state.projection with
      | none => exact head
      | some previous => simp [none_, head]

structure Assembling (source : CatchUpSource κ φ) (messages : List (Message κ))
    (state : SessionTimelineState κ φ) : Prop where
  phase : state.phase = .synchronizing
  cursor : state.cursor = some source.cursor
  resetEpoch : state.resetEpoch = none
  count : state.snapshotMessageCount = some source.table.rows.length
  shows : ∃ projection, state.projection = some projection ∧ projection.messages = messages

theorem assembling_snapshot [TimelineDomain κ φ ε] (awaits : Awaits source state) :
    Assembling source
      (keptPages source state ++ source.snapshot.messages ++ retainedOptimistic source state)
      (reduceSessionTimelineFrame (entered source state)
        (source.snapshotFrame : SessionTimelineFrame κ φ ε)) := by
  have present : (entered source state).phase ≠ .deleted := by
    unfold entered reduceResetRequired
    split
    · split
      · exact awaits.1
      · exact noConfusion
    · exact awaits.1
  have pending : ¬∃ epoch ∈ (entered source state).resetEpoch, source.cursor.epoch ≠ epoch := by
    rintro ⟨epoch, isPending, differs⟩
    unfold entered reduceResetRequired at isPending
    split at isPending
    · split at isPending
      next same =>
        rw [same] at isPending
        exact differs (Option.some.inj isPending)
      next => exact differs (Option.some.inj isPending)
    next unreset =>
      rcases awaits.2 with reset | none | same
      · exact unreset reset
      · rw [none] at isPending
        cases isPending
      · rw [same] at isPending
        exact differs (Option.some.inj isPending)
  have held (retained : SessionStreamCursor) (unpending : (entered source state).resetEpoch = none)
      (isHeld : (entered source state).cursor = some retained) :
      retained.epoch = source.cursor.epoch ∧ ¬source.cursor.version < retained.version := by
    by_cases reset : source.resets state.cursor = true
    · unfold entered reduceResetRequired at unpending
      rw [if_pos reset] at unpending
      split at unpending
      next same => cases same.symm.trans unpending
      next => cases unpending
    have same : entered source state = state := if_neg reset
    rw [same] at isHeld
    rw [resets_iff isHeld] at reset
    obtain ⟨sameEpoch, notBehind⟩ := not_or.mp reset
    exact ⟨Decidable.not_not.mp sameEpoch, notBehind⟩
  have sameEpoch : ¬((entered source state).resetEpoch = none ∧
      ∃ retained ∈ (entered source state).cursor, source.cursor.epoch ≠ retained.epoch) := by
    rintro ⟨unpending, retained, isHeld, differs⟩
    exact differs (held retained unpending isHeld).1.symm
  have notAhead : ¬((entered source state).resetEpoch = none ∧
      ∃ retained ∈ (entered source state).cursor,
        retained.epoch = source.cursor.epoch ∧ source.cursor.version < retained.version) := by
    rintro ⟨unpending, retained, isHeld, _, ahead⟩
    exact (held retained unpending isHeld).2 ahead
  have preserved := @entered_preserves κ φ source state
    { messages := source.snapshot.messages
      olderMessageSequence :=
        source.snapshot.olderMessageSequence.or source.snapshot.olderMessageSequence
      runtimeObservation := none
      rest := source.rest } rfl (Option.or_self)
  unfold reduceSessionTimelineFrame
  rw [if_neg present]
  unfold CatchUpSource.snapshotFrame reduceSnapshot
  simp only
  split
  next differs => exact absurd rfl differs
  split
  next elsewhere => exact absurd elsewhere pending
  split
  next elsewhere => exact absurd elsewhere sameEpoch
  split
  next ahead => exact absurd ahead notAhead
  refine ⟨rfl, rfl, rfl, rfl, _, rfl, ?_⟩
  change (preserveSessionTimelineHistory _ _ _ source.cursor).messages ++
    ((entered source state).optimistic.without fun message =>
      message.id ∈ (preserveSessionTimelineHistory _ _ _ source.cursor).messages.map
        Message.id).values = _
  rw [preserved, entered_optimistic]
  rfl

section

variable {messages : List (Message κ)} (assembling : Assembling source messages state)
include assembling

theorem assembling_chunk [TimelineDomain κ φ ε] (page : SessionTimelineMessagePage κ) :
    Assembling source
      (if page.items.map TimelineItem.message = [] then messages
        else byId (page.items.map TimelineItem.message ++ messages))
      (reduceSessionTimelineFrame state (source.chunkFrame page : SessionTimelineFrame κ φ ε)) := by
  obtain ⟨phase, cursor, resetEpoch, count, projection, shown, rfl⟩ := assembling
  have accepted : reduceSessionTimelineFrame state
      (source.chunkFrame page : SessionTimelineFrame κ φ ε) =
        prependSessionTimelineMessages state (page.items.map message)
          page.olderMessageSequence := by
    simp [reduceSessionTimelineFrame, CatchUpSource.chunkFrame, reduceSnapshotChunk,
      cursorForFrame, phase, cursor, shown]
  rw [accepted, prependSessionTimelineMessages, shown]
  exact ⟨phase, cursor, resetEpoch, count, _, rfl, rfl⟩

theorem assembling_chunks [TimelineDomain κ φ ε] (pages : List (SessionTimelineMessagePage κ)) :
    Assembling source (prependPages pages messages)
      ((pages.map (source.chunkFrame : _ → SessionTimelineFrame κ φ ε)).foldl
        (fun state frame => reduceSessionTimelineFrame state frame) state) := by
  induction pages generalizing state messages with
  | nil => exact assembling
  | cons page pages ih => exact ih (assembling_chunk assembling page)

theorem assembling_synchronized [TimelineDomain κ φ ε] :
    let final := reduceSessionTimelineFrame state
      (.synchronized source.cursor.version (some source.cursor) : SessionTimelineFrame κ φ ε)
    (final.phase = .live ↔ messages.length = source.table.rows.length) ∧
      ∃ projection ∈ final.projection, projection.messages = messages := by
  obtain ⟨phase, cursor, resetEpoch, count, projection, shown, rfl⟩ := assembling
  by_cases complete : projection.messages.length = source.table.rows.length
  · simp [reduceSessionTimelineFrame, reduceSynchronized, cursorForFrame, phase, cursor,
      resetEpoch, count, shown, complete]
  · simp [reduceSessionTimelineFrame, reduceSynchronized, cursorForFrame, phase, cursor,
      resetEpoch, count, shown, complete, invalidCursorState]

end

theorem length_assembled {pages : List (SessionTimelineMessagePage κ)}
    (complete : (pages.reverse.flatMap items).map
      TimelineItem.message ++ source.snapshot.messages = source.durable) :
    (prependPages pages (keptPages source state ++ source.snapshot.messages ++
      retainedOptimistic source state)).length = source.durable.length + surplus source state := by
  have lengths := congrArg List.length complete
  rw [length_append, length_map] at lengths
  by_cases nothing : pages.reverse.flatMap items = []
  · rw [nothing, length_nil, Nat.zero_add] at lengths
    rw [prependPages_nothing nothing, surplus, if_pos lengths.symm, besideHead]
    simp only [length_append]
    omega
  have more := length_pos_of_ne_nil nothing
  rw [surplus, if_neg (by omega)]
  have ids := congrArg (List.map Message.id) complete
  have distinct : ((prependPages pages (keptPages source state ++
      source.snapshot.messages ++ retainedOptimistic source state)).map
        Message.id).Nodup := prependPages_distinct (.inl nothing)
  have durable : (source.durable.map Message.id).Nodup := by
    rw [CatchUpSource.durable, map_map]
    exact source.table.readable_distinct
  have same : ((prependPages pages (keptPages source state ++ source.snapshot.messages ++
      retainedOptimistic source state)).map Message.id).Perm
      (source.durable.map Message.id ++
        ((besideHead source state).map Message.id).dedup.filter fun id =>
          id ∉ source.durable.map Message.id) := by
    refine (perm_ext_iff_of_nodup distinct ?_).mpr fun id => ?_
    · rw [nodup_append]
      refine ⟨durable, (nodup_dedup _).filter _, ?_⟩
      intro left among right beside equal
      have absent := (mem_filter.mp beside).2
      simp only [decide_not, Bool.not_eq_true', decide_eq_false_iff_not] at absent
      exact absent (equal ▸ among)
    rw [mem_prependPages, mem_append, mem_filter, mem_dedup, ← ids, besideHead]
    simp only [map_append, mem_append, decide_not, Bool.not_eq_true',
      decide_eq_false_iff_not]
    tauto
  have counted := same.length_eq
  rw [length_append, length_map, length_map] at counted
  exact counted

variable {epoch : String}

theorem synchronized_pending [TimelineDomain κ φ ε]
    (present : state.phase ≠ .deleted) (pending : state.resetEpoch = some epoch)
    (version : Nat) (cursor : Option SessionStreamCursor) :
    (reduceSessionTimelineFrame state
      (.synchronized version cursor : SessionTimelineFrame κ φ ε)).phase = .stale := by
  unfold reduceSessionTimelineFrame reduceSynchronized
  simp only [if_neg present]
  split
  · rw [if_pos (by simp [pending])]
    rfl
  · rfl

theorem stale_of_pending [TimelineDomain κ φ ε]
    (present : state.phase ≠ .deleted) (pending : state.resetEpoch = some epoch)
    (elsewhere : epoch ≠ source.cursor.epoch) (pages : List (SessionTimelineMessagePage κ)) :
    (((source.snapshotFrame : SessionTimelineFrame κ φ ε) ::
      (pages.map source.chunkFrame ++
        [.synchronized source.cursor.version (some source.cursor)])).foldl
          (fun state frame => reduceSessionTimelineFrame state frame) state).phase ≠ .live := by
  have chunks (current : SessionTimelineState κ φ) (phase : current.phase ≠ .deleted)
      (still : current.resetEpoch = some epoch) :
      let last := (pages.map (source.chunkFrame : _ → SessionTimelineFrame κ φ ε)).foldl
        (fun state frame => reduceSessionTimelineFrame state frame) current
      last.phase ≠ .deleted ∧ last.resetEpoch = some epoch := by
    induction pages generalizing current with
    | nil => exact ⟨phase, still⟩
    | cons page pages ih =>
      refine ih _ ?_ ?_
      · unfold reduceSessionTimelineFrame CatchUpSource.chunkFrame reduceSnapshotChunk
        simp only [if_neg phase]
        split
        · exact noConfusion
        · unfold prependSessionTimelineMessages
          split <;> exact phase
      unfold reduceSessionTimelineFrame CatchUpSource.chunkFrame reduceSnapshotChunk
      simp only [if_neg phase]
      split
      · exact still
      · unfold prependSessionTimelineMessages
        split <;> exact still
  have rejected : reduceSessionTimelineFrame state
      (source.snapshotFrame : SessionTimelineFrame κ φ ε) =
        invalidCursorState state
          ("Expected reset snapshot for epoch " ++ epoch ++
            ", received " ++ source.cursor.epoch) := by
    simp [reduceSessionTimelineFrame, CatchUpSource.snapshotFrame, reduceSnapshot,
      cursorForFrame, present, pending, Ne.symm elsewhere]
  rw [foldl_cons, foldl_append, rejected]
  obtain ⟨phase, still⟩ := chunks (invalidCursorState state
    ("Expected reset snapshot for epoch " ++ epoch ++ ", received " ++ source.cursor.epoch))
    noConfusion pending
  rw [foldl_cons, foldl_nil, synchronized_pending phase still]
  exact noConfusion

theorem foldl_deleted [TimelineDomain κ φ ε] (deleted : state.phase = .deleted)
    (frames : List (SessionTimelineFrame κ φ ε)) :
    frames.foldl (fun state frame => reduceSessionTimelineFrame state frame) state = state := by
  induction frames with
  | nil => rfl
  | cons frame frames ih =>
    have same : reduceSessionTimelineFrame state frame = state := by
      unfold reduceSessionTimelineFrame
      rw [if_pos deleted]
    rw [foldl_cons, same]
    exact ih

theorem foldl_resets [TimelineDomain κ φ ε] (present : state.phase ≠ .deleted) :
    (if source.resets state.cursor then
        [(.resetRequired source.cursor : SessionTimelineFrame κ φ ε)] else []).foldl
      (fun state frame => reduceSessionTimelineFrame state frame) state =
        entered source state := by
  unfold entered
  split
  · unfold reduceSessionTimelineFrame
    simp only [foldl_cons, foldl_nil, if_neg present]
  · rfl

theorem final_of_awaits [TimelineDomain κ φ ε] (awaits : Awaits source state)
    {pages : List (SessionTimelineMessagePage κ)}
    (complete : (pages.reverse.flatMap items).map
      TimelineItem.message ++ source.snapshot.messages = source.durable) :
    let final := ((source.snapshotFrame : SessionTimelineFrame κ φ ε) ::
      (pages.map source.chunkFrame ++
        [.synchronized source.cursor.version (some source.cursor)])).foldl
          (fun state frame => reduceSessionTimelineFrame state frame) (entered source state)
    (final.phase = .live ↔ surplus source state = (source.table.unreadable source.decoder).length) ∧
      ∀ message ∈ state.optimistic.messages,
        ∃ projection ∈ final.projection, message.id ∈ projection.messages.map Message.id := by
  intro final
  have assembled := assembling_chunks (ε := ε) (assembling_snapshot (ε := ε) awaits) pages
  have barrier := assembling_synchronized (ε := ε) assembled
  have isFinal : final = reduceSessionTimelineFrame
      ((pages.map (source.chunkFrame : _ → SessionTimelineFrame κ φ ε)).foldl
        (fun state frame => reduceSessionTimelineFrame state frame)
        (reduceSessionTimelineFrame (entered source state)
          (source.snapshotFrame : SessionTimelineFrame κ φ ε)))
      (.synchronized source.cursor.version (some source.cursor) : SessionTimelineFrame κ φ ε) := by
    simp only [final, foldl_cons, foldl_append, foldl_nil]
  rw [← isFinal, length_assembled complete] at barrier
  obtain ⟨live, projection, shown, messages⟩ := barrier
  have rows := @MessageTable.length_readable κ source.table source.decoder
  have durable : source.durable.length = (source.table.readable source.decoder).length :=
    length_map _
  refine ⟨live.trans (by omega), ?_⟩
  intro message member
  refine ⟨projection, shown, ?_⟩
  rw [messages, mem_prependPages]
  by_cases already : message.id ∈
      (keptPages source state ++ source.snapshot.messages).map Message.id
  · rw [map_append]
    exact .inr (mem_append_left _ already)
  · have retained : message ∈ retainedOptimistic source state :=
      OptimisticOverlay.mem_values.mpr (mem_filter.mpr ⟨member, by simpa using already⟩)
    rw [map_append]
    exact .inr (mem_append_right _ (mem_map_of_mem retained))

/-- Exactly when a complete catch-up ends live. -/
theorem catchesUp_iff [TimelineDomain κ φ ε] (source : CatchUpSource κ φ)
    (state : SessionTimelineState κ φ) :
    CatchesUp ε source state ↔ Awaits source state ∧
      surplus source state = (source.table.unreadable source.decoder).length := by
  obtain ⟨pages, history, complete⟩ :=
    @MessageTable.readSnapshot_complete κ source.table source.decoder source.exceedsBudget
  have series : source.series state.cursor =
      some ((if source.resets state.cursor then
        [(.resetRequired source.cursor : SessionTimelineFrame κ φ ε)] else []) ++
        source.snapshotFrame :: (pages.map source.chunkFrame ++
          [.synchronized source.cursor.version (some source.cursor)])) := by
    unfold CatchUpSource.series CatchUpSource.snapshot
    rw [history, Option.map_some]
  unfold CatchesUp
  rw [series]
  by_cases deleted : state.phase = .deleted
  · constructor
    · rintro ⟨frames, isFrames, live, _⟩
      rw [foldl_deleted deleted, deleted] at live
      cases live
    · rintro ⟨awaits, _⟩
      exact absurd deleted awaits.1
  by_cases awaits : Awaits source state
  · have final := @final_of_awaits κ φ ε source state _ awaits pages complete
    constructor
    · rintro ⟨frames, isFrames, live, _⟩
      cases isFrames
      rw [foldl_append, foldl_resets deleted] at live
      exact ⟨awaits, final.1.mp live⟩
    · rintro ⟨_, balanced⟩
      refine ⟨_, rfl, ?_⟩
      rw [foldl_append, foldl_resets deleted]
      exact ⟨final.1.mpr balanced, fun message member _ => final.2 message member⟩
  · constructor
    · rintro ⟨frames, isFrames, live, _⟩
      cases isFrames
      unfold Awaits at awaits
      push Not at awaits
      obtain ⟨unreset, some_, elsewhere⟩ := awaits deleted
      obtain ⟨epoch, pending⟩ := Option.ne_none_iff_exists'.mp some_
      have same : entered source state = state := if_neg unreset
      rw [foldl_append, foldl_resets deleted, same] at live
      rw [pending] at elsewhere
      have differs : epoch ≠ source.cursor.epoch := fun equal =>
        elsewhere (congrArg some equal)
      exact absurd live (stale_of_pending deleted pending differs pages)
    · rintro ⟨isAwaiting, _⟩
      exact absurd isAwaiting awaits

end Reduction

section Prompted

instance textTimeline : TimelineDomain String Unit Empty where
  activeAttemptId _ := none
  applyTimelineEvent projection _ := projection
  persistedMessageId := Empty.elim

def prompt : Message String where
  id := "prompt"
  sessionId := "session"
  role := .user
  content := "hello"
  createdAt := 0

def promptedState : SessionTimelineState String Unit :=
  { restoreSessionTimelineState
      (some
        { messages := [prompt], olderMessageSequence := none, runtimeObservation := none
          rest := () })
      (some { epoch := "epoch", version := 1 }) with
    optimistic := OptimisticOverlay.empty.set prompt }

def emptySession : CatchUpSource String Unit where
  table :=
    { sessionId := "session", rows := [], ordered := List.Pairwise.nil
      distinct := nodup_nil, bounded := forall_mem_nil _ }
  decoder := { decodeContent := some, decodeRole := fun _ => some .user }
  exceedsBudget := fun _ => false
  rest := ()
  cursor := { epoch := "epoch", version := 1 }

theorem not_catchesUp :
    ¬ ∀ (source : CatchUpSource String Unit) (state : SessionTimelineState String Unit),
      state.phase ≠ .deleted → state.resetEpoch = none → CatchesUp Empty source state := by
  intro claim
  have ran : (emptySession.series (ε := Empty) promptedState.cursor).all (fun frames =>
      (frames.foldl (fun state frame => reduceSessionTimelineFrame state frame)
        promptedState).phase ≠ .live) = true := by
    decide +kernel
  obtain ⟨frames, sent, live, _⟩ :=
    claim emptySession promptedState noConfusion rfl
  rw [sent, Option.all_some, decide_eq_true_eq] at ran
  exact ran live

end Prompted

end Zuse.Client
