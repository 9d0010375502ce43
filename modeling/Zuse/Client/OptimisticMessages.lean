import Zuse.Client.SessionTimeline
import Zuse.Data.InsertionMap

namespace Zuse.Client

open Zuse.Data Zuse.Domain List OptimisticOverlay Option

/-! Messages a client shows before they are durable, against a client that shows none. -/

inductive TimelineEvent (κ ε : Type) where
  | messagePersisted (message : Message κ) (turnId : Option String)
  | transcriptRolledBack (removedMessageIds rolledBackTurnIds : List String)
      (rolledBackAt : Option Int)
  | other (event : ε)

/-- What the domain's reducer makes of all but the messages. -/
class TimelineRest (κ φ ε : Type) where
  activeAttemptId : φ → Option String
  applyRest : List (Message κ) → φ → TimelineEvent κ ε → φ

section Model

variable {κ φ ε : Type}

def persistMessage (messages : List (Message κ)) (message : Message κ) : List (Message κ) :=
  match messages.findIdx? fun other => other.id = message.id with
  | none => messages ++ [message]
  | some index => messages.set index message

def applyMessages (messages : List (Message κ)) : TimelineEvent κ ε → List (Message κ)
  | .messagePersisted message _ => persistMessage messages message
  | .transcriptRolledBack removedMessageIds _ _ =>
    messages.filter fun message => message.id ∉ removedMessageIds
  | .other _ => messages

instance timelineDomain [TimelineRest κ φ ε] : TimelineDomain κ φ (TimelineEvent κ ε) where
  activeAttemptId := TimelineRest.activeAttemptId κ ε
  applyTimelineEvent projection event :=
    { projection with
      messages := applyMessages projection.messages event
      rest := TimelineRest.applyRest projection.messages projection.rest event }
  persistedMessageId
    | .messagePersisted message _ => some message.id
    | _ => none

/-- Records the messages a projection shows that the state does not hold as they are. -/
def observeOptimisticTimelineProjection [DecidableEq κ] (state : SessionTimelineState κ φ)
    (projection : SessionTimelineProjection κ φ) (historyPrepend : Bool) :
    SessionTimelineState κ φ :=
  let previous := (state.projection.map SessionTimelineProjection.messages).getD []
  let historyBoundary :=
    if historyPrepend then
      (previous.head?.bind fun first =>
        projection.messages.findIdx? fun message => message.id = first.id).getD 0
    else 0
  let changed := (projection.messages.drop historyBoundary).filter fun message =>
    previous.reverse.find? (fun other => other.id = message.id) ≠ some message
  { state with
    projection := some
      { projection with
        runtimeObservation :=
          state.projection.bind SessionTimelineProjection.runtimeObservation }
    optimistic := changed.foldl OptimisticOverlay.set state.optimistic }

end Model

section Overlay

variable {κ φ ε : Type}

/-- Messages in the order in which a record lists them. -/
def InRecordOrder (messages : List (Message κ)) : Prop :=
  messages.Pairwise fun left right => ∀ index ∈ arrayIndex right.id,
    ∃ earlier ∈ arrayIndex left.id, earlier ≤ index

variable {overlay : OptimisticOverlay κ}

theorem OptimisticOverlay.values_eq
    (ordered : InRecordOrder overlay.messages) : overlay.values = overlay.messages := by
  have sorted : (overlay.messages.filter fun message =>
      (arrayIndex message.id).isSome).Pairwise fun left right =>
        (arrayIndex left.id).getD 0 ≤ (arrayIndex right.id).getD 0 := by
    refine (ordered.filter _).imp_of_mem fun {left right} _ member before => ?_
    obtain ⟨index, isIndex⟩ := isSome_iff_exists.mp (mem_filter.mp member).2
    obtain ⟨earlier, isEarlier, least⟩ := before index isIndex
    rw [isIndex, isEarlier]
    exact least
  rw [values, sorted.insertionSort_eq]
  generalize overlay.messages = messages at ordered
  induction messages with
  | nil => rfl
  | cons message rest ih =>
    obtain ⟨first, others⟩ := pairwise_cons.mp ordered
    cases isIndex : arrayIndex message.id with
    | some index => simpa [isIndex] using ih others
    | none =>
      have late : ∀ other ∈ rest, arrayIndex other.id = none := by
        intro other member
        by_contra some
        obtain ⟨index, isOther⟩ := ne_none_iff_exists'.mp some
        obtain ⟨earlier, isEarlier, -⟩ := first other member index isOther
        cases isIndex.symm.trans isEarlier
      have front : rest.filter (fun other => (arrayIndex other.id).isSome) = [] :=
        filter_eq_nil_iff.mpr fun other member => by simp [late other member]
      have back : rest.filter (fun other => (arrayIndex other.id).isNone) = rest :=
        filter_eq_self.mpr fun other member => by simp [late other member]
      simp [isIndex, front, back]

def OptimisticOverlay.ids (overlay : OptimisticOverlay κ) : List String :=
  overlay.messages.map Message.id

theorem OptimisticOverlay.set_fresh {message : Message κ} (fresh : message.id ∉ overlay.ids) :
    (overlay.set message).messages = overlay.messages ++ [message] :=
  if_neg fresh

theorem OptimisticOverlay.foldl_set {overlay : OptimisticOverlay κ}
    {messages : List (Message κ)} (distinct : (messages.map Message.id).Nodup)
    (fresh : ∀ message ∈ messages, message.id ∉ overlay.ids) :
    (messages.foldl OptimisticOverlay.set overlay).messages = overlay.messages ++ messages := by
  induction messages generalizing overlay with
  | nil => exact (append_nil _).symm
  | cons message rest ih =>
    obtain ⟨once, others⟩ := nodup_cons.mp distinct
    have first := set_fresh (fresh message (.head _))
    rw [foldl_cons, ih others, first, append_assoc, singleton_append]
    intro other member
    rw [ids, first, map_append, mem_append, not_or]
    refine ⟨fresh other (.tail _ member), fun same => once ?_⟩
    exact mem_singleton.mp same ▸ mem_map_of_mem member

/-- A message appended to a projection is recorded, and no other. -/
theorem observe_appended [DecidableEq κ] {state : SessionTimelineState κ φ}
    {projection : SessionTimelineProjection κ φ} {optimistic : List (Message κ)}
    (shown : state.projection = some projection) (bare : state.optimistic.messages = [])
    (distinct : ((projection.messages ++ optimistic).map Message.id).Nodup) :
    (observeOptimisticTimelineProjection state
      { projection with messages := projection.messages ++ optimistic }
      false).optimistic.messages = optimistic := by
  rw [map_append, nodup_append] at distinct
  obtain ⟨known, fresh, apart⟩ := distinct
  have old : projection.messages.filter (fun message =>
      projection.messages.reverse.find? (fun other => other.id = message.id) ≠
        some message) = [] := by
    refine filter_eq_nil_iff.mpr fun message member => ?_
    cases found : projection.messages.reverse.find? (fun other => other.id = message.id) with
    | none =>
      have absent := find?_eq_none.mp found message (mem_reverse.mpr member)
      simp at absent
    | some other =>
      have same : other.id = message.id := by simpa using find?_some found
      have isOther := mem_reverse.mp (mem_of_find?_eq_some found)
      simp [inj_on_of_nodup_map known isOther member same]
  have new : optimistic.filter (fun message =>
      projection.messages.reverse.find? (fun other => other.id = message.id) ≠
        some message) = optimistic := by
    refine filter_eq_self.mpr fun message member => ?_
    have absent : projection.messages.reverse.find? (fun other => other.id = message.id) =
        none := by
      refine find?_eq_none.mpr fun other isOther same => ?_
      exact apart other.id (mem_map_of_mem (mem_reverse.mp isOther)) message.id
        (mem_map_of_mem member) (of_decide_eq_true same)
    simp [absent]
  simp only [observeOptimisticTimelineProjection, shown, map_some, getD_some,
    Bool.false_eq_true, if_false, drop_zero, filter_append]
  rw [old, new, nil_append, foldl_set fresh, bare, nil_append]
  simp [ids, bare]

end Overlay

section Converge

variable {κ φ ε : Type} {plain state : SessionTimelineState κ φ}

/-- A client shows what one without optimistic messages does, and its own after that. -/
structure Shows (plain state : SessionTimelineState κ φ) : Prop where
  cursor : state.cursor = plain.cursor
  resetEpoch : state.resetEpoch = plain.resetEpoch
  present : state.phase ≠ .deleted ∧ plain.phase ≠ .deleted
  bare : plain.optimistic.messages = []
  ordered : InRecordOrder state.optimistic.messages
  messages : ∃ shown durable, state.projection = some shown ∧ plain.projection = some durable ∧
    shown.messages = durable.messages ++ state.optimistic.messages ∧
    shown.olderMessageSequence = durable.olderMessageSequence ∧
    ∀ pending ∈ state.optimistic.messages, pending.id ∉ durable.messages.map Message.id

theorem Shows.invalid (shows : Shows plain state) (message other : String) :
    Shows (invalidCursorState plain message) (invalidCursorState state other) :=
  ⟨shows.cursor, shows.resetEpoch, ⟨nofun, nofun⟩, shows.bare, shows.ordered, shows.messages⟩

/-- An event that leaves the pending messages after the durable ones: while some are pending, it
persists the first of them or a message that is durable already, and rolls none of them back. -/
def InOrder (shown : List (Message κ)) (overlay : OptimisticOverlay κ) : TimelineEvent κ ε → Prop
  | .messagePersisted message _ =>
    overlay.messages = [] ∨
      (∃ pending ∈ overlay.messages.head?, pending.id = message.id) ∨
        message.id ∈ shown.map Message.id ∧ message.id ∉ overlay.ids
  | .transcriptRolledBack removed _ _ => ∀ id ∈ removed, id ∉ overlay.ids
  | .other _ => True

/-- A frame whose event is in order, or a snapshot that does not refresh the held version from
a pending message on. -/
def Orderly (state : SessionTimelineState κ φ) : SessionTimelineFrame κ φ (TimelineEvent κ ε) → Prop
  | .event _ event _ =>
    ∀ shown ∈ state.projection, InOrder shown.messages state.optimistic event
  | .snapshot throughVersion projection cursor _ _ _ =>
    state.cursor = some (cursorForFrame state throughVersion cursor) →
      ∀ first ∈ projection.messages.head?, first.id ∉ state.optimistic.ids
  | _ => True

def SessionTimelineFrame.isServed : SessionTimelineFrame κ φ ε → Bool
  | .event .. | .snapshot .. => true
  | _ => false

def pendingAfter (overlay : OptimisticOverlay κ) (event : TimelineEvent κ ε) :
    OptimisticOverlay κ :=
  match event with
  | .messagePersisted message _ => overlay.without fun pending => pending.id = message.id
  | _ => overlay

theorem persistMessage_durable {durable pending : List (Message κ)} {message : Message κ}
    (known : message.id ∈ durable.map Message.id) :
    persistMessage (durable ++ pending) message = persistMessage durable message ++ pending := by
  obtain ⟨other, member, same⟩ := mem_map.mp known
  cases found : durable.findIdx? fun other => other.id = message.id with
  | none =>
    have absent := findIdx?_eq_none_iff.mp found other member
    exact absurd same (of_decide_eq_false absent)
  | some index =>
    have below := (findIdx?_eq_some_iff_getElem.mp found).1
    rw [persistMessage, persistMessage, findIdx?_append, found]
    exact set_append_left _ _ below

theorem persistMessage_pending {durable rest : List (Message κ)} {pending message : Message κ}
    (absent : message.id ∉ durable.map Message.id) (same : pending.id = message.id) :
    persistMessage (durable ++ pending :: rest) message =
      persistMessage durable message ++ rest := by
  have missing : durable.findIdx? (fun other => other.id = message.id) = none := by
    rw [findIdx?_eq_none_iff]
    exact fun other member => decide_eq_false fun isSame =>
      absent (isSame ▸ mem_map_of_mem member)
  rw [persistMessage, persistMessage, findIdx?_append, missing, findIdx?_cons]
  simp [same]

theorem ids_persistMessage (messages : List (Message κ)) (message : Message κ) {id : String}
    (member : id ∈ (persistMessage messages message).map Message.id) :
    id = message.id ∨ id ∈ messages.map Message.id := by
  obtain ⟨other, isOther, rfl⟩ := mem_map.mp member
  rw [persistMessage] at isOther
  split at isOther
  · rcases mem_concat.mp isOther with old | new
    · exact .inr (mem_map_of_mem old)
    · exact .inl (congrArg _ (new))
  · rcases mem_or_eq_of_mem_set isOther with old | rfl
    · exact .inr (mem_map_of_mem old)
    · exact .inl rfl

/-- An event in order moves the durable messages and leaves what is pending after them. -/
theorem applyMessages_pending {durable : List (Message κ)} {overlay : OptimisticOverlay κ}
    {event : TimelineEvent κ ε}
    (apart : ∀ pending ∈ overlay.messages, pending.id ∉ durable.map Message.id)
    (inOrder : InOrder (durable ++ overlay.messages) overlay event) :
    applyMessages (durable ++ overlay.messages) event =
        applyMessages durable event ++ (pendingAfter overlay event).messages ∧
      ∀ pending ∈ (pendingAfter overlay event).messages,
        pending.id ∉ (applyMessages durable event).map Message.id := by
  cases event with
  | other event => exact ⟨rfl, apart⟩
  | transcriptRolledBack removed turnIds rolledBackAt =>
    have kept : overlay.messages.filter (fun message => message.id ∉ removed) =
        overlay.messages := filter_eq_self.mpr fun pending member =>
      decide_eq_true fun gone => inOrder pending.id gone (mem_map_of_mem member)
    refine ⟨?_, fun pending member inside => apart pending member ?_⟩
    · rw [applyMessages, filter_append, kept]
      rfl
    · exact (filter_sublist.map _).subset inside
  | messagePersisted message turnId =>
    have later : ∀ pending ∈ (pendingAfter overlay (.messagePersisted message turnId :
        TimelineEvent κ ε)).messages,
        pending.id ∉ (persistMessage durable message).map Message.id := by
      intro pending member inside
      obtain ⟨isPending, different⟩ := mem_filter.mp member
      rcases ids_persistMessage durable message inside with same | known
      · simp [same] at different
      · exact apart pending isPending known
    refine ⟨?_, later⟩
    by_cases known : message.id ∈ durable.map Message.id
    · have kept : overlay.messages.filter (fun pending => !decide (pending.id = message.id)) =
          overlay.messages := filter_eq_self.mpr fun pending member => by
        have different : pending.id ≠ message.id :=
          fun same => apart pending member (same.symm ▸ known)
        simpa using different
      exact (persistMessage_durable known).trans (congrArg _ kept.symm)
    obtain ⟨messages, distinct⟩ := overlay
    rcases inOrder with rfl | ⟨pending, first, same⟩ | ⟨shown, settled⟩
    · simp [applyMessages, pendingAfter, without]
    · cases messages with
      | nil => cases first
      | cons head rest =>
        obtain rfl : head = pending := some.inj first
        obtain ⟨once, -⟩ := nodup_cons.mp distinct
        have kept : (head :: rest).filter
            (fun pending => !decide (pending.id = message.id)) = rest := by
          rw [filter_cons_of_neg (by simp [same])]
          refine filter_eq_self.mpr fun other member => ?_
          have different : other.id ≠ message.id := fun isSame =>
            once (mem_map.mpr ⟨other, member, isSame.trans same.symm⟩)
          simpa using different
        exact (persistMessage_pending known same).trans (congrArg _ kept.symm)
    · rw [map_append, mem_append] at shown
      exact absurd shown (not_or.mpr ⟨known, settled⟩)

theorem preserve_eq {shown durable : SessionTimelineProjection κ φ}
    {overlay : OptimisticOverlay κ} (messages : shown.messages =
      durable.messages ++ overlay.messages)
    (older : shown.olderMessageSequence = durable.olderMessageSequence)
    (held : Option SessionStreamCursor) (next : SessionTimelineProjection κ φ)
    (cursor : SessionStreamCursor)
    (begins : held = some cursor → ∀ first ∈ next.messages.head?, first.id ∉ overlay.ids) :
    preserveSessionTimelineHistory (some shown) held next cursor =
      preserveSessionTimelineHistory (some durable) held next cursor := by
  unfold preserveSessionTimelineHistory
  dsimp only
  split
  · rfl
  rename_i same
  have isHeld := not_not.mp (not_or.mp same).1
  have missing : overlay.messages.findIdx?
      (fun message => decide (some message.id = next.messages.head?.map Message.id)) =
        none := by
    rw [findIdx?_eq_none_iff]
    intro pending member
    refine decide_eq_false fun isFirst => ?_
    obtain ⟨first, isHead, sameId⟩ := map_eq_some_iff.mp isFirst.symm
    exact begins isHeld first isHead (sameId ▸ mem_map_of_mem member)
  rw [messages, older, findIdx?_append, missing, map_none, or_none]
  split
  · rfl
  · rfl
  · rename_i index _ found
    have below := (findIdx?_eq_some_iff_getElem.mp found).1
    rw [take_append_of_le_length (Nat.le_of_lt below)]

theorem Shows.snapshot (shows : Shows plain state) {throughVersion : Nat}
    {projection : SessionTimelineProjection κ φ} {cursor : Option SessionStreamCursor}
    {older total : Option Nat} {background : Bool}
    (orderly : state.cursor = some (cursorForFrame state throughVersion cursor) →
      ∀ first ∈ projection.messages.head?, first.id ∉ state.optimistic.ids) :
    Shows (reduceSnapshot plain throughVersion projection cursor older total background)
      (reduceSnapshot state throughVersion projection cursor older total background) := by
  have sameCursor : cursorForFrame plain throughVersion cursor =
      cursorForFrame state throughVersion cursor := by
    rw [cursorForFrame, cursorForFrame, shows.cursor]
  unfold reduceSnapshot
  simp only [sameCursor, ← shows.cursor, ← shows.resetEpoch]
  split
  · exact shows.invalid _ _
  split
  · exact shows.invalid _ _
  split
  · exact shows.invalid _ _
  split
  · exact shows
  obtain ⟨shown, durable, isShown, isDurable, messages, sameOlder, apart⟩ :=
    shows.messages
  let next := { projection with
    olderMessageSequence := older.or projection.olderMessageSequence }
  have same : preserveSessionTimelineHistory
        (if state.resetEpoch = none then state.projection else none) state.cursor next
        (cursorForFrame state throughVersion cursor) =
      preserveSessionTimelineHistory
        (if state.resetEpoch = none then plain.projection else none) state.cursor next
        (cursorForFrame state throughVersion cursor) := by
    split
    · rw [isShown, isDurable]
      exact preserve_eq messages sameOlder _ _ _ orderly
    · rfl
  rw [same]
  have ordered (durable : Message κ → Bool) :
      InRecordOrder (state.optimistic.without durable).messages := shows.ordered.filter _
  refine ⟨rfl, rfl, ⟨nofun, nofun⟩, ?_, ordered _, _, _, rfl, rfl, ?_, rfl, ?_⟩
  · simp [reconcileOptimisticMessages, without, shows.bare]
  · simp only [reconcileOptimisticMessages, values_eq (ordered _)]
    simp [values, without, shows.bare, next]
  · intro pending member
    have kept := (mem_filter.mp member).2
    simpa [reconcileOptimisticMessages, without, values,
      shows.bare] using kept

theorem Shows.event [TimelineRest κ φ ε] (shows : Shows plain state) {streamVersion : Nat}
    {event : TimelineEvent κ ε} {cursor : Option SessionStreamCursor}
    (orderly : ∀ shown ∈ state.projection, InOrder shown.messages state.optimistic event) :
    Shows (reduceEvent plain streamVersion event cursor)
      (reduceEvent state streamVersion event cursor) := by
  have sameCursor : cursorForFrame plain streamVersion cursor =
      cursorForFrame state streamVersion cursor := by
    rw [cursorForFrame, cursorForFrame, shows.cursor]
  obtain ⟨shown, durable, isShown, isDurable, messages, older, apart⟩ := shows.messages
  unfold reduceEvent
  simp only [sameCursor, ← shows.cursor, ← shows.resetEpoch, isShown, isDurable]
  split
  · exact shows.invalid _ _
  split
  · exact shows.invalid _ _
  split
  · exact shows.invalid _ _
  split
  · exact shows
  split
  · exact shows.invalid _ _
  have inOrder := orderly shown isShown
  rw [messages] at inOrder
  obtain ⟨moved, later⟩ := applyMessages_pending apart inOrder
  rw [← messages] at moved
  refine ⟨rfl, rfl, ⟨?_, ?_⟩, ?_, ?_, _, _, rfl, rfl, ?_, older, ?_⟩
  · split <;> nofun
  · split <;> nofun
  · cases event with
    | messagePersisted => exact filter_eq_nil_iff.mpr (by simp [shows.bare])
    | _ => exact shows.bare
  · cases event with
    | messagePersisted => exact shows.ordered.filter _
    | _ => exact shows.ordered
  · cases event <;> exact moved
  · cases event <;> exact later

variable {frame : SessionTimelineFrame κ φ (TimelineEvent κ ε)}

theorem Shows.reduce [TimelineRest κ φ ε] (shows : Shows plain state)
    (served : frame.isServed = true) (orderly : Orderly state frame) :
    Shows (reduceSessionTimelineFrame plain frame) (reduceSessionTimelineFrame state frame) := by
  unfold reduceSessionTimelineFrame
  rw [if_neg shows.present.1, if_neg shows.present.2]
  cases frame with
  | snapshot throughVersion projection cursor older total background =>
    exact shows.snapshot orderly
  | event streamVersion event cursor => exact shows.event orderly
  | _ => cases served

theorem ids_reduce [TimelineRest κ φ ε] (served : frame.isServed = true) :
    (reduceSessionTimelineFrame state frame).optimistic.ids ⊆ state.optimistic.ids := by
  have kept : ∀ durable, (state.optimistic.without durable).ids ⊆ state.optimistic.ids :=
    fun _ => (filter_sublist.map _).subset
  unfold reduceSessionTimelineFrame
  split
  · exact Subset.refl _
  cases frame with
  | snapshot =>
    unfold reduceSnapshot
    dsimp only
    repeat' split
    all_goals first | exact Subset.refl _ | exact kept _
  | event =>
    unfold reduceEvent
    dsimp only
    repeat' split
    all_goals first | exact Subset.refl _ | exact kept _
  | _ => cases served

variable [TimelineRest κ φ ε]

def reduceFrames (state : SessionTimelineState κ φ)
    (frames : List (SessionTimelineFrame κ φ (TimelineEvent κ ε))) :
    SessionTimelineState κ φ :=
  frames.foldl (fun state frame => reduceSessionTimelineFrame state frame) state

def EachOrderly (state : SessionTimelineState κ φ) :
    List (SessionTimelineFrame κ φ (TimelineEvent κ ε)) → Prop
  | [] => True
  | frame :: rest => Orderly state frame ∧ EachOrderly (reduceSessionTimelineFrame state frame) rest

theorem Shows.reduceFrames (shows : Shows plain state)
    {earlier later : List (SessionTimelineFrame κ φ (TimelineEvent κ ε))}
    (served : ∀ frame ∈ earlier ++ later, frame.isServed = true)
    (orderly : EachOrderly state (earlier ++ later)) :
    Shows (reduceFrames plain earlier) (reduceFrames state earlier) := by
  induction earlier generalizing plain state with
  | nil => exact shows
  | cons frame rest ih =>
    obtain ⟨first, others⟩ := forall_mem_cons.mp served
    exact ih (shows.reduce first orderly.1) others orderly.2

theorem ids_reduceFrames {frames : List (SessionTimelineFrame κ φ (TimelineEvent κ ε))}
    (served : ∀ frame ∈ frames, frame.isServed = true) :
    (reduceFrames state frames).optimistic.ids ⊆ state.optimistic.ids := by
  induction frames generalizing state with
  | nil => exact Subset.refl _
  | cons frame rest ih =>
    obtain ⟨first, others⟩ := forall_mem_cons.mp served
    exact Subset.trans (ih others) (ids_reduce first)

variable [DecidableEq κ]

/-- Once every optimistic message is durable nothing is pending, and a run in order shows what
a client without optimistic messages shows. -/
theorem optimistic_converges (state : SessionTimelineState κ φ)
    (projection : SessionTimelineProjection κ φ) (optimistic : List (Message κ))
    (frames : List (SessionTimelineFrame κ φ (TimelineEvent κ ε))) (live : state.phase = .live)
    (shown : state.projection = some projection) (bare : state.optimistic.messages = [])
    (distinct : ((projection.messages ++ optimistic).map Message.id).Nodup)
    (ordered : InRecordOrder optimistic) (served : ∀ frame ∈ frames, frame.isServed = true)
    (persisted : ∀ message ∈ optimistic, ∃ earlier later, frames = earlier ++ later ∧
      ∃ durable ∈ (reduceFrames state earlier).projection,
        message.id ∈ durable.messages.map Message.id)
    (orderly : EachOrderly (observeOptimisticTimelineProjection state
      { projection with messages := projection.messages ++ optimistic } false) frames) :
    let final := reduceFrames (observeOptimisticTimelineProjection state
      { projection with messages := projection.messages ++ optimistic } false) frames
    final.optimistic.messages = [] ∧
      final.projection.map SessionTimelineProjection.messages =
        (reduceFrames state frames).projection.map SessionTimelineProjection.messages := by
  intro final
  have pending := observe_appended shown bare distinct
  rw [map_append, nodup_append] at distinct
  have started : Shows state (observeOptimisticTimelineProjection state
      { projection with messages := projection.messages ++ optimistic } false) := by
    refine ⟨rfl, rfl, ?_, bare, ?_, _, _, rfl, shown, ?_, rfl, ?_⟩
    · exact ⟨by simp [observeOptimisticTimelineProjection, live], by simp [live]⟩
    · rw [pending]
      exact ordered
    · rw [pending]
    · rw [pending]
      intro message member known
      exact distinct.2.2 _ known _ (mem_map_of_mem member) rfl
  have empty : final.optimistic.ids = [] := by
    refine eq_nil_iff_forall_not_mem.mpr fun id member => ?_
    have known := ids_reduceFrames served member
    rw [ids, pending] at known
    obtain ⟨message, isOptimistic, rfl⟩ := mem_map.mp known
    obtain ⟨earlier, later, rfl, durable, isDurable, settled⟩ := persisted message isOptimistic
    obtain ⟨_, plain, _, isPlain, _, _, apart⟩ := (started.reduceFrames served orderly).messages
    obtain rfl : plain = durable := some.inj (isPlain.symm.trans isDurable)
    have split : final = reduceFrames (reduceFrames _ earlier) later := foldl_append
    rw [split] at member
    have still := ids_reduceFrames
      (fun frame inLater => served frame (mem_append_right _ inLater)) member
    obtain ⟨held, isHeld, same⟩ := mem_map.mp still
    exact apart held isHeld (same ▸ settled)
  have none := map_eq_nil_iff.mp empty
  have whole : EachOrderly _ (frames ++ []) := (append_nil frames).symm ▸ orderly
  obtain ⟨seen, durable, isSeen, isDurable, messages, -, -⟩ :=
    (started.reduceFrames ((append_nil frames).symm ▸ served) whole).messages
  refine ⟨none, ?_⟩
  rw [show final.projection = some seen from isSeen, isDurable, map_some, messages]
  exact congrArg some ((congrArg (durable.messages ++ ·) none).trans (append_nil _))

end Converge

section Interleaved

instance textRest : TimelineRest String Unit Empty where
  activeAttemptId _ := none
  applyRest _ rest _ := rest

def textMessage (id : String) : Message String where
  id
  sessionId := "session"
  role := .user
  content := "hello"
  createdAt := 0

def liveProjection : SessionTimelineProjection String Unit where
  messages := []
  olderMessageSequence := none
  runtimeObservation := none
  rest := ()

def liveState : SessionTimelineState String Unit :=
  { restoreSessionTimelineState (some liveProjection) (some { epoch := "epoch", version := 1 })
    with phase := .live }

def persistedFrames (first second : String) :
    List (SessionTimelineFrame String Unit (TimelineEvent String Empty)) :=
  [.event 2 (.messagePersisted (textMessage first) none) none,
    .event 3 (.messagePersisted (textMessage second) none) none]

theorem optimistic_converges_first :
    let final := reduceFrames (observeOptimisticTimelineProjection liveState
      { liveProjection with messages := [textMessage "own"] } false)
      (persistedFrames "own" "other")
    final.optimistic.messages = [] ∧
      final.projection.map SessionTimelineProjection.messages =
        (reduceFrames liveState (persistedFrames "own" "other")).projection.map
          SessionTimelineProjection.messages := by
  refine optimistic_converges liveState liveProjection [textMessage "own"]
    (persistedFrames "own" "other") rfl rfl rfl (by decide) (pairwise_singleton _ _) (by decide)
    ?_ ?_
  · intro message member
    obtain rfl := mem_singleton.mp member
    exact ⟨persistedFrames "own" "other", [], rfl, _, rfl, by decide⟩
  · refine ⟨fun shown isShown => .inr (.inl ⟨textMessage "own", by decide, rfl⟩),
      fun shown isShown => .inl (by decide), trivial⟩

/-- Another sender's message is persisted first, and stays after the optimistic one. -/
theorem not_optimistic_converges :
    ¬ ∀ (state : SessionTimelineState String Unit)
        (projection : SessionTimelineProjection String Unit) (optimistic : List (Message String))
        (frames : List (SessionTimelineFrame String Unit (TimelineEvent String Empty))),
      state.phase = .live → state.projection = some projection →
      state.optimistic.messages = [] →
      ((projection.messages ++ optimistic).map Message.id).Nodup →
      (∀ frame ∈ frames, frame.isServed = true) →
      (∀ message ∈ optimistic, ∃ earlier later, frames = earlier ++ later ∧
        ∃ durable ∈ (reduceFrames state earlier).projection,
          message.id ∈ durable.messages.map Message.id) →
      let final := reduceFrames (observeOptimisticTimelineProjection state
        { projection with messages := projection.messages ++ optimistic } false) frames
      final.optimistic.messages = [] ∧
        final.projection.map SessionTimelineProjection.messages =
          (reduceFrames state frames).projection.map SessionTimelineProjection.messages := by
  intro claim
  obtain ⟨-, same⟩ := claim liveState liveProjection [textMessage "own"]
    (persistedFrames "other" "own") rfl rfl rfl (by decide) (by decide) (by
      intro message member
      obtain rfl := mem_singleton.mp member
      exact ⟨persistedFrames "other" "own", [], rfl, _, rfl, by decide⟩)
  exact absurd same (by decide +kernel)

end Interleaved

end Zuse.Client
