import Mathlib.Data.List.Induction
import Zuse.Data.Naming
import Zuse.Domain.Engine.Reactor

namespace Zuse.Domain

open Zuse.Data List

/-! Catch-up with any concurrency against the plan of the sequential loop. -/

variable {ε : Type u} {γ : Type v} {index : Nat} {inputs : List (ReactorDispatchInput γ)}

section Groups

theorem eq_or_mem_eraseIdx {α : Type u} {items : List α} {old item : α}
    (found : items[index]? = some old) (member : item ∈ items) :
    item = old ∨ item ∈ items.eraseIdx index := by
  obtain ⟨position, here⟩ := mem_iff_getElem?.mp member
  by_cases same : position = index
  · subst same
    exact .inl (Option.some.inj (here.symm.trans found))
  · exact .inr (mem_eraseIdx_iff_getElem?.mpr ⟨position, same, here⟩)

theorem eq_or_mem_set {α : Type u} {items : List α} {old item : α}
    (found : items[index]? = some old) (new : α) (member : item ∈ items) :
    item = old ∨ item ∈ items.set index new := by
  obtain ⟨position, here⟩ := mem_iff_getElem?.mp member
  by_cases same : index = position
  · subst same
    exact .inl (Option.some.inj (here.symm.trans found))
  · refine .inr (mem_iff_getElem?.mpr ⟨position, ?_⟩)
    rw [List.getElem?_set_ne same, here]

theorem get?_commandGroups (inputs : List (ReactorDispatchInput γ)) (key : String) :
    (commandGroups inputs).get? key =
      if onStream (·.streamId) inputs key = [] then none
      else some (onStream (·.streamId) inputs key) := by
  induction inputs using List.reverseRecOn with
  | nil => rfl
  | append_singleton inputs input ih =>
    have grouped : commandGroups (inputs ++ [input]) =
        (commandGroups inputs).set input.streamId
          (((commandGroups inputs).get? input.streamId).getD [] ++ [input]) := by
      simp [commandGroups]
    rw [grouped, onStream_append, onStream_cons]
    by_cases same : input.streamId = key
    · have had : ((commandGroups inputs).get? key).getD [] = onStream (·.streamId) inputs key := by
        rw [ih]
        split
        next isNil => exact isNil.symm
        next => rfl
      simp [same, had]
    · simpa [same] using ih

theorem mem_commandGroups {group : List (ReactorDispatchInput γ)} :
    group ∈ (commandGroups inputs).values ↔
      group ≠ [] ∧ ∃ key, group = onStream (·.streamId) inputs key := by
  rw [InsertionMap.mem_values]
  constructor
  · rintro ⟨key, found⟩
    rw [get?_commandGroups] at found
    split at found
    · cases found
    next some_ =>
      cases found
      exact ⟨some_, key, rfl⟩
  · rintro ⟨nonempty, key, isStream⟩
    refine ⟨key, ?_⟩
    rw [get?_commandGroups, ← isStream, if_neg nonempty]

end Groups

variable {cursor : Nat} {event : ReactorEvent ε} {remaining : List (ReactorEvent ε)}
  {input : ReactorDispatchInput γ}

section Plan

variable (log : ReactorLog ε) (reactor : ReactorDefinition ε γ)

def ReactorLog.plan : List (ReactorDispatchInput γ) := log.events.flatMap reactor.inputs

def ReactorLog.eventsUpTo (sequence : Nat) : List (ReactorEvent ε) :=
  log.events.filter fun event => event.sequence ≤ sequence

variable {log reactor}

theorem ReactorLog.events_eq (cursor : Nat) :
    log.events = log.eventsUpTo cursor ++ log.eventsAfter cursor := by
  have ordered := log.ordered
  unfold eventsUpTo eventsAfter
  generalize log.events = events at ordered ⊢
  induction events with
  | nil => rfl
  | cons event events ih =>
    obtain ⟨later, others⟩ := pairwise_cons.mp ordered
    by_cases passed : event.sequence ≤ cursor
    · simp [passed, Nat.not_lt.mpr passed, ← ih others]
    have allAfter : ∀ other ∈ events, cursor < other.sequence := fun other member =>
      Nat.lt_trans (Nat.lt_of_not_le passed) (later other member)
    have upTo : events.filter (fun other => other.sequence ≤ cursor) = [] :=
      filter_eq_nil_iff.mpr fun other member => by
        simpa using allAfter other member
    have after : events.filter (fun other => cursor < other.sequence) = events :=
      filter_eq_self.mpr fun other member => by simpa using allAfter other member
    simp [passed, Nat.lt_of_not_le passed, upTo, after]

theorem ReactorLog.plan_eq (cursor : Nat) :
    log.plan reactor = (log.eventsUpTo cursor).flatMap reactor.inputs ++
      (log.eventsAfter cursor).flatMap reactor.inputs := by
  rw [plan, log.events_eq cursor, flatMap_append]

theorem ReactorLog.eventsAfter_next (pending : log.eventsAfter cursor = event :: remaining) :
    cursor < event.sequence ∧ log.eventsAfter event.sequence = remaining := by
  have member : event ∈ log.eventsAfter cursor := pending ▸ mem_cons_self
  have after : cursor < event.sequence := by simpa using (mem_filter.mp member).2
  have ordered : (log.eventsAfter cursor).Pairwise _ := log.ordered.filter _
  rw [pending, pairwise_cons] at ordered
  have within : log.eventsAfter event.sequence =
      (log.eventsAfter cursor).filter fun other => event.sequence < other.sequence := by
    rw [eventsAfter, eventsAfter, filter_filter]
    refine filter_congr fun other _ => ?_
    by_cases later : event.sequence < other.sequence
    · simp [later, Nat.lt_trans after later]
    · simp [later]
  refine ⟨after, ?_⟩
  rw [within, pending, filter_cons_of_neg (by simp)]
  exact filter_eq_self.mpr fun other member => by simpa using ordered.1 other member

theorem ReactorDefinition.commandId_injective {eventId otherId : String} {other : Nat}
    (equal : reactor.commandId eventId index = reactor.commandId otherId other) :
    eventId = otherId ∧ index = other := by
  obtain ⟨named, same⟩ := colon_number_injective equal
  exact ⟨append_left_injective named, same⟩

theorem ReactorDefinition.mem_inputs (member : input ∈ reactor.inputs event) :
    ∃ index, input.commandId = reactor.commandId event.eventId index := by
  obtain ⟨index, bound, isInput⟩ := mem_mapIdx.mp member
  exact ⟨index, isInput ▸ rfl⟩

theorem ReactorDefinition.commandIds_nodup (event : ReactorEvent ε) :
    ((reactor.inputs event).map (·.commandId)).Nodup := by
  rw [inputs]
  refine pairwise_iff_getElem.mpr fun left right _ _ before same => ?_
  simp only [getElem_map, getElem_mapIdx] at same
  exact Nat.ne_of_lt before (reactor.commandId_injective same).2

theorem ReactorLog.plan_distinct : ((log.plan reactor).map (·.commandId)).Nodup := by
  rw [plan, map_flatMap, nodup_flatMap]
  refine ⟨fun event _ => reactor.commandIds_nodup event, ?_⟩
  refine (pairwise_map.mp log.distinct).imp fun {left right} different => ?_
  intro commandId inLeft inRight
  obtain ⟨first, firstMember, isFirst⟩ := mem_map.mp inLeft
  obtain ⟨second, secondMember, isSecond⟩ := mem_map.mp inRight
  obtain ⟨_, firstId⟩ := reactor.mem_inputs firstMember
  obtain ⟨_, secondId⟩ := reactor.mem_inputs secondMember
  have same := isFirst.trans isSecond.symm
  rw [firstId, secondId] at same
  exact different (reactor.commandId_injective same).1

end Plan

variable {others : List (List (ReactorDispatchInput γ))}

section Follows

variable (log : ReactorLog ε) (reactor : ReactorDefinition ε γ)

/-- The stored cursor has passed only events whose commands have taken effect. -/
structure ReactorLog.Follows (cursor : Nat) (effects : List (ReactorDispatchInput γ)) :
    Prop where
  leads : Leads (·.streamId) (log.plan reactor) effects
  covered : ∀ event ∈ log.events, event.sequence ≤ cursor → reactor.inputs event ⊆ effects
  stored : cursor = 0 ∨ ∃ event ∈ log.events, event.sequence = cursor

/-- Each group is the rest of a stream whose beginning has taken effect, and nothing is
missing from the groups. -/
structure Spread (pending effects : List (ReactorDispatchInput γ))
    (groups : List (List (ReactorDispatchInput γ))) : Prop where
  rest : ∀ group ∈ groups, ∃ key done,
    onStream (·.streamId) pending key = done ++ group ∧ done ⊆ effects
  whole : ∀ input ∈ pending, input ∈ effects ∨ ∃ group ∈ groups, input ∈ group

def CatchUp.Stands (stored : Nat) (effects : List (ReactorDispatchInput γ)) : CatchUp ε γ → Prop
  | .idle => True
  | .sequential cursor none remaining =>
    cursor = stored ∧ log.eventsAfter cursor = remaining
  | .sequential cursor (some (event, left)) remaining =>
    cursor = stored ∧ log.eventsAfter cursor = event :: remaining ∧
      ∃ done, reactor.inputs event = done ++ left ∧ done ⊆ effects
  | .concurrent cursor waiting active uncommitted =>
    cursor = stored ∧ log.eventsAfter cursor = uncommitted ∧
      Spread (uncommitted.flatMap reactor.inputs) effects (waiting ++ active)

structure ReactorWorld.Sound (world : ReactorWorld ε γ) : Prop where
  follows : log.Follows reactor world.cursor world.effects
  stands : world.catchUp.Stands log reactor world.cursor world.effects

variable {log reactor} {later : List (ReactorDispatchInput γ)}

namespace ReactorLog.Follows

variable {cursor : Nat} {effects : List (ReactorDispatchInput γ)}

variable (follows : log.Follows reactor cursor effects)
include follows

theorem passed : (log.eventsUpTo cursor).flatMap reactor.inputs ⊆ effects := by
  intro input member
  obtain ⟨event, upTo, isInput⟩ := mem_flatMap.mp member
  obtain ⟨logged, before⟩ := mem_filter.mp upTo
  exact follows.covered event logged (of_decide_eq_true before) isInput

theorem effect (more : effects ⊆ later) (leads : Leads (·.streamId) (log.plan reactor) later) :
    log.Follows reactor cursor later where
  leads
  covered := fun event member before =>
    List.Subset.trans (follows.covered event member before) more
  stored := follows.stored

theorem dispatch {before after : List (ReactorDispatchInput γ)}
    (pending : onStream (·.streamId) ((log.eventsAfter cursor).flatMap reactor.inputs)
      input.streamId = before ++ input :: after)
    (delivered : before ⊆ effects) :
    log.Follows reactor cursor (deliver (·.commandId) effects input) := by
  have planned : onStream (·.streamId) (log.plan reactor) input.streamId =
      (onStream (·.streamId) ((log.eventsUpTo cursor).flatMap reactor.inputs)
        input.streamId ++ before) ++ input :: after := by
    rw [log.plan_eq cursor, onStream_append, pending, append_assoc]
  refine follows.effect subset_deliver (follows.leads.deliver log.plan_distinct planned ?_)
  intro earlier member
  cases mem_append.mp member with
  | inl upTo => exact follows.passed (mem_onStream.mp upTo).1
  | inr pending => exact delivered pending

theorem mem_deliver (pending : input ∈ (log.eventsAfter cursor).flatMap reactor.inputs) :
    input ∈ deliver (·.commandId) effects input := by
  refine follows.leads.mem_deliver log.plan_distinct ?_
  rw [log.plan_eq cursor]
  exact mem_append_right _ pending

theorem commit (pending : log.eventsAfter cursor = event :: remaining)
    (delivered : reactor.inputs event ⊆ effects) : log.Follows reactor event.sequence effects := by
  have head : event ∈ log.eventsAfter cursor := pending ▸ mem_cons_self
  refine ⟨follows.leads, ?_, .inr ⟨event, (mem_filter.mp head).1, rfl⟩⟩
  intro other member upTo
  by_cases before : other.sequence ≤ cursor
  · exact follows.covered other member before
  have isPending : other ∈ log.eventsAfter cursor :=
    mem_filter.mpr ⟨member, by simpa using before⟩
  rw [pending, ← (log.eventsAfter_next pending).2] at isPending
  cases mem_cons.mp isPending with
  | inl same => exact same ▸ delivered
  | inr later =>
    have after := (mem_filter.mp later).2
    simp only [decide_eq_true_eq] at after
    exact absurd upTo (Nat.not_le.mpr after)

end ReactorLog.Follows

namespace Spread

variable {pending effects : List (ReactorDispatchInput γ)}
  {groups : List (List (ReactorDispatchInput γ))}

theorem commandGroups (inputs effects : List (ReactorDispatchInput γ)) :
    Spread inputs effects (Domain.commandGroups inputs).values where
  rest := fun group member => by
    obtain ⟨_, key, isStream⟩ := mem_commandGroups.mp member
    exact ⟨key, [], isStream.symm, nil_subset _⟩
  whole := fun input member => by
    have onOwn : input ∈ onStream (·.streamId) inputs input.streamId :=
      mem_onStream.mpr ⟨member, rfl⟩
    exact .inr ⟨_, mem_commandGroups.mpr ⟨ne_nil_of_mem onOwn, _, rfl⟩, onOwn⟩

theorem reorder (spread : Spread pending effects groups)
    (same : ∀ group, group ∈ others ↔ group ∈ groups) : Spread pending effects others where
  rest := fun group member => spread.rest group ((same group).mp member)
  whole := fun input member => (spread.whole input member).imp_right
    fun ⟨group, among, inGroup⟩ => ⟨group, (same group).mpr among, inGroup⟩

theorem next (spread : Spread pending effects groups) {input : ReactorDispatchInput γ}
    {inputs : List (ReactorDispatchInput γ)} (member : input :: inputs ∈ groups) :
    ∃ done, onStream (·.streamId) pending input.streamId = done ++ input :: inputs ∧
      done ⊆ effects := by
  obtain ⟨key, done, split, delivered⟩ := spread.rest _ member
  have onKey : input ∈ onStream (·.streamId) pending key :=
    split ▸ mem_append_right _ mem_cons_self
  obtain rfl := (mem_onStream.mp onKey).2
  exact ⟨done, split, delivered⟩

theorem mem_pending (spread : Spread pending effects groups)
    (member : input :: inputs ∈ groups) : input ∈ pending := by
  obtain ⟨done, split, _⟩ := spread.next member
  have onOwn : input ∈ onStream (·.streamId) pending input.streamId :=
    split ▸ mem_append_right _ mem_cons_self
  exact (mem_onStream.mp onOwn).1

theorem dispatch (spread : Spread pending effects groups) (taken : input :: inputs ∈ groups)
    (kept : ∀ group ∈ groups, group = input :: inputs ∨ group ∈ others)
    (left : inputs = [] ∨ inputs ∈ others)
    (known : ∀ group ∈ others, group = inputs ∨ group ∈ groups) (more : effects ⊆ later)
    (delivered : input ∈ later) : Spread pending later others where
  rest := fun group member => by
    cases known group member with
    | inl same =>
      obtain ⟨done, split, before⟩ := spread.next taken
      refine ⟨input.streamId, done ++ [input], ?_, ?_⟩
      · rw [split, same, append_assoc, singleton_append]
      · refine append_subset.mpr ⟨List.Subset.trans before more, ?_⟩
        intro other isInput
        exact mem_singleton.mp isInput ▸ delivered
    | inr among =>
      obtain ⟨key, done, split, before⟩ := spread.rest group among
      exact ⟨key, done, split, List.Subset.trans before more⟩
  whole := fun other member => by
    cases spread.whole other member with
    | inl took => exact .inl (more took)
    | inr waits =>
      obtain ⟨group, among, inGroup⟩ := waits
      cases kept group among with
      | inr still => exact .inr ⟨group, still, inGroup⟩
      | inl same =>
        subst same
        cases mem_cons.mp inGroup with
        | inl isInput => exact .inl (isInput ▸ delivered)
        | inr later =>
          cases left with
          | inl none => exact absurd (none ▸ later) not_mem_nil
          | inr still => exact .inr ⟨inputs, still, later⟩

end Spread

end Follows

section Steps

variable {log : ReactorLog ε} {reactor : ReactorDefinition ε γ}
  {dispatchConcurrency : Nat} {world next : ReactorWorld ε γ}

theorem ReactorWorld.cursor_commitCursor {sequence : Nat} (ahead : world.cursor < sequence) :
    (world.commitCursor sequence).cursor = sequence := by
  unfold cursor at ahead
  unfold commitCursor cursor
  cases stored : world.lastSequence with
  | none => rfl
  | some earlier =>
    rw [stored] at ahead
    exact Nat.max_eq_right (Nat.le_of_lt ahead)

namespace ReactorWorld.Sound

theorem initial : (catchUpSystem log reactor dispatchConcurrency).init.Sound log reactor where
  follows :=
    { leads := .nil
      covered := fun event member before =>
        absurd (log.positive event member) (Nat.not_lt.mpr before)
      stored := .inl rfl }
  stands := trivial

theorem begin (sound : world.Sound log reactor) :
    (world.beginCatchUp log reactor dispatchConcurrency).Sound log reactor := by
  unfold beginCatchUp
  split
  · exact ⟨sound.follows, rfl, rfl⟩
  · refine ⟨sound.follows, rfl, rfl, ?_⟩
    rw [append_nil]
    exact .commandGroups _ _

section

variable (sound : world.Sound log reactor)
include sound

variable {cursor : Nat} {event : ReactorEvent ε}

theorem dispatch_sequential
    (stands : world.catchUp = .sequential cursor (some (event, input :: inputs)) remaining) :
    Sound log reactor { world.dispatch input with
      catchUp := .sequential cursor (some (event, inputs)) remaining } := by
  have standing := sound.stands
  rw [stands] at standing
  obtain ⟨rfl, pending, done, split, delivered⟩ := standing
  have planned : (log.eventsAfter world.cursor).flatMap reactor.inputs =
      done ++ input :: (inputs ++ remaining.flatMap reactor.inputs) := by
    rw [pending, flatMap_cons, split, append_assoc, cons_append]
  have onOwn : onStream (·.streamId) ((log.eventsAfter world.cursor).flatMap reactor.inputs)
      input.streamId = onStream (·.streamId) done input.streamId ++
        input :: onStream (·.streamId) (inputs ++ remaining.flatMap reactor.inputs)
          input.streamId := by
    rw [planned, onStream_append, onStream_cons, if_pos rfl]
  have isPending : input ∈ (log.eventsAfter world.cursor).flatMap reactor.inputs :=
    planned ▸ mem_append_right _ mem_cons_self
  refine ⟨sound.follows.dispatch onOwn fun earlier member =>
    delivered (mem_onStream.mp member).1, rfl, pending, done ++ [input], ?_, ?_⟩
  · rw [split, append_assoc, singleton_append]
  · refine append_subset.mpr ⟨List.Subset.trans delivered subset_deliver, ?_⟩
    intro other isInput
    obtain rfl := mem_singleton.mp isInput
    exact sound.follows.mem_deliver isPending

variable {uncommitted : List (ReactorEvent ε)}

theorem dispatch_concurrent {waiting active : List (List (ReactorDispatchInput γ))}
    (stands : world.catchUp = .concurrent cursor waiting active uncommitted)
    (taken : input :: inputs ∈ active)
    (kept : ∀ group ∈ active, group = input :: inputs ∨ group ∈ others)
    (left : inputs = [] ∨ inputs ∈ others)
    (known : ∀ group ∈ others, group = inputs ∨ group ∈ active) :
    Sound log reactor { world.dispatch input with
      catchUp := .concurrent cursor waiting others uncommitted } := by
  have standing := sound.stands
  rw [stands] at standing
  obtain ⟨rfl, rfl, spread⟩ := standing
  have among : input :: inputs ∈ waiting ++ active := mem_append_right _ taken
  obtain ⟨done, split, delivered⟩ := spread.next among
  refine ⟨sound.follows.dispatch split delivered, rfl, rfl, ?_⟩
  refine spread.dispatch among ?_ (left.imp_right (mem_append_right _)) ?_ subset_deliver
    (sound.follows.mem_deliver (spread.mem_pending among))
  · intro group member
    cases mem_append.mp member with
    | inl waits => exact .inr (mem_append_left _ waits)
    | inr runs => exact (kept group runs).imp_right (mem_append_right _)
  · intro group member
    cases mem_append.mp member with
    | inl waits => exact .inr (mem_append_left _ waits)
    | inr runs => exact (known group runs).imp_right (mem_append_right _)

theorem commit_sequential
    (stands : world.catchUp = .sequential cursor (some (event, [])) remaining) :
    Sound log reactor { world.commitCursor event.sequence with
      catchUp := .sequential event.sequence none remaining } := by
  have standing := sound.stands
  rw [stands] at standing
  obtain ⟨rfl, pending, done, split, delivered⟩ := standing
  rw [append_nil] at split
  have passes := log.eventsAfter_next pending
  have committed := sound.follows.commit pending (split ▸ delivered)
  have cursor := world.cursor_commitCursor passes.1
  exact ⟨cursor.symm ▸ committed, cursor.symm, passes.2⟩

theorem commit_concurrent
    (stands : world.catchUp = .concurrent cursor [] [] (event :: uncommitted)) :
    Sound log reactor { world.commitCursor event.sequence with
      catchUp := .concurrent event.sequence [] [] uncommitted } := by
  have standing := sound.stands
  rw [stands] at standing
  obtain ⟨rfl, pending, spread⟩ := standing
  have delivered (input : ReactorDispatchInput γ)
      (member : input ∈ (event :: uncommitted).flatMap reactor.inputs) :
      input ∈ world.effects := by
    cases spread.whole input member with
    | inl took => exact took
    | inr waits =>
      obtain ⟨group, none, _⟩ := waits
      exact absurd none not_mem_nil
  have passes := log.eventsAfter_next pending
  have committed := sound.follows.commit pending fun input member =>
    delivered input (mem_append_left _ member)
  have cursor := world.cursor_commitCursor passes.1
  refine ⟨cursor.symm ▸ committed, cursor.symm, passes.2, ?_, ?_⟩
  · exact fun group none => absurd none not_mem_nil
  · exact fun input member => .inl (delivered input (mem_append_right _ member))

end

theorem step (sound : world.Sound log reactor) {label : CatchUpStep}
    (stepped : world.step log reactor dispatchConcurrency label = some next) :
    next.Sound log reactor := by
  cases label with
  | begin =>
    simp only [ReactorWorld.step] at stepped
    split at stepped
    · cases stepped
      exact sound.begin
    · cases stepped
  | react =>
    simp only [ReactorWorld.step] at stepped
    split at stepped
    next stands =>
      cases stepped
      have standing := sound.stands
      rw [stands] at standing
      exact ⟨sound.follows, standing.1, standing.2, [], rfl, nil_subset _⟩
    next => cases stepped
  | take =>
    simp only [ReactorWorld.step] at stepped
    split at stepped
    next group waiting active _ stands =>
      split at stepped
      · cases stepped
        have standing := sound.stands
        rw [stands] at standing
        refine ⟨sound.follows, standing.1, standing.2.1, standing.2.2.reorder ?_⟩
        simp only [mem_append, mem_cons, not_mem_nil, or_false]
        tauto
      · cases stepped
    next => cases stepped
  | dispatch fiber =>
    simp only [ReactorWorld.step] at stepped
    split at stepped
    next stands =>
      cases stepped
      exact sound.dispatch_sequential stands
    next waiting active uncommitted stands =>
      split at stepped
      next input found =>
        cases stepped
        exact sound.dispatch_concurrent stands (mem_of_getElem? found)
          (fun group member => eq_or_mem_eraseIdx found member) (.inl rfl)
          fun group member => .inr (mem_of_mem_eraseIdx member)
      next input inputs _ found =>
        cases stepped
        have bound := (List.getElem?_eq_some_iff.mp found).1
        exact sound.dispatch_concurrent stands (mem_of_getElem? found)
          (fun group member => eq_or_mem_set found inputs member) (.inr (mem_set bound inputs))
          fun group member => (mem_or_eq_of_mem_set member).symm
      next => cases stepped
    next => cases stepped
  | commit =>
    simp only [ReactorWorld.step] at stepped
    split at stepped
    next stands =>
      cases stepped
      exact sound.commit_sequential stands
    next stands =>
      cases stepped
      exact sound.commit_concurrent stands
    next => cases stepped
  | finish =>
    simp only [ReactorWorld.step] at stepped
    split at stepped
    · cases stepped
      exact ⟨sound.follows, trivial⟩
    · cases stepped
      exact ⟨sound.follows, trivial⟩
    · cases stepped
  | fail =>
    simp only [ReactorWorld.step] at stepped
    split at stepped
    · cases stepped
    · cases stepped
      exact ⟨sound.follows, trivial⟩

theorem of_run {steps : List CatchUpStep}
    (ran : (catchUpSystem log reactor dispatchConcurrency).run steps = some world) :
    world.Sound log reactor :=
  (TransitionSystem.run_reachable ran).invariant initial
    fun _ _ _ _ sound stepped => sound.step stepped

theorem finish (sound : world.Sound log reactor)
    (stepped : world.step log reactor dispatchConcurrency .finish = some next) :
    log.eventsAfter world.cursor = [] ∧
      next = { world with catchUp := .idle, returned := some world.cursor } := by
  have standing := sound.stands
  simp only [ReactorWorld.step] at stepped
  split at stepped
  next stands =>
    cases stepped
    rw [stands] at standing
    exact ⟨standing.1 ▸ standing.2, by rw [standing.1]⟩
  next stands =>
    cases stepped
    rw [stands] at standing
    exact ⟨standing.1 ▸ standing.2.1, by rw [standing.1]⟩
  next => cases stepped

end ReactorWorld.Sound

theorem ReactorLog.sequence_le {last : ReactorEvent ε}
    (isLast : log.events.getLast? = some last) (member : event ∈ log.events) :
    event.sequence ≤ last.sequence := by
  obtain ⟨before, split⟩ := List.getLast?_eq_some_iff.mp isLast
  have ordered := log.ordered
  rw [split] at member ordered
  cases mem_concat.mp member with
  | inl earlier =>
    have pairs := (pairwise_append.mp ordered).2.2
    exact Nat.le_of_lt (pairs event earlier last (mem_singleton_self last))
  | inr same => exact Nat.le_of_eq (congrArg _ (same))

theorem ReactorLog.Follows.cursor_eq
    {effects : List (ReactorDispatchInput γ)} (follows : log.Follows reactor cursor effects)
    (passed : log.eventsAfter cursor = []) : cursor = log.lastSequence := by
  unfold lastSequence
  have upTo (event : ReactorEvent ε) (member : event ∈ log.events) : event.sequence ≤ cursor := by
    simpa using filter_eq_nil_iff.mp passed event member
  cases isLast : log.events.getLast? with
  | none =>
    have empty := List.getLast?_eq_none_iff.mp isLast
    cases follows.stored with
    | inl zero => exact zero
    | inr some_ =>
      obtain ⟨event, member, _⟩ := some_
      exact absurd (empty ▸ member) not_mem_nil
  | some last =>
    have member := mem_of_getLast? isLast
    refine Nat.le_antisymm ?_ (upTo last member)
    cases follows.stored with
    | inl zero =>
      omega
    | inr some_ =>
      obtain ⟨event, among, same⟩ := some_
      exact same ▸ log.sequence_le isLast among

end Steps

section Sequential

variable {log : ReactorLog ε} {reactor : ReactorDefinition ε γ}

theorem ReactorWorld.foldl_dispatch (world : ReactorWorld ε γ)
    (inputs : List (ReactorDispatchInput γ)) :
    inputs.foldl ReactorWorld.dispatch world =
      { world with effects := inputs.foldl (deliver (·.commandId)) world.effects } := by
  induction inputs generalizing world with
  | nil => rfl
  | cons input inputs ih => exact ih (world.dispatch input)

theorem ReactorLog.eventsAfter_zero : log.eventsAfter 0 = log.events :=
  filter_eq_self.mpr fun event member => by simpa using log.positive event member

theorem ReactorWorld.effects_catchUpSequentially :
    ((initial : ReactorWorld ε γ).catchUpSequentially log reactor).effects = log.plan reactor := by
  have general (events : List (ReactorEvent ε)) (world : ReactorWorld ε γ)
      (once : ((world.effects ++ events.flatMap reactor.inputs).map (·.commandId)).Nodup) :
      (events.foldl (fun world event =>
        ((reactor.inputs event).foldl dispatch world).commitCursor event.sequence)
          world).effects = world.effects ++ events.flatMap reactor.inputs := by
    induction events generalizing world with
    | nil => exact (append_nil _).symm
    | cons event events ih =>
      rw [flatMap_cons, ← append_assoc] at once ⊢
      have early : ((world.effects ++ reactor.inputs event).map (·.commandId)).Nodup := by
        rw [map_append] at once
        exact once.of_append_left
      have dispatched := foldl_deliver early
      rw [foldl_cons, ih, commitCursor, foldl_dispatch, dispatched]
      rw [foldl_dispatch, dispatched]
      exact once
  have start : (initial : ReactorWorld ε γ).cursor = 0 := rfl
  rw [catchUpSequentially, start, log.eventsAfter_zero]
  exact general log.events initial log.plan_distinct

/-- Whatever order the fibers run in and wherever calls fail: on each stream the commands
take effect as the sequential loop dispatches them and once each, the cursor has passed no
event whose command is missing, and a call that succeeds leaves what the loop leaves. -/
theorem catchUp_refines_sequential (log : ReactorLog ε) (reactor : ReactorDefinition ε γ)
    (dispatchConcurrency : Nat) {steps : List CatchUpStep} {world : ReactorWorld ε γ}
    (ran : (catchUpSystem log reactor dispatchConcurrency).run steps = some world) :
    let loop := (ReactorWorld.initial : ReactorWorld ε γ).catchUpSequentially log reactor
    (∀ streamId, onStream (·.streamId) world.effects streamId <+:
      onStream (·.streamId) loop.effects streamId) ∧
    (world.effects.map (·.commandId)).Nodup ∧
    (∀ event ∈ log.events, event.sequence ≤ world.cursor → reactor.inputs event ⊆ world.effects) ∧
    ∀ next, world.step log reactor dispatchConcurrency .finish = some next →
      (∀ streamId, onStream (·.streamId) next.effects streamId =
        onStream (·.streamId) loop.effects streamId) ∧
      next.effects.Perm loop.effects ∧
      next.cursor = log.lastSequence ∧ next.returned = some log.lastSequence := by
  have sound := ReactorWorld.Sound.of_run ran
  have leads := sound.follows.leads
  have distinct : ((log.plan reactor).map (·.commandId)).Nodup := log.plan_distinct
  have once := List.Nodup.of_map _ distinct
  intro loop
  rw [show loop.effects = log.plan reactor from ReactorWorld.effects_catchUpSequentially]
  refine ⟨leads, ?_, sound.follows.covered, ?_⟩
  · refine (leads.nodup once).map_on fun left member right other same => ?_
    exact inj_on_of_nodup_map distinct (leads.subset member) (leads.subset other) same
  intro next stepped
  obtain ⟨passed, rfl⟩ := sound.finish stepped
  have atLast := sound.follows.cursor_eq passed
  have covers : log.plan reactor ⊆ world.effects := by
    rw [log.plan_eq world.cursor, passed, flatMap_nil, append_nil]
    exact sound.follows.passed
  refine ⟨leads.onStream_eq once covers, ?_, atLast, congrArg some atLast⟩
  rw [perm_ext_iff_of_nodup (leads.nodup once) once]
  exact fun input => ⟨fun member => leads.subset member, fun planned => covers planned⟩

/-! Two events with commands for two streams. The first call dies with the second stream
ahead of the first. -/

def twoEvents : ReactorLog (List String) where
  events := [⟨"event-1", "request", 1, ["left", "right"]⟩, ⟨"event-2", "request", 2, ["left"]⟩]
  ordered := by decide
  positive := by decide
  distinct := by decide

def toEachStream : ReactorDefinition (List String) Unit where
  name := "each"
  react := fun event => event.body.map fun streamId => ⟨streamId, ()⟩

def interruptedCatchUp : List CatchUpStep :=
  [.begin, .take, .take, .dispatch 1, .fail, .begin, .take, .dispatch 0, .take, .dispatch 0,
    .dispatch 0, .commit, .commit]

theorem catchUp_refines_sequential_interrupted :
    ∃ world next, (catchUpSystem twoEvents toEachStream 4).run interruptedCatchUp = some world ∧
      world.step twoEvents toEachStream 4 .finish = some next ∧
      next.cursor = 2 ∧ next.effects.map (·.streamId) = ["right", "left", "left"] := by
  have ran : ((catchUpSystem twoEvents toEachStream 4).run interruptedCatchUp).any
      (fun world => (world.step twoEvents toEachStream 4 .finish).any fun next =>
        next.effects.map (·.streamId) = ["right", "left", "left"]) = true := by
    decide +kernel
  obtain ⟨world, reached, finished⟩ := (Option.any_eq_true _ _).mp ran
  obtain ⟨next, stepped, order⟩ := (Option.any_eq_true _ _).mp finished
  have refines := catchUp_refines_sequential twoEvents toEachStream 4 reached
  exact ⟨world, next, reached, stepped, (refines.2.2.2 next stepped).2.2.1, of_decide_eq_true order⟩

end Sequential

end Zuse.Domain
