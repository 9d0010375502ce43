import Mathlib.Data.List.Nodup
import Zuse.Conversation.QuestionCalls

namespace Zuse.Conversation

open List QuestionWorld
open Option (not_mem_none)

/-! The deliveries to the callbacks of a question: each ends once, and a callback accepts
at most one. -/

variable {α κ : Type}

def QuestionWorld.pending (world : QuestionWorld α κ) : Option (DeliveryTicket κ) :=
  match world.attachment.bind QuestionAttachment.delivery with
  | some { ticket, accepted := false } => some ticket
  | _ => none

structure QuestionWorld.Bookkept (world : QuestionWorld α κ) : Prop where
  attachment : ∀ attachment ∈ world.attachment,
    attachment.number < world.nextAttachment ∧
      ∀ delivery ∈ attachment.delivery, delivery.ticket.attachment = attachment.number ∧
        (delivery.accepted = true → (delivery.ticket, true) ∈ world.completed)
  pending : ∀ ticket ∈ world.pending, ticket.number < world.nextTicket ∧
    ∀ ended ∈ world.completed, ended.1.number ≠ ticket.number
  completed : ∀ ended ∈ world.completed,
    ended.1.number < world.nextTicket ∧ ended.1.attachment < world.nextAttachment
  once : (world.completed.map fun ended => ended.1.number).Nodup
  single : ∀ first second, (first, true) ∈ world.completed →
    (second, true) ∈ world.completed → first.attachment = second.attachment →
      first = second
  /-- A callback without an accepted delivery has not accepted one before. -/
  unaccepted : ∀ attachment ∈ world.attachment,
    (∀ delivery ∈ attachment.delivery, delivery.accepted = false) →
      ∀ ticket, (ticket, true) ∈ world.completed → ticket.attachment ≠ attachment.number

namespace QuestionWorld

variable {world next : QuestionWorld α κ} {ticket : DeliveryTicket κ}

theorem pending_eq_some :
    world.pending = some ticket ↔
      ∃ number, world.attachment =
        some { number, delivery := some { ticket, accepted := false } } := by
  unfold pending
  cases isAttached : world.attachment with
  | none => simp
  | some attachment =>
    obtain ⟨number, delivery⟩ := attachment
    cases delivery with
    | none => simp
    | some delivery =>
      obtain ⟨other, accepted⟩ := delivery
      cases accepted <;> simp

theorem Bookkept.initial : (QuestionWorld.initial : QuestionWorld α κ).Bookkept where
  attachment := fun _ none => absurd none (not_mem_none _)
  pending := fun _ none => absurd none (not_mem_none _)
  completed := nofun
  once := nodup_nil
  single := nofun
  unaccepted := fun _ none => absurd none (not_mem_none _)

theorem Bookkept.of_same (book : world.Bookkept) (attachment : next.attachment = world.attachment)
    (completed : next.completed = world.completed)
    (nextAttachment : next.nextAttachment = world.nextAttachment)
    (nextTicket : next.nextTicket = world.nextTicket) : next.Bookkept := by
  have pending : next.pending = world.pending := by
    rw [QuestionWorld.pending, attachment, QuestionWorld.pending]
  constructor
  · rw [attachment, completed, nextAttachment]
    exact book.attachment
  · rw [pending, completed, nextTicket]
    exact book.pending
  · rw [completed, nextAttachment, nextTicket]
    exact book.completed
  · rw [completed]
    exact book.once
  · rw [completed]
    exact book.single
  · rw [attachment, completed]
    exact book.unaccepted

theorem Bookkept.ended_once (book : world.Bookkept)
    {first second : Bool} (one : (ticket, first) ∈ world.completed)
    (other : (ticket, second) ∈ world.completed) : first = second := by
  have injective := inj_on_of_nodup_map book.once one other rfl
  exact congrArg Prod.snd injective

theorem Bookkept.attach (book : world.Bookkept) : world.attach.Bookkept := by
  unfold QuestionWorld.attach
  cases isAttached : world.attachment with
  | some attachment => exact book
  | none =>
    constructor
    · intro attachment isNew
      cases isNew
      exact ⟨Nat.lt_succ_self _, fun _ none => absurd none (not_mem_none _)⟩
    · exact fun _ none => absurd none (not_mem_none _)
    · intro ended member
      exact ⟨(book.completed ended member).1, Nat.lt_succ_of_lt (book.completed ended member).2⟩
    · exact book.once
    · exact book.single
    · intro attachment isNew _ ticket accepted
      cases isNew
      exact Nat.ne_of_lt (book.completed _ accepted).2

variable {accepted : Bool}

theorem Bookkept.finish (book : world.Bookkept)
    (finished : world.finish accepted = some next) : next.Bookkept := by
  unfold QuestionWorld.finish at finished
  split at finished
  next number ticket isAttached =>
    cases finished
    have here := book.attachment _ isAttached
    have onHere : ticket.attachment = number := (here.2 _ rfl).1
    have isPending : world.pending = some ticket := pending_eq_some.mpr ⟨number, isAttached⟩
    have waits := book.pending ticket isPending
    have unaccepted := book.unaccepted _ isAttached (fun delivery isDelivery => by
      cases isDelivery
      rfl)
    constructor
    · intro attachment isAttachment
      cases isAttachment
      refine ⟨here.1, fun delivery isDelivery => ?_⟩
      cases accepted with
      | false => cases isDelivery
      | true =>
        cases isDelivery
        exact ⟨onHere, fun _ => mem_append_right _ mem_cons_self⟩
    · intro other isOther
      cases accepted <;> cases isOther
    · intro ended member
      rcases Data.mem_concat.mp member with before | rfl
      · exact book.completed ended before
      · exact ⟨waits.1, onHere ▸ here.1⟩
    · rw [map_append, nodup_append]
      refine ⟨book.once, nodup_singleton _, ?_⟩
      intro first isFirst second isSecond
      obtain ⟨ended, member, rfl⟩ := mem_map.mp isFirst
      rw [map_singleton, mem_singleton] at isSecond
      exact isSecond ▸ waits.2 ended member
    · intro first second isFirst isSecond same
      rcases mem_append.mp isFirst with firstBefore | firstNow <;>
        rcases Data.mem_concat.mp isSecond with secondBefore | secondNow
      · exact book.single first second firstBefore secondBefore same
      · cases secondNow
        exact absurd (same.trans onHere) (unaccepted first firstBefore)
      · cases mem_singleton.mp firstNow
        exact absurd (same.symm.trans onHere) (unaccepted second secondBefore)
      · cases mem_singleton.mp firstNow
        cases secondNow
        rfl
    · intro attachment isAttachment fails other isAccepted
      cases isAttachment
      cases accepted with
      | true => cases fails _ rfl
      | false =>
        rcases Data.mem_concat.mp isAccepted with before | now
        · exact unaccepted other before
        · cases now
  next => cases finished

theorem detach_of_idle (idle : world.pending = none) :
    world.detach = { world with attachment := none } := by
  unfold pending at idle
  unfold detach
  cases delivered : world.attachment.bind QuestionAttachment.delivery with
  | none => rfl
  | some delivery =>
    obtain ⟨ticket, accepted⟩ := delivery
    rw [delivered] at idle
    cases accepted with
    | true => rfl
    | false => cases idle

theorem Bookkept.detach (book : world.Bookkept) : world.detach.Bookkept := by
  cases isPending : world.pending with
  | none =>
    rw [detach_of_idle isPending]
    constructor
    · exact fun _ none => absurd none (not_mem_none _)
    · exact fun _ none => absurd none (not_mem_none _)
    · exact book.completed
    · exact book.once
    · exact book.single
    · exact fun _ none => absurd none (not_mem_none _)
  | some ticket =>
    unfold QuestionWorld.detach
    obtain ⟨number, isAttached⟩ := pending_eq_some.mp isPending
    have ends : ∃ next, world.finish false = some next := by
      rw [QuestionWorld.finish, isAttached]
      exact ⟨_, rfl⟩
    obtain ⟨next, finished⟩ := ends
    have failed := book.finish finished
    rw [QuestionWorld.finish, isAttached] at finished
    cases finished
    rw [isAttached]
    constructor
    · exact fun _ none => absurd none (not_mem_none _)
    · exact fun _ none => absurd none (not_mem_none _)
    · exact failed.completed
    · exact failed.once
    · exact failed.single
    · exact fun _ none => absurd none (not_mem_none _)

theorem mem_of_outcome [DecidableEq κ]
    (ended : world.outcome ticket = some accepted) : (ticket, accepted) ∈ world.completed := by
  obtain ⟨⟨other, how⟩, found, rfl⟩ := Option.map_eq_some_iff.mp ended
  have same := List.find?_some found
  rw [decide_eq_true_eq] at same
  exact same ▸ mem_of_find?_eq_some found

section Deliver

variable [DecidableEq κ] (format : AnswerFormat α κ)

/-- A delivery is refused, joins the one of its key, or is a new one. -/
inductive Delivers (world : QuestionWorld α κ) (byCall : Bool)
    (resolution : DurableQuestionResolution α) :
    Option (DeliveryTicket κ) × QuestionWorld α κ → Prop
  | refused : Delivers world byCall resolution (none, world)
  | joined (attachment : QuestionAttachment κ) (delivery : CallbackDelivery κ)
      (isAttached : world.attachment = some attachment)
      (isDelivery : attachment.delivery = some delivery)
      (key : delivery.ticket.key = resolution.key format) :
      Delivers world byCall resolution (some delivery.ticket, world)
  | begun (number : Nat)
      (isAttached : world.attachment = some { number, delivery := none })
      (ticket : DeliveryTicket κ)
      (isTicket : ticket =
        { number := world.nextTicket, attachment := number
          key := resolution.key format, byCall }) :
      Delivers world byCall resolution
        (some ticket,
          { world with
            attachment := some { number, delivery := some { ticket, accepted := false } }
            nextTicket := world.nextTicket + 1 })

theorem delivers (world : QuestionWorld α κ) (byCall : Bool)
    (resolution : DurableQuestionResolution α) :
    Delivers format world byCall resolution (world.deliver format byCall resolution) := by
  unfold deliver
  split
  · exact .refused
  next attachment isAttached =>
    split
    · exact .refused
    obtain ⟨number, held⟩ := attachment
    cases held with
    | none => exact .begun number isAttached _ rfl
    | some delivery =>
      dsimp only
      split
      next key => exact .joined _ delivery isAttached rfl key
      next => exact .refused

variable {format} {byCall : Bool} {resolution : DurableQuestionResolution α}
  {delivered : Option (DeliveryTicket κ) × QuestionWorld α κ}

omit [DecidableEq κ] in
theorem Bookkept.deliver (book : world.Bookkept)
    (delivers : Delivers format world byCall resolution delivered) :
    delivered.2.Bookkept := by
  cases delivers with
  | refused | joined attachment delivery isAttached isDelivery key => exact book
  | begun number isAttached ticket isTicket =>
    have here := book.attachment _ isAttached
    have unaccepted := book.unaccepted _ isAttached fun _ none =>
      absurd none (not_mem_none _)
    constructor
    · intro attachment isAttachment
      cases isAttachment
      refine ⟨here.1, fun delivery isDelivery => ?_⟩
      cases isDelivery
      exact ⟨by rw [isTicket], nofun⟩
    · intro other isOther
      cases isOther
      rw [isTicket]
      exact ⟨Nat.lt_succ_self _, fun ended member =>
        Nat.ne_of_lt (book.completed ended member).1⟩
    · intro ended member
      exact ⟨Nat.lt_succ_of_lt (book.completed ended member).1, (book.completed ended member).2⟩
    · exact book.once
    · exact book.single
    · intro attachment isAttachment _
      cases isAttachment
      exact unaccepted

end Deliver

end QuestionWorld

end Zuse.Conversation
