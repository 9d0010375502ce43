import Zuse.Conversation.QuestionDeliveries

namespace Zuse.Conversation

open Data (Script Parties)
open List QuestionWorld

/-! The operations of a question beside its provider. Those that answer it and cancel it run
one at a time, and the sweep beside them. -/

inductive QuestionParty where
  | call
  | sweep
  deriving DecidableEq

inductive QuestionOperation (α : Type) where
  | answer (answers : α)
  | cancel
  | sweep

inductive QuestionInterrupt where
  | attach
  | detach
  | finish (accepted : Bool)
  | own (owned : Bool)

variable {α κ : Type}

/-- What a process leaves behind: its callbacks and its operations are gone. -/
def QuestionWorld.crash (world : QuestionWorld α κ) : QuestionWorld α κ :=
  { world with attachment := none, completed := [], claim := none }

def QuestionWorld.interrupt (which : QuestionInterrupt) (world : QuestionWorld α κ) :
    Option (QuestionWorld α κ) :=
  match which with
  | .attach => some world.attach
  | .detach => some world.detach
  | .finish accepted => world.finish accepted
  | .own owned => some { world with owned }

section System

variable [DecidableEq κ] (format : AnswerFormat α κ)

def questionParties : Parties (QuestionWorld α κ) (QuestionCall α κ) Bool QuestionCall.Reply
    QuestionParty (QuestionOperation α) QuestionInterrupt where
  service := questionService format
  party := fun operation =>
    match operation with
    | .answer _ | .cancel => .call
    | .sweep => .sweep
  program := fun operation =>
    match operation with
    | .answer answers => answerQuestion format answers
    | .cancel => cancelQuestion α κ
    | .sweep => expireQuestion α κ
  interrupt := QuestionWorld.interrupt
  crash := QuestionWorld.crash

end System

/-- The log of a question that is not resolved: an expired one may still be dismissed. -/
def Unresolved (log : List (QuestionEvent α)) : Prop := log = [] ∨ log = [.expired]

/-- At most one of answered, cancelled and expired, or expired and then cancelled. -/
def ResolvedOnce (log : List (QuestionEvent α)) : Prop :=
  Unresolved log ∨ (∃ answers, log = [.answered answers]) ∨ log = [.cancelled] ∨
    log = [.expired, .cancelled]

section Sound

variable (format : AnswerFormat α κ)

def Recorded (log : List (QuestionEvent α)) (ticket : DeliveryTicket κ) : Prop :=
  match ticket.key with
  | .answer key => ∃ answers, log = [.answered answers] ∧ format.answerKey answers = key
  | .cancel => if ticket.byCall then .cancelled ∈ log else .expired ∈ log

def AnsweredBy (log : List (QuestionEvent α)) (answers : α) : Prop :=
  ∃ recorded, log = [.answered recorded] ∧ format.answerKey recorded = format.answerKey answers

namespace QuestionWorld

structure Sound (world : QuestionWorld α κ) : Prop where
  book : world.Bookkept
  log : ResolvedOnce world.log
  accepted : ∀ ticket, (ticket, true) ∈ world.completed →
    Recorded format world.log ticket ∨ world.claim = some ticket
  unexpired : ∀ ticket, (ticket, true) ∈ world.completed → ticket.key ≠ .cancel →
    .expired ∉ world.log
  bySweep : ∀ ticket, (ticket, true) ∈ world.completed ∨ world.pending = some ticket →
    ticket.byCall = false → ticket.key = .cancel ∧ .expired ∈ world.log
  byCall : ∀ ticket, world.pending = some ticket → ticket.byCall = true → world.claim = some ticket
  returned : ∀ answers ∈ world.returned, AnsweredBy format world.log answers

variable {format} {world next : QuestionWorld α κ}

theorem Sound.initial : (QuestionWorld.initial : QuestionWorld α κ).Sound format where
  book := .initial
  log := .inl (.inl rfl)
  accepted := nofun
  unexpired := nofun
  bySweep := by
    intro ticket held
    rcases held with none | none <;> cases none
  byCall := nofun
  returned := nofun

theorem Sound.of_quiet (sound : world.Sound format) (book : next.Bookkept)
    (log : next.log = world.log) (claim : next.claim = world.claim)
    (returned : next.returned = world.returned)
    (accepted : ∀ ticket, (ticket, true) ∈ next.completed → (ticket, true) ∈ world.completed)
    (pending : ∀ ticket, next.pending = some ticket → world.pending = some ticket) :
    next.Sound format where
  book := book
  log := log ▸ sound.log
  accepted := fun ticket ended => by
    rw [log, claim]
    exact sound.accepted ticket (accepted ticket ended)
  unexpired := fun ticket ended => by
    rw [log]
    exact sound.unexpired ticket (accepted ticket ended)
  bySweep := fun ticket held => by
    rw [log]
    exact sound.bySweep ticket (held.imp (accepted ticket) (pending ticket))
  byCall := fun ticket held => by
    rw [claim]
    exact sound.byCall ticket (pending ticket held)
  returned := by
    rw [returned, log]
    exact sound.returned

theorem Sound.attach (sound : world.Sound format) : world.attach.Sound format := by
  have book := sound.book.attach
  unfold QuestionWorld.attach at book ⊢
  split
  · exact sound
  next free =>
    rw [free] at book
    exact sound.of_quiet book rfl rfl rfl (fun _ ended => ended) nofun

theorem detach_log (world : QuestionWorld α κ) : world.detach.log = world.log := by
  unfold detach
  split <;> rfl

theorem detach_claim (world : QuestionWorld α κ) : world.detach.claim = world.claim := by
  unfold detach
  split <;> rfl

theorem detach_returned (world : QuestionWorld α κ) : world.detach.returned = world.returned := by
  unfold detach
  split <;> rfl

theorem detach_completed (world : QuestionWorld α κ) :
    world.completed ⊆ world.detach.completed := by
  unfold detach
  split
  · exact subset_append_left _ _
  · exact List.Subset.refl _

section

variable (sound : world.Sound format)
include sound

theorem Sound.detach : world.detach.Sound format := by
  refine sound.of_quiet sound.book.detach world.detach_log world.detach_claim
    world.detach_returned ?_ ?_
  · intro ticket ended
    unfold QuestionWorld.detach at ended
    split at ended
    · rcases Data.mem_concat.mp ended with before | now
      · exact before
      · cases now
    · exact ended
  · intro ticket held
    unfold QuestionWorld.detach at held
    split at held <;> cases held

/-- A callback accepts no answer to a question that has expired. -/
def Accepts (world : QuestionWorld α κ) : Prop :=
  ∀ ticket ∈ world.pending, ticket.key ≠ .cancel → .expired ∉ world.log

theorem Sound.finish {accepted : Bool} (finished : world.finish accepted = some next)
    (accepts : accepted = true → world.Accepts) : next.Sound format := by
  have book := sound.book.finish finished
  unfold QuestionWorld.finish at finished
  split at finished
  next number ticket isAttached =>
    have isPending : world.pending = some ticket := pending_eq_some.mpr ⟨number, isAttached⟩
    cases finished
    cases accepted with
    | false =>
      refine sound.of_quiet book rfl rfl rfl ?_ nofun
      intro other ended
      rcases Data.mem_concat.mp ended with before | now
      · exact before
      · cases now
    | true =>
      constructor
      · exact book
      · exact sound.log
      · intro other ended
        rcases Data.mem_concat.mp ended with before | now
        · exact sound.accepted other before
        · cases now
          cases byCall : ticket.byCall with
          | true => exact .inr (sound.byCall ticket isPending byCall)
          | false =>
            obtain ⟨key, expired⟩ := sound.bySweep ticket (.inr isPending) byCall
            refine .inl ?_
            rw [Recorded, key]
            simpa [byCall] using expired
      · intro other ended
        rcases Data.mem_concat.mp ended with before | now
        · exact sound.unexpired other before
        · cases now
          exact accepts rfl ticket isPending
      · intro other held
        rcases held with ended | none
        · rcases Data.mem_concat.mp ended with before | now
          · exact sound.bySweep other (.inl before)
          · cases now
            exact sound.bySweep ticket (.inr isPending)
        · cases none
      · exact nofun
      · exact sound.returned
  next => cases finished

variable {delivered : Option (DeliveryTicket κ) × QuestionWorld α κ}

theorem Sound.deliver_byCall [DecidableEq κ]
    (free : world.claim = none) {resolution : DurableQuestionResolution α}
    (delivers : Delivers format world true resolution delivered) :
    ({ delivered.2 with claim := delivered.1 } : QuestionWorld α κ).Sound format := by
  have recorded : ∀ ticket, (ticket, true) ∈ world.completed →
      Recorded format world.log ticket := by
    intro ticket ended
    rcases sound.accepted ticket ended with recorded | claimed
    · exact recorded
    · rw [free] at claimed
      cases claimed
  have unclaimed : ∀ ticket, world.pending = some ticket → ticket.byCall = false := by
    intro ticket held
    refine Bool.eq_false_iff.mpr fun byCall => ?_
    have claimed := sound.byCall ticket held byCall
    rw [free] at claimed
    cases claimed
  have book : ({ delivered.2 with claim := delivered.1 } : QuestionWorld α κ).Bookkept :=
    (sound.book.deliver delivers).of_same rfl rfl rfl rfl
  cases delivers with
  | refused =>
    refine sound.of_quiet book rfl ?_ rfl (fun _ ended => ended) fun _ held => held
    exact free.symm
  | joined attachment delivery isAttached isDelivery key =>
    exact
      { book := book
        log := sound.log
        accepted := fun ticket ended => .inl (recorded ticket ended)
        unexpired := sound.unexpired
        bySweep := sound.bySweep
        byCall := fun ticket held byCall => by
          cases (unclaimed ticket held).symm.trans byCall
        returned := sound.returned }
  | begun number isAttached ticket isTicket =>
    exact
      { book := book
        log := sound.log
        accepted := fun ticket ended => .inl (recorded ticket ended)
        unexpired := sound.unexpired
        bySweep := by
          intro other held byCall
          rcases held with ended | isNew
          · exact sound.bySweep other (.inl ended) byCall
          · cases isNew
            rw [isTicket] at byCall
            cases byCall
        byCall := fun other isNew _ => by
          cases isNew
          rfl
        returned := sound.returned }

theorem Sound.deliver_bySweep [DecidableEq κ] (expired : .expired ∈ world.log)
    (delivers : Delivers format world false .cancel delivered) : delivered.2.Sound format := by
  have book := sound.book.deliver delivers
  cases delivers with
  | refused | joined attachment delivery isAttached isDelivery key => exact sound
  | begun number isAttached ticket isTicket =>
    exact
      { book := book
        log := sound.log
        accepted := sound.accepted
        unexpired := sound.unexpired
        bySweep := by
          intro other held byCall
          rcases held with ended | isNew
          · exact sound.bySweep other (.inl ended) byCall
          · cases isNew
            rw [isTicket]
            exact ⟨rfl, expired⟩
        byCall := by
          intro other isNew byCall
          cases isNew
          rw [isTicket] at byCall
          cases byCall
        returned := sound.returned }

variable {ticket : DeliveryTicket κ}

section

variable (unresolved : Unresolved world.log)
include unresolved

theorem Sound.claims (ended : (ticket, true) ∈ world.completed) :
    world.claim = some ticket ∨ ticket.byCall = false := by
  rcases sound.accepted ticket ended with recorded | claimed
  · unfold Recorded at recorded
    split at recorded
    · obtain ⟨answers, isLog, _⟩ := recorded
      rcases unresolved with empty | expired
      · cases isLog.symm.trans empty
      · cases isLog.symm.trans expired
    · split at recorded
      · rcases unresolved with empty | expired
        · rw [empty] at recorded
          cases recorded
        · rw [expired] at recorded
          cases mem_singleton.mp recorded
      next sweep => exact .inr (Bool.eq_false_iff.mpr sweep)
  · exact .inl claimed

theorem Sound.returned_nil : world.returned = [] := by
  refine eq_nil_iff_forall_not_mem.mpr fun answers member => ?_
  obtain ⟨recorded, isLog, _⟩ := sound.returned answers member
  rcases unresolved with empty | expired
  · cases isLog.symm.trans empty
  · cases isLog.symm.trans expired

theorem Sound.persistAnswer (ended : (ticket, true) ∈ world.completed)
    {answers : α} (key : ticket.key = .answer (format.answerKey answers)) :
    (world.record [.answered answers]).Sound format ∧ world.log = [] := by
  have empty : world.log = [] := by
    rcases unresolved with empty | expired
    · exact empty
    · refine absurd ?_ (sound.unexpired ticket ended (by simp [key]))
      simp [expired]
  have isLog : (world.record [.answered answers]).log = [.answered answers] := by
    simp [record, empty]
  have none_ := sound.returned_nil unresolved
  refine ⟨?_, empty⟩
  exact
    { book := sound.book.of_same rfl rfl rfl rfl
      log := .inr (.inl ⟨answers, isLog⟩)
      accepted := by
        intro other accepted
        rcases sound.claims unresolved accepted with same | sweep
        · exact .inr same
        · have expired := (sound.bySweep other (.inl accepted) sweep).2
          rw [empty] at expired
          cases expired
      unexpired := by
        intro _ _ _ expired
        rw [isLog] at expired
        cases mem_singleton.mp expired
      bySweep := by
        intro other held sweep
        have expired := (sound.bySweep other held sweep).2
        rw [empty] at expired
        cases expired
      byCall := sound.byCall
      returned := by
        intro other member
        rw [show (world.record [.answered answers]).returned = [] from none_] at member
        cases member }

theorem Sound.cancel (claimed : ∀ ticket ∈ world.claim, ticket.key = .cancel) :
    (world.record (decideResolveQuestion world.log)).Sound format ∧
      .cancelled ∈ (world.record (decideResolveQuestion world.log)).log := by
  have none_ := sound.returned_nil unresolved
  have isLog : (world.record (decideResolveQuestion world.log)).log =
      world.log ++ [.cancelled] := by
    rcases unresolved with empty | expired
    · rw [record, empty]
      rfl
    · rw [record, expired]
      rfl
  have cancels : ∀ ticket, (ticket, true) ∈ world.completed → ticket.key = .cancel := by
    intro ticket ended
    rcases sound.claims unresolved ended with isClaim | sweep
    · exact claimed ticket isClaim
    · exact (sound.bySweep ticket (.inl ended) sweep).1
  refine ⟨?_, by simp [isLog]⟩
  exact
    { book := sound.book.of_same rfl rfl rfl rfl
      log := by
        rw [isLog]
        rcases unresolved with empty | expired
        · rw [empty]
          exact .inr (.inr (.inl rfl))
        · rw [expired]
          exact .inr (.inr (.inr rfl))
      accepted := by
        intro ticket ended
        refine .inl ?_
        rw [Recorded, cancels ticket ended, isLog]
        dsimp only
        split
        · simp
        next sweep =>
          have expired := (sound.bySweep ticket (.inl ended) (Bool.eq_false_iff.mpr sweep)).2
          exact mem_append_left _ expired
      unexpired := fun ticket ended answer => absurd (cancels ticket ended) answer
      bySweep := by
        intro ticket held sweep
        obtain ⟨key, expired⟩ := sound.bySweep ticket held sweep
        exact ⟨key, mem_append_left _ expired⟩
      byCall := sound.byCall
      returned := by
        intro other member
        rw [show (world.record (decideResolveQuestion world.log)).returned = [] from none_]
          at member
        cases member }

end

/-- The claimed callback has accepted an answer that is not recorded yet. -/
def Receipting (world : QuestionWorld α κ) : Prop :=
  ∃ ticket ∈ world.claim, (ticket, true) ∈ world.completed ∧ ticket.key ≠ .cancel

theorem Sound.expire (empty : world.log = [])
    (apart : ¬ world.Receipting) : (world.record [.expired]).Sound format := by
  have unresolved : Unresolved world.log := .inl empty
  have none_ := sound.returned_nil unresolved
  have isLog : (world.record [.expired]).log = [.expired] := by
    simp [record, empty]
  have unswept : ∀ ticket, (ticket, true) ∈ world.completed ∨ world.pending = some ticket →
      ticket.byCall ≠ false := by
    intro ticket held sweep
    have expired := (sound.bySweep ticket held sweep).2
    rw [empty] at expired
    cases expired
  have claims : ∀ ticket, (ticket, true) ∈ world.completed → world.claim = some ticket := by
    intro ticket ended
    rcases sound.claims unresolved ended with claimed | sweep
    · exact claimed
    · exact absurd sweep (unswept ticket (.inl ended))
  exact
    { book := sound.book.of_same rfl rfl rfl rfl
      log := .inl (.inr isLog)
      accepted := fun ticket ended => .inr (claims ticket ended)
      unexpired := fun ticket ended answer =>
        absurd ⟨ticket, claims ticket ended, ended, answer⟩ apart
      bySweep := fun ticket held sweep => absurd sweep (unswept ticket held)
      byCall := sound.byCall
      returned := by
        intro other member
        rw [show (world.record [.expired]).returned = [] from none_] at member
        cases member }

theorem Sound.reply
    (ended : ∀ ticket ∈ world.claim, (∃ how, (ticket, how) ∈ world.completed) ∧
      ((ticket, true) ∈ world.completed → Recorded format world.log ticket))
    {answers : Option α} (answered : ∀ given ∈ answers, AnsweredBy format world.log given) :
    ({ world with claim := none, returned := world.returned ++ answers.toList } :
      QuestionWorld α κ).Sound format where
  book := sound.book.of_same rfl rfl rfl rfl
  log := sound.log
  accepted := by
    intro ticket accepted
    rcases sound.accepted ticket accepted with recorded | claimed
    · exact .inl recorded
    · exact .inl ((ended ticket claimed).2 accepted)
  unexpired := sound.unexpired
  bySweep := sound.bySweep
  byCall := by
    intro ticket held byCall
    obtain ⟨⟨how, over_⟩, _⟩ := ended ticket (sound.byCall ticket held byCall)
    exact absurd rfl ((sound.book.pending ticket held).2 _ over_)
  returned := by
    intro given member
    rcases mem_append.mp member with before | now
    · exact sound.returned given before
    · exact answered given (Option.mem_toList.mp now)

theorem Sound.crash : world.crash.Sound format where
  book :=
    { attachment := fun _ none => absurd none (Option.not_mem_none _)
      pending := fun _ none => absurd none (Option.not_mem_none _)
      completed := nofun
      once := nodup_nil
      single := nofun
      unaccepted := fun _ none => absurd none (Option.not_mem_none _) }
  log := sound.log
  accepted := nofun
  unexpired := nofun
  bySweep := by
    intro ticket held
    rcases held with none | none <;> cases none
  byCall := nofun
  returned := sound.returned

end

end QuestionWorld

end Sound

end Zuse.Conversation
