import Zuse.Conversation.QuestionSystem

namespace Zuse.Conversation

open QuestionWorld DurableQuestionResolution

open Data (Script Parties Role Discipline)

variable {α κ : Type}

section Roles

namespace QuestionWorld

/-- Others may let an unresolved question expire, and end deliveries. -/
structure CallRely (world later : QuestionWorld α κ) : Prop where
  claim : later.claim = world.claim
  returned : later.returned = world.returned
  log : later.log = world.log ∨ world.log = [] ∧ later.log = [.expired]
  completed : world.completed ⊆ later.completed

def SweepRely (world later : QuestionWorld α κ) : Prop :=
  .expired ∈ world.log → .expired ∈ later.log

/-- The sweep lets the question expire when it runs into the recording of an answer. -/
def Expires (world : QuestionWorld α κ) : Prop :=
  world.alive = false ∧ decideExpireQuestion world.log ≠ []

/-- A step of an operation that leaves what the others see. -/
structure Quiet (world next : QuestionWorld α κ) : Prop where
  claim : next.claim = world.claim
  returned : next.returned = world.returned
  log : next.log = world.log
  completed : world.completed ⊆ next.completed

variable {world next : QuestionWorld α κ}

theorem CallRely.refl (world : QuestionWorld α κ) : world.CallRely world :=
  ⟨rfl, rfl, .inl rfl, List.Subset.refl _⟩

theorem CallRely.trans {first second third : QuestionWorld α κ}
    (one : first.CallRely second) (other : second.CallRely third) :
    first.CallRely third where
  claim := other.claim.trans one.claim
  returned := other.returned.trans one.returned
  log := by
    rcases one.log with same | ⟨empty, expired⟩
    · rw [← same]
      exact other.log
    · rcases other.log with still | ⟨none, _⟩
      · exact .inr ⟨empty, still.trans expired⟩
      · cases expired.symm.trans none
  completed := List.Subset.trans one.completed other.completed

theorem Quiet.callRely (quiet : world.Quiet next) : world.CallRely next :=
  ⟨quiet.claim, quiet.returned, .inl quiet.log, quiet.completed⟩

theorem Quiet.sweepRely (quiet : world.Quiet next) : world.SweepRely next :=
  fun expired => quiet.log ▸ expired

end QuestionWorld

/-- The sweep commits no expiry while accepted answers wait to be recorded. -/
def ExpiresApart (world : QuestionWorld α κ) (request : QuestionCall α κ) (_ : Bool) : Prop :=
  match request with
  | .expireUnlessAlive => world.Expires → ¬ world.Receipting
  | _ => True

def AcceptsApart (world : QuestionWorld α κ) (which : QuestionInterrupt) : Prop :=
  match which with
  | .finish true => world.Accepts
  | _ => True

def questionDiscipline (format : AnswerFormat α κ) :
    Discipline (QuestionWorld α κ) (QuestionCall α κ) Bool QuestionParty QuestionInterrupt where
  sound := QuestionWorld.Sound format
  role := fun party =>
    match party with
    | .call => ⟨QuestionWorld.CallRely, QuestionWorld.SweepRely⟩
    | .sweep => ⟨QuestionWorld.SweepRely, QuestionWorld.CallRely⟩
  idle := fun party world =>
    match party with
    | .call => world.claim = none
    | .sweep => True
  admits := ExpiresApart
  permits := AcceptsApart

end Roles

variable {assertion : QuestionWorld α κ → Prop} {world : QuestionWorld α κ}
  {log : List (QuestionEvent α)}

section Calls

variable [DecidableEq κ] (format : AnswerFormat α κ)

def QuestionCall.quiet : QuestionCall α κ → Bool
  | .deliver .. | .persistAnswer _ | .resolveQuestion | .expireUnlessAlive
  | .reply _ => false
  | _ => true

variable {format} {world : QuestionWorld α κ} {request : QuestionCall α κ}

theorem quiet_call (quiet : request.quiet = true) {next : QuestionWorld α κ} {choice : Bool}
    {reply : request.Reply} (sound : world.Sound format)
    (answered : questionService format request choice world = some (reply, next)) :
    next.Sound format ∧ world.Quiet next := by
  have same : world.Quiet world := ⟨rfl, rfl, rfl, List.Subset.refl _⟩
  have detached : world.Quiet world.detach :=
    ⟨world.detach_claim, world.detach_returned, world.detach_log, world.detach_completed⟩
  cases request with
  | deliver byCall resolution
  | persistAnswer answers | resolveQuestion | expireUnlessAlive | reply answers => cases quiet
  | insertDelivery resolution | deleteDelivery =>
    cases answered
    exact ⟨sound.of_quiet (sound.book.of_same rfl rfl rfl rfl) rfl rfl rfl
      (fun _ ended => ended) fun _ held => held, ⟨rfl, rfl, rfl, List.Subset.refl _⟩⟩
  | acknowledge =>
    cases answered
    exact ⟨sound.detach, detached⟩
  | close =>
    cases answered
    cases choice
    · exact ⟨sound, same⟩
    · exact ⟨sound.detach, detached⟩
  | await ticket =>
    obtain ⟨accepted, _, isReply⟩ := Option.map_eq_some_iff.mp answered
    cases isReply
    exact ⟨sound, same⟩
  | awaitBriefly ticket =>
    cases choice
    · cases answered
      exact ⟨sound, same⟩
    · obtain ⟨accepted, _, isReply⟩ := Option.map_eq_some_iff.mp answered
      cases isReply
      exact ⟨sound, same⟩
  | _ =>
    cases answered
    exact ⟨sound, same⟩

variable (format)

def Obeys {β : Type} (script : QuestionScript α κ β)
    (post : β → QuestionWorld α κ → Prop) (world : QuestionWorld α κ) : Prop :=
  script.Serves ((questionParties format).setting (questionDiscipline format))
    ((questionDiscipline format).role .call) post world

def Lasts (assertion : QuestionWorld α κ → Prop) : Prop :=
  ∀ world later, world.CallRely later → assertion world → assertion later

variable {format}

theorem obeys_call {β : Type} {rest : request.Reply → QuestionScript α κ β}
    {post : β → QuestionWorld α κ → Prop}
    (lasts : Lasts assertion)
    (answered : ∀ world choice reply next, world.Sound format → assertion world →
      ExpiresApart world request choice →
        questionService format request choice world = some (reply, next) →
          world.SweepRely next ∧ next.Sound format ∧ Obeys format (rest reply) post next)
    (holds : assertion world) :
    Obeys format (ask request >>= rest) post world :=
  Script.Serves.call (fun world later others _ => lasts world later others) answered holds

theorem obeys_quiet {β : Type} {rest : request.Reply → QuestionScript α κ β}
    {post : β → QuestionWorld α κ → Prop}
    (quiet : request.quiet = true) (lasts : Lasts assertion)
    (goes : ∀ reply world, assertion world → Obeys format (rest reply) post world)
    (holds : assertion world) :
    Obeys format (ask request >>= rest) post world := by
  refine obeys_call lasts ?_ holds
  intro world choice reply next sound holds _ answered
  obtain ⟨still, same⟩ := quiet_call quiet sound answered
  exact ⟨same.sweepRely, still, goes reply next (lasts world next same.callRely holds)⟩

def DurableQuestionResolution.Resolves (resolution : DurableQuestionResolution α)
    (log : List (QuestionEvent α)) : Prop :=
  match resolution with
  | .answer answers => log = [.answered answers]
  | .cancel => .cancelled ∈ log

def Free (about : List (QuestionEvent α) → Prop) (world : QuestionWorld α κ) : Prop :=
  world.claim = none ∧ about world.log

def Claims (ticket : DeliveryTicket κ) (about : List (QuestionEvent α) → Prop)
    (world : QuestionWorld α κ) : Prop :=
  world.claim = some ticket ∧ about world.log

def Ended (ticket : DeliveryTicket κ) (accepted : Bool)
    (about : List (QuestionEvent α) → Prop) (world : QuestionWorld α κ) : Prop :=
  Claims ticket about world ∧ (ticket, accepted) ∈ world.completed

variable (format) in
/-- The claimed delivery has failed, or what it delivered is recorded. -/
def Closed (about : List (QuestionEvent α) → Prop) (world : QuestionWorld α κ) : Prop :=
  about world.log ∧ ∀ ticket ∈ world.claim, (ticket, false) ∈ world.completed ∨
    (ticket, true) ∈ world.completed ∧ Recorded format world.log ticket

/-- What is known of a log stays so when the question expires. -/
def Expirable (about : List (QuestionEvent α) → Prop) : Prop := about [] → about [.expired]

theorem expirable_unresolved : Expirable (Unresolved (α := α)) := fun _ => .inr rfl

theorem expirable_resolves (resolution : DurableQuestionResolution α) :
    Expirable resolution.Resolves := by
  intro empty
  cases resolution <;> cases empty

section Lasting

variable {about : List (QuestionEvent α) → Prop}

variable (expirable : Expirable about)
include expirable

omit [DecidableEq κ] in
theorem lasts_about {later : QuestionWorld α κ} (others : world.CallRely later)
    (holds : about world.log) : about later.log := by
  rcases others.log with same | ⟨empty, expired⟩
  · rw [same]
    exact holds
  · rw [expired]
    rw [empty] at holds
    exact expirable holds

omit [DecidableEq κ] in
theorem Free.lasts : Lasts (κ := κ) (Free about) :=
  fun _ _ others holds => ⟨others.claim.trans holds.1, lasts_about expirable others holds.2⟩

omit [DecidableEq κ] in
theorem Claims.lasts (ticket : DeliveryTicket κ) : Lasts (Claims ticket about) :=
  fun _ _ others holds => ⟨others.claim.trans holds.1, lasts_about expirable others holds.2⟩

omit [DecidableEq κ] in
theorem Ended.lasts (ticket : DeliveryTicket κ) (accepted : Bool) :
    Lasts (Ended ticket accepted about) :=
  fun world later others holds =>
    ⟨Claims.lasts expirable ticket world later others holds.1, others.completed holds.2⟩

omit [DecidableEq κ] in
theorem Closed.lasts : Lasts (Closed format about) := by
  intro world later others holds
  refine ⟨lasts_about expirable others holds.1, fun ticket isClaim => ?_⟩
  rw [others.claim] at isClaim
  rcases holds.2 ticket isClaim with failed | ⟨accepted, recorded⟩
  · exact .inl (others.completed failed)
  refine .inr ⟨others.completed accepted, ?_⟩
  rcases others.log with same | ⟨empty, _⟩
  · rw [same]
    exact recorded
  rw [empty] at recorded
  unfold Recorded at recorded
  split at recorded
  · obtain ⟨_, none, _⟩ := recorded
    cases none
  · split at recorded <;> cases recorded

end Lasting

variable {ticket : DeliveryTicket κ} {resolution : DurableQuestionResolution α}

omit [DecidableEq κ] in
theorem recorded_of_resolves (sound : world.Sound format)
    (accepted : (ticket, true) ∈ world.completed)
    (key : ticket.key = resolution.key format) (resolves : resolution.Resolves world.log) :
    Recorded format world.log ticket := by
  unfold Recorded
  rw [key]
  cases resolution with
  | answer answers => exact ⟨answers, resolves, rfl⟩
  | cancel =>
    cases byCall : ticket.byCall with
    | true => exact resolves
    | false => exact (sound.bySweep ticket (.inl accepted) byCall).2

theorem lookup_resolved (once : ResolvedOnce log) :
    (lookupDurableQuestionResolution log = .none ∧ Unresolved log) ∨
      ∃ resolution, lookupDurableQuestionResolution log = .found resolution ∧
        resolution.Resolves log := by
  rcases once with unresolved | ⟨answers, isLog⟩ | isLog | isLog
  · refine .inl ⟨?_, unresolved⟩
    rcases unresolved with isLog | isLog <;> rw [isLog] <;> rfl
  · exact .inr ⟨.answer answers, by rw [isLog]; rfl, isLog⟩
  · exact .inr ⟨.cancel, by rw [isLog]; rfl, by simp [Resolves, isLog]⟩
  · exact .inr ⟨.cancel, by rw [isLog]; rfl, by simp [Resolves, isLog]⟩

/-- No delivery is left to an operation that has ended. -/
def Idle (_ : Unit) (world : QuestionWorld α κ) : Prop := world.claim = none

variable {about : List (QuestionEvent α) → Prop}

theorem obeys_reply {answers : Option α} (expirable : Expirable about)
    (answered : ∀ log, about log → ∀ given ∈ answers, AnsweredBy format log given)
    (closed : Closed format about world) :
    Obeys format (ask (.reply answers)) Idle world := by
  refine Script.Serves.call (fun world later others _ =>
    Closed.lasts expirable world later others) ?_ closed
  intro world choice reply next sound closed _ isAnswer
  cases isAnswer
  refine ⟨fun expired => expired, ?_, rfl⟩
  refine sound.reply (fun ticket isClaim => ?_) (answered world.log closed.1)
  rcases closed.2 ticket isClaim with failed | ⟨accepted, recorded⟩
  · refine ⟨⟨false, failed⟩, fun accepted => ?_⟩
    cases sound.book.ended_once failed accepted
  · exact ⟨⟨true, accepted⟩, fun _ => recorded⟩

theorem obeys_fail (expirable : Expirable about) (closed : Closed format about world) :
    Obeys format (ask (.reply none)) Idle world :=
  obeys_reply expirable (fun _ _ _ none => absurd none (Option.not_mem_none _)) closed

omit [DecidableEq κ] in
theorem Free.closed (free : Free about world) : Closed format about world :=
  ⟨free.2, fun ticket isClaim => by
    rw [free.1] at isClaim
    cases isClaim⟩

omit [DecidableEq κ] in
theorem Ended.closed (ended : Ended ticket false about world) : Closed format about world :=
  ⟨ended.1.2, fun other isClaim => by
    cases ended.1.1.symm.trans isClaim
    exact .inl ended.2⟩

section Steps

variable {β : Type} {about : List (QuestionEvent α) → Prop}
  {post : β → QuestionWorld α κ → Prop} {world : QuestionWorld α κ}

theorem obeys_deliver
    {rest : Option (DeliveryTicket κ) → QuestionScript α κ β} (expirable : Expirable about)
    (refused : ∀ world, Free about world → Obeys format (rest none) post world)
    (claimed : ∀ ticket world, ticket.key = resolution.key format →
      Claims ticket about world → Obeys format (rest (some ticket)) post world)
    (free : Free about world) :
    Obeys format (ask (.deliver true resolution) >>= rest) post world := by
  refine obeys_call (Free.lasts expirable) ?_ free
  intro world choice reply next sound free _ answered
  cases choice with
  | false =>
    cases answered
    exact ⟨fun expired => expired, sound, refused world free⟩
  | true =>
    have delivers := delivers format world true resolution
    obtain ⟨rfl, rfl⟩ := answered
    have still := sound.deliver_byCall free.1 delivers
    generalize world.deliver format true resolution = delivered at delivers still
    cases delivers with
    | refused => exact ⟨fun expired => expired, still, refused _ ⟨rfl, free.2⟩⟩
    | joined attachment delivery isAttached isDelivery key =>
      exact ⟨fun expired => expired, still, claimed _ _ key ⟨rfl, free.2⟩⟩
    | begun number isAttached ticket isTicket =>
      exact ⟨fun expired => expired, still, claimed _ _ (by rw [isTicket]) ⟨rfl, free.2⟩⟩

theorem obeys_await {rest : Bool → QuestionScript α κ β} (expirable : Expirable about)
    (accepted : ∀ world, Ended ticket true about world → Obeys format (rest true) post world)
    (failed : ∀ world, Ended ticket false about world → Obeys format (rest false) post world)
    (claims : Claims ticket about world) :
    Obeys format (ask (.await ticket) >>= rest) post world := by
  refine obeys_call (Claims.lasts expirable ticket) ?_ claims
  intro world choice reply next sound claims _ answered
  obtain ⟨how, isOutcome, isReply⟩ := Option.map_eq_some_iff.mp answered
  cases isReply
  have ended := mem_of_outcome isOutcome
  refine ⟨fun expired => expired, sound, ?_⟩
  cases reply with
  | true => exact accepted _ ⟨claims, ended⟩
  | false => exact failed _ ⟨claims, ended⟩

theorem obeys_free {request : QuestionCall α κ} {rest : request.Reply → QuestionScript α κ β}
    (quiet : request.quiet = true)
    (goes : ∀ reply world, Free Unresolved world → Obeys format (rest reply) post world)
    (free : Free Unresolved world) : Obeys format (ask request >>= rest) post world :=
  obeys_quiet quiet (Free.lasts expirable_unresolved) goes free

end Steps

theorem obeys_refused (free : Free Unresolved world) :
    Obeys format (ask (.reply none)) Idle world :=
  obeys_fail expirable_unresolved free.closed

theorem obeys_settle (resolution : DurableQuestionResolution α)
    (free : Free resolution.Resolves world) :
    Obeys format (settleDurableQuestionResolution α κ resolution)
      (fun _ => Closed format resolution.Resolves) world := by
  have expirable := expirable_resolves resolution
  have closedLasts : Lasts (Closed (κ := κ) format resolution.Resolves) :=
    Closed.lasts expirable
  refine obeys_quiet rfl (Free.lasts expirable) (fun attached world free => ?_) free
  split
  · refine obeys_deliver expirable (fun world free => free.closed) ?_ free
    intro ticket world key claims
    refine obeys_await expirable ?_ (fun world ended => ended.closed) claims
    intro world ended
    refine obeys_call (Ended.lasts expirable ticket true) ?_ ended
    intro world choice reply next sound ended _ answered
    obtain ⟨still, same⟩ := quiet_call rfl sound answered
    have lasting := Ended.lasts expirable ticket true world next same.callRely ended
    have closed : Closed format resolution.Resolves next :=
      ⟨lasting.1.2, fun other isClaim => by
        cases lasting.1.1.symm.trans isClaim
        exact .inr ⟨lasting.2, recorded_of_resolves still lasting.2 key lasting.1.2⟩⟩
    refine ⟨same.sweepRely, still, ?_⟩
    refine obeys_quiet rfl closedLasts (fun _ world closed => ?_) closed
    exact closed
  · refine obeys_quiet rfl (Free.lasts expirable) (fun _ world free => ?_) free
    exact free.closed

theorem obeys_deliverAnswer {answers durable : α}
    (same : format.answerKey durable = format.answerKey answers) (free : Free Unresolved world) :
    Obeys format (deliverAnswer answers durable) Idle world := by
  have expirable := expirable_unresolved (α := α)
  refine obeys_free rfl (fun attached world free => ?_) free
  split
  · refine obeys_free rfl (fun owned world free => ?_) free
    split
    · refine obeys_deliver expirable (fun world free => obeys_refused free) ?_ free
      intro ticket world key claims
      refine obeys_await expirable ?_ (fun world ended => obeys_fail expirable ended.closed) claims
      intro world ended
      -- The callback has accepted the answers, so the question has not expired.
      refine obeys_call (Ended.lasts expirable ticket true) ?_ ended
      intro world choice reply next sound ended _ answered
      cases answered
      obtain ⟨still, empty⟩ := sound.persistAnswer ended.1.2 ended.2 key
      have isLog : (world.record [.answered durable]).log = [.answered durable] := by
        simp [record, empty]
      have resolves := expirable_resolves (.answer durable)
      have closedLasts : Lasts (Closed (κ := κ) format (answer durable).Resolves) :=
        Closed.lasts resolves
      have closed : Closed format (answer durable).Resolves (world.record [.answered durable]) := by
        refine ⟨isLog, fun other isClaim => ?_⟩
        cases ended.1.1.symm.trans isClaim
        exact .inr ⟨ended.2, recorded_of_resolves still ended.2 key isLog⟩
      refine ⟨fun expired => List.mem_append_left _ expired, still, ?_⟩
      refine obeys_quiet rfl closedLasts (fun _ world closed => ?_) closed
      refine obeys_quiet rfl closedLasts (fun _ world closed => ?_) closed
      refine obeys_reply resolves ?_ closed
      intro log isAnswered given isGiven
      cases isGiven
      exact ⟨durable, isAnswered, same⟩
    · exact obeys_refused free
  · exact obeys_refused free

theorem obeys_answerQuestion (answers : α) (idle : world.claim = none) :
    Obeys format (answerQuestion format answers) Idle world := by
  have idleLasts : Lasts (fun world : QuestionWorld α κ => world.claim = none) :=
    fun _ _ others idle => others.claim.trans idle
  refine obeys_call idleLasts ?_ idle
  intro world choice reply next sound idle _ answered
  cases answered
  refine ⟨fun expired => expired, sound, ?_⟩
  rcases lookup_resolved sound.log with ⟨isNone, unresolved⟩ | ⟨resolution, found, resolves⟩
  · rw [isNone]
    have free : Free Unresolved world := ⟨idle, unresolved⟩
    refine obeys_free rfl (fun authority world free => ?_) free
    split
    · refine obeys_free rfl (fun valid world free => ?_) free
      split
      · refine obeys_free rfl (fun delivery world free => ?_) free
        cases delivery with
        | none =>
          refine obeys_free rfl (fun attached world free => ?_) free
          split
          · refine obeys_free rfl (fun _ world free => ?_) free
            exact obeys_deliverAnswer rfl free
          · exact obeys_refused free
        | some held =>
          cases held with
          | cancel => exact obeys_refused free
          | answer durable =>
            dsimp only
            split
            next same => exact obeys_deliverAnswer same free
            next => exact obeys_refused free
      · exact obeys_refused free
    · exact obeys_refused free
  · rw [found]
    have expires := expirable_resolves resolution
    have settles : Obeys format _ _ _ := obeys_settle resolution ⟨idle, resolves⟩
    cases resolution with
    | cancel =>
      refine Script.Serves.bind (settles.mono fun _ world closed => ?_)
      exact obeys_fail expires closed
    | answer receipt =>
      refine Script.Serves.bind (settles.mono fun settled world closed => ?_)
      split
      · split
        next same =>
          refine obeys_reply expires (fun log isAnswered given isGiven => ?_) closed
          cases isGiven
          exact ⟨receipt, isAnswered, same⟩
        next => exact obeys_fail expires closed
      · exact obeys_fail expires closed

theorem obeys_resolveQuestion {β : Type} {rest : Unit → QuestionScript α κ β}
    {post : β → QuestionWorld α κ → Prop}
    (goes : ∀ world, Free DurableQuestionResolution.cancel.Resolves world →
      Obeys format (rest ()) post world) (free : Free Unresolved world) :
    Obeys format (ask .resolveQuestion >>= rest) post world := by
  refine obeys_call (Free.lasts expirable_unresolved) ?_ free
  intro world choice reply next sound free _ answered
  cases answered
  obtain ⟨still, cancelled⟩ := sound.cancel free.2 fun ticket isClaim => by
    rw [free.1] at isClaim
    cases isClaim
  exact ⟨fun expired => List.mem_append_left _ expired, still, goes _ ⟨free.1, cancelled⟩⟩

theorem obeys_deliverCancellation (free : Free Unresolved world) :
    Obeys format (deliverCancellation α κ) Idle world := by
  have expirable := expirable_unresolved (α := α)
  refine obeys_free rfl (fun attached world free => ?_) free
  split
  · refine obeys_free rfl (fun owned world free => ?_) free
    split
    · refine obeys_deliver expirable (fun world free => obeys_refused free) ?_ free
      intro ticket world key claims
      refine obeys_await expirable ?_ (fun world ended => obeys_fail expirable ended.closed) claims
      intro world ended
      refine obeys_call (Ended.lasts expirable ticket true) ?_ ended
      intro world choice reply next sound ended _ answered
      cases answered
      obtain ⟨still, cancelled⟩ := sound.cancel ended.1.2 fun other isClaim => by
        cases ended.1.1.symm.trans isClaim
        exact key
      have resolves := expirable_resolves (α := α) .cancel
      have closedLasts : Lasts (Closed (κ := κ) format (cancel (α := α)).Resolves) :=
        Closed.lasts resolves
      have closed : Closed format (cancel (α := α)).Resolves
          (world.record (decideResolveQuestion world.log)) := by
        refine ⟨cancelled, fun other isClaim => ?_⟩
        cases ended.1.1.symm.trans isClaim
        have told : ticket.key = (cancel (α := α)).key format := key
        exact .inr ⟨ended.2, recorded_of_resolves still ended.2 told cancelled⟩
      refine ⟨fun expired => List.mem_append_left _ expired, still, ?_⟩
      refine obeys_quiet rfl closedLasts (fun _ world closed => ?_) closed
      refine obeys_quiet rfl closedLasts (fun _ world closed => ?_) closed
      exact obeys_fail resolves closed
    · exact obeys_refused free
  · exact obeys_refused free

theorem obeys_cancelPending (announced : Bool) (free : Free Unresolved world) :
    Obeys format (cancelPending α κ announced) Idle world := by
  refine obeys_free rfl (fun attached world free => ?_) free
  split
  · split
    · exact obeys_deliverCancellation free
    · refine obeys_free rfl (fun _ world free => ?_) free
      exact obeys_deliverCancellation free
  · refine obeys_resolveQuestion (fun world free => ?_) free
    refine Script.Serves.bind ((obeys_settle .cancel free).mono fun _ world closed => ?_)
    exact obeys_fail (expirable_resolves .cancel) closed

theorem obeys_cancelQuestion (idle : world.claim = none) :
    Obeys format (cancelQuestion α κ) Idle world := by
  have idleLasts : Lasts (fun world : QuestionWorld α κ => world.claim = none) :=
    fun _ _ others idle => others.claim.trans idle
  refine obeys_call idleLasts ?_ idle
  intro world choice reply next sound idle _ answered
  cases answered
  refine ⟨fun expired => expired, sound, ?_⟩
  rcases lookup_resolved sound.log with ⟨isNone, unresolved⟩ | ⟨resolution, found, resolves⟩
  · rw [isNone]
    have free : Free Unresolved world := ⟨idle, unresolved⟩
    refine obeys_free rfl (fun expired world free => ?_) free
    split
    · refine obeys_resolveQuestion (fun world free => ?_) free
      have resolves := expirable_resolves (α := α) .cancel
      refine obeys_quiet rfl (Free.lasts resolves) (fun _ world free => ?_) free
      exact obeys_fail resolves free.closed
    · refine obeys_free rfl (fun authority world free => ?_) free
      split
      · refine obeys_free rfl (fun delivery world free => ?_) free
        cases delivery with
        | none => exact obeys_cancelPending false free
        | some held =>
          cases held with
          | cancel => exact obeys_cancelPending true free
          | answer answers => exact obeys_refused free
      · exact obeys_refused free
  · rw [found]
    have settles : Obeys format _ _ _ := obeys_settle resolution ⟨idle, resolves⟩
    refine Script.Serves.bind (settles.mono fun _ world closed => ?_)
    exact obeys_fail (expirable_resolves resolution) closed

end Calls

section Sweep

variable [DecidableEq κ] {format : AnswerFormat α κ}

variable (format) in
def Sweeps {β : Type} (script : QuestionScript α κ β)
    (post : β → QuestionWorld α κ → Prop) (world : QuestionWorld α κ) : Prop :=
  script.Serves ((questionParties format).setting (questionDiscipline format))
    ((questionDiscipline format).role .sweep) post world

variable {request : QuestionCall α κ}

theorem sweeps_quiet {β : Type} {rest : request.Reply → QuestionScript α κ β}
    {post : β → QuestionWorld α κ → Prop} (quiet : request.quiet = true)
    (lasts : ∀ world later, world.SweepRely later → assertion world → assertion later)
    (goes : ∀ reply world, assertion world → Sweeps format (rest reply) post world)
    (holds : assertion world) : Sweeps format (ask request >>= rest) post world := by
  refine Script.Serves.call (fun world later others _ => lasts world later others) ?_ holds
  intro world choice reply next sound holds _ answered
  obtain ⟨still, same⟩ := quiet_call quiet sound answered
  exact ⟨same.callRely, still, goes reply next (lasts world next same.sweepRely holds)⟩

theorem sweeps_last (quiet : request.quiet = true)
    {post : request.Reply → QuestionWorld α κ → Prop} (ends : ∀ reply world, post reply world)
    (world : QuestionWorld α κ) : Sweeps format (ask request) post world := by
  refine Script.Serves.call (fun _ _ _ _ _ => trivial) ?_ (trivial : (fun _ => True) world)
  intro world choice reply next sound _ _ answered
  obtain ⟨still, same⟩ := quiet_call quiet sound answered
  exact ⟨same.callRely, still, ends reply next⟩

theorem sweeps_awaitCancellation (ticket : DeliveryTicket κ) (world : QuestionWorld α κ) :
    Sweeps format (awaitCancellation α κ ticket) (fun _ _ => True) world := by
  have lasts : ∀ world later : QuestionWorld α κ, world.SweepRely later → True → True :=
    fun _ _ _ _ => trivial
  refine sweeps_quiet rfl lasts (fun how world _ => ?_) trivial
  split
  · trivial
  · exact sweeps_last rfl (fun _ _ => trivial) world

theorem sweeps_cancelCallback (expired : .expired ∈ world.log) :
    Sweeps format (cancelCallback α κ) (fun _ _ => True) world := by
  have lasts : ∀ world later : QuestionWorld α κ, world.SweepRely later →
      .expired ∈ world.log → .expired ∈ later.log := fun _ _ others => others
  refine sweeps_quiet rfl lasts (fun attached world expired => ?_) expired
  split
  · refine Script.Serves.call (fun world later others _ => lasts world later others) ?_ expired
    intro world choice reply next sound expired _ answered
    have goes : ∀ world, Sweeps format
        (reply.elim (ask .close) (awaitCancellation α κ)) (fun _ _ => True) world := by
      intro world
      cases reply with
      | none => exact sweeps_last rfl (fun _ _ => trivial) world
      | some ticket => exact sweeps_awaitCancellation ticket world
    have told : world.CallRely next ∧ next.Sound format := by
      cases choice with
      | false =>
        cases answered
        exact ⟨.refl _, sound⟩
      | true =>
        have delivers := delivers format world false .cancel
        have isAnswer : world.deliver format false .cancel = (reply, next) :=
          Option.some.inj answered
        rw [isAnswer] at delivers
        refine ⟨?_, sound.deliver_bySweep expired delivers⟩
        cases delivers with
        | refused | joined attachment delivery isAttached isDelivery key => exact .refl _
        | begun number isAttached ticket isTicket =>
          exact ⟨rfl, rfl, .inl rfl, List.Subset.refl _⟩
    refine ⟨told.1, told.2, ?_⟩
    have rest := goes next
    cases reply <;> exact rest
  · trivial

theorem empty_of_expires (once : ResolvedOnce log)
    (expires : decideExpireQuestion log ≠ []) : log = [] := by
  rcases once with (empty | isLog) | ⟨answers, isLog⟩ | isLog | isLog
  · exact empty
  all_goals
    rw [isLog] at expires
    exact absurd rfl expires

theorem sweeps_expireUnowned (world : QuestionWorld α κ) :
    Sweeps format (expireUnowned α κ) (fun _ _ => True) world := by
  refine Script.Serves.call (fun _ _ _ _ _ => trivial) ?_ (trivial : (fun _ => True) world)
  intro world choice reply next sound _ apart answered
  change questionService format .expireUnlessAlive choice world = some (reply, next) at answered
  simp only [questionService] at answered
  split at answered
  · cases answered
    exact ⟨.refl _, sound, trivial⟩
  next dead =>
    obtain ⟨rfl, rfl⟩ := Prod.mk.inj (Option.some.inj answered)
    by_cases expires : decideExpireQuestion world.log = []
    · simp only [expires, ne_eq, not_true_eq_false, decide_false]
      have same : world.record [] = world := by
        rw [record, List.append_nil]
      rw [same]
      exact ⟨.refl _, sound, trivial⟩
    have empty := empty_of_expires sound.log expires
    have events : decideExpireQuestion world.log = [.expired] := by
      rw [empty]
      rfl
    have isLog : (world.record [.expired]).log = [.expired] := by
      simp [record, empty]
    have still := sound.expire empty (apart ⟨Bool.eq_false_iff.mpr dead, expires⟩)
    rw [events]
    refine ⟨⟨rfl, rfl, .inr ⟨empty, isLog⟩, List.Subset.refl _⟩, still, ?_⟩
    have expired : .expired ∈ (world.record [.expired]).log := by simp [isLog]
    have tells : Sweeps format (cancelCallback α κ >>= fun _ => ask .acknowledge)
        (fun _ _ => True) (world.record [.expired]) := by
      refine Script.Serves.bind ((sweeps_cancelCallback expired).mono fun _ world _ => ?_)
      exact sweeps_last rfl (fun _ _ => trivial) world
    exact tells

theorem sweeps_expireQuestion (world : QuestionWorld α κ) :
    Sweeps format (expireQuestion α κ) (fun _ _ => True) world := by
  have lasts : ∀ world later : QuestionWorld α κ, world.SweepRely later → True → True :=
    fun _ _ _ _ => trivial
  refine sweeps_quiet rfl lasts (fun pending world _ => ?_) trivial
  split
  · refine sweeps_quiet rfl lasts (fun owned world _ => ?_) trivial
    split
    · refine sweeps_quiet rfl lasts (fun attached world _ => ?_) trivial
      split
      · trivial
      · exact sweeps_expireUnowned world
    · exact sweeps_expireUnowned world
  · trivial

end Sweep

section Runs

variable [DecidableEq κ] (format : AnswerFormat α κ)

theorem question_disciplined :
    (questionParties format).Disciplined (questionDiscipline format) where
  refl := by
    intro party world
    cases party with
    | call => exact .refl world
    | sweep => exact fun expired => expired
  trans := by
    intro party first second third one other
    cases party with
    | call => exact CallRely.trans one other
    | sweep => exact fun expired => other (one expired)
  apart := by
    intro party other world next apart guaranteed
    cases party <;> cases other
    · exact absurd rfl apart
    · exact guaranteed
    · exact guaranteed
    · exact absurd rfl apart
  idle := by
    intro party world later others _ idle
    cases party with
    | call => exact others.claim.trans idle
    | sweep => trivial
  program := by
    intro operation world sound idle
    cases operation with
    | answer answers => exact obeys_answerQuestion answers idle
    | cancel => exact obeys_cancelQuestion idle
    | sweep => exact sweeps_expireQuestion world
  interrupt := by
    intro which world next sound permitted happened
    have both (quiet : world.Quiet next) : ∀ party,
        ((questionDiscipline format).role party).rely world next := by
      intro party
      cases party with
      | call => exact quiet.callRely
      | sweep => exact quiet.sweepRely
    cases which with
    | attach =>
      cases happened
      refine ⟨sound.attach, both ?_⟩
      unfold attach
      split <;> exact ⟨rfl, rfl, rfl, List.Subset.refl _⟩
    | detach =>
      cases happened
      exact ⟨sound.detach, both ⟨world.detach_claim, world.detach_returned,
        world.detach_log, world.detach_completed⟩⟩
    | finish accepted =>
      have accepts : accepted = true → world.Accepts := by
        intro isTrue
        subst isTrue
        exact permitted
      refine ⟨sound.finish happened accepts, both ?_⟩
      change world.finish accepted = some next at happened
      unfold finish at happened
      split at happened
      · cases happened
        exact ⟨rfl, rfl, rfl, List.subset_append_left _ _⟩
      · cases happened
    | own owned =>
      cases happened
      exact ⟨sound.of_quiet (sound.book.of_same rfl rfl rfl rfl) rfl rfl rfl
        (fun _ ended => ended) fun _ held => held,
        both ⟨rfl, rfl, rfl, List.Subset.refl _⟩⟩
  crash := by
    intro world sound
    refine ⟨sound.crash, fun party => ?_⟩
    cases party with
    | call => rfl
    | sweep => trivial

/-- What the transcript and the callbacks have of a question, and what the operations that
answered it returned. -/
structure QuestionWorld.OneOutcome (world : QuestionWorld α κ) : Prop where
  log : ResolvedOnce world.log
  valid : lookupDurableQuestionResolution world.log ≠ .invalid
  callback : ∀ first second, (first, true) ∈ world.completed →
    (second, true) ∈ world.completed → first.attachment = second.attachment →
      first.key = second.key
  unexpired : ∀ ticket, (ticket, true) ∈ world.completed → ticket.key ≠ .cancel →
    .expired ∉ world.log
  returned : ∀ answers ∈ world.returned, AnsweredBy format world.log answers

variable {format}

omit [DecidableEq κ] in
theorem QuestionWorld.Sound.oneOutcome (sound : world.Sound format) : world.OneOutcome format where
  log := sound.log
  valid := by
    rcases lookup_resolved sound.log with ⟨isNone, _⟩ | ⟨resolution, found, _⟩
    · rw [isNone]
      simp
    · rw [found]
      simp
  callback := fun first second one other same =>
    congrArg DeliveryTicket.key (sound.book.single first second one other same)
  unexpired := sound.unexpired
  returned := sound.returned

variable (format)

end Runs

section Sample

instance (world : QuestionWorld String String) : Decidable world.Expires :=
  decidable_of_iff ((!world.alive && !(decideExpireQuestion world.log).isEmpty) = true)
    (by simp [QuestionWorld.Expires])

instance (world : QuestionWorld String String) : Decidable world.Receipting :=
  decidable_of_iff ((world.claim.any fun ticket =>
      (world.completed.any fun ended => ended = (ticket, true)) && ticket.key ≠ .cancel) = true)
    (by simp [QuestionWorld.Receipting, Option.any_eq_true])

instance (world : QuestionWorld String String) : Decidable world.Accepts :=
  decidable_of_iff ((world.pending.all fun ticket =>
      ticket.key = .cancel || world.log.all fun event => event ≠ .expired) = true)
    (by
      simp only [QuestionWorld.Accepts, Option.all_eq_true, Bool.or_eq_true,
        decide_eq_true_eq, List.all_eq_true]
      refine forall_congr' fun ticket => forall_congr' fun _ => ?_
      rw [or_iff_not_imp_left]
      exact imp_congr_right fun _ => ⟨fun none expired => none _ expired rfl,
        fun absent event member same => absent (same ▸ member)⟩)

instance (world : QuestionWorld String String) (request : QuestionCall String String)
    (choice : Bool) : Decidable (ExpiresApart world request choice) :=
  match request with
  | .expireUnlessAlive => @instDecidableForall _ _ _ instDecidableNot
  | .lookupResolution | .loadAuthority | .validateAnswer _ | .readDelivery | .hasAttachment
  | .insertDelivery _ | .ownsInputRequest | .deliver .. | .await _ | .awaitBriefly _
  | .persistAnswer _ | .resolveQuestion | .deleteDelivery | .acknowledge | .isExpired
  | .isPending | .close | .reply _ => .isTrue trivial

instance (world : QuestionWorld String String) (which : QuestionInterrupt) :
    Decidable (AcceptsApart world which) :=
  match which with
  | .finish true => inferInstanceAs (Decidable world.Accepts)
  | .finish false | .attach | .detach | .own _ => .isTrue trivial

def textAnswers : AnswerFormat String String where
  answerKey := id
  valid := fun _ => true

abbrev SampleEvent :=
  Parties.Event Bool QuestionParty (QuestionOperation String) QuestionInterrupt

def acceptedAnswer : List SampleEvent :=
  [.interrupt .attach, .interrupt (.own true), .begin (.answer "yes")] ++
    List.replicate 9 (.proceed .call true) ++ [.interrupt (.finish true)]

def sweptQuestion (steps : Nat) : List SampleEvent :=
  [.interrupt (.own false), .begin .sweep] ++ List.replicate steps (.proceed .sweep true)

end Sample

end Zuse.Conversation
