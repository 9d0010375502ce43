import Zuse.Data.Parties

namespace Zuse.Conversation

open Data (Script Parties WaitingService)

/-! One question: what its session holds of it, the callback of its provider, and the
operations that answer it, cancel it and let it expire. -/

/-- How answers are compared, and which fit the question. -/
structure AnswerFormat (α κ : Type) where
  answerKey : α → κ
  valid : α → Bool

/-- The events that resolve a question; answers are a message with a fixed id. -/
inductive QuestionEvent (α : Type) where
  | answered (answers : α)
  | cancelled
  | expired
  deriving DecidableEq

/-- The `status` of the question in `session_inputs`. -/
inductive InputStatus where
  | pending
  | answered
  | cancelled
  | expired
  deriving DecidableEq

/-- A resolution, and also the row that announces its delivery. -/
inductive DurableQuestionResolution (α : Type) where
  | answer (answers : α)
  | cancel

inductive DurableQuestionResolutionLookup (α : Type) where
  | none
  | invalid
  | found (resolution : DurableQuestionResolution α)

section Log

variable {α : Type}

def QuestionEvent.status : QuestionEvent α → InputStatus
  | .answered _ => .answered
  | .cancelled => .cancelled
  | .expired => .expired

def InputStatus.resolve (held : InputStatus) (event : QuestionEvent α) : InputStatus :=
  match held with
  | .pending | .expired => event.status
  | .answered | .cancelled => held

variable (log : List (QuestionEvent α))

def inputStatus : InputStatus :=
  log.foldl InputStatus.resolve .pending

/-- Whether the decider holds the question for resolved, and for expired. -/
def resolvedQuestion : Bool :=
  log.any fun event => event.status ≠ .expired

def expiredQuestion : Bool :=
  log.foldl (fun _ event => event.status = .expired) false

def decideExpireQuestion : List (QuestionEvent α) :=
  if resolvedQuestion log ∨ expiredQuestion log then [] else [.expired]

def decideResolveQuestion : List (QuestionEvent α) :=
  if resolvedQuestion log then [] else [.cancelled]

/-- The answers of a message, the last where it was written more than once. -/
def answerRow : Option α :=
  log.foldl (fun held event =>
    match event with
    | .answered answers => some answers
    | _ => held) none

def cancellationRows : Nat :=
  log.countP fun event => event.status = .cancelled

def lookupDurableQuestionResolution :
    DurableQuestionResolutionLookup α :=
  match answerRow log, cancellationRows log with
  | none, 0 => .none
  | none, 1 => .found .cancel
  | some answers, 0 => .found (.answer answers)
  | _, _ => .invalid

end Log

inductive DeliveryKey (κ : Type) where
  | answer (key : κ)
  | cancel
  deriving DecidableEq

/-- One delivery to one callback, and whether an operation under the lock began it. -/
structure DeliveryTicket (κ : Type) where
  number : Nat
  attachment : Nat
  key : DeliveryKey κ
  byCall : Bool
  deriving DecidableEq

structure CallbackDelivery (κ : Type) where
  ticket : DeliveryTicket κ
  accepted : Bool

structure QuestionAttachment (κ : Type) where
  number : Nat
  delivery : Option (CallbackDelivery κ)

/-- The question between two steps. Its log, its delivery row and its ownership are durable;
`claim` and `returned` only observe the operations: the delivery that the one under the lock
waits for or records, and the answers of those that succeeded. -/
structure QuestionWorld (α κ : Type) where
  log : List (QuestionEvent α)
  delivery : Option (DurableQuestionResolution α)
  owned : Bool
  attachment : Option (QuestionAttachment κ)
  completed : List (DeliveryTicket κ × Bool)
  nextAttachment : Nat
  nextTicket : Nat
  claim : Option (DeliveryTicket κ)
  returned : List α

section World

variable {α κ : Type} [DecidableEq κ] (format : AnswerFormat α κ) (world : QuestionWorld α κ)

def DurableQuestionResolution.key : DurableQuestionResolution α → DeliveryKey κ
  | .answer answers => .answer (format.answerKey answers)
  | .cancel => .cancel

def DurableQuestionResolution.fits : DurableQuestionResolution α → Bool
  | .answer answers => format.valid answers
  | .cancel => true

namespace QuestionWorld

def initial : QuestionWorld α κ where
  log := []
  delivery := none
  owned := false
  attachment := none
  completed := []
  nextAttachment := 0
  nextTicket := 0
  claim := none
  returned := []

def record (events : List (QuestionEvent α)) : QuestionWorld α κ :=
  { world with log := world.log ++ events }

def attach : QuestionWorld α κ :=
  match world.attachment with
  | some _ => world
  | none =>
    { world with
      attachment := some { number := world.nextAttachment, delivery := none }
      nextAttachment := world.nextAttachment + 1 }

/-- Take the callback away; a delivery that it has not accepted fails. -/
def detach : QuestionWorld α κ :=
  match world.attachment.bind QuestionAttachment.delivery with
  | some { ticket, accepted := false } =>
    { world with attachment := none, completed := world.completed ++ [(ticket, false)] }
  | _ => { world with attachment := none }

/-- Begin a delivery or join the one there is; one with another key is refused. -/
def deliver (byCall : Bool) (resolution : DurableQuestionResolution α) :
    Option (DeliveryTicket κ) × QuestionWorld α κ :=
  match world.attachment with
  | none => (none, world)
  | some attachment =>
    if resolution.fits format = false then (none, world)
    else
      match attachment.delivery with
      | some delivery =>
        if delivery.ticket.key = resolution.key format then (some delivery.ticket, world)
        else (none, world)
      | none =>
        let ticket : DeliveryTicket κ :=
          { number := world.nextTicket, attachment := attachment.number
            key := resolution.key format, byCall }
        (some ticket,
          { world with
            attachment :=
              some { attachment with delivery := some { ticket, accepted := false } }
            nextTicket := world.nextTicket + 1 })

/-- The callback accepts its delivery, or the delivery fails and can be tried again. -/
def finish (accepted : Bool) : Option (QuestionWorld α κ) :=
  match world.attachment with
  | some { number, delivery := some { ticket, accepted := false } } =>
    some
      { world with
        attachment :=
          some
            { number
              delivery := if accepted then some { ticket, accepted := true } else none }
        completed := world.completed ++ [(ticket, accepted)] }
  | _ => none

def outcome (ticket : DeliveryTicket κ) : Option Bool :=
  (world.completed.find? fun ended => ended.1 = ticket).map Prod.snd

def alive : Bool := world.owned && world.attachment.isSome

end QuestionWorld

end World

inductive QuestionCall (α κ : Type) where
  | lookupResolution
  | loadAuthority
  | validateAnswer (answers : α)
  | readDelivery
  | hasAttachment
  | insertDelivery (resolution : DurableQuestionResolution α)
  | ownsInputRequest
  | deliver (byCall : Bool) (resolution : DurableQuestionResolution α)
  | await (ticket : DeliveryTicket κ)
  | awaitBriefly (ticket : DeliveryTicket κ)
  | persistAnswer (answers : α)
  | resolveQuestion
  | deleteDelivery
  | acknowledge
  | isExpired
  | isPending
  | expireUnlessAlive
  | close
  | reply (answers : Option α)

abbrev QuestionCall.Reply {α κ : Type} : QuestionCall α κ → Type
  | .lookupResolution => DurableQuestionResolutionLookup α
  | .loadAuthority => Bool
  | .validateAnswer _ => Bool
  | .readDelivery => Option (DurableQuestionResolution α)
  | .hasAttachment => Bool
  | .insertDelivery _ => Unit
  | .ownsInputRequest => Bool
  | .deliver .. => Option (DeliveryTicket κ)
  | .await _ => Bool
  | .awaitBriefly _ => Option Bool
  | .persistAnswer _ => Unit
  | .resolveQuestion => Unit
  | .deleteDelivery => Unit
  | .acknowledge => Unit
  | .isExpired => Bool
  | .isPending => Bool
  | .expireUnlessAlive => Bool
  | .close => Unit
  | .reply _ => Unit

abbrev QuestionScript (α κ β : Type) := Script (QuestionCall α κ) QuestionCall.Reply β

section Calls

variable {α κ : Type} [DecidableEq κ] (format : AnswerFormat α κ)

/-- The environment chooses whether the provider session is there, whether a wait lasts and
whether a close succeeds. -/
def questionService :
    WaitingService (QuestionWorld α κ) (QuestionCall α κ) Bool QuestionCall.Reply :=
  fun request choice world =>
    match request with
    | .lookupResolution => some (lookupDurableQuestionResolution world.log, world)
    | .loadAuthority => some (inputStatus world.log = .pending && world.owned, world)
    | .validateAnswer answers =>
      some (world.attachment.isSome && format.valid answers, world)
    | .readDelivery => some (world.delivery, world)
    | .hasAttachment => some (world.attachment.isSome, world)
    | .insertDelivery resolution => some ((), { world with delivery := some resolution })
    | .ownsInputRequest => some (world.owned, world)
    | .deliver byCall resolution =>
      if choice then
        let delivered := world.deliver format byCall resolution
        if byCall then some (delivered.1, { delivered.2 with claim := delivered.1 })
        else some delivered
      else some (none, world)
    | .await ticket => (world.outcome ticket).map fun accepted => (accepted, world)
    | .awaitBriefly ticket =>
      if choice then (world.outcome ticket).map fun accepted => (some accepted, world)
      else some (none, world)
    | .persistAnswer answers => some ((), world.record [.answered answers])
    | .resolveQuestion => some ((), world.record (decideResolveQuestion world.log))
    | .deleteDelivery => some ((), { world with delivery := none })
    | .acknowledge => some ((), world.detach)
    | .isExpired => some (inputStatus world.log = .expired, world)
    | .isPending => some (inputStatus world.log = .pending, world)
    | .expireUnlessAlive =>
      if world.alive then some (false, world)
      else
        let events := decideExpireQuestion world.log
        some (events ≠ [], world.record events)
    | .close => some ((), if choice then world.detach else world)
    | .reply answers =>
      some ((), { world with claim := none, returned := world.returned ++ answers.toList })

def ask (request : QuestionCall α κ) : QuestionScript α κ request.Reply :=
  Script.perform request

variable (α κ) in
def settleDurableQuestionResolution (resolution : DurableQuestionResolution α) :
    QuestionScript α κ Bool := do
  if ← ask .hasAttachment then
    match ← ask (.deliver true resolution) with
    | none => return false
    | some ticket =>
      if ← ask (.await ticket) then
        ask .deleteDelivery
        ask .acknowledge
        return true
      else return false
  else
    ask .deleteDelivery
    return true

def deliverAnswer (answers durable : α) : QuestionScript α κ Unit := do
  if ← ask .hasAttachment then
    if ← ask .ownsInputRequest then
      match ← ask (.deliver true (.answer durable)) with
      | none => ask (.reply none)
      | some ticket =>
        if ← ask (.await ticket) then
          ask (.persistAnswer durable)
          ask .deleteDelivery
          ask .acknowledge
          ask (.reply (some answers))
        else ask (.reply none)
    else ask (.reply none)
  else ask (.reply none)

def answerQuestion (answers : α) : QuestionScript α κ Unit := do
  match ← ask .lookupResolution with
  | .found (.answer receipt) =>
    if ← settleDurableQuestionResolution α κ (.answer receipt) then
      if format.answerKey receipt = format.answerKey answers then
        ask (.reply (some answers))
      else ask (.reply none)
    else ask (.reply none)
  | .found .cancel =>
    let _ ← settleDurableQuestionResolution α κ .cancel
    ask (.reply none)
  | .invalid => ask (.reply none)
  | .none =>
    if ← ask .loadAuthority then
      if ← ask (.validateAnswer answers) then
        match ← ask .readDelivery with
        | none =>
          if ← ask .hasAttachment then
            ask (.insertDelivery (.answer answers))
            deliverAnswer answers answers
          else ask (.reply none)
        | some (.answer durable) =>
          if format.answerKey durable = format.answerKey answers then
            deliverAnswer answers durable
          else ask (.reply none)
        | some .cancel => ask (.reply none)
      else ask (.reply none)
    else ask (.reply none)

variable (α κ)

/-- The part of a cancellation from where its delivery row is written. -/
def deliverCancellation : QuestionScript α κ Unit := do
  if ← ask .hasAttachment then
    if ← ask .ownsInputRequest then
      match ← ask (.deliver true .cancel) with
      | none => ask (.reply none)
      | some ticket =>
        if ← ask (.await ticket) then
          ask .resolveQuestion
          ask .deleteDelivery
          ask .acknowledge
          ask (.reply none)
        else ask (.reply none)
    else ask (.reply none)
  else ask (.reply none)

/-- The cancellation of a question that no callback waits for, or its delivery. -/
def cancelPending (announced : Bool) : QuestionScript α κ Unit := do
  if ← ask .hasAttachment then
    if announced then deliverCancellation α κ
    else
      ask (.insertDelivery .cancel)
      deliverCancellation α κ
  else
    ask .resolveQuestion
    let _ ← settleDurableQuestionResolution α κ .cancel
    ask (.reply none)

def cancelQuestion : QuestionScript α κ Unit := do
  match ← ask .lookupResolution with
  | .found resolution =>
    let _ ← settleDurableQuestionResolution α κ resolution
    ask (.reply none)
  | .invalid => ask (.reply none)
  | .none =>
    if ← ask .isExpired then
      ask .resolveQuestion
      ask .deleteDelivery
      ask (.reply none)
    else if ← ask .loadAuthority then
      match ← ask .readDelivery with
      | none => cancelPending α κ false
      | some .cancel => cancelPending α κ true
      | some (.answer _) => ask (.reply none)
    else ask (.reply none)

/-- Wait for the callback to take the cancellation, and close its session where it does not
in time. -/
def awaitCancellation (ticket : DeliveryTicket κ) : QuestionScript α κ Unit := do
  match ← ask (.awaitBriefly ticket) with
  | some true => pure ()
  | _ => ask .close

def cancelCallback : QuestionScript α κ Unit := do
  if ← ask .hasAttachment then
    match ← ask (.deliver false .cancel) with
    | none => ask .close
    | some ticket => awaitCancellation α κ ticket
  else pure ()

def expireUnowned : QuestionScript α κ Unit := do
  if ← ask .expireUnlessAlive then
    cancelCallback α κ
    ask .acknowledge
  else pure ()

def expireQuestion : QuestionScript α κ Unit := do
  if ← ask .isPending then
    if ← ask .ownsInputRequest then
      if ← ask .hasAttachment then pure ()
      else expireUnowned α κ
    else expireUnowned α κ
  else pure ()

end Calls

end Zuse.Conversation
