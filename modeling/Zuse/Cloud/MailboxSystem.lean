import Zuse.Data.TransitionSystem
import Zuse.Cloud.MailboxTransactions

namespace Zuse.Cloud

open Zuse.Domain (Millis Number)
open Zuse.Data List

/-! The mailbox as a system of handlers. While a handler awaits a storage call the object
receives no other event, so a handler is one step. Only the alarm's `dispatchWake` leaves
the object: any number of other steps may come before its answer. -/

/-- The instants that a handler reads, in the order in which it reads them. -/
structure Clock where
  before : Millis
  now : Millis
  later : Millis
  after : Millis
  ordered : before ≤ now ∧ now ≤ later ∧ later ≤ after

def Clock.at (instant : Millis) : Clock where
  before := instant
  now := instant
  later := instant
  after := instant
  ordered := ⟨le_refl _, le_refl _, le_refl _⟩

/-- A handled operation, with the tables before and after it. -/
structure MailboxCall where
  operation : MailboxOperation
  response : Option Response
  before : Mailbox
  after : Mailbox

structure MailboxWorld where
  mailbox : Mailbox
  alarm : Option Millis
  now : Millis
  dispatches : List WakeDispatch
  recomputedAt : Millis
  calls : List MailboxCall

inductive MailboxStep where
  | request (clock : Clock) (request : MailboxRequest)
  | alarm (clock : Clock)
  | wakeSettled (clock : Clock) (dispatch : WakeDispatch) (succeeded : Bool)

/-- `setAlarm`, unless an earlier alarm is still to come. -/
def schedule (alarm : Option Millis) (now instant : Millis) : Option Millis :=
  match alarm with
  | none => some instant
  | some current => if current ≤ now ∨ instant < current then some instant else some current

def MailboxRequest.scheduledFirst (mailbox : Mailbox) (now : Millis) :
    MailboxRequest → Option Millis
  | .reserve _ => some (now + reservationTtlMs)
  | .commit _ _ delivery => delivery.map fun _ => now + 1
  | .block _ _ => none
  | .unblock _ _ => mailbox.wakeRevision.map fun _ => now + 1
  | .cancel _ _ => some (now + resultRetentionMs)
  | .lease _ _ => some (now + leaseTtlMs)
  | .acknowledge _ => some (now + resultRetentionMs)
  | .lifecycle _ _ => some (now + resultRetentionMs)

/-- A refused reservation is the one request that does not compute the alarm again. -/
def MailboxRequest.recomputes (response : Response) : MailboxRequest → Bool
  | .reserve _ => response.ok
  | _ => true

namespace Mailbox

variable (mailbox : Mailbox)

def wakeDue [host : MailboxHost] : Option Nat :=
  if host.dispatchesWake ∧ mailbox.wakeRevision ≠ mailbox.wakeDeliveredRevision then
    mailbox.wakeRevision
  else none

def wakeBound : Bool :=
  mailbox.wakeWorkspaceId.isSome ∧ mailbox.wakeAccountId.isSome

end Mailbox

namespace MailboxWorld

variable (world : MailboxWorld)

def init : MailboxWorld where
  mailbox := Mailbox.empty
  alarm := none
  now := 0
  dispatches := []
  recomputedAt := 0
  calls := []

def scheduleFirst (clock : Clock) (request : MailboxRequest) : MailboxWorld :=
  match request.scheduledFirst world.mailbox clock.before with
  | none => world
  | some instant => { world with alarm := schedule world.alarm clock.before instant }

def scheduleNext (clock : Clock) : MailboxWorld :=
  { world with
    alarm := match world.mailbox.nextAlarmDeadline with
      | none => none
      | some deadline => schedule world.alarm clock.after (max (clock.after + 1) deadline)
    recomputedAt := clock.after }

def record (operation : MailboxOperation) (response : Option Response) (after : Mailbox) :
    MailboxWorld :=
  { world with
    mailbox := after
    calls := world.calls ++ [{ operation, response, before := world.mailbox, after }] }

variable [MailboxHost]

def handle (clock : Clock) (request : MailboxRequest) : MailboxWorld :=
  let result := world.mailbox.handle clock.now clock.later request
  let handled :=
    (world.scheduleFirst clock request).record (.request request) (some result.1) result.2
  if request.recomputes result.1 then handled.scheduleNext clock else handled

/-- The alarm up to its dispatch. It clears the alarm that it answers. -/
def runAlarm (clock : Clock) : MailboxWorld :=
  let cleared := { world with
    alarm := world.alarm.filter fun instant => clock.before < instant }
  let swept := world.mailbox.sweep clock.now
  match swept.wakeDue with
  | none => (cleared.record .alarm none swept).scheduleNext clock
  | some revision =>
    if swept.wakeBound then
      { cleared.record .alarm none swept with
        dispatches := world.dispatches ++ [⟨revision, world.calls.length⟩] }
    else
      (cleared.record .alarm none (swept.wakeFailed revision clock.later)).scheduleNext clock

def settleWake (clock : Clock) (dispatch : WakeDispatch) (succeeded : Bool) : MailboxWorld :=
  let after :=
    if succeeded then world.mailbox.wakeDelivered dispatch.revision
    else world.mailbox.wakeFailed dispatch.revision clock.now
  ({ world with dispatches := world.dispatches.erase dispatch }.record
    (.wakeSettled dispatch succeeded) none after).scheduleNext clock

def step : MailboxStep → Option MailboxWorld
  | .request clock request =>
    if world.now ≤ clock.before then
      some { world.handle clock request with now := clock.after }
    else none
  | .alarm clock =>
    if world.now ≤ clock.before then some { world.runAlarm clock with now := clock.after }
    else none
  | .wakeSettled clock dispatch succeeded =>
    if world.now ≤ clock.before ∧ dispatch ∈ world.dispatches then
      some { world.settleWake clock dispatch succeeded with now := clock.after }
    else none

end MailboxWorld

def mailboxSystem [MailboxHost] : TransitionSystem MailboxWorld MailboxStep where
  init := MailboxWorld.init
  step := fun world label => world.step label

/-- The size of an envelope without an actor whose texts need no escapes and whose numbers
have one digit. -/
@[reducible] def plainHost : MailboxHost where
  envelopeBytes := fun envelope =>
    205 + envelope.workspaceId.length + envelope.sessionId.length +
      envelope.commandId.length + envelope.kind.length + envelope.fingerprint.length +
      envelope.iv.length + envelope.ciphertext.length
  dispatchesWake := true

def plainEnvelope (commandId : CommandId) (destructionFence : Number) : CloudCommandEnvelope where
  protocolVersion := 3
  workspaceId := "workspace"
  sessionId := "session"
  commandId
  kind := "messages.send"
  fingerprint := commandId
  schemaVersion := 1
  keyVersion := 1
  destructionFence
  createdAt := 0
  iv := "iv"
  ciphertext := "text"
  dependencies := []
  actor := none

def plainDelivery : MailboxWakeDelivery :=
  { workspaceId := "workspace", accountId := "account" }

def plainLease (runtimeGeneration : Number) : LeaseInput where
  runtimeGeneration
  providerSandboxId := "sandbox"
  storageIncarnationId := "storage"
  destructionFence := 0

section History

variable [MailboxHost]

inductive Performs : MailboxCall → Prop
  | request (now later : Millis) (request : MailboxRequest) (before : Mailbox) :
      Performs
        { operation := .request request
          response := some (before.handle now later request).1
          before
          after := (before.handle now later request).2 }
  | alarm (now : Millis) (before : Mailbox) :
      Performs { operation := .alarm, response := none, before, after := before.sweep now }
  | alarmUnbound (now later : Millis) (revision : Nat) (before : Mailbox) :
      Performs
        { operation := .alarm
          response := none
          before
          after := (before.sweep now).wakeFailed revision later }
  | delivered (dispatch : WakeDispatch) (before : Mailbox) :
      Performs
        { operation := .wakeSettled dispatch true
          response := none
          before
          after := before.wakeDelivered dispatch.revision }
  | failed (now : Millis) (dispatch : WakeDispatch) (before : Mailbox) :
      Performs
        { operation := .wakeSettled dispatch false
          response := none
          before
          after := before.wakeFailed dispatch.revision now }

inductive History (start : Mailbox) : List MailboxCall → Mailbox → Prop
  | start : History start [] start
  | call {calls : List MailboxCall} {call : MailboxCall}
      (history : History start calls call.before) (performs : Performs call) :
      History start (calls ++ [call]) call.after

theorem MailboxWorld.step_call {world next : MailboxWorld} {label : MailboxStep}
    (stepped : world.step label = some next) :
    ∃ call, Performs call ∧ call.before = world.mailbox ∧ call.after = next.mailbox ∧
      next.calls = world.calls ++ [call] := by
  cases label with
  | request clock request =>
    rw [step] at stepped
    split at stepped
    · cases stepped
      have first : (world.scheduleFirst clock request).calls = world.calls ∧
          (world.scheduleFirst clock request).mailbox = world.mailbox := by
        rw [scheduleFirst]
        split <;> exact ⟨rfl, rfl⟩
      refine ⟨_, .request clock.now clock.later request world.mailbox, rfl, ?_⟩
      simp only [handle]
      split <;> simp [record, scheduleNext, first.1, first.2]
    · cases stepped
  | alarm clock =>
    rw [step] at stepped
    split at stepped
    · cases stepped
      simp only [runAlarm]
      split
      · exact ⟨_, .alarm clock.now world.mailbox, rfl, rfl, rfl⟩
      · rename_i revision _
        split
        · exact ⟨_, .alarm clock.now world.mailbox, rfl, rfl, rfl⟩
        · exact ⟨_, .alarmUnbound clock.now clock.later revision world.mailbox, rfl, rfl,
            rfl⟩
    · cases stepped
  | wakeSettled clock dispatch succeeded =>
    rw [step] at stepped
    split at stepped
    · cases stepped
      cases succeeded with
      | true => exact ⟨_, .delivered dispatch world.mailbox, rfl, rfl, rfl⟩
      | false => exact ⟨_, .failed clock.now dispatch world.mailbox, rfl, rfl, rfl⟩
    · cases stepped

theorem history_of_reachable {world : MailboxWorld} (reachable : mailboxSystem.Reachable world) :
    History Mailbox.empty world.calls world.mailbox := by
  induction reachable with
  | init => exact .start
  | step _ stepped ih =>
    obtain ⟨call, performs, before, after, calls⟩ := MailboxWorld.step_call stepped
    rw [calls, ← after]
    exact .call (before ▸ ih) performs

theorem wakeFailed_edit {mailbox : Mailbox} {operation : MailboxOperation} (revision : Nat)
    (now : Millis) : Mailbox.Edit operation mailbox (mailbox.wakeFailed revision now) := by
  rw [Mailbox.wakeFailed]
  split
  · exact .configure ⟨rfl, rfl, rfl, rfl, rfl, rfl, rfl, rfl, rfl⟩
      ⟨.inl ⟨rfl, rfl, rfl, rfl⟩, .inl rfl⟩
  · exact .configure ⟨rfl, rfl, rfl, rfl, rfl, rfl, rfl, rfl, rfl⟩ .refl

theorem Performs.edits {call : MailboxCall} (performs : Performs call)
    (distinct : call.before.commandIds.Nodup) :
    Mailbox.Edits call.operation call.before call.after := by
  cases performs with
  | request now later request before => exact Mailbox.handle_edits distinct request
  | alarm now before => exact Mailbox.sweep_edits
  | alarmUnbound now later revision before =>
    exact Mailbox.sweep_edits.tail (wakeFailed_edit revision later)
  | delivered dispatch before =>
    have configured : Mailbox.Edit (.wakeSettled dispatch true) before
        { before with wakeDeliveredRevision := some dispatch.revision } :=
      .configure ⟨rfl, rfl, rfl, rfl, rfl, rfl, rfl, rfl, rfl⟩
        ⟨.inl ⟨rfl, rfl, rfl, rfl⟩, .inr ⟨dispatch, rfl, rfl⟩⟩
    exact (Relation.ReflTransGen.single configured).tail .bump
  | failed now dispatch before => exact .single (wakeFailed_edit dispatch.revision now)

namespace History

variable {start last : Mailbox} {calls : List MailboxCall}

theorem split {earlier later : List MailboxCall} (history : History start (earlier ++ later) last) :
    ∃ between, History start earlier between ∧ History between later last := by
  generalize joined : earlier ++ later = calls at history
  induction history generalizing later with
  | start =>
    obtain ⟨rfl, rfl⟩ := append_eq_nil_iff.mp joined
    exact ⟨start, .start, .start⟩
  | @call before call history performs ih =>
    rcases eq_nil_or_concat later with rfl | ⟨init, final, rfl⟩
    · rw [append_nil] at joined
      exact ⟨call.after, joined ▸ history.call performs, .start⟩
    rw [concat_eq_append, ← append_assoc] at joined
    obtain ⟨rfl, sameCall⟩ := append_inj' joined rfl
    cases sameCall
    obtain ⟨between, first, second⟩ := ih rfl
    rw [concat_eq_append]
    exact ⟨between, first, second.call performs⟩

theorem at_call {earlier later : List MailboxCall} {call : MailboxCall}
    (history : History start (earlier ++ call :: later) last) :
    History start earlier call.before ∧ Performs call ∧ History call.after later last := by
  rw [← singleton_append, ← append_assoc] at history
  obtain ⟨between, first, second⟩ := history.split
  generalize joined : earlier ++ [call] = calls at first
  cases first with
  | start => exact absurd joined (by simp)
  | @call before other history performs =>
    obtain ⟨rfl, sameCall⟩ := append_inj' joined rfl
    cases sameCall
    exact ⟨history, performs, second⟩

theorem preserves (property : Mailbox → Prop) (history : History start calls last)
    (distinct : ∀ mailbox, property mailbox → mailbox.commandIds.Nodup)
    (preserved : ∀ operation before after, property before →
      Mailbox.Edit operation before after → property after)
    (holds : property start) : property last := by
  induction history with
  | start => exact holds
  | @call calls call _ performs ih =>
    exact (performs.edits (distinct _ ih)).preserves property (preserved _) ih

end History

end History

end Zuse.Cloud
