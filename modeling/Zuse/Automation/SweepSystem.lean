import Zuse.Automation.ScheduledTasks
import Zuse.Data.TransitionSystem

namespace Zuse.Automation

open Zuse.Data

/-! Users and sweeps over the same tables: every statement and transaction is one step,
a sweep can end between any two, and the process can die at any time. -/

structure Creating where
  input : ScheduledTaskCreate
  actor : Option WorkspaceActor
  timestamp : Nat
  inserted : Bool

inductive SweepStage
  | recording
  | reading
  /-- The rows are delivered one after the other; the session of the first is read next. -/
  | delivering (rows : List PendingRow)
  /-- `deliver` runs for a row. -/
  | admitting (row : PendingRow) (rest : List PendingRow)
  | failing (row : PendingRow) (rest : List PendingRow)
  | deferring (row : PendingRow) (rest : List PendingRow)
  | ended
  deriving DecidableEq

structure Sweep where
  timestamp : Nat
  stage : SweepStage
  deriving DecidableEq

/-- A delivery that was admitted, with what it carried. -/
structure Admission where
  taskId : String
  eventId : EventId
  commandId : String
  sessionId : String
  prompt : String
  actor : Option WorkspaceActor

def Admission.key (admission : Admission) : String × EventId :=
  (admission.taskId, admission.eventId)

/-- What the tables do not keep: which deliveries were recorded, and which tasks were
disabled, removed or cancelled. -/
inductive Mark
  | recorded (taskId : String) (eventId : EventId)
  | stopped (taskId : String)

structure AutomationWorld where
  now : Nat
  db : AutomationDb
  creating : List Creating
  replies : List (Except AutomationError ScheduledTask)
  sweeps : List Sweep
  admitted : List Admission
  history : List Mark

inductive AutomationStep
  | tick (later : Nat)
  | setChat (row : ChatRow)
  | setSession (row : SessionRow)
  | create (input : ScheduledTaskCreate) (actor : Option WorkspaceActor)
  | insertTask (index : Nat) (uuid : String)
  | returnTask (index : Nat)
  | update (input : ScheduledTaskUpdate) (actor : Option WorkspaceActor)
  | remove (sessionId taskId : String)
  | trigger (sessionId taskId eventId uuid : String)
  | cancelSession (sessionId : String)
  | sweep
  | proceed (index : Nat) (uuids : List String)
  /-- The transaction of `deliver` with `committed` inside; `deliver` can fail after it. -/
  | deliver (index : Nat) (failsAfter : Bool)
  /-- `deliver` fails and its transaction is rolled back. -/
  | refuse (index : Nat)
  | stop (index : Nat)
  | crash

namespace AutomationWorld

variable (world : AutomationWorld)

def recordedMarks (before after : AutomationDb) : List Mark :=
  ((after.deliveries.drop before.deliveries.length).map fun row =>
    Mark.recorded row.taskId row.eventId).reverse

def stoppedMarks (selected : TaskRow → Bool) : List Mark :=
  (world.db.tasks.filter selected).map fun task => .stopped task.id

def setStage (index : Nat) (sweep : Sweep) (stage : SweepStage) : AutomationWorld :=
  { world with sweeps := world.sweeps.set index { sweep with stage } }

def reply (answer : Except AutomationError ScheduledTask) : AutomationWorld :=
  { world with replies := answer :: world.replies }

def update (input : ScheduledTaskUpdate) (actor : Option WorkspaceActor) : AutomationWorld :=
  match Automation.update world.db input actor world.now with
  | .error error => world.reply (.error error)
  | .ok (task, db) =>
    { world with
      db
      replies := .ok task :: world.replies
      history :=
        if input.enabled = some false then .stopped input.taskId :: world.history
        else world.history }

def remove (sessionId taskId : String) : AutomationWorld :=
  { world with
    db := Automation.remove world.db sessionId taskId world.now
    history := world.stoppedMarks (fun task =>
      task.id = taskId && task.sessionId = sessionId) ++ world.history }

def trigger (sessionId taskId eventId uuid : String) : AutomationWorld :=
  match Automation.trigger world.db sessionId taskId eventId uuid world.now with
  | .error error => world.reply (.error error)
  | .ok db =>
    { world with db, history := recordedMarks world.db db ++ world.history }

def cancelSession (sessionId : String) : AutomationWorld :=
  { world with
    db := cancelSessionAutomation world.db sessionId
    history := world.stoppedMarks (fun task => task.sessionId = sessionId) ++ world.history }

/-- The recording transaction of a sweep; where it fails the sweep is over. -/
def record (index : Nat) (sweep : Sweep) (uuids : List String) : AutomationWorld :=
  match recordDue world.db sweep.timestamp uuids with
  | none => world.setStage index sweep .ended
  | some db =>
    { world with
      db
      sweeps := world.sweeps.set index { sweep with stage := .reading }
      history := recordedMarks world.db db ++ world.history }

def proceed (index : Nat) (sweep : Sweep) (uuids : List String) : Option AutomationWorld :=
  match sweep.stage with
  | .recording =>
    if uuids.length = (dueTasks world.db sweep.timestamp).length then
      some (world.record index sweep uuids)
    else none
  | .reading =>
    some (world.setStage index sweep (.delivering (pendingRows world.db sweep.timestamp)))
  | .delivering [] => some (world.setStage index sweep .ended)
  | .delivering (row :: rest) =>
    some (world.setStage index sweep
      (if world.db.live row.sessionId then .admitting row rest else .failing row rest))
  | .admitting _ _ => none
  | .failing row rest =>
    some ({ world with db := noteFailure world.db row }.setStage index sweep (.deferring row rest))
  | .deferring row rest =>
    some ({ world with db := deferRetry world.db row sweep.timestamp }.setStage index sweep
      (.delivering rest))
  | .ended => none

def deliver (index : Nat) (sweep : Sweep) (row : PendingRow) (rest : List PendingRow)
    (failsAfter : Bool) : AutomationWorld :=
  match committed world.db row sweep.timestamp with
  | none => world.setStage index sweep (.failing row rest)
  | some (delivery, db) =>
    let admission : Admission :=
      ⟨delivery.taskId, delivery.eventId, row.commandId, row.sessionId, row.prompt, row.actor⟩
    { world with db, admitted := admission :: world.admitted }.setStage index sweep
      (if failsAfter then .failing row rest else .delivering rest)

def delivering (index : Nat) : Option (Sweep × PendingRow × List PendingRow) :=
  (world.sweeps[index]?).bind fun sweep =>
    match sweep.stage with
    | .admitting row rest => some (sweep, row, rest)
    | _ => none

def step : AutomationStep → Option AutomationWorld
  | .tick later => if world.now ≤ later then some { world with now := later } else none
  | .setChat row =>
    some { world with
      db := { world.db with chats := Table.put ChatRow.id row world.db.chats } }
  | .setSession row =>
    some { world with
      db := { world.db with sessions := Table.put SessionRow.id row world.db.sessions } }
  | .create input actor =>
    match world.db.assertSession input.sessionId with
    | .error error => some (world.reply (.error error))
    | .ok () =>
      some { world with
        creating := world.creating ++ [⟨input, actor, world.now, false⟩] }
  | .insertTask index uuid =>
    (world.creating[index]?).bind fun creating =>
      if creating.inserted then none
      else
        match insertTask world.db creating.input creating.actor uuid creating.timestamp with
        | none => some
            ({ world with creating := world.creating.eraseIdx index }.reply (.error storageError))
        | some db => some
            { world with
              db
              creating := world.creating.set index { creating with inserted := true } }
  | .returnTask index =>
    (world.creating[index]?).bind fun creating =>
      if creating.inserted then
        some ({ world with creating := world.creating.eraseIdx index }.reply
          (createdTask world.db creating.input creating.actor))
      else none
  | .update input actor => some (world.update input actor)
  | .remove sessionId taskId => some (world.remove sessionId taskId)
  | .trigger sessionId taskId eventId uuid =>
    some (world.trigger sessionId taskId eventId uuid)
  | .cancelSession sessionId => some (world.cancelSession sessionId)
  | .sweep => some { world with sweeps := world.sweeps ++ [⟨world.now, .recording⟩] }
  | .proceed index uuids =>
    (world.sweeps[index]?).bind fun sweep => world.proceed index sweep uuids
  | .deliver index failsAfter =>
    (world.delivering index).map fun current =>
      world.deliver index current.1 current.2.1 current.2.2 failsAfter
  | .refuse index =>
    (world.delivering index).map fun current =>
      world.setStage index current.1 (.failing current.2.1 current.2.2)
  | .stop index =>
    (world.sweeps[index]?).map fun sweep => world.setStage index sweep .ended
  | .crash => some
      { world with
        creating := []
        sweeps := world.sweeps.map fun sweep => { sweep with stage := .ended } }

end AutomationWorld

def automationSystem : TransitionSystem AutomationWorld AutomationStep where
  init := ⟨0, ⟨[], [], [], []⟩, [], [], [], [], []⟩
  step := fun world label => world.step label

end Zuse.Automation
