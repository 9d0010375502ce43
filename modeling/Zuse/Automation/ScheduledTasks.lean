import Zuse.Data.Table

namespace Zuse.Automation

open Zuse.Data

inductive TaskSchedule
  | once (at_ : Nat)
  | interval (everyMs : Nat) (startAt : Option Nat)
  | webhook
  deriving DecidableEq

structure WorkspaceActor where
  subject : String
  membershipId : String
  deriving DecidableEq

structure ChatRow where
  id : String
  archived : Bool

structure SessionRow where
  id : String
  chatId : String
  archived : Bool

structure TaskRow where
  id : String
  sessionId : String
  clientRequestId : String
  title : String
  prompt : String
  schedule : TaskSchedule
  actor : Option WorkspaceActor
  enabled : Bool
  nextRunAt : Option Nat
  lastRunAt : Option Nat
  lastError : Option String
  createdAt : Nat
  deletedAt : Option Nat
  deriving DecidableEq

/-- The event of a delivery: `timer:` with the due time, or `hook:` with the caller's
event id. -/
inductive EventId
  | timer (due : Nat)
  | hook (eventId : String)
  deriving DecidableEq

structure DeliveryRow where
  taskId : String
  eventId : EventId
  commandId : String
  prompt : String
  createdAt : Nat
  deliveredAt : Option Nat
  retryAfter : Nat
  deriving DecidableEq

def DeliveryRow.key (row : DeliveryRow) : String × EventId := (row.taskId, row.eventId)

structure AutomationDb where
  chats : List ChatRow
  sessions : List SessionRow
  tasks : List TaskRow
  deliveries : List DeliveryRow

structure ScheduledTask where
  id : String
  sessionId : String
  title : String
  prompt : String
  schedule : TaskSchedule
  enabled : Bool
  nextRunAt : Option Nat
  lastRunAt : Option Nat
  lastError : Option String
  createdAt : Nat

def taskFromRow (row : TaskRow) : ScheduledTask :=
  ⟨row.id, row.sessionId, row.title, row.prompt, row.schedule, row.enabled, row.nextRunAt,
    row.lastRunAt, row.lastError, row.createdAt⟩

structure AutomationError where
  message : String

def storageError : AutomationError :=
  ⟨"The automation operation could not be saved. Please retry."⟩

def nextAt (schedule : TaskSchedule) (timestamp : Nat) : Option Nat :=
  match schedule with
  | .once due => some due
  | .interval everyMs startAt => some (startAt.getD (timestamp + everyMs))
  | .webhook => none

namespace AutomationDb

variable (db : AutomationDb)

def live (sessionId : String) : Bool :=
  db.sessions.any fun session =>
    session.id = sessionId && !session.archived &&
      db.chats.any fun chat => chat.id = session.chatId && !chat.archived

def assertSession (sessionId : String) : Except AutomationError Unit :=
  if db.live sessionId then .ok () else .error ⟨"This session is missing or archived."⟩

def findTask (sessionId taskId : String) : Option TaskRow :=
  db.tasks.find? fun task =>
    task.id = taskId && task.sessionId = sessionId && task.deletedAt.isNone

def readTask (sessionId taskId : String) : Except AutomationError TaskRow :=
  match db.findTask sessionId taskId with
  | some task => .ok task
  | none => .error ⟨"Scheduled task not found in this session."⟩

/-- An `UPDATE` of the tasks that a `WHERE` clause selects. -/
def updateTasks (selected : TaskRow → Bool) (update : TaskRow → TaskRow) : AutomationDb :=
  { db with tasks := db.tasks.map fun task => if selected task then update task else task }

def updateDeliveries (selected : DeliveryRow → Bool) (update : DeliveryRow → DeliveryRow) :
    AutomationDb :=
  { db with
    deliveries := db.deliveries.map fun row => if selected row then update row else row }

def deleteDeliveries (selected : DeliveryRow → Bool) : AutomationDb :=
  { db with deliveries := db.deliveries.filter fun row => !selected row }

/-- Insert a delivery unless its task has one for the event; a command id that is taken
fails the statement. -/
def insertDelivery (row : DeliveryRow) : Option AutomationDb :=
  if db.deliveries.any fun stored => stored.key = row.key then some db
  else if db.deliveries.any fun stored => stored.commandId = row.commandId then none
  else some { db with deliveries := db.deliveries ++ [row] }

end AutomationDb

structure ScheduledTaskCreate where
  sessionId : String
  clientRequestId : String
  title : String
  prompt : String
  schedule : TaskSchedule

variable (db : AutomationDb)

/-- Insert the task unless the session has one for the request; an id that is taken
fails the statement. -/
def insertTask (input : ScheduledTaskCreate)
    (actor : Option WorkspaceActor) (uuid : String) (timestamp : Nat) :
    Option AutomationDb :=
  if db.tasks.any fun task => task.sessionId = input.sessionId &&
      task.clientRequestId = input.clientRequestId then some db
  else if db.tasks.any fun task => task.id = uuid then none
  else some
    { db with
      tasks := db.tasks ++
        [⟨uuid, input.sessionId, input.clientRequestId, input.title, input.prompt,
          input.schedule, actor, true, nextAt input.schedule timestamp, none, none,
          timestamp, none⟩] }

/-- What `create` returns from the row it finds afterwards. -/
def createdTask (input : ScheduledTaskCreate)
    (actor : Option WorkspaceActor) : Except AutomationError ScheduledTask :=
  let differs : AutomationError :=
    ⟨"This request ID already belongs to a different scheduled task."⟩
  match db.tasks.find? fun task => task.sessionId = input.sessionId &&
      task.clientRequestId = input.clientRequestId with
  | none => .error differs
  | some row =>
    if row.deletedAt.isSome ∨ row.prompt ≠ input.prompt ∨ row.title ≠ input.title ∨
        row.schedule ≠ input.schedule ∨ row.actor ≠ actor then .error differs
    else .ok (taskFromRow row)

structure ScheduledTaskUpdate where
  sessionId : String
  taskId : String
  title : Option String
  prompt : Option String
  schedule : Option TaskSchedule
  enabled : Option Bool

/-- The row after an update; a new schedule, and switching on, set the next run anew. -/
def updatedTask (input : ScheduledTaskUpdate) (actor : Option WorkspaceActor)
    (timestamp : Nat) (existing task : TaskRow) : TaskRow :=
  let schedule := input.schedule.getD existing.schedule
  { task with
    title := input.title.getD existing.title
    prompt := input.prompt.getD existing.prompt
    schedule
    actor
    enabled := input.enabled.getD existing.enabled
    nextRunAt :=
      if input.schedule.isSome ∨ input.enabled = some true ∧ existing.enabled = false then
        nextAt schedule timestamp
      else existing.nextRunAt
    lastError := none }

def pendingOf (taskId : String) (row : DeliveryRow) : Bool :=
  row.taskId = taskId && row.deliveredAt.isNone

/-- A new prompt goes to what waits, and switching off drops what waits. -/
def updateTables (input : ScheduledTaskUpdate)
    (actor : Option WorkspaceActor) (timestamp : Nat) (existing : TaskRow) :
    AutomationDb :=
  let written := db.updateTasks
    (fun task => task.id = input.taskId && task.sessionId = input.sessionId)
    (updatedTask input actor timestamp existing)
  let prompted :=
    match input.prompt with
    | none => written
    | some prompt =>
      written.updateDeliveries (pendingOf input.taskId) fun row => { row with prompt }
  if input.enabled = some false then prompted.deleteDeliveries (pendingOf input.taskId)
  else prompted

def update (input : ScheduledTaskUpdate) (actor : Option WorkspaceActor)
    (timestamp : Nat) : Except AutomationError (ScheduledTask × AutomationDb) := do
  db.assertSession input.sessionId
  let existing ← db.readTask input.sessionId input.taskId
  let written := updateTables db input actor timestamp existing
  let task ← written.readTask input.sessionId input.taskId
  return (taskFromRow task, written)

def remove (sessionId taskId : String) (timestamp : Nat) : AutomationDb :=
  let isTask := fun task : TaskRow => task.id = taskId && task.sessionId = sessionId
  let written := db.updateTasks isTask fun task =>
    { task with deletedAt := some timestamp, enabled := false, nextRunAt := none }
  written.deleteDeliveries fun row => pendingOf taskId row && written.tasks.any isTask

def trigger (sessionId taskId eventId uuid : String)
    (timestamp : Nat) : Except AutomationError AutomationDb := do
  db.assertSession sessionId
  let task ← db.readTask sessionId taskId
  if task.schedule ≠ .webhook ∨ task.enabled = false then
    .error ⟨"This webhook task is disabled or is not a webhook."⟩
  else
    (db.insertDelivery ⟨taskId, .hook eventId, uuid, task.prompt, timestamp, none, 0⟩).elim
      (.error storageError) .ok

def cancelSessionAutomation (sessionId : String) : AutomationDb :=
  let written := db.updateTasks (fun task => task.sessionId = sessionId) fun task =>
    { task with enabled := false, nextRunAt := none }
  written.deleteDeliveries fun row => row.deliveredAt.isNone &&
    written.tasks.any fun task => task.id = row.taskId && task.sessionId = sessionId

def TaskRow.due (timestamp : Nat) (task : TaskRow) : Bool :=
  task.deletedAt.isNone && task.enabled &&
    (task.nextRunAt.any fun due => due ≤ timestamp) && db.live task.sessionId

def sweepLimit : Nat := 100

def dueTasks (timestamp : Nat) : List TaskRow :=
  Table.orderLimit (fun task => task.nextRunAt.getD 0) sweepLimit
    (db.tasks.filter (TaskRow.due db timestamp))

def runAfter (task : TaskRow) (timestamp : Nat) : Option Nat :=
  match task.schedule with
  | .interval everyMs _ => some (timestamp + everyMs)
  | .once _ => none
  | .webhook => none

def recordTask (timestamp : Nat) (db : AutomationDb) (entry : TaskRow × String) :
    Option AutomationDb :=
  let task := entry.1
  let next := runAfter task timestamp
  (db.insertDelivery ⟨task.id, .timer (task.nextRunAt.getD 0), entry.2, task.prompt,
    timestamp, none, 0⟩).map fun inserted =>
      inserted.updateTasks (fun row => row.id = task.id) fun row =>
        { row with nextRunAt := next, enabled := next.isSome }

def recordDue (timestamp : Nat) (uuids : List String) :
    Option AutomationDb :=
  ((dueTasks db timestamp).zip uuids).foldlM (recordTask timestamp) db

structure PendingRow where
  taskId : String
  sessionId : String
  commandId : String
  prompt : String
  actor : Option WorkspaceActor
  deriving DecidableEq

/-- The waiting deliveries whose task can run, with their tasks, oldest first. -/
def pendingRows (timestamp : Nat) : List PendingRow :=
  let ready := db.deliveries.filter fun row =>
    row.deliveredAt.isNone && row.retryAfter ≤ timestamp
  let joined := ready.flatMap fun row =>
    (db.tasks.filter fun task =>
      task.id = row.taskId && task.deletedAt.isNone && db.live task.sessionId).map fun task =>
        (row, task)
  (Table.orderLimit (fun pair => pair.1.createdAt) sweepLimit joined).map fun pair =>
    ⟨pair.1.taskId, pair.2.sessionId, pair.1.commandId, pair.1.prompt, pair.2.actor⟩

/-- The row that `committed` marks: the delivery as it was read, of a task that can run
and whose author is still the one that was read. -/
def admissible (pending : PendingRow) (row : DeliveryRow) : Bool :=
  row.commandId = pending.commandId && row.prompt = pending.prompt &&
    row.deliveredAt.isNone && db.tasks.any fun task =>
      task.id = row.taskId && task.actor = pending.actor && task.deletedAt.isNone &&
        db.live task.sessionId

/-- `committed` dies, and the admission with it, unless it marks exactly one row. -/
def committed (pending : PendingRow) (timestamp : Nat) : Option (DeliveryRow × AutomationDb) :=
  match db.deliveries.filter (admissible db pending) with
  | [row] =>
    let marked := db.updateDeliveries (admissible db pending) fun row =>
      { row with deliveredAt := some timestamp }
    some (row, marked.updateTasks (fun task => task.id = pending.taskId) fun task =>
      { task with lastRunAt := some timestamp, lastError := none })
  | _ => none

def noteFailure (pending : PendingRow) : AutomationDb :=
  db.updateTasks (fun task => task.id = pending.taskId) fun task =>
    { task with
      lastError := some "Delivery is waiting for this session to become available." }

def deferRetry (pending : PendingRow) (timestamp : Nat) : AutomationDb :=
  db.updateDeliveries (fun row => row.commandId = pending.commandId && row.deliveredAt.isNone)
    fun row => { row with retryAfter := timestamp + 5000 }

end Zuse.Automation
