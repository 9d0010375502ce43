import Zuse.Automation.TaskInvariants

namespace Zuse.Automation

open Zuse.Data List DeliveryRow

variable {uuids : List String}

section Record

variable {db next : AutomationDb} {timestamp : Nat}

def TaskRow.timerKey (task : TaskRow) : String × EventId :=
  (task.id, .timer (task.nextRunAt.getD 0))

structure Recorded (db next : AutomationDb) (tasks : List TaskRow) : Prop where
  sound : next.Sound
  news : ∃ news, Records db next news ∧
    ∀ row ∈ news, ∃ task ∈ tasks, row.key = task.timerKey ∧ row.prompt = task.prompt
  keys : ∀ task ∈ tasks, task.timerKey ∈ next.deliveries.map DeliveryRow.key
  others : ∀ task ∈ db.tasks, task.id ∉ tasks.map TaskRow.id → task ∈ next.tasks

theorem Recorded.nil (sound : db.Sound) : Recorded db db [] where
  sound := sound
  news := ⟨[], ⟨(append_nil _).symm, by simp⟩, by simp⟩
  keys := by simp
  others := fun _ member _ => member

variable {entry : TaskRow × String}

theorem recordTask_cases (recorded : recordTask timestamp db entry = some next) :
    ∃ inserted, db.insertDelivery ⟨entry.1.id, .timer (entry.1.nextRunAt.getD 0), entry.2,
        entry.1.prompt, timestamp, none, 0⟩ = some inserted ∧
      next = inserted.updateTasks (fun row => row.id = entry.1.id) fun row =>
        { row with
          nextRunAt := runAfter entry.1 timestamp
          enabled := (runAfter entry.1 timestamp).isSome } := by
  obtain ⟨inserted, isInserted, written⟩ := Option.map_eq_some_iff.mp recorded
  exact ⟨inserted, isInserted, written.symm⟩

theorem recordTask_recorded (sound : db.Sound) (awaits : db.Awaits entry.1.id entry.1.prompt)
    (recorded : recordTask timestamp db entry = some next) :
    Recorded db next [entry.1] ∧
      ∀ taskId prompt, db.Awaits taskId prompt → next.Awaits taskId prompt := by
  obtain ⟨inserted, isInserted, rfl⟩ := recordTask_cases recorded
  obtain ⟨news, records, only, tasks, key⟩ := Records.of_insert isInserted rfl
  have grown := sound.insertDelivery awaits isInserted
  refine ⟨⟨grown.updateTasks (fun _ => rfl) (fun _ => rfl) (fun _ => rfl), ?_, ?_, ?_⟩, ?_⟩
  · refine ⟨news, ⟨records.deliveries, records.pending⟩, fun row member => ?_⟩
    rw [only row member]
    exact ⟨entry.1, .head _, rfl, rfl⟩
  · intro task member
    rw [mem_singleton.mp member]
    exact key
  · intro task member other
    rw [map_singleton, mem_singleton] at other
    refine mem_updateTasks.mpr ⟨task, tasks ▸ member, if_neg fun same => ?_⟩
    exact other (of_decide_eq_true same)
  intro taskId prompt known
  obtain ⟨task, isTask, own, prompted, present⟩ := known
  refine ⟨_, mem_updateTasks.mpr ⟨task, tasks ▸ isTask, rfl⟩, ?_⟩
  split
  · exact ⟨own, prompted, present⟩
  · exact ⟨own, prompted, present⟩

variable {task : TaskRow}

theorem Recorded.cons {middle : AutomationDb} {rest : List TaskRow}
    (first : Recorded db middle [task]) (later : Recorded middle next rest) :
    Recorded db next (task :: rest) := by
  obtain ⟨firstNews, firstRecords, firstOnly⟩ := first.news
  obtain ⟨laterNews, laterRecords, laterOnly⟩ := later.news
  refine ⟨later.sound, ⟨firstNews ++ laterNews, ⟨?_, ?_⟩, ?_⟩, ?_, ?_⟩
  · rw [laterRecords.deliveries, firstRecords.deliveries, append_assoc]
  · intro row member
    cases mem_append.mp member with
    | inl old => exact firstRecords.pending row old
    | inr new => exact laterRecords.pending row new
  · intro row member
    cases mem_append.mp member with
    | inl old =>
      obtain ⟨own, isOwn, known⟩ := firstOnly row old
      rw [mem_singleton.mp isOwn] at known
      exact ⟨task, .head _, known⟩
    | inr new =>
      obtain ⟨own, isOwn, known⟩ := laterOnly row new
      exact ⟨own, .tail _ isOwn, known⟩
  · intro own member
    cases member with
    | head =>
      rw [laterRecords.deliveries, map_append]
      exact mem_append_left _ (first.keys task (.head _))
    | tail _ isLater => exact later.keys own isLater
  intro own member other
  rw [map_cons, mem_cons, not_or] at other
  refine later.others own (first.others own member ?_) other.2
  rw [map_singleton, mem_singleton]
  exact other.1

theorem foldlM_recorded {entries : List (TaskRow × String)} (sound : db.Sound)
    (awaits : ∀ entry ∈ entries, db.Awaits entry.1.id entry.1.prompt)
    (recorded : entries.foldlM (recordTask timestamp) db = some next) :
    Recorded db next (entries.map Prod.fst) := by
  induction entries generalizing db with
  | nil =>
    cases recorded
    exact .nil sound
  | cons entry rest ih =>
    obtain ⟨middle, once, later⟩ := Option.bind_eq_some_iff.mp recorded
    obtain ⟨first, keeps⟩ := recordTask_recorded sound (awaits entry (.head _)) once
    refine first.cons (ih first.sound ?_ later)
    intro other member
    exact keeps _ _ (awaits other (.tail _ member))

theorem mem_dueTasks (member : task ∈ dueTasks db timestamp) :
    task ∈ db.tasks ∧ task.due db timestamp = true :=
  mem_filter.mp (Table.mem_of_mem_orderLimit member)

theorem due_iff :
    task.due db timestamp = true ↔ db.live task.sessionId = true ∧
      ∃ due ≤ timestamp, task.Armed due := by
  unfold TaskRow.due
  cases next : task.nextRunAt with
  | none =>
    constructor
    · intro both
      simp at both
    · intro both
      obtain ⟨-, due, -, armed⟩ := both
      cases next.symm.trans armed.nextRunAt
  | some at_ =>
    simp only [Option.any_some, Bool.and_eq_true, decide_eq_true_eq, Option.isNone_iff_eq_none]
    constructor
    · intro both
      obtain ⟨⟨⟨present, enabled⟩, reached⟩, live⟩ := both
      exact ⟨live, at_, reached, present, enabled, next⟩
    · intro both
      obtain ⟨live, due, reached, armed⟩ := both
      cases next.symm.trans armed.nextRunAt
      exact ⟨⟨⟨armed.present, armed.enabled⟩, reached⟩, live⟩

theorem timerKey_of_armed {due : Nat} (armed : task.Armed due) :
    task.timerKey = (task.id, .timer due) := by
  rw [TaskRow.timerKey, armed.nextRunAt]
  rfl

theorem recordDue_recorded (sound : db.Sound)
    (drawn : uuids.length = (dueTasks db timestamp).length)
    (recorded : recordDue db timestamp uuids = some next) :
    Recorded db next (dueTasks db timestamp) := by
  have all : ((dueTasks db timestamp).zip uuids).map Prod.fst = dueTasks db timestamp :=
    map_fst_zip drawn.ge
  rw [← all]
  refine foldlM_recorded sound ?_ recorded
  intro entry member
  have isDue : entry.1 ∈ dueTasks db timestamp := by
    rw [← all]
    exact mem_map_of_mem member
  obtain ⟨isTask, ready⟩ := mem_dueTasks isDue
  obtain ⟨-, due, -, armed⟩ := due_iff.mp ready
  exact ⟨entry.1, isTask, rfl, rfl, armed.present⟩

variable {tasks : List TaskRow}

theorem Recorded.carries (recorded : Recorded db next tasks) :
    Carries db next (AutomationWorld.recordedMarks db next) := by
  obtain ⟨news, records, -⟩ := recorded.news
  exact records.carries

theorem Recorded.waits (recorded : Recorded db next tasks)
    (sound : db.Sound) (ofDb : tasks ⊆ db.tasks) (edits : TaskRow → Prop) :
    Waits db next edits := by
  intro task member due armed
  by_cases isRecorded : task.id ∈ tasks.map TaskRow.id
  · obtain ⟨own, isOwn, same⟩ := mem_map.mp isRecorded
    obtain rfl := sound.task_eq (ofDb isOwn) member same
    have key := recorded.keys own isOwn
    rw [timerKey_of_armed armed] at key
    exact .inr (.inr key)
  · exact .inl ⟨task, recorded.others task member isRecorded, rfl, armed⟩

end Record

section Admission

variable {db next : AutomationDb} {pending : PendingRow} {timestamp : Nat}
  {row : DeliveryRow}

structure Admissible (db : AutomationDb) (pending : PendingRow) (row : DeliveryRow) :
    Prop where
  commandId : row.commandId = pending.commandId
  prompt : row.prompt = pending.prompt
  waits : row.deliveredAt = none
  task : ∃ task ∈ db.tasks, task.id = row.taskId ∧ task.actor = pending.actor ∧
    task.deletedAt = none ∧ db.live task.sessionId = true

theorem admissible_iff : admissible db pending row = true ↔ Admissible db pending row := by
  simp only [admissible, Bool.and_eq_true, decide_eq_true_eq, Option.isNone_iff_eq_none,
    any_eq_true]
  constructor
  · intro all
    obtain ⟨⟨⟨commandId, prompt⟩, waits⟩, task, isTask, fits⟩ := all
    exact ⟨commandId, prompt, waits, task, isTask, fits.1.1.1, fits.1.1.2, fits.1.2, fits.2⟩
  · intro fits
    obtain ⟨task, isTask, own, actor, present, live⟩ := fits.task
    exact ⟨⟨⟨fits.commandId, fits.prompt⟩, fits.waits⟩, task, isTask,
      ⟨⟨⟨own, actor⟩, present⟩, live⟩⟩

theorem committed_cases (ran : committed db pending timestamp = some (row, next)) :
    row ∈ db.deliveries ∧ Admissible db pending row ∧
      next = ((db.updateDeliveries (admissible db pending) fun row =>
        { row with deliveredAt := some timestamp }).updateTasks
          (fun task => task.id = pending.taskId) fun task =>
            { task with lastRunAt := some timestamp, lastError := none }) := by
  unfold committed at ran
  split at ran
  · rename_i found
    cases ran
    have member : row ∈ db.deliveries.filter (admissible db pending) := by
      rw [found]
      exact .head _
    obtain ⟨isRow, fits⟩ := mem_filter.mp member
    exact ⟨isRow, admissible_iff.mp fits, rfl⟩
  · cases ran

theorem AutomationDb.Sound.committed (sound : db.Sound)
    (ran : committed db pending timestamp = some (row, next)) :
    next.Sound ∧ Carries db next [] ∧ (∀ edits, Waits db next edits) ∧
      ∃ marked ∈ next.deliveries, marked.key = row.key ∧ marked.deliveredAt ≠ none := by
  obtain ⟨isRow, fits, rfl⟩ := committed_cases ran
  have marks : (db.updateDeliveries (admissible db pending) fun row =>
      { row with deliveredAt := some timestamp }).Sound := by
    have keys : (db.updateDeliveries (admissible db pending) fun row =>
        { row with deliveredAt := some timestamp }).deliveries.map key =
          db.deliveries.map key := map_updateDeliveries fun _ => rfl
    have commands : (db.updateDeliveries (admissible db pending) fun row =>
        { row with deliveredAt := some timestamp }).deliveries.map commandId =
          db.deliveries.map commandId := map_updateDeliveries fun _ => rfl
    refine ⟨keys ▸ sound.keys, commands ▸ sound.commands, sound.ids, ?_⟩
    intro stored member waits
    obtain ⟨before, isBefore, written⟩ := mem_updateDeliveries.mp member
    split at written
    · subst written
      cases waits
    · subst written
      exact sound.pending before isBefore waits
  refine ⟨marks.updateTasks (fun _ => rfl) (fun _ => rfl) (fun _ => rfl), ?_, ?_, ?_⟩
  · refine ⟨?_, ?_, ?_⟩
    · intro history standing stored member waits
      obtain ⟨before, isBefore, written⟩ := mem_updateDeliveries.mp member
      split at written
      · subst written
        cases waits
      · subst written
        exact standing before isBefore waits
    · intro stored member done
      refine mem_updateDeliveries.mpr ⟨stored, member, if_neg fun marked => ?_⟩
      exact done (admissible_iff.mp marked).waits
    · intro stored member
      refine .inl ⟨_, mem_updateDeliveries.mpr ⟨stored, member, rfl⟩, ?_⟩
      split
      · exact ⟨rfl, rfl⟩
      · exact ⟨rfl, rfl⟩
  · intro edits
    refine .of_updateTasks rfl (fun _ => rfl) ?_
    exact fun _ _ _ _ => .inr ⟨rfl, rfl, rfl⟩
  · refine ⟨_, mem_updateDeliveries.mpr ⟨row, isRow, rfl⟩, ?_⟩
    rw [if_pos (admissible_iff.mpr fits)]
    refine ⟨rfl, fun undelivered => ?_⟩
    cases undelivered

end Admission

structure Accounted (world : AutomationWorld) : Prop where
  sound : world.db.Sound
  standing : world.db.AllStanding world.history
  admitted : ∀ admission ∈ world.admitted,
    ∃ row ∈ world.db.deliveries, row.key = admission.key ∧ row.deliveredAt ≠ none
  once : (world.admitted.map Admission.key).Nodup

structure Proper (world : AutomationWorld) (admission : Admission) : Prop where
  standing : Standing admission.taskId admission.eventId world.history
  task : ∃ task ∈ world.db.tasks, task.id = admission.taskId ∧
    task.prompt = admission.prompt ∧ task.actor = admission.actor ∧
    task.deletedAt = none ∧ world.db.live task.sessionId = true

def Edits (label : AutomationStep) (task : TaskRow) : Prop :=
  match label with
  | .update input _ => task.id = input.taskId ∧ (input.schedule.isSome ∨ input.enabled = some false)
  | .remove _ taskId => task.id = taskId
  | .cancelSession sessionId => task.sessionId = sessionId
  | _ => False

/-- The steps that stop a task: it is disabled, removed or cancelled with its session. -/
def Stops (world : AutomationWorld) (label : AutomationStep) (taskId : String) : Prop :=
  match label with
  | .update input _ => input.taskId = taskId ∧ input.enabled = some false
  | .remove _ removed => removed = taskId
  | .cancelSession sessionId =>
    ∃ task ∈ world.db.tasks, task.sessionId = sessionId ∧ task.id = taskId
  | _ => False

structure Moves (world next : AutomationWorld) (label : AutomationStep)
    (marks : List Mark) : Prop where
  accounted : Accounted next
  history : next.history = marks ++ world.history
  stops : ∀ taskId, .stopped taskId ∈ marks → Stops world label taskId
  carries : Carries world.db next.db marks
  waits : Waits world.db next.db (Edits label)
  admitted : next.admitted = world.admitted ∨ ∃ admission,
    next.admitted = admission :: world.admitted ∧ Proper world admission

section Step

variable {world next : AutomationWorld} {label : AutomationStep} {marks : List Mark}

theorem Moves.of_carries (accounted : Accounted world) (sound : next.db.Sound)
    (carries : Carries world.db next.db marks) (waits : Waits world.db next.db (Edits label))
    (history : next.history = marks ++ world.history) (admitted : next.admitted = world.admitted)
    (stops : ∀ taskId, .stopped taskId ∈ marks → Stops world label taskId) :
    Moves world next label marks := by
  refine ⟨⟨sound, ?_, ?_, ?_⟩, history, stops, carries, waits, .inl admitted⟩
  · rw [history]
    exact carries.standing _ accounted.standing
  · intro admission member
    rw [admitted] at member
    obtain ⟨row, isRow, key, done⟩ := accounted.admitted admission member
    exact ⟨row, carries.delivered row isRow done, key, done⟩
  · rw [admitted]
    exact accounted.once

theorem not_stopped_nil (taskId : String) (stopped : Mark.stopped taskId ∈ []) :
    Stops world label taskId := by
  cases stopped

section

variable (accounted : Accounted world)
include accounted

theorem Moves.of_same (tasks : next.db.tasks = world.db.tasks)
    (deliveries : next.db.deliveries = world.db.deliveries)
    (history : next.history = world.history) (admitted : next.admitted = world.admitted) :
    Moves world next label [] := by
  refine .of_carries accounted ?_ (.of_eq deliveries) (.of_subset ?_) history admitted
    not_stopped_nil
  · refine ⟨?_, ?_, ?_, ?_⟩
    · rw [deliveries]
      exact accounted.sound.keys
    · rw [deliveries]
      exact accounted.sound.commands
    · rw [tasks]
      exact accounted.sound.ids
    · rw [deliveries]
      intro row member waits
      obtain ⟨task, isTask, known⟩ := accounted.sound.pending row member waits
      exact ⟨task, tasks ▸ isTask, known⟩
  · rw [tasks]
    exact List.Subset.refl _

theorem Moves.deliver (index : Nat) (sweep : Sweep) (row : PendingRow)
    (rest : List PendingRow) (failsAfter : Bool) :
    Moves world (world.deliver index sweep row rest failsAfter) label [] := by
  unfold AutomationWorld.deliver
  cases ran : committed world.db row sweep.timestamp with
  | none => exact .of_same accounted rfl rfl rfl rfl
  | some result =>
    obtain ⟨delivery, db⟩ := result
    obtain ⟨sound, carries, waits, marked, isMarked, sameKey, done⟩ :=
      accounted.sound.committed ran
    obtain ⟨isDelivery, fits, -⟩ := committed_cases ran
    refine ⟨⟨sound, carries.standing _ accounted.standing, ?_, ?_⟩, rfl, not_stopped_nil,
      carries, waits _, .inr ⟨_, rfl, ?_, ?_⟩⟩
    · intro admission member
      cases member with
      | head => exact ⟨marked, isMarked, sameKey, done⟩
      | tail _ earlier =>
        obtain ⟨stored, isStored, key, wasDone⟩ := accounted.admitted admission earlier
        exact ⟨stored, carries.delivered stored isStored wasDone, key, wasDone⟩
    · refine nodup_cons.mpr ⟨fun again => ?_, accounted.once⟩
      obtain ⟨admission, member, same⟩ := mem_map.mp again
      obtain ⟨stored, isStored, key, wasDone⟩ := accounted.admitted admission member
      have equal := accounted.sound.row_eq isStored isDelivery (key.trans same)
      exact wasDone (equal ▸ fits.waits)
    · exact accounted.standing delivery isDelivery fits.waits
    obtain ⟨task, isTask, own, actor, present, live⟩ := fits.task
    obtain ⟨other, isOther, otherOwn, prompted, -⟩ :=
      accounted.sound.pending delivery isDelivery fits.waits
    obtain rfl := accounted.sound.task_eq isOther isTask (otherOwn.trans own.symm)
    exact ⟨other, isTask, own, prompted.trans fits.prompt, actor, present, live⟩

theorem Moves.proceed {index : Nat} {sweep : Sweep}
    (stepped : world.proceed index sweep uuids = some next) :
    ∃ marks, Moves world next label marks := by
  unfold AutomationWorld.proceed at stepped
  cases stage : sweep.stage with
  | recording =>
    rw [stage] at stepped
    dsimp only at stepped
    split at stepped
    · rename_i drawn
      cases stepped
      unfold AutomationWorld.record
      cases ran : recordDue world.db sweep.timestamp uuids with
      | none => exact ⟨[], .of_same accounted rfl rfl rfl rfl⟩
      | some db =>
        have recorded := recordDue_recorded accounted.sound drawn ran
        obtain ⟨news, records, -⟩ := recorded.news
        refine ⟨_, .of_carries accounted recorded.sound recorded.carries ?_ rfl rfl ?_⟩
        · refine recorded.waits accounted.sound ?_ _
          exact fun task isDue => (mem_dueTasks isDue).1
        · exact fun taskId stopped => absurd stopped (records.running taskId)
    · cases stepped
  | reading =>
    rw [stage] at stepped
    cases stepped
    exact ⟨[], .of_same accounted rfl rfl rfl rfl⟩
  | delivering rows =>
    rw [stage] at stepped
    cases rows with
    | nil | cons row rest =>
      cases stepped
      exact ⟨[], .of_same accounted rfl rfl rfl rfl⟩
  | admitting row rest | ended =>
    rw [stage] at stepped
    cases stepped
  | failing row rest =>
    rw [stage] at stepped
    cases stepped
    refine ⟨[], .of_carries accounted (accounted.sound.noteFailure row) (.of_eq rfl) ?_
      rfl rfl not_stopped_nil⟩
    exact .of_updateTasks rfl (fun _ => rfl) fun _ _ _ _ => .inr ⟨rfl, rfl, rfl⟩
  | deferring row rest =>
    rw [stage] at stepped
    cases stepped
    refine ⟨[], .of_carries accounted (accounted.sound.setRetry row sweep.timestamp) ?_
      (.of_subset (List.Subset.refl _)) rfl rfl not_stopped_nil⟩
    refine .updateDeliveries ?_ (fun _ => rfl) (fun _ => rfl)
    intro stored isSelected
    rw [Bool.and_eq_true, Option.isNone_iff_eq_none] at isSelected
    exact isSelected.2

theorem step_moves (stepped : automationSystem.step world label = some next) :
    ∃ marks, Moves world next label marks := by
  change world.step label = some next at stepped
  unfold AutomationWorld.step at stepped
  cases label with
  | tick later =>
    dsimp only at stepped
    split at stepped
    · cases stepped
      exact ⟨[], .of_same accounted rfl rfl rfl rfl⟩
    · cases stepped
  | setChat row | setSession row | sweep | crash =>
    cases stepped
    exact ⟨[], .of_same accounted rfl rfl rfl rfl⟩
  | create input actor =>
    dsimp only at stepped
    split at stepped
    · cases stepped
      exact ⟨[], .of_same accounted rfl rfl rfl rfl⟩
    · cases stepped
      exact ⟨[], .of_same accounted rfl rfl rfl rfl⟩
  | insertTask index uuid =>
    obtain ⟨creating, -, stepped⟩ := Option.bind_eq_some_iff.mp stepped
    split at stepped
    · cases stepped
    split at stepped
    · cases stepped
      exact ⟨[], .of_same accounted rfl rfl rfl rfl⟩
    · rename_i db inserted
      cases stepped
      obtain ⟨sound, carries, waits⟩ := accounted.sound.insertTask inserted
      exact ⟨[], .of_carries accounted sound carries (waits _) rfl rfl not_stopped_nil⟩
  | returnTask index =>
    obtain ⟨creating, -, stepped⟩ := Option.bind_eq_some_iff.mp stepped
    split at stepped
    · cases stepped
      exact ⟨[], .of_same accounted rfl rfl rfl rfl⟩
    · cases stepped
  | update input actor =>
    cases stepped
    unfold AutomationWorld.update
    cases ran : Automation.update world.db input actor world.now with
    | error failure => exact ⟨[], .of_same accounted rfl rfl rfl rfl⟩
    | ok result =>
      obtain ⟨task, db⟩ := result
      obtain ⟨existing, known, rfl⟩ := update_ok ran
      obtain ⟨sound, carries, waits⟩ := accounted.sound.updateTables known
      refine ⟨_, .of_carries accounted sound carries waits ?_ rfl ?_⟩
      · dsimp only
        split
        · rfl
        · rfl
      intro taskId stopped
      split at stopped
      · rename_i disabled
        exact ⟨(Mark.stopped.inj (mem_singleton.mp stopped)).symm, disabled⟩
      · cases stopped
  | remove sessionId taskId =>
    cases stepped
    obtain ⟨sound, carries, waits⟩ := accounted.sound.remove sessionId taskId world.now
    refine ⟨_, .of_carries accounted sound carries waits rfl rfl fun stoppedId stopped => ?_⟩
    obtain ⟨task, -, isSelected, own⟩ := mem_stopped.mp stopped
    rw [Bool.and_eq_true, decide_eq_true_eq] at isSelected
    exact isSelected.1.symm.trans own
  | trigger sessionId taskId eventId uuid =>
    cases stepped
    unfold AutomationWorld.trigger
    cases ran : Automation.trigger world.db sessionId taskId eventId uuid world.now with
    | error failure => exact ⟨[], .of_same accounted rfl rfl rfl rfl⟩
    | ok db =>
      obtain ⟨sound, carries, waits⟩ := accounted.sound.trigger ran
      obtain ⟨task, -, -, -, inserted⟩ := trigger_ok ran
      obtain ⟨news, records, -⟩ := Records.of_insert inserted rfl
      refine ⟨_, .of_carries accounted sound carries (waits _) rfl rfl ?_⟩
      exact fun stoppedId stopped => absurd stopped (records.running stoppedId)
  | cancelSession sessionId =>
    cases stepped
    obtain ⟨sound, carries, waits⟩ := accounted.sound.cancelSession sessionId
    refine ⟨_, .of_carries accounted sound carries waits rfl rfl fun stoppedId stopped => ?_⟩
    obtain ⟨task, isTask, isSelected, own⟩ := mem_stopped.mp stopped
    exact ⟨task, isTask, of_decide_eq_true isSelected, own⟩
  | proceed index uuids =>
    obtain ⟨sweep, -, stepped⟩ := Option.bind_eq_some_iff.mp stepped
    exact Moves.proceed accounted stepped
  | deliver index failsAfter =>
    obtain ⟨current, -, rfl⟩ := Option.map_eq_some_iff.mp stepped
    exact ⟨[], .deliver accounted index current.1 current.2.1 current.2.2 failsAfter⟩
  | refuse index =>
    obtain ⟨current, -, rfl⟩ := Option.map_eq_some_iff.mp stepped
    exact ⟨[], .of_same accounted rfl rfl rfl rfl⟩
  | stop index =>
    obtain ⟨sweep, -, rfl⟩ := Option.map_eq_some_iff.mp stepped
    exact ⟨[], .of_same accounted rfl rfl rfl rfl⟩

end

theorem accounted_everywhere (reachable : automationSystem.Reachable world) :
    Accounted world := by
  induction reachable with
  | init =>
    refine ⟨⟨?_, ?_, ?_, ?_⟩, ?_, ?_, ?_⟩
    · exact nodup_nil
    · exact nodup_nil
    · exact nodup_nil
    · exact nofun
    · exact nofun
    · exact nofun
    · exact nodup_nil
  | step _ stepped ih =>
    obtain ⟨marks, moves⟩ := step_moves ih stepped
    exact moves.accounted

end Step

end Zuse.Automation
