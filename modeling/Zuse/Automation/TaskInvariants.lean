import Mathlib.Data.List.Nodup
import Zuse.Automation.SweepSystem

namespace Zuse.Automation

open Zuse.Data List AutomationDb DeliveryRow

theorem bind_eq_ok {ε α β : Type} {first : Except ε α} {rest : α → Except ε β} {value : β}
    (ran : (first >>= rest) = .ok value) :
    ∃ middle, first = .ok middle ∧ rest middle = .ok value := by
  cases first with
  | error failure => cases ran
  | ok middle => exact ⟨middle, rfl, ran⟩

variable {sessionId taskId : String}

section Writes

variable {db next : AutomationDb} {task : TaskRow}

theorem mem_updateTasks {selected : TaskRow → Bool} {update : TaskRow → TaskRow} :
    task ∈ (db.updateTasks selected update).tasks ↔
      ∃ before ∈ db.tasks, (if selected before then update before else before) = task :=
  mem_map

variable {selected : DeliveryRow → Bool} {row : DeliveryRow} {update : DeliveryRow → DeliveryRow}

theorem mem_updateDeliveries :
    row ∈ (db.updateDeliveries selected update).deliveries ↔
      ∃ before ∈ db.deliveries, (if selected before then update before else before) = row :=
  mem_map

theorem mem_deleteDeliveries :
    row ∈ (db.deleteDeliveries selected).deliveries ↔
      row ∈ db.deliveries ∧ selected row = false := by
  simp [deleteDeliveries]

theorem map_updateTasks {α : Type} {view : TaskRow → α} {selected : TaskRow → Bool}
    {update : TaskRow → TaskRow} (keeps : ∀ task, view (update task) = view task) :
    (db.updateTasks selected update).tasks.map view = db.tasks.map view := by
  rw [updateTasks, map_map]
  apply map_congr_left
  intro task _
  rw [Function.comp]
  split
  · exact keeps task
  · rfl

theorem map_updateDeliveries {α : Type} {view : DeliveryRow → α}
    (keeps : ∀ row, view (update row) = view row) :
    (db.updateDeliveries selected update).deliveries.map view = db.deliveries.map view := by
  rw [updateDeliveries, map_map]
  apply map_congr_left
  intro row _
  rw [Function.comp]
  split
  · exact keeps row
  · rfl

theorem map_deleteDeliveries {α : Type} (view : DeliveryRow → α) (selected : DeliveryRow → Bool) :
    ((db.deleteDeliveries selected).deliveries.map view).Sublist (db.deliveries.map view) :=
  List.Sublist.map view filter_sublist

theorem insertDelivery_cases (inserted : db.insertDelivery row = some next) :
    (next = db ∧ row.key ∈ db.deliveries.map DeliveryRow.key) ∨
      (row.key ∉ db.deliveries.map DeliveryRow.key ∧
        row.commandId ∉ db.deliveries.map DeliveryRow.commandId ∧
        next = { db with deliveries := db.deliveries ++ [row] }) := by
  have known : ∀ {α : Type} [DecidableEq α] (view : DeliveryRow → α) (value : α),
      (db.deliveries.any fun stored => view stored = value) = true ↔
        value ∈ db.deliveries.map view := by
    simp [any_eq_true]
  unfold insertDelivery at inserted
  split at inserted
  · rename_i taken
    cases inserted
    exact .inl ⟨rfl, (known _ _).mp taken⟩
  rename_i free
  split at inserted
  · cases inserted
  · rename_i unused
    cases inserted
    exact .inr ⟨fun taken => free ((known _ _).mpr taken),
      fun taken => unused ((known _ _).mpr taken), rfl⟩

theorem readTask_ok (found : db.readTask sessionId taskId = .ok task) :
    task ∈ db.tasks ∧ task.id = taskId ∧ task.sessionId = sessionId ∧ task.deletedAt = none := by
  unfold readTask findTask at found
  cases chosen : db.tasks.find? (fun task =>
      task.id = taskId && task.sessionId = sessionId && task.deletedAt.isNone) with
  | none =>
    rw [chosen] at found
    cases found
  | some other =>
    rw [chosen] at found
    cases found
    have selected := List.find?_some chosen
    simp only [Bool.and_eq_true, decide_eq_true_eq, Option.isNone_iff_eq_none] at selected
    exact ⟨mem_of_find?_eq_some chosen, selected.1.1, selected.1.2, selected.2⟩

end Writes

/-- A task that a delivery can wait for: there, not removed, and with this prompt. -/
def AutomationDb.Awaits (db : AutomationDb) (taskId prompt : String) : Prop :=
  ∃ task ∈ db.tasks, task.id = taskId ∧ task.prompt = prompt ∧ task.deletedAt = none

structure AutomationDb.Sound (db : AutomationDb) : Prop where
  keys : (db.deliveries.map DeliveryRow.key).Nodup
  commands : (db.deliveries.map DeliveryRow.commandId).Nodup
  ids : (db.tasks.map TaskRow.id).Nodup
  pending : ∀ row ∈ db.deliveries, row.deliveredAt = none → db.Awaits row.taskId row.prompt

variable {row : DeliveryRow}

namespace AutomationDb.Sound

variable {db next : AutomationDb}

section

variable (sound : db.Sound)
include sound

theorem task_eq {first second : TaskRow} (isFirst : first ∈ db.tasks)
    (isSecond : second ∈ db.tasks) (same : first.id = second.id) : first = second :=
  inj_on_of_nodup_map sound.ids isFirst isSecond same

theorem row_eq {first second : DeliveryRow}
    (isFirst : first ∈ db.deliveries) (isSecond : second ∈ db.deliveries)
    (same : first.key = second.key) : first = second :=
  inj_on_of_nodup_map sound.keys isFirst isSecond same

theorem updateTasks {selected : TaskRow → Bool}
    {update : TaskRow → TaskRow} (id : ∀ task, (update task).id = task.id)
    (prompt : ∀ task, (update task).prompt = task.prompt)
    (deletedAt : ∀ task, (update task).deletedAt = task.deletedAt) :
    (db.updateTasks selected update).Sound := by
  refine ⟨sound.keys, sound.commands, ?_, ?_⟩
  · rw [map_updateTasks id]
    exact sound.ids
  intro row member waits
  obtain ⟨task, isTask, same, prompted, kept⟩ := sound.pending row member waits
  refine ⟨_, mem_updateTasks.mpr ⟨task, isTask, rfl⟩, ?_⟩
  split
  · exact ⟨(id task).trans same, (prompt task).trans prompted, (deletedAt task).trans kept⟩
  · exact ⟨same, prompted, kept⟩

theorem insertDelivery (waits : db.Awaits row.taskId row.prompt)
    (inserted : db.insertDelivery row = some next) : next.Sound := by
  obtain ⟨rfl, -⟩ | ⟨free, unused, rfl⟩ := insertDelivery_cases inserted
  · exact sound
  refine ⟨?_, ?_, sound.ids, ?_⟩
  · rw [map_append, nodup_append]
    refine ⟨sound.keys, nodup_singleton _, ?_⟩
    intro key member other isOther same
    obtain rfl := mem_singleton.mp isOther
    exact free (same ▸ member)
  · rw [map_append, nodup_append]
    refine ⟨sound.commands, nodup_singleton _, ?_⟩
    intro command member other isOther same
    obtain rfl := mem_singleton.mp isOther
    exact unused (same ▸ member)
  intro stored member isPending
  cases mem_concat.mp member with
  | inl old => exact sound.pending stored old isPending
  | inr new =>
    subst new
    exact waits

theorem setRetry (pending : PendingRow) (timestamp : Nat) :
    (deferRetry db pending timestamp).Sound := by
  have keys : (deferRetry db pending timestamp).deliveries.map key =
      db.deliveries.map key := map_updateDeliveries fun _ => rfl
  have commands : (deferRetry db pending timestamp).deliveries.map commandId =
      db.deliveries.map commandId := map_updateDeliveries fun _ => rfl
  refine ⟨keys ▸ sound.keys, commands ▸ sound.commands, sound.ids, ?_⟩
  intro row member waits
  obtain ⟨before, isBefore, written⟩ := mem_updateDeliveries.mp member
  split at written
  · subst written
    exact sound.pending before isBefore waits
  · subst written
    exact sound.pending before isBefore waits

theorem noteFailure (pending : PendingRow) : (noteFailure db pending).Sound :=
  sound.updateTasks (fun _ => rfl) (fun _ => rfl) (fun _ => rfl)

end

end AutomationDb.Sound

def Standing (taskId : String) (eventId : EventId) : List Mark → Prop
  | [] => False
  | .recorded recordedTask recordedEvent :: rest =>
    (recordedTask = taskId ∧ recordedEvent = eventId) ∨ Standing taskId eventId rest
  | .stopped stoppedTask :: rest => stoppedTask ≠ taskId ∧ Standing taskId eventId rest

def AutomationDb.AllStanding (db : AutomationDb) (history : List Mark) : Prop :=
  ∀ row ∈ db.deliveries, row.deliveredAt = none → Standing row.taskId row.eventId history

variable {eventId : EventId} {history : List Mark}

theorem Standing.append {marks : List Mark}
    (standing : Standing taskId eventId history) (running : .stopped taskId ∉ marks) :
    Standing taskId eventId (marks ++ history) := by
  induction marks with
  | nil => exact standing
  | cons mark rest ih =>
    rw [mem_cons, not_or] at running
    cases mark with
    | recorded recordedTask recordedEvent => exact .inr (ih running.2)
    | stopped stoppedTask =>
      exact ⟨fun same => running.1 (congrArg Mark.stopped same.symm), ih running.2⟩

theorem Standing.of_recorded {marks : List Mark} (recorded : .recorded taskId eventId ∈ marks)
    (running : .stopped taskId ∉ marks) : Standing taskId eventId (marks ++ history) := by
  induction marks with
  | nil => cases recorded
  | cons mark rest ih =>
    rw [mem_cons, not_or] at running
    cases recorded with
    | head => exact .inl ⟨rfl, rfl⟩
    | tail _ later =>
      cases mark with
      | recorded recordedTask recordedEvent => exact .inr (ih later running.2)
      | stopped stoppedTask =>
        exact ⟨fun same => running.1 (congrArg Mark.stopped same.symm), ih later running.2⟩

structure Carries (db next : AutomationDb) (marks : List Mark) : Prop where
  standing : ∀ history, db.AllStanding history → next.AllStanding (marks ++ history)
  delivered : ∀ row ∈ db.deliveries, row.deliveredAt ≠ none → row ∈ next.deliveries
  kept : ∀ row ∈ db.deliveries,
    (∃ after ∈ next.deliveries, after.key = row.key ∧ after.commandId = row.commandId) ∨
      .stopped row.taskId ∈ marks

structure TaskRow.Armed (task : TaskRow) (due : Nat) : Prop where
  present : task.deletedAt = none
  enabled : task.enabled = true
  nextRunAt : task.nextRunAt = some due

/-- A set run stays set, but for the tasks that a change edits, or is recorded. -/
def Waits (db next : AutomationDb) (edits : TaskRow → Prop) : Prop :=
  ∀ task ∈ db.tasks, ∀ due, task.Armed due →
    (∃ same ∈ next.tasks, same.id = task.id ∧ same.Armed due) ∨ edits task ∨
      (task.id, .timer due) ∈ next.deliveries.map DeliveryRow.key

section Frames

variable {db next : AutomationDb} {edits : TaskRow → Prop}

theorem Carries.of_eq (same : next.deliveries = db.deliveries) : Carries db next [] where
  standing := by
    intro history standing row member
    rw [same] at member
    exact standing row member
  delivered := by
    intro row member _
    rw [same]
    exact member
  kept := by
    intro row member
    rw [same]
    exact .inl ⟨row, member, rfl, rfl⟩

variable {selected : DeliveryRow → Bool}

theorem Carries.updateDeliveries {update : DeliveryRow → DeliveryRow}
    (pending : ∀ row, selected row = true → row.deliveredAt = none)
    (key : ∀ row, (update row).key = row.key)
    (commandId : ∀ row, (update row).commandId = row.commandId) :
    Carries db (db.updateDeliveries selected update) [] where
  standing := by
    intro history standing row member waits
    obtain ⟨before, isBefore, written⟩ := mem_updateDeliveries.mp member
    split at written
    · rename_i isSelected
      have known := standing before isBefore (pending before isSelected)
      have same : row.key = before.key := written ▸ key before
      rw [show row.taskId = before.taskId from congrArg Prod.fst same,
        show row.eventId = before.eventId from congrArg Prod.snd same]
      exact known
    · subst written
      exact standing before isBefore waits
  delivered := by
    intro row member done
    refine mem_updateDeliveries.mpr ⟨row, member, if_neg fun isSelected => ?_⟩
    exact done (pending row isSelected)
  kept := by
    intro row member
    refine .inl ⟨_, mem_updateDeliveries.mpr ⟨row, member, rfl⟩, ?_⟩
    split
    · exact ⟨key row, commandId row⟩
    · exact ⟨rfl, rfl⟩

theorem Carries.deleteDeliveries {marks : List Mark}
    (pending : ∀ row, selected row = true → row.deliveredAt = none)
    (stops : ∀ row ∈ db.deliveries, selected row = true → .stopped row.taskId ∈ marks)
    (only : ∀ row ∈ db.deliveries, row.deliveredAt = none → selected row = false →
      .stopped row.taskId ∉ marks) :
    Carries db (db.deleteDeliveries selected) marks where
  standing := by
    intro history standing row member waits
    obtain ⟨isRow, unselected⟩ := mem_deleteDeliveries.mp member
    exact (standing row isRow waits).append (only row isRow waits unselected)
  delivered := by
    intro row member done
    refine mem_deleteDeliveries.mpr ⟨member, ?_⟩
    rw [Bool.eq_false_iff]
    exact fun isSelected => done (pending row isSelected)
  kept := by
    intro row member
    cases isSelected : selected row with
    | true => exact .inr (stops row member isSelected)
    | false => exact .inl ⟨row, mem_deleteDeliveries.mpr ⟨member, isSelected⟩, rfl, rfl⟩

theorem Carries.trans {middle : AutomationDb} {marks : List Mark}
    (first : Carries db middle []) (second : Carries middle next marks) :
    Carries db next marks where
  standing := fun history standing => second.standing history (first.standing history standing)
  delivered := fun row member done =>
    second.delivered row (first.delivered row member done) done
  kept := by
    intro row member
    obtain ⟨after, isAfter, key, commandId⟩ | stopped := first.kept row member
    · obtain ⟨last, isLast, lastKey, lastCommand⟩ | stopped := second.kept after isAfter
      · exact .inl ⟨last, isLast, lastKey.trans key, lastCommand.trans commandId⟩
      · rw [show after.taskId = row.taskId from congrArg Prod.fst key] at stopped
        exact .inr stopped
    · cases stopped

theorem Waits.of_updateTasks {selected : TaskRow → Bool} {update : TaskRow → TaskRow}
    (same : next.tasks = (db.updateTasks selected update).tasks)
    (id : ∀ task, (update task).id = task.id)
    (keeps : ∀ task ∈ db.tasks, selected task = true → task.enabled = true → edits task ∨
      (update task).deletedAt = task.deletedAt ∧ (update task).enabled = task.enabled ∧
        (update task).nextRunAt = task.nextRunAt) : Waits db next edits := by
  intro task member due armed
  have written : (if selected task then update task else task) ∈ next.tasks := by
    rw [same]
    exact mem_updateTasks.mpr ⟨task, member, rfl⟩
  cases isSelected : selected task with
  | false =>
    rw [isSelected] at written
    exact .inl ⟨task, written, rfl, armed⟩
  | true =>
    rw [isSelected] at written
    obtain edited | ⟨deletedAt, enabled, nextRunAt⟩ := keeps task member isSelected armed.enabled
    · exact .inr (.inl edited)
    · refine .inl ⟨_, written, id task, ?_⟩
      exact ⟨deletedAt.trans armed.present, enabled.trans armed.enabled,
        nextRunAt.trans armed.nextRunAt⟩

theorem Waits.of_subset (subset : db.tasks ⊆ next.tasks) : Waits db next edits :=
  fun task member _ armed => .inl ⟨task, subset member, rfl, armed⟩

end Frames

section Transactions

variable {db : AutomationDb} {next : AutomationDb} {timestamp : Nat}

variable {actor : Option WorkspaceActor} {uuid : String} {input : ScheduledTaskCreate}

theorem insertTask_cases (inserted : insertTask db input actor uuid timestamp = some next) :
    next = db ∨ uuid ∉ db.tasks.map TaskRow.id ∧
      ∃ task, task.id = uuid ∧ next = { db with tasks := db.tasks ++ [task] } := by
  unfold insertTask at inserted
  split at inserted
  · exact .inl (Option.some.inj inserted).symm
  split at inserted
  · cases inserted
  · rename_i free
    refine .inr ⟨fun taken => free ?_, _, rfl, (Option.some.inj inserted).symm⟩
    obtain ⟨task, member, same⟩ := mem_map.mp taken
    exact any_eq_true.mpr ⟨task, member, decide_eq_true same⟩

theorem AutomationDb.Sound.insertTask (sound : db.Sound)
    (inserted : insertTask db input actor uuid timestamp = some next) :
    next.Sound ∧ Carries db next [] ∧ ∀ edits, Waits db next edits := by
  obtain rfl | ⟨free, task, same, rfl⟩ := insertTask_cases inserted
  · exact ⟨sound, .of_eq rfl, fun _ => .of_subset (List.Subset.refl _)⟩
  refine ⟨⟨sound.keys, sound.commands, ?_, ?_⟩, .of_eq rfl,
    fun _ => .of_subset (subset_append_left _ _)⟩
  · rw [map_append, nodup_append]
    refine ⟨sound.ids, nodup_singleton _, ?_⟩
    intro id member other isOther equal
    obtain rfl := mem_singleton.mp isOther
    exact free (same ▸ equal ▸ member)
  · intro row member waits
    obtain ⟨own, isOwn, known⟩ := sound.pending row member waits
    exact ⟨own, mem_append_left _ isOwn, known⟩

variable {taskId : String}

theorem pendingOf_iff :
    pendingOf taskId row = true ↔ row.taskId = taskId ∧ row.deliveredAt = none := by
  simp [pendingOf]

section Update

variable {input : ScheduledTaskUpdate} {actor : Option WorkspaceActor} {timestamp : Nat}
  {existing : TaskRow}

def promptedTables (db : AutomationDb) (input : ScheduledTaskUpdate)
    (actor : Option WorkspaceActor) (timestamp : Nat) (existing : TaskRow) :
    AutomationDb :=
  (db.updateTasks (fun task => task.id = input.taskId && task.sessionId = input.sessionId)
    (updatedTask input actor timestamp existing)).updateDeliveries
      (fun row => input.prompt.isSome && pendingOf input.taskId row)
      fun row => { row with prompt := input.prompt.getD row.prompt }

theorem updateTables_eq :
    updateTables db input actor timestamp existing =
      if input.enabled = some false then
        (promptedTables db input actor timestamp existing).deleteDeliveries (pendingOf input.taskId)
      else promptedTables db input actor timestamp existing := by
  unfold updateTables promptedTables
  cases input.prompt with
  | some prompt => rfl
  | none =>
    simp [updateDeliveries]

theorem tasks_updateTables :
    (updateTables db input actor timestamp existing).tasks =
      (db.updateTasks (fun task => task.id = input.taskId && task.sessionId = input.sessionId)
        (updatedTask input actor timestamp existing)).tasks := by
  rw [updateTables_eq]
  split
  · rfl
  · rfl

section

variable (sound : db.Sound)
  (known : existing ∈ db.tasks ∧ existing.id = input.taskId ∧
    existing.sessionId = input.sessionId ∧ existing.deletedAt = none)
include sound known

theorem AutomationDb.Sound.promptedTables :
    (promptedTables db input actor timestamp existing).Sound := by
  obtain ⟨isExisting, sameId, sameSession, present⟩ := known
  have keys : (Automation.promptedTables db input actor timestamp existing).deliveries.map
      key = db.deliveries.map key := map_updateDeliveries fun _ => rfl
  have commands : (Automation.promptedTables db input actor timestamp
      existing).deliveries.map commandId =
        db.deliveries.map commandId := map_updateDeliveries fun _ => rfl
  have ids : (Automation.promptedTables db input actor timestamp existing).tasks.map
      TaskRow.id = db.tasks.map TaskRow.id := map_updateTasks fun _ => rfl
  refine ⟨keys ▸ sound.keys, commands ▸ sound.commands, ids ▸ sound.ids, ?_⟩
  intro row member waits
  obtain ⟨before, isBefore, written⟩ := mem_updateDeliveries.mp member
  have pending : before.deliveredAt = none := by
    split at written
    · rename_i isSelected
      rw [Bool.and_eq_true] at isSelected
      exact (pendingOf_iff.mp isSelected.2).2
    · exact written ▸ waits
  have sameTask : row.taskId = before.taskId := by
    split at written
    · exact written ▸ rfl
    · exact written ▸ rfl
  obtain ⟨task, isTask, isOwn, prompted, kept⟩ := sound.pending before isBefore pending
  refine ⟨_, mem_updateTasks.mpr ⟨task, isTask, rfl⟩, ?_⟩
  by_cases own : before.taskId = input.taskId
  · obtain rfl := sound.task_eq isTask isExisting (isOwn.trans (own.trans sameId.symm))
    have selected : (decide (task.id = input.taskId) &&
        decide (task.sessionId = input.sessionId)) = true := by
      rw [decide_eq_true sameId, decide_eq_true sameSession]
      rfl
    rw [if_pos selected]
    refine ⟨isOwn.trans sameTask.symm, ?_, present⟩
    change input.prompt.getD task.prompt = row.prompt
    subst written
    cases asked : input.prompt with
    | none =>
      exact prompted
    | some prompt =>
      rw [if_pos (by simp [pendingOf, own, pending])]
      rfl
  · have unselected : ¬(decide (task.id = input.taskId) &&
        decide (task.sessionId = input.sessionId)) = true := by
      rw [Bool.and_eq_true, decide_eq_true_eq]
      exact fun both => own (isOwn.symm.trans both.1)
    rw [if_neg unselected]
    refine ⟨isOwn.trans sameTask.symm, ?_, kept⟩
    rw [if_neg (by simp [pendingOf, own])] at written
    exact written ▸ prompted

theorem AutomationDb.Sound.updateTables :
    (updateTables db input actor timestamp existing).Sound ∧
      Carries db (updateTables db input actor timestamp existing)
        (if input.enabled = some false then [.stopped input.taskId] else []) ∧
      Waits db (updateTables db input actor timestamp existing) (fun task =>
        task.id = input.taskId ∧ (input.schedule.isSome ∨ input.enabled = some false)) := by
  have prompted : (Automation.promptedTables db input actor timestamp existing).Sound :=
    sound.promptedTables known
  have carries : Carries db (Automation.promptedTables db input actor timestamp existing) [] := by
    have tasksOnly : Carries db (db.updateTasks
        (fun task => task.id = input.taskId && task.sessionId = input.sessionId)
        (updatedTask input actor timestamp existing)) [] := .of_eq rfl
    refine tasksOnly.trans (.updateDeliveries ?_ (fun _ => rfl) (fun _ => rfl))
    intro row isSelected
    rw [Bool.and_eq_true] at isSelected
    exact (pendingOf_iff.mp isSelected.2).2
  refine ⟨?_, ?_, ?_⟩
  · rw [updateTables_eq]
    split
    · refine ⟨prompted.keys.sublist (map_deleteDeliveries ..),
        prompted.commands.sublist (map_deleteDeliveries ..), prompted.ids, ?_⟩
      intro row member
      exact prompted.pending row (mem_deleteDeliveries.mp member).1
    · exact prompted
  · rw [updateTables_eq]
    split
    · refine carries.trans (.deleteDeliveries ?_ ?_ ?_)
      · exact fun row isSelected => (pendingOf_iff.mp isSelected).2
      · intro row _ isSelected
        rw [(pendingOf_iff.mp isSelected).1]
        exact .head _
      · intro row _ waits unselected stopped
        rw [mem_singleton] at stopped
        have selected := pendingOf_iff.mpr ⟨Mark.stopped.inj stopped, waits⟩
        exact Bool.false_ne_true (unselected.symm.trans selected)
    · exact carries
  · refine .of_updateTasks tasks_updateTables (fun _ => rfl) ?_
    intro task isTask isSelected enabled
    rw [Bool.and_eq_true, decide_eq_true_eq] at isSelected
    obtain rfl := sound.task_eq isTask known.1 (isSelected.1.trans known.2.1.symm)
    by_cases edited : input.schedule.isSome ∨ input.enabled = some false
    · exact .inl ⟨isSelected.1, edited⟩
    · rw [not_or] at edited
      refine .inr ⟨rfl, ?_, ?_⟩
      · change input.enabled.getD task.enabled = task.enabled
        cases asked : input.enabled with
        | none => rfl
        | some value =>
          cases value with
          | true => exact enabled.symm
          | false => exact absurd asked edited.2
      · refine if_neg fun anew => ?_
        cases anew with
        | inl schedule => exact edited.1 schedule
        | inr switchedOn => exact Bool.false_ne_true (switchedOn.2.symm.trans enabled)

end

end Update

theorem update_ok {input : ScheduledTaskUpdate} {task : ScheduledTask}
    (ran : update db input actor timestamp = .ok (task, next)) :
    ∃ existing, (existing ∈ db.tasks ∧ existing.id = input.taskId ∧
      existing.sessionId = input.sessionId ∧ existing.deletedAt = none) ∧
      next = updateTables db input actor timestamp existing := by
  obtain ⟨-, -, ran⟩ := bind_eq_ok ran
  obtain ⟨existing, found, ran⟩ := bind_eq_ok ran
  obtain ⟨after, -, ran⟩ := bind_eq_ok ran
  refine ⟨existing, readTask_ok found, ?_⟩
  exact (congrArg Prod.snd (Except.ok.inj ran)).symm

variable {selected : TaskRow → Bool}

theorem mem_stopped :
    .stopped taskId ∈ (db.tasks.filter selected).map (fun task => Mark.stopped task.id) ↔
      ∃ task ∈ db.tasks, selected task = true ∧ task.id = taskId := by
  simp only [mem_map, mem_filter, Mark.stopped.injEq, and_assoc]

variable {update : TaskRow → TaskRow}

theorem AutomationDb.Sound.stop (sound : db.Sound)
    {dropped : DeliveryRow → Bool} {edits : TaskRow → Prop}
    (id : ∀ task, (update task).id = task.id)
    (drops : ∀ row, dropped row = true ↔ row.deliveredAt = none ∧
      ∃ task ∈ db.tasks, selected task = true ∧ task.id = row.taskId)
    (edited : ∀ task, selected task = true → edits task) :
    ((db.updateTasks selected update).deleteDeliveries dropped).Sound ∧
      Carries db ((db.updateTasks selected update).deleteDeliveries dropped)
        ((db.tasks.filter selected).map fun task => .stopped task.id) ∧
      Waits db ((db.updateTasks selected update).deleteDeliveries dropped) edits := by
  refine ⟨⟨sound.keys.sublist (map_deleteDeliveries ..),
    sound.commands.sublist (map_deleteDeliveries ..), ?_, ?_⟩, ?_, ?_⟩
  · have ids : ((db.updateTasks selected update).deleteDeliveries dropped).tasks.map
        TaskRow.id = db.tasks.map TaskRow.id := map_updateTasks id
    exact ids ▸ sound.ids
  · intro row member waits
    obtain ⟨isRow, kept⟩ := mem_deleteDeliveries.mp member
    obtain ⟨task, isTask, own, known⟩ := sound.pending row isRow waits
    have unselected : ¬selected task = true := by
      intro isSelected
      have isDropped := (drops row).mpr ⟨waits, task, isTask, isSelected, own⟩
      exact Bool.false_ne_true (kept.symm.trans isDropped)
    exact ⟨task, mem_updateTasks.mpr ⟨task, isTask, if_neg unselected⟩, own, known⟩
  · have tasksOnly : Carries db (db.updateTasks selected update) [] := .of_eq rfl
    refine tasksOnly.trans (.deleteDeliveries ?_ ?_ ?_)
    · exact fun row isDropped => ((drops row).mp isDropped).1
    · intro row _ isDropped
      exact mem_stopped.mpr ((drops row).mp isDropped).2
    · intro row _ waits kept stopped
      have isDropped := (drops row).mpr ⟨waits, mem_stopped.mp stopped⟩
      exact Bool.false_ne_true (kept.symm.trans isDropped)
  · refine .of_updateTasks rfl id ?_
    exact fun task _ isSelected _ => .inl (edited task isSelected)

theorem any_updateTasks {clause : TaskRow → Bool}
    (keeps : ∀ task, clause (update task) = clause task) :
    (db.updateTasks selected update).tasks.any clause = db.tasks.any clause := by
  rw [updateTasks, any_map]
  congr 1
  funext task
  rw [Function.comp]
  split
  · exact keeps task
  · rfl

theorem AutomationDb.Sound.remove (sound : db.Sound) (sessionId taskId : String) (timestamp : Nat) :
    (remove db sessionId taskId timestamp).Sound ∧
      Carries db (remove db sessionId taskId timestamp)
        ((db.tasks.filter fun task =>
          task.id = taskId && task.sessionId = sessionId).map fun task =>
            .stopped task.id) ∧
      Waits db (remove db sessionId taskId timestamp) (fun task => task.id = taskId) := by
  refine sound.stop (fun _ => rfl) ?_ ?_
  · intro row
    rw [any_updateTasks, Bool.and_eq_true, pendingOf_iff, any_eq_true]
    · constructor
      · intro both
        obtain ⟨⟨own, waits⟩, task, isTask, isSelected⟩ := both
        refine ⟨waits, task, isTask, isSelected, ?_⟩
        rw [Bool.and_eq_true, decide_eq_true_eq] at isSelected
        exact isSelected.1.trans own.symm
      · intro both
        obtain ⟨waits, task, isTask, isSelected, own⟩ := both
        refine ⟨⟨?_, waits⟩, task, isTask, isSelected⟩
        rw [Bool.and_eq_true, decide_eq_true_eq] at isSelected
        exact own.symm.trans isSelected.1
    · exact fun _ => rfl
  · intro task isSelected
    rw [Bool.and_eq_true, decide_eq_true_eq] at isSelected
    exact isSelected.1

theorem AutomationDb.Sound.cancelSession (sound : db.Sound) (sessionId : String) :
    (cancelSessionAutomation db sessionId).Sound ∧
      Carries db (cancelSessionAutomation db sessionId)
        ((db.tasks.filter fun task => task.sessionId = sessionId).map fun task =>
          .stopped task.id) ∧
      Waits db (cancelSessionAutomation db sessionId) (fun task => task.sessionId = sessionId) := by
  refine sound.stop (fun _ => rfl) ?_ ?_
  · intro row
    rw [any_updateTasks, Bool.and_eq_true, Option.isNone_iff_eq_none, any_eq_true]
    · apply and_congr_right
      intro _
      apply exists_congr
      intro task
      rw [Bool.and_eq_true, decide_eq_true_eq]
      constructor
      · exact fun both => ⟨both.1, both.2.2, both.2.1⟩
      · exact fun both => ⟨both.1, both.2.2, both.2.1⟩
    · exact fun _ => rfl
  · exact fun task isSelected => of_decide_eq_true isSelected

structure Records (db next : AutomationDb) (news : List DeliveryRow) : Prop where
  deliveries : next.deliveries = db.deliveries ++ news
  pending : ∀ row ∈ news, row.deliveredAt = none

variable {news : List DeliveryRow}

theorem Records.marks (records : Records db next news) :
    AutomationWorld.recordedMarks db next =
      (news.map fun row => Mark.recorded row.taskId row.eventId).reverse := by
  rw [AutomationWorld.recordedMarks, records.deliveries, drop_left]

theorem Records.running (records : Records db next news) (taskId : String) :
    .stopped taskId ∉ AutomationWorld.recordedMarks db next := by
  intro stopped
  rw [records.marks, mem_reverse] at stopped
  obtain ⟨row, -, same⟩ := mem_map.mp stopped
  cases same

theorem Records.carries (records : Records db next news) :
    Carries db next (AutomationWorld.recordedMarks db next) := by
  refine ⟨?_, ?_, ?_⟩
  · intro history standing row member waits
    rw [records.deliveries, mem_append] at member
    cases member with
    | inl old => exact (standing row old waits).append (records.running _)
    | inr new =>
      refine .of_recorded ?_ (records.running _)
      rw [records.marks, mem_reverse]
      exact mem_map.mpr ⟨row, new, rfl⟩
  · intro row member _
    rw [records.deliveries]
    exact mem_append_left _ member
  · intro row member
    refine .inl ⟨row, ?_, rfl, rfl⟩
    rw [records.deliveries]
    exact mem_append_left _ member

theorem Records.of_insert (inserted : db.insertDelivery row = some next)
    (waits : row.deliveredAt = none) :
    ∃ news, Records db next news ∧ (∀ new ∈ news, new = row) ∧ next.tasks = db.tasks ∧
      row.key ∈ next.deliveries.map DeliveryRow.key := by
  obtain ⟨rfl, taken⟩ | ⟨-, -, rfl⟩ := insertDelivery_cases inserted
  · exact ⟨[], ⟨(append_nil _).symm, by simp⟩, by simp, rfl, taken⟩
  refine ⟨[row], ⟨rfl, ?_⟩, ?_, rfl, ?_⟩
  · intro new member
    rw [mem_singleton.mp member]
    exact waits
  · exact fun new member => mem_singleton.mp member
  · rw [map_append]
    exact mem_append_right _ (.head _)

variable {eventId : String}

theorem trigger_ok (ran : trigger db sessionId taskId eventId uuid timestamp = .ok next) :
    ∃ task ∈ db.tasks, task.id = taskId ∧ task.deletedAt = none ∧
      db.insertDelivery ⟨taskId, .hook eventId, uuid, task.prompt, timestamp, none, 0⟩ =
        some next := by
  obtain ⟨-, -, ran⟩ := bind_eq_ok ran
  obtain ⟨task, found, ran⟩ := bind_eq_ok ran
  obtain ⟨isTask, own, -, present⟩ := readTask_ok found
  split at ran
  · cases ran
  refine ⟨task, isTask, own, present, ?_⟩
  cases inserted : db.insertDelivery
      ⟨taskId, .hook eventId, uuid, task.prompt, timestamp, none, 0⟩ with
  | none =>
    rw [inserted] at ran
    cases ran
  | some written =>
    rw [inserted] at ran
    exact congrArg some (Except.ok.inj ran)

theorem AutomationDb.Sound.trigger (sound : db.Sound)
    (ran : trigger db sessionId taskId eventId uuid timestamp = .ok next) :
    next.Sound ∧ Carries db next (AutomationWorld.recordedMarks db next) ∧
      ∀ edits, Waits db next edits := by
  obtain ⟨task, isTask, own, present, inserted⟩ := trigger_ok ran
  obtain ⟨news, records, -, tasks, -⟩ := Records.of_insert inserted rfl
  refine ⟨sound.insertDelivery ⟨task, isTask, own, rfl, present⟩ inserted,
    records.carries, fun _ => .of_subset ?_⟩
  rw [tasks]
  exact List.Subset.refl _

end Transactions

end Zuse.Automation
