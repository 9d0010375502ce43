import Zuse.Automation.SweepRuns

namespace Zuse.Automation

open Zuse.Data List

def Early (db : AutomationDb) (timestamp : Nat) (task : TaskRow) : Prop :=
  (db.tasks.filter fun other => other.due db timestamp ∧ other ≠ task ∧
    other.nextRunAt.getD 0 ≤ task.nextRunAt.getD 0).length < sweepLimit

/-- The committed recording transaction of a sweep. -/
structure RecordsAt (world next : AutomationWorld) (label : AutomationStep)
    (timestamp : Nat) : Prop where
  records : ∃ index uuids, label = .proceed index uuids ∧
    world.sweeps[index]? = some ⟨timestamp, .recording⟩ ∧
    next.sweeps[index]? = some ⟨timestamp, .reading⟩

/-- What every step of every run does with the deliveries. -/
structure Fires (world next : AutomationWorld) (label : AutomationStep) : Prop where
  once : (next.admitted.map Admission.key).Nodup
  proper : ∀ admission, next.admitted = admission :: world.admitted → Proper world admission
  single : (next.db.deliveries.map DeliveryRow.key).Nodup
  records : ∀ timestamp, RecordsAt world next label timestamp → ∀ task ∈ world.db.tasks,
    task.due world.db timestamp = true → Early world.db timestamp task →
      task.timerKey ∉ world.db.deliveries.map DeliveryRow.key →
        ∃ row ∈ next.db.deliveries, row ∉ world.db.deliveries ∧ row.key = task.timerKey ∧
          row.prompt = task.prompt ∧ row.deliveredAt = none
  kept : ∀ row ∈ world.db.deliveries,
    (∃ after ∈ next.db.deliveries, after.key = row.key ∧ after.commandId = row.commandId) ∨
      Stops world label row.taskId
  waits : Waits world.db next.db (Edits label)

variable {uuids : List String}

section

variable {db next : AutomationDb} {timestamp : Nat} {task : TaskRow}

theorem mem_dueTasks_of_early (sound : db.Sound) (member : task ∈ db.tasks)
    (ready : task.due db timestamp = true) (early : Early db timestamp task) :
    task ∈ dueTasks db timestamp := by
  have distinct : db.tasks.Nodup := Nodup.of_map TaskRow.id sound.ids
  apply Table.mem_orderLimit_of_few (distinct.filter _)
  · exact mem_filter.mpr ⟨member, ready⟩
  refine Nat.lt_of_le_of_lt (Nat.le_of_eq ?_) early
  simp [and_comm, and_assoc, Bool.and_assoc]

theorem recordDue_of_early (sound : db.Sound)
    (drawn : uuids.length = (dueTasks db timestamp).length)
    (recorded : recordDue db timestamp uuids = some next) (member : task ∈ db.tasks)
    (ready : task.due db timestamp = true) (early : Early db timestamp task)
    (unused : task.timerKey ∉ db.deliveries.map DeliveryRow.key) :
    ∃ row ∈ next.deliveries, row ∉ db.deliveries ∧ row.key = task.timerKey ∧
      row.prompt = task.prompt ∧ row.deliveredAt = none := by
  have isDue := mem_dueTasks_of_early sound member ready early
  have ran := recordDue_recorded sound drawn recorded
  obtain ⟨news, records, only⟩ := ran.news
  obtain ⟨row, isRow, key⟩ := mem_map.mp (ran.keys task isDue)
  have isNew : row ∈ news := by
    rw [records.deliveries, mem_append] at isRow
    refine isRow.resolve_left fun old => unused ?_
    rw [← key]
    exact mem_map_of_mem old
  obtain ⟨own, isOwn, ownKey, prompt⟩ := only row isNew
  have same : own.id = task.id := congrArg Prod.fst (ownKey.symm.trans key)
  obtain rfl := sound.task_eq (mem_dueTasks isOwn).1 member same
  refine ⟨row, isRow, fun old => unused ?_, key, prompt, records.pending row isNew⟩
  rw [← key]
  exact mem_map_of_mem old

end

theorem fires_of_reachable {world next : AutomationWorld} {label : AutomationStep}
    (reachable : automationSystem.Reachable world)
    (stepped : automationSystem.step world label = some next) : Fires world next label := by
  have accounted := accounted_everywhere reachable
  obtain ⟨marks, moves⟩ := step_moves accounted stepped
  refine ⟨moves.accounted.once, ?_, moves.accounted.sound.keys, ?_, ?_, moves.waits⟩
  · intro admission admits
    obtain same | ⟨other, otherAdmits, proper⟩ := moves.admitted
    · have lengths := congrArg length (same.symm.trans admits)
      rw [length_cons] at lengths
      omega
    · cases otherAdmits.symm.trans admits
      exact proper
  · intro timestamp recording task member ready early unused
    obtain ⟨index, uuids, rfl, isSweep, isReading⟩ := recording
    obtain ⟨sweep, found, proceeds⟩ := Option.bind_eq_some_iff.mp stepped
    cases isSweep.symm.trans found
    unfold AutomationWorld.proceed at proceeds
    dsimp only at proceeds
    split at proceeds
    · rename_i drawn
      unfold AutomationWorld.record at proceeds
      cases ran : recordDue world.db timestamp uuids with
      | none =>
        -- The transaction failed, and the sweep is over.
        rw [ran] at proceeds
        cases proceeds
        have ended : (world.sweeps.set index ⟨timestamp, .ended⟩)[index]? =
            some ⟨timestamp, .reading⟩ := isReading
        rw [getElem?_set_self'] at ended
        rw [found] at ended
        cases ended
      | some db =>
        rw [ran] at proceeds
        cases proceeds
        exact recordDue_of_early accounted.sound drawn ran member ready early unused
    · cases proceeds
  · intro row member
    exact (moves.carries.kept row member).imp_right (moves.stops row.taskId)

def session : List AutomationStep :=
  [.setChat ⟨"chat", false⟩, .setSession ⟨"session", "chat", false⟩]

def creation (name : String) (schedule : TaskSchedule) : List AutomationStep :=
  [.create ⟨"session", name, "title", "prompt", schedule⟩ none, .insertTask 0 name, .returnTask 0]

def firing : List AutomationStep :=
  session ++ creation "task" (.interval 3600000 (some 5)) ++
    [.tick 7, .sweep, .proceed 0 ["command"], .proceed 0 [], .proceed 0 []]

theorem fires_of_delivery : (automationSystem.run firing).any fun world =>
    (world.step (.deliver 0 false)).any fun next =>
      next.admitted.length = 1 ∧ world.admitted.length = 0 := by
  decide +kernel

theorem fires_at_delivery : ∃ world next,
    automationSystem.run firing = some world ∧
      automationSystem.step world (.deliver 0 false) = some next ∧
      next.admitted.length = 1 ∧ Fires world next (.deliver 0 false) := by
  obtain ⟨world, ran, delivers⟩ := (Option.any_eq_true _ _).mp fires_of_delivery
  obtain ⟨next, stepped, counts⟩ := (Option.any_eq_true _ _).mp delivers
  exact ⟨world, next, ran, stepped, (of_decide_eq_true counts).1,
    fires_of_reachable (TransitionSystem.run_reachable ran) stepped⟩

/-- Every sweep records a delivery for every due task, but for those excused. -/
def RecordsDue (excused : AutomationDb → Nat → TaskRow → Bool) : Prop :=
  ∀ world next label timestamp, automationSystem.Reachable world →
    automationSystem.step world label = some next →
    RecordsAt world next label timestamp → ∀ task ∈ world.db.tasks,
      task.due world.db timestamp = true → excused world.db timestamp task = false →
        ∃ row ∈ next.db.deliveries, row ∉ world.db.deliveries ∧ row.key = task.timerKey

def misses (excused : AutomationDb → Nat → TaskRow → Bool) (index timestamp place : Nat)
    (uuids : List String) (world : AutomationWorld) : Bool :=
  (automationSystem.step world (.proceed index uuids)).any fun next =>
    world.sweeps[index]? = some ⟨timestamp, .recording⟩ &&
      next.sweeps[index]? = some ⟨timestamp, .reading⟩ &&
      (world.db.tasks[place]?).any fun task =>
        task.due world.db timestamp && !excused world.db timestamp task &&
          next.db.deliveries.all fun row =>
            row.key ≠ task.timerKey || world.db.deliveries.contains row

theorem not_recordsDue {excused : AutomationDb → Nat → TaskRow → Bool}
    {index timestamp place : Nat} {labels : List AutomationStep}
    (missed : (automationSystem.run labels).any (misses excused index timestamp place uuids)) :
    ¬RecordsDue excused := by
  intro recordsDue
  obtain ⟨world, ran, misses⟩ := (Option.any_eq_true _ _).mp missed
  obtain ⟨next, stepped, test⟩ := (Option.any_eq_true _ _).mp misses
  simp only [Bool.and_eq_true, Option.any_eq_true, decide_eq_true_eq, Bool.not_eq_true',
    all_eq_true, Bool.or_eq_true] at test
  obtain ⟨⟨isSweep, isReading⟩, task, found, ⟨ready, unexcused⟩, none_⟩ := test
  obtain ⟨row, isRow, fresh, key⟩ := recordsDue world next _ timestamp
    (TransitionSystem.run_reachable ran) stepped ⟨index, uuids, rfl, isSweep, isReading⟩
    task (mem_of_getElem? found) ready unexcused
  obtain different | known := none_ row isRow
  · exact different key
  · exact fresh (contains_iff_mem.mp known)

def used (db : AutomationDb) (_ : Nat) (task : TaskRow) : Bool :=
  (db.deliveries.map DeliveryRow.key).contains task.timerKey

def crowded (db : AutomationDb) (timestamp : Nat) (_ : TaskRow) : Bool :=
  sweepLimit < (db.tasks.filter (TaskRow.due db timestamp)).length

def named (index : Nat) : String := String.ofList [Char.ofNat (index + 200)]

def crowding : List AutomationStep :=
  session ++ (List.range 101).flatMap (fun index => creation (named index) (.once index)) ++
    [.tick 200, .sweep]

def reusing : List AutomationStep :=
  session ++ creation "task" (.once 5) ++
    [.tick 7, .sweep, .proceed 0 ["command"],
      .update ⟨"session", "task", none, none, none, some true⟩ none, .sweep]

theorem misses_crowding : (automationSystem.run crowding).any
    (misses used 0 200 100 ((List.range 100).map named)) := by
  decide +kernel

theorem misses_reusing : (automationSystem.run reusing).any (misses crowded 1 7 0 ["again"]) := by
  decide +kernel

/-- Sweeps leave due tasks out: the later ones of many, and one whose time is used. -/
theorem not_recordsDue_all : ¬RecordsDue used ∧ ¬RecordsDue crowded :=
  ⟨not_recordsDue misses_crowding, not_recordsDue misses_reusing⟩

end Zuse.Automation
