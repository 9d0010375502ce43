import Zuse.Cloud.MailboxEdits
import Zuse.Data.InsertionMap

namespace Zuse.Cloud

open Zuse.Domain (Millis Number)
open List MailboxCommand

/-! Loops of the transactions as single edits. The ids of the rows are distinct, so a row
that a loop read beforehand is the row that the loop's statement finds. -/

namespace Mailbox

variable {mailbox : Mailbox} {operation : MailboxOperation}

def commandIds (mailbox : Mailbox) : List CommandId :=
  mailbox.commands.map (·.commandId)

theorem eq_of_commandId (distinct : mailbox.commandIds.Nodup)
    {left right : MailboxCommand} (leftStored : left ∈ mailbox.commands)
    (rightStored : right ∈ mailbox.commands) (sameId : left.commandId = right.commandId) :
    left = right :=
  inj_on_of_nodup_map distinct leftStored rightStored sameId

variable {commandId : CommandId} {row : MailboxCommand}

theorem command_eq_some (distinct : mailbox.commandIds.Nodup) :
    mailbox.command commandId = some row ↔ row ∈ mailbox.commands ∧ row.commandId = commandId := by
  constructor
  · intro found
    have sameId := List.find?_some found
    exact ⟨mem_of_find?_eq_some found, of_decide_eq_true sameId⟩
  rintro ⟨stored, rfl⟩
  rw [command, List.find?_eq_some_iff_append]
  obtain ⟨before, after, split⟩ := append_of_mem stored
  refine ⟨decide_eq_true rfl, before, after, split, ?_⟩
  intro other member
  simp only [Bool.not_eq_true', decide_eq_false_iff_not]
  intro sameId
  rw [commandIds, split, map_append] at distinct
  exact (disjoint_of_nodup_append distinct) (mem_map_of_mem member) (sameId ▸ mem_cons_self)

theorem command_eq_none : mailbox.command commandId = none ↔ commandId ∉ mailbox.commandIds := by
  simp [command, commandIds]

variable {status : CommandStatus}

theorem status_eq_some (distinct : mailbox.commandIds.Nodup)
    (found : mailbox.status commandId = some status) :
    ∃ row ∈ mailbox.commands, row.commandId = commandId ∧ mailbox.statusOf row = status := by
  obtain ⟨row, isRow, isStatus⟩ := Option.map_eq_some_iff.mp found
  obtain ⟨stored, sameId⟩ := (command_eq_some distinct).mp isRow
  exact ⟨row, stored, sameId, isStatus⟩

theorem stored_of_status (found : mailbox.status commandId = some status) :
    ∃ row ∈ mailbox.commands, row.commandId = commandId := by
  obtain ⟨row, isRow, _⟩ := Option.map_eq_some_iff.mp found
  have sameId := List.find?_some isRow
  exact ⟨row, mem_of_find?_eq_some isRow, of_decide_eq_true sameId⟩

theorem rewrite_congr {left right : MailboxCommand → MailboxCommand}
    (agree : ∀ row ∈ mailbox.commands, left row = right row) :
    mailbox.rewrite left = mailbox.rewrite right := by
  rw [rewrite, rewrite, map_congr_left agree]

theorem rewrite_rewrite (first second : MailboxCommand → MailboxCommand) :
    (mailbox.rewrite first).rewrite second = mailbox.rewrite fun row => second (first row) := by
  simp only [rewrite, map_map]
  rfl

variable {set : MailboxCommand → MailboxCommand}

theorem rewrite_commandIds (same : ∀ row, (set row).commandId = row.commandId) :
    (mailbox.rewrite set).commandIds = mailbox.commandIds := by
  simp only [commandIds, rewrite, map_map]
  exact map_congr_left fun row _ => same row

def setAll (set : MailboxCommand → MailboxCommand) (ids : List CommandId)
    (stored : MailboxCommand) : MailboxCommand :=
  if stored.commandId ∈ ids then set stored else stored

theorem setAll_commandId (same : ∀ row, (set row).commandId = row.commandId)
    (ids : List CommandId) (stored : MailboxCommand) :
    (setAll set ids stored).commandId = stored.commandId := by
  rw [setAll]
  split
  · exact same stored
  · rfl

theorem setAll_setAll (same : ∀ row, (set row).commandId = row.commandId) {head : CommandId}
    {rest : List CommandId} (absent : head ∉ rest) (stored : MailboxCommand) :
    setAll set rest (setAll set [head] stored) = setAll set (head :: rest) stored := by
  by_cases isHead : stored.commandId = head
  · simp [setAll, isHead, same, absent]
  · simp [setAll, isHead]

/-- One pass of a loop: its statement sets the row, and the change is recorded. -/
def pass (set : MailboxCommand → MailboxCommand) (mailbox : Mailbox)
    (row : MailboxCommand) : Mailbox :=
  (mailbox.rewrite (setAll set [row.commandId])).changed row.commandId

variable {rows : List MailboxCommand}

theorem foldl_pass (same : ∀ row, (set row).commandId = row.commandId)
    (distinct : (rows.map (·.commandId)).Nodup) (mailbox : Mailbox) :
    rows.foldl (pass set) mailbox =
      (mailbox.rewrite (setAll set (rows.map (·.commandId)))).changedAll
        (rows.map (·.commandId)) := by
  induction rows generalizing mailbox with
  | nil =>
    have unchanged : mailbox.rewrite (setAll set []) = mailbox := by
      have isSelf : setAll set [] = id := by
        funext stored
        simp [setAll]
      simp [rewrite, isSelf]
    exact unchanged.symm
  | cons row rest ih =>
    rw [map_cons, nodup_cons] at distinct
    rw [foldl_cons, ih distinct.2]
    have composed : (pass set mailbox row).rewrite (setAll set (rest.map (·.commandId))) =
        (mailbox.rewrite (setAll set (row.commandId :: rest.map (·.commandId)))).changed
          row.commandId := by
      change ((mailbox.rewrite _).rewrite _).changed row.commandId = _
      rw [rewrite_rewrite, rewrite_congr fun stored _ =>
        setAll_setAll same distinct.1 stored]
    rw [composed]
    rfl

theorem mem_pass {other : MailboxCommand} (stored : other ∈ mailbox.commands)
    (differs : other.commandId ≠ row.commandId) : other ∈ (pass set mailbox row).commands := by
  refine mem_map.mpr ⟨other, stored, ?_⟩
  rw [setAll, if_neg]
  exact fun isRow => differs (mem_singleton.mp isRow)

theorem pass_commandIds (same : ∀ row, (set row).commandId = row.commandId) (row : MailboxCommand) :
    (pass set mailbox row).commandIds = mailbox.commandIds :=
  rewrite_commandIds (setAll_commandId same _)

theorem foldl_eq {step : Mailbox → MailboxCommand → Mailbox}
    (set : MailboxCommand → MailboxCommand) (selected : MailboxCommand → Prop)
    (same : ∀ row, (set row).commandId = row.commandId)
    (isPass : ∀ mailbox row, mailbox.commandIds.Nodup → row ∈ mailbox.commands →
      selected row → step mailbox row = pass set mailbox row)
    (distinct : mailbox.commandIds.Nodup)
    (stored : ∀ row ∈ rows, row ∈ mailbox.commands ∧ selected row)
    (rowsDistinct : (rows.map (·.commandId)).Nodup) :
    rows.foldl step mailbox =
      (mailbox.rewrite (setAll set (rows.map (·.commandId)))).changedAll
        (rows.map (·.commandId)) := by
  rw [← foldl_pass same rowsDistinct]
  induction rows generalizing mailbox with
  | nil => rfl
  | cons row rest ih =>
    rw [map_cons, nodup_cons] at rowsDistinct
    obtain ⟨⟨rowStored, rowSelected⟩, restStored⟩ := forall_mem_cons.mp stored
    rw [foldl_cons, isPass mailbox row distinct rowStored rowSelected]
    refine ih ?_ ?_ rowsDistinct.2
    · rw [pass_commandIds same]
      exact distinct
    · intro other member
      refine ⟨mem_pass (restStored other member).1 ?_, (restStored other member).2⟩
      intro sameId
      exact rowsDistinct.1 (sameId ▸ mem_map_of_mem member)

section Edits

variable [MailboxHost] {set : MailboxCommand → MailboxCommand}

theorem edit_setAll (distinct : mailbox.commandIds.Nodup)
    (stored : ∀ row ∈ rows, row ∈ mailbox.commands)
    (edits : ∀ row ∈ rows, RowEdit operation mailbox row (set row)) :
    Edit operation mailbox
      ((mailbox.rewrite (setAll set (rows.map (·.commandId)))).changedAll
        (rows.map (·.commandId))) := by
  apply Edit.rewrite
  · intro row member
    rw [setAll]
    split
    · rename_i listed
      obtain ⟨other, otherListed, sameId⟩ := mem_map.mp listed
      rw [← eq_of_commandId distinct (stored other otherListed) member sameId]
      exact .inr (edits other otherListed)
    · exact .inl rfl
  · intro row _ differs
    rw [setAll] at differs
    split at differs
    · assumption
    · exact absurd rfl differs
  · intro commandId listed
    obtain ⟨row, member, sameId⟩ := mem_map.mp listed
    exact ⟨row, stored row member, sameId⟩

variable {condition : MailboxCommand → Bool}

theorem edit_update (ids : List CommandId)
    (edits : ∀ row ∈ mailbox.commands, condition row = true →
      RowEdit operation mailbox row (set row))
    (recorded : ∀ row ∈ mailbox.commands, condition row = true →
      (set row).view ≠ row.view → row.commandId ∈ ids)
    (stored : ∀ commandId ∈ ids, ∃ row ∈ mailbox.commands, row.commandId = commandId) :
    Edit operation mailbox ((mailbox.update condition set).changedAll ids) := by
  apply Edit.rewrite (fun row => if condition row then set row else row)
  · intro row member
    split
    · rename_i holds
      exact .inr (edits row member holds)
    · exact .inl rfl
  · intro row member differs
    split at differs
    · rename_i holds
      exact recorded row member holds differs
    · exact absurd rfl differs
  · exact stored

theorem edit_updateAll
    (edits : ∀ row ∈ mailbox.commands, condition row = true →
      RowEdit operation mailbox row (set row)) :
    Edit operation mailbox ((mailbox.update condition set).changedAll
      ((mailbox.commands.filter condition).map (·.commandId))) := by
  apply edit_update _ edits
  · intro row member holds _
    exact mem_map_of_mem (mem_filter.mpr ⟨member, holds⟩)
  · intro commandId listed
    obtain ⟨row, selected, sameId⟩ := mem_map.mp listed
    exact ⟨row, (mem_filter.mp selected).1, sameId⟩

end Edits

/-- What `terminalizeUnsafe` makes of a row. -/
def terminalized (now : Millis) (categories : TerminalCategories) (row : MailboxCommand) :
    MailboxCommand :=
  if row.canStillReceiveOriginalReceipt now then row.keepLease now categories.everLeased
  else
    row.terminate now (if row.everLeased then .outcomeUnknown else .cancelled)
      (some (if row.everLeased then categories.everLeased else categories.neverLeased))

theorem terminalized_commandId (now : Millis) (categories : TerminalCategories)
    (row : MailboxCommand) : (terminalized now categories row).commandId = row.commandId := by
  rw [terminalized]
  split <;> rfl

theorem leased_of_canStillReceive {now : Millis}
    (canStill : row.canStillReceiveOriginalReceipt now = true) : row.state = .leased := by
  simp only [canStillReceiveOriginalReceipt, Bool.and_eq_true,
    decide_eq_true_eq] at canStill
  exact canStill.1.1.1.1.2

theorem terminalizeCommand_eq (now : Millis) (categories : TerminalCategories)
    (mailbox : Mailbox) (row : MailboxCommand) (distinct : mailbox.commandIds.Nodup)
    (stored : row ∈ mailbox.commands) (ongoing : row.state.isTerminal = false) :
    mailbox.terminalizeCommand now categories row =
      pass (terminalized now categories) mailbox row := by
  rw [terminalizeCommand]
  by_cases canStill : row.canStillReceiveOriginalReceipt now = true
  · have leased := leased_of_canStillReceive canStill
    rw [if_pos canStill]
    congr 1
    refine rewrite_congr fun other member => ?_
    by_cases sameId : other.commandId = row.commandId
    · cases eq_of_commandId distinct member stored sameId
      simp [setAll, terminalized, canStill, leased]
    · simp [setAll, sameId]
  rw [if_neg canStill]
  congr 1
  refine rewrite_congr fun other member => ?_
  by_cases sameId : other.commandId = row.commandId
  · cases eq_of_commandId distinct member stored sameId
    simp [setAll, terminalized, canStill, ongoing]
  · simp [setAll, sameId]

section Terminalize

variable {now : Millis} {categories : TerminalCategories} {rows : List MailboxCommand}

theorem terminalize_eq (distinct : mailbox.commandIds.Nodup)
    (rowsDistinct : (rows.map (·.commandId)).Nodup)
    (stored : ∀ row ∈ rows, row ∈ mailbox.commands ∧ row.state.isTerminal = false) :
    mailbox.terminalize now categories rows =
      (mailbox.rewrite (setAll (terminalized now categories)
        (rows.map (·.commandId)))).changedAll (rows.map (·.commandId)) :=
  foldl_eq _ (·.state.isTerminal = false) (terminalized_commandId now categories)
    (terminalizeCommand_eq now categories) distinct stored rowsDistinct

theorem nonterminal_distinct (distinct : mailbox.commandIds.Nodup)
    (condition : MailboxCommand → Bool) :
    ((mailbox.nonterminal.filter condition).map (·.commandId)).Nodup :=
  distinct.sublist (List.Sublist.map commandId (filter_sublist.trans filter_sublist))

theorem mem_nonterminal :
    row ∈ mailbox.nonterminal ↔ row ∈ mailbox.commands ∧ row.state.isTerminal = false := by
  simp [nonterminal]

theorem terminalize_frame {α : Type} (read : Mailbox → α)
    (update : ∀ mailbox condition set, read (mailbox.update condition set) = read mailbox)
    (changed : ∀ mailbox commandId, read (mailbox.changed commandId) = read mailbox) :
    read (mailbox.terminalize now categories rows) = read mailbox := by
  induction rows generalizing mailbox with
  | nil => rfl
  | cons row rest ih =>
    have first : read (mailbox.terminalizeCommand now categories row) =
        read mailbox := by
      rw [terminalizeCommand]
      split <;> rw [changed, update]
    exact ih.trans first

theorem terminalize_withFences (destructionFence lifecycleFence : Option Number) :
    { mailbox with destructionFence, lifecycleFence }.terminalize now categories rows =
      { mailbox.terminalize now categories rows with
        destructionFence, lifecycleFence } := by
  induction rows generalizing mailbox with
  | nil => rfl
  | cons row rest ih =>
    have first : { mailbox with destructionFence, lifecycleFence }.terminalizeCommand now
        categories row = { mailbox.terminalizeCommand now categories row with
          destructionFence, lifecycleFence } := by
      rw [terminalizeCommand, terminalizeCommand]
      split <;> rfl
    simp only [terminalize, foldl_cons, first]
    exact ih

theorem terminalized_edit (ongoing : row.state.isTerminal = false)
    (destructive : categories.everLeased ∈ destructiveLeaseCategories) :
    RowEdit operation mailbox row (terminalized now categories row) := by
  rw [terminalized]
  split
  · rename_i canStill
    exact .keepLease now _ (leased_of_canStillReceive canStill) destructive
  · cases leased : row.everLeased with
    | true => exact .terminateLeased now _ ongoing (.inl leased)
    | false => exact .terminateUnleased now _ ongoing leased

theorem terminalize_edit [MailboxHost] (distinct : mailbox.commandIds.Nodup)
    (rowsDistinct : (rows.map (·.commandId)).Nodup)
    (stored : ∀ row ∈ rows, row ∈ mailbox.commands ∧ row.state.isTerminal = false)
    (destructive : categories.everLeased ∈ destructiveLeaseCategories) :
    Edit operation mailbox (mailbox.terminalize now categories rows) := by
  rw [terminalize_eq distinct rowsDistinct stored]
  exact edit_setAll distinct (fun row member => (stored row member).1)
    fun row member => terminalized_edit (stored row member).2 destructive

theorem terminalizeBelowFence_survives (distinct : mailbox.commandIds.Nodup)
    (destructive : categories.everLeased ∈ destructiveLeaseCategories) {destructionFence : Number}
    (member : row ∈ (mailbox.terminalizeBelowFence now destructionFence
      categories).commands) (ongoing : row.state.isTerminal = false) :
    Survives row destructionFence := by
  rw [terminalizeBelowFence, terminalize_eq distinct (nonterminal_distinct distinct _)
    fun row listed => mem_nonterminal.mp (mem_filter.mp listed).1,
    changedAll_commands] at member
  obtain ⟨stored, storedMember, rfl⟩ := mem_map.mp member
  rw [setAll] at ongoing ⊢
  split at ongoing
  · rename_i listed
    rw [if_pos listed]
    rw [terminalized] at ongoing ⊢
    split at ongoing
    · rename_i canStill
      rw [if_pos canStill]
      refine .inr ⟨leased_of_canStillReceive canStill, ?_⟩
      simpa [isDestructive, keepLease] using destructive
    · cases leased : stored.everLeased <;>
        simp [terminate, leased, CloudCommandState.isTerminal] at ongoing
  · rename_i unlisted
    rw [if_neg unlisted]
    refine .inl (Bool.eq_false_iff.mpr fun below => unlisted ?_)
    exact mem_map_of_mem (mem_filter.mpr ⟨mem_nonterminal.mpr ⟨storedMember, ongoing⟩, below⟩)

end Terminalize

end Mailbox

end Zuse.Cloud
