import Mathlib.Algebra.Group.Nat.Defs
import Mathlib.Data.List.Induction
import Mathlib.Order.Bounds.Basic
import Zuse.Data.InsertionMap

namespace Zuse.Usage

open Data (InsertionMap)
open List

/-! The daily costs of usage, kept for the days whose source logs are deleted. -/

section Greatest

variable {ρ δ : Type} [LinearOrder δ] {view : ρ → Option δ} {rows : List ρ} {row : ρ}
  {best value : δ}

/-- The greatest of the values that a view shows of some rows. -/
def Greatest (view : ρ → Option δ) (rows : List ρ) (best : δ) : Prop :=
  IsGreatest {value | ∃ row ∈ rows, view row = some value} best

theorem Greatest.single (shown : view row = some value) : Greatest view [row] value := by
  refine ⟨⟨row, mem_singleton_self row, shown⟩, ?_⟩
  rintro other ⟨_, member, seen⟩
  rw [mem_singleton.mp member, shown] at seen
  exact (Option.some.inj seen).ge

theorem Greatest.concat (greatest : Greatest view rows best) (shown : view row = some value) :
    Greatest view (rows ++ [row]) (max best value) := by
  refine (congrArg (IsGreatest · _) ?_).mp (greatest.union (Greatest.single shown))
  ext other
  simp [or_and_right, exists_or]

end Greatest

inductive CostStatus
  | known
  | unknown
  deriving DecidableEq

/-- A priced record, with the time in milliseconds. What costs are, how they are added and
how they compare is left open. -/
structure PricedRecord (γ : Type) where
  startedAt : Int
  sourceId : String
  model : String
  inputTokens : Nat
  outputTokens : Nat
  cacheReadTokens : Nat
  cacheCreationTokens : Nat
  reasoningTokens : Nat
  costUsd : Option γ
  costStatus : CostStatus

/-- A row of `usage_cost_daily`, without the time it was written at. -/
structure DailyCostRow (γ : Type) where
  day : Int
  sourceId : String
  model : String
  inputTokens : Nat
  outputTokens : Nat
  cacheReadTokens : Nat
  cacheCreationTokens : Nat
  reasoningTokens : Nat
  costUsd : Option γ
  costStatus : CostStatus
  recordCount : Nat
  deriving DecidableEq

def dayOf (date : Int) : Int := date / 86400000

/-- The key of a row. No source id has a NUL, which separates the parts of the text. -/
abbrev DailyKey : Type := Int × String × String

section Costs

variable {γ : Type} [AddZeroClass γ] [LinearOrder γ]

def PricedRecord.key (record : PricedRecord γ) : DailyKey :=
  (dayOf record.startedAt, record.sourceId, record.model)

def DailyCostRow.key (row : DailyCostRow γ) : DailyKey := (row.day, row.sourceId, row.model)

/-- The row of a group after one more record. -/
def DailyCostRow.add (current : Option (DailyCostRow γ)) (record : PricedRecord γ) :
    DailyCostRow γ where
  day := dayOf record.startedAt
  sourceId := record.sourceId
  model := record.model
  inputTokens := (current.map (·.inputTokens)).getD 0 + record.inputTokens
  outputTokens := (current.map (·.outputTokens)).getD 0 + record.outputTokens
  cacheReadTokens := (current.map (·.cacheReadTokens)).getD 0 + record.cacheReadTokens
  cacheCreationTokens :=
    (current.map (·.cacheCreationTokens)).getD 0 + record.cacheCreationTokens
  reasoningTokens := (current.map (·.reasoningTokens)).getD 0 + record.reasoningTokens
  costUsd :=
    match record.costUsd with
    | none => current.bind (·.costUsd)
    | some cost => some ((current.bind (·.costUsd)).getD 0 + cost)
  costStatus :=
    if record.costStatus = .unknown ∨ current.map (·.costStatus) = some .unknown then .unknown
    else .known
  recordCount := (current.map (·.recordCount)).getD 0 + 1

def dailyGroups (records : List (PricedRecord γ)) : InsertionMap DailyKey (DailyCostRow γ) :=
  records.foldl (fun groups record =>
    groups.set record.key (.add (groups.get? record.key) record)) .empty

/-- `MAX` of two columns in SQLite: `NULL` as soon as one of them is. -/
def sqlMax : Option γ → Option γ → Option γ
  | some left, some right => some (max left right)
  | _, _ => none

/-- `ON CONFLICT(day, source_id, model) DO UPDATE SET ...` -/
def DailyCostRow.onConflict (stored excluded : DailyCostRow γ) : DailyCostRow γ :=
  { stored with
    inputTokens := max stored.inputTokens excluded.inputTokens
    outputTokens := max stored.outputTokens excluded.outputTokens
    cacheReadTokens := max stored.cacheReadTokens excluded.cacheReadTokens
    cacheCreationTokens := max stored.cacheCreationTokens excluded.cacheCreationTokens
    reasoningTokens := max stored.reasoningTokens excluded.reasoningTokens
    costUsd := sqlMax stored.costUsd excluded.costUsd
    costStatus := excluded.costStatus
    recordCount := max stored.recordCount excluded.recordCount }

/-- `INSERT INTO usage_cost_daily(...) VALUES ... ON CONFLICT ...` -/
def DailyCostRow.upsert (stored : Option (DailyCostRow γ)) (row : DailyCostRow γ) :
    DailyCostRow γ :=
  (stored.map (·.onConflict row)).getD row

def persistDailyAggregates (table : InsertionMap DailyKey (DailyCostRow γ))
    (priced : List (PricedRecord γ)) : InsertionMap DailyKey (DailyCostRow γ) :=
  (dailyGroups priced).values.foldl
    (fun table row => table.set row.key (.upsert (table.get? row.key) row)) table

/-- The record that stands for a stored row. -/
def DailyCostRow.record (row : DailyCostRow γ) : PricedRecord γ :=
  { row with startedAt := row.day * 86400000 }

def mergePersistedDaily (priced : List (PricedRecord γ)) (rows : List (DailyCostRow γ)) :
    List (PricedRecord γ) :=
  priced ++ (rows.filter fun row => row.key ∉ priced.map PricedRecord.key).map DailyCostRow.record

variable (snapshots : List (List (PricedRecord γ)))

/-- The table after a sequence of snapshots. -/
def storedRows : InsertionMap DailyKey (DailyCostRow γ) :=
  snapshots.foldl persistDailyAggregates .empty

/-- The aggregates of the snapshots that have records under a key. -/
def aggregates (key : DailyKey) : List (DailyCostRow γ) :=
  snapshots.filterMap fun records => (dailyGroups records).get? key

inductive DailyColumn
  | inputTokens
  | outputTokens
  | cacheReadTokens
  | cacheCreationTokens
  | reasoningTokens
  | recordCount
  deriving DecidableEq

def DailyCostRow.count (row : DailyCostRow γ) : DailyColumn → Nat
  | .inputTokens => row.inputTokens
  | .outputTokens => row.outputTokens
  | .cacheReadTokens => row.cacheReadTokens
  | .cacheCreationTokens => row.cacheCreationTokens
  | .reasoningTokens => row.reasoningTokens
  | .recordCount => row.recordCount

def GreatestCounts (rows : List (DailyCostRow γ)) (stored : DailyCostRow γ) : Prop :=
  ∀ column, Greatest (fun row => some (row.count column)) rows (stored.count column)

/-- The cost is the greatest of those that are known, and unknown if none is. -/
def GreatestCost (rows : List (DailyCostRow γ)) (stored : DailyCostRow γ) : Prop :=
  ∀ cost, stored.costUsd = some cost ↔ Greatest (·.costUsd) rows cost

/-- The costs of the rows are all known, or they are all unknown. -/
def UniformCosts (rows : List (DailyCostRow γ)) : Prop :=
  (∀ row ∈ rows, row.costUsd ≠ none) ∨ ∀ row ∈ rows, row.costUsd = none

/-- No column of usage and no cost is less in the second row. -/
def DailyCostRow.Within (stored total : DailyCostRow γ) : Prop :=
  (∀ column, column ≠ .recordCount → stored.count column ≤ total.count column) ∧
  ∀ cost, stored.costUsd = some cost → ∃ more, total.costUsd = some more ∧ cost ≤ more

def total (records : List (PricedRecord γ)) (key : DailyKey) : Option (DailyCostRow γ) :=
  (dailyGroups records).get? key

/-- The rows hold the greatest aggregates, and a later snapshot merged with them has no
smaller totals. -/
def NeverShrinks (later : List (PricedRecord γ)) :
    Prop :=
  ∀ key stored, (storedRows snapshots).get? key = some stored →
    GreatestCounts (aggregates snapshots key) stored ∧
    GreatestCost (aggregates snapshots key) stored ∧
    ∃ row, total (mergePersistedDaily later (storedRows snapshots).values) key = some row ∧
      stored.Within row

/-- What a screen has shown under a key: the live records of one snapshot, merged with the
rows of the snapshots up to some time. -/
def Reported (key : DailyKey) (reported : DailyCostRow γ) : Prop :=
  ∃ before live, before <+: snapshots ∧ live ∈ snapshots ∧
    total (mergePersistedDaily live (storedRows before).values) key = some reported

end Costs

theorem dayOf_midnight (day : Int) : dayOf (day * 86400000) = day := by
  rw [dayOf]
  omega

theorem DailyCostRow.key_record {γ : Type} (row : DailyCostRow γ) : row.record.key = row.key := by
  simp [record, PricedRecord.key, DailyCostRow.key, dayOf_midnight]

section Groups

variable {γ : Type} [AddZeroClass γ]

theorem dailyGroups_get? (records : List (PricedRecord γ)) (key : DailyKey) :
    (dailyGroups records).get? key =
      (records.filter fun record => record.key = key).foldl
        (fun current record => some (.add current record)) none := by
  induction records using List.reverseRecOn with
  | nil => rfl
  | append_singleton records record ih =>
    rw [dailyGroups, foldl_concat, ← dailyGroups, filter_append, foldl_append, ← ih]
    by_cases same : record.key = key
    · simp [same]
    · simp [same]

theorem dailyGroups_eq_none {records : List (PricedRecord γ)} {key : DailyKey} :
    (dailyGroups records).get? key = none ↔ key ∉ records.map PricedRecord.key := by
  induction records using List.reverseRecOn with
  | nil => simp [dailyGroups]
  | append_singleton records record ih =>
    rw [dailyGroups, foldl_concat, ← dailyGroups, map_append, mem_append, not_or, ← ih]
    by_cases same : record.key = key
    · simp [same]
    · simp [same, Ne.symm same]

theorem dailyGroups_filed (records : List (PricedRecord γ)) (key : DailyKey)
    (row : DailyCostRow γ) (found : (dailyGroups records).get? key = some row) :
    row.key = key := by
  induction records using List.reverseRecOn with
  | nil => cases found
  | append_singleton records record ih =>
    rw [dailyGroups, foldl_concat] at found
    obtain ⟨same, rfl⟩ | found := InsertionMap.get?_set_cases found
    · exact same
    · exact ih found

/-- The row that a stored row is again once its record is aggregated. -/
theorem DailyCostRow.add_record (row : DailyCostRow γ) :
    DailyCostRow.add none row.record = { row with recordCount := 1 } := by
  obtain ⟨_, _, _, _, _, _, _, _, cost, status, _⟩ := row
  cases cost <;> cases status <;> simp [add, record, dayOf_midnight]

theorem total_merge {rows : InsertionMap DailyKey (DailyCostRow γ)}
    (filed : ∀ key stored, rows.get? key = some stored → stored.key = key)
    (later : List (PricedRecord γ)) (key : DailyKey) :
    total (mergePersistedDaily later rows.values) key =
      (total later key).or
        ((rows.get? key).map fun stored => { stored with recordCount := 1 }) := by
  have restored : ((rows.values.filter fun row => row.key ∉ later.map PricedRecord.key).map
      DailyCostRow.record).filter (fun record => record.key = key) =
        if key ∈ later.map PricedRecord.key then []
        else (rows.get? key).toList.map DailyCostRow.record := by
    rw [filter_map, ← InsertionMap.filter_values filed, filter_filter]
    split
    · rename_i live
      rw [map_eq_nil_iff, filter_eq_nil_iff]
      intro row _ both
      simp only [Function.comp_apply, DailyCostRow.key_record, Bool.and_eq_true,
        decide_eq_true_eq] at both
      exact both.2 (both.1 ▸ live)
    rename_i gone
    congr 1
    apply filter_congr
    intro row _
    by_cases same : row.key = key
    · simp [DailyCostRow.key_record, same, gone]
    · simp [DailyCostRow.key_record, same]
  rw [total, total, dailyGroups_get?, mergePersistedDaily, filter_append, foldl_append,
    ← dailyGroups_get?, restored]
  split
  · rename_i live
    cases found : (dailyGroups later).get? key with
    | none => exact absurd live (dailyGroups_eq_none.mp found)
    | some row => rfl
  rename_i gone
  rw [dailyGroups_eq_none.mpr gone]
  cases rows.get? key with
  | none => rfl
  | some stored => exact congrArg some stored.add_record

theorem aggregates_subset {before snapshots : List (List (PricedRecord γ))}
    (earlier : before <+: snapshots) (key : DailyKey) :
    aggregates before key ⊆ aggregates snapshots key :=
  (earlier.sublist.filterMap _).subset

end Groups

section Rows

variable {γ : Type} {rows : List (DailyCostRow γ)} {stored row : DailyCostRow γ}

theorem UniformCosts.subset {others : List (DailyCostRow γ)} (uniform : UniformCosts rows)
    (subset : others ⊆ rows) : UniformCosts others :=
  uniform.imp (fun known row member => known row (subset member))
    fun unknown row member => unknown row (subset member)

variable [LinearOrder γ]

/-- What a row keeps of the aggregates that were written to it. -/
structure Keeps (rows : List (DailyCostRow γ)) (stored : DailyCostRow γ) : Prop where
  counts : GreatestCounts rows stored
  known : (∀ row ∈ rows, row.costUsd ≠ none) →
    ∃ cost, stored.costUsd = some cost ∧ Greatest (·.costUsd) rows cost
  unknown : (∀ row ∈ rows, row.costUsd = none) → stored.costUsd = none

theorem Keeps.single (row : DailyCostRow γ) : Keeps [row] row where
  counts := fun _ => .single rfl
  known := by
    intro known
    obtain ⟨cost, shown⟩ := Option.ne_none_iff_exists'.mp (known row (mem_singleton_self row))
    exact ⟨cost, shown, .single shown⟩
  unknown := fun unknown => unknown row (mem_singleton_self row)

theorem Keeps.concat (keeps : Keeps rows stored) (row : DailyCostRow γ) :
    Keeps (rows ++ [row]) (stored.onConflict row) where
  counts := by
    intro column
    have greatest := (keeps.counts column).concat (rfl : some (row.count column) = _)
    cases column <;> exact greatest
  known := by
    intro known
    obtain ⟨best, kept, greatest⟩ := keeps.known fun row member =>
      known row (mem_append_left _ member)
    obtain ⟨cost, shown⟩ := Option.ne_none_iff_exists'.mp (known row (by simp))
    refine ⟨max best cost, ?_, greatest.concat shown⟩
    rw [DailyCostRow.onConflict, kept, shown]
    rfl
  unknown := by
    intro unknown
    rw [DailyCostRow.onConflict, unknown row (by simp)]
    cases stored.costUsd <;> rfl

theorem Keeps.greatestCost (keeps : Keeps rows stored) (uniform : UniformCosts rows) :
    GreatestCost rows stored := by
  intro cost
  rcases uniform with known | unknown
  · obtain ⟨best, kept, greatest⟩ := keeps.known known
    rw [kept, Option.some.injEq]
    exact ⟨fun same => same ▸ greatest, fun other => greatest.unique other⟩
  rw [keeps.unknown unknown]
  constructor
  · nofun
  · rintro ⟨⟨row, member, shown⟩, _⟩
    exact absurd shown (by simp [unknown row member])

end Rows

section Runs

variable {γ : Type} [AddZeroClass γ] [LinearOrder γ]

theorem persistDailyAggregates_get? (table : InsertionMap DailyKey (DailyCostRow γ))
    (priced : List (PricedRecord γ)) (key : DailyKey) :
    (persistDailyAggregates table priced).get? key =
      (((dailyGroups priced).get? key).map (.upsert (table.get? key))).or (table.get? key) := by
  have filed := dailyGroups_filed priced
  have distinct : ((dailyGroups priced).values.map DailyCostRow.key).Nodup := by
    rw [InsertionMap.values_map_key filed]
    exact InsertionMap.keys_nodup _
  rw [persistDailyAggregates, InsertionMap.get?_foldl_update DailyCostRow.upsert distinct,
    ← head?_filter, InsertionMap.filter_values filed, Option.head?_toList]

theorem storedRows_cases (snapshots : List (List (PricedRecord γ))) (key : DailyKey) :
    ((storedRows snapshots).get? key = none ∧ aggregates snapshots key = []) ∨
      ∃ stored, (storedRows snapshots).get? key = some stored ∧ stored.key = key ∧
        Keeps (aggregates snapshots key) stored := by
  induction snapshots using List.reverseRecOn with
  | nil => exact .inl ⟨rfl, rfl⟩
  | append_singleton snapshots priced ih =>
    rw [storedRows, foldl_concat, ← storedRows, persistDailyAggregates_get?, aggregates,
      filterMap_append, ← aggregates]
    cases found : (dailyGroups priced).get? key with
    | none => simpa [found] using ih
    | some row =>
      have filed := dailyGroups_filed priced key row found
      obtain ⟨absent, none⟩ | ⟨stored, present, same, keeps⟩ := ih
      · simpa [found, absent, none, DailyCostRow.upsert, filed] using Keeps.single row
      · simpa [found, present] using ⟨same, keeps.concat row⟩

theorem storedRows_filed {snapshots : List (List (PricedRecord γ))} (key : DailyKey)
    (stored : DailyCostRow γ) (found : (storedRows snapshots).get? key = some stored) :
    stored.key = key := by
  obtain ⟨absent, _⟩ | ⟨row, present, same, _⟩ := storedRows_cases snapshots key
  · cases absent.symm.trans found
  · cases present.symm.trans found
    exact same

/-- Each column of a report is that of some aggregate. -/
theorem Reported.attained {snapshots : List (List (PricedRecord γ))} {key : DailyKey}
    {reported : DailyCostRow γ} (shown : Reported snapshots key reported) :
    (∀ column, column ≠ .recordCount →
      ∃ row ∈ aggregates snapshots key, row.count column = reported.count column) ∧
    (UniformCosts (aggregates snapshots key) → ∀ cost, reported.costUsd = some cost →
      ∃ row ∈ aggregates snapshots key, row.costUsd = some cost) := by
  obtain ⟨before, live, earlier, listed, merged⟩ := shown
  rw [total_merge storedRows_filed, Option.or_eq_some_iff] at merged
  obtain present | ⟨-, restored⟩ := merged
  · have member : reported ∈ aggregates snapshots key := mem_filterMap.mpr ⟨live, listed, present⟩
    exact ⟨fun _ _ => ⟨reported, member, rfl⟩, fun _ _ known => ⟨reported, member, known⟩⟩
  obtain ⟨stored, found, rfl⟩ := Option.map_eq_some_iff.mp restored
  obtain ⟨absent, _⟩ | ⟨row, kept, -, keeps⟩ := storedRows_cases before key
  · cases absent.symm.trans found
  cases kept.symm.trans found
  have subset := aggregates_subset earlier key
  constructor
  · intro column counted
    obtain ⟨⟨row, member, same⟩, -⟩ := keeps.counts column
    refine ⟨row, subset member, (Option.some.inj same).trans ?_⟩
    cases column <;> first | rfl | exact absurd rfl counted
  · intro uniform cost known
    obtain ⟨⟨row, member, same⟩, -⟩ := (keeps.greatestCost (uniform.subset subset) cost).mp known
    exact ⟨row, subset member, same⟩

/-- The row that a day without logs is reported by is no less than any earlier report. -/
theorem Keeps.within {snapshots : List (List (PricedRecord γ))} {key : DailyKey}
    {stored reported : DailyCostRow γ} (keeps : Keeps (aggregates snapshots key) stored)
    (shown : Reported snapshots key reported) :
    (∀ column, column ≠ .recordCount → reported.count column ≤ stored.count column) ∧
    (UniformCosts (aggregates snapshots key) → reported.Within stored) := by
  have counts : ∀ column, column ≠ .recordCount → reported.count column ≤ stored.count column := by
    intro column counted
    obtain ⟨row, member, same⟩ := shown.attained.1 column counted
    exact (keeps.counts column).2 ⟨row, member, congrArg some same⟩
  refine ⟨counts, fun uniform => ⟨counts, fun cost known => ?_⟩⟩
  obtain ⟨row, member, same⟩ := shown.attained.2 uniform cost known
  obtain unknown | unknown := uniform
  · obtain ⟨best, kept, greatest⟩ := keeps.known unknown
    exact ⟨best, kept, greatest.2 ⟨row, member, same⟩⟩
  · cases same.symm.trans (unknown row member)

/-- The rows hold the greatest aggregates, and stand in for the days without records, so
that no report is less than an earlier one once the logs of its day are gone. -/
theorem costHistory_kept (snapshots : List (List (PricedRecord γ)))
    (later : List (PricedRecord γ)) (key : DailyKey) :
    ((storedRows snapshots).get? key = none ↔ aggregates snapshots key = []) ∧
    (∀ stored, (storedRows snapshots).get? key = some stored →
      GreatestCounts (aggregates snapshots key) stored ∧
      (UniformCosts (aggregates snapshots key) → GreatestCost (aggregates snapshots key) stored) ∧
      total (mergePersistedDaily later (storedRows snapshots).values) key =
        some ((total later key).getD { stored with recordCount := 1 })) ∧
    ∀ reported, Reported snapshots key reported → total later key = none →
      ∃ row, total (mergePersistedDaily later (storedRows snapshots).values) key = some row ∧
        (∀ column, column ≠ .recordCount → reported.count column ≤ row.count column) ∧
        (UniformCosts (aggregates snapshots key) → reported.Within row) := by
  obtain ⟨absent, none⟩ | ⟨row, present, same, keeps⟩ := storedRows_cases snapshots key
  · refine ⟨iff_of_true absent none, fun stored found => ?_, fun reported shown _ => ?_⟩
    · cases absent.symm.trans found
    obtain ⟨row, member, _⟩ := shown.attained.1 .inputTokens (by decide)
    rw [none] at member
    cases member
  have some : aggregates snapshots key ≠ [] := by
    intro empty
    obtain ⟨⟨row, member, _⟩, _⟩ := keeps.counts .recordCount
    rw [empty] at member
    cases member
  refine ⟨iff_of_false (by simp [present]) some, fun stored found => ?_,
    fun reported shown gone => ?_⟩
  · cases present.symm.trans found
    refine ⟨keeps.counts, keeps.greatestCost, ?_⟩
    rw [total_merge storedRows_filed, found]
    cases total later key <;> rfl
  obtain ⟨counts, costs⟩ := keeps.within shown
  have restored : ∀ column, column ≠ .recordCount →
      reported.count column ≤ { row with recordCount := 1 : DailyCostRow γ }.count column := by
    intro column counted
    have least := counts column counted
    cases column <;> first | exact least | exact absurd rfl counted
  refine ⟨{ row with recordCount := 1 }, ?_, restored, fun uniform => ⟨restored, ?_⟩⟩
  · rw [total_merge storedRows_filed, gone, present]
    rfl
  · exact (costs uniform).2

end Runs

def sampleRecord : PricedRecord Nat where
  startedAt := 0
  sourceId := "source"
  model := "model"
  inputTokens := 10
  outputTokens := 0
  cacheReadTokens := 0
  cacheCreationTokens := 0
  reasoningTokens := 0
  costUsd := some 7
  costStatus := .known

/-- A day keeps one of its two records, and the merge reports that one alone. -/
theorem not_neverShrinks : ¬ NeverShrinks [[sampleRecord, sampleRecord]] [sampleRecord] := by
  intro never
  obtain ⟨_, _, row, found, counts, _⟩ := never (0, "source", "model")
    ⟨0, "source", "model", 20, 0, 0, 0, 0, some 14, .known, 2⟩ (by decide +kernel)
  have merged : total (mergePersistedDaily [sampleRecord]
      (storedRows [[sampleRecord, sampleRecord]]).values) (0, "source", "model") =
        some ⟨0, "source", "model", 10, 0, 0, 0, 0, some 7, .known, 1⟩ := by
    decide +kernel
  cases merged.symm.trans found
  exact absurd (counts .inputTokens (by decide)) (by decide)

end Zuse.Usage
