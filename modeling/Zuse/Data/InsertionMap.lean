import Mathlib.Data.List.Nodup
import Mathlib.Data.List.Basic

namespace Zuse.Data

open List

theorem mem_concat {α : Type u} {members : List α} {last member : α} :
    member ∈ members ++ [last] ↔ member ∈ members ∨ member = last := by
  rw [mem_append, mem_singleton]

/-- A finite map that remembers the order in which its keys were first set.
Setting a key that is present keeps its position. -/
structure InsertionMap (κ : Type u) (α : Type v) where
  entries : List (κ × α)
  nodup : (entries.map Prod.fst).Nodup
  deriving DecidableEq

namespace InsertionMap

variable {κ : Type u} {α : Type v} {β : Type w} {γ : Type x}

def empty : InsertionMap κ α := ⟨[], nodup_nil⟩

def keys (map : InsertionMap κ α) : List κ := map.entries.map Prod.fst

def values (map : InsertionMap κ α) : List α := map.entries.map Prod.snd

def size (map : InsertionMap κ α) : Nat := map.entries.length

/-- Rewrite every value in place, as a loop over the entries that sets each key. -/
def mapValues (update : α → β) (map : InsertionMap κ α) : InsertionMap κ β :=
  ⟨map.entries.map fun entry => (entry.1, update entry.2), by
    simpa [map_map, Function.comp_def] using map.nodup⟩

theorem keys_nodup (map : InsertionMap κ α) : map.keys.Nodup := map.nodup

theorem size_eq_keys_length (map : InsertionMap κ α) : map.size = map.keys.length := by
  simp [size, keys]

section Entries

variable [DecidableEq κ]

def getEntry (key : κ) : List (κ × α) → Option α
  | [] => none
  | (head, value) :: rest => if head = key then some value else getEntry key rest

def setEntry (key : κ) (value : α) : List (κ × α) → List (κ × α)
  | [] => [(key, value)]
  | (head, old) :: rest =>
    if head = key then (head, value) :: rest
    else (head, old) :: setEntry key value rest

variable {entries : List (κ × α)}

theorem getEntry_eq_none {key : κ} : getEntry key entries = none ↔ key ∉ entries.map Prod.fst := by
  induction entries with
  | nil => simp [getEntry]
  | cons entry rest ih =>
    obtain ⟨head, value⟩ := entry
    by_cases same : head = key
    · simp [getEntry, same]
    · simp [getEntry, same, ih, Ne.symm same]

theorem getEntry_eq_some {key : κ} {value : α} (nodup : (entries.map Prod.fst).Nodup) :
    getEntry key entries = some value ↔ (key, value) ∈ entries := by
  induction entries with
  | nil => simp [getEntry]
  | cons entry rest ih =>
    obtain ⟨head, old⟩ := entry
    obtain ⟨absent, restNodup⟩ := nodup_cons.mp nodup
    by_cases same : head = key
    · subst same
      have notLater : (head, value) ∉ rest := fun member =>
        absent (mem_map.mpr ⟨_, member, rfl⟩)
      simp [getEntry, notLater, eq_comm]
    · simp [getEntry, same, ih restNodup, Ne.symm same]

theorem setEntry_keys (key : κ) (value : α) (entries : List (κ × α)) :
    (setEntry key value entries).map Prod.fst =
      if key ∈ entries.map Prod.fst then entries.map Prod.fst
      else entries.map Prod.fst ++ [key] := by
  induction entries with
  | nil => simp [setEntry]
  | cons entry rest ih =>
    obtain ⟨head, old⟩ := entry
    by_cases same : head = key
    · simp [setEntry, same]
    · simp only [setEntry, same, if_false, map_cons, ih, mem_cons, Ne.symm same, false_or]
      split <;> simp

theorem setEntry_nodup {key : κ} {value : α} (nodup : (entries.map Prod.fst).Nodup) :
    ((setEntry key value entries).map Prod.fst).Nodup := by
  rw [setEntry_keys]
  split
  · exact nodup
  rename_i absent
  rw [nodup_append]
  refine ⟨nodup, nodup_singleton key, ?_⟩
  intro left leftMember right rightMember equal
  rw [mem_singleton] at rightMember
  subst rightMember
  exact absent (equal ▸ leftMember)

theorem getEntry_setEntry (key other : κ) (value : α) (entries : List (κ × α)) :
    getEntry other (setEntry key value entries) =
      if key = other then some value else getEntry other entries := by
  induction entries with
  | nil => simp [getEntry, setEntry]
  | cons entry rest ih =>
    obtain ⟨head, old⟩ := entry
    by_cases same : head = key
    · subst same
      by_cases wanted : head = other <;> simp [getEntry, setEntry, wanted]
    · by_cases wanted : head = other
      · subst wanted
        simp [getEntry, setEntry, same, Ne.symm same]
      · simp [getEntry, setEntry, same, wanted, ih]

theorem map_setEntry {view : κ × α → γ} {key : κ} {old value : α}
    (present : getEntry key entries = some old) (same : view (key, value) = view (key, old)) :
    (setEntry key value entries).map view = entries.map view := by
  induction entries with
  | nil => cases present
  | cons entry rest ih =>
    obtain ⟨head, current⟩ := entry
    by_cases equal : head = key
    · simp only [getEntry, equal, if_true, Option.some.injEq] at present
      simp [setEntry, equal, present, same]
    · simp only [getEntry, equal, if_false] at present
      simp [setEntry, equal, ih present]

theorem setEntry_of_absent {key : κ} {value : α} (absent : key ∉ entries.map Prod.fst) :
    setEntry key value entries = entries ++ [(key, value)] := by
  induction entries with
  | nil => rfl
  | cons entry rest ih =>
    simp only [map_cons, mem_cons, not_or] at absent
    simp [setEntry, Ne.symm absent.1, ih absent.2]

end Entries

variable [DecidableEq κ]

def get? (map : InsertionMap κ α) (key : κ) : Option α :=
  getEntry key map.entries

def has (map : InsertionMap κ α) (key : κ) : Bool := (map.get? key).isSome

def set (map : InsertionMap κ α) (key : κ) (value : α) : InsertionMap κ α :=
  ⟨setEntry key value map.entries, setEntry_nodup map.nodup⟩

def delete (map : InsertionMap κ α) (key : κ) : InsertionMap κ α :=
  ⟨map.entries.filter fun entry => entry.1 ≠ key, map.nodup.sublist (filter_sublist.map _)⟩

def filter (keep : α → Bool) (map : InsertionMap κ α) : InsertionMap κ α :=
  ⟨map.entries.filter fun entry => keep entry.2, map.nodup.sublist (filter_sublist.map _)⟩

@[simp] theorem get?_empty (key : κ) : (empty : InsertionMap κ α).get? key = none := rfl

@[simp] theorem get?_set (map : InsertionMap κ α) (key other : κ) (value : α) :
    (map.set key value).get? other =
      if key = other then some value else map.get? other :=
  getEntry_setEntry key other value map.entries

theorem get?_set_cases {map : InsertionMap κ α} {key other : κ} {value found : α}
    (isFound : (map.set key value).get? other = some found) :
    key = other ∧ value = found ∨ map.get? other = some found := by
  rw [get?_set] at isFound
  split at isFound
  · rename_i same
    exact .inl ⟨same, Option.some.inj isFound⟩
  · exact .inr isFound

theorem get?_set_self (map : InsertionMap κ α) (key : κ) (value : α) :
    (map.set key value).get? key = some value := by
  simp

variable {map : InsertionMap κ α} {key : κ} {value : α}

theorem mem_entries : (key, value) ∈ map.entries ↔ map.get? key = some value :=
  (getEntry_eq_some map.nodup).symm

theorem mem_keys : key ∈ map.keys ↔ (map.get? key).isSome := by
  rw [Option.isSome_iff_ne_none, get?, Ne, getEntry_eq_none, not_not]
  rfl

theorem mem_values : value ∈ map.values ↔ ∃ key, map.get? key = some value := by
  simp only [values, mem_map, Prod.exists, exists_eq_right]
  exact exists_congr fun key => mem_entries

@[simp] theorem get?_filter (keep : α → Bool) (map : InsertionMap κ α) (key : κ) :
    (map.filter keep).get? key = (map.get? key).filter keep := by
  apply Option.ext
  intro value
  rw [← mem_entries, Option.filter_eq_some_iff, ← mem_entries]
  exact mem_filter

@[simp] theorem has_eq_true : map.has key = true ↔ ∃ value, map.get? key = some value := by
  rw [has, Option.isSome_iff_exists]

@[simp] theorem has_eq_false : map.has key = false ↔ map.get? key = none := by
  rw [has, Option.isSome_eq_false_iff, Option.isNone_iff_eq_none]

@[simp] theorem get?_delete (map : InsertionMap κ α) (key other : κ) :
    (map.delete key).get? other =
      if key = other then none else map.get? other := by
  apply Option.ext
  intro value
  rw [← mem_entries]
  by_cases same : key = other
  · subst same
    simp [delete]
  · simp [delete, same, Ne.symm same, mem_entries]

theorem get?_foldl_delete (deleted : List κ) (map : InsertionMap κ α) (key : κ) :
    (deleted.foldl delete map).get? key =
      if key ∈ deleted then none else map.get? key := by
  induction deleted generalizing map with
  | nil => simp
  | cons first rest ih =>
    rw [foldl_cons, ih]
    by_cases same : first = key
    · simp [same]
    · simp [same, Ne.symm same]

section

variable {key : α → κ} (filed : ∀ other value, map.get? other = some value → key value = other)
include filed

theorem values_map_key : map.values.map key = map.keys := by
  rw [values, map_map]
  apply map_congr_left
  intro entry member
  exact filed entry.1 entry.2 (mem_entries.mp member)

theorem filter_values (other : κ) :
    map.values.filter (fun value => key value = other) = (map.get? other).toList := by
  have here : ∀ entry ∈ map.entries, key entry.2 = entry.1 :=
    fun entry member => filed entry.1 entry.2 (mem_entries.mp member)
  obtain ⟨entries, nodup⟩ := map
  simp only [values, get?] at here ⊢
  clear filed
  induction entries with
  | nil => rfl
  | cons entry rest ih =>
    obtain ⟨head, value⟩ := entry
    obtain ⟨absent, others⟩ := nodup_cons.mp nodup
    have rest := ih others fun entry member => here entry (mem_cons_of_mem _ member)
    rw [map_cons, filter_cons, rest, getEntry, here _ mem_cons_self]
    by_cases same : head = other
    · rw [same] at absent
      simp [same, getEntry_eq_none.mpr absent]
    · simp [same]

end

theorem get?_foldl_update {key : α → κ} (update : Option α → α → α) {news : List α}
    (distinct : (news.map key).Nodup) (map : InsertionMap κ α) (other : κ) :
    (news.foldl (fun map row => map.set (key row) (update (map.get? (key row)) row)) map).get?
        other =
      ((news.find? fun row => key row = other).map (update (map.get? other))).or
        (map.get? other) := by
  induction news generalizing map with
  | nil => rfl
  | cons first rest ih =>
    obtain ⟨absent, others⟩ := nodup_cons.mp distinct
    rw [foldl_cons, ih others, get?_set, List.find?_cons]
    by_cases same : key first = other
    · have none : rest.find? (fun row => key row = other) = none := by
        rw [List.find?_eq_none]
        intro row member equal
        refine absent ?_
        rw [same, ← of_decide_eq_true equal]
        exact mem_map_of_mem member
      rw [none, if_pos same, decide_eq_true same, same]
      rfl
    · rw [if_neg same, decide_eq_false same]

theorem get?_foldl_set {key : α → κ} {news : List α} (distinct : (news.map key).Nodup)
    (map : InsertionMap κ α) (other : κ) :
    (news.foldl (fun map row => map.set (key row) row) map).get? other =
      (news.find? fun row => key row = other).or (map.get? other) := by
  rw [get?_foldl_update (fun _ row => row) distinct, Option.map_id']

@[simp] theorem get?_mapValues (update : α → β) (map : InsertionMap κ α) (key : κ) :
    (map.mapValues update).get? key = (map.get? key).map update := by
  obtain ⟨entries, nodup⟩ := map
  simp only [get?, mapValues]
  clear nodup
  induction entries with
  | nil => rfl
  | cons entry rest ih =>
    simp only [map_cons, getEntry]
    split
    · rfl
    · exact ih

theorem keys_set (map : InsertionMap κ α) (key : κ) (value : α) :
    (map.set key value).keys =
      if key ∈ map.keys then map.keys else map.keys ++ [key] :=
  setEntry_keys key value map.entries

theorem keys_set_of_mem {old : α} (present : map.get? key = some old) :
    (map.set key value).keys = map.keys := by
  rw [keys_set, if_pos (mem_keys.mpr (by rw [present]; rfl))]

theorem entries_set_of_absent (absent : map.get? key = none) :
    (map.set key value).entries = map.entries ++ [(key, value)] :=
  setEntry_of_absent (getEntry_eq_none.mp absent)

theorem map_entries_set {view : κ × α → γ} {old : α} (present : map.get? key = some old)
    (same : view (key, value) = view (key, old)) :
    (map.set key value).entries.map view = map.entries.map view :=
  map_setEntry present same

theorem size_set_of_mem {old : α} (present : map.get? key = some old) :
    (map.set key value).size = map.size := by
  rw [size_eq_keys_length, keys_set_of_mem present, ← size_eq_keys_length]

theorem size_set_of_absent (absent : map.get? key = none) :
    (map.set key value).size = map.size + 1 := by
  simp [size, entries_set_of_absent absent]

theorem size_le_set (map : InsertionMap κ α) (key : κ) (value : α) :
    map.size ≤ (map.set key value).size := by
  cases found : map.get? key with
  | none => exact Nat.le_of_lt (Nat.lt_of_lt_of_eq (Nat.lt_succ_self _)
      (size_set_of_absent found).symm)
  | some old => exact Nat.le_of_eq (size_set_of_mem found).symm

theorem size_set_le (map : InsertionMap κ α) (key : κ) (value : α) :
    (map.set key value).size ≤ map.size + 1 := by
  cases found : map.get? key with
  | none => exact Nat.le_of_eq (size_set_of_absent found)
  | some old => exact Nat.le_succ_of_le (Nat.le_of_eq (size_set_of_mem found))

theorem size_delete_le (map : InsertionMap κ α) (key : κ) : (map.delete key).size ≤ map.size :=
  length_filter_le _ _

theorem size_delete_lt (present : map.get? key = some value) :
    (map.delete key).size < map.size := by
  apply length_filter_lt_length_iff_exists.mpr
  exact ⟨(key, value), mem_entries.mpr present, by simp⟩

end InsertionMap

end Zuse.Data
