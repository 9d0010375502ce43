import Mathlib.Algebra.Order.Ring.Int
import Mathlib.Algebra.BigOperators.Group.List.Basic
import Mathlib.Algebra.Order.BigOperators.Group.List
import Mathlib.Data.List.Perm.Basic
import Mathlib.Data.List.Sort
import Zuse.Data.InsertionMap

namespace Zuse.Data.Table

open List List

/-! A table as the list of its rows, with the sums that a query takes over selected rows
and inserts that do nothing on a conflict. -/

variable {α : Type u}

/-- The sum of a column over the selected rows, zero where there is none. -/
def total (selected : α → Bool) (column : α → Int) (rows : List α) : Int :=
  ((rows.filter selected).map column).sum

/-- Insert a row unless one conflicts with it, and say whether it was inserted. -/
def insertNew (conflicts : α → α → Bool) (rows : List α) (row : α) : Bool × List α :=
  if rows.any fun stored => conflicts stored row then (false, rows)
  else (true, rows ++ [row])

variable {rows : List α}

section

variable {selected : α → Bool} {column : α → Int}

@[simp] theorem total_nil : total selected column [] = 0 := rfl

theorem total_cons (row : α) (rows : List α) :
    total selected column (row :: rows) =
      (if selected row then column row else 0) + total selected column rows := by
  rw [total, filter_cons]
  split
  · rw [map_cons, sum_cons, total]
  · rw [Int.zero_add, total]

theorem total_append (first second : List α) :
    total selected column (first ++ second) =
      total selected column first + total selected column second := by
  rw [total, filter_append, map_append, sum_append, total, total]

theorem total_concat (rows : List α) (row : α) :
    total selected column (rows ++ [row]) =
      total selected column rows + if selected row then column row else 0 := by
  rw [total_append, total_cons, total_nil, Int.add_zero]

theorem total_of_none (unselected : ∀ row ∈ rows, selected row = false) :
    total selected column rows = 0 := by
  have none : rows.filter selected = [] := by
    rw [filter_eq_nil_iff]
    intro row member
    rw [unselected row member]
    exact Bool.false_ne_true
  rw [total, none, map_nil, sum_nil]

theorem total_perm {first second : List α} (same : first.Perm second) :
    total selected column first = total selected column second :=
  ((same.filter selected).map column).sum_eq

theorem total_nonneg (nonneg : ∀ row ∈ rows, 0 ≤ column row) : 0 ≤ total selected column rows := by
  refine sum_nonneg fun value member => ?_
  obtain ⟨row, isRow, rfl⟩ := mem_map.mp member
  exact nonneg row (mem_of_mem_filter isRow)

end

variable {other : α}

section

variable {conflicts : α → α → Bool} {rows : List α} {row : α}

theorem insertNew_of_free (free : ∀ stored ∈ rows, conflicts stored row = false) :
    insertNew conflicts rows row = (true, rows ++ [row]) := by
  rw [insertNew, if_neg]
  rw [Bool.not_eq_true, any_eq_false]
  intro stored member
  rw [free stored member]
  exact Bool.false_ne_true

theorem insertNew_of_conflict {stored : α} (member : stored ∈ rows)
    (conflict : conflicts stored row = true) :
    insertNew conflicts rows row = (false, rows) := by
  rw [insertNew, if_pos]
  exact any_eq_true.mpr ⟨stored, member, conflict⟩

theorem mem_insertNew (member : other ∈ (insertNew conflicts rows row).2) :
    other ∈ rows ∨ other = row := by
  rw [insertNew] at member
  split at member
  · exact .inl member
  · exact (mem_append.mp member).imp id mem_singleton.mp

theorem insertNew_subset : rows ⊆ (insertNew conflicts rows row).2 := by
  rw [insertNew]
  split
  · exact Subset.refl rows
  · exact subset_append_left rows [row]

end

def nextRowId (ids : List Nat) : Nat := ids.foldl max 0 + 1

variable {ids : List Nat} {start : Nat}

theorem foldl_max_le : start ≤ ids.foldl max start := by
  induction ids generalizing start with
  | nil => exact Nat.le_refl start
  | cons id rest ih => exact Nat.le_trans (Nat.le_max_left start id) ih

theorem le_foldl_max {id : Nat} (member : id ∈ ids) : id ≤ ids.foldl max start := by
  induction ids generalizing start with
  | nil => cases member
  | cons first rest ih =>
    cases member with
    | head => exact Nat.le_trans (Nat.le_max_right start id) foldl_max_le
    | tail _ later => exact ih later

theorem lt_nextRowId {id : Nat} (member : id ∈ ids) : id < nextRowId ids :=
  Nat.lt_succ_of_le (le_foldl_max member)

theorem nextRowId_fresh (ids : List Nat) : nextRowId ids ∉ ids :=
  fun member => Nat.lt_irrefl _ (lt_nextRowId member)

theorem nextRowId_concat (ids : List Nat) :
    nextRowId (ids ++ [nextRowId ids]) = nextRowId ids + 1 := by
  unfold nextRowId
  simp

variable {row : α}

theorem find?_key {κ : Type v} [DecidableEq κ] {key : α → κ}
    (distinct : (rows.map key).Nodup) (member : row ∈ rows) :
    rows.find? (fun stored => key stored = key row) = some row := by
  induction rows with
  | nil => cases member
  | cons first rest ih =>
    obtain ⟨absent, restDistinct⟩ := nodup_cons.mp distinct
    cases member with
    | head => simp
    | tail _ later =>
      have other : key first ≠ key row :=
        fun same => absent (same ▸ mem_map_of_mem later)
      rw [find?_cons_of_neg (by simpa using other)]
      exact ih restDistinct later

theorem exists_greatest (column : α → Nat) (member : row ∈ rows) :
    ∃ greatest ∈ rows, column row ≤ column greatest ∧
      ∀ other ∈ rows, column other ≤ column greatest := by
  induction rows generalizing row with
  | nil => cases member
  | cons first rest ih =>
    cases rest with
    | nil =>
      cases mem_singleton.mp member
      refine ⟨_, mem_cons_self, Nat.le_refl _, ?_⟩
      intro other isOther
      cases mem_singleton.mp isOther
      exact Nat.le_refl _
    | cons second later =>
      obtain ⟨greatest, isGreatest, _, bounds⟩ :=
        ih (show second ∈ second :: later from mem_cons_self)
      rcases Nat.le_total (column first) (column greatest) with below | above
      · have all : ∀ other ∈ first :: second :: later, column other ≤ column greatest := by
          intro other isOther
          rcases mem_cons.mp isOther with rfl | isLater
          · exact below
          · exact bounds other isLater
        exact ⟨greatest, mem_cons_of_mem _ isGreatest, all row member, all⟩
      have all : ∀ other ∈ first :: second :: later, column other ≤ column first := by
        intro other isOther
        rcases mem_cons.mp isOther with rfl | isLater
        · exact Nat.le_refl _
        · exact Nat.le_trans (bounds other isLater) above
      exact ⟨first, mem_cons_self, all row member, all⟩

section

variable {κ : Type v} [DecidableEq κ] {key : α → κ} {id : κ} {update : α → α} {rows : List α}

def revise (key : α → κ) (id : κ) (update : α → α) (rows : List α) : List α :=
  rows.map fun row => if key row = id then update row else row

theorem mem_revise :
    row ∈ revise key id update rows ↔
      (row ∈ rows ∧ key row ≠ id) ∨ ∃ old ∈ rows, key old = id ∧ row = update old := by
  unfold revise
  rw [mem_map]
  constructor
  · rintro ⟨old, member, rfl⟩
    by_cases same : key old = id
    · rw [if_pos same]
      exact .inr ⟨old, member, same, rfl⟩
    · rw [if_neg same]
      exact .inl ⟨member, same⟩
  · rintro (⟨member, other⟩ | ⟨old, member, same, rfl⟩)
    · exact ⟨row, member, if_neg other⟩
    · exact ⟨old, member, if_pos same⟩

theorem map_revise {β : Type w} {view : α → β}
    (keeps : ∀ row ∈ rows, key row = id → view (update row) = view row) :
    (revise key id update rows).map view = rows.map view := by
  unfold revise
  rw [map_map]
  refine map_congr_left fun row member => ?_
  rw [Function.comp_apply]
  split
  · rename_i same
    exact keeps row member same
  · rfl

end

def orderLimit (column : α → Nat) (limit : Nat) (rows : List α) : List α :=
  (rows.insertionSort fun first second => column first ≤ column second).take limit

section

variable {column : α → Nat} {limit : Nat} {rows : List α} {row : α}

theorem mem_of_mem_orderLimit (member : row ∈ orderLimit column limit rows) : row ∈ rows :=
  (mem_insertionSort _).mp (mem_of_mem_take member)

def orderFirst (before : α → α → Prop) [DecidableRel before] (rows : List α) : Option α :=
  (rows.insertionSort before).head?

variable {before : α → α → Prop}

theorem mem_of_orderFirst [DecidableRel before]
    (first : orderFirst before rows = some row) : row ∈ rows :=
  (mem_insertionSort _).mp (mem_of_mem_head? first)

theorem orderFirst_eq_none [DecidableRel before] : orderFirst before rows = none ↔ rows = [] := by
  rw [orderFirst, head?_eq_none_iff, ← length_eq_zero_iff, length_insertionSort, length_eq_zero_iff]

theorem mem_orderLimit_of_few [DecidableEq α] (distinct : rows.Nodup) (member : row ∈ rows)
    (few : (rows.filter fun other => other ≠ row ∧ column other ≤ column row).length <
      limit) : row ∈ orderLimit column limit rows := by
  have perm := perm_insertionSort (fun first second => column first ≤ column second) rows
  have sorted := pairwise_insertionSort (fun first second => column first ≤ column second) rows
  obtain ⟨before, after, split⟩ := append_of_mem (perm.mem_iff.mpr member)
  have allBefore : before.filter (fun other => other ≠ row ∧ column other ≤ column row) =
      before := by
    rw [filter_eq_self]
    intro other isBefore
    rw [split, pairwise_append] at sorted
    have unlike : other ≠ row := by
      intro same
      have unique := perm.nodup_iff.mpr distinct
      rw [split, nodup_append] at unique
      exact unique.2.2 other isBefore row (.head _) same
    exact decide_eq_true ⟨unlike, sorted.2.2 other isBefore row (.head _)⟩
  have short : before.length < limit := by
    refine Nat.lt_of_le_of_lt ?_ few
    rw [← (perm.filter _).length_eq, split, filter_append, length_append, allBefore]
    exact Nat.le_add_right _ _
  rw [orderLimit, split, take_append]
  apply mem_append_right
  obtain ⟨room, enough⟩ := Nat.exists_eq_succ_of_ne_zero (Nat.sub_ne_zero_of_lt short)
  rw [enough]
  exact .head _

end

section

variable {rows others : List α}

theorem any_of_same (selected : α → Bool) (same : ∀ row, row ∈ rows ↔ row ∈ others) :
    rows.any selected = others.any selected := by
  apply Bool.eq_iff_iff.mpr
  simp only [any_eq_true]
  exact exists_congr fun row => and_congr_left fun _ => same row

theorem find?_of_same (selected : α → Bool) (same : ∀ row, row ∈ rows ↔ row ∈ others)
    (unique : ∀ first ∈ rows, ∀ second ∈ rows, selected first = true →
      selected second = true → first = second) :
    rows.find? selected = others.find? selected := by
  cases here : rows.find? selected with
  | none =>
    refine (find?_eq_none.mpr ?_).symm
    exact fun row member => find?_eq_none.mp here row ((same row).mpr member)
  | some row =>
    have member := mem_of_find?_eq_some here
    have holds := find?_some here
    cases there : others.find? selected with
    | none =>
      exact absurd holds (find?_eq_none.mp there row ((same row).mp member))
    | some other =>
      have also := (same other).mpr (mem_of_find?_eq_some there)
      rw [unique row member other also holds (find?_some there)]

end

section

variable {column : α → Int} {rows : List α}

theorem filter_lt_eq_take (bound : Int)
    (sorted : rows.Pairwise fun first second => column first ≤ column second) :
    rows.filter (fun row => column row < bound) =
      rows.take (rows.filter fun row => column row < bound).length := by
  induction rows with
  | nil => rfl
  | cons first rest ih =>
    obtain ⟨least, ordered⟩ := pairwise_cons.mp sorted
    by_cases below : column first < bound
    · rw [filter_cons, if_pos (decide_eq_true below), length_cons, take_succ_cons, ← ih ordered]
    have none : rest.filter (fun row => column row < bound) = [] := by
      rw [filter_eq_nil_iff]
      intro row member
      have above := least row member
      simp only [decide_eq_true_eq]
      omega
    rw [filter_cons, if_neg (fun holds => below (of_decide_eq_true holds)), none]
    rfl

theorem head?_insertionSort (column : α → Int) {least : α} (member : least ∈ rows)
    (before : ∀ row ∈ rows, row ≠ least → column least < column row) :
    (rows.insertionSort fun a b => column a ≤ column b).head? = some least := by
  have sorted := pairwise_insertionSort (fun a b => column a ≤ column b) rows
  have perm := perm_insertionSort (fun a b => column a ≤ column b) rows
  revert sorted perm
  generalize rows.insertionSort (fun a b => column a ≤ column b) = ordered
  intro sorted perm
  cases ordered with
  | nil => exact absurd (perm.mem_iff.mpr member) not_mem_nil
  | cons first rest =>
    by_contra other
    have different : first ≠ least := fun same => other (congrArg some same)
    have later := before first (perm.mem_iff.mp (.head _)) different
    have found : least ∈ first :: rest := perm.mem_iff.mpr member
    have earlier : column first ≤ column least := by
      cases found with
      | head => exact Int.le_refl _
      | tail _ inside => exact (pairwise_cons.mp sorted).1 least inside
    omega

theorem take_insertionSort_perm {others : List α} (perm : rows.Perm others) {limit : Nat}
    (cut : ∀ first ∈ (rows.insertionSort fun a b => column a ≤ column b).take limit,
      ∀ second ∈ (rows.insertionSort fun a b => column a ≤ column b).drop limit,
        column first < column second) :
    ((rows.insertionSort fun a b => column a ≤ column b).take limit).Perm
      ((others.insertionSort fun a b => column a ≤ column b).take limit) := by
  have sorted := pairwise_insertionSort (fun a b => column a ≤ column b) rows
  have sorted' := pairwise_insertionSort (fun a b => column a ≤ column b) others
  have same : (rows.insertionSort fun a b => column a ≤ column b).Perm
      (others.insertionSort fun a b => column a ≤ column b) :=
    ((perm_insertionSort _ rows).trans perm).trans (perm_insertionSort _ others).symm
  revert cut sorted sorted' same
  generalize rows.insertionSort (fun a b => column a ≤ column b) = first
  generalize others.insertionSort (fun a b => column a ≤ column b) = second
  intro cut sorted sorted' same
  cases left : first.drop limit with
  | nil =>
    have short : first.length ≤ limit := drop_eq_nil_iff.mp left
    rw [take_of_length_le short, take_of_length_le (same.length_eq ▸ short)]
    exact same
  | cons next rest =>
    have long : limit < first.length := by
      by_contra short
      rw [drop_eq_nil_of_le (Nat.not_lt.mp short)] at left
      cases left
    have ordered : (next :: rest).Pairwise fun a b => column a ≤ column b := by
      rw [← left]
      exact sorted.sublist (drop_sublist limit first)
    have taken : first.filter (fun row => column row < column next) = first.take limit := by
      have whole := take_append_drop limit first
      rw [left] at whole
      have before : (first.take limit).filter (fun row => column row < column next) =
          first.take limit := by
        rw [filter_eq_self]
        intro row member
        exact decide_eq_true (cut row member next (by rw [left]; exact .head _))
      have after : (next :: rest).filter (fun row => column row < column next) = [] := by
        rw [filter_eq_nil_iff]
        intro row member
        have least : column next ≤ column row := by
          cases member with
          | head => exact Int.le_refl _
          | tail _ later => exact (pairwise_cons.mp ordered).1 row later
        simp only [decide_eq_true_eq]
        omega
      rw [← whole, filter_append, before, after, append_nil, whole]
    have perm := same.filter fun row => column row < column next
    rw [taken] at perm
    have size : (second.filter fun row => column row < column next).length = limit := by
      rw [← perm.length_eq, length_take, Nat.min_eq_left (Nat.le_of_lt long)]
    rw [filter_lt_eq_take _ sorted', size] at perm
    exact perm

end

section

variable {κ : Type v} [DecidableEq κ] (key : α → κ)

def put (row : α) (rows : List α) : List α :=
  if rows.any fun stored => key stored = key row then
    rows.map fun stored => if key stored = key row then row else stored
  else rows ++ [row]

def lastBy : List α → List α
  | [] => []
  | first :: rest =>
    if key first ∈ rest.map key then lastBy rest else first :: lastBy rest

variable {key} {rows : List α}

theorem mem_put : other ∈ put key row rows ↔ other = row ∨ other ∈ rows ∧ key other ≠ key row := by
  unfold put
  split
  · rename_i taken
    obtain ⟨held, member, conflict⟩ := any_eq_true.mp taken
    rw [mem_map]
    constructor
    · intro written
      obtain ⟨stored, isStored, same⟩ := written
      by_cases clash : key stored = key row
      · rw [if_pos clash] at same
        exact .inl same.symm
      · rw [if_neg clash] at same
        subst same
        exact .inr ⟨isStored, clash⟩
    · intro either
      cases either with
      | inl same =>
        subst same
        exact ⟨held, member, if_pos (of_decide_eq_true conflict)⟩
      | inr kept => exact ⟨other, kept.1, if_neg kept.2⟩
  · rename_i free
    rw [mem_append, mem_singleton]
    have all : other ∈ rows → key other ≠ key row := by
      intro member same
      exact free (any_eq_true.mpr ⟨other, member, decide_eq_true same⟩)
    constructor
    · intro either
      exact either.symm.imp_right fun member => ⟨member, all member⟩
    · intro either
      exact (either.imp_right And.left).symm

theorem lastBy_subset (rows : List α) : lastBy key rows ⊆ rows := by
  induction rows with
  | nil => exact Subset.refl []
  | cons first rest ih =>
    unfold lastBy
    split
    · exact subset_cons_of_subset first ih
    · exact cons_subset_cons first ih

theorem lastBy_inj {first second : α} (isFirst : first ∈ lastBy key rows)
    (isSecond : second ∈ lastBy key rows) (same : key first = key second) : first = second := by
  induction rows with
  | nil => cases isFirst
  | cons head rest ih =>
    unfold lastBy at isFirst isSecond
    split at isFirst
    · rename_i later
      rw [if_pos later] at isSecond
      exact ih isFirst isSecond
    · rename_i last
      rw [if_neg last] at isSecond
      have absent : ∀ row ∈ lastBy key rest, key row ≠ key head := fun row member equal =>
        last (equal ▸ mem_map_of_mem (lastBy_subset rest member))
      obtain rfl | earlier := mem_cons.mp isFirst
      · obtain rfl | other := mem_cons.mp isSecond
        · rfl
        · exact absurd same.symm (absent second other)
      · obtain rfl | other := mem_cons.mp isSecond
        · exact absurd same (absent first earlier)
        · exact ih earlier other

theorem lastBy_map {β : Type w} (view : β → α) (rows : List β) :
    lastBy key (rows.map view) = (lastBy (fun row => key (view row)) rows).map view := by
  induction rows with
  | nil => rfl
  | cons first rest ih =>
    simp only [map_cons, lastBy, ih, map_map]
    have keys : rest.map (key ∘ view) = rest.map fun row => key (view row) := rfl
    rw [keys]
    split
    · rfl
    · rfl

theorem lastBy_congr {ι : Type w} [DecidableEq ι] {other : α → ι}
    (same : ∀ first ∈ rows, ∀ second ∈ rows, key first = key second ↔ other first = other second)
    :
    lastBy key rows = lastBy other rows := by
  induction rows with
  | nil => rfl
  | cons first rest ih =>
    have later := ih fun first member second also =>
      same first (.tail _ member) second (.tail _ also)
    have taken : key first ∈ rest.map key ↔ other first ∈ rest.map other := by
      simp only [mem_map]
      apply exists_congr
      intro row
      apply and_congr_right
      intro member
      exact same row (.tail _ member) first (.head _)
    simp only [lastBy, later, taken]

theorem mem_foldl_put {news : List α} :
    other ∈ news.foldl (fun rows row => put key row rows) rows ↔
      other ∈ lastBy key news ∨ other ∈ rows ∧ key other ∉ news.map key := by
  induction news generalizing rows with
  | nil => simp [lastBy]
  | cons first rest ih =>
    rw [foldl_cons, ih, mem_put, lastBy, map_cons, mem_cons, not_or]
    split
    · rename_i later
      constructor
      · rintro (last | ⟨rfl | ⟨member, different⟩, absent⟩)
        · exact .inl last
        · exact absurd later absent
        · exact .inr ⟨member, different, absent⟩
      · rintro (last | ⟨member, different, absent⟩)
        · exact .inl last
        · exact .inr ⟨.inr ⟨member, different⟩, absent⟩
    · rename_i last
      rw [mem_cons]
      constructor
      · rintro (later | ⟨rfl | ⟨member, different⟩, absent⟩)
        · exact .inl (.inr later)
        · exact .inl (.inl rfl)
        · exact .inr ⟨member, different, absent⟩
      · rintro ((rfl | later) | ⟨member, different, absent⟩)
        · exact .inr ⟨.inl rfl, last⟩
        · exact .inl later
        · exact .inr ⟨.inr ⟨member, different⟩, absent⟩

end

section

variable {rows : List α} {index : Nat} {old new : α} {other : Nat}

theorem getElem?_set_iff (found : rows[index]? = some old) :
    (rows.set index new)[other]? = some row ↔
      other = index ∧ row = new ∨ other ≠ index ∧ rows[other]? = some row := by
  obtain ⟨bound, _⟩ := List.getElem?_eq_some_iff.mp found
  by_cases same : other = index
  · subst same
    simp [getElem?_set_self bound, eq_comm]
  · simp [getElem?_set_ne (Ne.symm same), same]

theorem getElem?_concat_iff :
    (rows ++ [new])[other]? = some row ↔
      other = rows.length ∧ row = new ∨ rows[other]? = some row := by
  rw [getElem?_append]
  split
  · rename_i bound
    constructor
    · exact .inr
    · intro either
      obtain ⟨same, _⟩ | found := either
      · exact absurd same (Nat.ne_of_lt bound)
      · exact found
  rename_i past
  have absent : rows[other]? = none := getElem?_eq_none (Nat.le_of_not_lt past)
  rw [absent]
  by_cases last : other = rows.length
  · subst last
    simp [eq_comm]
  · have beyond : [new][other - rows.length]? = none :=
      getElem?_eq_none (by simp; omega)
    simp [beyond, last]

theorem filterMap_set {β : Type w} (view : α → Option β)
    (found : rows[index]? = some old) (new : α) :
    ∃ rest, (rows.filterMap view).Perm ((view old).toList ++ rest) ∧
      ((rows.set index new).filterMap view).Perm ((view new).toList ++ rest) := by
  induction rows generalizing index with
  | nil => cases found
  | cons first others ih =>
    cases index with
    | zero =>
      cases found
      refine ⟨others.filterMap view, ?_, ?_⟩
      · cases shown : view old with
        | none | some value => simp [shown]
      · cases shown : view new with
        | none | some value => simp [shown]
    | succ index =>
      obtain ⟨rest, before, after⟩ := ih found
      have move : ∀ held : List β,
          ((view first).toList ++ (held ++ rest)).Perm (held ++ ((view first).toList ++ rest)) := by
        intro held
        rw [← append_assoc, ← append_assoc]
        exact perm_append_comm.append_right rest
      have split : ∀ tail : List α, (first :: tail).filterMap view =
          (view first).toList ++ tail.filterMap view := by
        cases shown : view first with
        | none | some value => simp [shown]
      refine ⟨(view first).toList ++ rest, ?_, ?_⟩
      · rw [split]
        exact (before.append_left _).trans (move _)
      · rw [set_cons_succ, split]
        exact (after.append_left _).trans (move _)

theorem index_unique {β : Type w} {view : α → Option β} {first second : α} {value : β}
    {index : Nat} (distinct : (rows.filterMap view).Nodup)
    (found : rows[index]? = some first) (isOther : rows[other]? = some second)
    (holds : view first = some value) (also : view second = some value) : index = other := by
  induction rows generalizing index other with
  | nil => cases found
  | cons row rest ih =>
    have later : ∀ {position : Nat} {held : α}, rest[position]? = some held →
        view held = some value → value ∈ rest.filterMap view :=
      fun at_ shows => mem_filterMap.mpr ⟨_, mem_of_getElem? at_, shows⟩
    have tail : (rest.filterMap view).Nodup := by
      rw [filterMap_cons] at distinct
      split at distinct
      · exact distinct
      · exact (nodup_cons.mp distinct).2
    have headOnly : view row = some value → value ∉ rest.filterMap view := by
      intro shows
      rw [filterMap_cons, shows] at distinct
      exact (nodup_cons.mp distinct).1
    cases index with
    | zero =>
      cases other with
      | zero => rfl
      | succ other =>
        cases found
        exact absurd (later isOther also) (headOnly holds)
    | succ index =>
      cases other with
      | zero =>
        cases isOther
        exact absurd (later found holds) (headOnly also)
      | succ other => exact congrArg Nat.succ (ih tail found isOther)

end

end Zuse.Data.Table
