import Mathlib.Algebra.BigOperators.Intervals
import Mathlib.Algebra.BigOperators.Ring.List
import Mathlib.Data.Int.Interval
import Mathlib.Data.List.MinMax
import Mathlib.Tactic.NormNum
import Mathlib.Tactic.Tauto
import Zuse.Billing.ProviderMetering
import Zuse.Data.Tiling

namespace Zuse.Billing

open Zuse.Data List

/-! The windows a price schedule cuts an execution into, and what they cost. -/

def ProviderPrice.rate (price : ProviderPrice) (vcpuCount memoryMib : Nat) : Nat :=
  price.baseNanoUsdPerSecond * 1024 + vcpuCount * price.cpuNanoUsdPerSecond * 1024 +
    memoryMib * price.memoryNanoUsdPerGibSecond

structure PeriodInput where
  provider : UsageProvider
  eventId : String
  periodId : String
  startedAtMs : Int
  endedAtMs : Int
  vcpuCount : Int
  memoryMib : Int
  prices : List ProviderPriceWindow

structure PricedPeriod where
  entryId : String
  providerEventId : String
  startedAt : Int
  endedAt : Int
  providerCostMicros : Nat

def priceProviderExecutionPeriod (input : PeriodInput) : PricedPeriod :=
  let providerEventId := input.eventId ++ ":" ++ input.periodId
  { entryId := input.provider.text ++ ":" ++ providerEventId
    providerEventId
    startedAt := input.startedAtMs
    endedAt := input.endedAtMs
    providerCostMicros :=
      pricedCostMicros input.vcpuCount.toNat input.memoryMib.toNat input.prices }

/-- The rows of a provider take effect at times of their own. -/
def DistinctTimes (schedule : List ProviderPrice) (provider : UsageProvider) : Prop :=
  ((schedule.filter fun row => row.provider = provider).map (·.effectiveAt)).Nodup

instance (schedule : List ProviderPrice) (provider : UsageProvider) :
    Decidable (DistinctTimes schedule provider) :=
  inferInstanceAs (Decidable (List.Nodup _))

def priceInForce (schedule : List ProviderPrice) (provider : UsageProvider) (atMs : Int) :
    Option ProviderPrice :=
  @argmax ProviderPrice Int Int.instLinearOrder.toPreorder Int.decLt (·.effectiveAt)
    ((schedule.filter fun row => row.provider = provider).filter fun row =>
      row.effectiveAt ≤ atMs)

def rateInForce (schedule : List ProviderPrice) (provider : UsageProvider)
    (vcpuCount memoryMib : Nat) (atMs : Int) : Nat :=
  (priceInForce schedule provider atMs).elim 0 fun price => price.rate vcpuCount memoryMib

/-- The integral of the rate in force, where a rate is for a second and its price in
thousandths of a micro. -/
noncomputable def exactCostMicros (schedule : List ProviderPrice) (provider : UsageProvider)
    (vcpuCount memoryMib : Nat) (startedAtMs endedAtMs : Int) : ℚ :=
  ((∑ atMs ∈ Finset.Ico startedAtMs endedAtMs,
      rateInForce schedule provider vcpuCount memoryMib atMs : Nat) : ℚ) / (1000000 * 1024)

variable {schedule : List ProviderPrice} {provider : UsageProvider} {atMs : Int}

theorem priceInForce_eq_none :
    priceInForce schedule provider atMs = none ↔
      ∀ row ∈ schedule, row.provider = provider → atMs < row.effectiveAt := by
  rw [priceInForce, argmax_eq_none]
  simp only [filter_filter, filter_eq_nil_iff, Bool.and_eq_true, decide_eq_true_eq,
    not_and', not_le]

theorem eq_of_effectiveAt (distinct : DistinctTimes schedule provider)
    {left right : ProviderPrice} (isLeft : left ∈ schedule) (isRight : right ∈ schedule)
    (leftOwn : left.provider = provider) (rightOwn : right.provider = provider)
    (same : left.effectiveAt = right.effectiveAt) : left = right :=
  inj_on_of_nodup_map distinct (mem_filter.mpr ⟨isLeft, decide_eq_true leftOwn⟩)
    (mem_filter.mpr ⟨isRight, decide_eq_true rightOwn⟩) same

variable {price : ProviderPrice}

/-- The price in force is the one that took effect last. -/
theorem priceInForce_eq_some (distinct : DistinctTimes schedule provider) :
    priceInForce schedule provider atMs = some price ↔
      price ∈ schedule ∧ price.provider = provider ∧ price.effectiveAt ≤ atMs ∧
        ∀ other ∈ schedule, other.provider = provider → other.effectiveAt ≤ atMs →
          other.effectiveAt ≤ price.effectiveAt := by
  rw [priceInForce, argmax_eq_some_iff]
  simp only [mem_filter, decide_eq_true_eq, and_assoc, and_imp]
  constructor
  · rintro ⟨known, own, started, latest, -⟩
    exact ⟨known, own, started, latest⟩
  · rintro ⟨known, own, started, latest⟩
    refine ⟨known, own, started, latest, fun other isOther otherOwn otherStarted later => ?_⟩
    have same := le_antisymm (latest other isOther otherOwn otherStarted) later
    rw [eq_of_effectiveAt distinct isOther known otherOwn own same]

/-- The prices that take effect one after the other from a time on. -/
def windowsFrom (endedAtMs : Int) : ProviderPrice → Int → List ProviderPrice →
    List ProviderPriceWindow
  | price, startedAtMs, [] => [{ startedAtMs, endedAtMs, price }]
  | price, startedAtMs, next :: rest =>
    { startedAtMs, endedAtMs := next.effectiveAt, price } ::
      windowsFrom endedAtMs next next.effectiveAt rest

/-- Rows in order of time, between which a time falls. -/
structure Opens (early late : List ProviderPrice) (atMs : Int) : Prop where
  started : ∀ row ∈ early, row.effectiveAt ≤ atMs
  pending : ∀ row ∈ late, atMs < row.effectiveAt

theorem latestBeforeStart_eq {early late : List ProviderPrice} (opens : Opens early late atMs) :
    latestBeforeStart (early ++ late) atMs = (early.length : Int) - 1 := by
  have none : early.findIdx? (fun row => decide (atMs < row.effectiveAt)) = none := by
    rw [List.findIdx?_eq_none_iff]
    intro row member
    exact decide_eq_false (not_lt.mpr (opens.started row member))
  rw [latestBeforeStart, List.findIdx?_append, none]
  cases late with
  | nil => simp
  | cons next rest => simp [List.findIdx?_cons, opens.pending next (.head _)]

variable {current : ProviderPrice}

theorem applicablePrices_eq {early late : List ProviderPrice}
    (opens : Opens (early ++ [current]) late atMs) :
    applicablePrices (early ++ [current] ++ late) atMs = current :: late := by
  let kept := fun indexed : ProviderPrice × Nat =>
    decide (indexed.2 = early.length) || decide (atMs < indexed.1.effectiveAt)
  have past : early.zipIdx.filter kept = [] := by
    rw [filter_eq_nil_iff]
    rintro ⟨row, index⟩ member
    have started := opens.started row (mem_append_left _ (fst_mem_of_mem_zipIdx member))
    have below : index ≠ early.length := ne_of_lt (snd_lt_of_mem_zipIdx member)
    simp [kept, not_lt.mpr started, below]
  have future : (late.zipIdx (early.length + 1)).filter kept = late.zipIdx (early.length + 1) := by
    rw [filter_eq_self]
    rintro ⟨row, index⟩ member
    simp [kept, opens.pending row (fst_mem_of_mem_zipIdx member)]
  have index : latestBeforeStart (early ++ [current] ++ late) atMs = early.length := by
    rw [latestBeforeStart_eq opens, length_append, length_singleton]
    omega
  rw [applicablePrices, index]
  simp only [Nat.cast_inj, zipIdx_append, filter_append, length_append,
    length_singleton, Nat.zero_add]
  rw [past, future]
  simp

theorem zipIdx_next {α β : Type*} (window : α → Option α → β) (before rows : List α) :
    ((rows.zipIdx before.length).map fun indexed =>
        window indexed.1 (before ++ rows)[indexed.2 + 1]?) =
      List.zipWith window rows (rows.tail.map some ++ [none]) := by
  induction rows generalizing before with
  | nil => rfl
  | cons row rest ih =>
    have later := ih (before ++ [row])
    rw [append_assoc, length_append, length_singleton] at later
    rw [zipIdx_cons, map_cons]
    rw [show ([row] ++ rest) = row :: rest from rfl] at later
    rw [later]
    cases rest with
    | nil | cons next others => simp

def windowOf (startedAtMs endedAtMs : Int) (row : ProviderPrice)
    (next : Option ProviderPrice) : ProviderPriceWindow where
  startedAtMs := max startedAtMs row.effectiveAt
  endedAtMs := min endedAtMs ((next.map (·.effectiveAt)).getD endedAtMs)
  price := row

/-- What the schedule says of an interval: the price in force when it begins, and those that
take effect before it ends. -/
structure Schedules (schedule : List ProviderPrice) (provider : UsageProvider)
    (startedAtMs endedAtMs : Int) (current : ProviderPrice) (later : List ProviderPrice) :
    Prop where
  listed : ∀ row ∈ current :: later, row ∈ schedule ∧ row.provider = provider
  ordered : (current :: later).Pairwise fun left right => left.effectiveAt < right.effectiveAt
  started : current.effectiveAt ≤ startedAtMs
  upcoming : ∀ row ∈ later, startedAtMs < row.effectiveAt ∧ row.effectiveAt < endedAtMs
  complete : ∀ row ∈ schedule, row.provider = provider →
    row.effectiveAt ≤ current.effectiveAt ∨ row ∈ later ∨ endedAtMs ≤ row.effectiveAt

variable {startedAtMs endedAtMs : Int}

theorem windowsFrom_eq {later : List ProviderPrice} {opening : Int}
    (ordered : (current :: later).Pairwise fun left right =>
      left.effectiveAt < right.effectiveAt)
    (upcoming : ∀ row ∈ later, startedAtMs < row.effectiveAt ∧ row.effectiveAt < endedAtMs)
    (opens : max startedAtMs current.effectiveAt = opening) :
    List.zipWith (windowOf startedAtMs endedAtMs) (current :: later) (later.map some ++ [none]) =
      windowsFrom endedAtMs current opening later := by
  induction later generalizing current opening with
  | nil => simp [windowsFrom, windowOf, opens]
  | cons next rest ih =>
    obtain ⟨begins, ends⟩ := upcoming next (.head _)
    have others := ih (pairwise_cons.mp ordered).2
      (fun row member => upcoming row (.tail _ member)) (max_eq_right (le_of_lt begins))
    rw [map_cons, cons_append, zipWith_cons_cons, others, windowsFrom,
      windowOf, opens, Option.map_some, Option.getD_some, min_eq_right (le_of_lt ends)]

/-- Rows in order of time are those that have taken effect and those that have not. -/
theorem opens_of_ordered {rows : List ProviderPrice} (atMs : Int)
    (ordered : rows.Pairwise fun left right => left.effectiveAt < right.effectiveAt) :
    ∃ early late, rows = early ++ late ∧ Opens early late atMs := by
  induction rows with
  | nil => exact ⟨[], [], rfl, by simp, by simp⟩
  | cons row rest ih =>
    obtain ⟨before, others⟩ := pairwise_cons.mp ordered
    by_cases started : row.effectiveAt ≤ atMs
    · obtain ⟨early, late, rfl, opens⟩ := ih others
      exact ⟨row :: early, late, rfl, forall_mem_cons.mpr ⟨started, opens.started⟩, opens.pending⟩
    · have pending := not_le.mp started
      exact ⟨[], row :: rest, rfl, by simp, forall_mem_cons.mpr
        ⟨pending, fun other member => lt_trans pending (before other member)⟩⟩

theorem priceWindows_cases (distinct : DistinctTimes schedule provider)
    (forward : startedAtMs < endedAtMs) :
    priceWindows schedule provider startedAtMs endedAtMs = [] ∧
        priceInForce schedule provider startedAtMs = none ∨
      ∃ current later, Schedules schedule provider startedAtMs endedAtMs current later ∧
        priceWindows schedule provider startedAtMs endedAtMs =
          windowsFrom endedAtMs current startedAtMs later := by
  let known := schedule.filter fun row => row.provider = provider && row.effectiveAt < endedAtMs
  have perm := perm_insertionSort
    (fun left right : ProviderPrice => left.effectiveAt ≤ right.effectiveAt) known
  have sorted := pairwise_insertionSort
    (fun left right : ProviderPrice => left.effectiveAt ≤ right.effectiveAt) known
  have apart : (known.map (·.effectiveAt)).Nodup := by
    have inside : known = (schedule.filter fun row => row.provider = provider).filter
        fun row => row.effectiveAt < endedAtMs := by
      rw [filter_filter]
      exact filter_congr fun row _ => Bool.and_comm ..
    rw [inside]
    exact distinct.sublist (filter_sublist.map _)
  have member : ∀ row, row ∈ known ↔
      row ∈ schedule ∧ row.provider = provider ∧ row.effectiveAt < endedAtMs := by
    simp [known]
  rw [priceWindows]
  generalize known.insertionSort (fun left right => left.effectiveAt ≤ right.effectiveAt) =
    rows at perm sorted ⊢
  have strict : rows.Pairwise fun left right => left.effectiveAt < right.effectiveAt := by
    have nodup := pairwise_map.mp ((perm.map (·.effectiveAt)).nodup_iff.mpr apart)
    exact (sorted.and nodup).imp fun order => lt_of_le_of_ne order.1 order.2
  have inRows : ∀ row, row ∈ rows ↔
      row ∈ schedule ∧ row.provider = provider ∧ row.effectiveAt < endedAtMs :=
    fun row => perm.mem_iff.trans (member row)
  obtain ⟨early, later, rfl, opens⟩ := opens_of_ordered startedAtMs strict
  obtain rfl | ⟨earlier, current, rfl⟩ := eq_nil_or_concat early
  · refine .inl ⟨?_, priceInForce_eq_none.mpr fun row isRow own => ?_⟩
    · rw [latestBeforeStart_eq opens, if_pos (by simp)]
    · by_cases ends : row.effectiveAt < endedAtMs
      · exact opens.pending row ((inRows row).mpr ⟨isRow, own, ends⟩)
      · omega
  rw [concat_eq_append] at *
  obtain ⟨ordered, -, between⟩ := pairwise_append.mp strict
  obtain ⟨-, -, before⟩ := pairwise_append.mp ordered
  have suffix : (current :: later).Pairwise fun left right =>
      left.effectiveAt < right.effectiveAt := by
    rw [append_assoc] at strict
    exact (pairwise_append.mp strict).2.1
  have schedules : Schedules schedule provider startedAtMs endedAtMs current later := by
    refine ⟨fun row isRow => ?_, suffix, opens.started current (by simp), fun row isRow => ?_,
      fun row isRow own => ?_⟩
    · have inside := (inRows row).mp (by simp at isRow ⊢; tauto)
      exact ⟨inside.1, inside.2.1⟩
    · exact ⟨opens.pending row isRow, ((inRows row).mp (mem_append_right _ isRow)).2.2⟩
    by_cases ends : row.effectiveAt < endedAtMs
    · have inside := (inRows row).mpr ⟨isRow, own, ends⟩
      rcases mem_append.mp inside with isEarly | isLater
      · rcases mem_concat.mp isEarly with isEarlier | isCurrent
        · exact .inl (le_of_lt (before row isEarlier current (by simp)))
        · exact .inl (le_of_eq (congrArg _ (isCurrent)))
      · exact .inr (.inl isLater)
    · exact .inr (.inr (not_lt.mp ends))
  refine .inr ⟨current, later, schedules, ?_⟩
  rw [latestBeforeStart_eq opens, if_neg (by simp), applicablePrices_eq opens]
  refine Eq.trans ?_ (windowsFrom_eq suffix schedules.upcoming (max_eq_left (schedules.started)))
  exact zipIdx_next (windowOf startedAtMs endedAtMs) [] (current :: later)

variable {window : ProviderPriceWindow}

namespace Schedules

variable {startedAtMs endedAtMs : Int} {current : ProviderPrice} {later : List ProviderPrice}

theorem next {row : ProviderPrice} {rest : List ProviderPrice}
    (schedules : Schedules schedule provider startedAtMs endedAtMs current (row :: rest)) :
    Schedules schedule provider row.effectiveAt endedAtMs row rest := by
  obtain ⟨before, others⟩ := pairwise_cons.mp schedules.ordered
  refine ⟨fun other member => schedules.listed other (.tail _ member), others, le_refl _,
    fun other member => ⟨(pairwise_cons.mp others).1 other member,
      (schedules.upcoming other (.tail _ member)).2⟩, fun other isOther own => ?_⟩
  rcases schedules.complete other isOther own with past | listed | ahead
  · exact .inl (le_trans past (le_of_lt (before row (.head _))))
  · cases listed with
    | head => exact .inl (le_refl _)
    | tail _ member => exact .inr (.inl member)
  · exact .inr (.inr ahead)

theorem inForce (distinct : DistinctTimes schedule provider)
    (schedules : Schedules schedule provider startedAtMs endedAtMs current later)
    (begun : startedAtMs ≤ atMs) (ends : atMs < endedAtMs)
    (unchanged : ∀ row ∈ later.head?, atMs < row.effectiveAt) :
    priceInForce schedule provider atMs = some current := by
  obtain ⟨known, own⟩ := schedules.listed current (.head _)
  refine (priceInForce_eq_some distinct).mpr
    ⟨known, own, le_trans schedules.started begun, fun other isOther otherOwn past => ?_⟩
  rcases schedules.complete other isOther otherOwn with before | listed | ahead
  · exact before
  · cases later with
    | nil => cases listed
    | cons next rest =>
      have pending := unchanged next rfl
      cases listed with
      | head => omega
      | tail _ member =>
        have after := (pairwise_cons.mp (pairwise_cons.mp schedules.ordered).2).1 other member
        omega
  · omega

theorem tiles (schedules : Schedules schedule provider startedAtMs endedAtMs current later)
    (forward : startedAtMs < endedAtMs) :
    Tiles (·.startedAtMs) (·.endedAtMs) startedAtMs
      (windowsFrom endedAtMs current startedAtMs later) endedAtMs := by
  induction later generalizing current startedAtMs with
  | nil => exact ⟨rfl, forward, rfl⟩
  | cons next rest ih =>
    obtain ⟨begins, ends⟩ := schedules.upcoming next (.head _)
    exact ⟨rfl, begins, ih schedules.next ends⟩

theorem inForce_of_mem (distinct : DistinctTimes schedule provider)
    (schedules : Schedules schedule provider startedAtMs endedAtMs current later)
    (member : window ∈ windowsFrom endedAtMs current startedAtMs later)
    (begun : window.startedAtMs ≤ atMs) (ends : atMs < window.endedAtMs) :
    priceInForce schedule provider atMs = some window.price := by
  induction later generalizing current startedAtMs with
  | nil =>
    obtain rfl := mem_singleton.mp member
    exact schedules.inForce distinct begun ends (by simp)
  | cons next rest ih =>
    cases member with
    | head =>
      have before := (schedules.upcoming next (.head _)).2
      exact schedules.inForce distinct begun (lt_trans ends before) (by simpa using ends)
    | tail _ inside => exact ih schedules.next inside

end Schedules

theorem windowsFrom_prices (endedAtMs : Int) (current : ProviderPrice) (startedAtMs : Int)
    (later : List ProviderPrice) :
    (windowsFrom endedAtMs current startedAtMs later).map (·.price) = current :: later := by
  induction later generalizing current startedAtMs with
  | nil => rfl
  | cons next rest ih => rw [windowsFrom, map_cons, ih]

def estimatedCostMicros (schedule : List ProviderPrice) (input : PeriodInput)
    (startedAtMs endedAtMs : Int) : Nat :=
  (priceProviderExecutionPeriod
    { input with
      startedAtMs
      endedAtMs
      prices := priceWindows schedule input.provider startedAtMs endedAtMs }).providerCostMicros

namespace PeriodInput

variable (input : PeriodInput)

def rate (price : ProviderPrice) : Nat :=
  price.rate input.vcpuCount.toNat input.memoryMib.toNat

/-- What a window costs, in the unit of its rate. -/
def amount (window : ProviderPriceWindow) : Nat :=
  (window.endedAtMs - window.startedAtMs).toNat * input.rate window.price

/-- The amounts, and the micros they come to, are integers that doubles hold. -/
def Exact (windows : List ProviderPriceWindow) : Prop :=
  (∀ window ∈ windows, input.amount window < 2 ^ 53) ∧
    (windows.map input.amount).sum < 2 ^ 53 * (1000000 * 1024)

instance (windows : List ProviderPriceWindow) : Decidable (input.Exact windows) :=
  inferInstanceAs (Decidable (_ ∧ _))

end PeriodInput

noncomputable def inForceMs (schedule : List ProviderPrice) (provider : UsageProvider)
    (startedAtMs endedAtMs : Int) (price : ProviderPrice) : Nat :=
  ((Finset.Ico startedAtMs endedAtMs).filter fun atMs =>
    priceInForce schedule provider atMs = some price).card

section

variable {input : PeriodInput} {startedAtMs endedAtMs : Int} {pieces : List (Int × Int)}

theorem inForceMs_tiles
    (tiles : Tiles Prod.fst Prod.snd startedAtMs pieces endedAtMs) (price : ProviderPrice) :
    inForceMs schedule provider startedAtMs endedAtMs price =
      (pieces.map fun piece => inForceMs schedule provider piece.1 piece.2 price).sum := by
  simp only [inForceMs, Finset.card_filter]
  exact tiles.sum_Ico _

theorem double_natCast {number : Nat} (few : number < 2 ^ 53) : double number = number :=
  rounded_natCast few

theorem double_mul {left right : Nat} (few : left * right < 2 ^ 53) :
    double (left * double right) = (left * right : Nat) := by
  obtain rfl | positive := Nat.eq_zero_or_pos left
  · rw [Nat.cast_zero, zero_mul, Nat.zero_mul]
    exact double_natCast (Nat.two_pow_pos _)
  · have least : right ≤ left * right := Nat.le_mul_of_pos_left _ positive
    rw [double_natCast (lt_of_le_of_lt least few), ← Nat.cast_mul, double_natCast few]

/-- Below `2 ^ 53` an amount is exact, and only its quotient is rounded. -/
theorem allocatedComputeCostMicros_eq {durationMs : Int} {vcpuCount memoryMib : Nat}
    (forward : 0 < durationMs.toNat)
    (few : durationMs.toNat * price.rate vcpuCount memoryMib < 2 ^ 53) :
    allocatedComputeCostMicros durationMs vcpuCount memoryMib price =
      durationMs.toNat * price.rate vcpuCount memoryMib / (1000000 * 1024) := by
  have rateFew : price.rate vcpuCount memoryMib < 2 ^ 53 :=
    lt_of_le_of_lt (Nat.le_mul_of_pos_left _ forward) few
  have parts : ∀ base cpu memory : Nat, base * 1024 + cpu * 1024 + memory < 2 ^ 53 →
      base < 2 ^ 53 ∧ base * 1024 < 2 ^ 53 ∧ cpu < 2 ^ 53 ∧ cpu * 1024 < 2 ^ 53 ∧
        memory < 2 ^ 53 ∧ base * 1024 + cpu * 1024 < 2 ^ 53 := by omega
  obtain ⟨base, baseScaled, cpu, cpuScaled, memory, both⟩ := parts _ _ _ rateFew
  have baseRate : double (double price.baseNanoUsdPerSecond * (1024 : Nat)) =
      (price.baseNanoUsdPerSecond * 1024 : Nat) := by
    rw [double_natCast base, ← Nat.cast_mul, double_natCast baseScaled]
  have cpuRate :
      double (double (vcpuCount * double price.cpuNanoUsdPerSecond) * (1024 : Nat)) =
        (vcpuCount * price.cpuNanoUsdPerSecond * 1024 : Nat) := by
    rw [double_mul cpu, ← Nat.cast_mul, double_natCast cpuScaled]
  have rate : double (double ((price.baseNanoUsdPerSecond * 1024 : Nat) +
        (vcpuCount * price.cpuNanoUsdPerSecond * 1024 : Nat)) +
        (memoryMib * price.memoryNanoUsdPerGibSecond : Nat)) =
      (price.rate vcpuCount memoryMib : Nat) := by
    rw [← Nat.cast_add, double_natCast both, ← Nat.cast_add]
    exact double_natCast rateFew
  have amount : double (double durationMs.toNat * price.rate vcpuCount memoryMib) =
      (durationMs.toNat * price.rate vcpuCount memoryMib : Nat) := by
    rw [Nat.mul_comm] at few ⊢
    rw [mul_comm, double_mul few]
  simp only [allocatedComputeCostMicros, baseRate, cpuRate, double_mul memory, rate, amount]
  exact floor_rounded_div few (by decide)

variable (distinct : DistinctTimes schedule input.provider) {current : ProviderPrice}
  {later : List ProviderPrice} (forward : startedAtMs < endedAtMs)
  (schedules : Schedules schedule input.provider startedAtMs endedAtMs current later)
include distinct forward schedules

theorem inForceMs_window (member : window ∈ windowsFrom endedAtMs current startedAtMs later) :
    inForceMs schedule input.provider startedAtMs endedAtMs window.price =
      (window.endedAtMs - window.startedAtMs).toNat := by
  have tiles := schedules.tiles forward
  obtain ⟨after, -, before⟩ := tiles.within member
  rw [inForceMs, ← Int.card_Ico]
  congr 1
  ext atMs
  rw [Finset.mem_filter, Finset.mem_Ico, Finset.mem_Ico]
  constructor
  · rintro ⟨⟨begun, ends⟩, inForce⟩
    obtain ⟨other, isOther, inside, within⟩ := tiles.exists_span begun ends
    rw [schedules.inForce_of_mem distinct isOther inside within] at inForce
    have nodup : ((windowsFrom endedAtMs current startedAtMs later).map (·.price)).Nodup := by
      rw [windowsFrom_prices]
      exact schedules.ordered.imp fun order same => by rw [same] at order; omega
    obtain rfl := inj_on_of_nodup_map nodup isOther member (Option.some.inj inForce)
    exact ⟨inside, within⟩
  · rintro ⟨begun, ends⟩
    exact ⟨⟨le_trans after begun, lt_of_lt_of_le ends before⟩,
      schedules.inForce_of_mem distinct member begun ends⟩

theorem mem_prices_of_inForceMs
    (some : inForceMs schedule input.provider startedAtMs endedAtMs price ≠ 0) :
    ∃ window ∈ windowsFrom endedAtMs current startedAtMs later, window.price = price := by
  obtain ⟨atMs, member⟩ := Finset.card_ne_zero.mp some
  obtain ⟨inside, inForce⟩ := Finset.mem_filter.mp member
  obtain ⟨begun, ends⟩ := Finset.mem_Ico.mp inside
  obtain ⟨window, isWindow, within⟩ := (schedules.tiles forward).exists_span begun ends
  rw [schedules.inForce_of_mem distinct isWindow within.1 within.2] at inForce
  exact ⟨window, isWindow, Option.some.inj inForce⟩

/-- What the windows sum up is, price by price, for the time the price is in force. -/
theorem sum_windowsFrom (share : ProviderPrice → Nat → Nat) (none : ∀ price, share price 0 = 0) :
    ((windowsFrom endedAtMs current startedAtMs later).map fun window =>
        share window.price (window.endedAtMs - window.startedAtMs).toNat).sum =
      ∑ price ∈ schedule.toFinset,
        share price (inForceMs schedule input.provider startedAtMs endedAtMs price) := by
  have prices := windowsFrom_prices endedAtMs current startedAtMs later
  have nodup : (current :: later).Nodup :=
    schedules.ordered.imp fun order same => by rw [same] at order; omega
  rw [← Finset.sum_subset (show (current :: later).toFinset ⊆ schedule.toFinset from ?_),
    sum_toFinset _ nodup,
    ← prices, map_map]
  · refine congrArg List.sum (map_congr_left fun window member => ?_)
    rw [Function.comp_apply, inForceMs_window distinct forward schedules member]
  · intro price _ absent
    by_contra some
    have inForce : inForceMs schedule input.provider startedAtMs endedAtMs price ≠ 0 :=
      fun zero => some (zero ▸ none price)
    obtain ⟨window, member, rfl⟩ :=
      mem_prices_of_inForceMs distinct forward schedules inForce
    refine absent (mem_toFinset.mpr ?_)
    rw [← prices]
    exact mem_map_of_mem member
  · intro price member
    exact mem_toFinset.mpr (schedules.listed price (mem_toFinset.mp member)).1

theorem amounts_eq :
    ((windowsFrom endedAtMs current startedAtMs later).map input.amount).sum =
      ∑ price ∈ schedule.toFinset,
        inForceMs schedule input.provider startedAtMs endedAtMs price * input.rate price :=
  sum_windowsFrom distinct forward schedules (fun price ms => ms * input.rate price)
    fun _ => Nat.zero_mul _

theorem quotients_eq :
    ((windowsFrom endedAtMs current startedAtMs later).map fun window =>
        input.amount window / (1000000 * 1024)).sum =
      ∑ price ∈ schedule.toFinset,
        inForceMs schedule input.provider startedAtMs endedAtMs price * input.rate price /
          (1000000 * 1024) :=
  sum_windowsFrom distinct forward schedules
    (fun price ms => ms * input.rate price / (1000000 * 1024))
    fun _ => by rw [Nat.zero_mul, Nat.zero_div]

/-- Part of an exact interval is exact. -/
theorem exact_piece (fits : input.Exact (windowsFrom endedAtMs current startedAtMs later))
    {opening closing : Int} (after : startedAtMs ≤ opening) (onward : opening < closing)
    (before : closing ≤ endedAtMs) {first : ProviderPrice} {rest : List ProviderPrice}
    (splits : Schedules schedule input.provider opening closing first rest) :
    input.Exact (windowsFrom closing first opening rest) := by
  have fewer (price : ProviderPrice) : inForceMs schedule input.provider opening closing price ≤
      inForceMs schedule input.provider startedAtMs endedAtMs price :=
    Finset.card_le_card (Finset.filter_subset_filter _ (Finset.Ico_subset_Ico after before))
  constructor
  · intro window member
    have part := fewer window.price
    rw [inForceMs_window distinct onward splits member] at part
    by_cases none : inForceMs schedule input.provider startedAtMs endedAtMs window.price = 0
    · rw [none] at part
      rw [PeriodInput.amount, Nat.eq_zero_of_le_zero part, Nat.zero_mul]
      exact Nat.two_pow_pos 53
    · obtain ⟨whole, isWhole, same⟩ := mem_prices_of_inForceMs distinct forward schedules none
      rw [← same, inForceMs_window distinct forward schedules isWhole] at part
      refine lt_of_le_of_lt ?_ (fits.1 whole isWhole)
      rw [PeriodInput.amount, PeriodInput.amount, same]
      exact Nat.mul_le_mul_right _ part
  · refine lt_of_le_of_lt ?_ fits.2
    rw [amounts_eq distinct onward splits, amounts_eq distinct forward schedules]
    exact Finset.sum_le_sum fun price _ => Nat.mul_le_mul_right _ (fewer price)

theorem rateInForce_sum :
    ∑ atMs ∈ Finset.Ico startedAtMs endedAtMs, rateInForce schedule input.provider
        input.vcpuCount.toNat input.memoryMib.toNat atMs =
      ((windowsFrom endedAtMs current startedAtMs later).map input.amount).sum := by
  rw [(schedules.tiles forward).sum_Ico]
  refine congrArg List.sum (map_congr_left fun window member => ?_)
  rw [PeriodInput.amount, ← Int.card_Ico]
  refine Finset.sum_const_nat fun atMs inside => ?_
  obtain ⟨begun, ends⟩ := Finset.mem_Ico.mp inside
  rw [rateInForce, schedules.inForce_of_mem distinct member begun ends]
  rfl

variable (same : priceWindows schedule input.provider startedAtMs endedAtMs =
  windowsFrom endedAtMs current startedAtMs later)
include same

variable (fits : input.Exact (windowsFrom endedAtMs current startedAtMs later))
include fits

omit distinct in
theorem estimatedCostMicros_eq :
    estimatedCostMicros schedule input startedAtMs endedAtMs =
      ((windowsFrom endedAtMs current startedAtMs later).map fun window =>
        input.amount window / (1000000 * 1024)).sum := by
  have costs : (windowsFrom endedAtMs current startedAtMs later).map (fun window =>
        allocatedComputeCostMicros (window.endedAtMs - window.startedAtMs)
          input.vcpuCount.toNat input.memoryMib.toNat window.price) =
      (windowsFrom endedAtMs current startedAtMs later).map fun window =>
        input.amount window / (1000000 * 1024) := by
    refine map_congr_left fun window member => ?_
    have positive := ((schedules.tiles forward).within member).2.1
    exact allocatedComputeCostMicros_eq (by omega) (fits.1 window member)
  have floors := (sum_map_div input.amount (show 0 < 1000000 * 1024 by decide)
    (windowsFrom endedAtMs current startedAtMs later)).1
  have few := lt_of_le_of_lt floors fits.2
  rw [estimatedCostMicros, priceProviderExecutionPeriod, pricedCostMicros]
  simp only [same, costs]
  exact roundedSum_eq (Nat.lt_of_mul_lt_mul_right few)

theorem estimatedCostMicros_bounds :
    estimatedCostMicros schedule input startedAtMs endedAtMs ≤
        exactCostMicros schedule input.provider input.vcpuCount.toNat input.memoryMib.toNat
          startedAtMs endedAtMs ∧
      exactCostMicros schedule input.provider input.vcpuCount.toNat input.memoryMib.toNat
          startedAtMs endedAtMs <
        estimatedCostMicros schedule input startedAtMs endedAtMs +
          (priceWindows schedule input.provider startedAtMs endedAtMs).length := by
  obtain ⟨below, above⟩ := sum_map_div input.amount
    (show 0 < 1000000 * 1024 by decide) (windowsFrom endedAtMs current startedAtMs later)
  have nonempty : 0 < (windowsFrom endedAtMs current startedAtMs later).length := by
    rw [← length_map (·.price), windowsFrom_prices]
    exact Nat.succ_pos _
  rw [estimatedCostMicros_eq forward schedules same fits, exactCostMicros,
    rateInForce_sum distinct forward schedules, same]
  constructor
  · rw [le_div_iff₀ (by norm_num)]
    exact_mod_cast below
  · rw [div_lt_iff₀ (by norm_num)]
    exact_mod_cast lt_of_lt_of_le (Nat.lt_add_of_pos_right nonempty) above

theorem estimatedCostMicros_pieces_le (cut : Tiles Prod.fst Prod.snd startedAtMs pieces endedAtMs) :
    (pieces.map fun piece => estimatedCostMicros schedule input piece.1 piece.2).sum ≤
      estimatedCostMicros schedule input startedAtMs endedAtMs := by
  obtain ⟨known, own⟩ := schedules.listed current (.head _)
  have each : ∀ piece ∈ pieces, estimatedCostMicros schedule input piece.1 piece.2 =
      ∑ price ∈ schedule.toFinset, inForceMs schedule input.provider piece.1 piece.2 price *
        input.rate price / (1000000 * 1024) := by
    intro piece member
    obtain ⟨after, onward, before⟩ := cut.within member
    rcases priceWindows_cases distinct onward with ⟨-, none⟩ | ⟨first, rest, splits, pieceSame⟩
    · exact absurd (priceInForce_eq_none.mp none current known own)
        (not_lt.mpr (le_trans schedules.started after))
    · have part := exact_piece distinct forward schedules fits after onward before splits
      rw [estimatedCostMicros_eq onward splits pieceSame part, quotients_eq distinct onward splits]
  rw [map_congr_left each, estimatedCostMicros_eq forward schedules same fits,
    quotients_eq distinct forward schedules]
  refine le_trans (sum_map_sum_div_le _ _ pieces) (le_of_eq ?_)
  refine Finset.sum_congr rfl fun price _ => ?_
  rw [sum_map_mul_right, ← inForceMs_tiles cut]

end

/-- A schedule's windows tile an interval that begins at a price, and charge it, rounded down
window by window, for the rate in force. -/
theorem price_windows_tile (schedule : List ProviderPrice) (input : PeriodInput)
    (distinct : DistinctTimes schedule input.provider)
    (forward : input.startedAtMs < input.endedAtMs) :
    let windows := priceWindows schedule input.provider input.startedAtMs input.endedAtMs
    let cost := estimatedCostMicros schedule input
    let exactCost := exactCostMicros schedule input.provider input.vcpuCount.toNat
      input.memoryMib.toNat input.startedAtMs input.endedAtMs
    (windows = [] ↔ ∀ row ∈ schedule, row.provider = input.provider →
      input.startedAtMs < row.effectiveAt) ∧
    (windows ≠ [] → Tiles (·.startedAtMs) (·.endedAtMs) input.startedAtMs windows input.endedAtMs ∧
      (∀ window ∈ windows, window.price ∈ schedule ∧ window.price.provider = input.provider ∧
        window.price.effectiveAt ≤ window.startedAtMs ∧
        ∀ row ∈ schedule, row.provider = input.provider →
          row.effectiveAt ≤ window.startedAtMs → row.effectiveAt ≤ window.price.effectiveAt) ∧
      (input.Exact windows →
        (cost input.startedAtMs input.endedAtMs ≤ exactCost ∧
          exactCost < cost input.startedAtMs input.endedAtMs + windows.length) ∧
        ∀ pieces : List (Int × Int),
          Tiles Prod.fst Prod.snd input.startedAtMs pieces input.endedAtMs →
            (pieces.map fun piece => cost piece.1 piece.2).sum ≤
              cost input.startedAtMs input.endedAtMs)) := by
  rcases priceWindows_cases distinct forward with
    ⟨empty, none⟩ | ⟨current, later, schedules, same⟩
  · exact ⟨⟨fun _ => priceInForce_eq_none.mp none, fun _ => empty⟩, fun some => absurd empty some⟩
  have tiles := schedules.tiles forward
  obtain ⟨known, own⟩ := schedules.listed current (.head _)
  refine ⟨⟨fun empty => ?_, fun late => ?_⟩, fun _ => ⟨?_, fun window member => ?_,
    fun fits => ?_⟩⟩
  · have prices := windowsFrom_prices input.endedAtMs current input.startedAtMs later
    rw [← same, empty] at prices
    cases prices
  · exact absurd (late current known own) (not_lt.mpr schedules.started)
  · rw [same]
    exact tiles
  · rw [same] at member
    exact (priceInForce_eq_some distinct).mp
      (schedules.inForce_of_mem distinct member (le_refl _) (tiles.within member).2.1)
  · rw [same] at fits
    exact ⟨estimatedCostMicros_bounds distinct forward schedules same fits,
      fun pieces cut => estimatedCostMicros_pieces_le distinct forward schedules same fits cut⟩

def sampleSchedule : List ProviderPrice :=
  [{ provider := .e2b
     effectiveAt := 30000
     baseNanoUsdPerSecond := 0
     cpuNanoUsdPerSecond := 28000
     memoryNanoUsdPerGibSecond := 9000 },
   { provider := .e2b
     effectiveAt := 0
     baseNanoUsdPerSecond := 0
     cpuNanoUsdPerSecond := 14000
     memoryNanoUsdPerGibSecond := 4500 }]

def sampleInput : PeriodInput where
  provider := .e2b
  eventId := "event-1"
  periodId := "period-1"
  startedAtMs := 0
  endedAtMs := 60000
  vcpuCount := 2
  memoryMib := 1024
  prices := []

theorem price_windows_tile_sample :
    (priceWindows sampleSchedule .e2b 0 60000).length = 2 ∧
      ([(0, 10000), (10000, 60000)].map fun piece : Int × Int =>
        estimatedCostMicros sampleSchedule sampleInput piece.1 piece.2).sum ≤
          estimatedCostMicros sampleSchedule sampleInput 0 60000 := by
  have tile := price_windows_tile sampleSchedule sampleInput (by decide) (by decide)
  have pieces := ((tile.2 (by decide)).2.2 (by decide)).2
  refine ⟨by decide, pieces [(0, 10000), (10000, 60000)] ?_⟩
  exact ⟨rfl, by decide, rfl, by decide, rfl⟩

def longSchedule : List ProviderPrice :=
  [{ provider := .e2b
     effectiveAt := 0
     baseNanoUsdPerSecond := 0
     cpuNanoUsdPerSecond := 14000
     memoryNanoUsdPerGibSecond := 4501 }]

def longInput : PeriodInput :=
  { sampleInput with
    endedAtMs := 631252413
    memoryMib := 1023 }

/-- A product above `2 ^ 53` is rounded up, past the integral of the rate. -/
theorem price_windows_exceed :
    exactCostMicros longSchedule longInput.provider longInput.vcpuCount.toNat
        longInput.memoryMib.toNat 0 631252413 <
      estimatedCostMicros longSchedule longInput 0 631252413 := by
  have distinct : DistinctTimes longSchedule longInput.provider := by decide
  have forward : (0 : Int) < 631252413 := by decide
  have cost : estimatedCostMicros longSchedule longInput 0 631252413 = 20513560 := by
    decide +kernel
  have amounts : ((priceWindows longSchedule longInput.provider 0 631252413).map
      longInput.amount).sum = 21005885439999999 := by decide
  rcases priceWindows_cases distinct forward with ⟨empty, -⟩ | ⟨current, later, schedules, same⟩
  · exact absurd empty (by decide)
  · rw [exactCostMicros, rateInForce_sum distinct forward schedules, ← same, amounts, cost]
    norm_num

end Zuse.Billing
