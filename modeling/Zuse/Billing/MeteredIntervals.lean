import Mathlib.Data.Int.ConditionallyCompleteOrder
import Mathlib.Order.CompletePartialOrder
import Mathlib.Data.List.Pairwise
import Mathlib.Data.Set.Lattice
import Mathlib.Order.Interval.Set.Disjoint
import Mathlib.Order.Interval.Set.LinearOrder
import Zuse.Billing.BillingRuns
import Zuse.Billing.ProviderMetering

namespace Zuse.Billing

open Zuse.Data

def UsageRecord.interval (usage : UsageRecord) : Set Int :=
  Set.Ico usage.startedAt usage.endedAt

def BillingPeriod.interval (period : BillingPeriod) : Set Int :=
  Set.Ico period.periodStartMs period.periodEndMs

/-- The entries bill every time of the interval, and none twice. -/
structure BilledOnce (entries : List UsageRecord) (interval : Set Int) : Prop where
  disjoint : entries.Pairwise fun left right => Disjoint left.interval right.interval
  exact : ⋃ entry ∈ entries, entry.interval = interval

def NoneShared (spans : List (Int × Int)) (interval : Set Int) : Prop :=
  ∀ left ∈ spans, ∀ right ∈ spans, left.1 ≠ right.1 →
    ∀ time ∈ interval, time ∈ Set.Ico left.1 left.2 → time ∉ Set.Ico right.1 right.2

def BillingPeriod.span (period : BillingPeriod) : Int × Int :=
  (period.periodStartMs, period.periodEndMs)

variable {time : Int}

theorem periodsCover_sound {endedAtMs coveredUntil : Int} {periods : List BillingPeriod}
    (covers : periodsCover endedAtMs periods coveredUntil = true)
    (inside : time ∈ Set.Ico coveredUntil endedAtMs) :
    ∃ period ∈ periods, time ∈ period.interval := by
  induction periods generalizing coveredUntil with
  | nil => cases covers
  | cons period rest ih =>
    obtain ⟨from_, until_⟩ := inside
    rw [periodsCover] at covers
    split at covers
    · obtain ⟨other, member, found⟩ := ih covers ⟨from_, until_⟩
      exact ⟨other, List.mem_cons_of_mem _ member, found⟩
    split at covers
    · cases covers
    rename_i starts
    by_cases within : time < period.periodEndMs
    · exact ⟨period, List.mem_cons_self, le_trans (not_lt.mp starts) from_, within⟩
    split at covers
    · omega
    · obtain ⟨other, member, found⟩ :=
        ih covers ⟨max_le from_ (not_lt.mp within), until_⟩
      exact ⟨other, List.mem_cons_of_mem _ member, found⟩

namespace ProviderExecutionEvidence

variable {evidence : ProviderExecutionEvidence} {context : MeteringContext}
  {accountId : String} {startedAt : Int}

def hasSegment (evidence : ProviderExecutionEvidence) (startedAt : Int)
    (period : BillingPeriod) : Bool :=
  max startedAt period.periodStartMs < min evidence.endedAtMs period.periodEndMs

def IsSegment (evidence : ProviderExecutionEvidence) (context : MeteringContext)
    (accountId : String) (startedAt : Int) (usage : UsageRecord) (period : BillingPeriod) :
    Prop :=
  ∃ cost, usage = evidence.segmentUsage context accountId period
    (max startedAt period.periodStartMs) (min evidence.endedAtMs period.periodEndMs) cost

variable {usage : UsageRecord} {period : BillingPeriod}

theorem IsSegment.interval (segment : evidence.IsSegment context accountId startedAt usage period) :
    usage.interval = Set.Ico startedAt evidence.endedAtMs ∩ period.interval := by
  obtain ⟨cost, rfl⟩ := segment
  exact Set.Ico_inter_Ico.symm

variable {periods : List BillingPeriod} {usages : List UsageRecord}

theorem segments_forall
    (segmented : evidence.segments context accountId startedAt periods = .ok usages) :
    List.Forall₂ (evidence.IsSegment context accountId startedAt) usages
      (periods.filter (evidence.hasSegment startedAt)) := by
  induction periods generalizing usages with
  | nil =>
    cases segmented
    exact .nil
  | cons period rest ih =>
    rw [segments] at segmented
    split at segmented
    · rename_i empty
      rw [List.filter_cons_of_neg]
      · exact ih segmented
      · rw [hasSegment, decide_eq_true_eq, not_lt]
        exact empty
    rename_i something
    have inside : evidence.hasSegment startedAt period = true :=
      decide_eq_true (not_le.mp something)
    rw [List.filter_cons_of_pos inside]
    split at segmented
    · cases segmented
    rename_i cost _
    cases remaining : evidence.segments context accountId startedAt rest with
    | error error =>
      rw [remaining] at segmented
      cases segmented
    | ok others =>
      rw [remaining] at segmented
      cases segmented
      exact .cons ⟨cost, rfl⟩ (ih remaining)

theorem mem_of_segment
    (segments : List.Forall₂ (evidence.IsSegment context accountId startedAt) usages periods)
    (member : usage ∈ usages) :
    ∃ period ∈ periods, evidence.IsSegment context accountId startedAt usage period := by
  induction segments with
  | nil => cases member
  | cons segment _ ih =>
    rcases List.mem_cons.mp member with rfl | later
    · exact ⟨_, List.mem_cons_self, segment⟩
    · obtain ⟨period, isPeriod, found⟩ := ih later
      exact ⟨period, List.mem_cons_of_mem _ isPeriod, found⟩

theorem segments_intervals
    (segmented : evidence.segments context accountId startedAt periods = .ok usages) :
    usages.map UsageRecord.interval =
      (periods.filter (evidence.hasSegment startedAt)).map fun period =>
        Set.Ico startedAt evidence.endedAtMs ∩ period.interval := by
  rw [← List.forall₂_eq_eq_eq, List.forall₂_map_left_iff, List.forall₂_map_right_iff]
  exact (segments_forall segmented).imp fun _ _ segment => segment.interval

theorem hasSegment_of_mem (inside : time ∈ Set.Ico startedAt evidence.endedAtMs)
    (inPeriod : time ∈ period.interval) : evidence.hasSegment startedAt period = true := by
  rw [hasSegment, decide_eq_true_eq, max_lt_iff, lt_min_iff, lt_min_iff]
  obtain ⟨from_, until_⟩ := inside
  obtain ⟨start, last⟩ := inPeriod
  exact ⟨⟨lt_of_le_of_lt from_ until_, lt_of_le_of_lt from_ last⟩,
    lt_of_le_of_lt start until_, lt_of_le_of_lt start last⟩

variable (segmented : evidence.segments context accountId startedAt periods = .ok usages)
include segmented

theorem segments_exact
    (covers : billingPeriodsCoverInterval periods startedAt evidence.endedAtMs = true) :
    ⋃ usage ∈ usages, usage.interval = Set.Ico startedAt evidence.endedAtMs := by
  have intervals := segments_intervals segmented
  ext time
  simp only [Set.mem_iUnion, exists_prop]
  constructor
  · rintro ⟨usage, member, inside⟩
    have isInterval := List.mem_map_of_mem (f := UsageRecord.interval) member
    rw [intervals] at isInterval
    obtain ⟨period, _, same⟩ := List.mem_map.mp isInterval
    rw [← same] at inside
    exact inside.1
  intro inside
  obtain ⟨period, member, inPeriod⟩ := periodsCover_sound covers inside
  have isSegment : Set.Ico startedAt evidence.endedAtMs ∩ period.interval ∈
      usages.map UsageRecord.interval := by
    rw [intervals]
    exact List.mem_map.mpr ⟨period,
      List.mem_filter.mpr ⟨member, hasSegment_of_mem inside inPeriod⟩, rfl⟩
  obtain ⟨usage, isUsage, same⟩ := List.mem_map.mp isSegment
  refine ⟨usage, isUsage, ?_⟩
  rw [same]
  exact ⟨inside, inPeriod⟩

theorem segments_disjoint (starts : (periods.map (·.periodStartMs)).Nodup) :
    (usages.Pairwise fun left right => Disjoint left.interval right.interval) ↔
      NoneShared (periods.map BillingPeriod.span) (Set.Ico startedAt evidence.endedAtMs) := by
  have byInterval : (usages.Pairwise fun left right =>
      Disjoint left.interval right.interval) ↔
        (usages.map UsageRecord.interval).Pairwise Disjoint := List.pairwise_map.symm
  have distinct : (periods.filter (evidence.hasSegment startedAt)).Nodup :=
    (List.Nodup.of_map _ starts).filter _
  rw [byInterval, segments_intervals segmented, List.pairwise_map]
  constructor
  · intro apart
    simp only [NoneShared, List.forall_mem_map]
    intro left isLeft right isRight different time inside inLeft inRight
    have leftSegment := List.mem_filter.mpr ⟨isLeft, hasSegment_of_mem inside inLeft⟩
    have rightSegment := List.mem_filter.mpr ⟨isRight, hasSegment_of_mem inside inRight⟩
    have disjoint := apart.forall leftSegment rightSegment fun same =>
      different (congrArg BillingPeriod.periodStartMs same)
    exact Set.disjoint_left.mp disjoint ⟨inside, inLeft⟩ ⟨inside, inRight⟩
  · intro shared
    refine distinct.pairwise_of_forall_ne fun left isLeft right isRight different => ?_
    have leftPeriod := List.mem_of_mem_filter isLeft
    have rightPeriod := List.mem_of_mem_filter isRight
    rw [Set.disjoint_left]
    rintro time ⟨inside, inLeft⟩ ⟨_, inRight⟩
    refine shared left.span (List.mem_map_of_mem leftPeriod) right.span
      (List.mem_map_of_mem rightPeriod) ?_ time inside inLeft inRight
    exact fun same => different (List.inj_on_of_nodup_map starts leftPeriod rightPeriod same)

end ProviderExecutionEvidence

theorem NoneShared.congr {left right : List (Int × Int)} {interval : Set Int}
    (same : ∀ span, span ∈ left ↔ span ∈ right) :
    NoneShared left interval ↔ NoneShared right interval := by
  simp only [NoneShared, same]

def OfAccount (accountId : String) (periods : List BillingPeriod) : Prop :=
  ∀ period ∈ periods, period.accountId = accountId ∧
    period.periodId = accountPeriodId accountId period.periodStartMs

theorem accountPeriodId_injective {accountId : String} {left right : Int}
    (same : accountPeriodId accountId left = accountPeriodId accountId right) :
    left = right := by
  obtain ⟨_, numbers⟩ := colon_right_injective (colon_not_mem_toString_int left)
    (colon_not_mem_toString_int right) same
  exact toString_int_injective numbers

namespace BillingStore

variable {store : BillingStore} {accountId : String}

theorem starts_nodup (ofAccount : OfAccount accountId store.periods)
    (distinct : (store.periods.map (·.periodId)).Nodup) :
    (store.periods.map (·.periodStartMs)).Nodup := by
  have ids : store.periods.map (·.periodId) =
      (store.periods.map (·.periodStartMs)).map (accountPeriodId accountId) := by
    rw [List.map_map]
    exact List.map_congr_left fun period member => (ofAccount period member).2
  rw [ids] at distinct
  exact distinct.of_map _

variable {period : BillingPeriod} {input : PeriodInput} {next : BillingStore}

theorem ensurePeriod_cases (ensured : store.ensurePeriod input = some (period, next)) :
    period.accountId = input.accountId ∧
      period.span = (input.periodStartMs, input.periodEndMs) ∧
        ((∃ existing ∈ store.periods, existing.accountId = input.accountId ∧
            existing.periodStartMs = input.periodStartMs ∧
              period.periodId = existing.periodId ∧
                next = store.updatePeriod existing.periodId fun _ => period) ∨
          (∀ other ∈ store.periods, other.accountId = input.accountId →
              other.periodStartMs ≠ input.periodStartMs) ∧
            period.periodId = input.periodId ∧
              next = { store with periods := store.periods ++ [period] }) := by
  unfold ensurePeriod at ensured
  dsimp only at ensured
  split at ensured
  · rename_i existing found
    have isExisting := List.find?_some found
    simp only [Bool.and_eq_true, decide_eq_true_eq] at isExisting
    obtain ⟨account, start⟩ := isExisting
    split at ensured
    · cases ensured
      refine ⟨account, ?_, .inl ⟨existing, List.mem_of_find?_eq_some found, account, start,
        rfl, rfl⟩⟩
      rw [BillingPeriod.span, start]
    · cases ensured
  · rename_i absent
    split at ensured
    · cases ensured
    · cases ensured
      refine ⟨rfl, rfl, .inr ⟨?_, rfl, rfl⟩⟩
      intro other member account start
      have isOther := List.find?_eq_none.mp absent other member
      simp [account, start] at isOther

def spansWith (store : BillingStore) (span : Int × Int) : List (Int × Int) :=
  span :: (store.periods.map BillingPeriod.span).filter fun other => other.1 ≠ span.1

theorem ensurePeriod_spans (ofAccount : OfAccount accountId store.periods)
    (inAccount : input.accountId = accountId)
    (ensured : store.ensurePeriod input = some (period, next)) (span : Int × Int) :
    span ∈ next.periods.map BillingPeriod.span ↔
      span ∈ store.spansWith (input.periodStartMs, input.periodEndMs) := by
  obtain ⟨_, isSpan, ⟨existing, member, _, start, sameId, rfl⟩ | ⟨absent, _, rfl⟩⟩ :=
    ensurePeriod_cases ensured
  · have unmoved {other : BillingPeriod} (isOther : other ∈ store.periods) :
        other.periodId = existing.periodId ↔ other.span.1 = input.periodStartMs := by
      rw [(ofAccount other isOther).2, (ofAccount existing member).2, ← start]
      exact ⟨accountPeriodId_injective, congrArg (accountPeriodId accountId)⟩
    simp only [updatePeriod, List.map_map, List.mem_map, Function.comp_apply, spansWith,
      List.mem_cons, List.mem_filter, decide_eq_true_eq]
    constructor
    · rintro ⟨other, isOther, rfl⟩
      split
      · exact .inl isSpan
      · rename_i different
        exact .inr ⟨⟨other, isOther, rfl⟩, fun same =>
          different ((unmoved isOther).mpr same)⟩
    · rintro (rfl | ⟨⟨other, isOther, rfl⟩, different⟩)
      · exact ⟨existing, member, by rw [if_pos rfl, isSpan]⟩
      · exact ⟨other, isOther, by
          rw [if_neg fun same => different ((unmoved isOther).mp same)]⟩
  · simp only [List.map_append, List.map_cons, List.map_nil, List.mem_append, List.mem_map,
      List.mem_cons, List.not_mem_nil, or_false, spansWith, List.mem_filter,
      decide_eq_true_eq]
    constructor
    · rintro (⟨other, isOther, rfl⟩ | rfl)
      · exact .inr ⟨⟨other, isOther, rfl⟩,
          absent other isOther ((ofAccount other isOther).1.trans inAccount.symm)⟩
      · exact .inl isSpan
    · rintro (rfl | ⟨⟨other, isOther, rfl⟩, _⟩)
      · exact .inr isSpan.symm
      · exact .inl ⟨other, isOther, rfl⟩

theorem ensurePeriod_ofAccount (ofAccount : OfAccount accountId store.periods)
    (inAccount : input.accountId = accountId)
    (named : input.periodId = accountPeriodId accountId input.periodStartMs)
    (ensured : store.ensurePeriod input = some (period, next)) :
    OfAccount accountId next.periods := by
  obtain ⟨account, isSpan, ⟨existing, member, _, start, sameId, rfl⟩ | ⟨_, isId, rfl⟩⟩ :=
    ensurePeriod_cases ensured
  · intro other isOther
    obtain ⟨old, isOld, rfl⟩ := List.mem_map.mp isOther
    split
    · refine ⟨account.trans inAccount, ?_⟩
      have sameStart : period.periodStartMs = input.periodStartMs := congrArg Prod.fst isSpan
      rw [sameId, sameStart, ← start]
      exact (ofAccount existing member).2
    · exact ofAccount old isOld
  intro other isOther
  rcases mem_concat.mp isOther with old | new
  · exact ofAccount other old
  · rw [new]
    have sameStart : period.periodStartMs = input.periodStartMs := congrArg Prod.fst isSpan
    exact ⟨account.trans inAccount, by rw [isId, named, sameStart]⟩

theorem ensurePeriod_kept (ensured : store.ensurePeriod input = some (period, next)) :
    next.usage = store.usage ∧ next.finalizations = store.finalizations := by
  obtain ⟨_, _, ⟨_, _, _, _, _, rfl⟩ | ⟨_, _, rfl⟩⟩ := ensurePeriod_cases ensured
  · exact ⟨rfl, rfl⟩
  · exact ⟨rfl, rfl⟩

theorem noneShared_overlapping (ofAccount : OfAccount accountId store.periods)
    (startedAtMs endedAtMs : Int) :
    NoneShared ((store.periodsOverlapping accountId startedAtMs endedAtMs).map
        BillingPeriod.span) (Set.Ico startedAtMs endedAtMs) ↔
      NoneShared (store.periods.map BillingPeriod.span) (Set.Ico startedAtMs endedAtMs) := by
  have mem_overlapping {period : BillingPeriod} :
      period ∈ store.periodsOverlapping accountId startedAtMs endedAtMs ↔
        period ∈ store.periods ∧ period.accountId = accountId ∧
          period.periodStartMs < endedAtMs ∧ startedAtMs < period.periodEndMs := by
    simp [periodsOverlapping, List.mem_insertionSort, and_assoc]
  simp only [NoneShared, List.forall_mem_map]
  constructor
  · intro shared left isLeft right isRight different time inside inLeft inRight
    have overlaps {period : BillingPeriod} (member : period ∈ store.periods)
        (inPeriod : time ∈ Set.Ico period.span.1 period.span.2) :
        period ∈ store.periodsOverlapping accountId startedAtMs endedAtMs :=
      mem_overlapping.mpr ⟨member, (ofAccount period member).1,
        lt_of_le_of_lt inPeriod.1 inside.2, lt_of_le_of_lt inside.1 inPeriod.2⟩
    exact shared left (overlaps isLeft inLeft) right (overlaps isRight inRight) different
      time inside inLeft inRight
  · intro shared left isLeft right isRight
    exact shared left (mem_overlapping.mp isLeft).1 right (mem_overlapping.mp isRight).1

end BillingStore

end Zuse.Billing
