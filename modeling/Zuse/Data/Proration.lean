import Mathlib.Algebra.BigOperators.Group.List.Basic
import Mathlib.Algebra.Order.Ring.Int
import Mathlib.Data.List.Chain

namespace Zuse.Data

open List Nat

/-! Charging time at a rate for each unit of it, cut into spans, where what a span leaves of
a whole charge is carried into the next one. -/

section

variable {α : Type u} (start stop : α → Int) (amount : α → Nat) (rate unit : Nat)

def spanLength (span : α) : Nat := (stop span - start span).toNat

/-- Spans in order with what the last one leaves to carry. A span that does not follow on the
one before starts with nothing carried. -/
inductive Prorated : List α → Nat → Prop
  | nil : Prorated [] 0
  | begin {spans : List α} {carried : Nat} {span : α} (before : Prorated spans carried)
      (apart : ∀ earlier ∈ spans, stop earlier < start span) (forward : start span < stop span)
      (charged : amount span = spanLength start stop span * rate / unit) :
      Prorated (spans ++ [span]) (spanLength start stop span * rate % unit)
  | extend {spans : List α} {last : α} {carried : Nat} {span : α}
      (before : Prorated (spans ++ [last]) carried) (follows : stop last = start span)
      (forward : start span < stop span)
      (charged : amount span = (spanLength start stop span * rate + carried) / unit) :
      Prorated (spans ++ [last] ++ [span]) ((spanLength start stop span * rate + carried) % unit)

/-- Spans that follow on one another, where the first one follows on none. -/
structure IsStretch (before stretch : List α) : Prop where
  nonempty : stretch ≠ []
  consecutive : stretch.IsChain fun left right => stop left = start right
  first : ∀ last ∈ before.getLast?, ∀ head ∈ stretch.head?, stop last ≠ start head

end

namespace IsStretch

variable {α : Type u} {start stop : α → Int} {before stretch : List α} {span : α}

theorem dropLast (isStretch : IsStretch start stop before (stretch ++ [span])) :
    stretch = [] ∨ IsStretch start stop before stretch ∧
      ∃ others last, stretch = others ++ [last] ∧ stop last = start span := by
  obtain rfl | ⟨others, last, same⟩ := eq_nil_or_concat stretch
  · exact .inl rfl
  rw [concat_eq_append] at same
  subst same
  obtain ⟨chain, _, adjacent⟩ := isChain_append.mp isStretch.consecutive
  refine .inr ⟨⟨concat_ne_nil _ _, chain, ?_⟩, others, last, rfl, ?_⟩
  · intro earlier isEarlier head isHead
    refine isStretch.first earlier isEarlier head ?_
    rw [List.head?_append, Option.mem_def.mp isHead]
    rfl
  · exact adjacent last (by simp) span (by simp)

end IsStretch

namespace Prorated

variable {α : Type u} {start stop : α → Int} {amount : α → Nat} {rate unit : Nat}
  {spans : List α} {carried : Nat}

theorem balanced (prorated : Prorated start stop amount rate unit spans carried)
    {before stretch : List α} (split : spans = before ++ stretch)
    (isStretch : IsStretch start stop before stretch) :
    (stretch.map amount).sum * unit + carried =
      (stretch.map (spanLength start stop)).sum * rate := by
  induction prorated generalizing stretch with
  | nil =>
    obtain ⟨_, rfl⟩ := append_eq_nil_iff.mp split.symm
    exact absurd rfl isStretch.nonempty
  | @begin spans carried span prior apart forward charged ih =>
    obtain rfl | ⟨earlier, last, same⟩ := eq_nil_or_concat stretch
    · exact absurd rfl isStretch.nonempty
    rw [concat_eq_append] at same
    subst same
    rw [← append_assoc] at split
    obtain ⟨rfl, isLast⟩ := append_inj' split rfl
    obtain rfl := singleton_inj.mp isLast
    obtain rfl | ⟨_, others, previous, rfl, follows⟩ := isStretch.dropLast
    · simp [charged, div_add_mod']
    · exact absurd follows (ne_of_lt (apart previous (by simp)))
  | @extend spans last carried span prior follows forward charged ih =>
    obtain rfl | ⟨earlier, final, same⟩ := eq_nil_or_concat stretch
    · exact absurd rfl isStretch.nonempty
    rw [concat_eq_append] at same
    subst same
    rw [← append_assoc] at split
    obtain ⟨same, isLast⟩ := append_inj' split rfl
    obtain rfl := singleton_inj.mp isLast
    obtain rfl | ⟨isShorter, _⟩ := isStretch.dropLast
    · refine absurd follows (isStretch.first last ?_ span rfl)
      rw [append_nil] at same
      rw [← same]
      simp
    have shorter := ih same isShorter
    rw [map_append, sum_append_nat, map_append, sum_append_nat,
      map_singleton, sum_singleton, map_singleton, sum_singleton,
      charged, add_mul, add_mul, add_assoc, div_add_mod']
    omega

theorem carried_lt (positive : 0 < unit)
    (prorated : Prorated start stop amount rate unit spans carried) : carried < unit := by
  cases prorated with
  | nil => exact positive
  | begin | extend => exact mod_lt _ positive

theorem earlier {later : List α}
    (prorated : Prorated start stop amount rate unit (spans ++ later) carried) :
    ∃ left, Prorated start stop amount rate unit spans left := by
  induction later using List.reverseRecOn generalizing carried with
  | nil =>
    rw [append_nil] at prorated
    exact ⟨carried, prorated⟩
  | append_singleton others span ih =>
    rw [← append_assoc] at prorated
    generalize whole : spans ++ others ++ [span] = all at prorated
    cases prorated with
    | nil => exact absurd whole (concat_ne_nil _ _)
    | begin before apart forward charged =>
      obtain ⟨rfl, _⟩ := append_inj' whole rfl
      exact ih before
    | extend before follows forward charged =>
      obtain ⟨same, _⟩ := append_inj' whole rfl
      rw [← same] at before
      exact ih before

theorem exact (positive : 0 < unit) (prorated : Prorated start stop amount rate unit spans carried)
    {before stretch after : List α} (split : spans = before ++ stretch ++ after)
    (isStretch : IsStretch start stop before stretch) :
    (stretch.map amount).sum = (stretch.map (spanLength start stop)).sum * rate / unit := by
  rw [split] at prorated
  obtain ⟨left, first⟩ := prorated.earlier
  rw [← first.balanced rfl isStretch, add_comm, add_mul_div_right _ _ positive,
    div_eq_of_lt (first.carried_lt positive), zero_add]

end Prorated

end Zuse.Data
