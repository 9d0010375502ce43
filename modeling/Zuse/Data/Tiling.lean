import Mathlib.Algebra.BigOperators.Intervals
import Mathlib.Algebra.Order.BigOperators.Group.Finset
import Mathlib.Data.Int.ConditionallyCompleteOrder
import Mathlib.Data.Int.Interval

namespace Zuse.Data

open List

section

variable {α : Type u} {start stop : α → Int}

/-- The spans lead from one time to another, and none of them is empty. -/
def Tiles (start stop : α → Int) : Int → List α → Int → Prop
  | opening, [], closing => opening = closing
  | opening, span :: rest, closing =>
    start span = opening ∧ opening < stop span ∧ Tiles start stop (stop span) rest closing

namespace Tiles

variable {opening closing : Int} {spans : List α}

section

variable (tiles : Tiles start stop opening spans closing)
include tiles

theorem ordered : opening ≤ closing := by
  induction spans generalizing opening with
  | nil => exact le_of_eq tiles
  | cons span rest ih => exact le_trans (le_of_lt tiles.2.1) (ih tiles.2.2)

theorem within {span : α} (member : span ∈ spans) :
    opening ≤ start span ∧ start span < stop span ∧ stop span ≤ closing := by
  induction spans generalizing opening with
  | nil => cases member
  | cons first rest ih =>
    obtain ⟨rfl, forward, later⟩ := tiles
    cases member with
    | head => exact ⟨le_refl _, forward, later.ordered⟩
    | tail _ inside =>
      obtain ⟨after, rest⟩ := ih later inside
      exact ⟨le_trans (le_of_lt forward) after, rest⟩

theorem exists_span {time : Int} (begun : opening ≤ time) (ends : time < closing) :
    ∃ span ∈ spans, start span ≤ time ∧ time < stop span := by
  induction spans generalizing opening with
  | nil =>
    obtain rfl : opening = closing := tiles
    omega
  | cons span rest ih =>
    obtain ⟨rfl, -, later⟩ := tiles
    by_cases inside : time < stop span
    · exact ⟨span, .head _, begun, inside⟩
    · obtain ⟨other, member, holds⟩ := ih later (not_lt.mp inside)
      exact ⟨other, .tail _ member, holds⟩

end

/-- A sum over the whole time is the sum of its sums over the spans. -/
theorem sum_Ico {M : Type*} [AddCommMonoid M] (tiles : Tiles start stop opening spans closing)
    (amount : Int → M) :
    ∑ time ∈ Finset.Ico opening closing, amount time =
      (spans.map fun span => ∑ time ∈ Finset.Ico (start span) (stop span), amount time).sum := by
  induction spans generalizing opening with
  | nil =>
    obtain rfl : opening = closing := tiles
    rw [Finset.Ico_self, Finset.sum_empty, map_nil, sum_nil]
  | cons span rest ih =>
    obtain ⟨rfl, forward, later⟩ := tiles
    rw [map_cons, sum_cons, ← ih later,
      ← Finset.Ico_union_Ico_eq_Ico (le_of_lt forward) later.ordered,
      Finset.sum_union (Finset.Ico_disjoint_Ico_consecutive ..)]

end Tiles

end

section

variable {α : Type u} (amount : α → Nat) {unit : Nat}

/-- Rounding down span by span loses less than a unit on each of them. -/
theorem sum_map_div (positive : 0 < unit) (spans : List α) :
    (spans.map fun span => amount span / unit).sum * unit ≤ (spans.map amount).sum ∧
      (spans.map amount).sum + spans.length ≤
        ((spans.map fun span => amount span / unit).sum + spans.length) * unit := by
  induction spans with
  | nil => simp
  | cons span rest ih =>
    simp only [map_cons, sum_cons, length_cons, Nat.add_mul, Nat.one_mul] at ih ⊢
    have whole := Nat.div_add_mod' (amount span) unit
    have part := Nat.mod_lt (amount span) positive
    omega

/-- Rounding down span by span and kind by kind gives no more than kind by kind alone. -/
theorem sum_map_sum_div_le {κ : Type*} (kinds : Finset κ) (share : κ → α → Nat) (spans : List α) :
    (spans.map fun span => ∑ kind ∈ kinds, share kind span / unit).sum ≤
      ∑ kind ∈ kinds, (spans.map (share kind)).sum / unit := by
  induction spans with
  | nil => simp
  | cons span rest ih =>
    refine le_trans (Nat.add_le_add_left ih _) ?_
    rw [← Finset.sum_add_distrib]
    exact Finset.sum_le_sum fun kind _ => Nat.div_add_div_le_add_div

end

end Zuse.Data
