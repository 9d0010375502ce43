import Zuse.Data.PercentEncoding

namespace Zuse.Data

open List

open String (toList toList_append toList_injective)

section

variable {left right leftRest rightRest : String}

theorem colon_lists (equal : left ++ ":" ++ leftRest = right ++ ":" ++ rightRest) :
    left.toList ++ ':' :: leftRest.toList = right.toList ++ ':' :: rightRest.toList := by
  have lists := congrArg toList equal
  simp only [toList_append, append_assoc] at lists
  exact lists

theorem colon_left_injective (leftFree : ':' ∉ left.toList) (rightFree : ':' ∉ right.toList)
    (equal : left ++ ":" ++ leftRest = right ++ ":" ++ rightRest) :
    left = right ∧ leftRest = rightRest := by
  obtain ⟨same, rest⟩ := split_at_separator leftFree rightFree (colon_lists equal)
  exact ⟨toList_injective same, toList_injective rest⟩

theorem colon_right_injective (leftFree : ':' ∉ leftRest.toList)
    (rightFree : ':' ∉ rightRest.toList)
    (equal : left ++ ":" ++ leftRest = right ++ ":" ++ rightRest) :
    left = right ∧ leftRest = rightRest := by
  have reversed := congrArg reverse (colon_lists equal)
  simp only [reverse_append, reverse_cons, append_assoc, singleton_append] at reversed
  obtain ⟨rest, same⟩ := split_at_separator (by simpa using leftFree)
    (by simpa using rightFree) reversed
  exact ⟨toList_injective (reverse_injective same), toList_injective (reverse_injective rest)⟩

end

variable {left right : String}

theorem append_left_injective {first : String}
    (equal : first ++ left = first ++ right) : left = right := by
  have lists := congrArg toList equal
  rw [toList_append, toList_append] at lists
  exact toList_injective (append_cancel_left lists)

theorem colon_not_mem_toString (number : Nat) : ':' ∉ (toString number).toList := by
  intro member
  change ':' ∈ (Nat.repr number).toList at member
  rw [Nat.toList_repr] at member
  exact absurd (Nat.isDigit_of_mem_toDigits (by decide) (by decide) member) (by decide)

theorem colon_not_mem_toString_int (number : Int) : ':' ∉ (toString number).toList := by
  cases number with
  | ofNat magnitude => exact colon_not_mem_toString magnitude
  | negSucc magnitude =>
    change ':' ∉ ("-" ++ toString (magnitude + 1)).toList
    rw [toList_append, mem_append, not_or]
    exact ⟨by decide, colon_not_mem_toString (magnitude + 1)⟩

theorem minus_not_mem_toString (number : Nat) : '-' ∉ (toString number).toList := by
  intro member
  change '-' ∈ (Nat.repr number).toList at member
  rw [Nat.toList_repr] at member
  exact absurd (Nat.isDigit_of_mem_toDigits (by decide) (by decide) member) (by decide)

theorem toString_int_injective {left right : Int} (equal : toString left = toString right) :
    left = right := by
  have signs {magnitude other : Nat}
      (same : toString magnitude = "-" ++ toString (other + 1)) : False := by
    refine minus_not_mem_toString magnitude ?_
    rw [same, toList_append]
    exact mem_append_left _ (by decide)
  cases left with
  | ofNat leftMagnitude =>
    cases right with
    | ofNat rightMagnitude => exact congrArg Int.ofNat (repr_injective equal)
    | negSucc rightMagnitude => exact (signs equal).elim
  | negSucc leftMagnitude =>
    cases right with
    | ofNat rightMagnitude => exact (signs equal.symm).elim
    | negSucc rightMagnitude =>
      have magnitudes := repr_injective (append_left_injective equal)
      rw [Nat.succ.inj magnitudes]

theorem colon_number_injective {leftNumber rightNumber : Nat}
    (equal : left ++ ":" ++ toString leftNumber = right ++ ":" ++ toString rightNumber) :
    left = right ∧ leftNumber = rightNumber := by
  obtain ⟨same, number⟩ := colon_right_injective (colon_not_mem_toString leftNumber)
    (colon_not_mem_toString rightNumber) equal
  exact ⟨same, repr_injective number⟩

theorem append_right_injective {last : String}
    (equal : left ++ last = right ++ last) : left = right := by
  have lists := congrArg toList equal
  rw [toList_append, toList_append] at lists
  exact toList_injective (append_cancel_right lists)

end Zuse.Data
