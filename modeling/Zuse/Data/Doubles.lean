import Mathlib.Algebra.Order.Field.Power
import Mathlib.Algebra.Order.Floor.Semifield
import Mathlib.Data.Int.Log
import Mathlib.Data.Nat.Cast.Order.Field
import Mathlib.Data.Rat.Floor
import Mathlib.Tactic.FieldSimp
import Mathlib.Tactic.Linarith
import Mathlib.Tactic.Positivity

namespace Zuse.Data

open Nat

/-! Numbers that are not negative, rounded to so many significant bits. Nothing overflows and
nothing underflows. -/

/-- The nearest whole number, the even one of two. -/
def nearest (number : ℚ) : ℕ :=
  let rest := number - ⌊number⌋₊
  if rest < 1 / 2 ∨ rest = 1 / 2 ∧ ⌊number⌋₊ % 2 = 0 then ⌊number⌋₊ else ⌊number⌋₊ + 1

variable {number : ℚ} {whole : ℕ}

theorem le_nearest (below : (whole : ℚ) ≤ number) : whole ≤ nearest number := by
  have floor : whole ≤ ⌊number⌋₊ := le_floor below
  unfold nearest
  dsimp only
  split <;> omega

theorem nearest_natCast (whole : ℕ) : nearest whole = whole := by
  simp [nearest]

theorem nearest_le (nonneg : 0 ≤ number) : (nearest number : ℚ) ≤ number + 1 / 2 := by
  have floor := floor_le nonneg
  unfold nearest
  dsimp only
  split
  · linarith
  · next above =>
      have half : 1 / 2 ≤ number - ⌊number⌋₊ := not_lt.mp fun less => above (.inl less)
      push_cast
      linarith

theorem nearest_le_natCast (nonneg : 0 ≤ number)
    (above : number < whole) : nearest number ≤ whole := by
  have floor : ⌊number⌋₊ < whole := (floor_lt nonneg).mpr above
  unfold nearest
  dsimp only
  split <;> omega

section

variable (bits : ℕ)

/-- The distance of the rounded numbers about a number. -/
def unitOf (number : ℚ) : ℚ := 2 ^ (Int.log 2 number + 1 - bits)

def rounded (number : ℚ) : ℚ := nearest (number / unitOf bits number) * unitOf bits number

theorem unitOf_pos (number : ℚ) : 0 < unitOf bits number := by
  rw [unitOf]
  positivity

theorem unitOf_le (positive : 0 < number) : unitOf bits number ≤ 2 * (number / 2 ^ bits) := by
  have power : (2 : ℚ) ^ Int.log 2 number ≤ number := by
    exact_mod_cast Int.zpow_log_le_self one_lt_two positive
  rw [unitOf, zpow_sub₀ two_ne_zero, zpow_add₀ two_ne_zero, zpow_one, zpow_natCast,
    mul_comm, mul_div_assoc]
  gcongr

theorem rounded_le (positive : 0 < number) : rounded bits number ≤ number + number / 2 ^ bits := by
  have unit := unitOf_pos bits number
  have half := nearest_le (div_nonneg positive.le unit.le)
  calc rounded bits number
      ≤ (number / unitOf bits number + 1 / 2) * unitOf bits number := by
        rw [rounded]
        gcongr
    _ = number + unitOf bits number / 2 := by
        field_simp
    _ ≤ number + number / 2 ^ bits := by
        have := unitOf_le bits positive
        linarith

variable {bits}

/-- A whole number of units is its own rounding. -/
theorem rounded_of_units
    (units : number = whole * unitOf bits number) : rounded bits number = number := by
  have count : number / unitOf bits number = whole :=
    (div_eq_iff (unitOf_pos bits number).ne').mpr units
  rw [rounded, count, nearest_natCast, ← units]

theorem exists_units (number : ℚ) (whole : ℕ) {scale : ℤ}
    (coarse : Int.log 2 number + 1 - bits ≤ scale) :
    ∃ count : ℕ, (whole * 2 ^ scale : ℚ) = count * unitOf bits number := by
  obtain ⟨shift, same⟩ := Int.eq_ofNat_of_zero_le (sub_nonneg.mpr coarse)
  refine ⟨whole * 2 ^ shift, ?_⟩
  rw [unitOf, cast_mul, cast_pow, cast_ofNat, mul_assoc, ← zpow_natCast,
    ← zpow_add₀ two_ne_zero, ← same, sub_add_cancel]

/-- What has no more significant bits is its own rounding. -/
theorem rounded_eq_self {whole : ℕ} (few : whole < 2 ^ bits) (scale : ℤ) :
    rounded bits (whole * 2 ^ scale) = whole * 2 ^ scale := by
  obtain rfl | positive := Nat.eq_zero_or_pos whole
  · simp [rounded, nearest]
  have below : Int.log 2 (whole * 2 ^ scale : ℚ) < bits + scale := by
    refine (Int.lt_zpow_iff_log_lt one_lt_two (by positivity)).mp ?_
    rw [cast_ofNat, zpow_add₀ two_ne_zero, zpow_natCast]
    gcongr
    exact_mod_cast few
  have coarse : Int.log 2 (whole * 2 ^ scale : ℚ) + 1 - bits ≤ scale := by omega
  obtain ⟨count, units⟩ := exists_units _ whole coarse
  exact rounded_of_units units

theorem le_rounded_of_units {below : ℚ}
    (units : below = whole * unitOf bits number) (least : below ≤ number) :
    below ≤ rounded bits number := by
  have unit := unitOf_pos bits number
  rw [units, ← le_div_iff₀ unit] at least
  rw [units, rounded]
  gcongr
  exact le_nearest least

theorem le_rounded {whole : ℕ} (few : whole < 2 ^ bits) (scale : ℤ) {number : ℚ}
    (least : whole * 2 ^ scale ≤ number) : whole * 2 ^ scale ≤ rounded bits number := by
  obtain rfl | positive := Nat.eq_zero_or_pos whole
  · rw [cast_zero, zero_mul, rounded]
    exact mul_nonneg (cast_nonneg _) (unitOf_pos bits number).le
  have above : (0 : ℚ) < number := lt_of_lt_of_le (by positivity) least
  by_cases coarse : Int.log 2 number + 1 - bits ≤ scale
  · obtain ⟨count, units⟩ := exists_units _ whole coarse
    exact le_rounded_of_units units least
  -- A power of two lies between the two numbers, and it is a number of units.
  have some : 0 < bits := pos_of_ne_zero fun none => by
    rw [none, pow_zero] at few
    omega
  have finer : Int.log 2 number + 1 - bits ≤ Int.log 2 number := by omega
  obtain ⟨count, units⟩ := exists_units number 1 finer
  have power : (2 : ℚ) ^ Int.log 2 number ≤ number := by
    exact_mod_cast Int.zpow_log_le_self one_lt_two above
  rw [cast_one, one_mul] at units
  refine le_trans ?_ (le_rounded_of_units units power)
  calc (whole * 2 ^ scale : ℚ)
      ≤ 2 ^ (bits : ℤ) * 2 ^ scale := by
        gcongr
        exact_mod_cast few.le
    _ = 2 ^ (bits + scale) := (zpow_add₀ two_ne_zero ..).symm
    _ ≤ 2 ^ Int.log 2 number := zpow_le_zpow_right₀ one_le_two (by omega)

theorem rounded_natCast (few : whole < 2 ^ bits) : rounded bits whole = whole := by
  have same := rounded_eq_self few 0
  rwa [zpow_zero, mul_one] at same

/-- A rounded quotient is rounded down to the quotient, as long as what is divided is exact. -/
theorem floor_rounded_div {dividend divisor : ℕ} (few : dividend < 2 ^ bits)
    (positive : 0 < divisor) :
    ⌊rounded bits (dividend / divisor)⌋₊ = dividend / divisor := by
  have less : dividend / divisor < 2 ^ bits := lt_of_le_of_lt (div_le_self ..) few
  have below : ((dividend / divisor : ℕ) : ℚ) ≤ rounded bits (dividend / divisor : ℚ) := by
    have least := @le_rounded bits _ less 0 (dividend / divisor)
    rw [zpow_zero, mul_one] at least
    exact least cast_div_le
  refine (floor_eq_iff (le_trans (cast_nonneg _) below)).mpr ⟨below, ?_⟩
  obtain rfl | some := Nat.eq_zero_or_pos dividend
  · simp [rounded, nearest]
  have next : dividend + 1 ≤ (dividend / divisor + 1) * divisor := by
    have := lt_div_mul_add (a := dividend) positive
    rw [add_mul, one_mul]
    omega
  have small : (dividend / divisor : ℚ) / 2 ^ bits < 1 / divisor := by
    rw [div_div, mul_comm, ← div_div]
    gcongr
    rw [div_lt_one (by positivity)]
    exact_mod_cast few
  calc rounded bits (dividend / divisor)
      ≤ dividend / divisor + dividend / divisor / 2 ^ bits := rounded_le bits (by positivity)
    _ < dividend / divisor + 1 / divisor := by gcongr
    _ = (dividend + 1) / divisor := (add_div ..).symm
    _ ≤ (dividend / divisor : ℕ) + 1 := by
        rw [div_le_iff₀ (by positivity)]
        exact_mod_cast next

end

section

variable (bits : ℕ)

/-- The rounding of a whole number, which is whole. -/
def roundedNat (whole : ℕ) : ℕ := ⌊rounded bits whole⌋₊

variable {bits}

theorem exists_rounded (whole : ℕ) :
    ∃ count scale : ℕ, count ≤ 2 ^ bits ∧ rounded bits whole = (count * 2 ^ scale : ℕ) := by
  by_cases few : whole < 2 ^ bits
  · exact ⟨whole, 0, few.le, by rw [rounded_natCast few, pow_zero, mul_one]⟩
  have positive : 0 < whole := lt_of_lt_of_le (Nat.two_pow_pos _) (not_lt.mp few)
  have wide : (bits : ℤ) ≤ Int.log 2 (whole : ℚ) := by
    rw [Int.log_natCast]
    exact_mod_cast (le_log_iff_pow_le one_lt_two positive.ne').mpr (not_lt.mp few)
  obtain ⟨scale, same⟩ :=
    Int.eq_ofNat_of_zero_le (show 0 ≤ Int.log 2 (whole : ℚ) + 1 - bits by omega)
  refine ⟨nearest (whole / unitOf bits whole), scale, ?_, ?_⟩
  · refine nearest_le_natCast (div_nonneg (cast_nonneg _) (unitOf_pos ..).le) ?_
    rw [div_lt_iff₀ (unitOf_pos ..), cast_pow, cast_ofNat, unitOf, ← zpow_natCast,
      ← zpow_add₀ two_ne_zero, add_sub_cancel]
    exact_mod_cast Int.lt_zpow_succ_log_self one_lt_two (whole : ℚ)
  · rw [rounded, unitOf, same]
    push_cast
    rfl

theorem cast_roundedNat (whole : ℕ) : (roundedNat bits whole : ℚ) = rounded bits whole := by
  obtain ⟨count, scale, -, same⟩ := @exists_rounded bits whole
  rw [roundedNat, same, floor_natCast]

theorem roundedNat_eq_self (few : whole < 2 ^ bits) : roundedNat bits whole = whole := by
  rw [roundedNat, rounded_natCast few, floor_natCast]

variable {count : ℕ}

theorem le_roundedNat (few : count < 2 ^ bits) (scale : ℕ)
    (least : count * 2 ^ scale ≤ whole) : count * 2 ^ scale ≤ roundedNat bits whole := by
  have below := @le_rounded bits _ few scale whole (by exact_mod_cast least)
  rw [← cast_roundedNat] at below
  exact_mod_cast below

theorem roundedNat_roundedNat (some : 0 < bits) (whole : ℕ) :
    roundedNat bits (roundedNat bits whole) = roundedNat bits whole := by
  obtain ⟨count, scale, few, same⟩ := @exists_rounded bits whole
  have kept : rounded bits (count * 2 ^ scale : ℕ) = (count * 2 ^ scale : ℕ) := by
    obtain less | rfl := lt_or_eq_of_le few
    · exact_mod_cast rounded_eq_self less scale
    · have one := @rounded_eq_self bits 1 (Nat.one_lt_two_pow some.ne') (bits + scale : ℕ)
      rw [cast_one, one_mul, zpow_natCast] at one
      rw [← pow_add]
      exact_mod_cast one
  rw [roundedNat, cast_roundedNat, same, kept, roundedNat, same]

def roundedSum (bits : ℕ) (terms : List ℕ) : ℕ :=
  terms.foldl (fun total term => roundedNat bits (total + term)) 0

theorem roundedSum_eq {terms : List ℕ} (few : terms.sum < 2 ^ bits) :
    roundedSum bits terms = terms.sum := by
  have total (start : ℕ) (few : start + terms.sum < 2 ^ bits) :
      terms.foldl (fun total term => roundedNat bits (total + term)) start = start + terms.sum := by
    induction terms generalizing start with
    | nil => rfl
    | cons term rest ih =>
      rw [List.sum_cons, ← add_assoc] at few ⊢
      have first : start + term < 2 ^ bits := lt_of_le_of_lt (Nat.le_add_right ..) few
      rw [List.foldl_cons, roundedNat_eq_self first]
      exact ih (lt_of_le_of_lt (Nat.le_add_left ..) ‹_›) (start + term) few
  rw [roundedSum, total 0 (by rwa [zero_add]), zero_add]

/-- The whole numbers about another that end in so many zeros, the nearer one first. -/
def endingIn (zeros whole : ℕ) : List ℕ :=
  let low := whole / 10 ^ zeros * 10 ^ zeros
  if 2 * (whole - low) ≤ 10 ^ zeros then [low, low + 10 ^ zeros] else [low + 10 ^ zeros, low]

/-- The number of fewest digits that is rounded to another one. -/
def fewestDigits (bits whole : ℕ) : ℕ :=
  let candidates := (List.range (Nat.toDigits 10 whole).length).reverse.flatMap fun zeros =>
    endingIn zeros whole
  (candidates.find? fun candidate => roundedNat bits candidate = whole).getD whole

theorem roundedNat_fewestDigits (rounds : roundedNat bits whole = whole) :
    roundedNat bits (fewestDigits bits whole) = whole := by
  unfold fewestDigits
  dsimp only
  cases found : List.find? _ _ with
  | none => exact rounds
  | some candidate =>
    have chosen := List.find?_some found
    exact of_decide_eq_true chosen

/-- A number below another of few significant bits is below it in its fewest digits. -/
theorem fewestDigits_lt {scale : ℕ} (rounds : roundedNat bits whole = whole)
    (few : count < 2 ^ bits) (below : whole < count * 2 ^ scale) :
    fewestDigits bits whole < count * 2 ^ scale := by
  by_contra above
  have least := le_roundedNat few scale (not_lt.mp above)
  rw [roundedNat_fewestDigits rounds] at least
  omega

end

end Zuse.Data
