import Mathlib.Algebra.Order.Ring.Int

namespace Zuse.Billing

/-! What a billing period charges, as a function of its cumulative provider cost. -/

abbrev Micros := Int

inductive CloudBillingStatus where
  | active
  | grace
  | billingHold
  | ended
  | manual
  deriving DecidableEq

structure CloudBillingPolicy where
  basePriceMicros : Nat
  includedProviderCostMicros : Nat
  markupBasisPoints : Nat
  deriving DecidableEq

structure CloudBillingTotals where
  providerCostMicros : Micros
  includedUsedMicros : Micros
  includedRemainingMicros : Micros
  overageProviderCostMicros : Micros
  overageChargeMicros : Micros
  currentInvoiceEstimateMicros : Micros

structure CloudBillingLedgerDeltas where
  includedAllowanceMicros : Micros
  overageProviderCostMicros : Micros
  overageChargeMicros : Micros
  markupMicros : Micros
  absorbedMicros : Micros

def usdMicros : Nat := 1000000

def defaultOverageCapMicros : Nat := 25 * usdMicros

def defaultCloudBillingPolicy : CloudBillingPolicy where
  basePriceMicros := 40 * usdMicros
  includedProviderCostMicros := 35 * usdMicros
  markupBasisPoints := 500

def calculateCloudBillingTotals (providerCostMicros : Micros) (policy : CloudBillingPolicy) :
    CloudBillingTotals :=
  let cost := max 0 providerCostMicros
  let includedUsedMicros := min cost policy.includedProviderCostMicros
  let overageProviderCostMicros := max 0 (cost - policy.includedProviderCostMicros)
  let overageChargeMicros :=
    overageProviderCostMicros * (10000 + policy.markupBasisPoints) / 10000
  { providerCostMicros := cost
    includedUsedMicros
    includedRemainingMicros := policy.includedProviderCostMicros - includedUsedMicros
    overageProviderCostMicros
    overageChargeMicros
    currentInvoiceEstimateMicros := policy.basePriceMicros + overageChargeMicros }

def targetCharge (overageChargeMicros overageCapMicros : Micros) (manual : Bool) : Micros :=
  if manual then 0 else min overageChargeMicros overageCapMicros

def calculateCloudBillingLedgerDeltas (beforeProviderCostMicros beforeChargedMicros
    providerCostDeltaMicros overageCapMicros : Micros) (manual : Bool)
    (policy : CloudBillingPolicy) : CloudBillingLedgerDeltas :=
  let before := calculateCloudBillingTotals beforeProviderCostMicros policy
  let after := calculateCloudBillingTotals
    (beforeProviderCostMicros + providerCostDeltaMicros) policy
  let beforeCharge := max 0 beforeChargedMicros
  let target := targetCharge after.overageChargeMicros overageCapMicros manual
  let beforeMarkup := max 0 (beforeCharge - before.overageProviderCostMicros)
  let afterMarkup := max 0 (target - after.overageProviderCostMicros)
  { includedAllowanceMicros := after.includedUsedMicros - before.includedUsedMicros
    overageProviderCostMicros :=
      after.overageProviderCostMicros - before.overageProviderCostMicros
    overageChargeMicros := target - beforeCharge
    markupMicros := afterMarkup - beforeMarkup
    absorbedMicros :=
      after.overageChargeMicros - target - (before.overageChargeMicros - beforeCharge) }

/-- `Math.round` of the charge in cents, which rounds halves up. -/
def customerOverageCents (overageChargeMicros : Micros) : Int :=
  (max 0 overageChargeMicros + 5000) / 10000

section

variable (policy : CloudBillingPolicy)

theorem overageCharge_nonneg (providerCostMicros : Micros) :
    0 ≤ (calculateCloudBillingTotals providerCostMicros policy).overageChargeMicros := by
  refine Int.ediv_nonneg (Int.mul_nonneg (le_max_left _ _) ?_) (by decide)
  exact Int.add_nonneg (by decide) (Int.natCast_nonneg _)

theorem totals_of_nonneg {providerCostMicros : Micros} (nonneg : 0 ≤ providerCostMicros) :
    (calculateCloudBillingTotals providerCostMicros policy).includedUsedMicros =
        min providerCostMicros policy.includedProviderCostMicros ∧
      (calculateCloudBillingTotals providerCostMicros policy).overageProviderCostMicros =
        max 0 (providerCostMicros - policy.includedProviderCostMicros) := by
  rw [calculateCloudBillingTotals, max_eq_right nonneg]
  exact ⟨rfl, rfl⟩

theorem totals_zero :
    (calculateCloudBillingTotals 0 policy).includedUsedMicros = 0 ∧
      (calculateCloudBillingTotals 0 policy).overageProviderCostMicros = 0 ∧
      (calculateCloudBillingTotals 0 policy).overageChargeMicros = 0 := by
  have included : (0 : Int) ≤ policy.includedProviderCostMicros := Int.natCast_nonneg _
  have noOverage : max 0 (max 0 (0 : Int) - policy.includedProviderCostMicros) = 0 := by
    omega
  refine ⟨?_, noOverage, ?_⟩
  · exact min_eq_left included
  · change max 0 (max 0 (0 : Int) - policy.includedProviderCostMicros) * _ / _ = 0
    rw [noOverage, Int.zero_mul, Int.zero_ediv]

theorem targetCharge_nonneg {charge cap : Micros} (manual : Bool) (charged : 0 ≤ charge)
    (capped : 0 ≤ cap) : 0 ≤ targetCharge charge cap manual := by
  rw [targetCharge]
  split
  · exact le_refl 0
  · exact le_min charged capped

theorem targetCharge_le {charge cap : Micros} (manual : Bool) (capped : 0 ≤ cap) :
    targetCharge charge cap manual ≤ cap := by
  rw [targetCharge]
  split
  · exact capped
  · exact min_le_right _ _

end

end Zuse.Billing
