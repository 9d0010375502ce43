import Mathlib.Tactic.Linarith
import Zuse.Data.TransitionSystem
import Zuse.Billing.LedgerEntries

namespace Zuse.Billing

open Zuse.Data List Table Int

namespace BillingStore

variable {store : BillingStore}

def deltaAmounts (status : CloudBillingStatus) (deltas : CloudBillingLedgerDeltas) :
    List (LedgerKind × Micros) :=
  [(.includedAllowance, deltas.includedAllowanceMicros),
    (.overageProviderCost, deltas.overageProviderCostMicros),
    (.overageCharge, deltas.overageChargeMicros), (.markup, deltas.markupMicros),
    (absorbedKind status, deltas.absorbedMicros)]

section

variable (status : CloudBillingStatus) (deltas : CloudBillingLedgerDeltas)

theorem deltaAmounts_distinct : ((deltaAmounts status deltas).map Prod.fst).Nodup := by
  simp only [deltaAmounts, absorbedKind, map_cons, map_nil]
  split <;> decide

theorem deltaAmounts_financial :
    ∀ amount ∈ deltaAmounts status deltas, amount.1 ≠ .providerCost := by
  intro amount member
  simp only [deltaAmounts, mem_cons, not_mem_nil, or_false] at member
  rcases member with rfl | rfl | rfl | rfl | rfl
  · rintro ⟨⟩
  · rintro ⟨⟩
  · rintro ⟨⟩
  · rintro ⟨⟩
  · change absorbedKind status ≠ .providerCost
    rw [absorbedKind]
    split <;> decide

end

theorem insertDeltas_eq (usage : UsageRecord) (status : CloudBillingStatus)
    (deltas : CloudBillingLedgerDeltas) :
    store.insertDeltas usage status deltas = (deltaAmounts status deltas).foldl
      (fun next amount => next.insertFinancial usage amount.1 amount.2) store := rfl

def usageDeltas (store : BillingStore) (usage : UsageRecord) (period : BillingPeriod) :
    CloudBillingLedgerDeltas :=
  calculateCloudBillingLedgerDeltas (store.ledgerTotal usage.periodId .providerCost)
    (store.ledgerTotal usage.periodId .overageCharge) usage.providerCostMicros
    period.overageCapMicros (period.status = .manual) period.policy

def usageEntries (store : BillingStore) (usage : UsageRecord) (period : BillingPeriod) :
    List LedgerEntry :=
  kindEntry usage .providerCost usage.providerCostMicros ::
    kindEntries usage (deltaAmounts period.status (store.usageDeltas usage period))

/-- The tables with a new usage entry, before the charge is exported. -/
def withUsage (store : BillingStore) (usage : UsageRecord) (period : BillingPeriod) :
    BillingStore :=
  { store with
    usage := store.usage ++ [usage]
    ledger := store.ledger ++ store.usageEntries usage period }

variable {period : BillingPeriod} {usage : UsageRecord}

theorem recordUsage_new (ledgered : ∀ entry ∈ store.ledger, IsLedgered store.usage entry)
    (found : store.period? usage.periodId = some period)
    (free : ∀ stored ∈ store.usage, stored.conflicts usage = false) :
    store.recordUsage usage = some (true, (store.withUsage usage period).exportCharge period) := by
  have absent (kind : LedgerKind) : ¬store.HasEntry kind usage.entryId := by
    rintro ⟨entry, member, _, isSource⟩
    obtain ⟨other, isUsage, source, _⟩ := (ledgered entry member).ofUsage
    have noConflict := free other isUsage
    rw [UsageRecord.conflicts, decide_eq_true (source.symm.trans isSource)] at noConflict
    cases noConflict
  have grown : ∀ entry ∈ store.ledger, IsLedgered (store.usage ++ [usage]) entry :=
    fun entry member => (ledgered entry member).mono (subset_append_left _ _)
  have isLast : usage ∈ store.usage ++ [usage] :=
    mem_append_right _ mem_cons_self
  have financial := deltaAmounts_financial period.status (store.usageDeltas usage period)
  have costed := ({ store with usage := store.usage ++ [usage] } :
    BillingStore).insertLedger_kindEntry grown (absent .providerCost) usage.providerCostMicros
  rw [recordUsage, found, Option.map_some, insertNew_of_free free]
  dsimp only
  rw [costEntry_eq, costed, insertDeltas_eq, insertFinancials]
  · rw [← append_cons]
    rfl
  · intro entry member
    rcases mem_concat.mp member with old | rfl
    · exact grown entry old
    · exact kindEntry_isLedgered isLast _ _
  · exact isLast
  · exact deltaAmounts_distinct _ _
  · exact financial
  rintro amount isDelta ⟨entry, member, isKind, isSource⟩
  rcases mem_concat.mp member with old | new
  · exact absent amount.1 ⟨entry, old, isKind, isSource⟩
  · rw [new] at isKind
    exact financial amount isDelta isKind.symm

def addedAmount (usage : UsageRecord) (status : CloudBillingStatus)
    (deltas : CloudBillingLedgerDeltas) : LedgerKind → Micros
  | .providerCost => usage.providerCostMicros
  | .includedAllowance => deltas.includedAllowanceMicros
  | .overageProviderCost => deltas.overageProviderCostMicros
  | .overageCharge => deltas.overageChargeMicros
  | .markup => deltas.markupMicros
  | .manualEntitlementCredit => if status = .manual then deltas.absorbedMicros else 0
  | .overshootAbsorbed => if status = .manual then 0 else deltas.absorbedMicros

theorem sum_deltaAmounts (status : CloudBillingStatus) (deltas : CloudBillingLedgerDeltas)
    (usage : UsageRecord) {kind : LedgerKind} (financial : kind ≠ .providerCost) :
    (((deltaAmounts status deltas).filter fun amount => amount.1 = kind).map Prod.snd).sum =
      addedAmount usage status deltas kind := by
  cases kind with
  | providerCost => exact absurd rfl financial
  | manualEntitlementCredit | overshootAbsorbed | _ =>
    simp only [deltaAmounts, addedAmount, absorbedKind]
    split <;> simp

theorem ledgerTotal_withUsage (usage : UsageRecord) (period : BillingPeriod)
    (periodId : String) (kind : LedgerKind) :
    (store.withUsage usage period).ledgerTotal periodId kind =
      store.ledgerTotal periodId kind +
        if usage.periodId = periodId then
          addedAmount usage period.status (store.usageDeltas usage period) kind
        else 0 := by
  rw [ledgerTotal, withUsage, total_append, usageEntries, total_cons,
    total_kindEntries, ledgerTotal]
  by_cases inPeriod : usage.periodId = periodId
  · by_cases isCost : kind = .providerCost
    · subst isCost
      have none : (deltaAmounts period.status (store.usageDeltas usage period)).filter
          (fun amount => amount.1 = .providerCost) = [] := by
        rw [filter_eq_nil_iff]
        intro amount member
        simpa using deltaAmounts_financial _ _ amount member
      simp [kindEntry, inPeriod, addedAmount, none]
    · rw [sum_deltaAmounts _ _ usage isCost]
      simp [kindEntry, inPeriod, Ne.symm isCost]
  · simp [kindEntry, inPeriod]

def providerCost (store : BillingStore) (periodId : String) : Micros :=
  Table.total (fun usage : UsageRecord => usage.periodId = periodId)
    (·.providerCostMicros) store.usage

theorem providerCost_withUsage (usage : UsageRecord) (period : BillingPeriod) (periodId : String) :
    (store.withUsage usage period).providerCost periodId =
      store.providerCost periodId +
        if usage.periodId = periodId then (usage.providerCostMicros : Micros) else 0 := by
  rw [providerCost, withUsage, total_concat, providerCost]
  simp only [decide_eq_true_eq]

theorem providerCost_nonneg (store : BillingStore) (periodId : String) :
    0 ≤ store.providerCost periodId :=
  total_nonneg fun _ _ => natCast_nonneg _

def outboxCount (outbox : List OutboxEntry) (periodId : String) : Nat :=
  (outbox.filter fun entry => entry.periodId = periodId).length

def IsNumbered (outbox : List OutboxEntry) (entry : OutboxEntry) : Prop :=
  ∃ number ≤ outboxCount outbox entry.periodId,
    entry.outboxId = "outbox:" ++ entry.periodId ++ ":" ++ toString number ∧
      entry.idempotencyKey = entry.periodId ++ ":" ++ toString number

theorem outboxCount_concat (outbox : List OutboxEntry) (entry : OutboxEntry) (periodId : String) :
    outboxCount (outbox ++ [entry]) periodId =
      outboxCount outbox periodId + if entry.periodId = periodId then 1 else 0 := by
  rw [outboxCount, outboxCount]
  split <;> simp_all

theorem exportCharge_spec (store : BillingStore)
    (numbered : ∀ entry ∈ store.outbox, IsNumbered store.outbox entry) (period : BillingPeriod) :
    ∃ outbox, store.exportCharge period = { store with outbox } ∧
      (∀ entry ∈ outbox, IsNumbered outbox entry) ∧
      (∀ entry ∈ outbox, entry ∈ store.outbox ∨ entry.periodId = period.periodId) ∧
      ∀ periodId, Table.total (fun entry : OutboxEntry => entry.periodId = periodId)
          (·.amountCents) outbox =
        if period.periodId = periodId then
          customerOverageCents (store.ledgerTotal periodId .overageCharge)
        else store.outboxTotal periodId := by
  rw [exportCharge]
  split
  · rename_i settled
    refine ⟨store.outbox, rfl, numbered, fun entry member => .inl member, fun periodId => ?_⟩
    split
    · rename_i same
      subst same
      exact (eq_of_sub_eq_zero settled).symm
    · rfl
  let entry : OutboxEntry :=
    { outboxId := "outbox:" ++ period.periodId ++ ":" ++
        toString (outboxCount store.outbox period.periodId + 1)
      periodId := period.periodId
      provider := period.billingProvider
      amountCents := customerOverageCents (store.ledgerTotal period.periodId .overageCharge) -
        store.outboxTotal period.periodId
      idempotencyKey := period.periodId ++ ":" ++
        toString (outboxCount store.outbox period.periodId + 1) }
  have free : ∀ stored ∈ store.outbox, stored.conflicts entry = false := by
    intro stored member
    obtain ⟨number, bounded, isId, isKey⟩ := numbered stored member
    have different : ¬(stored.periodId = entry.periodId ∧
        number = outboxCount store.outbox period.periodId + 1) := by
      rintro ⟨same, next⟩
      have inPeriod : stored.periodId = period.periodId := same
      rw [inPeriod] at bounded
      omega
    by_contra conflicts
    rw [Bool.not_eq_false, OutboxEntry.conflicts, Bool.or_eq_true] at conflicts
    rcases conflicts with sameId | sameKey
    · have names := of_decide_eq_true sameId
      rw [isId] at names
      obtain ⟨samePeriod, sameNumber⟩ := colon_number_injective names
      exact different ⟨by simpa using samePeriod, sameNumber⟩
    · have names := of_decide_eq_true (Bool.and_eq_true_iff.mp sameKey).2
      rw [isKey] at names
      exact different (colon_number_injective names)
  have inserted := insertNew_of_free free
  refine ⟨store.outbox ++ [entry], ?_, ?_, ?_, ?_⟩
  · exact congrArg (fun result : Bool × List OutboxEntry =>
      { store with outbox := result.2 }) inserted
  · intro stored member
    rcases mem_concat.mp member with old | rfl
    · obtain ⟨number, bounded, names⟩ := numbered stored old
      refine ⟨number, le_trans bounded ?_, names⟩
      rw [outboxCount_concat]
      exact Nat.le_add_right _ _
    · refine ⟨outboxCount store.outbox period.periodId + 1, ?_, rfl, rfl⟩
      rw [outboxCount_concat, if_pos rfl]
  · intro stored member
    rcases mem_concat.mp member with old | rfl
    · exact .inl old
    · exact .inr rfl
  intro periodId
  rw [total_concat]
  change store.outboxTotal periodId + _ = _
  simp only [entry, decide_eq_true_eq]
  split
  · rename_i same
    subst same
    omega
  · exact add_zero _

/-- What the entries of a period sum to, as functions of its provider cost and its
charge. -/
structure Balanced (store : BillingStore) (period : BillingPeriod) : Prop where
  included : store.ledgerTotal period.periodId .includedAllowance =
    min (store.providerCost period.periodId) period.policy.includedProviderCostMicros
  overage : store.ledgerTotal period.periodId .overageProviderCost =
    max 0 (store.providerCost period.periodId - period.policy.includedProviderCostMicros)
  absorbed : store.ledgerTotal period.periodId .overageCharge +
      (store.ledgerTotal period.periodId .manualEntitlementCredit +
        store.ledgerTotal period.periodId .overshootAbsorbed) =
    (calculateCloudBillingTotals (store.providerCost period.periodId)
      period.policy).overageChargeMicros
  markup : store.ledgerTotal period.periodId .markup =
    max 0 (store.ledgerTotal period.periodId .overageCharge -
      store.ledgerTotal period.periodId .overageProviderCost)
  cents : store.outboxTotal period.periodId =
    customerOverageCents (store.ledgerTotal period.periodId .overageCharge)
  nonneg : 0 ≤ store.ledgerTotal period.periodId .overageCharge
  capped : store.ledgerTotal period.periodId .overageCharge ≤ period.overageCapMicros

def charge (store : BillingStore) (period : BillingPeriod) : Micros :=
  targetCharge
    (calculateCloudBillingTotals (store.providerCost period.periodId)
      period.policy).overageChargeMicros
    period.overageCapMicros (period.status = .manual)

structure Sound (store : BillingStore) : Prop where
  ledgered : ∀ entry ∈ store.ledger, IsLedgered store.usage entry
  numbered : ∀ entry ∈ store.outbox, IsNumbered store.outbox entry
  owned : ∀ usage ∈ store.usage, (store.period? usage.periodId).isSome
  exported : ∀ entry ∈ store.outbox, (store.period? entry.periodId).isSome
  cost : ∀ periodId, store.ledgerTotal periodId .providerCost = store.providerCost periodId
  balanced : ∀ period ∈ store.periods, store.Balanced period
  distinct : (store.periods.map (·.periodId)).Nodup

variable {periodId : String}

theorem period?_some (found : store.period? periodId = some period) :
    period ∈ store.periods ∧ period.periodId = periodId := by
  have isPeriod := List.find?_some found
  exact ⟨mem_of_find?_eq_some found, of_decide_eq_true isPeriod⟩

variable {next : BillingStore}

theorem Balanced.frame (balanced : store.Balanced period)
    (cost : next.providerCost period.periodId = store.providerCost period.periodId)
    (ledger : ∀ kind, next.ledgerTotal period.periodId kind =
      store.ledgerTotal period.periodId kind)
    (outbox : next.outboxTotal period.periodId = store.outboxTotal period.periodId) :
    next.Balanced period where
  included := by rw [ledger, cost]; exact balanced.included
  overage := by rw [ledger, cost]; exact balanced.overage
  absorbed := by rw [ledger, ledger, ledger, cost]; exact balanced.absorbed
  markup := by rw [ledger, ledger, ledger]; exact balanced.markup
  cents := by rw [ledger, outbox]; exact balanced.cents
  nonneg := by rw [ledger]; exact balanced.nonneg
  capped := by rw [ledger]; exact balanced.capped

theorem balanced_withUsage (cost : store.ledgerTotal period.periodId .providerCost =
      store.providerCost period.periodId) (balanced : store.Balanced period)
    (inPeriod : usage.periodId = period.periodId) (next : BillingStore)
    (usages : next.usage = (store.withUsage usage period).usage)
    (ledger : next.ledger = (store.withUsage usage period).ledger)
    (cents : next.outboxTotal period.periodId =
      customerOverageCents (next.ledgerTotal period.periodId .overageCharge)) :
    next.Balanced period ∧
      next.ledgerTotal period.periodId .overageCharge = next.charge period := by
  have ledgers (kind : LedgerKind) : next.ledgerTotal period.periodId kind =
      store.ledgerTotal period.periodId kind +
        addedAmount usage period.status (store.usageDeltas usage period) kind := by
    rw [ledgerTotal, ledger, ← ledgerTotal, ledgerTotal_withUsage, if_pos inPeriod]
  have costs : next.providerCost period.periodId =
      store.providerCost period.periodId + usage.providerCostMicros := by
    rw [providerCost, usages, ← providerCost, providerCost_withUsage, if_pos inPeriod]
  have before := providerCost_nonneg store period.periodId
  have after : 0 ≤ store.providerCost period.periodId + (usage.providerCostMicros : Micros) :=
    add_nonneg before (natCast_nonneg _)
  obtain ⟨includedBefore, overageBefore⟩ := totals_of_nonneg period.policy before
  obtain ⟨includedAfter, overageAfter⟩ := totals_of_nonneg period.policy after
  have charged : next.ledgerTotal period.periodId .overageCharge = next.charge period := by
    rw [ledgers, charge, costs, usageDeltas, inPeriod, cost,
      calculateCloudBillingLedgerDeltas, max_eq_right balanced.nonneg]
    exact add_sub_cancel _ _
  have overage : next.ledgerTotal period.periodId .overageProviderCost =
      max 0 (next.providerCost period.periodId - period.policy.includedProviderCostMicros) := by
    rw [ledgers, balanced.overage, usageDeltas, inPeriod, cost,
      calculateCloudBillingLedgerDeltas, overageBefore, overageAfter, costs]
    exact add_sub_cancel _ _
  refine ⟨⟨?_, overage, ?_, ?_, cents, ?_, ?_⟩, charged⟩
  · rw [ledgers, balanced.included, usageDeltas, inPeriod, cost,
      calculateCloudBillingLedgerDeltas, includedBefore, includedAfter, costs]
    exact add_sub_cancel _ _
  · have absorbs : (store.usageDeltas usage period).absorbedMicros =
        (calculateCloudBillingTotals (next.providerCost period.periodId)
            period.policy).overageChargeMicros - next.charge period -
          ((calculateCloudBillingTotals (store.providerCost period.periodId)
            period.policy).overageChargeMicros -
              store.ledgerTotal period.periodId .overageCharge) := by
      rw [usageDeltas, inPeriod, cost, calculateCloudBillingLedgerDeltas,
        max_eq_right balanced.nonneg, charge, costs]
    have added : addedAmount usage period.status (store.usageDeltas usage period)
          .manualEntitlementCredit +
        addedAmount usage period.status (store.usageDeltas usage period)
          .overshootAbsorbed = (store.usageDeltas usage period).absorbedMicros := by
      simp only [addedAmount]
      split
      · exact add_zero _
      · exact zero_add _
    have absorbed := balanced.absorbed
    rw [charged, ledgers .manualEntitlementCredit, ledgers .overshootAbsorbed]
    linarith only [absorbed, added, absorbs]
  · have marks : (store.usageDeltas usage period).markupMicros =
        max 0 (next.charge period - next.ledgerTotal period.periodId .overageProviderCost) -
          store.ledgerTotal period.periodId .markup := by
      rw [balanced.markup, balanced.overage, overage, usageDeltas, inPeriod, cost,
        calculateCloudBillingLedgerDeltas, max_eq_right balanced.nonneg, charge, costs,
        overageBefore, overageAfter]
    rw [ledgers .markup, addedAmount, marks, charged]
    exact add_sub_cancel _ _
  · rw [charged]
    exact targetCharge_nonneg _ (overageCharge_nonneg _ _) (natCast_nonneg _)
  · rw [charged]
    exact targetCharge_le _ (natCast_nonneg _)

/-- The charge of the period is the one that its cost, cap and status ask for. -/
def IsCharged (store : BillingStore) (period : BillingPeriod) : Prop :=
  store.ledgerTotal period.periodId .overageCharge = store.charge period

structure SameTerms (store next : BillingStore) : Prop where
  events : next.events = store.events
  pairs : next.pairs = store.pairs
  periods : next.periods = store.periods
  finalizations : next.finalizations = store.finalizations
  capCommands : next.capCommands = store.capCommands

theorem SameTerms.period? (same : store.SameTerms next) (periodId : String) :
    next.period? periodId = store.period? periodId := by
  rw [BillingStore.period?, same.periods, BillingStore.period?]

variable {last : BillingStore}

theorem SameTerms.trans (first : store.SameTerms next)
    (second : next.SameTerms last) : store.SameTerms last where
  events := second.events.trans first.events
  pairs := second.pairs.trans first.pairs
  periods := second.periods.trans first.periods
  finalizations := second.finalizations.trans first.finalizations
  capCommands := second.capCommands.trans first.capCommands

/-- The usage table with these entries, without those that conflict. -/
def insertUsages (recorded usages : List UsageRecord) : List UsageRecord :=
  usages.foldl (fun rows usage => (Table.insertNew UsageRecord.conflicts rows usage).2) recorded

/-- What recording entries leaves: the identities, and the charge of the periods that got
an entry or had it before. -/
structure Accumulates (store next : BillingStore) : Prop where
  sound : next.Sound
  periods : next.periods = store.periods
  grows : store.usage ⊆ next.usage
  charged : ∀ period ∈ store.periods, store.IsCharged period ∨
      (∃ usage ∈ next.usage, usage ∉ store.usage ∧ usage.periodId = period.periodId) →
    next.IsCharged period
  untouched : ∀ periodId,
    (∀ usage ∈ next.usage, usage ∉ store.usage → usage.periodId ≠ periodId) →
      (∀ kind, next.ledgerTotal periodId kind = store.ledgerTotal periodId kind) ∧
        next.outboxTotal periodId = store.outboxTotal periodId

structure Recorded (store : BillingStore) (usages : List UsageRecord) (next : BillingStore) :
    Prop extends Accumulates store next where
  same : store.SameTerms next
  usage : next.usage = insertUsages store.usage usages

theorem Accumulates.refl (sound : store.Sound) : store.Accumulates store where
  sound := sound
  periods := rfl
  grows := List.Subset.refl _
  charged := by
    intro period _ charged
    rcases charged with charged | ⟨usage, member, isNew, _⟩
    · exact charged
    · exact absurd member isNew
  untouched := fun _ _ => ⟨fun _ => rfl, rfl⟩

theorem Accumulates.trans {middle : BillingStore} (before : store.Accumulates middle)
    (after : middle.Accumulates last) : store.Accumulates last where
  sound := after.sound
  periods := after.periods.trans before.periods
  grows := List.Subset.trans before.grows after.grows
  charged := by
    intro period member charged
    refine after.charged period (before.periods ▸ member) ?_
    rcases charged with charged | ⟨usage, isUsage, isNew, inPeriod⟩
    · exact .inl (before.charged period member (.inl charged))
    · by_cases early : usage ∈ middle.usage
      · exact .inl (before.charged period member (.inr ⟨usage, early, isNew, inPeriod⟩))
      · exact .inr ⟨usage, isUsage, early, inPeriod⟩
  untouched := by
    intro periodId untouched
    obtain ⟨firstLedger, firstOutbox⟩ := before.untouched periodId
      fun usage member isNew => untouched usage (after.grows member) isNew
    obtain ⟨secondLedger, secondOutbox⟩ := after.untouched periodId
      fun usage member isNew => untouched usage member fun old => isNew (before.grows old)
    exact ⟨fun kind => (secondLedger kind).trans (firstLedger kind), secondOutbox.trans firstOutbox⟩

theorem Sound.eq_of_periodId (sound : store.Sound) {left right : BillingPeriod}
    (isLeft : left ∈ store.periods) (isRight : right ∈ store.periods)
    (same : left.periodId = right.periodId) : left = right :=
  inj_on_of_nodup_map sound.distinct isLeft isRight same

theorem withUsage_recorded (sound : store.Sound)
    (found : store.period? usage.periodId = some period)
    (free : ∀ stored ∈ store.usage, stored.conflicts usage = false)
    {outbox : List OutboxEntry} (numbered : ∀ entry ∈ outbox, IsNumbered outbox entry)
    (entries : ∀ entry ∈ outbox, entry ∈ store.outbox ∨ entry.periodId = period.periodId)
    (cents : ∀ periodId,
      Table.total (fun entry : OutboxEntry => entry.periodId = periodId) (·.amountCents) outbox =
        if period.periodId = periodId then
          customerOverageCents ((store.withUsage usage period).ledgerTotal periodId .overageCharge)
        else store.outboxTotal periodId) :
    store.Recorded [usage] { store.withUsage usage period with outbox } := by
  obtain ⟨isPeriod, samePeriod⟩ := period?_some found
  have isNew : usage ∉ store.usage := by
    intro member
    have conflict := free usage member
    rw [UsageRecord.conflicts, decide_eq_true rfl] at conflict
    cases conflict
  have ownTotals := balanced_withUsage (sound.cost period.periodId)
    (sound.balanced period isPeriod) samePeriod.symm
    { store.withUsage usage period with outbox } rfl rfl
    ((cents period.periodId).trans (if_pos rfl))
  have otherLedger {periodId : String} (other : usage.periodId ≠ periodId) (kind : LedgerKind) :
      (store.withUsage usage period).ledgerTotal periodId kind =
        store.ledgerTotal periodId kind := by
    rw [ledgerTotal_withUsage, if_neg other, add_zero]
  have otherCost {periodId : String} (other : usage.periodId ≠ periodId) :
      (store.withUsage usage period).providerCost periodId = store.providerCost periodId := by
    rw [providerCost_withUsage, if_neg other, add_zero]
  have otherCents {periodId : String} (other : usage.periodId ≠ periodId) :
      ({ store.withUsage usage period with outbox } : BillingStore).outboxTotal periodId =
        store.outboxTotal periodId :=
    (cents periodId).trans (if_neg (samePeriod ▸ other))
  have apart {other : BillingPeriod} (isOther : other ∈ store.periods)
      (different : other ≠ period) : usage.periodId ≠ other.periodId := fun same =>
    different (sound.eq_of_periodId isOther isPeriod (same.symm.trans samePeriod.symm))
  refine ⟨⟨⟨?_, numbered, ?_, ?_, ?_, ?_, sound.distinct⟩, rfl,
    subset_append_left _ _, ?_, ?_⟩, ⟨rfl, rfl, rfl, rfl, rfl⟩, ?_⟩
  · intro entry member
    rcases mem_append.mp member with old | new
    · exact (sound.ledgered entry old).mono (subset_append_left _ _)
    · have isLast : usage ∈ store.usage ++ [usage] :=
        mem_append_right _ mem_cons_self
      rcases mem_cons.mp new with rfl | financial
      · exact kindEntry_isLedgered isLast _ _
      · obtain ⟨amount, _, rfl⟩ := mem_map.mp financial
        exact kindEntry_isLedgered isLast _ _
  · intro recorded member
    change (store.period? recorded.periodId).isSome = true
    rcases mem_concat.mp member with old | rfl
    · exact sound.owned recorded old
    · rw [found]
      rfl
  · intro entry member
    change (store.period? entry.periodId).isSome = true
    rcases entries entry member with old | inPeriod
    · exact sound.exported entry old
    · rw [inPeriod, samePeriod, found]
      rfl
  · intro periodId
    change (store.withUsage usage period).ledgerTotal periodId _ =
      (store.withUsage usage period).providerCost periodId
    rw [ledgerTotal_withUsage, providerCost_withUsage, sound.cost]
    rfl
  · intro other isOther
    by_cases same : other = period
    · rw [same]
      exact ownTotals.1
    · have different := apart isOther same
      exact (sound.balanced other isOther).frame (otherCost different)
        (otherLedger different) (otherCents different)
  · intro other isOther charged
    by_cases same : other = period
    · rw [same]
      exact ownTotals.2
    · have different := apart isOther same
      rcases charged with charged | ⟨recorded, member, isFirst, inPeriod⟩
      · change (store.withUsage usage period).ledgerTotal other.periodId _ =
          (store.withUsage usage period).charge other
        rw [charge, otherLedger different, otherCost different]
        exact charged
      · rcases mem_concat.mp member with old | new
        · exact absurd old isFirst
        · rw [new] at inPeriod
          exact absurd inPeriod different
  · intro periodId untouched
    have different := untouched usage (mem_append_right _ mem_cons_self) isNew
    exact ⟨otherLedger different, otherCents different⟩
  · rw [insertUsages, foldl_cons, insertNew_of_free free]
    rfl

variable {metered : Bool}

theorem recordUsage_recorded (sound : store.Sound)
    (recorded : store.recordUsage usage = some (metered, next)) : store.Recorded [usage] next := by
  cases found : store.period? usage.periodId with
  | none =>
    rw [recordUsage, found] at recorded
    cases recorded
  | some period =>
    by_cases free : ∀ stored ∈ store.usage, stored.conflicts usage = false
    · rw [recordUsage_new sound.ledgered found free] at recorded
      obtain ⟨outbox, exported, numbered, entries, cents⟩ :=
        (store.withUsage usage period).exportCharge_spec sound.numbered period
      rw [exported] at recorded
      cases recorded
      exact withUsage_recorded sound found free numbered entries cents
    obtain ⟨stored, notFree⟩ := not_forall.mp free
    obtain ⟨member, conflict⟩ := Classical.not_imp.mp notFree
    have kept := insertNew_of_conflict member (eq_true_of_ne_false conflict)
    rw [recordUsage, found, kept] at recorded
    cases recorded
    have unchanged : insertUsages store.usage [usage] = store.usage := by
      rw [insertUsages, foldl_cons, kept, foldl_nil]
    exact ⟨Accumulates.refl sound, ⟨rfl, rfl, rfl, rfl, rfl⟩, unchanged.symm⟩

theorem recordUsages_recorded (sound : store.Sound) {usages : List UsageRecord} {before : Bool}
    (recorded : store.recordUsages before usages = some (metered, next)) :
    store.Recorded usages next := by
  induction usages generalizing store before with
  | nil =>
    cases recorded
    exact ⟨Accumulates.refl sound, ⟨rfl, rfl, rfl, rfl, rfl⟩, rfl⟩
  | cons usage rest ih =>
    obtain ⟨⟨first, middle⟩, firstRecorded, restRecorded⟩ :=
      Option.bind_eq_some_iff.mp recorded
    have head := recordUsage_recorded sound firstRecorded
    have tail := ih head.sound restRecorded
    refine ⟨head.toAccumulates.trans tail.toAccumulates, head.same.trans tail.same, ?_⟩
    rw [tail.usage, head.usage]
    rfl

def hasEvent (store : BillingStore) (batch : ExecutionBatch) : Bool :=
  store.events.any fun event => event.provider = batch.provider && event.eventId = batch.eventId

def isFinalized (store : BillingStore) (batch : ExecutionBatch) : Bool :=
  store.isProviderEventFinalized batch.provider batch.eventId batch.providerExecutionId

def ExecutionBatch.finalization (batch : ExecutionBatch) : Finalization where
  provider := batch.provider
  eventId := batch.eventId
  providerExecutionId := batch.providerExecutionId

variable {batch : ExecutionBatch}

theorem recordBatch_cases
    (recorded : store.recordProviderExecutionBatch batch = some (metered, next)) :
    batch.isValid = true ∧ store.hasEvent batch = true ∧
      ((store.isFinalized batch = true ∧ metered = false ∧ next = store) ∨
        store.isFinalized batch = false ∧ ∃ middle,
          store.recordUsages false batch.usage = some (metered, middle) ∧
            next = { middle with
              finalizations := middle.finalizations ++ [batch.finalization] }) := by
  rw [recordProviderExecutionBatch] at recorded
  split at recorded
  · cases recorded
  rename_i valid
  split at recorded
  · cases recorded
  rename_i known
  refine ⟨by simpa using valid, by simpa [hasEvent] using known, ?_⟩
  split at recorded
  · rename_i finalized
    cases recorded
    exact .inl ⟨finalized, rfl, rfl⟩
  · rename_i unfinalized
    obtain ⟨⟨_, middle⟩, usages, same⟩ := Option.map_eq_some_iff.mp recorded
    cases same
    exact .inr ⟨Bool.eq_false_iff.mpr unfinalized, middle, usages, rfl⟩

section

variable (sound : store.Sound)
include sound

theorem Sound.finalize (finalizations : List Finalization) :
    ({ store with finalizations } : BillingStore).Sound :=
  ⟨sound.ledgered, sound.numbered, sound.owned, sound.exported, sound.cost,
    fun period member => (sound.balanced period member).frame rfl (fun _ => rfl) rfl,
    sound.distinct⟩

theorem recordBatch_sound
    (recorded : store.recordProviderExecutionBatch batch = some (metered, next)) : next.Sound := by
  obtain ⟨_, _, ⟨_, _, rfl⟩ | ⟨_, middle, usages, rfl⟩⟩ := recordBatch_cases recorded
  · exact sound
  · exact (recordUsages_recorded sound usages).sound.finalize _

theorem Sound.replacePeriods {update : BillingPeriod → BillingPeriod} (commands : List CapCommand)
    (sameId : ∀ period ∈ store.periods, (update period).periodId = period.periodId)
    (samePolicy : ∀ period ∈ store.periods, (update period).policy = period.policy)
    (capped : ∀ period ∈ store.periods, store.ledgerTotal period.periodId .overageCharge ≤
      (update period).overageCapMicros) :
    ({ store with
        periods := store.periods.map update
        capCommands := commands } : BillingStore).Sound := by
  have ids : (store.periods.map update).map (·.periodId) = store.periods.map (·.periodId) := by
    rw [map_map]
    exact map_congr_left sameId
  have found (periodId : String) (known : (store.period? periodId).isSome) :
      ((store.periods.map update).find? fun period => period.periodId = periodId).isSome := by
    rw [period?, List.find?_isSome] at known
    obtain ⟨period, member, isPeriod⟩ := known
    rw [List.find?_isSome]
    refine ⟨update period, mem_map_of_mem member, ?_⟩
    rw [sameId period member]
    exact isPeriod
  refine ⟨sound.ledgered, sound.numbered, fun usage member => found _ (sound.owned usage member),
    fun entry member => found _ (sound.exported entry member), sound.cost, ?_, ?_⟩
  · intro updated member
    obtain ⟨period, isPeriod, rfl⟩ := mem_map.mp member
    have balanced := sound.balanced period isPeriod
    have same := sameId period isPeriod
    have policy := samePolicy period isPeriod
    refine ⟨?_, ?_, ?_, ?_, ?_, ?_, ?_⟩
    · rw [same, policy]
      exact balanced.included
    · rw [same, policy]
      exact balanced.overage
    · rw [same, policy]
      exact balanced.absorbed
    · rw [same]
      exact balanced.markup
    · rw [same]
      exact balanced.cents
    · rw [same]
      exact balanced.nonneg
    · rw [same]
      exact capped period isPeriod
  · rw [ids]
    exact sound.distinct

theorem setCap_sound {capMicros : Nat} {idempotencyKey : String} {result : CapResult}
    (set : store.setCap periodId capMicros idempotencyKey = some (result, next)) : next.Sound := by
  unfold setCap at set
  dsimp only at set
  split at set
  · split at set
    · cases set
      exact sound
    · obtain ⟨period, _, same⟩ := Option.map_eq_some_iff.mp set
      cases same
      exact sound
  split at set
  · cases set
    exact sound
  rename_i affordable
  obtain ⟨_, _, same⟩ := Option.map_eq_some_iff.mp set
  cases same
  refine sound.replacePeriods _ ?_ ?_ ?_
  · intro period _
    split <;> rfl
  · intro period _
    split <;> rfl
  intro period member
  split
  · rename_i isPeriod
    rw [isPeriod]
    exact not_lt.mp affordable
  · exact (sound.balanced period member).capped

theorem Sound.totals_of_unknown (unknown : store.period? periodId = none) :
    store.providerCost periodId = 0 ∧ (∀ kind, store.ledgerTotal periodId kind = 0) ∧
      store.outboxTotal periodId = 0 := by
  have apart {id : String} (known : (store.period? id).isSome) : id ≠ periodId := by
    rintro rfl
    rw [unknown] at known
    cases known
  refine ⟨?_, fun kind => ?_, ?_⟩
  · refine total_of_none fun usage member => ?_
    exact decide_eq_false (apart (sound.owned usage member))
  · refine total_of_none fun entry member => ?_
    obtain ⟨usage, isUsage, _, samePeriod⟩ := (sound.ledgered entry member).ofUsage
    rw [samePeriod, decide_eq_false (apart (sound.owned usage isUsage)), Bool.false_and]
  · refine total_of_none fun entry member => ?_
    exact decide_eq_false (apart (sound.exported entry member))

end

theorem balanced_of_empty (cost : store.providerCost period.periodId = 0)
    (ledger : ∀ kind, store.ledgerTotal period.periodId kind = 0)
    (outbox : store.outboxTotal period.periodId = 0) : store.Balanced period := by
  obtain ⟨included, overage, charge⟩ := totals_zero period.policy
  obtain ⟨includedIs, overageIs⟩ := totals_of_nonneg period.policy (le_refl 0)
  refine ⟨?_, ?_, ?_, ?_, ?_, ?_, ?_⟩
  · rw [ledger, cost, ← includedIs, included]
  · rw [ledger, cost, ← overageIs, overage]
  · rw [ledger, ledger, ledger, cost, charge]
    rfl
  · rw [ledger, ledger, ledger]
    rfl
  · rw [ledger, outbox]
    rfl
  · rw [ledger]
  · rw [ledger]
    exact natCast_nonneg _

theorem Sound.addPeriod (sound : store.Sound) (unknown : store.period? period.periodId = none) :
    ({ store with periods := store.periods ++ [period] } : BillingStore).Sound := by
  have found (periodId : String) (known : (store.period? periodId).isSome) :
      ((store.periods ++ [period]).find? fun period => period.periodId = periodId).isSome := by
    rw [List.find?_append, Option.isSome_or, Bool.or_eq_true]
    exact .inl known
  have isNew : period.periodId ∉ store.periods.map (·.periodId) := by
    intro member
    obtain ⟨other, isOther, same⟩ := mem_map.mp member
    rw [BillingStore.period?, List.find?_eq_none] at unknown
    exact unknown other isOther (decide_eq_true same)
  refine ⟨sound.ledgered, sound.numbered, fun usage member => found _ (sound.owned usage member),
    fun entry member => found _ (sound.exported entry member), sound.cost, ?_, ?_⟩
  · intro other member
    rcases mem_concat.mp member with old | rfl
    · exact (sound.balanced other old).frame rfl (fun _ => rfl) rfl
    · obtain ⟨cost, ledger, outbox⟩ := sound.totals_of_unknown unknown
      exact balanced_of_empty cost ledger outbox
  rw [map_append]
  refine nodup_append.mpr ⟨sound.distinct, nodup_singleton _, ?_⟩
  intro id isOld last isLast same
  rw [same, mem_singleton.mp isLast] at isOld
  exact isNew isOld

theorem ensurePeriod_sound (sound : store.Sound) {input : PeriodInput}
    (ensured : store.ensurePeriod input = some (period, next)) : next.Sound := by
  unfold ensurePeriod at ensured
  dsimp only at ensured
  split at ensured
  · rename_i existing found
    split at ensured
    · cases ensured
      have member := mem_of_find?_eq_some found
      refine sound.replacePeriods _ ?_ ?_ ?_
      · intro other _
        split
        · rename_i same
          exact same.symm
        · rfl
      · intro other isOther
        split
        · rename_i same
          rw [sound.eq_of_periodId isOther member same]
        · rfl
      · intro other isOther
        split
        · rename_i same
          rw [sound.eq_of_periodId isOther member same]
          exact (sound.balanced existing member).capped
        · exact (sound.balanced other isOther).capped
    · cases ensured
  · split at ensured
    · cases ensured
    · rename_i unknown
      cases ensured
      exact sound.addPeriod (Option.not_isSome_iff_eq_none.mp unknown)

end BillingStore

end Zuse.Billing
