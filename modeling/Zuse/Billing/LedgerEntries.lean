import Zuse.Data.Naming
import Zuse.Billing.BillingStore

namespace Zuse.Billing

open Zuse.Data List

/-! The rows that one usage entry adds to the ledger and the outbox. No unique index ever
stops them. -/

variable {usage : UsageRecord}

namespace LedgerKind

theorem text_colonFree (kind : LedgerKind) : ':' ∉ kind.text.toList := by
  cases kind <;> decide

theorem text_injective {left right : LedgerKind} (same : left.text = right.text) :
    left = right := by
  cases left <;> cases right <;> first | rfl | exact absurd same (by decide)

theorem text_ne_provider (kind : LedgerKind) (provider : UsageProvider) :
    provider.text ≠ kind.text := by
  cases kind <;> cases provider <;> decide

def entryName (kind : LedgerKind) (source : String) : String :=
  if kind = .providerCost then "ledger:" ++ source
  else "ledger:" ++ kind.text ++ ":" ++ source

theorem entryName_injective {left right : LedgerKind} {other : UsageRecord}
    (same : left.entryName usage.entryId = right.entryName other.entryId) :
    left = right ∧ usage.entryId = other.entryId := by
  have split (kind : LedgerKind) (source : String) :
      kind.entryName source = "ledger" ++ ":" ++
        if kind = .providerCost then source else kind.text ++ ":" ++ source := by
    have ledger : "ledger:" = "ledger" ++ ":" := by decide
    rw [entryName]
    split
    · rw [ledger]
    · rw [ledger]
      simp only [String.append_assoc]
  rw [split, split] at same
  have rest := (colon_left_injective (by decide) (by decide) same).2
  split at rest
  · rename_i isCost
    split at rest
    · rename_i otherCost
      exact ⟨isCost.trans otherCost.symm, rest⟩
    · exact absurd (colon_left_injective usage.provider.text_colonFree
        right.text_colonFree rest).1 (right.text_ne_provider usage.provider)
  split at rest
  · exact absurd (colon_left_injective left.text_colonFree
      other.provider.text_colonFree rest).1.symm (left.text_ne_provider other.provider)
  · obtain ⟨sameKind, sameSource⟩ :=
      colon_left_injective left.text_colonFree right.text_colonFree rest
    exact ⟨text_injective sameKind, sameSource⟩

end LedgerKind

namespace BillingStore

variable {store : BillingStore}

structure IsLedgered (recorded : List UsageRecord) (entry : LedgerEntry) : Prop where
  ofUsage : ∃ usage ∈ recorded, entry.sourceId = usage.entryId ∧ entry.periodId = usage.periodId
  named : entry.entryId = entry.kind.entryName entry.sourceId

def HasEntry (store : BillingStore) (kind : LedgerKind) (sourceId : String) : Prop :=
  ∃ entry ∈ store.ledger, entry.kind = kind ∧ entry.sourceId = sourceId

def kindEntry (usage : UsageRecord) (kind : LedgerKind) (amount : Micros) : LedgerEntry where
  entryId := kind.entryName usage.entryId
  periodId := usage.periodId
  kind
  amountMicros := amount
  sourceId := usage.entryId

theorem costEntry_eq (usage : UsageRecord) :
    costEntry usage = kindEntry usage .providerCost usage.providerCostMicros := rfl

variable {kind : LedgerKind}

theorem insertLedger_kindEntry (ledgered : ∀ entry ∈ store.ledger, IsLedgered store.usage entry)
    (absent : ¬store.HasEntry kind usage.entryId) (amount : Micros) :
    store.insertLedger (kindEntry usage kind amount) =
      { store with ledger := store.ledger ++ [kindEntry usage kind amount] } := by
  rw [insertLedger, Table.insertNew_of_free]
  intro stored member
  obtain ⟨⟨other, _, isSource, _⟩, named⟩ := ledgered stored member
  have different : ¬(stored.kind = kind ∧ stored.sourceId = usage.entryId) :=
    fun same => absent ⟨stored, member, same⟩
  by_contra conflicts
  rw [Bool.not_eq_false, LedgerEntry.conflicts, Bool.or_eq_true] at conflicts
  rcases conflicts with sameId | sameKind
  · have sameName := of_decide_eq_true sameId
    rw [named, isSource] at sameName
    obtain ⟨isKind, isUsage⟩ := LedgerKind.entryName_injective sameName
    exact different ⟨isKind, isSource.trans isUsage⟩
  · obtain ⟨isKind, sameSource⟩ := Bool.and_eq_true_iff.mp sameKind
    exact different ⟨of_decide_eq_true isKind, of_decide_eq_true sameSource⟩

theorem insertFinancial_eq (usage : UsageRecord)
    (financial : kind ≠ .providerCost) (amount : Micros) :
    store.insertFinancial usage kind amount =
      if amount = 0 then store else store.insertLedger (kindEntry usage kind amount) := by
  rw [insertFinancial, kindEntry, LedgerKind.entryName, if_neg financial]

def kindEntries (usage : UsageRecord) (amounts : List (LedgerKind × Micros)) :
    List LedgerEntry :=
  (amounts.filter fun amount => amount.2 ≠ 0).map fun amount =>
    kindEntry usage amount.1 amount.2

variable {recorded : List UsageRecord}

theorem IsLedgered.mono {more : List UsageRecord} (grows : recorded ⊆ more)
    {entry : LedgerEntry} (ledgered : IsLedgered recorded entry) : IsLedgered more entry := by
  obtain ⟨⟨usage, member, same⟩, named⟩ := ledgered
  exact ⟨⟨usage, grows member, same⟩, named⟩

theorem kindEntry_isLedgered (member : usage ∈ recorded) (kind : LedgerKind) (amount : Micros) :
    IsLedgered recorded (kindEntry usage kind amount) :=
  ⟨⟨usage, member, rfl, rfl⟩, rfl⟩

theorem insertFinancials (ledgered : ∀ entry ∈ store.ledger, IsLedgered store.usage entry)
    (recorded : usage ∈ store.usage)
    {amounts : List (LedgerKind × Micros)} (distinct : (amounts.map Prod.fst).Nodup)
    (financial : ∀ amount ∈ amounts, amount.1 ≠ .providerCost)
    (absent : ∀ amount ∈ amounts, ¬store.HasEntry amount.1 usage.entryId) :
    amounts.foldl (fun next amount => next.insertFinancial usage amount.1 amount.2) store =
      { store with ledger := store.ledger ++ kindEntries usage amounts } := by
  induction amounts generalizing store with
  | nil =>
    change store = { store with ledger := store.ledger ++ [] }
    rw [append_nil]
  | cons head rest ih =>
    obtain ⟨notAgain, distinct⟩ := nodup_cons.mp distinct
    obtain ⟨headFinancial, restFinancial⟩ := forall_mem_cons.mp financial
    obtain ⟨headAbsent, restAbsent⟩ := forall_mem_cons.mp absent
    rw [foldl_cons, insertFinancial_eq usage headFinancial]
    split
    · rename_i nothing
      rw [ih ledgered recorded distinct restFinancial restAbsent, kindEntries,
        kindEntries, filter_cons_of_neg (by simpa using nothing)]
    rename_i something
    rw [insertLedger_kindEntry ledgered headAbsent, ih]
    · rw [kindEntries, kindEntries, filter_cons_of_pos (by simpa using something),
        map_cons, append_assoc, singleton_append]
    · intro entry member
      rcases mem_concat.mp member with old | rfl
      · exact ledgered entry old
      · exact kindEntry_isLedgered recorded head.1 head.2
    · exact recorded
    · exact distinct
    · exact restFinancial
    rintro amount isRest ⟨entry, member, isKind, isSource⟩
    rcases mem_concat.mp member with old | new
    · exact restAbsent amount isRest ⟨entry, old, isKind, isSource⟩
    · rw [new] at isKind
      exact notAgain (mem_map.mpr ⟨amount, isRest, isKind.symm⟩)

theorem total_kindEntries (usage : UsageRecord) (amounts : List (LedgerKind × Micros))
    (periodId : String) (kind : LedgerKind) :
    Table.total (fun entry : LedgerEntry => entry.periodId = periodId && entry.kind = kind)
        (·.amountMicros) (kindEntries usage amounts) =
      if usage.periodId = periodId then
        ((amounts.filter fun amount => amount.1 = kind).map Prod.snd).sum
      else 0 := by
  induction amounts with
  | nil =>
    split <;> rfl
  | cons head rest ih =>
    have restTotal := ih
    rw [kindEntries] at restTotal ⊢
    rw [filter_cons]
    split
    · rw [map_cons, Table.total_cons, restTotal]
      by_cases inPeriod : usage.periodId = periodId
      · by_cases isKind : head.1 = kind
        · simp [kindEntry, inPeriod, isKind]
        · simp [kindEntry, inPeriod, isKind]
      · simp [kindEntry, inPeriod]
    rename_i nothing
    have zero : head.2 = 0 := by simpa using nothing
    rw [restTotal]
    by_cases isKind : head.1 = kind
    · simp [isKind, zero]
    · simp [isKind]

end BillingStore

end Zuse.Billing
