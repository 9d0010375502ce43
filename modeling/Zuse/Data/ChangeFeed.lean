import Mathlib.Data.List.Sort
import Mathlib.Order.Basic
import Zuse.Data.InsertionMap

namespace Zuse.Data

open List

universe u v w

/-! A feed of changes: every change of a key takes the next revision, the newest changes
are kept, and the last revision of each key is kept apart from them. A reader asks for the
changes after the revision it has reached and gets the keys that changed. -/

section Feed

variable {α : Type u} {κ : Type v} {β : Type w}

def latestAfter [DecidableEq κ] (revision : α → Nat) (key : α → κ) (after : Nat)
    (changes : List α) : List α :=
  let recent := changes.filter fun change => after < revision change
  (recent.filter fun change => recent.all fun other =>
      key other ≠ key change || revision other ≤ revision change).insertionSort
    fun left right => revision left ≤ revision right

/-- The changes up to the current revision, trimmed from the oldest on. -/
structure ChangeFeed (revision : α → Nat) (key : α → κ) (changes : List α) (current : Nat)
    (last : κ → Option Nat) : Prop where
  ordered : changes.Pairwise fun left right => revision left < revision right
  positive : ∀ change ∈ changes, 0 < revision change
  bounded : ∀ change ∈ changes, revision change ≤ current
  newest : ∀ change ∈ changes, ∃ lastRevision,
    last (key change) = some lastRevision ∧ revision change ≤ lastRevision
  reached : ∀ changed lastRevision, last changed = some lastRevision → lastRevision ≤ current
  kept : ∀ changed lastRevision, last changed = some lastRevision →
    (∃ change ∈ changes, key change = changed ∧ revision change = lastRevision) ∨
      changes ≠ [] ∧ ∀ change ∈ changes, lastRevision < revision change

variable {revision : α → Nat} {key : α → κ} {changes : List α} {current : Nat}
  {last : κ → Option Nat}

namespace ChangeFeed

theorem empty : ChangeFeed revision key [] 0 fun _ => none where
  ordered := List.Pairwise.nil
  positive := forall_mem_nil _
  bounded := forall_mem_nil _
  newest := forall_mem_nil _
  reached := by
    intro changed lastRevision found
    cases found
  kept := by
    intro changed lastRevision found
    cases found

theorem bump (feed : ChangeFeed revision key changes current last) :
    ChangeFeed revision key changes (current + 1) last where
  ordered := feed.ordered
  positive := feed.positive
  bounded := fun change member => Nat.le_succ_of_le (feed.bounded change member)
  newest := feed.newest
  reached := fun changed _ found => Nat.le_succ_of_le (feed.reached changed _ found)
  kept := feed.kept

/-- The next change, and the trimming of the changes that are `limit` revisions old. -/
theorem record [DecidableEq κ] (feed : ChangeFeed revision key changes current last)
    (change : α) (next : revision change = current + 1) {limit : Nat} (room : 0 < limit) :
    ChangeFeed revision key
      ((changes ++ [change]).filter fun kept => current + 1 < revision kept + limit) (current + 1)
      (fun other => if other = key change then some (current + 1) else last other) := by
  have recorded : change ∈ (changes ++ [change]).filter fun kept =>
      current + 1 < revision kept + limit := by
    simp [next, room]
  have origin {other : α} (member : other ∈ (changes ++ [change]).filter fun kept =>
      current + 1 < revision kept + limit) : other ∈ changes ∨ other = change := by
    rcases mem_append.mp (mem_filter.mp member).1 with old | new
    · exact .inl old
    · exact .inr (mem_singleton.mp new)
  constructor
  case ordered =>
    refine List.Pairwise.filter _ (pairwise_append.mpr ⟨feed.ordered, pairwise_singleton _ _, ?_⟩)
    intro old oldMember new newMember
    rw [mem_singleton.mp newMember, next]
    exact Nat.lt_succ_of_le (feed.bounded old oldMember)
  case positive =>
    intro other member
    rcases origin member with old | rfl
    · exact feed.positive other old
    · exact next ▸ Nat.succ_pos current
  case bounded =>
    intro other member
    rcases origin member with old | rfl
    · exact Nat.le_succ_of_le (feed.bounded other old)
    · exact le_of_eq next
  case newest =>
    intro other member
    rcases origin member with old | rfl
    · split
      · exact ⟨_, rfl, Nat.le_succ_of_le (feed.bounded other old)⟩
      · exact feed.newest other old
    · exact ⟨_, if_pos rfl, le_of_eq next⟩
  case reached =>
    intro changed lastRevision found
    split at found
    · cases found
      exact le_refl _
    · exact Nat.le_succ_of_le (feed.reached changed lastRevision found)
  case kept =>
    intro changed lastRevision found
    split at found
    · rename_i same
      cases found
      exact .inl ⟨change, recorded, same.symm, next⟩
    have old := feed.reached changed lastRevision found
    rcases feed.kept changed lastRevision found with
      ⟨other, member, isKey, isRevision⟩ | ⟨_, earlier⟩
    · by_cases trimmed : current + 1 < revision other + limit
      · refine .inl ⟨other, mem_filter.mpr ⟨mem_append_left _ member, ?_⟩, isKey, isRevision⟩
        exact decide_eq_true trimmed
      · refine .inr ⟨ne_nil_of_mem recorded, ?_⟩
        intro stays staysMember
        have young := of_decide_eq_true (mem_filter.mp staysMember).2
        omega
    refine .inr ⟨ne_nil_of_mem recorded, ?_⟩
    intro stays staysMember
    rcases origin staysMember with old | rfl
    · exact earlier stays old
    · omega

end ChangeFeed

section Read

variable [DecidableEq κ] {after limit : Nat}

theorem mem_latestAfter {change : α} :
    change ∈ latestAfter revision key after changes ↔
      (change ∈ changes ∧ after < revision change) ∧
        ∀ other ∈ changes, after < revision other → key other = key change →
          revision other ≤ revision change := by
  simp only [latestAfter, mem_insertionSort, mem_filter, all_eq_true,
    decide_eq_true_eq, Bool.or_eq_true, and_imp, ne_eq]
  refine and_congr_right fun _ => ?_
  constructor
  · intro newest other member recent sameKey
    exact (newest other member recent).resolve_left (not_not.mpr sameKey)
  · intro newest other member recent
    by_cases sameKey : key other = key change
    · exact .inr (newest other member recent sameKey)
    · exact .inl sameKey

theorem latestAfter_sorted : (latestAfter revision key after changes).Pairwise
    fun left right => revision left ≤ revision right :=
  pairwise_insertionSort _ _

/-- Where a page ends: at its last change, or at the current revision if it is empty. -/
def pageEnd (revision : α → Nat) (current : Nat) (page : List α) : Nat :=
  (page.getLast?.map revision).getD current

theorem pageEnd_mem (revision : α → Nat) (current : Nat) {page : List α} (nonempty : page ≠ []) :
    ∃ change ∈ page, pageEnd revision current page = revision change := by
  refine ⟨page.getLast nonempty, getLast_mem nonempty, ?_⟩
  rw [pageEnd, List.getLast?_eq_getLast_of_ne_nil nonempty]
  rfl

theorem lt_pageEnd (nonempty : (latestAfter revision key after changes).take limit ≠ []) :
    after < pageEnd revision current ((latestAfter revision key after changes).take limit) := by
  obtain ⟨change, member, isEnd⟩ := pageEnd_mem revision current nonempty
  rw [isEnd]
  exact (mem_latestAfter.mp (mem_of_mem_take member)).1.2

/-- A page covers every key whose last change lies between the reader's revision and the
end of the page, unless the changes were trimmed past the reader. -/
theorem ChangeFeed.covers (feed : ChangeFeed revision key changes current last)
    (untrimmed : changes = [] ∨ ∃ oldest ∈ changes, revision oldest ≤ after + 1)
    {changed : κ} {lastRevision : Nat} (found : last changed = some lastRevision)
    (later : after < lastRevision)
    (within : lastRevision ≤ pageEnd revision current
      ((latestAfter revision key after changes).take limit)) (room : 0 < limit) :
    ∃ change ∈ (latestAfter revision key after changes).take limit, key change = changed := by
  have listed : ∃ change ∈ latestAfter revision key after changes,
      key change = changed ∧ revision change = lastRevision := by
    rcases feed.kept changed lastRevision found with
      ⟨change, member, isKey, isRevision⟩ | ⟨nonempty, earlier⟩
    · refine ⟨change, mem_latestAfter.mpr ⟨⟨member, isRevision ▸ later⟩, ?_⟩, isKey, isRevision⟩
      intro other otherMember _ sameKey
      obtain ⟨otherLast, isLast, bound⟩ := feed.newest other otherMember
      rw [sameKey, isKey, found] at isLast
      cases isLast
      exact isRevision ▸ bound
    · obtain ⟨oldest, member, near⟩ := untrimmed.resolve_left nonempty
      have := earlier oldest member
      omega
  obtain ⟨change, member, isKey, isRevision⟩ := listed
  refine ⟨change, ?_, isKey⟩
  have either := member
  rw [← take_append_drop limit (latestAfter revision key after changes)] at either
  rcases mem_append.mp either with inPage | beyond
  · exact inPage
  -- The page is full, so its last change is the change itself.
  have full : (latestAfter revision key after changes).take limit ≠ [] := by
    intro emptyPage
    rcases take_eq_nil_iff.mp emptyPage with none | nothing
    · exact absurd none (Nat.ne_of_gt room)
    · rw [nothing] at member
      cases member
  obtain ⟨final, finalMember, isEnd⟩ := pageEnd_mem revision current full
  have sorted : revision final ≤ revision change :=
    latestAfter_sorted.rel_of_mem_take_of_mem_drop finalMember beyond
  have sameRevision : revision final = revision change :=
    le_antisymm sorted (isRevision.trans_le (isEnd ▸ within))
  have distinct : (changes.map revision).Nodup :=
    pairwise_map.mpr (feed.ordered.imp ne_of_lt)
  have same : final = change := inj_on_of_nodup_map distinct
    (mem_latestAfter.mp (mem_of_mem_take finalMember)).1.1
    (mem_latestAfter.mp member).1.1 sameRevision
  exact same ▸ finalMember

end Read

/-- What the reader knows of a key is the value of it, unless the key changed after the
revision that the reader has reached. -/
def Follows (last : κ → Option Nat) (value known : κ → β) (unread : κ → Prop)
    (reached : Nat) : Prop :=
  ∀ changed, ¬unread changed →
    (∀ lastRevision, last changed = some lastRevision → lastRevision ≤ reached) →
    known changed = value changed

namespace Follows

variable {value known nextValue nextKnown : κ → β} {nextLast : κ → Option Nat}
  {unread nextUnread : κ → Prop} {reached : Nat}

theorem change (follows : Follows last value known unread reached) (behind : reached ≤ current)
    (recorded : ∀ changed, nextLast changed = last changed ∧ nextValue changed = value changed ∨
      ∃ lastRevision, nextLast changed = some lastRevision ∧ current < lastRevision) :
    Follows nextLast nextValue known unread reached := by
  intro changed isRead seen
  rcases recorded changed with ⟨sameLast, sameValue⟩ | ⟨lastRevision, isLast, later⟩
  · rw [sameValue]
    exact follows changed isRead (sameLast ▸ seen)
  · exact absurd (seen lastRevision isLast) (not_le.mpr (lt_of_le_of_lt behind later))

theorem read (follows : Follows last value known unread reached) (changed : κ)
    (learnt : nextKnown changed = value changed)
    (others : ∀ other, other ≠ changed → nextKnown other = known other)
    (stillUnread : ∀ other, other ≠ changed → unread other → nextUnread other) :
    Follows last value nextKnown nextUnread reached := by
  intro other isRead seen
  by_cases same : other = changed
  · exact same ▸ learnt
  · rw [others other same]
    exact follows other (fun wasUnread => isRead (stillUnread other same wasUnread)) seen

theorem reset (others : ∀ changed, ¬unread changed → known changed = value changed) :
    Follows last value known unread reached :=
  fun changed isRead _ => others changed isRead

theorem page [DecidableEq κ] {after limit : Nat}
    (follows : Follows last value known (fun _ => False) after)
    (feed : ChangeFeed revision key changes current last)
    (untrimmed : changes = [] ∨ ∃ oldest ∈ changes, revision oldest ≤ after + 1) (room : 0 < limit)
    (learnt : ∀ change ∈ (latestAfter revision key after changes).take limit,
      nextKnown (key change) = value (key change))
    (others : ∀ other, (∀ change ∈ (latestAfter revision key after changes).take limit,
      key change ≠ other) → nextKnown other = known other) :
    Follows last value nextKnown (fun _ => False) (pageEnd revision current
      ((latestAfter revision key after changes).take limit)) := by
  intro changed _ seen
  by_cases inPage : ∃ change ∈ (latestAfter revision key after changes).take limit,
      key change = changed
  · obtain ⟨change, member, rfl⟩ := inPage
    exact learnt change member
  · rw [others changed fun change member same => inPage ⟨change, member, same⟩]
    refine follows changed not_false fun lastRevision found => ?_
    by_contra later
    exact inPage (feed.covers untrimmed found (not_le.mp later) (seen lastRevision found) room)

end Follows

end Feed

end Zuse.Data
