import Mathlib.Data.List.Nodup
import Zuse.Review.HunkSplits

namespace Zuse.Review

open List PatchHunk
open Function (update_self update_of_ne update)

theorem base36_plain (size number : Nat) :
    ∀ char ∈ base36 size number, char ≠ '#' ∧ char ≠ '@' := by
  induction size generalizing number with
  | zero => simp [base36]
  | succ size ih =>
    have last : ∀ digit < 36,
        Char.ofNat (if digit < 10 then 48 + digit else 87 + digit) ≠ '#' ∧
          Char.ofNat (if digit < 10 then 48 + digit else 87 + digit) ≠ '@' := by decide
    intro char found
    rcases mem_append.mp found with found | found
    · split at found
      · contradiction
      · exact ih _ char found
    · rw [mem_singleton.mp found]
      exact last _ (Nat.mod_lt _ (by omega))

theorem hash_plain (text : Text) : ∀ char ∈ hash text, char ≠ '#' ∧ char ≠ '@' :=
  base36_plain 7 (fnv1a text)

theorem toDigits_ne_at (number : Nat) : '@' ∉ Nat.toDigits 10 number := fun found =>
  absurd (Nat.isDigit_of_mem_toDigits (by omega) (by omega) found) (by decide)

/-- The occurrences of texts that were not seen come after those that were. -/
theorem occurrences_fresh (seen : Text → Nat) (texts : List Text) :
    ∀ occurrence ∈ occurrences seen texts,
      occurrence.1 ∈ texts ∧ seen occurrence.1 ≤ occurrence.2 := by
  induction texts generalizing seen with
  | nil => simp [occurrences]
  | cons text rest ih =>
    intro occurrence found
    rcases mem_cons.mp found with rfl | found
    · simp
    obtain ⟨member, later⟩ := ih _ occurrence found
    refine ⟨mem_cons_of_mem _ member, ?_⟩
    by_cases same : occurrence.1 = text
    · rw [same, update_self] at later
      rw [same]
      omega
    · rwa [update_of_ne same] at later

theorem occurrences_nodup (seen : Text → Nat) (texts : List Text) :
    (occurrences seen texts).Nodup := by
  induction texts generalizing seen with
  | nil => simp [occurrences]
  | cons text rest ih =>
    refine nodup_cons.mpr ⟨fun found => ?_, ih _⟩
    have later := (occurrences_fresh _ _ _ found).2
    simp only [update_self] at later
    omega

theorem map_fst_occurrences (seen : Text → Nat) (texts : List Text) :
    (occurrences seen texts).map Prod.fst = texts := by
  induction texts generalizing seen with
  | nil => rfl
  | cons text rest ih => simp [occurrences, ih]

/-- Texts without a `#` are told apart from the numbers that follow one. -/
theorem numbered_injective {first second : Text} (plain : '#' ∉ first) (bare : '#' ∉ second)
    {one two : Nat}
    (same : (first ++ if one = 0 then [] else '#' :: Nat.toDigits 10 one) =
      second ++ if two = 0 then [] else '#' :: Nat.toDigits 10 two) :
    (first, one) = (second, two) := by
  have cut (text : Text) (without : '#' ∉ text) (number : Nat) :
      let joined := text ++ if number = 0 then [] else '#' :: Nat.toDigits 10 number
      joined.takeWhile (· ≠ '#') = text ∧
        joined.dropWhile (· ≠ '#') =
          if number = 0 then [] else '#' :: Nat.toDigits 10 number := by
    have all : ∀ char ∈ text, decide (char ≠ '#') = true := fun char found =>
      decide_eq_true fun same => without (same ▸ found)
    intro joined
    rw [takeWhile_append_of_pos all, dropWhile_append_of_pos all]
    split <;> simp
  obtain ⟨taken, dropped⟩ := cut first plain one
  obtain ⟨took, drop⟩ := cut second bare two
  rw [same] at taken dropped
  have suffixes := dropped.symm.trans drop
  refine Prod.ext (taken.symm.trans took) ?_
  split at suffixes <;> split at suffixes
  · simp_all
  · contradiction
  · contradiction
  · have digits := (List.cons.inj suffixes).2
    rw [← @Nat.ofDigitChars_ten_toDigits one, digits, Nat.ofDigitChars_ten_toDigits]

theorem occurrence_plain {hunks : List PatchHunk} {occurrence : Text × Nat} {seen : Text → Nat}
    (found : occurrence ∈ occurrences seen (hunks.map fingerprint)) :
    ∀ char ∈ occurrence.1, char ≠ '#' ∧ char ≠ '@' := by
  obtain ⟨hunk, -, same⟩ := mem_map.mp (occurrences_fresh _ _ _ found).1
  rw [← same]
  exact hash_plain _

theorem hunkIds_nodup (path : Text) (hunks : List PatchHunk) : (hunkIds path hunks).Nodup := by
  refine List.Nodup.map_on ?_ (occurrences_nodup _ _)
  intro first found second other same
  refine numbered_injective (fun inside => (occurrence_plain found _ inside).1 rfl)
    (fun inside => (occurrence_plain other _ inside).1 rfl) ?_
  exact (List.cons.inj (append_cancel_left same)).2

theorem occurrences_filter (seen kept : Text → Nat) (fewer : ∀ text, kept text ≤ seen text)
    (keep : Text × Nat → Bool) (texts : List Text) :
    occurrences kept (((occurrences seen texts).filter keep).map Prod.fst) =
        (occurrences seen texts).filter keep ↔
      ∀ occurrence ∈ occurrences seen texts, keep occurrence →
        kept occurrence.1 = seen occurrence.1 ∧
          ∀ number, seen occurrence.1 ≤ number → number < occurrence.2 →
            keep (occurrence.1, number) := by
  induction texts generalizing seen kept with
  | nil => simp [occurrences]
  | cons text rest ih =>
    have raised (other : Text) : update kept text (kept text + 1) other ≤
        update seen text (seen text + 1) other := by
      have bound := fewer other
      by_cases same : other = text
      · simp only [same, update_self] at bound ⊢
        omega
      · simpa [update_of_ne same] using bound
    have below (other : Text) : kept other ≤ update seen text (seen text + 1) other := by
      have bound := fewer other
      by_cases same : other = text
      · simp only [same, update_self] at bound ⊢
        omega
      · simpa [update_of_ne same] using bound
    cases wanted : keep (text, seen text) with
    | true =>
      simp only [occurrences, filter_cons_of_pos wanted, map_cons, List.cons.injEq,
        Prod.mk.injEq, true_and, ih _ _ raised, forall_mem_cons]
      constructor
      · rintro ⟨level, later⟩
        refine ⟨fun _ => ⟨level, fun number from_here before => by omega⟩,
          fun occurrence found chosen => ?_⟩
        obtain ⟨equal, all⟩ := later occurrence found chosen
        by_cases same : occurrence.1 = text
        · simp only [same, update_self] at equal all ⊢
          refine ⟨by omega, fun number from_here before => ?_⟩
          rcases Nat.eq_or_lt_of_le from_here with rfl | after
          · exact wanted
          · exact all number after before
        · simpa [update_of_ne same] using And.intro equal all
      · rintro ⟨head, later⟩
        refine ⟨(head wanted).1, fun occurrence found chosen => ?_⟩
        obtain ⟨equal, all⟩ := later occurrence found chosen
        by_cases same : occurrence.1 = text
        · simp only [same, update_self] at equal all ⊢
          exact ⟨by omega, fun number after => all number (by omega)⟩
        · simpa [update_of_ne same] using And.intro equal all
    | false =>
      have unwanted : ¬keep (text, seen text) = true := by simp [wanted]
      simp only [occurrences, filter_cons_of_neg unwanted, ih _ _ below, forall_mem_cons]
      constructor
      · refine fun later => ⟨fun chosen => absurd chosen unwanted,
          fun occurrence found chosen => ?_⟩
        obtain ⟨equal, all⟩ := later occurrence found chosen
        by_cases same : occurrence.1 = text
        · have bound := fewer text
          simp only [same, update_self] at equal
          omega
        · simpa [update_of_ne same] using And.intro equal all
      rintro ⟨-, later⟩ occurrence found chosen
      obtain ⟨equal, all⟩ := later occurrence found chosen
      by_cases same : occurrence.1 = text
      · have passed := (occurrences_fresh _ _ _ found).2
        simp only [same, update_self] at passed all
        exact absurd (all _ (Nat.le_refl _) passed) unwanted
      · simpa [update_of_ne same] using And.intro equal all

/-- With a hunk, the hunks of its fingerprint before it are selected. -/
def Closed (path : Text) (hunks : List PatchHunk) (ids : Text → Bool) : Prop :=
  ∀ occurrence ∈ occurrences (fun _ => 0) (hunks.map fingerprint),
    ids (hunkId path occurrence) → ∀ number < occurrence.2, ids (hunkId path (occurrence.1, number))

theorem wantedHunks_sublist (ids : Text → Bool) (hunks : List PatchHunk) (fileIds : List Text) :
    (wantedHunks ids hunks fileIds).Sublist hunks := by
  induction hunks generalizing fileIds with
  | nil => exact .slnil
  | cons hunk rest ih =>
    cases fileIds with
    | nil => exact nil_sublist _
    | cons id later =>
      have part := ih later
      cases wanted : ids id
      · simpa [wantedHunks, wanted] using part.cons hunk
      · simpa [wantedHunks, wanted] using part

theorem map_fingerprint_wantedHunks (path : Text) (ids : Text → Bool) (seen : Text → Nat)
    (hunks : List PatchHunk) :
    (wantedHunks ids hunks
        ((occurrences seen (hunks.map fingerprint)).map (hunkId path))).map fingerprint =
      ((occurrences seen (hunks.map fingerprint)).filter
        fun occurrence => ids (hunkId path occurrence)).map Prod.fst := by
  induction hunks generalizing seen with
  | nil => rfl
  | cons hunk rest ih =>
    have later := ih (update seen (fingerprint hunk) (seen (fingerprint hunk) + 1))
    simp only [wantedHunks] at later
    cases wanted : ids (hunkId path (fingerprint hunk, seen (fingerprint hunk))) <;>
      simp [wantedHunks, occurrences, wanted, later]

theorem map_fingerprint_reindexed (index : Nat) (hunks : List PatchHunk) :
    (reindexed index hunks).map fingerprint = hunks.map fingerprint := by
  induction hunks generalizing index with
  | nil => rfl
  | cons hunk rest ih => simp [reindexed, ih, fingerprint, changedLines]

theorem map_hunkId_injective (path : Text) (first second : List (Text × Nat))
    (plain : ∀ occurrence ∈ first, '#' ∉ occurrence.1)
    (bare : ∀ occurrence ∈ second, '#' ∉ occurrence.1)
    (same : first.map (hunkId path) = second.map (hunkId path)) : first = second := by
  induction first generalizing second with
  | nil => simpa using same.symm
  | cons head rest ih =>
    cases second with
    | nil => simp at same
    | cons other later =>
      obtain ⟨heads, tails⟩ := List.cons.inj same
      have equal : head = other := numbered_injective (plain head (by simp))
        (bare other (by simp)) (List.cons.inj (append_cancel_left heads)).2
      rw [equal, ih later (fun _ found => plain _ (by simp [found]))
        (fun _ found => bare _ (by simp [found])) tails]

theorem hunkIds_wantedHunks (path : Text) (ids : Text → Bool) (hunks : List PatchHunk) :
    hunkIds path (reindexed 0 (wantedHunks ids hunks (hunkIds path hunks))) =
        (hunkIds path hunks).filter ids ↔ Closed path hunks ids := by
  have renumbered := occurrences_filter (fun _ => 0) (fun _ => 0) (fun _ => Nat.le_refl _)
    (fun occurrence => ids (hunkId path occurrence)) (hunks.map fingerprint)
  have kept := map_fingerprint_wantedHunks path ids (fun _ => 0) hunks
  have closed : Closed path hunks ids ↔ _ :=
    Iff.trans (by simp [Closed]) renumbered.symm
  rw [closed, hunkIds, map_fingerprint_reindexed, hunkIds, kept, filter_map]
  constructor
  · intro same
    refine map_hunkId_injective path _ _ ?_ ?_ same
    · intro occurrence found inside
      obtain ⟨first, chosen, equal⟩ := mem_map.mp (occurrences_fresh _ _ _ found).1
      rw [← equal] at inside
      exact (occurrence_plain (mem_filter.mp chosen).1 _ inside).1 rfl
    · intro occurrence found inside
      exact (occurrence_plain (mem_filter.mp found).1 _ inside).1 rfl
  · intro same
    rw [same]
    rfl

def PatchHunk.placeless (hunk : PatchHunk) : PatchHunk := { hunk with index := 0 }

theorem map_placeless_reindexed (index : Nat) (hunks : List PatchHunk) :
    (reindexed index hunks).map PatchHunk.placeless = hunks.map PatchHunk.placeless := by
  induction hunks generalizing index with
  | nil => rfl
  | cons hunk rest ih => simp [reindexed, ih, placeless]

theorem map_placeless_wantedHunks (ids : Text → Bool) (hunks : List PatchHunk)
    (fileIds : List Text) :
    (wantedHunks ids hunks fileIds).map PatchHunk.placeless =
      wantedHunks ids (hunks.map PatchHunk.placeless) fileIds := by
  simp only [wantedHunks, zip_map_left, filter_map, map_map]
  rfl

theorem joinPatchHunks_placeless {preamble : List Text} {first second : List PatchHunk}
    (same : first.map PatchHunk.placeless = second.map PatchHunk.placeless) :
    joinPatchHunks ⟨preamble, first⟩ = joinPatchHunks ⟨preamble, second⟩ := by
  have texts (hunks : List PatchHunk) :
      hunks.flatMap text = (hunks.map placeless).flatMap text := by
    rw [flatMap_map]
    rfl
  have equal : first.flatMap text = second.flatMap text := by
    rw [texts first, texts second, same]
  simp only [joinPatchHunks, equal]

theorem wantedHunks_wantedHunks (ids more : Text → Bool) (hunks : List PatchHunk)
    (fileIds : List Text) :
    wantedHunks more (wantedHunks ids hunks fileIds) (fileIds.filter ids) =
      wantedHunks (fun id => ids id && more id) hunks fileIds := by
  induction hunks generalizing fileIds with
  | nil => simp [wantedHunks]
  | cons hunk rest ih =>
    cases fileIds with
    | nil => simp [wantedHunks]
    | cons id later =>
      have kept := ih later
      simp only [wantedHunks] at kept
      cases first : ids id <;> cases second : more id <;>
        simp [wantedHunks, first, second, kept]

theorem wantedHunks_eq_nil (path : Text) (ids : Text → Bool) (hunks : List PatchHunk) :
    wantedHunks ids hunks (hunkIds path hunks) = [] ↔ (hunkIds path hunks).filter ids = [] := by
  have fingerprints := map_fingerprint_wantedHunks path ids (fun _ => 0) hunks
  rw [← map_eq_nil_iff, hunkIds, fingerprints, map_eq_nil_iff, filter_map, map_eq_nil_iff]
  rfl

/-- The hunks of a patch that a selection by id keeps. -/
def selectedHunks (path patch : Text) (ids : Text → Bool) : List PatchHunk :=
  wantedHunks ids (splitPatchHunks patch).hunks (hunkIds path (splitPatchHunks patch).hunks)

theorem selectHunks_eq_none (path patch : Text) (ids : Text → Bool) :
    selectHunks path patch ids = none ↔
      (hunkIds path (splitPatchHunks patch).hunks).filter ids = [] := by
  rw [← wantedHunks_eq_nil]
  simp only [selectHunks]
  split
  · next none => exact ⟨fun _ => none, fun _ => rfl⟩
  · next some =>
    exact ⟨fun absent => by split at absent <;> contradiction, fun none => absurd none some⟩

variable {ids : Text → Bool}

theorem selectHunks_split {path patch selected : Text}
    (found : selectHunks path patch ids = some selected)
    (printable : ∀ hunk ∈ selectedHunks path patch ids, hunk.Printable) :
    splitPatchHunks selected = ⟨(splitPatchHunks patch).preamble,
      reindexed 0 (wantedHunks ids (splitPatchHunks patch).hunks
        (hunkIds path (splitPatchHunks patch).hunks))⟩ := by
  have part := wantedHunks_sublist ids (splitPatchHunks patch).hunks
    (hunkIds path (splitPatchHunks patch).hunks)
  have nonempty : patch ≠ [] := by
    rintro rfl
    contradiction
  obtain ⟨sound, indexed⟩ := splitPatchHunks_sound nonempty
  simp only [selectHunks] at found
  split at found
  · contradiction
  next some_hunk =>
    split at found
    · next all =>
        obtain rfl := Option.some.inj found
        rw [part.eq_of_length all, indexed]
    · obtain rfl := Option.some.inj found
      exact splitPatchHunks_joinPatchHunks _ ⟨sound.preamble,
        fun hunk member => sound.hunks hunk (part.subset member), .inr some_hunk⟩ printable

theorem selectHunks_selectHunks {path patch selected : Text}
    (more : Text → Bool) (found : selectHunks path patch ids = some selected)
    (printable : ∀ hunk ∈ selectedHunks path patch ids, hunk.Printable)
    (closed : Closed path (splitPatchHunks patch).hunks ids) :
    selectHunks path selected more = selectHunks path patch fun id => ids id && more id := by
  have split := selectHunks_split found printable
  have sameIds := (hunkIds_wantedHunks path ids (splitPatchHunks patch).hunks).mpr closed
  have both := wantedHunks_wantedHunks ids more (splitPatchHunks patch).hunks
    (hunkIds path (splitPatchHunks patch).hunks)
  have part := wantedHunks_sublist ids (splitPatchHunks patch).hunks
    (hunkIds path (splitPatchHunks patch).hunks)
  simp only [selectHunks] at found ⊢
  simp only [split, sameIds]
  generalize hunkIds path (splitPatchHunks patch).hunks = fileIds at *
  generalize (splitPatchHunks patch).hunks = hunks at *
  have placeless := map_placeless_wantedHunks more
    (reindexed 0 (wantedHunks ids hunks fileIds)) (fileIds.filter ids)
  rw [map_placeless_reindexed, ← map_placeless_wantedHunks, both] at placeless
  have fewer := wantedHunks_sublist more (wantedHunks ids hunks fileIds) (fileIds.filter ids)
  rw [both] at fewer
  generalize wantedHunks more (reindexed 0 (wantedHunks ids hunks fileIds))
    (fileIds.filter ids) = again at *
  generalize wantedHunks (fun id => ids id && more id) hunks fileIds = once at *
  generalize wantedHunks ids hunks fileIds = kept at *
  have sameLength : again.length = once.length := by
    simpa using congrArg List.length placeless
  have sameEmpty : again = [] ↔ once = [] := by
    rw [← length_eq_zero_iff, ← length_eq_zero_iff, sameLength]
  rw [length_reindexed, sameLength, joinPatchHunks_placeless placeless]
  simp only [sameEmpty]
  have few := fewer.length_le
  have some_hunk : kept ≠ [] := fun empty => by simp [empty] at found
  rw [if_neg some_hunk] at found
  by_cases all : kept.length = hunks.length
  · rw [if_pos all] at found
    rw [all, Option.some.inj found]
  rw [if_neg all] at found
  have short : once.length ≠ hunks.length := by
    have bound := part.length_le
    omega
  rw [if_neg short, ← found]
  by_cases whole : once.length = kept.length
  · rw [if_pos whole, fewer.eq_of_length whole]
  · rw [if_neg whole]

/-- Identical hunks are numbered anew in a selection. Its ids are those that were selected,
and selecting from it by id gives the intersection, where no selected hunk has one of its
fingerprint before it that is not selected. -/
theorem selection_by_id (path patch : Text) (ids more : Text → Bool) :
    (hunkIds path (splitPatchHunks patch).hunks).Nodup ∧
    (∀ split : SplitPatch, split.Sound → (∀ hunk ∈ split.hunks, hunk.Printable) →
      reindexed 0 split.hunks = split.hunks → splitPatchHunks (joinPatchHunks split) = split) ∧
    (patch ≠ [] → (∀ hunk ∈ (splitPatchHunks patch).hunks, hunk.Printable) →
      splitPatchHunks (joinPatchHunks (splitPatchHunks patch)) = splitPatchHunks patch) ∧
    (selectHunks path patch ids = none ↔
      (hunkIds path (splitPatchHunks patch).hunks).filter ids = []) ∧
    ∀ selected, selectHunks path patch ids = some selected →
      (∀ hunk ∈ selectedHunks path patch ids, hunk.Printable) →
      splitPatchHunks selected = ⟨(splitPatchHunks patch).preamble,
        reindexed 0 (selectedHunks path patch ids)⟩ ∧
      (hunkIds path (splitPatchHunks selected).hunks =
          (hunkIds path (splitPatchHunks patch).hunks).filter ids ↔
        Closed path (splitPatchHunks patch).hunks ids) ∧
      (Closed path (splitPatchHunks patch).hunks ids →
        selectHunks path selected more = selectHunks path patch fun id => ids id && more id) := by
  refine ⟨hunkIds_nodup path _, fun split sound printable indexed => ?_, ?_,
    selectHunks_eq_none path patch ids, fun selected found printable => ?_⟩
  · rw [splitPatchHunks_joinPatchHunks split sound printable, indexed]
  · exact fun nonempty => splitPatchHunks_rejoined nonempty
  · refine ⟨selectHunks_split found printable, ?_, selectHunks_selectHunks more found printable⟩
    rw [selectHunks_split found printable]
    exact hunkIds_wantedHunks path ids _

def twinPatch : Text := "@@ -1 +1 @@\n-a\n+b\n@@ -9 +9 @@\n-a\n+b\n".toList

theorem selection_by_id_first :
    let first := "@@ -1,1 +1,1 @@\n-a\n+b\n".toList
    hunkIds ['p'] (splitPatchHunks first).hunks = ["p@gn6xm6".toList] ∧
      selectHunks ['p'] first (fun _ => true) =
        selectHunks ['p'] twinPatch (decide <| · = "p@gn6xm6".toList) := by
  intro first
  have selection := selection_by_id ['p'] twinPatch (decide <| · = "p@gn6xm6".toList)
    fun _ => true
  obtain ⟨-, ids, again⟩ := selection.2.2.2.2 first (by decide +kernel) (by decide +kernel)
  have closed : Closed ['p'] (splitPatchHunks twinPatch).hunks
      (decide <| · = "p@gn6xm6".toList) := by
    unfold Closed
    decide +kernel
  refine ⟨(ids.mpr closed).trans (by decide +kernel), (again closed).trans ?_⟩
  simp only [Bool.and_true]

/-- The second of two identical hunks takes the id of the first, and a header whose number is
joined with a power is no header. -/
theorem selection_renumbers :
    let second := "p@gn6xm6#1".toList
    let distant := "@@ -1000000000000000000000 +1 @@\n-a\n".toList
    hunkIds ['p'] (splitPatchHunks twinPatch).hunks = ["p@gn6xm6".toList, second] ∧
      (selectHunks ['p'] twinPatch (decide <| · = second)).map
          (fun selected => hunkIds ['p'] (splitPatchHunks selected).hunks) =
        some ["p@gn6xm6".toList] ∧
      (splitPatchHunks distant).hunks.length = 1 ∧
      (splitPatchHunks (joinPatchHunks (splitPatchHunks distant))).hunks = [] := by
  decide +kernel

end Zuse.Review
