import Mathlib.Data.Finset.Union
import Mathlib.Data.Set.Basic
import Zuse.Review.HunkSelections

namespace Zuse.Review

open List

structure GuideViewPatch where
  path : Text
  patch : Text

inductive ReviewGuideChapterKind where
  | core
  | tests
  | generated
  | mechanical
  deriving DecidableEq

structure ReviewGuideChapter where
  id : Text
  ordinal : Rat
  kind : ReviewGuideChapterKind
  title : Text
  summary : Text
  hunkIds : List Text
  validatedBy : List Text
  askHints : List Text
  auto : Bool

structure GuideViewChapter where
  id : Text
  number : Option Nat
  /-- Absent for what is new since the guide. -/
  kind : Option ReviewGuideChapterKind
  title : Text
  summary : Text
  files : List Text
  hunkCount : Nat
  hunkIds : List Text
  changed : Bool
  testFiles : List Text
  askHints : List Text
  auto : Bool

def NEW_SINCE_GUIDE_ID : Text := "new-since-guide".toList

/-- `id.slice(0, id.lastIndexOf("@"))` -/
def pathOfHunkId (id : Text) : Text :=
  if '@' ∈ id then ((id.reverse.dropWhile (· ≠ '@')).drop 1).reverse else id.dropLast

def unique : List Text → List Text
  | [] => []
  | value :: rest => value :: (unique rest).filter fun other => decide (other ≠ value)

def liveHunkIds (patches : List GuideViewPatch) : List Text :=
  patches.flatMap fun entry =>
    let hunks := (splitPatchHunks entry.patch).hunks
    if hunks = [] then [entry.path ++ '@' :: "file".toList] else hunkIds entry.path hunks

/-- The review of a diff; `fileHunks` has the live hunk ids of each file. -/
structure ReviewState where
  reviewedHunks : Finset Text
  fileHunks : Text → Option (List Text)
  isFileViewed : Text → Bool

structure ReviewChange where
  reviewedHunks : Finset Text
  toggleFiles : List Text

def isChapterReviewed (chapter : List Text) (state : ReviewState) : Bool :=
  !chapter.isEmpty && chapter.all fun id =>
    decide (id ∈ state.reviewedHunks) || state.isFileViewed (pathOfHunkId id)

def ReviewState.hunksOf (state : ReviewState) (path : Text) : List Text :=
  (state.fileHunks path).getD []

def reviewChapter (chapter : List Text) (reviewed : Bool) (state : ReviewState) :
    ReviewChange :=
  let paths := unique (chapter.map pathOfHunkId)
  if reviewed then
    let next := state.reviewedHunks ∪ chapter.toFinset
    { reviewedHunks := next
      toggleFiles := paths.filter fun path =>
        !state.isFileViewed path && !(state.hunksOf path).isEmpty &&
          (state.hunksOf path).all fun id => decide (id ∈ next) }
  else
    let viewed := paths.filter state.isFileViewed
    let others := (viewed.flatMap state.hunksOf).filter fun id => decide (id ∉ chapter)
    { reviewedHunks := (state.reviewedHunks ∪ others.toFinset) \ chapter.toFinset
      toggleFiles := viewed }

def toggleViewed (isFileViewed : Text → Bool) (path : Text) : Text → Bool :=
  Function.update isFileViewed path (!isFileViewed path)

def ReviewState.after (state : ReviewState) (change : ReviewChange) : ReviewState :=
  { state with
    reviewedHunks := change.reviewedHunks
    isFileViewed := change.toggleFiles.foldl toggleViewed state.isFileViewed }

def fileHunks (patches : List GuideViewPatch) (path : Text) : Option (List Text) :=
  (patches.find? fun entry => decide (entry.path = path)).map fun entry => liveHunkIds [entry]

/-- The place of the last patch of a path. -/
def diffOrder (patches : List GuideViewPatch) (path : Text) : Option Nat :=
  patches.zipIdx.foldl (fun found entry => if entry.1.path = path then some entry.2 else found) none

def byDiffOrder (patches : List GuideViewPatch) (paths : List Text) : List Text :=
  paths.mergeSort fun first second => decide
    ((diffOrder patches first).getD 9007199254740991 ≤
      (diffOrder patches second).getD 9007199254740991)

/-- The chapters that show files, with the number that the next core chapter gets. -/
def projectChapters (patches : List GuideViewPatch) :
    Nat → List ReviewGuideChapter → List GuideViewChapter
  | _, [] => []
  | number, chapter :: rest =>
    let present := chapter.hunkIds.filter fun id => decide (id ∈ liveHunkIds patches)
    let files := byDiffOrder patches
      ((unique (present.map pathOfHunkId)).filter fun path => (diffOrder patches path).isSome)
    if files.isEmpty && chapter.auto then projectChapters patches number rest
    else
      { id := chapter.id
        number := if chapter.kind = .core then some number else none
        kind := some chapter.kind
        title := chapter.title
        summary := chapter.summary
        files
        hunkCount := present.length
        hunkIds := present
        changed := decide (present.length < chapter.hunkIds.length)
        testFiles := byDiffOrder patches
          (unique ((chapter.validatedBy.filter fun id =>
            decide (id ∈ liveHunkIds patches)).map pathOfHunkId))
        askHints := chapter.askHints
        auto := chapter.auto } ::
      projectChapters patches (if chapter.kind = .core then number + 1 else number) rest

def projectGuide (chapters : List ReviewGuideChapter) (patches : List GuideViewPatch)
    (newTitle newSummary : Text) : List GuideViewChapter :=
  let owned := chapters.flatMap ReviewGuideChapter.hunkIds
  let fresh := (liveHunkIds patches).filter fun id => decide (id ∉ owned)
  let ordered := chapters.mergeSort fun first second => decide (first.ordinal ≤ second.ordinal)
  let projected := projectChapters patches 1 ordered
  if fresh.isEmpty then projected
  else
    { id := NEW_SINCE_GUIDE_ID
      number := none
      kind := none
      title := newTitle
      summary := newSummary
      files := byDiffOrder patches (unique (fresh.map pathOfHunkId))
      hunkCount := fresh.length
      hunkIds := fresh
      changed := false
      testFiles := []
      askHints := []
      auto := true } :: projected

theorem mem_unique (values : List Text) (value : Text) : value ∈ unique values ↔
    value ∈ values := by
  induction values with
  | nil => simp [unique]
  | cons first rest ih => by_cases same : value = first <;> simp [unique, ih, same]

theorem unique_nodup (values : List Text) : (unique values).Nodup := by
  induction values with
  | nil => exact nodup_nil
  | cons first rest ih => exact nodup_cons.mpr ⟨by simp, ih.filter _⟩

theorem pathOfHunkId_at (path : Text) {rest : Text} (plain : '@' ∉ rest) :
    pathOfHunkId (path ++ '@' :: rest) = path := by
  have all : ∀ char ∈ rest.reverse, decide (char ≠ '@') = true := fun char found =>
    decide_eq_true fun same => plain (mem_reverse.mp (same ▸ found))
  rw [pathOfHunkId, reverse_append, reverse_cons, append_assoc, dropWhile_append_of_pos all]
  simp

variable {entry : GuideViewPatch} {id : Text}

theorem liveHunkIds_spec (live : id ∈ liveHunkIds [entry]) : pathOfHunkId id = entry.path := by
  simp only [liveHunkIds, flatMap_cons, flatMap_nil, append_nil] at live
  split at live
  · rw [mem_singleton.mp live]
    exact pathOfHunkId_at entry.path (by decide)
  obtain ⟨occurrence, found, rfl⟩ := mem_map.mp live
  refine pathOfHunkId_at entry.path fun inside => ?_
  rcases mem_append.mp inside with inside | inside
  · exact (occurrence_plain found _ inside).2 rfl
  split at inside
  · contradiction
  · rcases mem_cons.mp inside with same | inside
    · contradiction
    · exact toDigits_ne_at _ inside

theorem liveHunkIds_ne_nil (entry : GuideViewPatch) : liveHunkIds [entry] ≠ [] := by
  simp only [liveHunkIds, flatMap_cons, flatMap_nil, append_nil]
  split
  · simp
  next some_hunk =>
    intro empty
    have none := map_fst_occurrences (fun _ => 0)
      ((splitPatchHunks entry.patch).hunks.map fingerprint)
    rw [map_eq_nil_iff.mp empty] at none
    exact some_hunk (map_eq_nil_iff.mp none.symm)

variable {patches : List GuideViewPatch}

theorem mem_liveHunkIds :
    id ∈ liveHunkIds patches ↔ ∃ entry ∈ patches, id ∈ liveHunkIds [entry] := by
  simp [liveHunkIds]

theorem fileHunks_live (distinct : (patches.map GuideViewPatch.path).Nodup)
    (member : entry ∈ patches) :
    fileHunks patches entry.path = some (liveHunkIds [entry]) := by
  induction patches with
  | nil => contradiction
  | cons first rest ih =>
    obtain ⟨fresh, distinct⟩ := nodup_cons.mp distinct
    rcases mem_cons.mp member with rfl | later
    · simp [fileHunks]
    have other : first.path ≠ entry.path := fun same =>
      fresh (same ▸ mem_map.mpr ⟨entry, later, rfl⟩)
    have found := ih distinct later
    simp only [fileHunks, List.find?_cons, other, decide_false] at found ⊢
    exact found

theorem fileHunks_path {path : Text} {ids : List Text}
    (found : fileHunks patches path = some ids) : ∀ id ∈ ids, pathOfHunkId id = path := by
  obtain ⟨entry, present, rfl⟩ := Option.map_eq_some_iff.mp found
  have same := List.find?_some present
  exact fun id live => (liveHunkIds_spec live).trans (of_decide_eq_true same)

theorem foldl_toggleViewed (files : List Text) (distinct : files.Nodup)
    (isFileViewed : Text → Bool) (path : Text) :
    files.foldl toggleViewed isFileViewed path =
      if path ∈ files then !isFileViewed path else isFileViewed path := by
  induction files generalizing isFileViewed with
  | nil => simp
  | cons file rest ih =>
    obtain ⟨fresh, distinct⟩ := nodup_cons.mp distinct
    rw [foldl_cons, ih distinct]
    by_cases same : path = file
    · simp [same, fresh, toggleViewed]
    · simp [same, toggleViewed]

/-- The live hunks that are reviewed by themselves or lie in a viewed file. -/
def effective (patches : List GuideViewPatch) (state : ReviewState) : Set Text :=
  {id | ∃ entry ∈ patches, id ∈ liveHunkIds [entry] ∧
    (id ∈ state.reviewedHunks ∨ state.isFileViewed entry.path = true)}

section Review

variable {patches : List GuideViewPatch} {chapter : List Text} {state : ReviewState}
  {entry : GuideViewPatch} {id : Text}

theorem after_reviewed : (state.after (reviewChapter chapter true state)).reviewedHunks =
    state.reviewedHunks ∪ chapter.toFinset := rfl

theorem after_viewed (distinct : (patches.map GuideViewPatch.path).Nodup)
    (known : state.fileHunks = fileHunks patches) (member : entry ∈ patches) :
    (state.after (reviewChapter chapter true state)).isFileViewed entry.path = true ↔
      state.isFileViewed entry.path = true ∨
        entry.path ∈ chapter.map pathOfHunkId ∧
          ∀ id ∈ liveHunkIds [entry], id ∈ state.reviewedHunks ∪ chapter.toFinset := by
  have hunks : state.hunksOf entry.path = liveHunkIds [entry] := by
    rw [ReviewState.hunksOf, known, fileHunks_live distinct member, Option.getD_some]
  have some_hunk := liveHunkIds_ne_nil entry
  simp only [ReviewState.after, reviewChapter, if_true]
  rw [foldl_toggleViewed _ ((unique_nodup _).filter _)]
  cases viewed : state.isFileViewed entry.path <;>
    simp [viewed, hunks, some_hunk, mem_unique]

theorem after_unreviewed (known : state.fileHunks = fileHunks patches) :
    id ∈ (state.after (reviewChapter chapter false state)).reviewedHunks ↔
      id ∉ chapter ∧ (id ∈ state.reviewedHunks ∨
        ∃ path ∈ chapter.map pathOfHunkId, state.isFileViewed path = true ∧
          id ∈ (fileHunks patches path).getD []) := by
  have hunks (path : Text) : state.hunksOf path = (fileHunks patches path).getD [] := by
    rw [ReviewState.hunksOf, known]
  simp only [ReviewState.after, reviewChapter, Bool.false_eq_true, if_false, Finset.mem_sdiff,
    Finset.mem_union, mem_toFinset, mem_filter, mem_flatMap, mem_unique,
    decide_eq_true_eq, hunks]
  constructor
  · rintro ⟨reviewed | ⟨⟨path, ⟨touched, viewed⟩, member⟩, _⟩, other⟩
    · exact ⟨other, .inl reviewed⟩
    · exact ⟨other, .inr ⟨path, touched, viewed, member⟩⟩
  · rintro ⟨other, reviewed | ⟨path, touched, viewed, member⟩⟩
    · exact ⟨.inl reviewed, other⟩
    · exact ⟨.inr ⟨⟨path, ⟨touched, viewed⟩, member⟩, other⟩, other⟩

theorem after_unviewed (path : Text) :
    (state.after (reviewChapter chapter false state)).isFileViewed path = true ↔
      state.isFileViewed path = true ∧ path ∉ chapter.map pathOfHunkId := by
  simp only [ReviewState.after, reviewChapter, Bool.false_eq_true, if_false]
  rw [foldl_toggleViewed _ ((unique_nodup _).filter _)]
  cases viewed : state.isFileViewed path <;> simp [viewed, mem_unique]

section

variable (distinct : (patches.map GuideViewPatch.path).Nodup)
  (known : state.fileHunks = fileHunks patches)
include distinct known

/-- Where the files of a diff are distinct, the effect of checking a chapter, or of
unchecking it, is on its own hunks. -/
theorem effective_after (live : ∀ id ∈ chapter, id ∈ liveHunkIds patches) (reviewed : Bool) :
    effective patches (state.after (reviewChapter chapter reviewed state)) =
      if reviewed then effective patches state ∪ {id | id ∈ chapter}
      else effective patches state \ {id | id ∈ chapter} := by
  ext id
  cases reviewed with
  | true =>
    constructor
    · rintro ⟨entry, member, inside, found⟩
      rw [after_reviewed, Finset.mem_union, mem_toFinset,
        after_viewed distinct known member] at found
      rcases found with (found | found) | (found | ⟨_, all⟩)
      · exact .inl ⟨entry, member, inside, .inl found⟩
      · exact .inr found
      · exact .inl ⟨entry, member, inside, .inr found⟩
      · rcases Finset.mem_union.mp (all id inside) with found | found
        · exact .inl ⟨entry, member, inside, .inl found⟩
        · exact .inr (mem_toFinset.mp found)
    · rintro (⟨entry, member, inside, found⟩ | found)
      · refine ⟨entry, member, inside, ?_⟩
        rw [after_reviewed, Finset.mem_union, after_viewed distinct known member]
        exact found.imp .inl .inl
      · obtain ⟨entry, member, inside⟩ := mem_liveHunkIds.mp (live id found)
        exact ⟨entry, member, inside, .inl (Finset.mem_union_right _ (mem_toFinset.mpr found))⟩
  | false =>
    constructor
    · rintro ⟨entry, member, inside, found⟩
      rw [after_unreviewed known, after_unviewed] at found
      rcases found with ⟨other, found | ⟨path, touched, viewed, found⟩⟩ | ⟨viewed, untouched⟩
      · exact ⟨⟨entry, member, inside, .inl found⟩, other⟩
      · cases present : fileHunks patches path with
        | none => simp [present] at found
        | some ids =>
          rw [present] at found
          have same := (fileHunks_path present id found).symm.trans (liveHunkIds_spec inside)
          exact ⟨⟨entry, member, inside, .inr (same ▸ viewed)⟩, other⟩
      · refine ⟨⟨entry, member, inside, .inr viewed⟩, fun own => untouched ?_⟩
        exact mem_map.mpr ⟨id, own, liveHunkIds_spec inside⟩
    · rintro ⟨⟨entry, member, inside, found⟩, other⟩
      refine ⟨entry, member, inside, ?_⟩
      rw [after_unreviewed known, after_unviewed]
      rcases found with found | viewed
      · exact .inl ⟨other, .inl found⟩
      by_cases touched : entry.path ∈ chapter.map pathOfHunkId
      · refine .inl ⟨other, .inr ⟨entry.path, touched, viewed, ?_⟩⟩
        rwa [fileHunks_live distinct member]
      · exact .inr ⟨viewed, touched⟩

theorem isFileViewed_after (member : entry ∈ patches)
    (touched : entry.path ∈ chapter.map pathOfHunkId) :
    let next := state.after (reviewChapter chapter true state)
    next.isFileViewed entry.path = true ↔
      ∀ id ∈ liveHunkIds [entry], id ∈ effective patches next := by
  constructor
  · exact fun viewed id inside => ⟨entry, member, inside, .inr viewed⟩
  intro all
  by_contra unviewed
  refine unviewed ((after_viewed distinct known member).mpr (.inr ⟨touched, fun id inside => ?_⟩))
  obtain ⟨other, _, lies, found⟩ := all id inside
  have same : other.path = entry.path :=
    (liveHunkIds_spec lies).symm.trans (liveHunkIds_spec inside)
  exact found.resolve_right (same ▸ unviewed)

end

theorem isChapterReviewed_iff (live : ∀ id ∈ chapter, id ∈ liveHunkIds patches) :
    isChapterReviewed chapter state = true ↔
      chapter ≠ [] ∧ ∀ id ∈ chapter, id ∈ effective patches state := by
  have each : ∀ id ∈ chapter, (id ∈ state.reviewedHunks ∨
      state.isFileViewed (pathOfHunkId id) = true) ↔ id ∈ effective patches state := by
    intro id found
    constructor
    · intro reviewed
      obtain ⟨entry, member, inside⟩ := mem_liveHunkIds.mp (live id found)
      exact ⟨entry, member, inside, by rwa [liveHunkIds_spec inside] at reviewed⟩
    · rintro ⟨entry, _, inside, reviewed⟩
      rwa [liveHunkIds_spec inside]
  simp only [isChapterReviewed, Bool.and_eq_true, Bool.not_eq_true', isEmpty_eq_false_iff,
    all_eq_true, Bool.or_eq_true, decide_eq_true_eq]
  exact and_congr_right fun _ => forall₂_congr each

end Review

theorem diffOrder_isSome (member : entry ∈ patches) :
    (diffOrder patches entry.path).isSome = true := by
  have kept (entries : List (GuideViewPatch × Nat)) (found : Option Nat)
      (given : found.isSome = true ∨ ∃ one ∈ entries, one.1.path = entry.path) :
      (entries.foldl (fun found one => if one.1.path = entry.path then some one.2 else found)
        found).isSome = true := by
    induction entries generalizing found with
    | nil => simpa using given
    | cons first rest ih =>
      refine ih _ ?_
      by_cases same : first.1.path = entry.path
      · exact .inl (by simp [same])
      · simpa [same] using given
  obtain ⟨index, found⟩ := mem_iff_getElem?.mp member
  exact kept _ none (.inr ⟨_, mk_mem_zipIdx_iff_getElem?.mpr found, rfl⟩)

theorem projectChapters_shows (live : id ∈ liveHunkIds patches)
    (chapters : List ReviewGuideChapter) (number : Nat) {chapter : ReviewGuideChapter}
    (member : chapter ∈ chapters) (own : id ∈ chapter.hunkIds) :
    ∃ shown ∈ projectChapters patches number chapters, id ∈ shown.hunkIds := by
  induction chapters generalizing number with
  | nil => contradiction
  | cons first rest ih =>
    rcases mem_cons.mp member with rfl | later
    · have present : id ∈ chapter.hunkIds.filter fun id => decide (id ∈ liveHunkIds patches) := by
        simp [own, live]
      obtain ⟨entry, inside, found⟩ := mem_liveHunkIds.mp live
      have file : entry.path ∈ byDiffOrder patches
          ((unique ((chapter.hunkIds.filter fun id =>
            decide (id ∈ liveHunkIds patches)).map pathOfHunkId)).filter
              fun path => (diffOrder patches path).isSome) := by
        rw [byDiffOrder, mem_mergeSort, mem_filter, mem_unique]
        exact ⟨mem_map.mpr ⟨id, present, liveHunkIds_spec found⟩, diffOrder_isSome inside⟩
      have shown : ¬((byDiffOrder patches ((unique ((chapter.hunkIds.filter fun id =>
          decide (id ∈ liveHunkIds patches)).map pathOfHunkId)).filter
            fun path => (diffOrder patches path).isSome)).isEmpty && chapter.auto) = true := by
        simp [ne_nil_of_mem file]
      simp only [projectChapters, if_neg shown]
      exact ⟨_, mem_cons_self, present⟩
    · simp only [projectChapters]
      split
      · exact ih number later
      · obtain ⟨shown, found, has⟩ := ih _ later
        exact ⟨shown, mem_cons_of_mem _ found, has⟩

theorem projectGuide_shows (live : id ∈ liveHunkIds patches)
    (chapters : List ReviewGuideChapter) (newTitle newSummary : Text) :
    ∃ shown ∈ projectGuide chapters patches newTitle newSummary, id ∈ shown.hunkIds := by
  simp only [projectGuide]
  by_cases owned : id ∈ chapters.flatMap ReviewGuideChapter.hunkIds
  · obtain ⟨chapter, member, own⟩ := mem_flatMap.mp owned
    obtain ⟨shown, found, has⟩ := projectChapters_shows live _ 1 (mem_mergeSort.mpr member) own
    refine ⟨shown, ?_, has⟩
    split
    · exact found
    · exact mem_cons_of_mem _ found
  have fresh : id ∈ (liveHunkIds patches).filter fun id =>
      decide (id ∉ chapters.flatMap ReviewGuideChapter.hunkIds) := by
    simpa using ⟨live, by simpa using owned⟩
  rw [isEmpty_eq_false_iff.mpr (ne_nil_of_mem fresh)]
  exact ⟨_, mem_cons_self, fresh⟩

/-- Checking a chapter on or off changes the review of its own hunks only, and the guide
shows every live hunk. -/
theorem chapter_review (patches : List GuideViewPatch)
    (distinct : (patches.map GuideViewPatch.path).Nodup) (chapter : List Text)
    (live : ∀ id ∈ chapter, id ∈ liveHunkIds patches) (reviewedHunks : Finset Text)
    (isFileViewed : Text → Bool) (reviewed : Bool) :
    let state : ReviewState := ⟨reviewedHunks, fileHunks patches, isFileViewed⟩
    let next := state.after (reviewChapter chapter reviewed state)
    effective patches next =
        (if reviewed then effective patches state ∪ {id | id ∈ chapter}
          else effective patches state \ {id | id ∈ chapter}) ∧
      (reviewed → ∀ entry ∈ patches, entry.path ∈ chapter.map pathOfHunkId →
        (next.isFileViewed entry.path = true ↔
          ∀ id ∈ liveHunkIds [entry], id ∈ effective patches next)) ∧
      (∀ other, (∀ id ∈ other, id ∈ liveHunkIds patches) → (∀ id ∈ other, id ∉ chapter) →
        isChapterReviewed other next = isChapterReviewed other state) ∧
      ∀ chapters newTitle newSummary, ∀ id ∈ liveHunkIds patches,
        ∃ shown ∈ projectGuide chapters patches newTitle newSummary, id ∈ shown.hunkIds := by
  intro state next
  have known : state.fileHunks = fileHunks patches := rfl
  have changed := effective_after distinct known live reviewed
  refine ⟨changed, ?_, fun other inside apart => ?_, fun chapters newTitle newSummary id found =>
    projectGuide_shows found chapters newTitle newSummary⟩
  · rintro rfl entry member touched
    exact isFileViewed_after distinct rfl member touched
  · rw [Bool.eq_iff_iff, isChapterReviewed_iff inside, isChapterReviewed_iff inside]
    refine and_congr_right fun _ => forall₂_congr fun id found => ?_
    rw [changed]
    cases reviewed <;> simp [apart id found]

theorem chapter_review_shared :
    let patches : List GuideViewPatch :=
      [⟨['a'], "@@ -1 +1 @@\n-a\n+b\n@@ -9 +9 @@\n-c\n+d\n".toList⟩, ⟨['b'], []⟩]
    let chapter := ["a@gn6xm6".toList, "b@file".toList]
    let state : ReviewState := ⟨∅, fileHunks patches, (decide <| · = ['b'])⟩
    effective patches (state.after (reviewChapter chapter false state)) =
      effective patches state \ {id | id ∈ chapter} :=
  (chapter_review _ (by decide) _ (by decide +kernel) ∅ _ false).1

end Zuse.Review
