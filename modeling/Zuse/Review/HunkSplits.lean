import Zuse.Review.PatchHunks
import Zuse.Data.InsertionMap

namespace Zuse.Review

open Zuse.Data List Splitting Nat PatchHunk

/-- A line of a patch that is not the header of a hunk. -/
def IsBody (line : Text) : Prop := '\n' ∉ line ∧ headerOf line = none

structure PatchHunk.Sound (hunk : PatchHunk) : Prop where
  suffix : hunk.suffix.any isLineTerminator = false
  lines : ∀ line ∈ hunk.lines, IsBody line

/-- The header of a hunk says its numbers in digits. -/
structure PatchHunk.Printable (hunk : PatchHunk) : Prop where
  oldStart : hunk.oldStart.Plain
  oldLines : hunk.oldLines.Plain
  newStart : hunk.newStart.Plain
  newLines : hunk.newLines.Plain

instance (hunk : PatchHunk) : Decidable hunk.Printable :=
  decidable_of_iff
    (hunk.oldStart.Plain ∧ hunk.oldLines.Plain ∧ hunk.newStart.Plain ∧ hunk.newLines.Plain)
    ⟨fun ⟨oldStart, oldLines, newStart, newLines⟩ => ⟨oldStart, oldLines, newStart, newLines⟩,
      fun ⟨oldStart, oldLines, newStart, newLines⟩ => ⟨oldStart, oldLines, newStart, newLines⟩⟩

def reindexed : Nat → List PatchHunk → List PatchHunk
  | _, [] => []
  | index, hunk :: rest => { hunk with index } :: reindexed (index + 1) rest

structure SplitPatch.Sound (split : SplitPatch) : Prop where
  preamble : ∀ line ∈ split.preamble, IsBody line
  hunks : ∀ hunk ∈ split.hunks, hunk.Sound
  nonempty : split.preamble ≠ [] ∨ split.hunks ≠ []

variable {number : HunkNumber}

theorem HunkNumber.text_of_plain (plain : number.Plain) :
    ∃ digits, number.text = Nat.toDigits 10 digits ∧ ofNat digits = number := by
  cases number with
  | infinity => cases plain
  | whole value rounds =>
    change value < 10 ^ 21 at plain
    have finite (bits : Nat) (wide : 70 ≤ bits) : value < 2 ^ bits :=
      lt_of_lt_of_le (lt_trans plain (by decide)) (Nat.pow_le_pow_right (by decide) wide)
    have power : 10 ^ 21 = 476837158203125 * 2 ^ 21 := by decide
    rw [power] at plain
    have digits := fewestDigits_lt rounds (by decide) plain
    rw [← power] at digits
    have short := (length_toDigits_le_iff (by decide : 1 < 10) (by decide)).mpr digits
    refine ⟨fewestDigits 53 value, if_pos short, ?_⟩
    simp only [ofNat, roundedNat_fewestDigits rounds, if_pos (finite 1024 (by decide))]

theorem digitsAt_text (plain : number.Plain) (rest : Text)
    (stops : ∀ char ∈ rest.head?, char.isDigit = false) :
    digitsAt (number.text ++ rest) = some (number, rest) := by
  obtain ⟨digits, written, same⟩ := number.text_of_plain plain
  have isDigit : ∀ char ∈ toDigits 10 digits, char.isDigit = true := fun _ =>
    isDigit_of_mem_toDigits (by omega) (by omega)
  have taken : rest.takeWhile Char.isDigit = [] := by
    cases rest with
    | nil => rfl
    | cons char rest => simp [stops char rfl]
  have dropped : rest.dropWhile Char.isDigit = rest := by
    cases rest with
    | nil => rfl
    | cons char rest => simp [stops char rfl]
  rw [digitsAt, written, takeWhile_append_of_pos isDigit, dropWhile_append_of_pos isDigit,
    taken, dropped, append_nil, if_neg toDigits_ne_nil, ofDigitChars_ten_toDigits, same]

theorem rangeAt_text {start count : HunkNumber} (first : start.Plain) (second : count.Plain)
    (rest : Text) :
    rangeAt (start.text ++ ',' :: (count.text ++ ' ' :: rest)) =
      some (start, count, ' ' :: rest) := by
  rw [rangeAt, digitsAt_text first _ (by simp)]
  simp only [digitsAt_text second (' ' :: rest) (by simp)]

section

variable {hunk : PatchHunk} (sound : hunk.Sound) (printable : hunk.Printable)
include sound printable

theorem headerOf_hunkHeader :
    headerOf (hunkHeader hunk) = some { hunk with index := 0, lines := [] } := by
  have shape : hunkHeader hunk = '@' :: '@' :: ' ' :: '-' ::
      (hunk.oldStart.text ++ ',' :: (hunk.oldLines.text ++ ' ' :: '+' ::
        (hunk.newStart.text ++ ',' :: (hunk.newLines.text ++
          ' ' :: '@' :: '@' :: hunk.suffix)))) := by
    simp [hunkHeader]
  rw [shape]
  simp only [headerOf, rangeAt_text printable.oldStart printable.oldLines,
    rangeAt_text printable.newStart printable.newLines, sound.suffix, Bool.false_eq_true,
    if_false]

theorem newline_not_mem_hunkHeader : '\n' ∉ hunkHeader hunk := by
  have digits {number : HunkNumber} (plain : number.Plain) : '\n' ∉ number.text := by
    obtain ⟨digits, written, -⟩ := number.text_of_plain plain
    rw [written]
    exact fun found =>
      absurd (isDigit_of_mem_toDigits (by omega) (by omega) found) (by decide)
  have suffix : '\n' ∉ hunk.suffix := fun found =>
    absurd (any_eq_false.mp sound.suffix _ found) (by decide)
  simp [hunkHeader, digits printable.oldStart, digits printable.oldLines,
    digits printable.newStart, digits printable.newLines, suffix]

end

theorem foldl_body (lines : List Text) (body : ∀ line ∈ lines, IsBody line) (preamble : List Text) :
    lines.foldl Splitting.line ⟨preamble, [], none⟩ = ⟨preamble ++ lines, [], none⟩ := by
  induction lines generalizing preamble with
  | nil => simp
  | cons line rest ih =>
    have next : Splitting.line ⟨preamble, [], none⟩ line = ⟨preamble ++ [line], [], none⟩ := by
      simp [Splitting.line, (body line (by simp)).2]
    rw [foldl_cons, next, ih (fun line found => body line (by simp [found]))]
    simp

theorem foldl_lines (lines : List Text) (body : ∀ line ∈ lines, IsBody line)
    (preamble : List Text) (hunks : List PatchHunk) (hunk : PatchHunk) :
    lines.foldl Splitting.line ⟨preamble, hunks, some hunk⟩ =
      ⟨preamble, hunks, some { hunk with lines := hunk.lines ++ lines }⟩ := by
  induction lines generalizing hunk with
  | nil => simp
  | cons line rest ih =>
    have next : Splitting.line ⟨preamble, hunks, some hunk⟩ line =
        ⟨preamble, hunks, some { hunk with lines := hunk.lines ++ [line] }⟩ := by
      simp [Splitting.line, (body line (by simp)).2]
    rw [foldl_cons, next, ih (fun line found => body line (by simp [found]))]
    simp

theorem foldl_text (hunks : List PatchHunk) (sound : ∀ hunk ∈ hunks, hunk.Sound)
    (printable : ∀ hunk ∈ hunks, hunk.Printable) (splitting : Splitting) :
    let last := (hunks.flatMap text).foldl Splitting.line splitting
    last.preamble = splitting.preamble ∧
      last.push = splitting.push ++ reindexed splitting.push.length hunks := by
  induction hunks generalizing splitting with
  | nil => simp [reindexed]
  | cons hunk rest ih =>
    have fits := sound hunk (by simp)
    have first : hunk.text.foldl Splitting.line splitting =
        ⟨splitting.preamble, splitting.push, some { hunk with index := 0 }⟩ := by
      rw [text, foldl_cons]
      simp only [Splitting.line, headerOf_hunkHeader fits (printable hunk (by simp))]
      rw [foldl_lines hunk.lines fits.lines]
      simp
    obtain ⟨preamble, push⟩ := ih (fun hunk found => sound hunk (by simp [found]))
      (fun hunk found => printable hunk (by simp [found]))
      ⟨splitting.preamble, splitting.push, some { hunk with index := 0 }⟩
    rw [flatMap_cons, foldl_append, first]
    refine ⟨preamble, push.trans ?_⟩
    simp [Splitting.push, reindexed]

theorem patchLines_joined (lines : List Text) (some_line : lines ≠ [])
    (clean : ∀ line ∈ lines, '\n' ∉ line) :
    patchLines (['\n'].intercalate lines ++ ['\n']) = lines := by
  have joined : ['\n'].intercalate lines ++ ['\n'] = ['\n'].intercalate (lines ++ [[]]) := by
    induction lines with
    | nil => exact absurd rfl some_line
    | cons line rest ih =>
      cases rest with
      | nil => simp [List.intercalate]
      | cons next rest =>
        have later := ih (by simp) (fun line found => clean line (by simp [found]))
        rw [intercalate_cons_cons, append_assoc, later]
        simp
  rw [patchLines, joined, splitOn_intercalate]
  · simp
  · intro line found
    rcases mem_append.mp found with found | found
    · exact clean line found
    · simp_all
  · simp

theorem splitPatchHunks_joinPatchHunks (split : SplitPatch) (sound : split.Sound)
    (printable : ∀ hunk ∈ split.hunks, hunk.Printable) :
    splitPatchHunks (joinPatchHunks split) =
      { split with hunks := reindexed 0 split.hunks } := by
  have clean : ∀ line ∈ split.preamble ++ split.hunks.flatMap text, '\n' ∉ line := by
    intro line found
    rcases mem_append.mp found with found | found
    · exact (sound.preamble line found).1
    obtain ⟨hunk, member, found⟩ := mem_flatMap.mp found
    rcases mem_cons.mp found with rfl | found
    · exact newline_not_mem_hunkHeader (sound.hunks hunk member) (printable hunk member)
    · exact ((sound.hunks hunk member).lines line found).1
  have nonempty : split.preamble ++ split.hunks.flatMap text ≠ [] := by
    intro empty
    obtain ⟨noPreamble, noText⟩ := append_eq_nil_iff.mp empty
    rcases sound.nonempty with found | found
    · exact found noPreamble
    obtain ⟨hunk, rest, shape⟩ := exists_cons_of_ne_nil found
    simp [shape, text] at noText
  obtain ⟨preamble, push⟩ := foldl_text split.hunks sound.hunks printable ⟨split.preamble, [], none⟩
  rw [splitPatchHunks, joinPatchHunks, patchLines_joined _ nonempty clean, foldl_append,
    foldl_body split.preamble sound.preamble]
  simp only [SplitPatch.mk.injEq]
  exact ⟨preamble, push.trans (by simp [Splitting.push])⟩

structure Splitting.Sound (splitting : Splitting) : Prop where
  preamble : ∀ line ∈ splitting.preamble, IsBody line
  hunks : ∀ hunk ∈ splitting.push, hunk.Sound
  indexed : reindexed 0 splitting.push = splitting.push

theorem length_reindexed (index : Nat) (hunks : List PatchHunk) :
    (reindexed index hunks).length = hunks.length := by
  induction hunks generalizing index with
  | nil => rfl
  | cons hunk rest ih => simp [reindexed, ih]

theorem reindexed_append (index : Nat) (first second : List PatchHunk) :
    reindexed index (first ++ second) =
      reindexed index first ++ reindexed (index + first.length) second := by
  induction first generalizing index with
  | nil => simp [reindexed]
  | cons hunk rest ih =>
    simp only [cons_append, reindexed, ih, length_cons]
    rw [add_right_comm, add_assoc]

theorem reindexed_concat {hunks : List PatchHunk} (indexed : reindexed 0 hunks = hunks)
    (hunk : PatchHunk) :
    reindexed 0 (hunks ++ [{ hunk with index := hunks.length }]) =
      hunks ++ [{ hunk with index := hunks.length }] := by
  rw [reindexed_append, indexed]
  simp [reindexed]

theorem headerOf_suffix {line : Text} {header : PatchHunk} (found : headerOf line = some header) :
    header.suffix.any isLineTerminator = false ∧ header.lines = [] := by
  unfold headerOf at found
  split at found
  · split at found
    · split at found
      · split at found
        · contradiction
        · next clean =>
            cases found
            exact ⟨by simpa using clean, rfl⟩
      · contradiction
    · contradiction
  · contradiction

variable {splitting : Splitting}

theorem Splitting.Sound.line (sound : splitting.Sound) {line : Text}
    (clean : '\n' ∉ line) : (splitting.line line).Sound := by
  obtain ⟨preamble, hunks, current⟩ := splitting
  cases header : headerOf line with
  | some hunk =>
    obtain ⟨suffix, none⟩ := headerOf_suffix header
    have fits : hunk.Sound := ⟨suffix, by simp [none]⟩
    simp only [Splitting.line, header]
    refine ⟨sound.preamble, ?_, reindexed_concat sound.indexed hunk⟩
    intro other found
    rcases mem_append.mp found with found | found
    · exact sound.hunks other found
    · rw [mem_singleton.mp found]
      exact ⟨fits.suffix, fits.lines⟩
  | none =>
    have body : IsBody line := ⟨clean, header⟩
    cases current with
    | none =>
      simp only [Splitting.line, header]
      refine ⟨?_, sound.hunks, sound.indexed⟩
      intro other found
      rcases mem_append.mp found with found | found
      · exact sound.preamble other found
      · rw [mem_singleton.mp found]
        exact body
    | some hunk =>
      have fits := sound.hunks { hunk with index := hunks.length } (by simp [push])
      have indexed := sound.indexed
      simp only [Splitting.line, header]
      refine ⟨sound.preamble, ?_, ?_⟩
      · intro other found
        rcases mem_append.mp found with found | found
        · exact sound.hunks other (mem_append_left _ found)
        · rw [mem_singleton.mp found]
          refine ⟨fits.suffix, fun other found => ?_⟩
          rcases mem_append.mp found with found | found
          · exact fits.lines other found
          · rw [mem_singleton.mp found]
            exact body
      · simp only [push, reindexed_append] at indexed ⊢
        have kept : reindexed 0 hunks = hunks :=
          (append_inj indexed (by simp [length_reindexed])).1
        simp [kept, reindexed]

def Splitting.Started (splitting : Splitting) : Prop :=
  splitting.preamble ≠ [] ∨ splitting.push ≠ []

theorem Splitting.line_started (splitting : Splitting) (line : Text) :
    (splitting.line line).Started := by
  unfold Splitting.line
  split
  · exact .inr (by simp [push])
  · exact .inl (by simp)
  · exact .inr (by simp [push])

theorem foldl_sound (lines : List Text) (clean : ∀ line ∈ lines, '\n' ∉ line)
    (sound : splitting.Sound) (started : lines = [] → splitting.Started) :
    (lines.foldl Splitting.line splitting).Sound ∧
      (lines.foldl Splitting.line splitting).Started := by
  induction lines generalizing splitting with
  | nil => exact ⟨sound, started rfl⟩
  | cons line rest ih =>
    exact ih (fun line found => clean line (by simp [found]))
      (sound.line (clean line (by simp))) fun _ => splitting.line_started line

theorem newline_not_mem_splitOn {text line : Text} (found : line ∈ text.splitOn '\n') :
    '\n' ∉ line := by
  induction text generalizing line with
  | nil => simp_all
  | cons char rest ih =>
    rw [splitOn_cons_eq_if_modifyHead] at found
    split at found
    · rcases mem_cons.mp found with rfl | found
      · simp
      · exact ih found
    next other =>
      obtain ⟨first, later, shape⟩ :=
        exists_cons_of_ne_nil (splitOn_ne_nil '\n' rest)
      rw [shape] at found
      rcases mem_cons.mp found with rfl | found
      · simp only [mem_cons, not_or]
        exact ⟨fun same => other (by simp [← same]), ih (by simp [shape])⟩
      · exact ih (by simp [shape, found])

variable {patch : Text}

theorem patchLines_ne_nil (nonempty : patch ≠ []) : patchLines patch ≠ [] := by
  have rejoined : ['\n'].intercalate (patch.splitOn '\n') = patch := intercalate_splitOn '\n'
  obtain ⟨first, rest, shape⟩ := exists_cons_of_ne_nil (splitOn_ne_nil '\n' patch)
  rw [shape] at rejoined
  simp only [patchLines, shape]
  cases rest with
  | nil =>
    have same : first = patch := by simpa using rejoined
    simp [same, nonempty]
  | cons next rest => split <;> simp

theorem splitPatchHunks_sound (nonempty : patch ≠ []) :
    (splitPatchHunks patch).Sound ∧
      reindexed 0 (splitPatchHunks patch).hunks = (splitPatchHunks patch).hunks := by
  have clean : ∀ line ∈ patchLines patch, '\n' ∉ line := by
    intro line found
    simp only [patchLines] at found
    split at found
    · exact newline_not_mem_splitOn (dropLast_subset _ found)
    · exact newline_not_mem_splitOn found
  have fresh : Sound ⟨[], [], none⟩ := ⟨by simp, by simp [push], rfl⟩
  obtain ⟨sound, started⟩ := foldl_sound (patchLines patch) clean fresh fun empty => absurd empty
    (patchLines_ne_nil nonempty)
  exact ⟨⟨sound.preamble, sound.hunks, started⟩, sound.indexed⟩

/-- A patch is split into the same hunks once it was joined again. -/
theorem splitPatchHunks_rejoined (nonempty : patch ≠ [])
    (printable : ∀ hunk ∈ (splitPatchHunks patch).hunks, hunk.Printable) :
    splitPatchHunks (joinPatchHunks (splitPatchHunks patch)) = splitPatchHunks patch := by
  obtain ⟨sound, indexed⟩ := splitPatchHunks_sound nonempty
  rw [splitPatchHunks_joinPatchHunks _ sound printable, indexed]

end Zuse.Review
