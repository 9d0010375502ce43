import Zuse.Index.Chunker

namespace Zuse.Index

open Zuse.Data List

/-! Whatever the parser finds, no written line of a file is left out of its chunks: one of
them names the line in its range and quotes it whole. -/

structure Quotes (row : List Char) (line : Nat) (chunk : ParsedChunk) : Prop where
  starts : chunk.startLine ≤ line + 1
  ends : line + 1 ≤ chunk.endLine
  quoted : row <:+: chunk.content.toList

section

variable {row : List Char} {rows : List (List Char)} {line : Nat}

theorem infix_intercalate (member : row ∈ rows) : row <:+: ['\n'].intercalate rows := by
  induction rows with
  | nil => cases member
  | cons head rest ih =>
    cases rest with
    | nil =>
      have only : ['\n'].intercalate [head] = row := by
        rw [intercalate_singleton, mem_singleton.mp member]
      exact only ▸ infix_rfl
    | cons next others =>
      rw [intercalate_cons_cons, append_assoc]
      cases member with
      | head => exact infix_append' [] row _
      | tail _ later =>
        have inRest : row <:+: ['\n'].intercalate (next :: others) := ih later
        exact (inRest.trans (suffix_append _ _).isInfix).trans (suffix_append _ _).isInfix

theorem quoted_joinLines (member : row ∈ rows) : row <:+: (joinLines rows).toList := by
  unfold joinLines
  rw [String.toList_ofList]
  exact infix_intercalate member

theorem not_isBlank_of_infix {text : List Char} (inside : row <:+: text)
    (written : isBlank row = false) : isBlank text = false := by
  unfold isBlank at *
  rw [all_eq_false] at *
  obtain ⟨char, inRow, visible⟩ := written
  exact ⟨char, inside.subset inRow, visible⟩

/-- Steps that lead from the first number to a stop pass over every number between. -/
theorem exists_step_around {stop : Nat} (between : List Nat) {first : Nat}
    (from_ : first ≤ line) (before : line < stop) :
    ∃ step ∈ (first :: (between ++ [stop])).zip (between ++ [stop]),
      step.1 ≤ line ∧ line < step.2 := by
  induction between generalizing first with
  | nil => exact ⟨(first, stop), by simp, from_, before⟩
  | cons next rest ih =>
    by_cases earlier : line < next
    · exact ⟨(first, next), by simp, from_, earlier⟩
    · obtain ⟨step, member, around⟩ := ih (Nat.le_of_not_lt earlier)
      exact ⟨step, mem_cons_of_mem _ member, around⟩

variable (found : rows[line]? = some row)
include found

theorem windowsFrom_covers (start : Nat) :
    ∃ chunk ∈ windowsFrom start rows, Quotes row (start + line) chunk := by
  induction start, rows using windowsFrom.induct generalizing line with
  | case1 start rows fits =>
    have place : line < rows.length := (List.getElem?_eq_some_iff.mp found).1
    rw [windowsFrom, if_pos fits]
    refine ⟨_, mem_singleton_self _, ?_, ?_, ?_⟩
    · simp
    · simp only
      omega
    · apply quoted_joinLines
      rw [take_of_length_le fits]
      exact mem_of_getElem? found
  | case2 start rows long ih =>
    have place : line < rows.length := (List.getElem?_eq_some_iff.mp found).1
    rw [windowsFrom, if_neg long]
    by_cases near : line < windowLines
    · refine ⟨_, mem_cons_self, ?_, ?_, ?_⟩
      · simp
      · simp only
        omega
      · apply quoted_joinLines
        have taken : (rows.take windowLines)[line]? = some row := by
          rw [getElem?_take_of_lt near, found]
        exact mem_of_getElem? taken
    · have past : stride ≤ line := by
        unfold windowLines at near
        unfold stride
        omega
      have later : (rows.drop stride)[line - stride]? = some row := by
        rw [getElem?_drop, Nat.add_sub_cancel' past]
        exact found
      obtain ⟨chunk, member, quotes⟩ := ih later
      rw [Nat.add_assoc, Nat.add_sub_cancel' past] at quotes
      exact ⟨chunk, mem_cons_of_mem _ member, quotes⟩

theorem sectionOf_quotes {start end_ : Nat} (from_ : start ≤ line) (before : line < end_)
    (written : isBlank row = false) :
    ∃ chunk, sectionOf rows start end_ = some chunk ∧ Quotes row line chunk := by
  have sliced : ((rows.take end_).drop start)[line - start]? = some row := by
    rw [getElem?_drop, Nat.add_sub_cancel' from_, getElem?_take_of_lt before]
    exact found
  have member : row ∈ (rows.take end_).drop start := mem_of_getElem? sliced
  have notBlank : isBlank (['\n'].intercalate ((rows.take end_).drop start)) = false :=
    not_isBlank_of_infix (infix_intercalate member) written
  refine ⟨⟨.section, start + 1, end_, joinLines ((rows.take end_).drop start), none⟩, ?_,
    Nat.succ_le_succ from_, before, quoted_joinLines member⟩
  unfold sectionOf
  simp [notBlank]

end

theorem exists_boundaries (lines : List (List Char)) :
    ∃ between, boundaries lines = 0 :: (between ++ [lines.length]) := by
  unfold boundaries
  dsimp only
  split
  · rename_i top
    obtain ⟨rest, headings⟩ := head?_eq_some_iff.mp top
    rw [headings]
    exact ⟨rest, rfl⟩
  · exact ⟨_, rfl⟩

section

variable {source : String} {row : List Char} {line : Nat}

variable (found : (splitLines source)[line]? = some row) (written : isBlank row = false)
include found

theorem windowChunker_covers : ∃ chunk ∈ (windowChunker source).chunks, Quotes row line chunk := by
  have covered : ∃ chunk ∈ windowsFrom 0 (splitLines source), Quotes row (0 + line) chunk :=
    windowsFrom_covers found 0
  rwa [Nat.zero_add] at covered

theorem combineForCode_covers (parse : LanguageId → String → Parsing) (language : LanguageId) :
    ∃ chunk ∈ ((combineForCode parse source language).getD (windowChunker source)).chunks,
      Quotes row line chunk := by
  obtain ⟨chunk, member, quotes⟩ := windowChunker_covers found
  refine ⟨chunk, ?_, quotes⟩
  unfold combineForCode
  cases treesitterChunker parse source language with
  | none => exact member
  | some declared => exact mem_append_right _ member

/-- A row is a piece of the source, less the carriage return that ended it. -/
theorem infix_source : row <:+: source.toList := by
  have member : row ∈ splitLines source := mem_of_getElem? found
  have piece : ∃ piece ∈ source.toList.splitOn '\n', row <:+: piece := by
    unfold splitLines at member
    cases mem_append.mp member with
    | inl ended =>
      obtain ⟨piece, inPieces, rfl⟩ := mem_map.mp ended
      refine ⟨piece, dropLast_subset _ inPieces, ?_⟩
      unfold dropReturn
      split
      · have start := dropLast_prefix piece
        exact start.isInfix
      · exact infix_rfl
    | inr last =>
      rw [Option.mem_toList] at last
      exact ⟨row, mem_of_getLast? last, infix_rfl⟩
  obtain ⟨piece, inPieces, inside⟩ := piece
  have joined : piece <:+: ['\n'].intercalate (source.toList.splitOn '\n') :=
    infix_intercalate inPieces
  rw [intercalate_splitOn] at joined
  exact inside.trans joined

include written

theorem jsonChunker_covers : ∃ chunk ∈ (jsonChunker source).chunks, Quotes row line chunk := by
  have place : line < (splitLines source).length := (List.getElem?_eq_some_iff.mp found).1
  have notBlank : isBlank source.toList = false :=
    not_isBlank_of_infix (infix_source found) written
  unfold jsonChunker
  rw [notBlank]
  refine ⟨_, mem_singleton_self _, ?_, place, infix_source found⟩
  exact Nat.le_add_left 1 line

theorem markdownChunker_covers :
    ∃ chunk ∈ (markdownChunker source).chunks, Quotes row line chunk := by
  have place : line < (splitLines source).length := (List.getElem?_eq_some_iff.mp found).1
  obtain ⟨between, bounds⟩ := exists_boundaries (splitLines source)
  obtain ⟨step, member, from_, before⟩ := exists_step_around between (Nat.zero_le line) place
  obtain ⟨chunk, cut, quotes⟩ := sectionOf_quotes found from_ before written
  refine ⟨chunk, ?_, quotes⟩
  unfold markdownChunker
  rw [mem_filterMap]
  rw [bounds]
  exact ⟨step, member, cut⟩

theorem chunkSource_covers (parse : LanguageId → String → Parsing) (language : LanguageId) :
    ∃ chunk ∈ (chunkSource parse source language).chunks, Quotes row line chunk := by
  cases language with
  | typescript => exact combineForCode_covers found parse .typescript
  | tsx => exact combineForCode_covers found parse .tsx
  | javascript => exact combineForCode_covers found parse .javascript
  | jsx => exact combineForCode_covers found parse .jsx
  | markdown => exact markdownChunker_covers found written
  | json => exact jsonChunker_covers found written
  | unknown => exact windowChunker_covers found

end

theorem chunkSource_covers_last_line :
    ∃ chunk ∈ (chunkSource (fun _ _ => .throws) "# a\r\nb" .markdown).chunks,
      Quotes ['b'] 1 chunk :=
  chunkSource_covers (by decide) (by decide) (fun _ _ => .throws) .markdown

end Zuse.Index
