import Mathlib.Data.List.DropRight
import Zuse.Data.Doubles
import Zuse.Data.Text

namespace Zuse.Review

open Zuse.Data

/-! The hunks of a file's unified patch. A text is the list of its characters. -/

abbrev Text := List Char

/-- What `Number` makes of digits. -/
inductive HunkNumber where
  | whole (value : Nat) (rounds : roundedNat 53 value = value)
  | infinity

namespace HunkNumber

def ofNat (number : Nat) : HunkNumber :=
  if roundedNat 53 number < 2 ^ 1024 then
    .whole (roundedNat 53 number) (roundedNat_roundedNat (by decide) number)
  else .infinity

/-- The number in a template, whose digits end in zeros and from `10 ^ 21` on in a power. -/
def text : HunkNumber → Text
  | infinity => "Infinity".toList
  | whole value _ =>
    let digits := Nat.toDigits 10 (fewestDigits 53 value)
    if digits.length ≤ 21 then digits
    else
      let significant := digits.rdropWhile (· = '0')
      significant.take 1 ++ (if significant.length = 1 then [] else '.' :: significant.drop 1) ++
        "e+".toList ++ Nat.toDigits 10 (digits.length - 1)

/-- A number that a template writes with its digits alone. -/
def Plain : HunkNumber → Prop
  | whole value _ => value < 10 ^ 21
  | infinity => False

instance : DecidablePred Plain
  | whole value _ => inferInstanceAs (Decidable (value < 10 ^ 21))
  | infinity => inferInstanceAs (Decidable False)

end HunkNumber

structure PatchHunk where
  index : Nat
  suffix : Text
  oldStart : HunkNumber
  oldLines : HunkNumber
  newStart : HunkNumber
  newLines : HunkNumber
  lines : List Text

structure SplitPatch where
  preamble : List Text
  hunks : List PatchHunk

/-- What `.` does not match. -/
def isLineTerminator (char : Char) : Bool := char.toNat ∈ [10, 13, 0x2028, 0x2029]

/-- `(\d+)` -/
def digitsAt (text : Text) : Option (HunkNumber × Text) :=
  if text.takeWhile Char.isDigit = [] then none
  else
    some (.ofNat (Nat.ofDigitChars 10 (text.takeWhile Char.isDigit) 0), text.dropWhile Char.isDigit)

/-- `(\d+)(?:,(\d+))?`, where an absent count is one. -/
def rangeAt (text : Text) : Option (HunkNumber × HunkNumber × Text) :=
  match digitsAt text with
  | none => none
  | some (start, ',' :: rest) =>
    match digitsAt rest with
    | none => some (start, .ofNat 1, ',' :: rest)
    | some (count, rest) => some (start, count, rest)
  | some (start, rest) => some (start, .ofNat 1, rest)

/-- `HUNK_HEADER`, with the hunk that a header begins. -/
def headerOf : Text → Option PatchHunk
  | '@' :: '@' :: ' ' :: '-' :: text =>
    match rangeAt text with
    | some (oldStart, oldLines, ' ' :: '+' :: text) =>
      match rangeAt text with
      | some (newStart, newLines, ' ' :: '@' :: '@' :: suffix) =>
        if suffix.any isLineTerminator then none
        else some ⟨0, suffix, oldStart, oldLines, newStart, newLines, []⟩
      | _ => none
    | _ => none
  | _ => none

structure Splitting where
  preamble : List Text
  hunks : List PatchHunk
  current : Option PatchHunk

namespace Splitting

def push (splitting : Splitting) : List PatchHunk :=
  match splitting.current with
  | none => splitting.hunks
  | some hunk => splitting.hunks ++ [{ hunk with index := splitting.hunks.length }]

def line (splitting : Splitting) (line : Text) : Splitting :=
  match headerOf line, splitting.current with
  | some header, _ => { splitting with hunks := splitting.push, current := some header }
  | none, none => { splitting with preamble := splitting.preamble ++ [line] }
  | none, some hunk =>
    { splitting with current := some { hunk with lines := hunk.lines ++ [line] } }

end Splitting

def patchLines (patch : Text) : List Text :=
  let lines := patch.splitOn '\n'
  if lines.getLast? = some [] then lines.dropLast else lines

def splitPatchHunks (patch : Text) : SplitPatch :=
  let splitting := (patchLines patch).foldl Splitting.line ⟨[], [], none⟩
  ⟨splitting.preamble, splitting.push⟩

def hunkHeader (hunk : PatchHunk) : Text :=
  "@@ -".toList ++ (hunk.oldStart.text ++ ',' :: (hunk.oldLines.text ++
    " +".toList ++ (hunk.newStart.text ++ ',' :: (hunk.newLines.text ++
      " @@".toList ++ hunk.suffix))))

def PatchHunk.text (hunk : PatchHunk) : List Text := hunkHeader hunk :: hunk.lines

def joinPatchHunks (split : SplitPatch) : Text :=
  ['\n'].intercalate (split.preamble ++ split.hunks.flatMap PatchHunk.text) ++ ['\n']

def charCodes (char : Char) : List Nat :=
  if char.toNat < 0x10000 then [char.toNat]
  else [0xD800 + (char.toNat - 0x10000) / 0x400, 0xDC00 + (char.toNat - 0x10000) % 0x400]

def fnv1a (value : Text) : Nat :=
  (value.flatMap charCodes).foldl (fun hash code => (hash ^^^ code) * 16777619 % 4294967296)
    2166136261

/-- `toString(36)`, with the digits of a number below a power of 36. -/
def base36 : Nat → Nat → Text
  | 0, _ => []
  | size + 1, number =>
    (if number < 36 then [] else base36 size (number / 36)) ++
      [Char.ofNat (if number % 36 < 10 then 48 + number % 36 else 87 + number % 36)]

def hash (text : Text) : Text := base36 7 (fnv1a text)

def changedLines (hunk : PatchHunk) : List Text :=
  hunk.lines.filter fun line => line.head? = some '+' ∨ line.head? = some '-'

def fingerprint (hunk : PatchHunk) : Text :=
  hash (['\n'].intercalate ((changedLines hunk).map (List.rdropWhile isSpace)))

/-- Each fingerprint with the number of its earlier occurrences; `seen` counts those. -/
def occurrences : (seen : Text → Nat) → List Text → List (Text × Nat)
  | _, [] => []
  | seen, text :: rest =>
    (text, seen text) :: occurrences (Function.update seen text (seen text + 1)) rest

def hunkId (path : Text) (occurrence : Text × Nat) : Text :=
  path ++ '@' :: (occurrence.1 ++
    if occurrence.2 = 0 then [] else '#' :: Nat.toDigits 10 occurrence.2)

def hunkIds (path : Text) (hunks : List PatchHunk) : List Text :=
  (occurrences (fun _ => 0) (hunks.map fingerprint)).map (hunkId path)

/-- The set of ids is given by its test of membership. -/
def wantedHunks (ids : Text → Bool) (hunks : List PatchHunk) (fileIds : List Text) :
    List PatchHunk :=
  ((hunks.zip fileIds).filter (ids ·.2)).map Prod.fst

def selectHunks (path patch : Text) (ids : Text → Bool) : Option Text :=
  let split := splitPatchHunks patch
  let hunks := wantedHunks ids split.hunks (hunkIds path split.hunks)
  if hunks = [] then none
  else if hunks.length = split.hunks.length then some patch
  else some (joinPatchHunks { split with hunks })

end Zuse.Review
