import Mathlib.Data.List.Basic

namespace Zuse.Index

/-! Paths as the index sees them, and the language that a path's extension names. -/

inductive LanguageId
  | typescript
  | tsx
  | javascript
  | jsx
  | json
  | markdown
  | unknown
  deriving DecidableEq

def basename (path : List Char) : List Char :=
  ((path.reverse.dropWhile (· = '/')).takeWhile (· ≠ '/')).reverse

/-- From the last dot of the last portion on; a dot that opens the portion does not
start an extension. -/
def extname (path : String) : String :=
  let name := basename path.toList
  let tail := (name.reverse.takeWhile (· ≠ '.')).reverse
  if name ≠ ['.', '.'] ∧ tail.length + 1 < name.length then String.ofList ('.' :: tail)
  else ""

/-- The Kelvin sign is the one character outside ASCII whose lower case is inside. -/
def toLowerChar (char : Char) : Char :=
  if char.toNat = 0x212A then 'k' else char.toLower

def detectLanguage (path : String) : LanguageId :=
  let ext := String.ofList ((extname path).toList.map toLowerChar)
  if ext = ".ts" ∨ ext = ".cts" ∨ ext = ".mts" then .typescript
  else if ext = ".tsx" then .tsx
  else if ext = ".js" ∨ ext = ".cjs" ∨ ext = ".mjs" then .javascript
  else if ext = ".jsx" then .jsx
  else if ext = ".json" ∨ ext = ".jsonc" then .json
  else if ext = ".md" ∨ ext = ".mdx" ∨ ext = ".markdown" then .markdown
  else .unknown

example : ["a.ts", "src/.json", "x.test.MD", "Makefile", "dir.js/file", ".."].map
    detectLanguage = [.typescript, .unknown, .markdown, .unknown, .unknown, .unknown] := by
  decide +kernel

def isAbsolute (path : List Char) : Bool := path.head? = some '/'

def segments (path : List Char) : List (List Char) := path.splitOn '/'

/-- Walk the portions, last one first in the result: a dot stays, two dots go up. -/
def normalizeSegments (above : List (List Char)) : List (List Char) → List (List Char)
  | [] => above
  | part :: rest =>
    if part = [] ∨ part = ['.'] then normalizeSegments above rest
    else if part = ['.', '.'] then normalizeSegments above.tail rest
    else normalizeSegments (part :: above) rest

/-- The portions of a path from the file system's root, read from a directory. -/
def resolve (cwd path : List Char) : List (List Char) :=
  let full := if isAbsolute path then path else cwd ++ '/' :: path
  (normalizeSegments [] (segments full)).reverse

/-- Drop what two paths have in common, go up from the first and down the second. -/
def descend : List (List Char) → List (List Char) → List (List Char)
  | source :: sourceRest, target :: targetRest =>
    if source = target then descend sourceRest targetRest
    else (source :: sourceRest).map (fun _ => ['.', '.']) ++ target :: targetRest
  | source, target => source.map (fun _ => ['.', '.']) ++ target

def relative (cwd source target : List Char) : List Char :=
  ['/'].intercalate (descend (resolve cwd source) (resolve cwd target))

def toRel (cwd root abs : String) : String :=
  if isAbsolute abs.toList then
    String.ofList (relative cwd.toList root.toList abs.toList)
  else abs

example : ["/repo/src/./a.ts", "/other/b.ts", "c/d.ts"].map (toRel "/home" "/repo") =
    ["src/a.ts", "../other/b.ts", "c/d.ts"] := by
  decide +kernel

end Zuse.Index
