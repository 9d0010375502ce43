import Zuse.Data.PercentEncoding

namespace Zuse.Data

def isSpace (char : Char) : Bool :=
  let code := char.toNat
  (9 ≤ code && code ≤ 13) || (8192 ≤ code && code ≤ 8202) ||
    [32, 160, 5760, 8232, 8233, 8239, 8287, 12288, 65279].contains code

def trim (text : String) : String :=
  let withoutStart := text.toList.dropWhile isSpace
  String.ofList (withoutStart.reverse.dropWhile isSpace).reverse

def utf16Length (text : String) : Nat :=
  text.toList.foldl (fun length char => length + if char.toNat < 0x10000 then 1 else 2) 0

/-- The first code units of a text; half of a surrogate pair is stored as the
replacement character. -/
def sliceUtf16 : Nat → List Char → List Char
  | _, [] => []
  | 0, _ => []
  | 1, char :: _ => [if char.toNat < 0x10000 then char else Char.ofNat 0xFFFD]
  | count + 2, char :: rest =>
    if char.toNat < 0x10000 then char :: sliceUtf16 (count + 1) rest
    else char :: sliceUtf16 count rest

def escapeJsonChar (char : Char) : List Char :=
  match char.toNat with
  | 34 => ['\\', '"']
  | 92 => ['\\', '\\']
  | 8 => ['\\', 'b']
  | 9 => ['\\', 't']
  | 10 => ['\\', 'n']
  | 12 => ['\\', 'f']
  | 13 => ['\\', 'r']
  | code =>
    if code < 32 then
      ['\\', 'u', '0', '0', hexDigit (code / 16), (hexDigit (code % 16)).toLower]
    else [char]

def jsonString (text : String) : String :=
  String.ofList ('"' :: text.toList.flatMap escapeJsonChar ++ ['"'])

def jsonObject (members : List (String × String)) : String :=
  "\x7b" ++ ",".intercalate
    (members.map fun member => jsonString member.1 ++ ":" ++ member.2) ++ "\x7d"

end Zuse.Data
