import Mathlib.Data.List.Basic

namespace Zuse.Data

/-! Decoding of UTF-8 where every maximal invalid stretch of bytes becomes one
replacement character. -/

def replacement : Char := Char.ofNat 0xFFFD

/-- A character some of whose bytes are still to come, with the bounds of the next. -/
structure PendingChar where
  code : Nat
  missing : Nat
  lower : Nat
  upper : Nat

/-- The first byte of a character: a character of its own, or the start of a longer one. -/
def openByte (byte : UInt8) : Except Char PendingChar :=
  let value := byte.toNat
  if value < 0x80 then .error (Char.ofNat value)
  else if 0xC2 ≤ value ∧ value ≤ 0xDF then .ok ⟨value - 0xC0, 1, 0x80, 0xBF⟩
  else if 0xE0 ≤ value ∧ value ≤ 0xEF then
    .ok ⟨value - 0xE0, 2, if value = 0xE0 then 0xA0 else 0x80,
      if value = 0xED then 0x9F else 0xBF⟩
  else if 0xF0 ≤ value ∧ value ≤ 0xF4 then
    .ok ⟨value - 0xF0, 3, if value = 0xF0 then 0x90 else 0x80,
      if value = 0xF4 then 0x8F else 0xBF⟩
  else .error replacement

def decodeFrom : Option PendingChar → List UInt8 → List Char
  | none, [] => []
  | some _, [] => [replacement]
  | none, byte :: rest =>
    match openByte byte with
    | .error char => char :: decodeFrom none rest
    | .ok pending => decodeFrom (some pending) rest
  | some pending, byte :: rest =>
    if pending.lower ≤ byte.toNat ∧ byte.toNat ≤ pending.upper then
      let code := pending.code * 64 + (byte.toNat - 0x80)
      if pending.missing = 1 then Char.ofNat code :: decodeFrom none rest
      else decodeFrom (some ⟨code, pending.missing - 1, 0x80, 0xBF⟩) rest
    else
      -- The byte that breaks a character off is read again as a first byte.
      replacement :: match openByte byte with
        | .error char => char :: decodeFrom none rest
        | .ok fresh => decodeFrom (some fresh) rest

def decodeUtf8 (bytes : List UInt8) : String := String.ofList (decodeFrom none bytes)

example : decodeUtf8 [0x61, 0xE2, 0x82, 0xAC, 0xE2, 0x82, 0x62] = "a€\uFFFDb" := by
  decide +kernel

end Zuse.Data
