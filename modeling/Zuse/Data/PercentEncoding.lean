import Mathlib.Data.List.Basic

namespace Zuse.Data

open List List

/-! Percent-encoding of URI components and the colon-joined identifiers built
from it. Escaping works on the UTF-8 bytes: every character that is left
unescaped is one byte long. -/

def hexDigit (value : Nat) : Char :=
  if value < 10 then Char.ofNat (48 + value) else Char.ofNat (55 + value)

/-- Letters, digits and the marks `- _ . ! ~ * ' ( )`. -/
def isUnescaped (char : Char) : Bool :=
  char.isAlphanum || [45, 95, 46, 33, 126, 42, 39, 40, 41].contains char.toNat

def encodeByte (byte : UInt8) : List Char :=
  if isUnescaped (Char.ofUInt8 byte) then [Char.ofUInt8 byte]
  else ['%', hexDigit (byte.toNat / 16), hexDigit (byte.toNat % 16)]

def utf8Bytes (text : String) : List UInt8 :=
  text.toList.flatMap String.utf8EncodeChar

def encodeURIComponent (text : String) : String :=
  String.ofList ((utf8Bytes text).flatMap encodeByte)

def joinId (parts : List String) : String :=
  ":".intercalate (parts.map encodeURIComponent)

theorem utf8Bytes_injective {left right : String}
    (equal : utf8Bytes left = utf8Bytes right) : left = right := by
  have bytes : left.toList.utf8Encode = right.toList.utf8Encode :=
    congrArg toByteArray equal
  apply String.toByteArray_inj.mp
  simpa using bytes

theorem hexDigit_injective {left right : Nat} (leftBound : left < 16)
    (rightBound : right < 16) (equal : hexDigit left = hexDigit right) :
    left = right := by
  have finite : ∀ a < 16, ∀ b < 16, hexDigit a = hexDigit b → a = b := by decide
  exact finite left leftBound right rightBound equal

theorem hexDigit_ne_colon {value : Nat} (bound : value < 16) : hexDigit value ≠ ':' := by
  have finite : ∀ a < 16, hexDigit a ≠ ':' := by decide
  exact finite value bound

theorem ofUInt8_injective {left right : UInt8}
    (equal : Char.ofUInt8 left = Char.ofUInt8 right) : left = right := by
  have values : left.toUInt32.toNat = right.toUInt32.toNat := congrArg Char.toNat equal
  apply UInt8.toNat_inj.mp
  simpa using values

theorem encodeByte_append_inj {left right : UInt8} {leftRest rightRest : List Char}
    (equal : encodeByte left ++ leftRest = encodeByte right ++ rightRest) :
    left = right ∧ leftRest = rightRest := by
  unfold encodeByte at equal
  split at equal <;> split at equal
  · obtain ⟨headEq, tailEq⟩ := cons.inj equal
    exact ⟨ofUInt8_injective headEq, tailEq⟩
  · rename_i plain _
    obtain ⟨headEq, -⟩ := cons.inj equal
    rw [headEq] at plain
    contradiction
  · rename_i _ plain
    obtain ⟨headEq, -⟩ := cons.inj equal
    rw [← headEq] at plain
    contradiction
  simp only [cons_append, nil_append, cons.injEq, true_and] at equal
  obtain ⟨highEq, lowEq, tailEq⟩ := equal
  have leftSize := left.toNat_lt
  have rightSize := right.toNat_lt
  have high := hexDigit_injective (by omega) (by omega) highEq
  have low := hexDigit_injective (by omega) (by omega) lowEq
  exact ⟨UInt8.toNat_inj.mp (by omega), tailEq⟩

theorem flatMap_encodeByte_injective {left right : List UInt8}
    (equal : left.flatMap encodeByte = right.flatMap encodeByte) : left = right := by
  have nonempty : ∀ byte rest, encodeByte byte ++ rest ≠ [] := by
    intro byte rest
    unfold encodeByte
    split <;> simp
  induction left generalizing right with
  | nil =>
    cases right with
    | nil => rfl
    | cons byte rest =>
      exact absurd equal.symm (nonempty byte _)
  | cons leftByte leftRest ih =>
    cases right with
    | nil =>
      exact absurd equal (nonempty leftByte _)
    | cons rightByte rightRest =>
      obtain ⟨headEq, tailEq⟩ := encodeByte_append_inj equal
      rw [headEq, ih tailEq]

theorem encodeURIComponent_injective {left right : String}
    (equal : encodeURIComponent left = encodeURIComponent right) : left = right :=
  utf8Bytes_injective (flatMap_encodeByte_injective (String.ofList_injective equal))

theorem colon_not_mem_encodeURIComponent (text : String) :
    ':' ∉ (encodeURIComponent text).toList := by
  simp only [encodeURIComponent, String.toList_ofList, mem_flatMap, not_exists, not_and]
  intro byte _ member
  have size := byte.toNat_lt
  unfold encodeByte at member
  split at member
  · rename_i plain
    rw [mem_singleton] at member
    rw [← member] at plain
    contradiction
  simp only [mem_cons, not_mem_nil, or_false] at member
  rcases member with percent | high | low
  · exact absurd percent (by decide)
  · exact hexDigit_ne_colon (by omega) high.symm
  · exact hexDigit_ne_colon (by omega) low.symm

theorem split_at_separator {separator : Char} {left right leftRest rightRest : List Char}
    (leftFree : separator ∉ left) (rightFree : separator ∉ right)
    (equal : left ++ separator :: leftRest = right ++ separator :: rightRest) :
    left = right ∧ leftRest = rightRest := by
  induction left generalizing right with
  | nil =>
    cases right with
    | nil => exact ⟨rfl, (cons.inj equal).2⟩
    | cons head tail =>
      have headEq := (cons.inj equal).1
      exact absurd (headEq ▸ mem_cons_self) rightFree
  | cons head tail ih =>
    cases right with
    | nil =>
      have headEq := (cons.inj equal).1
      exact absurd (headEq ▸ mem_cons_self) leftFree
    | cons other rest =>
      simp only [mem_cons, not_or] at leftFree rightFree
      obtain ⟨headEq, tailEq⟩ := cons.inj equal
      obtain ⟨restEq, suffixEq⟩ := ih leftFree.2 rightFree.2 tailEq
      exact ⟨by rw [headEq, restEq], suffixEq⟩

theorem toList_joinId_cons (part next : String) (rest : List String) :
    (joinId (part :: next :: rest)).toList =
      (encodeURIComponent part).toList ++ ':' :: (joinId (next :: rest)).toList := by
  simp [joinId, String.intercalate_cons_cons]

theorem joinId_singleton (part : String) : joinId [part] = encodeURIComponent part := by
  simp [joinId]

theorem joinId_injective {left right : List String}
    (lengths : left.length = right.length) (equal : joinId left = joinId right) :
    left = right := by
  induction left generalizing right with
  | nil =>
    cases right with
    | nil => rfl
    | cons => cases lengths
  | cons part rest ih =>
    cases right with
    | nil => cases lengths
    | cons other others =>
      cases rest with
      | nil =>
        cases others with
        | cons => cases lengths
        | nil =>
          rw [encodeURIComponent_injective equal]
      | cons next rest =>
        cases others with
        | nil => cases lengths
        | cons otherNext others =>
          have lists := congrArg String.toList equal
          rw [toList_joinId_cons, toList_joinId_cons] at lists
          obtain ⟨partEq, tailEq⟩ := split_at_separator (colon_not_mem_encodeURIComponent part)
            (colon_not_mem_encodeURIComponent other) lists
          rw [encodeURIComponent_injective (String.toList_injective partEq),
            ih (by simpa using lengths) (String.toList_injective tailEq)]

theorem count_colon_joinId (part : String) (rest : List String) :
    (joinId (part :: rest)).toList.count ':' = rest.length := by
  induction rest generalizing part with
  | nil =>
    exact count_eq_zero_of_not_mem (colon_not_mem_encodeURIComponent part)
  | cons next rest ih =>
    rw [toList_joinId_cons, count_append, count_cons_self, ih,
      count_eq_zero_of_not_mem (colon_not_mem_encodeURIComponent part)]
    exact Nat.zero_add _

theorem joinId_injective_of_ne_nil {left right : List String} (leftParts : left ≠ [])
    (rightParts : right ≠ []) (equal : joinId left = joinId right) : left = right := by
  refine joinId_injective ?_ equal
  obtain ⟨part, rest, rfl⟩ := exists_cons_of_ne_nil leftParts
  obtain ⟨other, others, rfl⟩ := exists_cons_of_ne_nil rightParts
  have colons := congrArg (fun id => id.toList.count ':') equal
  simp only [count_colon_joinId] at colons
  rw [length_cons, length_cons, colons]

theorem repr_injective {left right : Nat} (equal : toString left = toString right) :
    left = right := by
  have digits : Nat.toDigits 10 left = Nat.toDigits 10 right := by
    have lists := congrArg String.toList equal
    change (Nat.repr left).toList = (Nat.repr right).toList at lists
    simpa only [Nat.toList_repr] using lists
  have values := congrArg (fun chars => Nat.ofDigitChars 10 chars 0) digits
  simpa using values

end Zuse.Data
