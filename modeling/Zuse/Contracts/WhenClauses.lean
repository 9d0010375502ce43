import Zuse.Contracts.KeybindingsParse

namespace Zuse.Contracts

open KeybindingWhenNode (identifier)
open List WhenOperator

/-- `rest` is what may follow a first operand: operators, each with its operand. -/
inductive WhenPart where
  | atom
  | chain (operator : WhenOperator)
  | rest (operator : WhenOperator) (left : KeybindingWhenNode)

def WhenOperator.operand : WhenOperator → WhenPart
  | .and => .atom
  | .or => .chain .and

def Blank (gap : Text) : Prop := ∀ ch ∈ gap, isSpace ch = true

def IsName (name : Text) : Prop :=
  (∃ ch rest, name = ch :: rest ∧ isLetter ch = true) ∧ ∀ ch ∈ name, isWord ch = true

/-- The sentences with their trees. Negation, parentheses and right operands nest. -/
inductive Sentence : WhenPart → Nat → Text → KeybindingWhenNode → Prop
  | identifier {depth gap name} (within : depth ≤ MAX_WHEN_DEPTH) (blank : Blank gap)
      (isName : IsName name) : Sentence .atom depth (gap ++ name) (.identifier name)
  | not {depth gap text node} (within : depth ≤ MAX_WHEN_DEPTH) (blank : Blank gap)
      (inner : Sentence .atom (depth + 1) text node) :
      Sentence .atom depth (gap ++ '!' :: text) (.not node)
  | parentheses {depth gap text close node} (within : depth ≤ MAX_WHEN_DEPTH)
      (blank : Blank gap) (inner : Sentence (.chain .or) (depth + 1) text node)
      (closeBlank : Blank close) :
      Sentence .atom depth (gap ++ '(' :: (text ++ (close ++ [')']))) node
  | chain {operator depth text left more node} (first : Sentence operator.operand depth text left)
      (rest : Sentence (.rest operator left) depth more node) :
      Sentence (.chain operator) depth (text ++ more) node
  | done {operator depth left} : Sentence (.rest operator left) depth [] left
  | more {operator depth left gap text right more node} (blank : Blank gap)
      (next : Sentence operator.operand (depth + 1) text right)
      (rest : Sentence (.rest operator (operator.node left right)) depth more node) :
      Sentence (.rest operator left) depth (gap ++ (operator.text ++ (text ++ more))) node

variable {gap : Text}

theorem skipWs_blank (blank : Blank gap) (text : Text) : skipWs (gap ++ text) = skipWs text :=
  dropWhile_append_of_pos blank

variable {ch : Char}

theorem skipWs_cons (solid : isSpace ch = false) (text : Text) :
    skipWs (ch :: text) = ch :: text := by
  simp [skipWs, solid]

theorem blank_split (text : Text) : ∃ gap, Blank gap ∧ text = gap ++ skipWs text :=
  ⟨text.takeWhile isSpace, fun _ => mem_takeWhile_imp, takeWhile_append_dropWhile.symm⟩

theorem skipWs_skipWs (text : Text) : skipWs (skipWs text) = skipWs text :=
  dropWhile_idempotent isSpace text

theorem not_space_of_word (word : isWord ch = true) : isSpace ch = false := by
  have range : (48 ≤ ch.toNat ∧ ch.toNat ≤ 57) ∨ (65 ≤ ch.toNat ∧ ch.toNat ≤ 90) ∨
      (97 ≤ ch.toNat ∧ ch.toNat ≤ 122) ∨ ch.toNat = 95 := by
    delta isWord Char.isAlphanum Char.isAlpha Char.isUpper Char.isLower Char.isDigit at word
    simp only [Bool.or_eq_true, Bool.and_eq_true, decide_eq_true_eq, beq_iff_eq,
      ge_iff_le, UInt32.le_iff_toNat_le] at word
    rcases word with ((upper | lower) | digit) | rfl
    · exact .inr (.inl upper)
    · exact .inr (.inr (.inl lower))
    · exact .inl digit
    · exact .inr (.inr (.inr rfl))
  simp only [isSpace, Bool.or_eq_false_iff, decide_eq_false_iff_not, mem_cons,
    not_mem_nil, Bool.and_eq_false_iff, or_false, not_or]
  omega

theorem word_of_letter (letter : isLetter ch = true) : isWord ch = true := by
  simp only [isLetter, isWord, Char.isAlphanum, Bool.or_eq_true] at letter ⊢
  rcases letter with alpha | underscore
  · exact .inl (.inl alpha)
  · exact .inr underscore

variable {operator : WhenOperator} {text : Text}

theorem WhenOperator.after_eq_some {rest : Text} :
    operator.after text = some rest ↔ text = operator.text ++ rest := by
  constructor
  · intro follows
    unfold after at follows
    split at follows
    · cases follows; rfl
    · cases follows; rfl
    · cases follows
  · rintro rfl
    cases operator <;> rfl

variable {left node : KeybindingWhenNode} {depth : Nat}

theorem Sentence.rest_blank (blank : Blank gap)
    (rest : Sentence (.rest operator left) depth text node) :
    (text = [] ∧ node = left) ∨ Sentence (.rest operator left) depth (gap ++ text) node := by
  cases rest with
  | done => exact .inl ⟨rfl, rfl⟩
  | more inner next rest =>
    refine .inr ?_
    rw [← append_assoc]
    refine .more (fun ch member => ?_) next rest
    exact (mem_append.mp member).elim (blank ch) (inner ch)

variable {trimmed : Text}

def Reads (parser : Text → WhenParse) (part : WhenPart) (depth : Nat) : Prop :=
  ∀ rest node left, parser rest = .ok (node, left) →
    ∃ text gap, rest = text ++ (gap ++ left) ∧ Blank gap ∧ Sentence part depth text node

theorem parseOperands_reads {operand : Text → WhenParse}
    (reads : Reads operand operator.operand (depth + 1)) (turns : Nat)
    (first : KeybindingWhenNode) :
    Reads (parseOperands operator operand turns first) (.rest operator first) depth := by
  induction turns generalizing first with
  | zero =>
    intro rest node left parsed
    cases parsed
    obtain ⟨gap, blank, split⟩ := blank_split rest
    exact ⟨[], gap, split, blank, .done⟩
  | succ turns ih =>
    intro rest node left parsed
    obtain ⟨gap, blank, split⟩ := blank_split rest
    rw [parseOperands] at parsed
    split at parsed
    · cases parsed
      exact ⟨[], gap, split, blank, .done⟩
    next after follows =>
      split at parsed
      · cases parsed
      next right later isNext =>
        obtain ⟨text, between, rfl, betweenBlank, next⟩ := reads after right later isNext
        obtain ⟨more, tail, rfl, tailBlank, others⟩ :=
          ih (operator.node first right) later node left parsed
        rw [after_eq_some.mp follows] at split
        rcases others.rest_blank betweenBlank with ⟨rfl, rfl⟩ | others
        · refine ⟨gap ++ (operator.text ++ (text ++ [])), between ++ tail, ?_, ?_,
            .more blank next .done⟩
          · rw [split]
            simp only [append_assoc, nil_append]
          · exact fun ch member =>
              (mem_append.mp member).elim (betweenBlank ch) (tailBlank ch)
        · refine ⟨gap ++ (operator.text ++ (text ++ (between ++ more))), tail, ?_,
            tailBlank, .more blank next others⟩
          rw [split]
          simp only [append_assoc]

theorem parseChain_reads {first operand : Text → WhenParse}
    (firstReads : Reads first operator.operand depth)
    (reads : Reads operand operator.operand (depth + 1)) :
    Reads (parseChain operator first operand) (.chain operator) depth := by
  intro rest node left parsed
  rw [parseChain] at parsed
  split at parsed
  · cases parsed
  next head later isFirst =>
    obtain ⟨text, between, rfl, betweenBlank, begins⟩ := firstReads rest head later isFirst
    obtain ⟨more, tail, rfl, tailBlank, others⟩ :=
      parseOperands_reads reads later.length head later node left parsed
    rcases others.rest_blank betweenBlank with ⟨rfl, rfl⟩ | others
    · refine ⟨text ++ [], between ++ tail, ?_, ?_, .chain begins .done⟩
      · simp only [append_assoc, nil_append]
      · exact fun ch member =>
          (mem_append.mp member).elim (betweenBlank ch) (tailBlank ch)
    · refine ⟨text ++ (between ++ more), tail, ?_, tailBlank, .chain begins others⟩
      simp only [append_assoc]

theorem parseOr_reads {parser : Nat → Text → WhenParse}
    (reads : ∀ depth, Reads (parser depth) .atom depth) (depth : Nat) :
    Reads (parseOr parser depth) (.chain .or) depth := by
  have conjunctions (depth : Nat) : Reads (parseAnd parser depth) (.chain .and) depth :=
    parseChain_reads (reads depth) (reads (depth + 1))
  exact parseChain_reads (conjunctions depth) (conjunctions (depth + 1))

theorem parseIdentifier_reads {rest left : Text} (letter : isLetter ch = true)
    (parsed : parseIdentifier trimmed (ch :: rest) = .ok (node, left)) :
    ∃ name, IsName name ∧ ch :: rest = name ++ left ∧ node = .identifier name := by
  have first := word_of_letter letter
  rw [parseIdentifier, takeWhile_cons, if_pos first] at parsed
  cases parsed
  refine ⟨(ch :: rest).takeWhile isWord, ⟨⟨ch, rest.takeWhile isWord, ?_, letter⟩, ?_⟩, ?_, ?_⟩
  · rw [takeWhile_cons, if_pos first]
  · exact fun _ => mem_takeWhile_imp
  · exact takeWhile_append_dropWhile.symm
  · rw [takeWhile_cons, if_pos first]

theorem parseAtom_reads (levels depth : Nat) :
    Reads (parseAtom trimmed levels depth) .atom depth := by
  induction levels generalizing depth with
  | zero =>
    nofun
  | succ levels ih =>
    intro rest node left parsed
    obtain ⟨gap, blank, split⟩ := blank_split rest
    rw [parseAtom] at parsed
    split at parsed
    · cases parsed
    next within =>
      rw [Nat.not_lt] at within
      split at parsed
      · cases parsed
      next after isNot =>
        split at parsed
        · cases parsed
        next inner later isInner =>
          cases parsed
          obtain ⟨text, tail, rfl, tailBlank, sentence⟩ :=
            ih (depth + 1) after inner left isInner
          rw [split, isNot]
          exact ⟨gap ++ '!' :: text, tail, by simp, tailBlank, .not within blank sentence⟩
      next after isOpen =>
        split at parsed
        · cases parsed
        next inner later isInner =>
          obtain ⟨text, between, rfl, betweenBlank, sentence⟩ :=
            parseOr_reads ih (depth + 1) after inner later isInner
          obtain ⟨close, closeBlank, later_eq⟩ := blank_split later
          split at parsed
          next last isClose =>
            cases parsed
            rw [split, isOpen, later_eq, isClose]
            refine ⟨gap ++ '(' :: (text ++ ((between ++ close) ++ [')'])), [], by simp,
              nofun, .parentheses within blank sentence ?_⟩
            exact fun ch member =>
              (mem_append.mp member).elim (betweenBlank ch) (closeBlank ch)
          · cases parsed
      next ch after _ _ isOther =>
        split at parsed
        next letter =>
          obtain ⟨name, isName, named, rfl⟩ :=
            parseIdentifier_reads letter parsed
          rw [split, isOther, named]
          exact ⟨gap ++ name, [], by simp, nofun, .identifier within blank isName⟩
        · cases parsed

def WordEnds (next : Text) : Prop := ∀ ch ∈ next.head?, isWord ch = false

/-- What may follow a chain of operands without being a part of it. -/
def Stops (operator : WhenOperator) (next : Text) : Prop :=
  (WordEnds next ∧ WhenOperator.and.after (skipWs next) = none) ∧
    operator.after (skipWs next) = none

def Ends : WhenPart → Text → Prop
  | .atom, next => WordEnds next
  | .chain operator, next => Stops operator next
  | .rest operator _, next => Stops operator next

variable {next : Text}

theorem Stops.ends (stops : Stops operator next) : Ends operator.operand next := by
  cases operator with
  | and => exact stops.1.1
  | or => exact ⟨stops.1, stops.1.2⟩

/-- Neither a word nor an operator begins behind blanks and a character of neither. -/
theorem wordEnds_gap (blank : Blank gap) (other : isWord ch = false) :
    WordEnds (gap ++ ch :: next) := by
  intro first isFirst
  cases gap with
  | nil =>
    cases isFirst
    exact other
  | cons space gap =>
    cases isFirst
    have isBlank := blank first mem_cons_self
    cases word : isWord first with
    | false => rfl
    | true =>
      rw [not_space_of_word word] at isBlank
      cases isBlank

variable {more : Text}

theorem Sentence.rest_ends (rest : Sentence (.rest operator left) depth more node)
    (stops : Stops operator next) :
    Ends operator.operand (more ++ next) := by
  cases rest with
  | done => exact stops.ends
  | @more _ _ _ gap text _ later _ blank _ _ =>
    rw [append_assoc]
    cases operator with
    | and => exact wordEnds_gap blank (by decide)
    | or =>
      have ended : and.after (skipWs (gap ++ (or.text ++ (text ++ later) ++ next))) = none := by
        rw [skipWs_blank blank]
        rfl
      exact ⟨⟨wordEnds_gap blank (by decide), ended⟩, ended⟩

section Accepts

variable (trimmed)

def operandParser (operator : WhenOperator) (levels depth : Nat) : Text → WhenParse :=
  match operator with
  | .and => parseAtom trimmed levels depth
  | .or => parseAnd (parseAtom trimmed levels) depth

def partParser (part : WhenPart) (levels depth : Nat) (text : Text) : WhenParse :=
  match part with
  | .atom => parseAtom trimmed levels depth text
  | .chain operator =>
    parseChain operator (operandParser trimmed operator levels depth)
      (operandParser trimmed operator levels (depth + 1)) text
  | .rest operator left =>
    parseOperands operator (operandParser trimmed operator levels (depth + 1)) text.length left text

theorem operandParser_eq (operator : WhenOperator) (levels depth : Nat) :
    operandParser trimmed operator levels depth =
      partParser trimmed operator.operand levels depth := by
  cases operator <;> rfl

end Accepts

/-- The parser reads the node and stops before the next text, but for blanks. -/
def Yields (parsed : WhenParse) (node : KeybindingWhenNode) (next : Text) : Prop :=
  ∃ rest, parsed = .ok (node, rest) ∧ skipWs rest = skipWs next

theorem length_skipWs_le (text : Text) : (skipWs text).length ≤ text.length :=
  length_dropWhile_le isSpace text

/-- The turns of the loop are enough from the number of characters on. -/
def Loops (trimmed : Text) (operator : WhenOperator) (levels depth : Nat)
    (left node : KeybindingWhenNode) (text next : Text) : Prop :=
  ∀ turns rest, skipWs rest = skipWs (text ++ next) → (skipWs rest).length ≤ turns →
    Yields (parseOperands operator (operandParser trimmed operator levels (depth + 1)) turns
      left rest) node next

def Accepts (trimmed : Text) (part : WhenPart) (depth : Nat) (text : Text)
    (node : KeybindingWhenNode) : Prop :=
  ∀ levels next, MAX_WHEN_DEPTH < levels + depth → Ends part next →
    match part with
    | .rest operator left => Loops trimmed operator levels depth left node text next
    | part => Yields (partParser trimmed part levels depth (text ++ next)) node next

theorem takeWhile_name {name : Text} (isName : ∀ ch ∈ name, isWord ch = true)
    (ends : WordEnds next) :
    (name ++ next).takeWhile isWord = name ∧ (name ++ next).dropWhile isWord = next := by
  rw [takeWhile_append_of_pos isName, dropWhile_append_of_pos isName]
  cases next with
  | nil => simp
  | cons ch next =>
    have other := ends ch rfl
    simp [other]

theorem parseAtom_within {levels : Nat} (room : MAX_WHEN_DEPTH < levels + depth)
    (within : depth ≤ MAX_WHEN_DEPTH) :
    ∃ below, levels = below + 1 ∧ MAX_WHEN_DEPTH < below + (depth + 1) := by
  obtain ⟨below, rfl⟩ := Nat.exists_eq_succ_of_ne_zero (n := levels) (by omega)
  exact ⟨below, rfl, by omega⟩

section

variable (within : depth ≤ MAX_WHEN_DEPTH) (blank : Blank gap)
include within blank

theorem accepts_identifier {name : Text} (isName : IsName name) :
    Accepts trimmed .atom depth (gap ++ name) (.identifier name) := by
  intro levels next room ends
  obtain ⟨below, rfl, -⟩ := parseAtom_within room within
  obtain ⟨⟨ch, rest, isCons, letter⟩, words⟩ := isName
  have solid := not_space_of_word (word_of_letter letter)
  obtain ⟨taken, dropped⟩ := takeWhile_name words ends
  refine ⟨next, ?_, rfl⟩
  rw [isCons, cons_append] at taken dropped
  rw [partParser, parseAtom, if_neg (Nat.not_lt.mpr within), append_assoc,
    skipWs_blank blank, isCons, cons_append, skipWs_cons solid]
  split
  next none => cases none
  next isNot =>
    cases isNot
    cases letter
  next isOpen =>
    cases isOpen
    cases letter
  next other after _ _ same =>
    cases same
    rw [if_pos letter, parseIdentifier, taken]
    simp only [dropped]

theorem accepts_not (inner : Accepts trimmed .atom (depth + 1) text node) :
    Accepts trimmed .atom depth (gap ++ '!' :: text) (.not node) := by
  intro levels next room ends
  obtain ⟨below, rfl, lower⟩ := parseAtom_within room within
  obtain ⟨rest, parsed, isRest⟩ := inner below next lower ends
  refine ⟨rest, ?_, isRest⟩
  rw [partParser] at parsed
  rw [partParser, parseAtom, if_neg (Nat.not_lt.mpr within), append_assoc,
    skipWs_blank blank, cons_append, skipWs_cons (by decide)]
  simp only [parsed]

theorem accepts_parentheses {close : Text} (closeBlank : Blank close)
    (inner : Accepts trimmed (.chain .or) (depth + 1) text node) :
    Accepts trimmed .atom depth (gap ++ '(' :: (text ++ (close ++ [')']))) node := by
  intro levels next room ends
  obtain ⟨below, rfl, lower⟩ := parseAtom_within room within
  have skipped : skipWs (close ++ ')' :: next) = ')' :: next := by
    rw [skipWs_blank closeBlank, skipWs_cons (by decide)]
  have closes : Stops .or (close ++ ')' :: next) := by
    refine ⟨⟨wordEnds_gap closeBlank (by decide), ?_⟩, ?_⟩
    · rw [skipped]; rfl
    · rw [skipped]; rfl
  obtain ⟨rest, parsed, isRest⟩ := inner below (close ++ ')' :: next) lower closes
  refine ⟨next, ?_, rfl⟩
  have isOr : parseOr (parseAtom trimmed below) (depth + 1) (text ++ (close ++ ')' :: next)) =
      .ok (node, rest) := parsed
  rw [partParser, parseAtom, if_neg (Nat.not_lt.mpr within), append_assoc,
    skipWs_blank blank, cons_append, skipWs_cons (by decide), append_assoc,
    append_assoc, singleton_append]
  simp only [isOr, isRest, skipped]

end

theorem accepts_chain (first : Accepts trimmed operator.operand depth text left)
    (sentence : Sentence (.rest operator left) depth more node)
    (others : Accepts trimmed (.rest operator left) depth more node) :
    Accepts trimmed (.chain operator) depth (text ++ more) node := by
  intro levels next room ends
  have begins : Yields (partParser trimmed operator.operand levels depth
      (text ++ (more ++ next))) left (more ++ next) := by
    have found := first levels (more ++ next) room (sentence.rest_ends ends)
    cases operator with
    | and | or => exact found
  obtain ⟨rest, parsed, isRest⟩ := begins
  obtain ⟨last, goesOn, isLast⟩ :=
    others levels next room ends rest.length rest isRest (length_skipWs_le rest)
  refine ⟨last, ?_, isLast⟩
  rw [partParser, parseChain, append_assoc, operandParser_eq, parsed]
  exact goesOn

theorem accepts_done : Accepts trimmed (.rest operator left) depth [] left := by
  intro levels next room stops turns rest same enough
  refine ⟨skipWs rest, ?_, by rw [skipWs_skipWs, same]; rfl⟩
  cases turns with
  | zero => rfl
  | succ turns =>
    have ended : operator.after (skipWs rest) = none := by
      rw [same]
      exact stops.2
    simp only [parseOperands, ended]

theorem accepts_more {right : KeybindingWhenNode} (blank : Blank gap)
    (next : Accepts trimmed operator.operand (depth + 1) text right)
    (sentence : Sentence (.rest operator (operator.node left right)) depth more node)
    (others : Accepts trimmed (.rest operator (operator.node left right)) depth more node) :
    Accepts trimmed (.rest operator left) depth (gap ++ (operator.text ++ (text ++ more)))
      node := by
  intro levels following room stops turns rest same enough
  have begun : skipWs rest = operator.text ++ (text ++ (more ++ following)) := by
    rw [same, append_assoc, skipWs_blank blank]
    cases operator with
    | and | or =>
      simp only [WhenOperator.text, cons_append, append_assoc]
      exact skipWs_cons (by decide) _
  have operand : Yields (partParser trimmed operator.operand levels (depth + 1)
      (text ++ (more ++ following))) right (more ++ following) := by
    have found := next levels (more ++ following) (by omega) (sentence.rest_ends stops)
    cases operator with
    | and | or => exact found
  obtain ⟨later, parsed, isLater⟩ := operand
  rw [begun] at enough
  have longer : 0 < operator.text.length := by cases operator <;> decide
  simp only [length_append] at enough
  obtain ⟨below, rfl⟩ := Nat.exists_eq_succ_of_ne_zero (n := turns) (by omega)
  have fewer : (skipWs later).length ≤ below := by
    have shorter := length_skipWs_le (more ++ following)
    rw [isLater]
    simp only [length_append] at shorter
    omega
  obtain ⟨last, goesOn, isLast⟩ :=
    others levels following room stops below later isLater fewer
  refine ⟨last, ?_, isLast⟩
  simp only [parseOperands, begun, after_eq_some.mpr rfl, operandParser_eq, parsed]
  rwa [operandParser_eq] at goesOn

theorem Sentence.accepts {part : WhenPart} (sentence : Sentence part depth text node) :
    Accepts trimmed part depth text node := by
  induction sentence with
  | identifier within blank isName => exact accepts_identifier within blank isName
  | not within blank _ inner => exact accepts_not within blank inner
  | parentheses within blank _ closeBlank inner =>
    exact accepts_parentheses within blank closeBlank inner
  | chain _ sentence first others => exact accepts_chain first sentence others
  | done => exact accepts_done
  | more blank _ sentence next others => exact accepts_more blank next sentence others

end Zuse.Contracts
