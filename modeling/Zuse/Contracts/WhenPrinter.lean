import Zuse.Contracts.WhenClauses

namespace Zuse.Contracts

/-! The printer writes a chain of operands without parentheses, and the parser reads it
from the left. -/

open KeybindingWhenNode (identifier)
open List WhenOperator List Nat

/-- The operands of the right side join those of the left, one after the other. -/
def joinLeft (operator : WhenOperator) (left : KeybindingWhenNode) :
    KeybindingWhenNode → KeybindingWhenNode
  | .and first second =>
    if operator = .and then .and (joinLeft operator left first) second
    else operator.node left (.and first second)
  | .or first second =>
    if operator = .or then .or (joinLeft operator left first) second
    else operator.node left (.or first second)
  | node => operator.node left node

def leftward : KeybindingWhenNode → KeybindingWhenNode
  | .identifier name => .identifier name
  | .not node => .not (leftward node)
  | .and left right => joinLeft .and (leftward left) (leftward right)
  | .or left right => joinLeft .or (leftward left) (leftward right)

def IsOperand (operator : WhenOperator) (node : KeybindingWhenNode) : Prop :=
  ∀ left right, node ≠ operator.node left right

variable {node : KeybindingWhenNode}

namespace WhenOperator

variable (operator : WhenOperator)

theorem joinLeft_node (left first second : KeybindingWhenNode) :
    joinLeft operator left (operator.node first second) =
      operator.node (joinLeft operator left first) second := by
  cases operator <;> rfl

theorem joinLeft_operand (left : KeybindingWhenNode) (operand : IsOperand operator node) :
    joinLeft operator left node = operator.node left node := by
  cases node with
  | identifier | not => rfl
  | and first second =>
    cases operator with
    | and => exact absurd rfl (operand first second)
    | or => rfl
  | or first second =>
    cases operator with
    | and => rfl
    | or => exact absurd rfl (operand first second)

theorem chain_induction {motive : KeybindingWhenNode → Prop}
    (operand : ∀ node, IsOperand operator node → motive node)
    (node : ∀ left right, motive left → motive right → motive (operator.node left right))
    (tree : KeybindingWhenNode) : motive tree := by
  induction tree with
  | identifier name | not inner => exact operand _ fun left right => by cases operator <;> nofun
  | and left right first second =>
    cases operator with
    | and => exact node left right first second
    | or => exact operand _ nofun
  | or left right first second =>
    cases operator with
    | and => exact operand _ nofun
    | or => exact node left right first second

theorem leftward_node (left right : KeybindingWhenNode) :
    leftward (operator.node left right) = joinLeft operator (leftward left) (leftward right) := by
  cases operator <;> rfl

theorem joinLeft_joinLeft (left middle right : KeybindingWhenNode) :
    joinLeft operator left (joinLeft operator middle right) =
      joinLeft operator (joinLeft operator left middle) right := by
  induction right using operator.chain_induction with
  | operand node isOperand =>
    rw [operator.joinLeft_operand middle isOperand, operator.joinLeft_node,
      operator.joinLeft_operand _ isOperand]
  | node first second ihFirst _ =>
    rw [operator.joinLeft_node, operator.joinLeft_node, operator.joinLeft_node, ihFirst]

theorem joinLeft_isNode (left right : KeybindingWhenNode) :
    ∃ first second, joinLeft operator left right = operator.node first second := by
  induction right using operator.chain_induction with
  | operand node isOperand => exact ⟨_, _, operator.joinLeft_operand left isOperand⟩
  | node first second _ _ => exact ⟨_, _, operator.joinLeft_node left first second⟩

theorem leftward_operand (operand : IsOperand operator node) :
    IsOperand operator (leftward node) := by
  intro left right same
  cases node with
  | identifier | not => cases operator <;> cases same
  | and first second =>
    obtain ⟨_, _, isNode⟩ := and.joinLeft_isNode (leftward first) (leftward second)
    cases operator with
    | and => exact operand first second rfl
    | or => cases isNode.symm.trans same
  | or first second =>
    obtain ⟨_, _, isNode⟩ := or.joinLeft_isNode (leftward first) (leftward second)
    cases operator with
    | and => cases isNode.symm.trans same
    | or => exact operand first second rfl

def precedence : WhenOperator → Nat
  | .and => 1
  | .or => 0

def spaced : Text := ' ' :: (operator.text ++ [' '])

section

variable (left right : KeybindingWhenNode)
include left right

theorem renderNode_node (parentPrecedence : Nat) :
    renderNode (operator.node left right) parentPrecedence =
      enclose operator.precedence parentPrecedence
        (renderNode left operator.precedence ++
          (operator.spaced ++ renderNode right operator.precedence)) := by
  cases operator <;>
    simp [node, renderNode, KeybindingWhenNode.precedence, precedence, spaced, text]

theorem renderNode_chain :
    renderNode (operator.node left right) operator.precedence =
      renderNode left operator.precedence ++
        (operator.spaced ++ renderNode right operator.precedence) := by
  rw [operator.renderNode_node, enclose, if_neg (lt_irrefl _)]

theorem renderNode_joinLeft (parentPrecedence : Nat) :
    renderNode (joinLeft operator left right) parentPrecedence =
      renderNode (operator.node left right) parentPrecedence := by
  induction right using operator.chain_induction generalizing parentPrecedence with
  | operand node isOperand => rw [operator.joinLeft_operand left isOperand]
  | node first second ihFirst _ =>
    rw [operator.joinLeft_node, operator.renderNode_node, ihFirst,
      operator.renderNode_chain, operator.renderNode_node, operator.renderNode_chain]
    simp only [append_assoc]

theorem evaluateWhen_joinLeft (context : Text → Bool) :
    evaluateWhen (joinLeft operator left right) context =
      evaluateWhen (operator.node left right) context := by
  induction right using operator.chain_induction with
  | operand node isOperand => rw [operator.joinLeft_operand left isOperand]
  | node first second ihFirst _ =>
    rw [operator.joinLeft_node]
    cases operator with
    | and =>
      simp only [node, evaluateWhen] at ihFirst ⊢
      rw [ihFirst, Bool.and_assoc]
    | or =>
      simp only [node, evaluateWhen] at ihFirst ⊢
      rw [ihFirst, Bool.or_assoc]

end

end WhenOperator

theorem evaluateWhen_leftward (node : KeybindingWhenNode) (context : Text → Bool) :
    evaluateWhen (leftward node) context = evaluateWhen node context := by
  induction node with
  | identifier name => rfl
  | not node ih => rw [leftward, evaluateWhen, ih, evaluateWhen]
  | and left right ihLeft ihRight | or left right ihLeft ihRight =>
    rw [leftward, evaluateWhen_joinLeft, node, evaluateWhen, ihLeft, ihRight, evaluateWhen]

theorem renderNode_leftward (node : KeybindingWhenNode) (parentPrecedence : Nat) :
    renderNode (leftward node) parentPrecedence = renderNode node parentPrecedence := by
  induction node generalizing parentPrecedence with
  | identifier name => rfl
  | not node ih => rw [leftward, renderNode, ih]; rfl
  | and left right ihLeft ihRight | or left right ihLeft ihRight =>
    rw [leftward, renderNode_joinLeft, node, renderNode, ihLeft, ihRight]
    rfl

def EachOperand (operator : WhenOperator) (fits : KeybindingWhenNode → Prop) :
    KeybindingWhenNode → Prop
  | .and left right =>
    if operator = .and then EachOperand operator fits left ∧ EachOperand operator fits right
    else fits (.and left right)
  | .or left right =>
    if operator = .or then EachOperand operator fits left ∧ EachOperand operator fits right
    else fits (.or left right)
  | node => fits node

def FitsChain (operator : WhenOperator) (first later : KeybindingWhenNode → Prop) :
    KeybindingWhenNode → Prop
  | .and left right =>
    if operator = .and then
      FitsChain operator first later left ∧ EachOperand operator later right
    else first (.and left right)
  | .or left right =>
    if operator = .or then
      FitsChain operator first later left ∧ EachOperand operator later right
    else first (.or left right)
  | node => first node

section Chains

variable {operator : WhenOperator} {fits first later : KeybindingWhenNode → Prop}
  {node : KeybindingWhenNode}

theorem eachOperand_node (left right : KeybindingWhenNode) :
    EachOperand operator fits (operator.node left right) ↔
      EachOperand operator fits left ∧ EachOperand operator fits right := by
  cases operator <;> simp [node, EachOperand]

theorem fitsChain_node (left right : KeybindingWhenNode) :
    FitsChain operator first later (operator.node left right) ↔
      FitsChain operator first later left ∧ EachOperand operator later right := by
  cases operator <;> simp [node, FitsChain]

theorem eachOperand_operand (operand : IsOperand operator node) :
    EachOperand operator fits node ↔ fits node := by
  cases node with
  | identifier | not => rfl
  | and left right =>
    cases operator with
    | and => exact absurd rfl (operand left right)
    | or => simp [EachOperand]
  | or left right =>
    cases operator with
    | and => simp [EachOperand]
    | or => exact absurd rfl (operand left right)

theorem fitsChain_operand (operand : IsOperand operator node) :
    FitsChain operator first later node ↔ first node := by
  cases node with
  | identifier | not => rfl
  | and left right =>
    cases operator with
    | and => exact absurd rfl (operand left right)
    | or => simp [FitsChain]
  | or left right =>
    cases operator with
    | and => simp [FitsChain]
    | or => exact absurd rfl (operand left right)

theorem EachOperand.mono {other : KeybindingWhenNode → Prop}
    (fit : EachOperand operator fits node) (weaker : ∀ node, fits node → other node) :
    EachOperand operator other node := by
  induction node using operator.chain_induction with
  | operand node operand =>
    exact (eachOperand_operand operand).mpr (weaker _ ((eachOperand_operand operand).mp fit))
  | node left right ihLeft ihRight =>
    obtain ⟨fitLeft, fitRight⟩ := (eachOperand_node left right).mp fit
    exact (eachOperand_node left right).mpr ⟨ihLeft fitLeft, ihRight fitRight⟩

theorem FitsChain.mono {first' later' : KeybindingWhenNode → Prop}
    (fit : FitsChain operator first later node) (weakerFirst : ∀ node, first node → first' node)
    (weakerLater : ∀ node, later node → later' node) :
    FitsChain operator first' later' node := by
  induction node using operator.chain_induction with
  | operand node operand =>
    exact (fitsChain_operand operand).mpr (weakerFirst _ ((fitsChain_operand operand).mp fit))
  | node left right ihLeft _ =>
    obtain ⟨fitLeft, fitRight⟩ := (fitsChain_node left right).mp fit
    exact (fitsChain_node left right).mpr ⟨ihLeft fitLeft, fitRight.mono weakerLater⟩

theorem FitsChain.each (fit : FitsChain operator first later node)
    (ofFirst : ∀ node, first node → fits node) (ofLater : ∀ node, later node → fits node) :
    EachOperand operator fits node := by
  induction node using operator.chain_induction with
  | operand node operand =>
    exact (eachOperand_operand operand).mpr (ofFirst _ ((fitsChain_operand operand).mp fit))
  | node left right ihLeft _ =>
    obtain ⟨fitLeft, fitRight⟩ := (fitsChain_node left right).mp fit
    exact (eachOperand_node left right).mpr ⟨ihLeft fitLeft, fitRight.mono ofLater⟩

end Chains

namespace Sentence

variable {operator : WhenOperator} {part : WhenPart} {depth : Nat} {text : Text}
  {left node : KeybindingWhenNode}

theorem mono {shallow : Nat} (sentence : Sentence part depth text node)
    (above : shallow ≤ depth) : Sentence part shallow text node := by
  induction sentence generalizing shallow with
  | identifier within blank isName => exact .identifier (above.trans within) blank isName
  | not within blank _ inner =>
    exact .not (above.trans within) blank (inner (succ_le_succ above))
  | parentheses within blank _ closeBlank inner =>
    exact .parentheses (above.trans within) blank (inner (succ_le_succ above)) closeBlank
  | chain _ _ first rest => exact .chain (first above) (rest above)
  | done => exact .done
  | more blank _ _ next rest =>
    exact .more blank (next (succ_le_succ above)) (rest above)

variable {last : KeybindingWhenNode} {more : Text}

theorem append_rest (rest : Sentence (.rest operator left) depth text node)
    (others : Sentence (.rest operator node) depth more last) :
    Sentence (.rest operator left) depth (text ++ more) last := by
  generalize isPart : WhenPart.rest operator left = part at rest
  induction rest generalizing left with
  | identifier | not | parentheses | chain => cases isPart
  | done =>
    cases isPart
    exact others
  | more blank next _ _ ih =>
    cases isPart
    simp only [append_assoc]
    exact .more blank next (ih others rfl)

theorem append_chain (chain : Sentence (.chain operator) depth text node)
    (others : Sentence (.rest operator node) depth more last) :
    Sentence (.chain operator) depth (text ++ more) last := by
  cases chain with
  | chain first rest =>
    rw [append_assoc]
    exact .chain first (rest.append_rest others)

variable {gap : Text}

theorem indent (blank : Blank gap) (sentence : Sentence operator.operand depth text node) :
    Sentence operator.operand depth (gap ++ text) node := by
  have atom {text : Text} {node : KeybindingWhenNode} (sentence : Sentence .atom depth text node) :
      Sentence .atom depth (gap ++ text) node := by
    have joined {inner : Text} (innerBlank : Blank inner) : Blank (gap ++ inner) :=
      fun ch member => (mem_append.mp member).elim (blank ch) (innerBlank ch)
    cases sentence with
    | identifier within blank isName =>
      rw [← append_assoc]
      exact .identifier within (joined blank) isName
    | not within blank inner =>
      rw [← append_assoc]
      exact .not within (joined blank) inner
    | parentheses within blank inner closeBlank =>
      rw [← append_assoc]
      exact .parentheses within (joined blank) inner closeBlank
  cases operator with
  | and => exact atom sentence
  | or =>
    cases sentence with
    | chain first rest =>
      rw [← append_assoc]
      exact .chain (atom first) rest

section

variable (sentence : Sentence part depth text node)
include sentence

/-- The core of a sentence begins with a character that is no blank. -/
theorem core (whole : ∀ operator left, part ≠ .rest operator left) :
    Sentence part depth (skipWs text) node ∧ skipWs text ≠ [] ∧
      ∀ more, skipWs (text ++ more) = skipWs text ++ more := by
  have begins {gap : Text} (blank : Blank gap) (ch : Char) (after : Text)
      (solid : isSpace ch = false) :
      skipWs (gap ++ ch :: after) = ch :: after ∧
        ∀ more, skipWs (gap ++ ch :: after ++ more) = ch :: after ++ more := by
    refine ⟨by rw [skipWs_blank blank, skipWs_cons solid], fun more => ?_⟩
    rw [append_assoc, skipWs_blank blank, cons_append, skipWs_cons solid]
  induction sentence with
  | identifier within blank isName =>
    obtain ⟨⟨ch, rest, rfl, letter⟩, words⟩ := isName
    obtain ⟨first, more⟩ :=
      begins blank ch rest (not_space_of_word (word_of_letter letter))
    rw [first]
    exact ⟨@Sentence.identifier _ [] _ within nofun ⟨⟨ch, rest, rfl, letter⟩, words⟩,
      cons_ne_nil _ _, more⟩
  | @not _ _ inner _ within blank sentence _ =>
    obtain ⟨first, more⟩ := begins blank '!' inner (by decide)
    rw [first]
    exact ⟨@Sentence.not _ [] _ _ within nofun sentence, cons_ne_nil _ _, more⟩
  | @parentheses _ _ inner close _ within blank sentence closeBlank _ =>
    obtain ⟨first, more⟩ := begins blank '(' (inner ++ (close ++ [')'])) (by decide)
    rw [first]
    exact ⟨@Sentence.parentheses _ [] _ _ _ within nofun sentence closeBlank, cons_ne_nil _ _, more⟩
  | @chain operator _ _ _ _ _ first rest ih _ =>
    obtain ⟨begun, some, more⟩ := ih (by cases operator <;> nofun)
    rw [more]
    refine ⟨.chain begun rest, ?_, fun later => ?_⟩
    · exact fun none => some (append_eq_nil_iff.mp none).1
    · rw [append_assoc, more, append_assoc]
  | done | more => exact absurd rfl (whole _ _)

theorem last_solid : ∀ ch ∈ text.getLast?, isSpace ch = false := by
  induction sentence with
  | identifier _ _ isName =>
    obtain ⟨⟨first, rest, isCons, _⟩, words⟩ := isName
    intro ch isLast
    rw [getLast?_append_of_ne_nil _ (by rw [isCons]; exact cons_ne_nil _ _)] at isLast
    exact not_space_of_word (words ch (mem_of_getLast? isLast))
  | @not _ _ inner _ _ _ _ ih =>
    intro ch isLast
    rw [getLast?_append_of_ne_nil _ (cons_ne_nil _ _)] at isLast
    cases inner with
    | nil =>
      cases isLast
      decide
    | cons head tail =>
      exact ih ch isLast
  | @parentheses _ gap inner close _ _ _ _ _ _ =>
    intro ch isLast
    have whole : gap ++ '(' :: (inner ++ (close ++ [')'])) =
        (gap ++ '(' :: (inner ++ close)) ++ [')'] := by simp
    rw [whole, getLast?_concat] at isLast
    cases isLast
    decide
  | @chain _ _ begun _ more _ _ _ first rest =>
    intro ch isLast
    cases more with
    | nil =>
      rw [append_nil] at isLast
      exact first ch isLast
    | cons head tail =>
      rw [getLast?_append_of_ne_nil _ (cons_ne_nil _ _)] at isLast
      exact rest ch isLast
  | done => nofun
  | @more operator _ _ gap begun _ more _ _ _ _ next rest =>
    intro ch isLast
    cases more with
    | cons head tail =>
      rw [← append_assoc, ← append_assoc,
        getLast?_append_of_ne_nil _ (cons_ne_nil _ _)] at isLast
      exact rest ch isLast
    | nil =>
      rw [append_nil] at isLast
      cases begun with
      | cons head tail =>
        rw [← append_assoc, getLast?_append_of_ne_nil _ (cons_ne_nil _ _)] at isLast
        exact next ch isLast
      | nil =>
        rw [getLast?_append_of_ne_nil _ (by
          cases operator <;> exact cons_ne_nil _ _)] at isLast
        cases operator with
        | and | or => cases isLast; decide

theorem rdropWhile_append (blank : Blank gap) : (text ++ gap).rdropWhile isSpace = text := by
  have solid : text.rdropWhile isSpace = text := by
    rw [rdropWhile_eq_self_iff]
    intro some
    rw [sentence.last_solid _ (getLast?_eq_some_getLast some)]
    exact Bool.false_ne_true
  rw [rdropWhile, reverse_append, dropWhile_append_of_pos, ← rdropWhile, solid]
  exact fun ch member => blank ch (mem_reverse.mp member)

end

theorem trim (sentence : Sentence (.chain operator) depth text node) :
    Sentence (.chain operator) depth (trim text) node := by
  obtain ⟨core, -, -⟩ := sentence.core nofun
  have nothing : Blank [] := nofun
  have ended := core.rdropWhile_append nothing
  rw [append_nil] at ended
  change Sentence _ _ ((skipWs text).rdropWhile isSpace) _
  rwa [ended]

end Sentence

theorem parseWhen_iff {input : Text} :
    parseWhen input = .ok (some node) ↔ Sentence (.chain .or) 0 (trim input) node := by
  constructor
  · intro parsed
    unfold parseWhen at parsed
    simp only at parsed
    split at parsed
    · cases parsed
    · split at parsed
      · cases parsed
      next result rest isOr =>
        split at parsed
        next ended =>
          cases parsed
          obtain ⟨text, gap, split, gapBlank, sentence⟩ :=
            parseOr_reads (parseAtom_reads _) 0 _ _ _ isOr
          obtain ⟨tail, tailBlank, isTail⟩ := blank_split rest
          rw [ended, append_nil] at isTail
          have isText : trim input = text := by
            have trimmed : (trim input).rdropWhile isSpace = trim input :=
              rdropWhile_idempotent _ _
            rw [← trimmed, split]
            refine sentence.rdropWhile_append fun ch member => ?_
            rw [isTail] at member
            exact (mem_append.mp member).elim (gapBlank ch) (tailBlank ch)
          rw [isText]
          exact sentence
        · cases parsed
  · intro sentence
    have some : trim input ≠ [] := by
      intro none
      rw [none] at sentence
      exact (sentence.core nofun).2.1 rfl
    have accepts : Accepts (trim input) (.chain .or) 0 (trim input) node := sentence.accepts
    obtain ⟨rest, parsed, isRest⟩ :=
      accepts (MAX_WHEN_DEPTH + 1) [] (lt_succ_self _) ⟨⟨nofun, rfl⟩, rfl⟩
    rw [append_nil] at parsed
    have isOr : parseOr (parseAtom (trim input) (MAX_WHEN_DEPTH + 1)) 0 (trim input) =
        .ok (node, rest) := parsed
    have ended : skipWs rest = [] := isRest
    simp only [parseWhen, if_neg some, isOr, if_pos ended]

def AtomFits (depth : Nat) (node : KeybindingWhenNode) : Prop :=
  Sentence .atom depth (renderNode node 2) (leftward node)

def OperandFits : WhenOperator → Nat → KeybindingWhenNode → Prop
  | .and, depth => AtomFits depth
  | .or, depth => FitsChain .and (AtomFits depth) (AtomFits (depth + 1))

def ChainFits (operator : WhenOperator) (depth : Nat) : KeybindingWhenNode → Prop :=
  FitsChain operator (OperandFits operator depth) (OperandFits operator (depth + 1))

def AllFit (operator : WhenOperator) (depth : Nat) : KeybindingWhenNode → Prop :=
  EachOperand operator (OperandFits operator depth)

section Fits

variable {operator : WhenOperator} {shallow depth : Nat} {node : KeybindingWhenNode}

theorem AtomFits.mono (fits : AtomFits depth node) (above : shallow ≤ depth) :
    AtomFits shallow node :=
  Sentence.mono fits above

theorem OperandFits.mono (fits : OperandFits operator depth node) (above : shallow ≤ depth) :
    OperandFits operator shallow node := by
  cases operator with
  | and => exact AtomFits.mono fits above
  | or =>
    exact FitsChain.mono fits (fun _ fits => AtomFits.mono fits above)
      fun _ fits => AtomFits.mono fits (succ_le_succ above)

theorem ChainFits.mono (fits : ChainFits operator depth node) (above : shallow ≤ depth) :
    ChainFits operator shallow node :=
  FitsChain.mono fits (fun _ fits => OperandFits.mono fits above)
    fun _ fits => OperandFits.mono fits (succ_le_succ above)

theorem ChainFits.all (fits : ChainFits operator depth node) : AllFit operator depth node :=
  FitsChain.each fits (fun _ fits => fits) fun _ fits => OperandFits.mono fits (le_succ depth)

/-- Under its own operator an operand is printed as under a tighter one. -/
theorem renderNode_operand (operand : IsOperand operator node) :
    renderNode node operator.precedence = renderNode node (operator.precedence + 1) := by
  cases node with
  | identifier | not => cases operator <;> rfl
  | and left right =>
    cases operator with
    | and => exact absurd rfl (operand left right)
    | or => rfl
  | or left right =>
    cases operator with
    | and => rfl
    | or => exact absurd rfl (operand left right)

theorem rest_of_each {left : KeybindingWhenNode}
    (prints : ∀ node, IsOperand operator node → OperandFits operator (depth + 1) node →
      Sentence operator.operand (depth + 1) (renderNode node operator.precedence) (leftward node))
    (each : AllFit operator (depth + 1) node) :
    Sentence (.rest operator left) depth (operator.spaced ++ renderNode node operator.precedence)
      (joinLeft operator left (leftward node)) := by
  have space : Blank [' '] := by
    intro ch member
    rw [mem_singleton.mp member]
    rfl
  induction node using operator.chain_induction generalizing left with
  | operand node operand =>
    have sentence := prints node operand ((eachOperand_operand operand).mp each)
    rw [operator.joinLeft_operand left (operator.leftward_operand operand)]
    have written : operator.spaced ++ renderNode node operator.precedence =
        [' '] ++ (operator.text ++ ([' '] ++ renderNode node operator.precedence ++ [])) := by
      simp [spaced]
    rw [written]
    exact .more space (sentence.indent space) .done
  | node first second ihFirst ihSecond =>
    obtain ⟨eachFirst, eachSecond⟩ := (eachOperand_node first second).mp each
    rw [operator.renderNode_chain, operator.leftward_node, operator.joinLeft_joinLeft,
      ← append_assoc]
    exact (ihFirst eachFirst).append_rest (ihSecond eachSecond)

theorem chain_of_fits
    (prints : ∀ below node, IsOperand operator node → OperandFits operator below node →
      Sentence operator.operand below (renderNode node operator.precedence) (leftward node))
    (fits : ChainFits operator depth node) :
    Sentence (.chain operator) depth (renderNode node operator.precedence) (leftward node) := by
  induction node using operator.chain_induction with
  | operand node operand =>
    have first := prints depth node operand ((fitsChain_operand operand).mp fits)
    rw [← append_nil (renderNode node operator.precedence)]
    exact .chain first .done
  | node left right ihLeft _ =>
    obtain ⟨fitsLeft, fitsRight⟩ := (fitsChain_node left right).mp fits
    rw [operator.renderNode_chain, operator.leftward_node]
    exact (ihLeft fitsLeft).append_chain (rest_of_each (prints (depth + 1)) fitsRight)

theorem printed_and (fits : ChainFits .and depth node) :
    Sentence (.chain .and) depth (renderNode node 1) (leftward node) := by
  refine @chain_of_fits .and depth node (fun below node operand fits => ?_) fits
  rw [renderNode_operand operand]
  exact fits

theorem printed_or (fits : ChainFits .or depth node) :
    Sentence (.chain .or) depth (renderNode node 0) (leftward node) := by
  refine @chain_of_fits .or depth node (fun below node operand fits => ?_) fits
  rw [renderNode_operand operand]
  exact printed_and fits

theorem fits_in_parentheses (within : depth ≤ MAX_WHEN_DEPTH)
    (fits : ChainFits .or (depth + 1) node)
    (enclosed : renderNode node 2 = '(' :: (renderNode node 0 ++ [')'])) :
    AtomFits depth node := by
  rw [AtomFits, enclosed]
  exact @Sentence.parentheses _ [] _ [] _ within nofun (printed_or fits) nofun

structure Stands (depth : Nat) (node : KeybindingWhenNode) : Prop where
  atom : AtomFits depth node
  chain : ∀ operator, ChainFits operator depth node
  all : ∀ operator, AllFit operator depth node

theorem Stands.of_plain (fits : AtomFits depth node)
    (plain : ∀ operator, IsOperand operator node) : Stands depth node := by
  have operands (operator : WhenOperator) : OperandFits operator depth node := by
    cases operator with
    | and => exact fits
    | or => exact (fitsChain_operand (plain .and)).mpr fits
  exact
    { atom := fits
      chain := fun operator => (fitsChain_operand (plain operator)).mpr (operands operator)
      all := fun operator => (eachOperand_operand (plain operator)).mpr (operands operator) }

theorem Stands.of_parentheses (within : depth ≤ MAX_WHEN_DEPTH)
    (fits : ChainFits .or (depth + 1) node) : Stands depth node := by
  have lower := fits.mono (le_succ depth)
  cases node with
  | identifier name =>
    have plain (operator : WhenOperator) : IsOperand operator (.identifier name) :=
      fun _ _ => by cases operator <;> nofun
    exact .of_plain lower plain
  | not inner =>
    have plain (operator : WhenOperator) : IsOperand operator (.not inner) :=
      fun _ _ => by cases operator <;> nofun
    exact .of_plain lower plain
  | and left right =>
    have operand : IsOperand .or (.and left right) := nofun
    have chain : ChainFits .and depth (.and left right) :=
      (fitsChain_operand operand).mp lower
    refine
      { atom := fits_in_parentheses within fits rfl
        chain := fun operator => ?_
        all := fun operator => ?_ }
    · cases operator with
      | and => exact chain
      | or => exact lower
    · cases operator with
      | and => exact chain.all
      | or => exact lower.all
  | or left right =>
    have operand : IsOperand .and (.or left right) := nofun
    have atom := fits_in_parentheses within fits rfl
    refine { atom, chain := fun operator => ?_, all := fun operator => ?_ }
    · cases operator with
      | and => exact (fitsChain_operand operand).mpr atom
      | or => exact lower
    · cases operator with
      | and => exact (eachOperand_operand operand).mpr atom
      | or => exact lower.all

end Fits

def Fits (part : WhenPart) (depth : Nat) (node : KeybindingWhenNode) : Prop :=
  match part with
  | .atom => Stands depth node
  | .chain .and => OperandFits .or depth node ∧ ChainFits .or depth node ∧ AllFit .or depth node
  | .chain .or => ChainFits .or depth node
  | .rest operator left =>
    ChainFits operator depth left →
      ChainFits operator depth node ∧
        (node = left ∨ ∃ first second, node = operator.node first second)

theorem Sentence.fits {part : WhenPart} {depth : Nat} {text : Text}
    (sentence : Sentence part depth text node) : Fits part depth node := by
  induction sentence with
  | identifier within _ isName =>
    refine .of_plain (@Sentence.identifier _ [] _ within nofun isName) fun operator _ _ => ?_
    cases operator <;> nofun
  | not within _ _ inner =>
    refine .of_plain (@Sentence.not _ [] _ _ within nofun inner.atom) fun operator _ _ => ?_
    cases operator <;> nofun
  | parentheses within _ _ _ inner => exact .of_parentheses within inner
  | @chain operator _ _ left _ node _ _ first rest =>
    cases operator with
    | and =>
      obtain ⟨chain, same | ⟨one, two, isNode⟩⟩ := rest (first.chain .and)
      · subst same
        exact ⟨chain, first.chain .or, first.all .or⟩
      have operand : IsOperand .or node := by
        rw [isNode]
        nofun
      exact ⟨chain, (fitsChain_operand operand).mpr chain, (eachOperand_operand operand).mpr chain⟩
    | or => exact (rest first.2.1).1
  | done => exact fun fits => ⟨fits, .inl rfl⟩
  | @more operator above left _ _ right _ _ _ _ _ next rest =>
    intro fits
    have all : AllFit operator (above + 1) right := by
      cases operator with
      | and => exact next.all .and
      | or => exact next.2.2
    obtain ⟨chain, same | isNode⟩ := rest ((fitsChain_node left right).mpr ⟨fits, all⟩)
    · exact ⟨chain, .inr ⟨left, right, same⟩⟩
    · exact ⟨chain, .inr isNode⟩

/-- The parser accepts the sentences of the grammar, and what it returns is printed as a
sentence that means the same and is printed alike. -/
theorem when_parser_and_printer_agree :
    (∀ input node, parseWhen input = .ok (some node) ↔ Sentence (.chain .or) 0 (trim input) node) ∧
      ∀ input node, parseWhen input = .ok (some node) →
        ∃ again, parseWhen (whenAstToString node) = .ok (some again) ∧
          (∀ context, evaluateWhen again context = evaluateWhen node context) ∧
          whenAstToString again = whenAstToString node := by
  refine ⟨fun input node => parseWhen_iff, fun input node parsed => ?_⟩
  have fits : ChainFits .or 0 node := (parseWhen_iff.mp parsed).fits
  refine ⟨leftward node, parseWhen_iff.mpr (printed_or fits).trim, ?_, ?_⟩
  · exact evaluateWhen_leftward node
  · exact renderNode_leftward node 0

end Zuse.Contracts
