import Mathlib.Data.List.DropRight

namespace Zuse.Contracts

/-! The when-clauses of keybindings: their parser, their meaning and their printer. A
string is the list of its characters. What stands before an error's position is white space
and tokens, one code unit a character; an unexpected character is shown whole. -/

abbrev Text := List Char

inductive KeybindingWhenNode where
  | identifier (name : Text)
  | not (node : KeybindingWhenNode)
  | and (left right : KeybindingWhenNode)
  | or (left right : KeybindingWhenNode)

structure WhenParseError where
  message : String
  position : Nat

def MAX_WHEN_DEPTH : Nat := 64

/-- `/\s/`, which is also what `trim` removes. -/
def isSpace (ch : Char) : Bool :=
  ch.toNat ∈ [9, 10, 11, 12, 13, 32, 160, 5760, 8232, 8233, 8239, 8287, 12288, 65279] ||
    (8192 ≤ ch.toNat && ch.toNat ≤ 8202)

/-- `/[A-Za-z_]/` -/
def isLetter (ch : Char) : Bool := ch.isAlpha || ch == '_'

/-- `/[A-Za-z0-9_]/` -/
def isWord (ch : Char) : Bool := ch.isAlphanum || ch == '_'

def trim (input : Text) : Text := (input.dropWhile isSpace).rdropWhile isSpace

def skipWs (rest : Text) : Text := rest.dropWhile isSpace

inductive WhenOperator where
  | and
  | or
  deriving DecidableEq

namespace WhenOperator

def text : WhenOperator → Text
  | .and => ['&', '&']
  | .or => ['|', '|']

def node : WhenOperator → KeybindingWhenNode → KeybindingWhenNode → KeybindingWhenNode
  | .and => .and
  | .or => .or

def after : WhenOperator → Text → Option Text
  | .and, '&' :: '&' :: rest => some rest
  | .or, '|' :: '|' :: rest => some rest
  | _, _ => none

end WhenOperator

abbrev WhenParse := Except WhenParseError (KeybindingWhenNode × Text)

section Parser

variable (trimmed : Text)

def fail (message : String) (rest : Text) : WhenParse :=
  .error { message, position := trimmed.length - rest.length }

def parseIdentifier (rest : Text) : WhenParse :=
  match rest.takeWhile isWord with
  | [] => fail trimmed "expected identifier" rest
  | name => .ok (.identifier name, rest.dropWhile isWord)

/-- The loop of `parseAnd` and of `parseOr`. A turn takes a character at least. -/
def parseOperands (operator : WhenOperator) (operand : Text → WhenParse) :
    Nat → KeybindingWhenNode → Text → WhenParse
  | 0, left, rest => .ok (left, skipWs rest)
  | turns + 1, left, rest =>
    match operator.after (skipWs rest) with
    | none => .ok (left, skipWs rest)
    | some rest =>
      match operand rest with
      | .error error => .error error
      | .ok (right, rest) =>
        parseOperands operator operand turns (operator.node left right) rest

def parseChain (operator : WhenOperator) (first operand : Text → WhenParse) (rest : Text) :
    WhenParse :=
  match first rest with
  | .error error => .error error
  | .ok (left, rest) => parseOperands operator operand rest.length left rest

def parseAnd (parseAtom : Nat → Text → WhenParse) (depth : Nat) : Text → WhenParse :=
  parseChain .and (parseAtom depth) (parseAtom (depth + 1))

def parseOr (parseAtom : Nat → Text → WhenParse) (depth : Nat) : Text → WhenParse :=
  parseChain .or (parseAnd parseAtom depth) (parseAnd parseAtom (depth + 1))

def parseAtom : Nat → Nat → Text → WhenParse
  | 0, _, rest => fail trimmed "expression nested too deep" rest
  | levels + 1, depth, rest =>
    if MAX_WHEN_DEPTH < depth then fail trimmed "expression nested too deep" rest
    else
      match skipWs rest with
      | [] => fail trimmed "unexpected end of input" []
      | '!' :: rest =>
        match parseAtom levels (depth + 1) rest with
        | .error error => .error error
        | .ok (inner, rest) => .ok (.not inner, rest)
      | '(' :: rest =>
        match parseOr (parseAtom levels) (depth + 1) rest with
        | .error error => .error error
        | .ok (inner, rest) =>
          match skipWs rest with
          | ')' :: rest => .ok (inner, rest)
          | rest => fail trimmed "expected ')'" rest
      | ch :: rest =>
        if isLetter ch then parseIdentifier trimmed (ch :: rest)
        else fail trimmed s!"unexpected character '{ch}'" (ch :: rest)

end Parser

def parseWhen (input : Text) : Except WhenParseError (Option KeybindingWhenNode) :=
  let trimmed := trim input
  if trimmed = [] then .ok none
  else
    match parseOr (parseAtom trimmed (MAX_WHEN_DEPTH + 1)) 0 trimmed with
    | .error error => .error error
    | .ok (result, rest) =>
      if skipWs rest = [] then .ok (some result)
      else
        .error
          { message := "unexpected trailing input"
            position := trimmed.length - (skipWs rest).length }

def evaluateWhen (node : KeybindingWhenNode) (context : Text → Bool) : Bool :=
  match node with
  | .identifier name => context name
  | .not node => !evaluateWhen node context
  | .and left right => evaluateWhen left context && evaluateWhen right context
  | .or left right => evaluateWhen left context || evaluateWhen right context

def KeybindingWhenNode.precedence : KeybindingWhenNode → Nat
  | .identifier _ => 3
  | .not _ => 2
  | .and _ _ => 1
  | .or _ _ => 0

def enclose (own parentPrecedence : Nat) (text : Text) : Text :=
  if own < parentPrecedence then '(' :: (text ++ [')']) else text

def renderNode (node : KeybindingWhenNode) (parentPrecedence : Nat) : Text :=
  enclose node.precedence parentPrecedence (match node with
    | .identifier name => name
    | .not node => '!' :: renderNode node 2
    | .and left right => renderNode left 1 ++ [' ', '&', '&', ' '] ++ renderNode right 1
    | .or left right => renderNode left 0 ++ [' ', '|', '|', ' '] ++ renderNode right 0)

def whenAstToString (node : KeybindingWhenNode) : Text := renderNode node 0

end Zuse.Contracts
