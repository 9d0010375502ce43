import Zuse.Data.Text
import Zuse.Index.Paths

namespace Zuse.Index

open Zuse.Data

inductive ChunkKind
  | function
  | class_
  | method
  | interface
  | type
  | section
  | window
  deriving DecidableEq

inductive SymbolKind
  | function
  | method
  | class_
  | interface
  | type
  | enum
  | const
  | variable
  | property
  | export
  deriving DecidableEq

structure ParsedChunk where
  kind : ChunkKind
  startLine : Nat
  endLine : Nat
  content : String
  symbolName : Option String
  deriving DecidableEq

/-- `parentIndex` is the place of the enclosing symbol in the same parse. -/
structure ParsedSymbol where
  name : String
  kind : SymbolKind
  signature : Option String
  startLine : Nat
  endLine : Nat
  exported : Bool
  parentIndex : Option Nat
  deriving DecidableEq

structure ParseResult where
  chunks : List ParsedChunk
  symbols : List ParsedSymbol
  deriving DecidableEq

/-! Lines. A line feed ends a line, together with a carriage return right before it. -/

def dropReturn (line : List Char) : List Char :=
  if line.getLast? = some '\r' then line.dropLast else line

def splitLines (source : String) : List (List Char) :=
  let lines := source.toList.splitOn '\n'
  lines.dropLast.map dropReturn ++ lines.getLast?.toList

def joinLines (lines : List (List Char)) : String :=
  String.ofList (['\n'].intercalate lines)

def windowLines : Nat := 40

def stride : Nat := 20

/-- The windows from the line `start` on, where `rest` are the lines from there. -/
def windowsFrom (start : Nat) (rest : List (List Char)) : List ParsedChunk :=
  let end_ := start + min windowLines rest.length
  let chunk : ParsedChunk :=
    ⟨.window, start + 1, end_, joinLines (rest.take windowLines), none⟩
  if rest.length ≤ windowLines then [chunk]
  else chunk :: windowsFrom (start + stride) (rest.drop stride)
termination_by rest.length
decreasing_by
  rename_i long
  rw [List.length_drop]
  simp only [windowLines, stride] at long ⊢
  omega

def windowChunker (source : String) : ParseResult :=
  ⟨windowsFrom 0 (splitLines source), []⟩

def isHeading (line : List Char) : Bool :=
  let signs := (line.takeWhile (· = '#')).length
  1 ≤ signs && signs ≤ 6 && ((line.drop signs).head?.map isSpace).getD false

def isBlank (text : List Char) : Bool := text.all isSpace

def boundaries (lines : List (List Char)) : List Nat :=
  let headings := (List.range lines.length).filter fun i => isHeading (lines.getD i [])
  (if headings.head? = some 0 then headings else 0 :: headings) ++ [lines.length]

def sectionOf (lines : List (List Char)) (start end_ : Nat) : Option ParsedChunk :=
  let sliced := (lines.take end_).drop start
  if isBlank (['\n'].intercalate sliced) then none
  else some ⟨.section, start + 1, end_, joinLines sliced, none⟩

def markdownChunker (source : String) : ParseResult :=
  let lines := splitLines source
  let bounds := boundaries lines
  ⟨(bounds.zip bounds.tail).filterMap fun bound => sectionOf lines bound.1 bound.2, []⟩

def jsonChunker (source : String) : ParseResult :=
  if isBlank source.toList then ⟨[], []⟩
  else ⟨[⟨.window, 1, (splitLines source).length, source, none⟩], []⟩

/-- A node as the parser library gives it: its rows count from zero. -/
inductive SyntaxNode
  | node (type text : String) (startRow endRow : Nat)
      (fields : List (String × SyntaxNode)) (namedChildren : List SyntaxNode)

namespace SyntaxNode

def type : SyntaxNode → String
  | .node type _ _ _ _ _ => type

def text : SyntaxNode → String
  | .node _ text _ _ _ _ => text

def startRow : SyntaxNode → Nat
  | .node _ _ startRow _ _ _ => startRow

def endRow : SyntaxNode → Nat
  | .node _ _ _ endRow _ _ => endRow

def namedChildren : SyntaxNode → List SyntaxNode
  | .node _ _ _ _ _ namedChildren => namedChildren

def childForFieldName (name : String) : SyntaxNode → Option SyntaxNode
  | .node _ _ _ _ fields _ => fields.lookup name

end SyntaxNode

structure Collected where
  symbols : List ParsedSymbol
  chunks : List ParsedChunk

namespace Collected

def addSymbol (collected : Collected) (symbol : ParsedSymbol) : Nat × Collected :=
  (collected.symbols.length, { collected with symbols := collected.symbols ++ [symbol] })

def addChunk (collected : Collected) (lineCount : Nat) (kind : ChunkKind)
    (startLine endLine : Nat) (content : String) (symbolName : String) : Collected :=
  let startLine := if startLine < 1 then 1 else startLine
  let endLine := if endLine < startLine then startLine else endLine
  let endLine := if lineCount < endLine then lineCount else endLine
  { collected with
    chunks := collected.chunks ++ [⟨kind, startLine, endLine, content, some symbolName⟩] }

end Collected

/-- A node's name; the text of a name is never empty where a declaration is kept. -/
def nameOf (node : SyntaxNode) : Option String :=
  (node.childForFieldName "name").map SyntaxNode.text

def present (name : Option String) : Option String := name.filter (· ≠ "")

def collapseSpaces : List Char → List Char
  | [] => []
  | char :: rest =>
    if isSpace char then
      match rest with
      | [] => [' ']
      | following :: _ =>
        if isSpace following then collapseSpaces rest else ' ' :: collapseSpaces rest
    else char :: collapseSpaces rest

def maxSignature : Nat := 240

def signatureOf (node : SyntaxNode) : String :=
  let params := ((node.childForFieldName "parameters").map SyntaxNode.text).getD ""
  let ret := ((node.childForFieldName "return_type").map (" " ++ ·.text)).getD ""
  let sig := trim (String.ofList (collapseSpaces ((nameOf node).getD "" ++ params ++ ret).toList))
  if maxSignature < utf16Length sig then
    String.ofList (sliceUtf16 maxSignature sig.toList) ++ "…"
  else sig

def visitMember (lineCount classSymbolId : Nat) (className : String)
    (collected : Collected) (child : SyntaxNode) : Collected :=
  if child.type = "method_definition" ∨ child.type = "public_field_definition" then
    match present (nameOf child) with
    | none => collected
    | some mname =>
      let startLine := child.startRow + 1
      let endLine := child.endRow + 1
      let isMethod := child.type = "method_definition"
      let symbol : ParsedSymbol :=
        ⟨mname, if isMethod then .method else .property,
          some (if isMethod then signatureOf child else mname),
          startLine, endLine, false, some classSymbolId⟩
      let added := (collected.addSymbol symbol).2
      if isMethod then
        added.addChunk lineCount .method startLine endLine child.text (className ++ "." ++ mname)
      else added
  else collected

def visitClassBody (lineCount : Nat) (collected : Collected) (classNode : SyntaxNode)
    (classSymbolId : Nat) (className : String) : Collected :=
  match classNode.childForFieldName "body" with
  | none => collected
  | some body =>
    body.namedChildren.foldl (visitMember lineCount classSymbolId className) collected

def unwrapExport (node : SyntaxNode) : SyntaxNode × Bool :=
  if node.type = "export_statement" then
    match node.childForFieldName "declaration" with
    | some declaration => (declaration, true)
    | none =>
      match node.namedChildren.find? fun child =>
          child.type ≠ "export_clause" && child.type ≠ "string" && child.type ≠ "from" with
      | some named => (named, true)
      | none => (node, false)
  else (node, false)

def looksLikeFn (value : SyntaxNode) : Bool :=
  value.type = "arrow_function" || value.type = "function_expression"

/-- One variable of a declaration; the lines and the text are the whole statement's. -/
def visitDeclarator (lineCount : Nat) (node : SyntaxNode) (exported : Bool)
    (collected : Collected) (declarator : SyntaxNode) : Collected :=
  if declarator.type ≠ "variable_declarator" then collected
  else
    match declarator.childForFieldName "name" with
    | none => collected
    | some nameNode =>
      if nameNode.type ≠ "identifier" then collected
      else
        let name := nameNode.text
        let function := (declarator.childForFieldName "value").filter looksLikeFn
        let startLine := node.startRow + 1
        let endLine := node.endRow + 1
        let symbol : ParsedSymbol :=
          ⟨name, if function.isSome then .function else .const,
            some ((function.map signatureOf).getD name),
            startLine, endLine, exported, none⟩
        let added := (collected.addSymbol symbol).2
        if function.isSome then
          added.addChunk lineCount .function startLine endLine node.text name
        else added

/-- A named declaration: its symbol and, where it has a kind of chunk, its chunk. -/
def declare (lineCount : Nat) (collected : Collected) (node : SyntaxNode) (exported : Bool)
    (name signature : String) (kind : SymbolKind) (chunk : Option ChunkKind) :
    Nat × Collected :=
  let startLine := node.startRow + 1
  let endLine := node.endRow + 1
  let added := collected.addSymbol ⟨name, kind, some signature, startLine, endLine, exported, none⟩
  match chunk with
  | none => added
  | some chunkKind =>
    (added.1, added.2.addChunk lineCount chunkKind startLine endLine node.text name)

def visitTopLevel (lineCount : Nat) (collected : Collected) (node : SyntaxNode) : Collected :=
  let inner := (unwrapExport node).1
  let exported := (unwrapExport node).2
  let type := inner.type
  if type = "lexical_declaration" ∨ type = "variable_declaration" then
    inner.namedChildren.foldl (visitDeclarator lineCount node exported) collected
  else
    match present (nameOf inner) with
    | none => collected
    | some name =>
      if type = "function_declaration" ∨ type = "generator_function_declaration" then
        (declare lineCount collected node exported name (signatureOf inner) .function
          (some .function)).2
      else if type = "class_declaration" ∨ type = "abstract_class_declaration" then
        let declared :=
          declare lineCount collected node exported name name .class_ (some .class_)
        visitClassBody lineCount declared.2 inner declared.1 name
      else if type = "interface_declaration" then
        (declare lineCount collected node exported name name .interface (some .interface)).2
      else if type = "type_alias_declaration" then
        (declare lineCount collected node exported name name .type none).2
      else if type = "enum_declaration" then
        (declare lineCount collected node exported name name .enum (some .class_)).2
      else collected

/-- What the parser library does with a text: no grammar could be loaded, it throws, or
it gives the root of a tree. -/
inductive Parsing
  | unavailable
  | throws
  | tree (root : SyntaxNode)

def collect (source : String) (root : SyntaxNode) : ParseResult :=
  let collected := root.namedChildren.foldl (visitTopLevel (splitLines source).length) ⟨[], []⟩
  ⟨collected.chunks, collected.symbols⟩

variable (parse : LanguageId → String → Parsing)

/-- `none` where the parser throws. -/
def treesitterChunker (source : String) (language : LanguageId) : Option ParseResult :=
  match parse language source with
  | .unavailable => some ⟨[], []⟩
  | .throws => none
  | .tree root => some (collect source root)

def combineForCode (source : String) (language : LanguageId) : Option ParseResult :=
  (treesitterChunker parse source language).map fun declared =>
    ⟨declared.chunks ++ (windowChunker source).chunks, declared.symbols⟩

def chunkSource (source : String) : LanguageId → ParseResult
  | .typescript => (combineForCode parse source .typescript).getD (windowChunker source)
  | .tsx => (combineForCode parse source .tsx).getD (windowChunker source)
  | .javascript => (combineForCode parse source .javascript).getD (windowChunker source)
  | .jsx => (combineForCode parse source .jsx).getD (windowChunker source)
  | .markdown => markdownChunker source
  | .json => jsonChunker source
  | .unknown => windowChunker source

def ParentsWithin (symbols : List ParsedSymbol) : Prop :=
  ∀ symbol ∈ symbols, ∀ parent ∈ symbol.parentIndex, parent < symbols.length

section

variable {lineCount : Nat} {collected : Collected} {node : SyntaxNode}

theorem ParentsWithin.concat {symbols : List ParsedSymbol} {symbol : ParsedSymbol}
    (within : ParentsWithin symbols)
    (known : ∀ parent ∈ symbol.parentIndex, parent < symbols.length) :
    ParentsWithin (symbols ++ [symbol]) := by
  intro stored member parent isParent
  rw [List.length_append]
  rw [List.mem_append, List.mem_singleton] at member
  cases member with
  | inl earlier => exact Nat.lt_succ_of_lt (within stored earlier parent isParent)
  | inr new =>
    subst new
    exact Nat.lt_succ_of_lt (known parent isParent)

section

variable (within : ParentsWithin collected.symbols)
include within

variable {classSymbolId : Nat} {className : String}

theorem visitMember_within (known : classSymbolId < collected.symbols.length) :
    ParentsWithin (visitMember lineCount classSymbolId className collected node).symbols ∧
      classSymbolId <
        (visitMember lineCount classSymbolId className collected node).symbols.length := by
  have nested : ∀ symbol : ParsedSymbol, symbol.parentIndex = some classSymbolId →
      ParentsWithin (collected.symbols ++ [symbol]) ∧
        classSymbolId < (collected.symbols ++ [symbol]).length := by
    intro symbol inside
    refine ⟨within.concat fun parent isParent => ?_, ?_⟩
    · rw [inside] at isParent
      cases isParent
      exact known
    · rw [List.length_append]
      omega
  unfold visitMember
  split
  · split
    · exact ⟨within, known⟩
    · dsimp only
      split
      · exact nested _ rfl
      · exact nested _ rfl
  · exact ⟨within, known⟩

theorem visitClassBody_within {classNode : SyntaxNode}
    (known : classSymbolId < collected.symbols.length) :
    ParentsWithin
      (visitClassBody lineCount collected classNode classSymbolId className).symbols := by
  unfold visitClassBody
  split
  · exact within
  rename_i body _
  induction body.namedChildren generalizing collected with
  | nil => exact within
  | cons child rest ih =>
    have visited : ParentsWithin
        (visitMember lineCount classSymbolId className collected child).symbols ∧
          classSymbolId <
            (visitMember lineCount classSymbolId className collected child).symbols.length :=
      visitMember_within within known
    exact ih visited.1 visited.2

theorem visitDeclarator_within {exported : Bool} {declarator : SyntaxNode} :
    ParentsWithin (visitDeclarator lineCount node exported collected declarator).symbols := by
  unfold visitDeclarator
  split
  · exact within
  split
  · exact within
  split
  · exact within
  dsimp only
  split
  · apply within.concat
    simp
  · apply within.concat
    simp

end

variable {signature : String} {kind : SymbolKind} {chunk : Option ChunkKind}

variable {exported : Bool} {name : String}

theorem declare_symbols :
    (declare lineCount collected node exported name signature kind chunk).2.symbols =
      collected.symbols ++ [⟨name, kind, some signature, node.startRow + 1,
        node.endRow + 1, exported, none⟩] := by
  cases chunk with
  | none | some chunkKind => rfl

theorem declare_within (within : ParentsWithin collected.symbols) :
    ParentsWithin
      (declare lineCount collected node exported name signature kind chunk).2.symbols := by
  rw [declare_symbols]
  apply within.concat
  simp

theorem visitTopLevel_within (within : ParentsWithin collected.symbols) :
    ParentsWithin (visitTopLevel lineCount collected node).symbols := by
  unfold visitTopLevel
  dsimp only
  split
  · induction (unwrapExport node).1.namedChildren generalizing collected with
    | nil => exact within
    | cons child rest ih => exact ih (visitDeclarator_within within)
  split
  · exact within
  split
  · exact declare_within within
  split
  · apply visitClassBody_within (declare_within within)
    rw [declare_symbols, List.length_append]
    exact Nat.lt_succ_self _
  split
  · exact declare_within within
  split
  · exact declare_within within
  · split
    · exact declare_within within
    · exact within

theorem collect_within (source : String) (root : SyntaxNode) :
    ParentsWithin (collect source root).symbols := by
  have visited : ∀ (children : List SyntaxNode) (collected : Collected),
      ParentsWithin collected.symbols → ParentsWithin
        (children.foldl (visitTopLevel (splitLines source).length) collected).symbols := by
    intro children
    induction children with
    | nil => exact fun _ within => within
    | cons child rest ih => exact fun _ within => ih _ (visitTopLevel_within within)
  apply visited
  simp [ParentsWithin]

theorem parentsWithin_nil : ParentsWithin [] := by simp [ParentsWithin]

variable (parse : LanguageId → String → Parsing) (source : String)

theorem combineForCode_within (language : LanguageId) :
    ParentsWithin ((combineForCode parse source language).getD (windowChunker source)).symbols := by
  unfold combineForCode treesitterChunker
  cases parse language source with
  | unavailable | throws => exact parentsWithin_nil
  | tree root => exact collect_within source root

theorem jsonChunker_within : ParentsWithin (jsonChunker source).symbols := by
  unfold jsonChunker
  split
  · exact parentsWithin_nil
  · exact parentsWithin_nil

theorem chunkSource_within (language : LanguageId) :
    ParentsWithin (chunkSource parse source language).symbols := by
  cases language with
  | markdown | unknown => exact parentsWithin_nil
  | json => exact jsonChunker_within source
  | typescript => exact combineForCode_within parse source .typescript
  | tsx => exact combineForCode_within parse source .tsx
  | javascript => exact combineForCode_within parse source .javascript
  | jsx => exact combineForCode_within parse source .jsx

end

end Zuse.Index
