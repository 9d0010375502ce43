import Zuse.Data.Table
import Zuse.Index.Chunker

namespace Zuse.Index

open Zuse.Data List List Table

/-! The tables of the index: blobs keyed by the hash of their content, what the parse of
a blob left, and which blob every file of a branch has. -/

abbrev Sha := List UInt8

structure BlobRow where
  id : Nat
  sha : Sha
  language : LanguageId
  size : Nat
  parsedAt : Nat

structure SymbolRow where
  id : Nat
  blobId : Nat
  name : String
  kind : SymbolKind
  signature : Option String
  startLine : Nat
  endLine : Nat
  parentId : Option Nat
  exported : Bool

structure ChunkRow where
  id : Nat
  blobId : Nat
  kind : ChunkKind
  startLine : Nat
  endLine : Nat
  symbolId : Option Nat
  content : String

structure ManifestRow where
  branch : String
  filePath : String
  blobId : Nat

structure IndexDb where
  blobs : List BlobRow
  symbols : List SymbolRow
  chunks : List ChunkRow
  manifests : List ManifestRow

def emptyDb : IndexDb := ⟨[], [], [], []⟩

structure UpsertBlobResult where
  blobId : Nat
  isNew : Bool

def upsertBlob (db : IndexDb) (sha : Sha) (language : LanguageId) (size now : Nat) :
    UpsertBlobResult × IndexDb :=
  match db.blobs.find? fun blob => blob.sha = sha with
  | some existing => (⟨existing.id, false⟩, db)
  | none =>
    let id := Table.nextRowId (db.blobs.map BlobRow.id)
    (⟨id, true⟩, { db with blobs := db.blobs ++ [⟨id, sha, language, size, now⟩] })

def newSymbol (blobId : Nat) (entry : ParsedSymbol × Nat) : SymbolRow :=
  ⟨entry.2, blobId, entry.1.name, entry.1.kind, entry.1.signature, entry.1.startLine,
    entry.1.endLine, none, entry.1.exported⟩

def insertSymbols (blobId : Nat) (rows : List SymbolRow) :
    List ParsedSymbol → List Nat × List SymbolRow
  | [] => ([], rows)
  | sym :: rest =>
    let id := Table.nextRowId (rows.map SymbolRow.id)
    let later := insertSymbols blobId (rows ++ [newSymbol blobId (sym, id)]) rest
    (id :: later.1, later.2)

def updateSymbolParent (parentRowId id : Nat) (row : SymbolRow) : SymbolRow :=
  if row.id = id then { row with parentId := some parentRowId } else row

def wireParent (idByIndex : List Nat) (rows : List SymbolRow)
    (entry : ParsedSymbol × Nat) : List SymbolRow :=
  match entry.1.parentIndex.bind (idByIndex[·]?) with
  | some parentRowId => rows.map (updateSymbolParent parentRowId entry.2)
  | none => rows

def symbolNameToRowId (symbols : List (ParsedSymbol × Nat)) (name : String) : Option Nat :=
  (symbols.find? fun entry => entry.1.name = name).map Prod.snd

def lastSegment (name : String) : String :=
  String.ofList ((name.toList.reverse.takeWhile (· ≠ '.')).reverse)

def symbolIdOf (symbols : List (ParsedSymbol × Nat)) (chunk : ParsedChunk) : Option Nat :=
  (present chunk.symbolName).bind fun name => symbolNameToRowId symbols (lastSegment name)

def newChunk (blobId id : Nat) (symbolId : Option Nat) (chunk : ParsedChunk) : ChunkRow :=
  ⟨id, blobId, chunk.kind, chunk.startLine, chunk.endLine, symbolId, chunk.content⟩

def insertChunk (blobId : Nat) (symbols : List (ParsedSymbol × Nat))
    (rows : List ChunkRow) (chunk : ParsedChunk) : List ChunkRow :=
  rows ++ [newChunk blobId (Table.nextRowId (rows.map ChunkRow.id))
    (symbolIdOf symbols chunk) chunk]

def persistParse (db : IndexDb) (blobId : Nat) (parsed : ParseResult) : IndexDb :=
  let inserted := insertSymbols blobId db.symbols parsed.symbols
  let entries := parsed.symbols.zip inserted.1
  { db with
    symbols := entries.foldl (wireParent inserted.1) inserted.2
    chunks := parsed.chunks.foldl (insertChunk blobId entries) db.chunks }

@[simp] theorem persistParse_blobs (db : IndexDb) (blobId : Nat) (parsed : ParseResult) :
    (persistParse db blobId parsed).blobs = db.blobs := rfl

@[simp] theorem persistParse_manifests (db : IndexDb) (blobId : Nat) (parsed : ParseResult) :
    (persistParse db blobId parsed).manifests = db.manifests := rfl

structure ManifestEntry where
  filePath : String
  blobId : Nat
  deriving DecidableEq

def setManifestEntry (branch : String) (db : IndexDb) (entry : ManifestEntry) : IndexDb :=
  { db with
    manifests := Table.put (fun row => (row.branch, row.filePath))
      ⟨branch, entry.filePath, entry.blobId⟩ db.manifests }

def setManifestBulk (branch : String) (db : IndexDb) (entries : List ManifestEntry) : IndexDb :=
  entries.foldl (setManifestEntry branch) db

def removeManifestEntry (branch filePath : String) (db : IndexDb) : IndexDb :=
  { db with
    manifests := db.manifests.filter fun row =>
      ¬(row.branch = branch ∧ row.filePath = filePath) }

namespace IndexDb

variable (db : IndexDb) (blobId : Nat)

def symbolsOf : List SymbolRow := db.symbols.filter fun row => row.blobId = blobId

def chunksOf : List ChunkRow := db.chunks.filter fun row => row.blobId = blobId

def parsedSymbols : List ParsedSymbol :=
  let rows := db.symbolsOf blobId
  rows.map fun row =>
    ⟨row.name, row.kind, row.signature, row.startLine, row.endLine, row.exported,
      row.parentId.map fun parent => (rows.map SymbolRow.id).idxOf parent⟩

def parsedChunks : List ParsedChunk :=
  (db.chunksOf blobId).map fun row =>
    ⟨row.kind, row.startLine, row.endLine, row.content,
      row.symbolId.bind fun id =>
        ((db.symbolsOf blobId).find? fun sym => sym.id = id).map SymbolRow.name⟩

end IndexDb

/-- A chunk as the tables can hold it: it is linked to a symbol of the name that the
chunk's qualified name ends in, where the parse has one. -/
def linked (symbols : List ParsedSymbol) (chunk : ParsedChunk) : ParsedChunk :=
  { chunk with
    symbolName := ((present chunk.symbolName).map lastSegment).filter fun name =>
      symbols.any fun sym => sym.name = name }

def ParseResult.stored (parsed : ParseResult) : ParseResult :=
  { parsed with chunks := parsed.chunks.map (linked parsed.symbols) }

def IndexDb.parseOf (db : IndexDb) (blobId : Nat) : ParseResult :=
  ⟨db.parsedChunks blobId, db.parsedSymbols blobId⟩

/-- The tables hold exactly the symbols and the chunks of a parse for a blob. -/
def IndexDb.Holds (db : IndexDb) (blobId : Nat) (parsed : ParseResult) : Prop :=
  db.parseOf blobId = parsed.stored

variable {idByIndex : List Nat}

section Symbols

variable {blobId : Nat} {rows : List SymbolRow} {symbols : List ParsedSymbol}

theorem insertSymbols_ids :
    (insertSymbols blobId rows symbols).1 =
      List.range' (Table.nextRowId (rows.map SymbolRow.id)) symbols.length := by
  induction symbols generalizing rows with
  | nil => rfl
  | cons sym rest ih =>
    simp only [insertSymbols, ih, map_append, map_cons, map_nil, newSymbol,
      nextRowId_concat, length_cons, range'_succ]

theorem insertSymbols_rows :
    (insertSymbols blobId rows symbols).2 =
      rows ++ (symbols.zip (insertSymbols blobId rows symbols).1).map (newSymbol blobId) := by
  induction symbols generalizing rows with
  | nil => simp [insertSymbols]
  | cons sym rest ih =>
    simp only [insertSymbols, zip_cons_cons, map_cons]
    rw [ih, append_assoc]
    rfl

def wiredRow (idByIndex : List Nat) (row : SymbolRow) (entry : ParsedSymbol × Nat) :
    SymbolRow :=
  match entry.1.parentIndex.bind (idByIndex[·]?) with
  | some parentRowId => updateSymbolParent parentRowId entry.2 row
  | none => row

theorem foldl_wireParent (idByIndex : List Nat) (entries : List (ParsedSymbol × Nat)) :
    entries.foldl (wireParent idByIndex) rows =
      rows.map fun row => entries.foldl (wiredRow idByIndex) row := by
  induction entries generalizing rows with
  | nil => simp
  | cons entry rest ih =>
    have once : wireParent idByIndex rows entry =
        rows.map fun row => wiredRow idByIndex row entry := by
      unfold wireParent wiredRow
      cases entry.1.parentIndex.bind (idByIndex[·]?) with
      | none => simp
      | some parentRowId => rfl
    rw [foldl_cons, ih, once, map_map]
    rfl

variable {row : SymbolRow} {entry : ParsedSymbol × Nat}

theorem wiredRow_other (other : row.id ≠ entry.2) : wiredRow idByIndex row entry = row := by
  unfold wiredRow
  split
  · rw [updateSymbolParent, if_neg other]
  · rfl

variable {entries : List (ParsedSymbol × Nat)}

theorem foldl_wiredRow_other (other : row.id ∉ entries.map Prod.snd) :
    entries.foldl (wiredRow idByIndex) row = row := by
  induction entries with
  | nil => rfl
  | cons entry rest ih =>
    rw [map_cons, mem_cons, not_or] at other
    rw [foldl_cons, wiredRow_other other.1]
    exact ih other.2

def wiredSymbol (blobId : Nat) (idByIndex : List Nat) (entry : ParsedSymbol × Nat) :
    SymbolRow :=
  { newSymbol blobId entry with
    parentId := entry.1.parentIndex.bind (idByIndex[·]?) }

theorem foldl_wiredRow (distinct : (entries.map Prod.snd).Nodup) (member : entry ∈ entries) :
    entries.foldl (wiredRow idByIndex) (newSymbol blobId entry) =
      wiredSymbol blobId idByIndex entry := by
  induction entries with
  | nil => cases member
  | cons first rest ih =>
    rw [map_cons, nodup_cons] at distinct
    rw [foldl_cons]
    cases member with
    | head =>
      have wired : wiredRow idByIndex (newSymbol blobId entry) entry =
          wiredSymbol blobId idByIndex entry := by
        unfold wiredRow wiredSymbol
        cases entry.1.parentIndex.bind (idByIndex[·]?) with
        | none => rfl
        | some parentRowId => exact if_pos rfl
      rw [wired]
      exact foldl_wiredRow_other distinct.1
    | tail _ later =>
      have other : (newSymbol blobId entry).id ≠ first.2 := by
        intro same
        apply distinct.1
        rw [← same]
        exact mem_map_of_mem later
      rw [wiredRow_other other]
      exact ih distinct.2 later

end Symbols

section Persisted

variable {db : IndexDb} {blobId : Nat} {parsed : ParseResult}

def symbolEntries (db : IndexDb) (parsed : ParseResult) : List (ParsedSymbol × Nat) :=
  parsed.symbols.zip
    (List.range' (Table.nextRowId (db.symbols.map SymbolRow.id)) parsed.symbols.length)

theorem symbolEntries_ids :
    (symbolEntries db parsed).map Prod.snd =
      List.range' (Table.nextRowId (db.symbols.map SymbolRow.id)) parsed.symbols.length := by
  rw [symbolEntries, map_snd_zip]
  rw [length_range']

theorem symbolEntries_symbols : (symbolEntries db parsed).map Prod.fst = parsed.symbols := by
  rw [symbolEntries, map_fst_zip]
  rw [length_range']

theorem symbolEntries_distinct : ((symbolEntries db parsed).map Prod.snd).Nodup := by
  rw [symbolEntries_ids]
  exact nodup_range'

theorem persistParse_symbols :
    (persistParse db blobId parsed).symbols =
      db.symbols ++ (symbolEntries db parsed).map
        (wiredSymbol blobId ((symbolEntries db parsed).map Prod.snd)) := by
  simp only [persistParse, insertSymbols_rows, foldl_wireParent, map_append, insertSymbols_ids]
  rw [symbolEntries_ids]
  congr 1
  · conv_rhs => rw [← map_id db.symbols]
    apply map_congr_left
    intro row member
    apply foldl_wiredRow_other
    rw [← symbolEntries, symbolEntries_ids, mem_range']
    have below := lt_nextRowId (mem_map_of_mem (f := SymbolRow.id) member)
    omega
  · rw [map_map]
    apply map_congr_left
    intro entry member
    exact foldl_wiredRow symbolEntries_distinct member

theorem foldl_insertChunk (entries : List (ParsedSymbol × Nat)) (rows : List ChunkRow)
    (chunks : List ParsedChunk) :
    chunks.foldl (insertChunk blobId entries) rows =
      rows ++ (chunks.zip (List.range' (Table.nextRowId (rows.map ChunkRow.id))
        chunks.length)).map fun entry =>
          newChunk blobId entry.2 (symbolIdOf entries entry.1) entry.1 := by
  induction chunks generalizing rows with
  | nil => simp
  | cons chunk rest ih =>
    rw [foldl_cons, ih, insertChunk, map_append, map_cons, map_nil,
      newChunk, nextRowId_concat, append_assoc]
    rfl

structure IndexDb.Bare (db : IndexDb) (blobId : Nat) : Prop where
  symbols : ∀ row ∈ db.symbols, row.blobId ≠ blobId
  chunks : ∀ row ∈ db.chunks, row.blobId ≠ blobId

theorem symbolsOf_persistParse (bare : db.Bare blobId) :
    (persistParse db blobId parsed).symbolsOf blobId =
      (symbolEntries db parsed).map
        (wiredSymbol blobId ((symbolEntries db parsed).map Prod.snd)) := by
  rw [IndexDb.symbolsOf, persistParse_symbols, filter_append,
    filter_eq_nil_iff.mpr, nil_append, filter_eq_self.mpr]
  · intro row member
    obtain ⟨entry, -, rfl⟩ := mem_map.mp member
    exact decide_eq_true rfl
  · intro row member
    simpa using bare.symbols row member

theorem ids_wiredSymbol (entries : List (ParsedSymbol × Nat)) :
    (entries.map (wiredSymbol blobId idByIndex)).map SymbolRow.id = entries.map Prod.snd := by
  rw [map_map]
  rfl

section

variable (bare : db.Bare blobId)
include bare

theorem parsedSymbols_persistParse (within : ParentsWithin parsed.symbols) :
    (persistParse db blobId parsed).parsedSymbols blobId = parsed.symbols := by
  rw [IndexDb.parsedSymbols, symbolsOf_persistParse bare, ids_wiredSymbol, map_map]
  conv_rhs => rw [← @symbolEntries_symbols db parsed]
  apply map_congr_left
  intro entry member
  have isSymbol : entry.1 ∈ parsed.symbols := by
    rw [← @symbolEntries_symbols db parsed]
    exact mem_map_of_mem member
  have parent : (entry.1.parentIndex.bind
      (((symbolEntries db parsed).map Prod.snd)[·]?)).map
        (fun parent => ((symbolEntries db parsed).map Prod.snd).idxOf parent) =
      entry.1.parentIndex := by
    cases nested : entry.1.parentIndex with
    | none => rfl
    | some index =>
      have bound := within entry.1 isSymbol index nested
      have inside : index < ((symbolEntries db parsed).map Prod.snd).length := by
        rw [symbolEntries_ids, length_range']
        exact bound
      rw [Option.bind_some, getElem?_eq_getElem inside, Option.map_some,
        symbolEntries_distinct.idxOf_getElem]
  simp only [Function.comp, wiredSymbol, newSymbol, parent]

theorem name_of_symbolIdOf (chunk : ParsedChunk) :
    ((symbolIdOf (symbolEntries db parsed) chunk).bind fun id =>
      (((persistParse db blobId parsed).symbolsOf blobId).find? fun sym =>
        sym.id = id).map SymbolRow.name) = (linked parsed.symbols chunk).symbolName := by
  unfold symbolIdOf linked symbolNameToRowId
  cases present chunk.symbolName with
  | none => rfl
  | some name =>
    simp only [Option.bind_some, Option.map_some]
    cases found : (symbolEntries db parsed).find?
        (fun entry => entry.1.name = lastSegment name) with
    | none =>
      have absent : (parsed.symbols.any fun sym => sym.name = lastSegment name) = false := by
        rw [any_eq_false]
        intro sym member
        rw [← @symbolEntries_symbols db parsed] at member
        obtain ⟨entry, isEntry, rfl⟩ := mem_map.mp member
        exact find?_eq_none.mp found entry isEntry
      rw [Option.filter_some, absent]
      rfl
    | some entry =>
      have member := mem_of_find?_eq_some found
      have chosen := find?_some found
      have named : entry.1.name = lastSegment name := of_decide_eq_true chosen
      have known : (parsed.symbols.any fun sym => sym.name = lastSegment name) = true := by
        rw [any_eq_true]
        refine ⟨entry.1, ?_, decide_eq_true named⟩
        rw [← @symbolEntries_symbols db parsed]
        exact mem_map_of_mem member
      have row := @Table.find?_key _
        ((symbolEntries db parsed).map
          (wiredSymbol blobId ((symbolEntries db parsed).map Prod.snd)))
        _ _ _ SymbolRow.id
        (by
          rw [ids_wiredSymbol]
          exact symbolEntries_distinct)
        (mem_map_of_mem member)
      rw [symbolsOf_persistParse bare, Option.map_some, Option.bind_some]
      have same : (wiredSymbol blobId ((symbolEntries db parsed).map Prod.snd) entry).id =
          entry.2 := rfl
      rw [same] at row
      rw [row, Option.filter_some, known]
      exact congrArg some named

theorem parsedChunks_persistParse :
    (persistParse db blobId parsed).parsedChunks blobId =
      parsed.chunks.map (linked parsed.symbols) := by
  have stored : (persistParse db blobId parsed).chunks =
      db.chunks ++ (parsed.chunks.zip (range' (nextRowId
        (db.chunks.map ChunkRow.id)) parsed.chunks.length)).map fun entry =>
          newChunk blobId entry.2 (symbolIdOf (symbolEntries db parsed) entry.1) entry.1 := by
    rw [← foldl_insertChunk, symbolEntries, ← @insertSymbols_ids blobId]
    rfl
  have ofBlob : (persistParse db blobId parsed).chunksOf blobId =
      (parsed.chunks.zip (range' (nextRowId
        (db.chunks.map ChunkRow.id)) parsed.chunks.length)).map fun entry =>
          newChunk blobId entry.2 (symbolIdOf (symbolEntries db parsed) entry.1) entry.1 := by
    rw [IndexDb.chunksOf, stored, filter_append, filter_eq_nil_iff.mpr,
      nil_append, filter_eq_self.mpr]
    · intro row member
      obtain ⟨entry, -, rfl⟩ := mem_map.mp member
      exact decide_eq_true rfl
    · intro row member
      simpa using bare.chunks row member
  rw [IndexDb.parsedChunks, ofBlob, map_map]
  conv_rhs =>
    rw [← @map_fst_zip _ _ parsed.chunks
      (range' (nextRowId (db.chunks.map ChunkRow.id)) parsed.chunks.length)
      (by rw [length_range'])]
  rw [map_map]
  apply map_congr_left
  intro entry _
  simp only [Function.comp, newChunk]
  rw [name_of_symbolIdOf bare]
  rfl

theorem holds_persistParse (within : ParentsWithin parsed.symbols) :
    (persistParse db blobId parsed).Holds blobId parsed := by
  rw [IndexDb.Holds, IndexDb.parseOf, parsedChunks_persistParse bare,
    parsedSymbols_persistParse bare within]
  rfl

theorem IndexDb.Bare.parseOf : db.parseOf blobId = ⟨[], []⟩ := by
  have symbols : db.symbolsOf blobId = [] := by
    rw [IndexDb.symbolsOf, filter_eq_nil_iff]
    intro row member
    simpa using bare.symbols row member
  have chunks : db.chunksOf blobId = [] := by
    rw [IndexDb.chunksOf, filter_eq_nil_iff]
    intro row member
    simpa using bare.chunks row member
  rw [IndexDb.parseOf, IndexDb.parsedChunks, IndexDb.parsedSymbols, symbols, chunks]
  rfl

end

theorem parseOf_congr {first second : IndexDb}
    (symbols : first.symbolsOf blobId = second.symbolsOf blobId)
    (chunks : first.chunksOf blobId = second.chunksOf blobId) :
    first.parseOf blobId = second.parseOf blobId := by
  simp only [IndexDb.parseOf, IndexDb.parsedChunks, IndexDb.parsedSymbols, symbols, chunks]

theorem parseOf_persistParse_other {other : Nat} (different : blobId ≠ other) :
    (persistParse db blobId parsed).parseOf other = db.parseOf other := by
  apply parseOf_congr
  · rw [IndexDb.symbolsOf, IndexDb.symbolsOf, persistParse_symbols, filter_append]
    conv_rhs => rw [← append_nil (db.symbols.filter _)]
    congr 1
    rw [filter_eq_nil_iff]
    intro row member
    obtain ⟨entry, -, rfl⟩ := mem_map.mp member
    exact fun same => different (of_decide_eq_true same)
  rw [IndexDb.chunksOf, IndexDb.chunksOf, persistParse, foldl_insertChunk, filter_append]
  conv_rhs => rw [← append_nil (db.chunks.filter _)]
  congr 1
  rw [filter_eq_nil_iff]
  intro row member
  obtain ⟨entry, -, rfl⟩ := mem_map.mp member
  exact fun same => different (of_decide_eq_true same)

theorem mem_symbols_persistParse {row : SymbolRow}
    (member : row ∈ (persistParse db blobId parsed).symbols) :
    row ∈ db.symbols ∨ row.blobId = blobId := by
  rw [persistParse_symbols, mem_append] at member
  refine member.imp_right fun new => ?_
  obtain ⟨entry, -, rfl⟩ := mem_map.mp new
  rfl

theorem mem_chunks_persistParse {row : ChunkRow}
    (member : row ∈ (persistParse db blobId parsed).chunks) :
    row ∈ db.chunks ∨ row.blobId = blobId := by
  rw [persistParse, foldl_insertChunk, mem_append] at member
  refine member.imp_right fun new => ?_
  obtain ⟨entry, -, rfl⟩ := mem_map.mp new
  rfl

end Persisted

end Zuse.Index
