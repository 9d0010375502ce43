import Mathlib.Data.List.Basic
import Zuse.Index.BlobStore

namespace Zuse.Index

open Zuse.Data List

/-- The chunk that is shown for a symbol, with its id. -/
def fetchChunkBySymbol (db : IndexDb) (symbolId : Nat) (branch : String) : Option (Nat × String) :=
  let found := db.chunks.filter fun chunk => chunk.symbolId = some symbolId &&
    db.manifests.any fun row => row.blobId = chunk.blobId && row.branch = branch
  (found.insertionSort fun left right => left.id ≤ right.id).head?.map fun chunk =>
    (chunk.id, chunk.content)

/-- A chunk was made with the symbol at an index, or it has no symbol. -/
def Together (symbols : List ParsedSymbol) (made : ParsedChunk × Option Nat) : Bool :=
  match present made.1.symbolName with
  | none => made.2.isNone
  | some name => (made.2.bind (symbols[·]?)).any fun symbol =>
      symbol.startLine = made.1.startLine && symbol.name = lastSegment name

/-- Every link of a chunk leads to a symbol. -/
def IndexDb.Linked (db : IndexDb) : Prop :=
  ∀ chunk ∈ db.chunks, ∀ id, chunk.symbolId = some id → id ∈ db.symbols.map SymbolRow.id

/-- What a parse leaves: rows that follow those in the tables, with their links. -/
structure PointsToOwn (db : IndexDb) (blobId : Nat) (symbols : List ParsedSymbol)
    (made : List (ParsedChunk × Option Nat)) (after : IndexDb) : Prop where
  chunks : ∀ (i : Nat) chunk index, made[i]? = some (chunk, some index) → ∃ row own,
    after.chunks[db.chunks.length + i]? = some row ∧
      after.symbols[db.symbols.length + index]? = some own ∧ row.symbolId = some own.id
  parents : ∀ (i : Nat) symbol, symbols[i]? = some symbol → ∃ row,
    after.symbols[db.symbols.length + i]? = some row ∧
      row.parentId = symbol.parentIndex.bind fun parent =>
        (after.symbols[db.symbols.length + parent]?).map SymbolRow.id
  fetched : db.Linked → ∀ (index : Nat) own branch,
    after.symbols[db.symbols.length + index]? = some own →
      (∀ found, fetchChunkBySymbol after own.id branch = some found →
        ∃ chunk, (chunk, some index) ∈ made ∧ chunk.content = found.2) ∧
      (∀ chunk, (chunk, some index) ∈ made →
        (∃ row ∈ db.manifests, row.blobId = blobId ∧ row.branch = branch) →
          (fetchChunkBySymbol after own.id branch).isSome)

/-- The symbol of every chunk is the first of its name. -/
def FirstOfName (symbols : List ParsedSymbol) (made : List (ParsedChunk × Option Nat)) : Prop :=
  ∀ entry ∈ made, ∀ index symbol, entry.2 = some index → symbols[index]? = some symbol →
    ∀ (earlier : Nat) other, earlier < index → symbols[earlier]? = some other →
      other.name ≠ symbol.name

variable {db : IndexDb} {blobId : Nat} {parsed : ParseResult} {symbols : List ParsedSymbol}
  {made : List (ParsedChunk × Option Nat)}

/-- The id of the first row that a parse inserts. -/
def firstId (db : IndexDb) : Nat := Table.nextRowId (db.symbols.map SymbolRow.id)

theorem getElem?_symbolEntries (i : Nat) :
    (symbolEntries db parsed)[i]? =
      (parsed.symbols[i]?).map fun symbol => (symbol, firstId db + i) := by
  rw [symbolEntries, ← zipIdx_eq_zip_range', getElem?_zipIdx]
  rfl

theorem getElem_symbolEntries {i : Nat} {symbol : ParsedSymbol}
    (isSymbol : parsed.symbols[i]? = some symbol) :
    ∃ within : i < (symbolEntries db parsed).length,
      (symbolEntries db parsed)[i] = (symbol, firstId db + i) := by
  apply List.getElem?_eq_some_iff.mp
  rw [getElem?_symbolEntries, isSymbol]
  rfl

theorem symbolNameToRowId_eq_own {index : Nat} {symbol : ParsedSymbol}
    (isSymbol : parsed.symbols[index]? = some symbol) :
    symbolNameToRowId (symbolEntries db parsed) symbol.name = some (firstId db + index) ↔
      ∀ (earlier : Nat) other, earlier < index → parsed.symbols[earlier]? = some other →
        other.name ≠ symbol.name := by
  have place : ∀ {i : Nat} (within : i < (symbolEntries db parsed).length),
      parsed.symbols[i]? = some (symbolEntries db parsed)[i].1 ∧
        (symbolEntries db parsed)[i].2 = firstId db + i := by
    intro i within
    have found := List.getElem?_eq_getElem within
    rw [getElem?_symbolEntries, Option.map_eq_some_iff] at found
    obtain ⟨other, isOther, same⟩ := found
    rw [← same]
    exact ⟨isOther, rfl⟩
  rw [symbolNameToRowId, Option.map_eq_some_iff]
  constructor
  · rintro ⟨entry, found, same⟩ earlier other before isOther
    obtain ⟨_, i, bound, isEntry, others⟩ := find?_eq_some_iff_getElem.mp found
    have here := (place bound).2
    rw [isEntry] at here
    have passed := others earlier (by omega)
    obtain ⟨_, sameEntry⟩ := @getElem_symbolEntries db parsed earlier other isOther
    rw [sameEntry] at passed
    simpa using passed
  intro first
  obtain ⟨within, sameEntry⟩ := @getElem_symbolEntries db parsed index symbol isSymbol
  refine ⟨_, find?_eq_some_iff_getElem.mpr ⟨decide_eq_true rfl, index, within, sameEntry, ?_⟩, rfl⟩
  intro earlier before
  simpa using first earlier _ before (place (Nat.lt_trans before within)).1

theorem symbolRow_persistParse (i : Nat) :
    (persistParse db blobId parsed).symbols[db.symbols.length + i]? =
      (parsed.symbols[i]?).map fun symbol => wiredSymbol blobId
        ((symbolEntries db parsed).map Prod.snd) (symbol, firstId db + i) := by
  rw [persistParse_symbols, getElem?_append_right (Nat.le_add_right _ _),
    Nat.add_sub_cancel_left, getElem?_map, getElem?_symbolEntries, Option.map_map]
  rfl

theorem chunkRow_persistParse (i : Nat) :
    (persistParse db blobId parsed).chunks[db.chunks.length + i]? =
      (parsed.chunks[i]?).map fun chunk =>
        newChunk blobId (Table.nextRowId (db.chunks.map ChunkRow.id) + i)
          (symbolIdOf (symbolEntries db parsed) chunk) chunk := by
  rw [persistParse, foldl_insertChunk, insertSymbols_ids, ← symbolEntries,
    getElem?_append_right (Nat.le_add_right _ _), Nat.add_sub_cancel_left, getElem?_map,
    ← zipIdx_eq_zip_range', getElem?_zipIdx, Option.map_map]
  rfl

theorem Together.owner {chunk : ParsedChunk} {index : Nat}
    (together : Together parsed.symbols (chunk, some index) = true) :
    ∃ symbol, parsed.symbols[index]? = some symbol ∧
      symbolIdOf (symbolEntries db parsed) chunk =
        symbolNameToRowId (symbolEntries db parsed) symbol.name := by
  unfold Together at together
  rw [symbolIdOf]
  split at together
  · cases together
  rename_i name named
  obtain ⟨symbol, isSymbol, same⟩ := (Option.any_eq_true _ _).mp together
  rw [Bool.and_eq_true, decide_eq_true_eq, decide_eq_true_eq] at same
  refine ⟨symbol, isSymbol, ?_⟩
  rw [named, same.2]
  rfl

theorem Together.unowned {chunk : ParsedChunk}
    (together : Together parsed.symbols (chunk, none) = true) :
    symbolIdOf (symbolEntries db parsed) chunk = none := by
  unfold Together at together
  rw [symbolIdOf]
  split at together
  · rename_i unnamed
    rw [unnamed]
    rfl
  · cases together

/-- The tables after a parse whose chunks were made with symbols. -/
def persistMade (db : IndexDb) (blobId : Nat) (symbols : List ParsedSymbol)
    (made : List (ParsedChunk × Option Nat)) : IndexDb :=
  persistParse db blobId ⟨made.map Prod.fst, symbols⟩

theorem chunkRow_of_made {i : Nat} {chunk : ParsedChunk} {owner : Option Nat}
    (isMade : made[i]? = some (chunk, owner)) :
    (persistMade db blobId symbols made).chunks[db.chunks.length + i]? =
      some (newChunk blobId (Table.nextRowId (db.chunks.map ChunkRow.id) + i)
        (symbolIdOf (symbolEntries db ⟨made.map Prod.fst, symbols⟩) chunk) chunk) := by
  rw [persistMade, chunkRow_persistParse, getElem?_map, isMade]
  rfl

section Made

variable (together : ∀ entry ∈ made, Together symbols entry = true)
include together

theorem symbolIdOf_eq_own (first : FirstOfName symbols made) {chunk : ParsedChunk} {index : Nat}
    (member : (chunk, some index) ∈ made) :
    symbolIdOf (symbolEntries db ⟨made.map Prod.fst, symbols⟩) chunk =
      some (firstId db + index) := by
  obtain ⟨symbol, isSymbol, same⟩ :=
    @Together.owner db ⟨made.map Prod.fst, symbols⟩ _ _ (together _ member)
  rw [same, symbolNameToRowId_eq_own isSymbol]
  exact first _ member index symbol rfl isSymbol

theorem mem_chunks_of_link (linked : db.Linked) (first : FirstOfName symbols made) {index : Nat}
    {row : ChunkRow} (member : row ∈ (persistMade db blobId symbols made).chunks)
    (link : row.symbolId = some (firstId db + index)) :
    ∃ chunk, (chunk, some index) ∈ made ∧ chunk.content = row.content := by
  rw [persistMade, persistParse, foldl_insertChunk, insertSymbols_ids, mem_append] at member
  obtain old | new := member
  · have below := Table.lt_nextRowId (linked row old _ link)
    rw [firstId] at below
    omega
  obtain ⟨⟨chunk, id⟩, isChunk, rfl⟩ := mem_map.mp new
  obtain ⟨⟨_, owner⟩, isMade, rfl⟩ := mem_map.mp (of_mem_zip isChunk).1
  cases owner with
  | none =>
    have unlinked := @Together.unowned db ⟨made.map Prod.fst, symbols⟩ _ (together _ isMade)
    cases unlinked.symm.trans link
  | some other =>
    have own := (@symbolIdOf_eq_own db _ _ together first _ _ isMade).symm.trans link
    have same : other = index := by
      simpa using own
    exact ⟨_, same ▸ isMade, rfl⟩

theorem pointsToOwn_of_first (first : FirstOfName symbols made) :
    PointsToOwn db blobId symbols made (persistMade db blobId symbols made) where
  chunks := by
    intro i chunk index isMade
    obtain ⟨symbol, isSymbol, _⟩ := @Together.owner db ⟨made.map Prod.fst, symbols⟩ _ _
      (together _ (mem_of_getElem? isMade))
    have isOwn := @symbolRow_persistParse db blobId ⟨made.map Prod.fst, symbols⟩ index
    rw [isSymbol] at isOwn
    exact ⟨_, _, chunkRow_of_made isMade, isOwn,
      symbolIdOf_eq_own together first (mem_of_getElem? isMade)⟩
  parents := by
    intro i symbol isSymbol
    refine ⟨_, by rw [persistMade, symbolRow_persistParse, isSymbol]; rfl, ?_⟩
    simp only [wiredSymbol, persistMade, symbolRow_persistParse, getElem?_map,
      getElem?_symbolEntries, Option.map_map]
    rfl
  fetched := by
    intro linked index own branch isOwn
    rw [persistMade, symbolRow_persistParse, Option.map_eq_some_iff] at isOwn
    obtain ⟨symbol, _, rfl⟩ := isOwn
    constructor
    · intro found fetched
      obtain ⟨row, isFirst, rfl⟩ := Option.map_eq_some_iff.mp fetched
      have member := (perm_insertionSort _ _).mem_iff.mp (mem_of_head? isFirst)
      obtain ⟨stored, link⟩ := mem_filter.mp member
      rw [Bool.and_eq_true] at link
      exact mem_chunks_of_link together linked first stored (of_decide_eq_true link.1)
    rintro chunk isMade ⟨row, isRow, same⟩
    obtain ⟨i, found⟩ := getElem?_of_mem isMade
    have stored := mem_of_getElem? (@chunkRow_of_made db blobId symbols _ _ _ _ found)
    have link := @symbolIdOf_eq_own db _ _ together first _ _ isMade
    rw [fetchChunkBySymbol, Option.isSome_map, isSome_head?]
    refine ne_nil_of_mem ((perm_insertionSort _ _).mem_iff.mpr (mem_filter.mpr ⟨stored, ?_⟩))
    rw [Bool.and_eq_true, any_eq_true]
    exact ⟨decide_eq_true link, row, isRow, by simp [same, newChunk]⟩

theorem pointsToOwn_iff :
    PointsToOwn db blobId symbols made (persistMade db blobId symbols made) ↔
      FirstOfName symbols made := by
  refine ⟨?_, pointsToOwn_of_first together⟩
  rintro points ⟨chunk, owner⟩ member index symbol rfl isSymbol
  obtain ⟨i, isMade⟩ := getElem?_of_mem member
  obtain ⟨row, own, isRow, isOwn, link⟩ := points.chunks i chunk index isMade
  rw [chunkRow_of_made isMade] at isRow
  rw [persistMade, symbolRow_persistParse, isSymbol] at isOwn
  cases isRow
  cases isOwn
  obtain ⟨other, isOther, same⟩ :=
    @Together.owner db ⟨made.map Prod.fst, symbols⟩ _ _ (together _ member)
  cases isSymbol.symm.trans isOther
  exact (symbolNameToRowId_eq_own isSymbol).mp (same.symm.trans link)

end Made

def sampleSymbols (second : String) : List ParsedSymbol :=
  [⟨"Reader", .class_, none, 1, 3, false, none⟩, ⟨"open", .method, none, 2, 2, false, some 0⟩,
    ⟨"Writer", .class_, none, 4, 6, false, none⟩, ⟨second, .method, none, 5, 5, false, some 2⟩]

def sampleMade (second : String) : List (ParsedChunk × Option Nat) :=
  [(⟨.method, 2, 2, "open() {}", some "Reader.open"⟩, some 1),
    (⟨.method, 5, 5, second ++ "() {}", some ("Writer." ++ second)⟩, some 3)]

theorem pointsToOwn_close :
    PointsToOwn emptyDb 1 (sampleSymbols "close") (sampleMade "close")
        (persistMade emptyDb 1 (sampleSymbols "close") (sampleMade "close")) ↔
      FirstOfName (sampleSymbols "close") (sampleMade "close") :=
  pointsToOwn_iff (by decide +kernel)

/-- Of two methods of one name, the chunk of the second points to the first. -/
theorem not_pointsToOwn :
    (∀ entry ∈ sampleMade "open", Together (sampleSymbols "open") entry = true) ∧
    ¬ PointsToOwn emptyDb 1 (sampleSymbols "open") (sampleMade "open")
      (persistMade emptyDb 1 (sampleSymbols "open") (sampleMade "open")) := by
  refine ⟨by decide +kernel, fun points => ?_⟩
  obtain ⟨row, own, isRow, isOwn, link⟩ := points.chunks 1 _ 3 rfl
  have linked : some row.symbolId = some (some 2) :=
    (congrArg (Option.map ChunkRow.symbolId) isRow).symm.trans (by decide +kernel)
  have fourth : some own.id = some 4 :=
    (congrArg (Option.map SymbolRow.id) isOwn).symm.trans (by decide +kernel)
  rw [link] at linked
  cases (Option.some.inj linked).symm.trans fourth

end Zuse.Index
