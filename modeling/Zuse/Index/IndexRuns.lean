import Mathlib.Data.List.Forall2
import Mathlib.Data.List.Nodup
import Zuse.Index.Indexer

namespace Zuse.Index

open Zuse.Data List IndexRepo Table
open Table (nextRowId lastBy lastBy_map lastBy_subset)
open ManifestEntry (filePath)

variable {platform : Platform} {db : IndexDb} {parsed : List Nat} {world : IndexWorld}
  {contents : List IndexedContent}

def Indexed (platform : Platform) (db : IndexDb) (file : WalkedFile)
    (entry : ManifestEntry) : Prop :=
  entry.filePath = file.relPath ∧
    ∃ blob ∈ db.blobs, blob.id = entry.blobId ∧ blob.sha = platform.blakeOf file.bytes

structure Fresh (platform : Platform) (db : IndexDb) (parsed : List Nat)
    (file : WalkedFile) (blobId : Nat) : Prop where
  blob : ∃ blob ∈ db.blobs, blob.id = blobId ∧
    blob.sha = platform.blakeOf file.bytes ∧ blob.language = detectLanguage file.relPath
  unparsed : blobId ∉ parsed
  unused : ∀ row ∈ db.manifests, row.blobId ≠ blobId

/-- The files before `rest` have their entries. -/
def IndexRepo.Sound (platform : Platform) (db : IndexDb) (locals : IndexRepo)
    (rest : List WalkedFile) : Prop :=
  ∃ done, locals.files = done ++ rest ∧
    List.Forall₂ (Indexed platform db) done locals.manifestEntries

def Activity.Sound (platform : Platform) (db : IndexDb) (parsed : List Nat) : Activity → Prop
  | .idle => True
  | .indexRepo locals => locals.Sound platform db locals.remaining
  | .persistRepo locals file blobId =>
    locals.Sound platform db (file :: locals.remaining) ∧ Fresh platform db parsed file blobId
  | .reindexFile _ => True
  | .persistFile locals blobId => Fresh platform db parsed locals.file blobId
  | .setEntry locals blobId => Indexed platform db locals.file ⟨locals.rel, blobId⟩
  | .forgetFile _ _ => True

/-- What a call in progress will have given to the paths. -/
def Activity.Expects (contents expected : List IndexedContent) : Activity → Prop
  | .idle => True
  | .indexRepo locals | .persistRepo locals _ _ =>
    expected = indexing locals.branch locals.files contents
  | .reindexFile locals | .persistFile locals _ | .setEntry locals _ =>
    expected = indexing locals.branch [locals.file] contents
  | .forgetFile branch rel => expected = contents.filter fun content => content.key ≠ (branch, rel)

structure Sane (platform : Platform) (db : IndexDb) (parsed : List Nat) : Prop where
  ids : (db.blobs.map BlobRow.id).Nodup
  shas : (db.blobs.map BlobRow.sha).Nodup
  symbols : ∀ row ∈ db.symbols, row.blobId ∈ parsed
  chunks : ∀ row ∈ db.chunks, row.blobId ∈ parsed
  known : ∀ blobId ∈ parsed, ∃ blob ∈ db.blobs, blob.id = blobId
  stored : ∀ blob ∈ db.blobs, blob.id ∈ parsed → ∀ bytes,
    platform.blakeOf bytes = blob.sha → db.Holds blob.id (platform.chunkBytes bytes blob.language)
  rows : ∀ row ∈ db.manifests, ∃ blob ∈ db.blobs, blob.id = row.blobId

def Invariant (platform : Platform) (world : IndexWorld) : Prop :=
  Sane platform world.db world.parsed ∧ world.activity.Sound platform world.db world.parsed ∧
    world.activity.Expects world.indexed world.expected

variable {blobId : Nat} {file : WalkedFile} {entry : ManifestEntry} {row : ManifestRow}

namespace Sane

section

variable (sane : Sane platform db parsed)
include sane

theorem bare (unparsed : blobId ∉ parsed) : db.Bare blobId where
  symbols := fun row member same => unparsed (same ▸ sane.symbols row member)
  chunks := fun row member same => unparsed (same ▸ sane.chunks row member)

theorem blob_eq {first second : BlobRow} (isFirst : first ∈ db.blobs)
    (isSecond : second ∈ db.blobs) (same : first.id = second.id) : first = second :=
  inj_on_of_nodup_map sane.ids isFirst isSecond same

theorem nextRowId_unparsed : nextRowId (db.blobs.map BlobRow.id) ∉ parsed := by
  intro taken
  obtain ⟨blob, isBlob, same⟩ := sane.known _ taken
  apply nextRowId_fresh (db.blobs.map BlobRow.id)
  rw [← same]
  exact mem_map_of_mem isBlob

theorem nextRowId_unused :
    ∀ row ∈ db.manifests, row.blobId ≠ nextRowId (db.blobs.map BlobRow.id) := by
  intro row member same
  obtain ⟨blob, isBlob, isRow⟩ := sane.rows row member
  apply nextRowId_fresh (db.blobs.map BlobRow.id)
  rw [← same, ← isRow]
  exact mem_map_of_mem isBlob

end

theorem described_iff (sane : Sane platform world.db world.parsed)
    (indexed : Indexed platform world.db file entry) (path : row.filePath = file.relPath)
    (blobId : row.blobId = entry.blobId)
    (last : ∃ content ∈ contents, content.key = (row.branch, row.filePath))
    (only : ∀ content ∈ contents, content.key = (row.branch, row.filePath) →
      content.bytes = file.bytes) :
    Described platform contents world.db row ↔ Suits platform world file entry.blobId := by
  obtain ⟨blob, isBlob, same, sha⟩ := indexed.2
  have suits : Suits platform world file entry.blobId ↔
      world.db.Holds blob.id (platform.chunkBytes file.bytes (detectLanguage file.relPath)) := by
    have parses : Suits platform world file entry.blobId ↔
        (platform.chunkBytes file.bytes (detectLanguage file.relPath)).stored =
          if entry.blobId ∈ world.parsed then
            (platform.chunkBytes file.bytes blob.language).stored
          else ⟨[], []⟩ := by
      constructor
      · exact fun suits => suits blob isBlob same
      · intro suits other isOther otherSame
        rw [sane.blob_eq isOther isBlob (otherSame.trans same.symm)]
        exact suits
    rw [parses, IndexDb.Holds]
    by_cases parsed : entry.blobId ∈ world.parsed
    · have holds := sane.stored blob isBlob (same ▸ parsed) file.bytes sha.symm
      rw [if_pos parsed, show world.db.parseOf blob.id = _ from holds]
      exact eq_comm
    · rw [if_neg parsed, same, (sane.bare parsed).parseOf]
      exact eq_comm
  rw [suits]
  constructor
  · intro described
    obtain ⟨content, isContent, isKey, other, isOther, otherSame, -, holds⟩ := described
    have equal := sane.blob_eq isOther isBlob (otherSame.trans (blobId.trans same.symm))
    subst equal
    rw [only content isContent isKey, path] at holds
    exact holds
  · intro holds
    obtain ⟨content, isContent, isKey⟩ := last
    have bytes := only content isContent isKey
    refine ⟨content, isContent, isKey, blob, isBlob, same.trans blobId.symm, ?_, ?_⟩
    · rw [bytes]
      exact sha
    · rw [bytes, path]
      exact holds

end Sane

section Upsert

variable {sha : Sha} {language : LanguageId} {size now : Nat}

theorem upsertBlob_cases (db : IndexDb) (sha : Sha) (language : LanguageId) (size now : Nat) :
    (∃ blob ∈ db.blobs, blob.sha = sha ∧
        upsertBlob db sha language size now = (⟨blob.id, false⟩, db)) ∨
      (∀ blob ∈ db.blobs, blob.sha ≠ sha) ∧
        upsertBlob db sha language size now =
          (⟨nextRowId (db.blobs.map BlobRow.id), true⟩,
            { db with
              blobs := db.blobs ++
                [⟨nextRowId (db.blobs.map BlobRow.id), sha, language, size, now⟩] }) := by
  unfold upsertBlob
  cases found : db.blobs.find? (fun blob => blob.sha = sha) with
  | some blob =>
    have chosen := List.find?_some found
    exact .inl ⟨blob, mem_of_find?_eq_some found, of_decide_eq_true chosen, rfl⟩
  | none =>
    refine .inr ⟨fun blob member same => ?_, rfl⟩
    exact List.find?_eq_none.mp found blob member (decide_eq_true same)

end Upsert

variable {file : WalkedFile} {db : IndexDb}

theorem Indexed.mono {next : IndexDb} (grows : db.blobs ⊆ next.blobs)
    (indexed : Indexed platform db file entry) : Indexed platform next file entry := by
  obtain ⟨path, blob, isBlob, known⟩ := indexed
  exact ⟨path, blob, grows isBlob, known⟩

theorem IndexRepo.Sound.mono {next : IndexDb} (grows : db.blobs ⊆ next.blobs)
    {locals : IndexRepo} {rest : List WalkedFile} (sound : locals.Sound platform db rest) :
    locals.Sound platform next rest := by
  obtain ⟨done, split, indexed⟩ := sound
  exact ⟨done, split, indexed.imp fun _ _ known => known.mono grows⟩

theorem IndexRepo.manifestEntries_next (locals : IndexRepo) (file : WalkedFile)
    (blobId : Nat) (isNew : Bool) :
    (locals.next file blobId isNew).manifestEntries =
      locals.manifestEntries ++ [⟨file.relPath, blobId⟩] := by
  unfold next
  dsimp only
  split
  · rfl
  · rfl

theorem IndexRepo.files_next (locals : IndexRepo) (file : WalkedFile) (blobId : Nat)
    (isNew : Bool) : (locals.next file blobId isNew).files = locals.files := by
  unfold next
  dsimp only
  split
  · rfl
  · rfl

theorem IndexRepo.branch_next (locals : IndexRepo) (file : WalkedFile) (blobId : Nat)
    (isNew : Bool) : (locals.next file blobId isNew).branch = locals.branch := by
  unfold next
  dsimp only
  split
  · rfl
  · rfl

theorem IndexRepo.remaining_next (locals : IndexRepo) (file : WalkedFile) (blobId : Nat)
    (isNew : Bool) : (locals.next file blobId isNew).remaining = locals.remaining := by
  unfold next
  dsimp only
  split
  · rfl
  · rfl

theorem IndexRepo.Sound.next {db : IndexDb} {locals : IndexRepo} {file : WalkedFile}
    {blobId : Nat} {isNew : Bool}
    (sound : locals.Sound platform db (file :: locals.remaining))
    (indexed : Indexed platform db file ⟨file.relPath, blobId⟩) :
    (locals.next file blobId isNew).Sound platform db
      (locals.next file blobId isNew).remaining := by
  obtain ⟨done, split, known⟩ := sound
  refine ⟨done ++ [file], ?_, ?_⟩
  · rw [files_next, remaining_next, split, append_assoc]
    rfl
  · rw [manifestEntries_next]
    exact rel_append known (.cons indexed .nil)

def insertedBlob (platform : Platform) (db : IndexDb) (file : WalkedFile) (now : Nat) :
    BlobRow :=
  ⟨nextRowId (db.blobs.map BlobRow.id), platform.blakeOf file.bytes,
    detectLanguage file.relPath, file.bytes.length, now⟩

variable {now : Nat}

namespace Sane

theorem insertBlob (sane : Sane platform db parsed)
    (absent : ∀ blob ∈ db.blobs, blob.sha ≠ platform.blakeOf file.bytes) :
    Sane platform { db with blobs := db.blobs ++ [insertedBlob platform db file now] }
      parsed := by
  have grows : db.blobs ⊆ db.blobs ++ [insertedBlob platform db file now] :=
    subset_append_left _ _
  have cases_ : ∀ blob ∈ db.blobs ++ [insertedBlob platform db file now],
      blob ∈ db.blobs ∨ blob = insertedBlob platform db file now := by
    intro blob member
    rwa [mem_append, mem_singleton] at member
  refine
    { ids := ?_
      shas := ?_
      symbols := sane.symbols
      chunks := sane.chunks
      known := ?_
      stored := ?_
      rows := ?_ }
  · rw [map_append, nodup_append]
    refine ⟨sane.ids, nodup_singleton _, ?_⟩
    intro id member other isOther same
    obtain rfl := mem_singleton.mp isOther
    subst same
    exact nextRowId_fresh _ member
  · rw [map_append, nodup_append]
    refine ⟨sane.shas, nodup_singleton _, ?_⟩
    intro sha member other isOther same
    obtain rfl := mem_singleton.mp isOther
    obtain ⟨blob, isBlob, known⟩ := mem_map.mp member
    exact absent blob isBlob (known.trans same)
  · intro blobId isParsed
    obtain ⟨blob, isBlob, same⟩ := sane.known blobId isParsed
    exact ⟨blob, grows isBlob, same⟩
  · intro blob member isParsed
    cases cases_ blob member with
    | inl old => exact sane.stored blob old isParsed
    | inr new =>
      subst new
      exact absurd isParsed sane.nextRowId_unparsed
  · intro row member
    obtain ⟨blob, isBlob, same⟩ := sane.rows row member
    exact ⟨blob, grows isBlob, same⟩

theorem persist (sane : Sane platform db parsed)
    (injective : Function.Injective platform.blakeOf)
    (fresh : Fresh platform db parsed file blobId) :
    Sane platform (persistParse db blobId
      (platform.chunkBytes file.bytes (detectLanguage file.relPath))) (blobId :: parsed) := by
  constructor
  case ids =>
    rw [persistParse_blobs]
    exact sane.ids
  case shas =>
    rw [persistParse_blobs]
    exact sane.shas
  case symbols =>
    intro row member
    cases mem_symbols_persistParse member with
    | inl old => exact .tail _ (sane.symbols row old)
    | inr new => exact new ▸ .head _
  case chunks =>
    intro row member
    cases mem_chunks_persistParse member with
    | inl old => exact .tail _ (sane.chunks row old)
    | inr new => exact new ▸ .head _
  case known =>
    rw [persistParse_blobs]
    intro other isParsed
    cases isParsed with
    | head =>
      obtain ⟨blob, isBlob, same, -⟩ := fresh.blob
      exact ⟨blob, isBlob, same⟩
    | tail _ old => exact sane.known other old
  case stored =>
    rw [persistParse_blobs]
    intro blob isBlob isParsed bytes sha
    obtain ⟨own, isOwn, same, ownSha, language⟩ := fresh.blob
    by_cases new : blob.id = blobId
    · have equal := sane.blob_eq isBlob isOwn (new.trans same.symm)
      subst equal
      rw [ownSha] at sha
      rw [injective sha, language, new]
      exact holds_persistParse (sane.bare fresh.unparsed) (chunkSource_within _ _ _)
    have old : blob.id ∈ parsed := (mem_cons.mp isParsed).resolve_left new
    have before := sane.stored blob isBlob old bytes sha
    rw [IndexDb.Holds] at before ⊢
    rw [← before]
    exact parseOf_persistParse_other (Ne.symm new)
  case rows =>
    rw [persistParse_blobs, persistParse_manifests]
    exact sane.rows

theorem removeManifestEntry (sane : Sane platform db parsed) (branch rel : String) :
    Sane platform (removeManifestEntry branch rel db) parsed :=
  { sane with rows := fun row member => sane.rows row (mem_of_mem_filter member) }

end Sane

def manifestRow (branch : String) (entry : ManifestEntry) : ManifestRow :=
  ⟨branch, entry.filePath, entry.blobId⟩

theorem setManifestBulk_eq (branch : String) (db : IndexDb) (entries : List ManifestEntry) :
    setManifestBulk branch db entries =
      { db with
        manifests := (entries.map (manifestRow branch)).foldl
          (fun rows row => Table.put (fun row => (row.branch, row.filePath)) row rows)
          db.manifests } := by
  unfold setManifestBulk
  induction entries generalizing db with
  | nil => rfl
  | cons entry rest ih =>
    rw [foldl_cons, ih]
    rfl

variable {row : ManifestRow} {branch : String}

theorem mem_setManifestBulk {entries : List ManifestEntry} :
    row ∈ (setManifestBulk branch db entries).manifests ↔
      (∃ entry ∈ lastBy filePath entries, row = manifestRow branch entry) ∨
      row ∈ db.manifests ∧ ¬(row.branch = branch ∧ row.filePath ∈ entries.map filePath) := by
  have last : lastBy (fun entry => ((manifestRow branch entry).branch,
      (manifestRow branch entry).filePath)) entries =
        lastBy filePath entries := by
    apply lastBy_congr
    intro first _ second _
    exact ⟨fun same => congrArg Prod.snd same, fun same => congrArg (Prod.mk branch) same⟩
  have keys : (row.branch, row.filePath) ∈ (entries.map (manifestRow branch)).map
      (fun row => (row.branch, row.filePath)) ↔
        row.branch = branch ∧ row.filePath ∈ entries.map filePath := by
    rw [map_map, mem_map, mem_map]
    constructor
    · intro taken
      obtain ⟨entry, isEntry, same⟩ := taken
      exact ⟨(congrArg Prod.fst same).symm, entry, isEntry, congrArg Prod.snd same⟩
    intro taken
    obtain ⟨ofBranch, entry, isEntry, same⟩ := taken
    refine ⟨entry, isEntry, ?_⟩
    rw [← ofBranch, ← same]
    rfl
  rw [setManifestBulk_eq, mem_foldl_put, lastBy_map, last, keys, mem_map]
  simp only [eq_comm]

theorem Sane.setManifestBulk (sane : Sane platform db parsed) {branch : String}
    {entries : List ManifestEntry}
    (known : ∀ entry ∈ entries, ∃ blob ∈ db.blobs, blob.id = entry.blobId) :
    Sane platform (setManifestBulk branch db entries) parsed := by
  have rows : ∀ row ∈ (Index.setManifestBulk branch db entries).manifests,
      ∃ blob ∈ db.blobs, blob.id = row.blobId := by
    intro row member
    cases mem_setManifestBulk.mp member with
    | inl new =>
      obtain ⟨entry, isEntry, same⟩ := new
      subst same
      exact known entry (lastBy_subset _ isEntry)
    | inr old => exact sane.rows row old.1
  rw [setManifestBulk_eq] at rows ⊢
  exact { sane with rows }

theorem Sane.upsert (sane : Sane platform world.db world.parsed) (file : WalkedFile) (now : Nat) :
    (∃ blobId, world.upsert platform file now = (⟨blobId, false⟩, world.db) ∧
        Indexed platform world.db file ⟨file.relPath, blobId⟩) ∨
      ∃ blobId, world.upsert platform file now = (⟨blobId, true⟩,
          { world.db with
            blobs := world.db.blobs ++ [insertedBlob platform world.db file now] }) ∧
        Sane platform
          { world.db with
            blobs := world.db.blobs ++ [insertedBlob platform world.db file now] }
          world.parsed ∧
        Fresh platform
          { world.db with
            blobs := world.db.blobs ++ [insertedBlob platform world.db file now] }
          world.parsed file blobId := by
  unfold IndexWorld.upsert
  obtain ⟨blob, isBlob, sha, found⟩ | ⟨absent, inserted⟩ :=
    upsertBlob_cases world.db (platform.blakeOf file.bytes) (detectLanguage file.relPath)
      file.bytes.length now
  · exact .inl ⟨blob.id, found, rfl, blob, isBlob, rfl, sha⟩
  refine .inr ⟨nextRowId (world.db.blobs.map BlobRow.id), ?_, ?_, ?_⟩
  · rw [inserted, insertedBlob]
  · exact sane.insertBlob absent
  constructor
  case blob =>
    refine ⟨insertedBlob platform world.db file now, mem_append_right _ (.head _), rfl, rfl, ?_⟩
    rw [insertedBlob]
  case unparsed => exact sane.nextRowId_unparsed
  case unused => exact sane.nextRowId_unused

theorem Described.congr {next : IndexDb} (blobs : next.blobs = db.blobs)
    (symbols : next.symbols = db.symbols) (chunks : next.chunks = db.chunks) :
    Described platform contents next row ↔ Described platform contents db row := by
  have parse : ∀ blobId, next.parseOf blobId = db.parseOf blobId := by
    intro blobId
    apply parseOf_congr
    · rw [IndexDb.symbolsOf, symbols, IndexDb.symbolsOf]
    · rw [IndexDb.chunksOf, chunks, IndexDb.chunksOf]
  simp only [Described, IndexDb.Holds, blobs, parse]

theorem Described.insertBlob (described : Described platform contents db row) :
    Described platform contents
      { db with blobs := db.blobs ++ [insertedBlob platform db file now] } row := by
  obtain ⟨content, isContent, isKey, blob, isBlob, known⟩ := described
  exact ⟨content, isContent, isKey, blob, mem_append_left _ isBlob, known⟩

theorem Described.persist {parse : ParseResult}
    (described : Described platform contents db row) (other : row.blobId ≠ blobId) :
    Described platform contents (persistParse db blobId parse) row := by
  obtain ⟨content, isContent, isKey, blob, isBlob, same, sha, holds⟩ := described
  refine ⟨content, isContent, isKey, blob, isBlob, same, sha, ?_⟩
  rw [IndexDb.Holds] at holds ⊢
  rw [← holds]
  apply parseOf_persistParse_other
  rw [same]
  exact Ne.symm other

def Keeps (platform : Platform) (world next : IndexWorld) (condition : Prop) : Prop :=
  Invariant platform next ∧ (Describes platform world → (Describes platform next ↔ condition))

variable {next : IndexWorld}

theorem Keeps.of_frame (sane : Sane platform next.db next.parsed)
    (sound : next.activity.Sound platform next.db next.parsed)
    (expects : next.activity.Expects next.indexed next.expected)
    (silent : next.returned = none) (indexed : next.indexed = world.indexed)
    (manifests : next.db.manifests = world.db.manifests)
    (frame : ∀ row ∈ world.db.manifests, Described platform world.indexed world.db row →
      Described platform world.indexed next.db row) :
    Keeps platform world next True := by
  refine ⟨⟨sane, sound, expects⟩, fun describes => iff_true_intro ⟨?_, ?_, ?_⟩⟩
  · intro returned isReturned
    rw [silent] at isReturned
    cases isReturned
  · rw [manifests, indexed]
    exact fun row member => frame row member (describes.described row member)
  · rw [manifests, indexed]
    exact describes.listed

variable {files : List WalkedFile} {content : IndexedContent}

theorem mem_indexing :
    content ∈ indexing branch files contents ↔
      (∃ file ∈ lastBy WalkedFile.relPath files, content = ⟨branch, file.relPath, file.bytes⟩) ∨
      content ∈ contents ∧
        ¬(content.branch = branch ∧ content.filePath ∈ files.map WalkedFile.relPath) := by
  have last : lastBy (fun file : WalkedFile => (branch, file.relPath)) files =
      lastBy WalkedFile.relPath files := by
    apply lastBy_congr
    intro first _ second _
    simp
  have keys : content.key ∈ (files.map fun file : WalkedFile =>
      (⟨branch, file.relPath, file.bytes⟩ : IndexedContent)).map IndexedContent.key ↔
        content.branch = branch ∧ content.filePath ∈ files.map WalkedFile.relPath := by
    simp only [map_map, mem_map, Function.comp_apply, IndexedContent.key, Prod.mk.injEq]
    constructor
    · rintro ⟨file, isFile, rfl, path⟩
      exact ⟨rfl, file, isFile, path⟩
    · rintro ⟨rfl, file, isFile, path⟩
      exact ⟨file, isFile, rfl, path⟩
  rw [indexing, mem_foldl_put, lastBy_map, keys]
  simp only [IndexedContent.key, last, mem_map, eq_comm]

/-- A path that is indexed again has the new content alone. -/
theorem bytes_of_indexing (isFile : file ∈ lastBy WalkedFile.relPath files)
    (member : content ∈ indexing branch files contents)
    (isKey : content.key = (branch, file.relPath)) : content.bytes = file.bytes := by
  obtain ⟨ofBranch, path⟩ := Prod.mk.inj isKey
  obtain ⟨other, isOther, rfl⟩ | ⟨-, untouched⟩ := mem_indexing.mp member
  · rw [lastBy_inj isOther isFile path]
  · refine absurd ⟨ofBranch, ?_⟩ untouched
    rw [path]
    exact mem_map_of_mem (lastBy_subset _ isFile)

/-- A row that is left alone is described by the content that was left alone with it. -/
theorem described_indexing
    (untouched : ¬(row.branch = branch ∧ row.filePath ∈ files.map WalkedFile.relPath)) :
    Described platform (indexing branch files contents) db row ↔
      Described platform contents db row := by
  unfold Described
  refine exists_congr fun content => ?_
  rw [mem_indexing]
  refine ⟨fun known => ?_, fun known => ?_⟩
  · obtain ⟨⟨file, isFile, rfl⟩ | ⟨old, -⟩, isKey, rest⟩ := known
    · obtain ⟨rfl, path⟩ := Prod.mk.inj isKey
      exact absurd ⟨rfl, path ▸ mem_map_of_mem (lastBy_subset _ isFile)⟩ untouched
    · exact ⟨old, isKey, rest⟩
  · obtain ⟨old, isKey, rest⟩ := known
    obtain ⟨ofBranch, path⟩ := Prod.mk.inj isKey
    refine ⟨.inr ⟨old, ?_⟩, isKey, rest⟩
    rwa [ofBranch, path]

section Bulk

variable {branch : String} {files : List WalkedFile} {entries : List ManifestEntry}

section

variable (indexed : List.Forall₂ (Indexed platform db) files entries)
include indexed

theorem zip_indexed :
    (files.zip entries).map Prod.fst = files ∧ (files.zip entries).map Prod.snd = entries ∧
      ∀ pair ∈ files.zip entries, Indexed platform db pair.1 pair.2 := by
  have lengths := indexed.length_eq
  refine ⟨?_, ?_, fun pair member => (forall₂_iff_zip.mp indexed).2 member⟩
  · rw [map_fst_zip lengths.le]
  · rw [map_snd_zip lengths.ge]

theorem lastBy_files :
    lastBy WalkedFile.relPath files =
      (lastBy (fun pair => pair.1.relPath) (files.zip entries)).map Prod.fst := by
  conv_lhs => rw [← (zip_indexed indexed).1]
  rw [lastBy_map]

theorem lastBy_entries :
    lastBy filePath entries =
      (lastBy (fun pair => pair.1.relPath) (files.zip entries)).map Prod.snd := by
  obtain ⟨-, ofEntries, each⟩ := zip_indexed indexed
  conv_lhs => rw [← ofEntries]
  rw [lastBy_map]
  congr 1
  apply lastBy_congr
  intro first isFirst second isSecond
  rw [(each first isFirst).1, (each second isSecond).1]

theorem paths_entries : entries.map filePath = files.map WalkedFile.relPath := by
  obtain ⟨ofFiles, ofEntries, each⟩ := zip_indexed indexed
  conv_lhs => rw [← ofEntries]
  conv_rhs => rw [← ofFiles]
  rw [map_map, map_map]
  apply map_congr_left
  intro pair member
  exact (each pair member).1

theorem mem_setManifestBulk_walk :
    row ∈ (setManifestBulk branch db entries).manifests ↔
      (∃ pair ∈ lastBy (fun pair => pair.1.relPath) (files.zip entries),
        row = manifestRow branch pair.2) ∨
      row ∈ db.manifests ∧
        ¬(row.branch = branch ∧ row.filePath ∈ files.map WalkedFile.relPath) := by
  rw [mem_setManifestBulk, paths_entries indexed, lastBy_entries indexed]
  simp only [mem_map, exists_exists_and_eq_and]

end

theorem exact_setManifestBulk (sane : Sane platform db parsed)
    (indexed : List.Forall₂ (Indexed platform db) files entries) :
    Exact platform (setManifestBulk branch db entries) branch files ↔
      ∀ row ∈ db.manifests, row.branch = branch → row.filePath ∈ files.map WalkedFile.relPath := by
  have blobs : (setManifestBulk branch db entries).blobs = db.blobs := by
    rw [setManifestBulk_eq]
  obtain ⟨-, -, each⟩ := zip_indexed indexed
  unfold Exact
  rw [blobs, lastBy_files indexed]
  constructor
  · intro exact_ row member ofBranch
    refine by_contra fun stale => ?_
    obtain ⟨blob, isBlob, same⟩ := sane.rows row member
    have kept : row ∈ (setManifestBulk branch db entries).manifests :=
      (mem_setManifestBulk_walk indexed).mpr (.inr ⟨member, fun taken => stale taken.2⟩)
    obtain ⟨file, isFile, path, -⟩ := (exact_ row.filePath blob.sha).mp
      ⟨row, kept, ofBranch, rfl, blob, isBlob, same, rfl⟩
    rw [← lastBy_files indexed] at isFile
    apply stale
    rw [← path]
    exact mem_map_of_mem (lastBy_subset _ isFile)
  · intro fresh path sha
    constructor
    · intro stored
      obtain ⟨row, member, ofBranch, isPath, blob, isBlob, same, isSha⟩ := stored
      obtain ⟨pair, isPair, isRow⟩ | ⟨old, untouched⟩ :=
        (mem_setManifestBulk_walk indexed).mp member
      · subst isRow
        have known := each pair (lastBy_subset _ isPair)
        obtain ⟨own, isOwn, ownSame, ownSha⟩ := known.2
        refine ⟨pair.1, mem_map_of_mem isPair, known.1.symm.trans isPath, ?_⟩
        rw [← ownSha, ← isSha, sane.blob_eq isOwn isBlob (ownSame.trans same.symm)]
      · exact absurd ⟨ofBranch, fresh row old ofBranch⟩ untouched
    · intro walked
      obtain ⟨file, isFile, isPath, isSha⟩ := walked
      obtain ⟨pair, isPair, rfl⟩ := mem_map.mp isFile
      have known := each pair (lastBy_subset _ isPair)
      obtain ⟨blob, isBlob, same, ownSha⟩ := known.2
      exact ⟨manifestRow branch pair.2,
        (mem_setManifestBulk_walk indexed).mpr (.inl ⟨pair, isPair, rfl⟩), rfl,
        known.1.trans isPath, blob, isBlob, same, ownSha.trans isSha⟩

/-- The write of manifest entries: each new row has a new content, and the rest of the
rows and contents stay. -/
theorem Keeps.setManifestBulk (sane : Sane platform world.db world.parsed)
    (indexed : List.Forall₂ (Indexed platform world.db) files entries)
    {returned : Option Returned} (walked : ∀ other ∈ returned,
      other.branch = branch ∧ other.files = files) :
    Keeps platform world
      { world with
        db := setManifestBulk branch world.db entries
        activity := .idle
        returned
        indexed := indexing branch files world.indexed }
      ((returned.isSome → ∀ row ∈ world.db.manifests, row.branch = branch →
          row.filePath ∈ files.map WalkedFile.relPath) ∧
        ∀ pair ∈ lastBy (fun pair => pair.1.relPath) (files.zip entries),
          Suits platform world pair.1 pair.2.blobId) := by
  obtain ⟨-, ofEntries, each⟩ := zip_indexed indexed
  have walks := lastBy_files indexed
  have suits : ∀ pair ∈ lastBy (fun pair => pair.1.relPath) (files.zip entries),
      (Described platform (indexing branch files world.indexed) world.db
          (manifestRow branch pair.2) ↔
        Suits platform world pair.1 pair.2.blobId) := by
    intro pair member
    have isFile : pair.1 ∈ lastBy WalkedFile.relPath files := walks ▸ mem_map_of_mem member
    have known := each pair (lastBy_subset _ member)
    refine sane.described_iff known known.1 rfl
      ⟨⟨branch, pair.1.relPath, pair.1.bytes⟩, ?_, ?_⟩ fun content isContent isKey => ?_
    · exact mem_indexing.mpr (.inl ⟨pair.1, isFile, rfl⟩)
    · rw [manifestRow, known.1]
      rfl
    · refine bytes_of_indexing isFile isContent (isKey.trans ?_)
      rw [manifestRow, known.1]
  have same : ∀ row,
      Described platform (indexing branch files world.indexed)
          (Index.setManifestBulk branch world.db entries) row ↔
        Described platform (indexing branch files world.indexed) world.db row := by
    intro row
    rw [setManifestBulk_eq]
    exact Described.congr rfl rfl rfl
  refine ⟨⟨sane.setManifestBulk ?_, trivial, trivial⟩, fun describes => ?_⟩
  · intro entry member
    rw [← ofEntries] at member
    obtain ⟨pair, isPair, rfl⟩ := mem_map.mp member
    obtain ⟨blob, isBlob, isEntry, -⟩ := (each pair isPair).2
    exact ⟨blob, isBlob, isEntry⟩
  constructor
  · intro after
    refine ⟨fun isReturned => ?_, fun pair isPair => ?_⟩
    · obtain ⟨other, isOther⟩ := Option.isSome_iff_exists.mp isReturned
      have exact_ := after.exact other isOther
      rw [(walked other isOther).1, (walked other isOther).2] at exact_
      exact (exact_setManifestBulk sane indexed).mp exact_
    · rw [← suits pair isPair, ← same]
      exact after.described _ ((mem_setManifestBulk_walk indexed).mpr (.inl ⟨pair, isPair, rfl⟩))
  intro condition
  refine ⟨?_, ?_, ?_⟩
  · intro other isOther
    rw [(walked other isOther).1, (walked other isOther).2]
    exact (exact_setManifestBulk sane indexed).mpr
      (condition.1 (Option.isSome_iff_exists.mpr ⟨other, isOther⟩))
  · intro row member
    rw [same]
    obtain ⟨pair, isPair, isRow⟩ | ⟨old, untouched⟩ :=
      (mem_setManifestBulk_walk indexed).mp member
    · rw [isRow, suits pair isPair]
      exact condition.2 pair isPair
    · exact (described_indexing untouched).mpr (describes.described row old)
  · intro content member
    obtain ⟨file, isFile, rfl⟩ | ⟨old, untouched⟩ := mem_indexing.mp member
    · rw [walks] at isFile
      obtain ⟨pair, isPair, rfl⟩ := mem_map.mp isFile
      refine ⟨manifestRow branch pair.2,
        (mem_setManifestBulk_walk indexed).mpr (.inl ⟨pair, isPair, rfl⟩), ?_⟩
      rw [manifestRow, (each pair (lastBy_subset _ isPair)).1]
      rfl
    · obtain ⟨row, isRow, isKey⟩ := describes.listed content old
      obtain ⟨ofBranch, path⟩ := Prod.mk.inj isKey
      refine ⟨row, (mem_setManifestBulk_walk indexed).mpr (.inr ⟨isRow, ?_⟩), isKey⟩
      rwa [ofBranch, path]

end Bulk

variable {activity : Activity}

theorem Keeps.start (edit : List IndexedContent → List IndexedContent)
    (sane : Sane platform world.db world.parsed)
    (sound : activity.Sound platform world.db world.parsed)
    (expects : activity.Expects world.indexed (edit world.indexed))
    (started : world.start activity = some next) :
    Keeps platform world { next with expected := edit next.indexed } True := by
  unfold IndexWorld.start at started
  split at started
  · cases started
    exact .of_frame sane sound expects rfl rfl rfl fun row _ => id
  · cases started

theorem IndexWorld.record_of_active (active : next.activity ≠ .idle) :
    next.record platform (.proceed now) = next := if_neg active

theorem Keeps.upsert (known fresh : Nat → Activity) (sane : Sane platform world.db world.parsed)
    (stepped : (if (world.upsert platform file now).1.isNew then
        some (world.move (world.upsert platform file now).2
          (fresh (world.upsert platform file now).1.blobId))
      else some (world.move (world.upsert platform file now).2
        (known (world.upsert platform file now).1.blobId))) = some next)
    (knownSound : ∀ blobId, Indexed platform world.db file ⟨file.relPath, blobId⟩ →
      (known blobId).Sound platform world.db world.parsed)
    (freshSound : ∀ db blobId, world.db.blobs ⊆ db.blobs →
      Fresh platform db world.parsed file blobId → (fresh blobId).Sound platform db world.parsed)
    (active : ∀ blobId, known blobId ≠ .idle ∧ fresh blobId ≠ .idle)
    (expects : ∀ blobId, (known blobId).Expects world.indexed world.expected ∧
      (fresh blobId).Expects world.indexed world.expected) :
    Keeps platform world (next.record platform (.proceed now)) True := by
  obtain ⟨blobId, found, indexed⟩ | ⟨blobId, inserted, grown, isFresh⟩ :=
    sane.upsert file now
  · rw [found] at stepped
    cases stepped
    rw [IndexWorld.record_of_active (active blobId).1]
    exact .of_frame sane (knownSound blobId indexed) (expects blobId).1 rfl rfl rfl fun row _ => id
  · rw [inserted] at stepped
    cases stepped
    rw [IndexWorld.record_of_active (active blobId).2]
    exact .of_frame grown (freshSound _ blobId (subset_append_left _ _) isFresh) (expects blobId).2
      rfl rfl rfl fun row _ => Described.insertBlob

theorem Fresh.indexed (fresh : Fresh platform db parsed file blobId) :
    Indexed platform db file ⟨file.relPath, blobId⟩ := by
  obtain ⟨blob, isBlob, same, sha, -⟩ := fresh.blob
  exact ⟨rfl, blob, isBlob, same, sha⟩

theorem Keeps.persist (sane : Sane platform world.db world.parsed)
    (injective : Function.Injective platform.blakeOf)
    (fresh : Fresh platform world.db world.parsed file blobId)
    (sound : ∀ parse, activity.Sound platform (persistParse world.db blobId parse)
      (blobId :: world.parsed))
    (active : activity ≠ .idle) (expects : activity.Expects world.indexed world.expected) :
    Keeps platform world
      ((world.persist platform file blobId activity).record platform (.proceed now)) True := by
  rw [IndexWorld.record_of_active active, IndexWorld.persist]
  refine .of_frame (sane.persist injective fresh) (sound _) expects rfl rfl
    (persistParse_manifests ..) ?_
  exact fun row member described => described.persist (fresh.unused row member)

theorem Keeps.removeManifestEntry {branch rel : String}
    (sane : Sane platform world.db world.parsed) :
    Keeps platform world
      { world.move (removeManifestEntry branch rel world.db) .idle with
        indexed := world.indexed.filter fun content => content.key ≠ (branch, rel) } True := by
  have kept : ∀ row : ManifestRow, row ∈ (Index.removeManifestEntry branch rel world.db).manifests ↔
      row ∈ world.db.manifests ∧ (row.branch, row.filePath) ≠ (branch, rel) := by
    simp [Index.removeManifestEntry, imp_iff_not_or]
  refine ⟨⟨sane.removeManifestEntry branch rel, trivial, trivial⟩, fun describes =>
    iff_true_intro ⟨?_, fun row member => ?_, fun content member => ?_⟩⟩
  · intro returned isReturned
    cases isReturned
  · obtain ⟨isRow, other⟩ := (kept row).mp member
    obtain ⟨content, isContent, isKey, stored⟩ := describes.described row isRow
    refine (Described.congr rfl rfl rfl).mpr
      ⟨content, mem_filter.mpr ⟨isContent, ?_⟩, isKey, stored⟩
    rw [isKey]
    exact decide_eq_true other
  · obtain ⟨isContent, other⟩ := mem_filter.mp member
    obtain ⟨row, isRow, isKey⟩ := describes.listed content isContent
    exact ⟨row, (kept row).mpr ⟨isRow, isKey ▸ of_decide_eq_true other⟩, isKey⟩

theorem step_keeps (injective : Function.Injective platform.blakeOf) {label : IndexStep}
    (invariant : Invariant platform world) (ran : platform.system.step world label = some next) :
    Keeps platform world next (Faithful platform world label) := by
  obtain ⟨sane, sound, expects⟩ := invariant
  obtain ⟨after, stepped, rfl⟩ := Option.map_eq_some_iff.mp ran
  cases label with
  | indexRepo branch files =>
    have activitySound : (Activity.indexRepo (.begin_ branch files)).Sound platform
        world.db world.parsed := ⟨[], rfl, .nil⟩
    exact .start (indexing branch files) sane activitySound rfl stepped
  | reindexFile root absPath branch bytes =>
    have activitySound : (Activity.reindexFile
        ⟨toRel platform.cwd root absPath, bytes, branch⟩).Sound platform world.db
          world.parsed := trivial
    exact .start (indexing branch [⟨toRel platform.cwd root absPath, bytes⟩]) sane activitySound
      rfl stepped
  | forgetFile root absPath branch =>
    have activitySound : (Activity.forgetFile branch
        (toRel platform.cwd root absPath)).Sound platform world.db world.parsed := trivial
    exact .start (filter fun content => content.key ≠ (branch, toRel platform.cwd root absPath))
      sane activitySound rfl stepped
  | stop =>
    cases stepped
    exact .of_frame sane trivial trivial rfl rfl rfl fun row _ => id
  | proceed now =>
    change world.proceed platform now = some after at stepped
    change Keeps platform world _ (world.activity.Faithful platform world)
    unfold IndexWorld.proceed at stepped
    cases activity : world.activity with
    | idle =>
      rw [activity] at stepped
      cases stepped
    | indexRepo locals =>
      rw [activity] at stepped sound expects
      obtain ⟨done, split, indexed⟩ := sound
      dsimp only at stepped
      cases remaining : locals.remaining with
      | nil =>
        rw [remaining] at stepped split
        rw [append_nil] at split
        subst split
        cases stepped
        have written := @Keeps.setManifestBulk platform world locals.branch locals.files
          locals.manifestEntries sane indexed (some ⟨locals.branch, locals.files, locals.progress,
            locals.reports ++ [locals.progress]⟩) (by simp)
        rw [← expects] at written
        refine ⟨written.1, fun before => (written.2 before).trans ?_⟩
        exact ⟨fun condition _ => ⟨condition.1 rfl, condition.2⟩,
          fun condition => ⟨fun _ => (condition remaining).1, (condition remaining).2⟩⟩
      | cons file rest =>
        rw [remaining] at stepped split
        have kept : Keeps platform world (after.record platform (.proceed now)) True :=
          .upsert
            (fun blobId => .indexRepo (next { locals with remaining := rest } file blobId false))
            (fun blobId => .persistRepo { locals with remaining := rest } file blobId)
            sane stepped
            (fun blobId known =>
              @IndexRepo.Sound.next platform world.db { locals with remaining := rest }
                file blobId false ⟨done, split, indexed⟩ known)
            (fun db blobId grows fresh =>
              ⟨⟨done, split, indexed.imp fun _ _ known => known.mono grows⟩, fresh⟩)
            (fun blobId => ⟨by simp, by simp⟩)
            (fun blobId => ⟨by
              rw [Activity.Expects, branch_next, files_next]
              exact expects, expects⟩)
        refine ⟨kept.1, fun before => (kept.2 before).trans ?_⟩
        refine ⟨fun _ empty => ?_, fun _ => trivial⟩
        cases remaining.symm.trans empty
    | persistRepo locals file blobId =>
      rw [activity] at stepped sound expects
      cases stepped
      refine .persist sane injective sound.2 (fun parse => ?_) (by simp) ?_
      · have grows : world.db.blobs ⊆ (persistParse world.db blobId parse).blobs := by
          exact List.Subset.refl _
        exact (sound.1.mono grows).next (sound.2.indexed.mono grows)
      · rw [Activity.Expects, branch_next, files_next]
        exact expects
    | reindexFile locals =>
      rw [activity] at stepped expects
      exact .upsert (fun blobId => .setEntry locals blobId)
        (fun blobId => .persistFile locals blobId) sane stepped
        (fun blobId known => known) (fun db blobId grows fresh => fresh)
        (fun blobId => ⟨by simp, by simp⟩) (fun blobId => ⟨expects, expects⟩)
    | persistFile locals blobId =>
      rw [activity] at stepped sound expects
      cases stepped
      refine .persist sane injective sound (fun parse => ?_) (by simp) expects
      refine sound.indexed.mono ?_
      exact List.Subset.refl _
    | setEntry locals blobId =>
      rw [activity] at stepped sound expects
      cases stepped
      have written := @Keeps.setManifestBulk platform world locals.branch [locals.file]
        [⟨locals.rel, blobId⟩] sane (.cons sound .nil) none (by simp)
      rw [← expects] at written
      refine ⟨written.1, fun before => (written.2 before).trans ?_⟩
      simp [lastBy, Activity.Faithful]
    | forgetFile branch rel =>
      rw [activity] at stepped expects
      cases stepped
      have removed := @Keeps.removeManifestEntry platform world branch rel sane
      rw [← expects] at removed
      exact removed

theorem invariant_init (platform : Platform) : Invariant platform platform.system.init := by
  refine ⟨?_, trivial, trivial⟩
  constructor <;> simp [Platform.system, emptyDb]

theorem describes_init (platform : Platform) : Describes platform platform.system.init := by
  constructor <;> simp [Platform.system, emptyDb]

theorem everywhere_iff_faithful (injective : Function.Injective platform.blakeOf)
    (invariant : Invariant platform world) (describes : Describes platform world)
    (labels : List IndexStep) :
    platform.system.Everywhere (Describes platform) world labels ↔
      platform.system.EachStep (Faithful platform) world labels := by
  apply TransitionSystem.everywhere_iff
  · intro before label next sound stepped
    exact (step_keeps injective sound stepped).1
  · intro before label next sound right stepped
    exact (step_keeps injective sound stepped).2 right
  · exact invariant
  · exact describes

/-- The index describes the tree in every state that a run passes through exactly when
every manifest write of the run is faithful. -/
theorem describes_iff_faithful (platform : Platform)
    (injective : Function.Injective platform.blakeOf) (labels : List IndexStep) :
    platform.system.Everywhere (Describes platform) platform.system.init labels ↔
      platform.system.EachStep (Faithful platform) platform.system.init labels :=
  everywhere_iff_faithful injective (invariant_init platform) (describes_init platform) labels

def plainPlatform : Platform := ⟨fun _ _ => .unavailable, id, "/"⟩

def braces : List UInt8 := [0x7B, 0x7D]

def editing : List IndexStep :=
  [.indexRepo "main" [⟨"a.json", braces⟩, ⟨"b.json", []⟩],
    .proceed 1, .proceed 1, .proceed 2, .proceed 2, .proceed 3,
    .reindexFile "/repo" "/repo/a.json" "main" [0x7B], .proceed 4, .proceed 4, .proceed 4,
    .forgetFile "/repo" "/repo/b.json" "main", .proceed 5,
    .indexRepo "main" [⟨"a.json", [0x7B]⟩], .proceed 6, .proceed 6]

theorem describes_editing :
    plainPlatform.system.Everywhere (Describes plainPlatform) plainPlatform.system.init
      editing :=
  (describes_iff_faithful plainPlatform Function.injective_id editing).mpr (by decide +kernel)

def deleted : List IndexStep :=
  [.indexRepo "main" [⟨"a.json", braces⟩], .proceed 1, .proceed 1, .proceed 1,
    .indexRepo "main" [], .proceed 2]

def sharedContent : List IndexStep :=
  [.indexRepo "main" [⟨"a.json", braces⟩, ⟨"a.md", braces⟩],
    .proceed 1, .proceed 1, .proceed 1, .proceed 1]

def cutOff : List IndexStep :=
  [.indexRepo "main" [⟨"a.json", braces⟩], .proceed 1, .stop,
    .indexRepo "main" [⟨"a.json", braces⟩], .proceed 2, .proceed 2]

theorem not_describes_of_unfaithful {labels : List IndexStep}
    (unfaithful : ¬plainPlatform.system.EachStep (Faithful plainPlatform)
      plainPlatform.system.init labels) :
    ¬plainPlatform.system.Everywhere (Describes plainPlatform) plainPlatform.system.init
      labels := by
  intro everywhere
  apply unfaithful
  apply (everywhere_iff_faithful _ _ _ labels).mp everywhere
  · exact Function.injective_id
  · exact invariant_init plainPlatform
  · exact describes_init plainPlatform

theorem not_describes :
    (¬plainPlatform.system.Everywhere (Describes plainPlatform) plainPlatform.system.init deleted) ∧
    (¬plainPlatform.system.Everywhere (Describes plainPlatform) plainPlatform.system.init
      sharedContent) ∧
    ¬plainPlatform.system.Everywhere (Describes plainPlatform) plainPlatform.system.init
      cutOff := by
  refine ⟨?_, ?_, ?_⟩
  · apply not_describes_of_unfaithful
    decide +kernel
  · apply not_describes_of_unfaithful
    decide +kernel
  · apply not_describes_of_unfaithful
    decide +kernel

end Zuse.Index
