import Zuse.Data.TransitionSystem
import Zuse.Data.Utf8
import Zuse.Index.BlobStore

namespace Zuse.Index

open Zuse.Data

/-! The calls that build the index, one database write after the other. Between two
writes a call can fail, or the process can die; what it has written stays. -/

/-- What the index is built on: the parser library, the content hash and the directory
that relative roots are read from. -/
structure Platform where
  parse : LanguageId → String → Parsing
  blakeOf : List UInt8 → Sha
  cwd : String

namespace Platform

variable (platform : Platform)

def chunkBytes (bytes : List UInt8) (language : LanguageId) : ParseResult :=
  chunkSource platform.parse (decodeUtf8 bytes) language

end Platform

structure WalkedFile where
  relPath : String
  bytes : List UInt8
  deriving DecidableEq

structure IndexProgress where
  processed : Nat
  total : Nat
  newBlobs : Nat
  dedupedBlobs : Nat
  deriving DecidableEq

/-- The variables of `indexRepo` at the head of its loop. -/
structure IndexRepo where
  branch : String
  files : List WalkedFile
  remaining : List WalkedFile
  manifestEntries : List ManifestEntry
  processed : Nat
  newBlobs : Nat
  dedupedBlobs : Nat
  reports : List IndexProgress
  deriving DecidableEq

namespace IndexRepo

variable (locals : IndexRepo)

def begin_ (branch : String) (files : List WalkedFile) : IndexRepo :=
  ⟨branch, files, files, [], 0, 0, 0, []⟩

def progress : IndexProgress :=
  ⟨locals.processed, locals.files.length, locals.newBlobs, locals.dedupedBlobs⟩

/-- The end of one round of the loop; every fiftieth file is reported. -/
def next (file : WalkedFile) (blobId : Nat) (isNew : Bool) : IndexRepo :=
  let counted : IndexRepo :=
    { locals with
      manifestEntries := locals.manifestEntries ++ [⟨file.relPath, blobId⟩]
      processed := locals.processed + 1
      newBlobs := if isNew then locals.newBlobs + 1 else locals.newBlobs
      dedupedBlobs := if isNew then locals.dedupedBlobs else locals.dedupedBlobs + 1 }
  if counted.processed % 50 = 0 then
    { counted with reports := counted.reports ++ [counted.progress] }
  else counted

end IndexRepo

structure ReindexFile where
  rel : String
  bytes : List UInt8
  branch : String
  deriving DecidableEq

def ReindexFile.file (locals : ReindexFile) : WalkedFile := ⟨locals.rel, locals.bytes⟩

/-- Where the call in progress stands: what its next database write is. -/
inductive Activity
  | idle
  /-- `indexRepo` takes its next file, or writes the manifest. -/
  | indexRepo (locals : IndexRepo)
  | persistRepo (locals : IndexRepo) (file : WalkedFile) (blobId : Nat)
  | reindexFile (locals : ReindexFile)
  | persistFile (locals : ReindexFile) (blobId : Nat)
  | setEntry (locals : ReindexFile) (blobId : Nat)
  | forgetFile (branch rel : String)
  deriving DecidableEq

/-- An `indexRepo` that has returned, with all that it reported. -/
structure Returned where
  branch : String
  files : List WalkedFile
  progress : IndexProgress
  reports : List IndexProgress

/-- The content that a path of a branch was last given. -/
structure IndexedContent where
  branch : String
  filePath : String
  bytes : List UInt8

def IndexedContent.key (content : IndexedContent) : String × String :=
  (content.branch, content.filePath)

/-- What the code keeps is the database. `indexed` follows the calls alone: it is what they
have given to the paths of each branch, and `expected` what it is once the call in progress
has returned. -/
structure IndexWorld where
  db : IndexDb
  activity : Activity
  returned : Option Returned
  parsed : List Nat
  indexed : List IndexedContent
  expected : List IndexedContent

inductive IndexStep
  | indexRepo (branch : String) (files : List WalkedFile)
  | reindexFile (root absPath branch : String) (bytes : List UInt8)
  | forgetFile (root absPath branch : String)
  | proceed (now : Nat)
  | stop

section Step

variable (platform : Platform) (world : IndexWorld)

def IndexWorld.move (db : IndexDb) (activity : Activity) : IndexWorld :=
  { world with db, activity, returned := none }

def IndexWorld.persist (file : WalkedFile) (blobId : Nat) (activity : Activity) : IndexWorld :=
  { world with
    db := persistParse world.db blobId
      (platform.chunkBytes file.bytes (detectLanguage file.relPath))
    activity
    returned := none
    parsed := blobId :: world.parsed }

def IndexWorld.upsert (file : WalkedFile) (now : Nat) : UpsertBlobResult × IndexDb :=
  upsertBlob world.db (platform.blakeOf file.bytes) (detectLanguage file.relPath)
    file.bytes.length now

def IndexWorld.proceed (now : Nat) : Option IndexWorld :=
  match world.activity with
  | .idle => none
  | .indexRepo locals =>
    match locals.remaining with
    | [] => some
        { world with
          db := setManifestBulk locals.branch world.db locals.manifestEntries
          activity := .idle
          returned := some ⟨locals.branch, locals.files, locals.progress,
            locals.reports ++ [locals.progress]⟩ }
    | file :: rest =>
      let upserted := world.upsert platform file now
      let after := { locals with remaining := rest }
      if upserted.1.isNew then
        some (world.move upserted.2 (.persistRepo after file upserted.1.blobId))
      else
        some (world.move upserted.2 (.indexRepo (after.next file upserted.1.blobId false)))
  | .persistRepo locals file blobId =>
    some (world.persist platform file blobId (.indexRepo (locals.next file blobId true)))
  | .reindexFile locals =>
    let upserted := world.upsert platform locals.file now
    if upserted.1.isNew then
      some (world.move upserted.2 (.persistFile locals upserted.1.blobId))
    else some (world.move upserted.2 (.setEntry locals upserted.1.blobId))
  | .persistFile locals blobId =>
    some (world.persist platform locals.file blobId (.setEntry locals blobId))
  | .setEntry locals blobId =>
    some (world.move (setManifestEntry locals.branch world.db ⟨locals.rel, blobId⟩) .idle)
  | .forgetFile branch rel =>
    some (world.move (removeManifestEntry branch rel world.db) .idle)

def IndexWorld.start (activity : Activity) : Option IndexWorld :=
  if world.activity = .idle then some (world.move world.db activity) else none

def IndexWorld.step : IndexStep → Option IndexWorld
  | .indexRepo branch files => world.start (.indexRepo (.begin_ branch files))
  | .reindexFile root absPath branch bytes =>
    world.start (.reindexFile ⟨toRel platform.cwd root absPath, bytes, branch⟩)
  | .forgetFile root absPath branch =>
    world.start (.forgetFile branch (toRel platform.cwd root absPath))
  | .proceed now => world.proceed platform now
  | .stop => some (world.move world.db .idle)

def indexing (branch : String) (files : List WalkedFile) (contents : List IndexedContent) :
    List IndexedContent :=
  (files.map fun file => ⟨branch, file.relPath, file.bytes⟩).foldl
    (fun contents content => Table.put IndexedContent.key content contents) contents

/-- The contents after a call, read off the call. -/
def IndexStep.contents (contents : List IndexedContent) : IndexStep → List IndexedContent
  | .indexRepo branch files => indexing branch files contents
  | .reindexFile root absPath branch bytes =>
    indexing branch [⟨toRel platform.cwd root absPath, bytes⟩] contents
  | .forgetFile root absPath branch =>
    contents.filter fun content => content.key ≠ (branch, toRel platform.cwd root absPath)
  | _ => contents

/-- A call is recorded when its last write has been made. -/
def IndexWorld.record : IndexStep → IndexWorld
  | .proceed _ => if world.activity = .idle then { world with indexed := world.expected } else world
  | label => { world with expected := label.contents platform world.indexed }

def Platform.system : TransitionSystem IndexWorld IndexStep where
  init := ⟨emptyDb, .idle, none, [], [], []⟩
  step := fun world label =>
    (world.step platform label).map fun next => next.record platform label

end Step

section Describes

variable (platform : Platform)

/-- A row's blob is that of the content last indexed for its branch and path, and the
chunks and symbols stored for it are those that the content has in the path's language. -/
def Described (contents : List IndexedContent) (db : IndexDb) (row : ManifestRow) : Prop :=
  ∃ content ∈ contents, content.key = (row.branch, row.filePath) ∧
    ∃ blob ∈ db.blobs, blob.id = row.blobId ∧ blob.sha = platform.blakeOf content.bytes ∧
      db.Holds blob.id (platform.chunkBytes content.bytes (detectLanguage row.filePath))

/-- The manifest of a branch holds exactly these files, each with its content. -/
def Exact (db : IndexDb) (branch : String) (files : List WalkedFile) : Prop :=
  ∀ path sha, (∃ row ∈ db.manifests, row.branch = branch ∧ row.filePath = path ∧
      ∃ blob ∈ db.blobs, blob.id = row.blobId ∧ blob.sha = sha) ↔
    ∃ file ∈ Table.lastBy WalkedFile.relPath files,
      file.relPath = path ∧ platform.blakeOf file.bytes = sha

structure Describes (world : IndexWorld) : Prop where
  exact : ∀ returned ∈ world.returned, Exact platform world.db returned.branch returned.files
  described : ∀ row ∈ world.db.manifests, Described platform world.indexed world.db row
  listed : ∀ content ∈ world.indexed,
    ∃ row ∈ world.db.manifests, (row.branch, row.filePath) = content.key

end Describes

section Condition

variable (platform : Platform) (world : IndexWorld)

/-- What a blob has stored suits a path: the content parses the same in the language
that it was first seen under, and where that parse was cut off, it has nothing in the
path's. -/
def Suits (file : WalkedFile) (blobId : Nat) : Prop :=
  ∀ blob ∈ world.db.blobs, blob.id = blobId →
    (platform.chunkBytes file.bytes (detectLanguage file.relPath)).stored =
      if blobId ∈ world.parsed then (platform.chunkBytes file.bytes blob.language).stored
      else ⟨[], []⟩

/-- A write of manifest entries whose blobs suit their paths and, at the end of
`indexRepo`, that leaves no path of the branch behind. -/
def Activity.Faithful : Activity → Prop
  | .indexRepo locals =>
    locals.remaining = [] →
      (∀ row ∈ world.db.manifests, row.branch = locals.branch →
        row.filePath ∈ locals.files.map WalkedFile.relPath) ∧
      ∀ pair ∈ Table.lastBy (fun pair => pair.1.relPath) (locals.files.zip locals.manifestEntries),
        Suits platform world pair.1 pair.2.blobId
  | .setEntry locals blobId => Suits platform world locals.file blobId
  | _ => True

def Faithful : IndexStep → Prop
  | .proceed _ => world.activity.Faithful platform world
  | _ => True

instance (file : WalkedFile) (blobId : Nat) : Decidable (Suits platform world file blobId) :=
  inferInstanceAs (Decidable (∀ blob ∈ world.db.blobs, blob.id = blobId → _ = _))

instance : (activity : Activity) → Decidable (activity.Faithful platform world)
  | .indexRepo locals =>
    inferInstanceAs (Decidable (locals.remaining = [] →
      (∀ row ∈ world.db.manifests, row.branch = locals.branch →
        row.filePath ∈ locals.files.map WalkedFile.relPath) ∧
      ∀ pair ∈ Table.lastBy (fun pair => pair.1.relPath) (locals.files.zip locals.manifestEntries),
        Suits platform world pair.1 pair.2.blobId))
  | .setEntry locals blobId =>
    inferInstanceAs (Decidable (Suits platform world locals.file blobId))
  | .idle => .isTrue trivial
  | .persistRepo _ _ _ => .isTrue trivial
  | .reindexFile _ => .isTrue trivial
  | .persistFile _ _ => .isTrue trivial
  | .forgetFile _ _ => .isTrue trivial

instance : (label : IndexStep) → Decidable (Faithful platform world label)
  | .proceed _ => inferInstanceAs (Decidable (world.activity.Faithful platform world))
  | .indexRepo _ _ => .isTrue trivial
  | .reindexFile _ _ _ _ => .isTrue trivial
  | .forgetFile _ _ _ => .isTrue trivial
  | .stop => .isTrue trivial

end Condition

end Zuse.Index
