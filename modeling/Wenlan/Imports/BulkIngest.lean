import Mathlib.Data.List.Dedup
import Wenlan.Support.Transition

/-!
# Bulk import of chat conversations

`chat_import/bulk_ingest.rs` with the writer `store_raw_import_memories_batch`.  A batch is stored
in slices of whole conversations, each slice in a transaction of its own.  The embedding model, the
generator of the row ids and the commit are the world's; progress events are left out.
-/

namespace Wenlan.Imports

inductive Vendor where
  | chatGpt
  | claude

namespace Vendor

def sourceIdPrefix : Vendor → String
  | .chatGpt => "import_chatgpt_"
  | .claude => "import_claude_"

def buildSourceId (vendor : Vendor) (externalId : String) : String :=
  vendor.sourceIdPrefix ++ externalId

theorem buildSourceId_inj {vendor vendor' : Vendor} {externalId externalId' : String} :
    vendor.buildSourceId externalId = vendor'.buildSourceId externalId' ↔
      vendor = vendor' ∧ externalId = externalId' := by
  constructor
  · intro h
    have hchars := congrArg String.toList h
    unfold buildSourceId at hchars
    rw [String.toList_append, String.toList_append] at hchars
    cases vendor <;> cases vendor' <;>
      simp [sourceIdPrefix, String.toList_inj] at hchars ⊢
    · exact hchars
    · exact hchars
  · rintro ⟨rfl, rfl⟩
    rfl

end Vendor

structure ParsedMessage where
  content : String
  createdAt : Option Int

structure ParsedConversation where
  externalId : String
  vendor : Vendor
  title : Option String
  messages : List ParsedMessage

/-- A message on its way into the table. -/
structure RawEntry where
  sourceId : String
  content : String
  title : Option String
  createdAt : Option Int
  chunkIndex : ℕ

namespace ParsedConversation

def sourceId (conv : ParsedConversation) : String := conv.vendor.buildSourceId conv.externalId

def SameId (conv other : ParsedConversation) : Prop :=
  conv.vendor = other.vendor ∧ conv.externalId = other.externalId

def entries (conv : ParsedConversation) : List RawEntry :=
  conv.messages.mapIdx fun ordinal message =>
    ⟨conv.sourceId, message.content, conv.title, message.createdAt, ordinal⟩

end ParsedConversation

/-! ## The memory table -/

/-- A row of `memories`; the vector of its embedding is of a type of the model. -/
structure MemoryRow (Vector : Type) where
  id : String
  content : String
  sourceId : String
  title : String
  chunkIndex : ℕ
  lastModified : Int
  createdAt : Int
  embedding : Vector

/-- `memories` in the order of insertion, and the source ids of `enrichment_origin`. -/
structure Db (Vector : Type) where
  memories : List (MemoryRow Vector)
  origins : List String

inductive SliceFate where
  | commits
  /-- A statement or the commit fails, and the transaction is rolled back. -/
  | refused (message : String)
  /-- The process dies around the commit. -/
  | crashed (durable : Bool)

structure SliceRun (Vector : Type) where
  embeddings : Except String (List Vector)
  newV4 : ℕ → String
  now : Int
  fate : SliceFate

inductive ImportStop where
  | embedding (message : String)
  | vectorDb (message : String)
  | crash
  deriving DecidableEq

namespace Db

variable {Vector : Type}

/-- The `SELECT DISTINCT source_id … IN (…)` of `check_existing_import_source_ids`, five hundred
candidates at a time; there are at most as many turns as candidates. -/
def existingInChunks (db : Db Vector) : ℕ → List String → List String
  | 0, _ => []
  | turns + 1, candidates =>
    if candidates = [] then []
    else ((db.memories.map (·.sourceId)).filter fun sourceId =>
        (candidates.take 500).contains sourceId).dedup ++
      existingInChunks db turns (candidates.drop 500)

def checkExistingImportSourceIds (candidates : List String) (db : Db Vector) : List String :=
  db.existingInChunks candidates.length candidates

/-- The two `INSERT`s of an entry; a row id that is taken fails the first. -/
def insertEntry (run : SliceRun Vector) (drawn : ℕ) (entry : RawEntry) (embedding : Vector)
    (db : Db Vector) : Option (Db Vector) :=
  let id := "mem_" ++ run.newV4 drawn
  if db.memories.any (·.id == id) then none
  else some {
    memories := db.memories ++ [{
      id := id
      content := entry.content
      sourceId := entry.sourceId
      title := entry.title.getD ""
      chunkIndex := entry.chunkIndex
      lastModified := run.now
      createdAt := entry.createdAt.getD run.now
      embedding := embedding }]
    origins := if entry.sourceId ∈ db.origins then db.origins else db.origins ++ [entry.sourceId] }

def insertEntries (run : SliceRun Vector) : ℕ → List (RawEntry × Vector) → Db Vector →
    Option (Db Vector)
  | _, [], db => some db
  | drawn, (entry, embedding) :: rest, db =>
    (db.insertEntry run drawn entry embedding).bind (insertEntries run (drawn + 1) rest)

def storeRawImportMemoriesBatch (run : SliceRun Vector) (entries : List RawEntry)
    (db : Db Vector) : Db Vector × Except ImportStop ℕ :=
  match run.embeddings with
  | .error message => (db, .error (.embedding message))
  | .ok embeddings =>
    if embeddings.length ≠ entries.length then
      (db, .error (.embedding s!"batch import: expected {entries.length} embeddings, got {embeddings.length}"))
    else
      match insertEntries run 0 (entries.zip embeddings) db with
      | none => (db, .error (.vectorDb "batch import insert"))
      | some stored =>
        match run.fate with
        | .commits => (stored, .ok entries.length)
        | .refused message => (db, .error (.vectorDb message))
        | .crashed durable => (if durable then stored else db, .error .crash)

/-- The loop over the new conversations, and the last slice after it: the entries of the open
slice, the rows stored so far and how many slices were tried. -/
def importSlices (flushEntries : ℕ) (runs : ℕ → SliceRun Vector) : List ParsedConversation → ℕ →
    List RawEntry → ℕ → Db Vector → Db Vector × Except ImportStop ℕ
  | [], slice, entries, stored, db =>
    if entries = [] then (db, .ok stored)
    else
      match db.storeRawImportMemoriesBatch (runs slice) entries with
      | (db, .error stop) => (db, .error stop)
      | (db, .ok count) => (db, .ok (stored + count))
  | conv :: rest, slice, entries, stored, db =>
    if entries ≠ [] ∧ flushEntries < entries.length + conv.messages.length then
      match db.storeRawImportMemoriesBatch (runs slice) entries with
      | (db, .error stop) => (db, .error stop)
      | (db, .ok count) =>
        importSlices flushEntries runs rest (slice + 1) conv.entries (stored + count) db
    else importSlices flushEntries runs rest slice (entries ++ conv.entries) stored db

end Db

structure BulkImportResult where
  conversationsIngested : ℕ
  conversationsSkippedExisting : ℕ
  memoriesStored : ℕ
  deriving DecidableEq

/-- One call of `bulk_import_conversations_with_flush`, with what the world does during it. -/
structure Import (Vector : Type) where
  batch : List ParsedConversation
  flushEntries : ℕ
  /-- The error that the lookup of the existing ids ends with, if it fails. -/
  lookupFails : Option String
  runs : ℕ → SliceRun Vector

def rawImportFlushEntries : ℕ := 128

namespace Db

variable {Vector : Type}

/-- `bulk_import_conversations_with_flush`. -/
def bulkImport (imported : Import Vector) (db : Db Vector) :
    Db Vector × Except ImportStop BulkImportResult :=
  if imported.batch = [] then (db, .ok ⟨0, 0, 0⟩)
  else
    match imported.lookupFails with
    | some message => (db, .error (.vectorDb message))
    | none =>
      let existing := db.checkExistingImportSourceIds (imported.batch.map (·.sourceId))
      let newConversations := imported.batch.filter fun conv => !existing.contains conv.sourceId
      let skipped := imported.batch.length - newConversations.length
      match db.importSlices imported.flushEntries imported.runs newConversations 0 [] 0 with
      | (db, .error stop) => (db, .error stop)
      | (db, .ok stored) => (db, .ok ⟨newConversations.length, skipped, stored⟩)

/-- An import, howev it ended; the next one finds what it left. -/
def Step (db : Db Vector) (imported : Import Vector) (db' : Db Vector) : Prop :=
  db' = (db.bulkImport imported).1

end Db

end Wenlan.Imports
