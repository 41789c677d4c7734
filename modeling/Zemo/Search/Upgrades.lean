import Zemo.Extraction.Harmless
import Zemo.Search.AnnIndex

set_option autoImplicit false

/-! # The chunks of several models

The chunks of a file are replaced as a whole whenever the file is indexed again. Here they are
looked at for all embedding providers and versions at once, as they stand in the database: the keys
are numbered for each provider and version, the old chunks are deleted for the provider, and the key
is unique in the workspace. -/

namespace Zemo.Search.Upgrades

open Checked
open Extraction (textFits)

/-! ## Data -/

/-- The columns of `files` and `file_versions` that are never changed. -/
structure Catalog where
  workspaceOf : FileId → WorkspaceId
  fileOf : String → FileId

/-- A row of `local_search_documents`. It is selected from the version of its file. -/
structure SearchDocument (catalog : Catalog) where
  workspaceId : WorkspaceId
  fileId : FileId
  fileVersionId : String
  ofWorkspace : catalog.workspaceOf fileId = workspaceId
  ofFile : catalog.fileOf fileVersionId = fileId

/-- A row of `semantic_analyses`. -/
structure SemanticAnalysisRow where
  id : String
  fileId : FileId
  fileVersionId : String
  isCurrent : Bool

inductive EmbeddingAvailability where
  | availableDevelopment
  | availableProduction
  | unavailable
deriving DecidableEq, Repr

structure EmbeddingProviderDescriptor where
  providerId : String
  version : String
  dimensions : Nat
  localOnly : Bool
  productionReady : Bool
  modelSizeBytes : Nat
  maxModelSizeBytes : Nat

structure SemanticChunk where
  sourceId : String
  startOffset : Option Nat
  endOffset : Option Nat
  pageNumber : Option Nat
  sheetOrSlide : Option String
  truncatedFile : Bool

structure EmbeddingIndexEntry where
  sourceId : String
  sourceKind : String
  startOffset : Option Nat
  endOffset : Option Nat
  vector : List UInt8

structure FileChunkReplacement where
  workspaceId : WorkspaceId
  fileId : FileId
  fileVersionId : String
  semanticAnalysisId : String
  descriptor : EmbeddingProviderDescriptor
  availability : EmbeddingAvailability
  chunks : List SemanticChunk
  entries : List EmbeddingIndexEntry

/-- What the rows of `local_semantic_chunks` and `local_search_embeddings` have in common. -/
structure SourceRow where
  workspaceId : WorkspaceId
  fileId : FileId
  fileVersionId : String
  providerId : String
  embeddingVersion : String
  sourceId : String
deriving DecidableEq

/-- A row of `local_semantic_chunks`. -/
structure ChunkRow extends SourceRow where
  annKey : Nat
  status : ChunkStatus
deriving DecidableEq

/-- A row of `local_search_embeddings`. -/
structure EmbeddingRow extends SourceRow where
  vector : List UInt8
deriving DecidableEq

/-- The primary key of `local_ann_index_state`. -/
structure IndexKey where
  workspaceId : WorkspaceId
  providerId : String
  embeddingVersion : String
deriving DecidableEq

structure Tables where
  chunks : List ChunkRow := []
  embeddings : List EmbeddingRow := []
  /-- `next_ann_key` of `local_ann_index_state`. -/
  nextAnnKey : IndexKey → Option Nat := fun _ => none

inductive ReplaceError where
  | invalidSemanticOutput
  | notFound
  | numericOverflow
  | sqlite
deriving DecidableEq, Repr

/-! ## The checks of the columns -/

/-- `to_sql_integer` and `to_sql_u64`. -/
def convertible (value : Nat) : Bool := value < 2 ^ 63

/-- The end is not before the start, where both are given. -/
def orderedOffsets : Option Nat → Option Nat → Bool
  | some start, some stop => start ≤ stop
  | _, _ => true

/-- The checks of `local_embedding_models`. -/
def EmbeddingProviderDescriptor.fits (descriptor : EmbeddingProviderDescriptor)
    (availability : EmbeddingAvailability) : Bool :=
  textFits 128 descriptor.providerId && textFits 64 descriptor.version
    && (!descriptor.productionReady || availability = .availableProduction)
    && 0 < descriptor.maxModelSizeBytes
    && descriptor.modelSizeBytes ≤ descriptor.maxModelSizeBytes
    && descriptor.maxModelSizeBytes ≤ 1073741824

/-- The numbers of a chunk and its entry are converted. -/
def offsetsConvertible (chunk : SemanticChunk) (entry : EmbeddingIndexEntry) : Bool :=
  chunk.startOffset.all convertible && chunk.endOffset.all convertible
    && entry.startOffset.all convertible && entry.endOffset.all convertible

/-- The checks of `local_semantic_chunks`. -/
def SemanticChunk.fits (chunk : SemanticChunk) : Bool :=
  textFits 64 chunk.sourceId && orderedOffsets chunk.startOffset chunk.endOffset
    && chunk.pageNumber.all (1 ≤ ·)
    && chunk.sheetOrSlide.all fun name => Extraction.sqlLength name.toList ≤ 80

/-- The checks of `local_search_embeddings`. -/
def EmbeddingIndexEntry.fits (entry : EmbeddingIndexEntry) : Bool :=
  textFits 64 entry.sourceId && orderedOffsets entry.startOffset entry.endOffset

/-- `UNIQUE (file_version_id, provider_id, embedding_version, source_id)`. -/
def SourceRow.Clashes (a b : SourceRow) : Prop :=
  a.fileVersionId = b.fileVersionId ∧ a.providerId = b.providerId
    ∧ a.embeddingVersion = b.embeddingVersion ∧ a.sourceId = b.sourceId

instance (a b : SourceRow) : Decidable (a.Clashes b) := inferInstanceAs (Decidable (_ ∧ _))

/-- One of the two `UNIQUE` constraints of `local_semantic_chunks`. -/
def ChunkRow.Clashes (a b : ChunkRow) : Prop :=
  (a.workspaceId = b.workspaceId ∧ a.annKey = b.annKey) ∨ a.toSourceRow.Clashes b.toSourceRow

instance (a b : ChunkRow) : Decidable (a.Clashes b) := inferInstanceAs (Decidable (_ ∨ _))

/-! ## Replacing the chunks of a file -/

/-- `validate_descriptor`. -/
def EmbeddingProviderDescriptor.valid (descriptor : EmbeddingProviderDescriptor) : Bool :=
  descriptor.providerId ≠ "" && descriptor.version ≠ "" && descriptor.dimensions ≠ 0
    && descriptor.dimensions ≤ 4096 && descriptor.localOnly

def EmbeddingIndexEntry.valid (entry : EmbeddingIndexEntry) (dimensions : Nat) : Bool :=
  entry.vector.length = dimensions
    && (entry.sourceKind = "semantic_summary" || entry.sourceKind = "text_chunk")
    && entry.sourceId ≠ "" && entry.sourceId.toList.length ≤ 64

/-- The checks of the arguments before the transaction. -/
def FileChunkReplacement.valid (replacement : FileChunkReplacement) : Bool :=
  replacement.descriptor.valid && replacement.availability ≠ .unavailable
    && replacement.entries ≠ [] && replacement.chunks.length = replacement.entries.length
    && replacement.entries.length ≤ 32
    && replacement.entries.all (·.valid replacement.descriptor.dimensions)

/-- A call, and the tables its source is looked up in. -/
structure ReplaceCall (catalog : Catalog) where
  replacement : FileChunkReplacement
  documents : List (SearchDocument catalog)
  analyses : List SemanticAnalysisRow

variable {catalog : Catalog}

/-- The document of the file is about the version, and the analysis is the current one of it. -/
def ReplaceCall.validSource (call : ReplaceCall catalog) : Bool :=
  call.documents.any fun document =>
    document.workspaceId = call.replacement.workspaceId
      && document.fileId = call.replacement.fileId
      && document.fileVersionId = call.replacement.fileVersionId
      && call.analyses.any fun analysis =>
        analysis.id = call.replacement.semanticAnalysisId
          && analysis.fileId = document.fileId
          && analysis.fileVersionId = document.fileVersionId && analysis.isCurrent

/-- The rows that are deleted: those of the file and the provider. -/
def FileChunkReplacement.deletes (replacement : FileChunkReplacement) (row : SourceRow) : Bool :=
  row.fileId = replacement.fileId && row.providerId = replacement.descriptor.providerId

/-- The index the new chunks are for. -/
def FileChunkReplacement.indexKey (replacement : FileChunkReplacement) : IndexKey where
  workspaceId := replacement.workspaceId
  providerId := replacement.descriptor.providerId
  embeddingVersion := replacement.descriptor.version

/-- The row of an entry, in both tables. -/
def FileChunkReplacement.sourceRow (replacement : FileChunkReplacement)
    (entry : EmbeddingIndexEntry) : SourceRow where
  workspaceId := replacement.workspaceId
  fileId := replacement.fileId
  fileVersionId := replacement.fileVersionId
  providerId := replacement.descriptor.providerId
  embeddingVersion := replacement.descriptor.version
  sourceId := entry.sourceId

/-- `next_key.saturating_add(1)`. -/
def saturatingSucc (key : Nat) : Nat := min (key + 1) (2 ^ 63 - 1)

/-- Where the loop over the entries is. -/
structure Progress where
  chunks : List ChunkRow
  embeddings : List EmbeddingRow
  nextKey : Nat
  upserts : List AnnUpsertRecord := []

/-- `INSERT INTO local_semantic_chunks`. -/
def insertChunk (chunks : List ChunkRow) (fits : Bool) (row : ChunkRow) :
    Except ReplaceError (List ChunkRow) := do
  require (fits = true) .sqlite
  require (∀ other ∈ chunks, ¬other.Clashes row) .sqlite
  return chunks ++ [row]

/-- `INSERT INTO local_search_embeddings`. -/
def insertEmbedding (embeddings : List EmbeddingRow) (fits : Bool) (row : EmbeddingRow) :
    Except ReplaceError (List EmbeddingRow) := do
  require (fits = true) .sqlite
  require (∀ other ∈ embeddings, ¬other.toSourceRow.Clashes row.toSourceRow) .sqlite
  return embeddings ++ [row]

/-- One turn of the loop over the chunks and their entries. -/
def FileChunkReplacement.insertPair (replacement : FileChunkReplacement) (progress : Progress)
    (pair : SemanticChunk × EmbeddingIndexEntry) : Except ReplaceError Progress := do
  require (pair.1.sourceId = pair.2.sourceId) .invalidSemanticOutput
  require (offsetsConvertible pair.1 pair.2 = true) .numericOverflow
  let chunks ← insertChunk progress.chunks pair.1.fits
    { toSourceRow := replacement.sourceRow pair.2
      annKey := progress.nextKey
      status := if replacement.chunks.any (·.truncatedFile) then .partial_ else .active }
  let embeddings ← insertEmbedding progress.embeddings pair.2.fits
    { toSourceRow := replacement.sourceRow pair.2, vector := pair.2.vector }
  return {
    chunks
    embeddings
    nextKey := saturatingSucc progress.nextKey
    upserts := progress.upserts ++ [{ annKey := progress.nextKey, vector := pair.2.vector }] }

/-- The tables of a call, without what it deletes. -/
def FileChunkReplacement.start (replacement : FileChunkReplacement) (tables : Tables) :
    Progress where
  chunks := tables.chunks.filter fun chunk => !replacement.deletes chunk.toSourceRow
  embeddings := tables.embeddings.filter fun row => !replacement.deletes row.toSourceRow
  -- the row of `ensure_ann_state_row`
  nextKey := (tables.nextAnnKey replacement.indexKey).getD 1

/-- The keys of the chunks that are deleted. -/
def FileChunkReplacement.removedKeys (replacement : FileChunkReplacement) (tables : Tables) :
    List Nat :=
  (tables.chunks.filter fun chunk =>
    replacement.deletes chunk.toSourceRow && chunk.status.isStored).map (·.annKey)

/-- `replace_file_chunks_and_embeddings`. -/
def ReplaceCall.replaceFileChunksAndEmbeddings (call : ReplaceCall catalog) (tables : Tables) :
    Except ReplaceError (FileChunkReplaceResult × Tables) := do
  let replacement := call.replacement
  require (replacement.valid = true) .invalidSemanticOutput
  require (convertible replacement.descriptor.modelSizeBytes = true
    ∧ convertible replacement.descriptor.maxModelSizeBytes = true) .numericOverflow
  require (replacement.descriptor.fits replacement.availability = true) .sqlite
  require (call.validSource = true) .notFound
  let progress ← (replacement.chunks.zip replacement.entries).foldlM replacement.insertPair
    (replacement.start tables)
  return ({ upserts := progress.upserts, removedKeys := replacement.removedKeys tables },
    { chunks := progress.chunks
      embeddings := progress.embeddings
      nextAnnKey := Function.update tables.nextAnnKey replacement.indexKey (some progress.nextKey) })

/-- The tables after a call; an error rolls it back. -/
def ReplaceCall.step (call : ReplaceCall catalog) (tables : Tables) : Tables :=
  match call.replaceFileChunksAndEmbeddings tables with
  | .ok (_, after) => after
  | .error _ => tables

/-- The tables after calls, from empty ones. -/
def tablesAfter (calls : List (ReplaceCall catalog)) : Tables :=
  Run.after ReplaceCall.step {} calls

end Zemo.Search.Upgrades
