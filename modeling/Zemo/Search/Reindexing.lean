import Mathlib.Data.List.Iterate
import Zemo.Search.Upgrades

set_option autoImplicit false

/-! # When re-indexing a file works

A call that passes the checks of its arguments and of its source still fails when one of its keys is
taken in the workspace, by a chunk of another file or provider. The keys start again with each
version of a model, so this is what the chunks of the version before do to the next one. The main
result says of every run which calls replace the chunks of their file as they should. -/

namespace Zemo.Search.Upgrades

open Checked

variable {catalog : Catalog} {call : ReplaceCall catalog} {replacement : FileChunkReplacement}
  {tables : Tables}

/-! ## The keys -/

/-- The keys a call gives out. -/
def annKeys (next count : Nat) : List Nat := List.iterate saturatingSucc next count

theorem saturatingSucc_lt (key : Nat) : saturatingSucc key < 2 ^ 63 := by
  unfold saturatingSucc
  omega

/-- While there is room, the keys are the numbers from the next one on. -/
theorem annKeys_eq_range' {next count : Nat} (hroom : next + count ≤ 2 ^ 63) :
    annKeys next count = List.range' next count := by
  induction count generalizing next with
  | zero => rfl
  | succ count ih =>
    rw [List.range'_succ, annKeys, List.iterate]
    cases count with
    | zero => rfl
    | succ count =>
      have hsucc : saturatingSucc next = next + 1 := by
        unfold saturatingSucc
        omega
      rw [hsucc]
      exact congrArg _ (ih (by omega))

/-- The keys are different as long as there is room. -/
theorem annKeys_nodup_iff {next count : Nat} (hnext : next < 2 ^ 63) :
    (annKeys next count).Nodup ↔ next + count ≤ 2 ^ 63 := by
  refine ⟨fun hnodup => ?_, fun hroom => annKeys_eq_range' hroom ▸ List.nodup_range'⟩
  induction count generalizing next with
  | zero => omega
  | succ count ih =>
    obtain ⟨hfresh, hrest⟩ := List.nodup_cons.1 hnodup
    have hle := ih (saturatingSucc_lt next) hrest
    cases count with
    | zero => omega
    | succ count =>
      -- the second key is another one, so the first is not the last number there is
      have hne : next ≠ saturatingSucc next := fun h => hfresh (h ▸ List.mem_cons_self)
      unfold saturatingSucc at hle hne
      omega

/-! ## The loop -/

/-- The status of the chunks of a call. -/
def FileChunkReplacement.status (replacement : FileChunkReplacement) : ChunkStatus :=
  if replacement.chunks.any (·.truncatedFile) then .partial_ else .active

/-- The chunks a call inserts, under the keys from `next` on. -/
def FileChunkReplacement.chunkRows (replacement : FileChunkReplacement) :
    Nat → List (SemanticChunk × EmbeddingIndexEntry) → List ChunkRow
  | _, [] => []
  | next, pair :: pairs =>
      { toSourceRow := replacement.sourceRow pair.2, annKey := next, status := replacement.status }
        :: replacement.chunkRows (saturatingSucc next) pairs

/-- The numbers and texts of a chunk and its entry are those the tables allow. -/
def PairFits (pair : SemanticChunk × EmbeddingIndexEntry) : Prop :=
  offsetsConvertible pair.1 pair.2 = true ∧ pair.1.fits = true ∧ pair.2.fits = true

theorem insertChunk_eq_ok {chunks chunks' : List ChunkRow} {fits : Bool} {row : ChunkRow} :
    insertChunk chunks fits row = .ok chunks' ↔
      fits = true ∧ (∀ other ∈ chunks, ¬other.Clashes row) ∧ chunks ++ [row] = chunks' := by
  simp only [insertChunk, test_bind_eq_ok, require_eq_ok, pure, Except.pure, Except.ok.injEq]

theorem insertEmbedding_eq_ok {embeddings embeddings' : List EmbeddingRow} {fits : Bool}
    {row : EmbeddingRow} :
    insertEmbedding embeddings fits row = .ok embeddings' ↔
      fits = true ∧ (∀ other ∈ embeddings, ¬other.toSourceRow.Clashes row.toSourceRow)
        ∧ embeddings ++ [row] = embeddings' := by
  simp only [insertEmbedding, test_bind_eq_ok, require_eq_ok, pure, Except.pure, Except.ok.injEq]

/-- What the two `UNIQUE` constraints of the chunks say of the rows of a table. -/
def UniqueChunks (chunks : List ChunkRow) : Prop := chunks.Pairwise fun a b => ¬a.Clashes b

/-- The embeddings are those of the chunks, in their order. -/
def Paired (progress : Progress) : Prop :=
  progress.embeddings.map (·.toSourceRow) = progress.chunks.map (·.toSourceRow)

/-- An embedding clashes only where its chunk does. -/
theorem Paired.embedding_free {progress : Progress} (hpaired : Paired progress) {row : ChunkRow}
    (hfree : ∀ other ∈ progress.chunks, ¬other.Clashes row) :
    ∀ other ∈ progress.embeddings, ¬other.toSourceRow.Clashes row.toSourceRow := by
  intro other hother hclash
  have hmem : other.toSourceRow ∈ progress.chunks.map (·.toSourceRow) :=
    hpaired ▸ List.mem_map_of_mem hother
  obtain ⟨chunk, hchunk, hsame⟩ := List.mem_map.1 hmem
  refine hfree chunk hchunk (.inr ?_)
  rwa [hsame]

/-- The row of a pair that is next. -/
def FileChunkReplacement.nextRow (replacement : FileChunkReplacement) (progress : Progress)
    (entry : EmbeddingIndexEntry) : ChunkRow where
  toSourceRow := replacement.sourceRow entry
  annKey := progress.nextKey
  status := replacement.status

/-- The progress with a pair. -/
def FileChunkReplacement.withPair (replacement : FileChunkReplacement) (progress : Progress)
    (pair : SemanticChunk × EmbeddingIndexEntry) : Progress where
  chunks := progress.chunks ++ [replacement.nextRow progress pair.2]
  embeddings := progress.embeddings
    ++ [{ toSourceRow := replacement.sourceRow pair.2, vector := pair.2.vector }]
  nextKey := saturatingSucc progress.nextKey
  upserts := progress.upserts ++ [{ annKey := progress.nextKey, vector := pair.2.vector }]

theorem Paired.withPair {progress : Progress} (hpaired : Paired progress)
    (pair : SemanticChunk × EmbeddingIndexEntry) :
    Paired (replacement.withPair progress pair) := by
  unfold Paired at hpaired ⊢
  simp only [FileChunkReplacement.withPair, List.map_append, hpaired, List.map_cons, List.map_nil,
    FileChunkReplacement.nextRow]

theorem insertPair_eq_ok {progress progress' : Progress}
    {pair : SemanticChunk × EmbeddingIndexEntry} (hpaired : Paired progress) :
    replacement.insertPair progress pair = .ok progress' ↔
      pair.1.sourceId = pair.2.sourceId ∧ PairFits pair
        ∧ (∀ other ∈ progress.chunks, ¬other.Clashes (replacement.nextRow progress pair.2))
        ∧ progress' = replacement.withPair progress pair := by
  unfold FileChunkReplacement.insertPair
  rw [test_bind_eq_ok, test_bind_eq_ok]
  simp only [bind_eq_ok, require_eq_ok, insertChunk_eq_ok, insertEmbedding_eq_ok, pure,
    Except.pure, Except.ok.injEq]
  constructor
  · rintro ⟨hsource, hoffsets, -, ⟨hchunk, hfree, rfl⟩, -, ⟨hentry, -, rfl⟩, rfl⟩
    exact ⟨hsource, ⟨hoffsets, hchunk, hentry⟩, hfree, rfl⟩
  · rintro ⟨hsource, ⟨hoffsets, hchunk, hentry⟩, hfree, rfl⟩
    exact ⟨hsource, hoffsets, _, ⟨hchunk, hfree, rfl⟩, _,
      ⟨hentry, hpaired.embedding_free hfree, rfl⟩, rfl⟩

/-- The progress at the end of the loop. -/
def FileChunkReplacement.withPairs (replacement : FileChunkReplacement) (progress : Progress)
    (pairs : List (SemanticChunk × EmbeddingIndexEntry)) : Progress :=
  pairs.foldl replacement.withPair progress

/-- **The loop**: it goes through when every pair belongs together and fits, and no row clashes with
a chunk that is there or with one before it. -/
theorem insertPairs_eq_ok {pairs : List (SemanticChunk × EmbeddingIndexEntry)}
    {progress progress' : Progress} (hpaired : Paired progress) :
    pairs.foldlM replacement.insertPair progress = .ok progress' ↔
      (∀ pair ∈ pairs, pair.1.sourceId = pair.2.sourceId) ∧ (∀ pair ∈ pairs, PairFits pair)
        ∧ (∀ other ∈ progress.chunks, ∀ row ∈ replacement.chunkRows progress.nextKey pairs,
            ¬other.Clashes row)
        ∧ UniqueChunks (replacement.chunkRows progress.nextKey pairs)
        ∧ progress' = replacement.withPairs progress pairs := by
  induction pairs generalizing progress with
  | nil =>
    simp only [List.foldlM_nil, pure, Except.pure, Except.ok.injEq, FileChunkReplacement.chunkRows,
      FileChunkReplacement.withPairs, List.foldl_nil, List.not_mem_nil, false_implies,
      implies_true, UniqueChunks, List.Pairwise.nil, true_and, eq_comm]
  | cons pair pairs ih =>
    rw [List.foldlM_cons, bind_eq_ok]
    constructor
    · rintro ⟨_, hpair, hrest⟩
      obtain ⟨hsource, hfits, hfree, rfl⟩ := (insertPair_eq_ok hpaired).1 hpair
      obtain ⟨hsources, hallFit, hothers, hunique, rfl⟩ := (ih (hpaired.withPair pair)).1 hrest
      refine ⟨List.forall_mem_cons.2 ⟨hsource, hsources⟩, List.forall_mem_cons.2 ⟨hfits, hallFit⟩,
        fun other hother => List.forall_mem_cons.2 ⟨hfree other hother, ?_⟩,
        List.pairwise_cons.2 ⟨?_, hunique⟩, rfl⟩
      · exact hothers other (List.mem_append_left _ hother)
      · exact hothers _ (List.mem_append_right _ (List.mem_singleton_self _))
    · rintro ⟨hsources, hallFit, hothers, hunique, rfl⟩
      obtain ⟨hsource, hsources⟩ := List.forall_mem_cons.1 hsources
      obtain ⟨hfits, hallFit⟩ := List.forall_mem_cons.1 hallFit
      obtain ⟨hfirst, hunique⟩ := List.pairwise_cons.1 hunique
      refine ⟨_, (insertPair_eq_ok hpaired).2 ⟨hsource, hfits,
        fun other hother => hothers other hother _ List.mem_cons_self, rfl⟩,
        (ih (hpaired.withPair pair)).2 ⟨hsources, hallFit, fun other hother row hrow => ?_,
          hunique, rfl⟩⟩
      rcases List.mem_append.1 hother with hother | hother
      · exact hothers other hother row (List.mem_cons_of_mem _ hrow)
      · exact List.mem_singleton.1 hother ▸ hfirst row hrow

variable {progress : Progress} {pairs : List (SemanticChunk × EmbeddingIndexEntry)} {next : Nat}

theorem withPairs_chunks :
    (replacement.withPairs progress pairs).chunks
      = progress.chunks ++ replacement.chunkRows progress.nextKey pairs := by
  induction pairs generalizing progress with
  | nil => exact (List.append_nil _).symm
  | cons pair pairs ih =>
    refine (@ih (replacement.withPair progress pair)).trans ?_
    rw [FileChunkReplacement.withPair, FileChunkReplacement.chunkRows, List.append_assoc]
    rfl

theorem withPairs_paired (hpaired : Paired progress) :
    Paired (replacement.withPairs progress pairs) := by
  induction pairs generalizing progress with
  | nil => exact hpaired
  | cons pair pairs ih => exact ih (hpaired.withPair pair)

theorem withPairs_nextKey_lt (hnext : progress.nextKey < 2 ^ 63) :
    (replacement.withPairs progress pairs).nextKey < 2 ^ 63 := by
  induction pairs generalizing progress with
  | nil => exact hnext
  | cons pair pairs ih =>
    exact @ih (replacement.withPair progress pair) (saturatingSucc_lt _)

theorem withPairs_upserts :
    (replacement.withPairs progress pairs).upserts.map (·.annKey)
      = progress.upserts.map (·.annKey) ++ annKeys progress.nextKey pairs.length := by
  induction pairs generalizing progress with
  | nil => exact (List.append_nil _).symm
  | cons pair pairs ih =>
    refine (@ih (replacement.withPair progress pair)).trans ?_
    simp only [FileChunkReplacement.withPair, List.map_append, List.append_assoc]
    rfl

theorem chunkRows_annKeys :
    (replacement.chunkRows next pairs).map (·.annKey) = annKeys next pairs.length := by
  induction pairs generalizing next with
  | nil => rfl
  | cons pair pairs ih => exact congrArg (next :: ·) ih

theorem chunkRows_sources :
    (replacement.chunkRows next pairs).map (·.toSourceRow)
      = pairs.map fun pair => replacement.sourceRow pair.2 := by
  induction pairs generalizing next with
  | nil => rfl
  | cons pair pairs ih => exact congrArg (replacement.sourceRow pair.2 :: ·) ih

theorem chunkRows_status : ∀ row ∈ replacement.chunkRows next pairs,
    row.status = replacement.status := by
  induction pairs generalizing next with
  | nil => exact nofun
  | cons pair pairs ih => exact List.forall_mem_cons.2 ⟨rfl, ih⟩

theorem exists_pair_of_mem_chunkRows {row : ChunkRow}
    (hrow : row ∈ replacement.chunkRows next pairs) :
    ∃ pair ∈ pairs, row.toSourceRow = replacement.sourceRow pair.2 := by
  have hmem := List.mem_map_of_mem (f := ChunkRow.toSourceRow) hrow
  rw [chunkRows_sources] at hmem
  obtain ⟨pair, hpair, hsame⟩ := List.mem_map.1 hmem
  exact ⟨pair, hpair, hsame.symm⟩

theorem status_isStored : replacement.status.isStored = true := by
  unfold FileChunkReplacement.status
  split <;> rfl

/-- The rows of a call are unique when its keys are, and its source ids. -/
theorem chunkRows_unique_iff :
    UniqueChunks (replacement.chunkRows next pairs) ↔
      (annKeys next pairs.length).Nodup ∧ (pairs.map (·.2.sourceId)).Nodup := by
  have hsources : (replacement.chunkRows next pairs).map (·.sourceId)
      = pairs.map (·.2.sourceId) := by
    have hrows : (replacement.chunkRows next pairs).map (·.toSourceRow)
        = pairs.map fun pair => replacement.sourceRow pair.2 := chunkRows_sources
    have hids := congrArg (List.map SourceRow.sourceId) hrows
    rwa [List.map_map, List.map_map] at hids
  have hkeys : (replacement.chunkRows next pairs).map (·.annKey) = annKeys next pairs.length :=
    chunkRows_annKeys
  rw [← hkeys, ← hsources, List.Nodup, List.Nodup, List.pairwise_map, List.pairwise_map,
    ← List.pairwise_and_iff, UniqueChunks]
  refine List.Pairwise.iff_of_mem fun ha hb => ?_
  obtain ⟨p, -, hp⟩ := exists_pair_of_mem_chunkRows ha
  obtain ⟨q, -, hq⟩ := exists_pair_of_mem_chunkRows hb
  simp only [ChunkRow.Clashes, SourceRow.Clashes, hp, hq, FileChunkReplacement.sourceRow, not_or,
    true_and]

/-! ## What a call must find, and what it does -/

/-- The arguments and the source of a call are accepted. -/
def ReplaceCall.Accepted (call : ReplaceCall catalog) : Prop :=
  call.replacement.valid = true ∧ call.validSource = true
    ∧ ∀ pair ∈ call.replacement.chunks.zip call.replacement.entries,
      pair.1.sourceId = pair.2.sourceId

instance (call : ReplaceCall catalog) : Decidable call.Accepted :=
  inferInstanceAs (Decidable (_ ∧ _))

/-- The next key of the index a call is for. -/
def FileChunkReplacement.nextKey (replacement : FileChunkReplacement) (tables : Tables) : Nat :=
  (tables.nextAnnKey replacement.indexKey).getD 1

/-- A chunk was stored for the provider and the version of a call. -/
def FileChunkReplacement.SameModel (replacement : FileChunkReplacement) (chunk : ChunkRow) : Prop :=
  chunk.providerId = replacement.descriptor.providerId
    ∧ chunk.embeddingVersion = replacement.descriptor.version

/-- The active and partial chunks of a file. -/
def Tables.storedChunks (tables : Tables) (fileId : FileId) : List ChunkRow :=
  tables.chunks.filter fun chunk => chunk.fileId = fileId && chunk.status.isStored

/-- **What re-indexing a file promises**: the call commits, its keys are unused, what it removes are
keys of the file in the same index, and the file has one chunk for each entry, of its version. -/
def Reindexed (call : ReplaceCall catalog) (tables : Tables) : Prop :=
  ∃ result after, call.replaceFileChunksAndEmbeddings tables = .ok (result, after)
    ∧ (result.upserts.map (·.annKey)).Nodup
    ∧ (∀ key ∈ result.upserts.map (·.annKey), ∀ chunk ∈ tables.chunks,
        chunk.workspaceId = call.replacement.workspaceId → chunk.annKey = key →
        call.replacement.deletes chunk.toSourceRow = true)
    ∧ UniqueChunks after.chunks
    ∧ (∀ key ∈ result.removedKeys, ∃ chunk ∈ tables.storedChunks call.replacement.fileId,
        call.replacement.SameModel chunk ∧ chunk.annKey = key)
    ∧ (after.storedChunks call.replacement.fileId).map (·.toSourceRow)
        = call.replacement.entries.map call.replacement.sourceRow

/-- What a call must find. -/
structure Replaceable (call : ReplaceCall catalog) (tables : Tables) : Prop where
  /-- The numbers and texts of the arguments are those the tables allow. -/
  sizes : convertible call.replacement.descriptor.modelSizeBytes = true
    ∧ convertible call.replacement.descriptor.maxModelSizeBytes = true
  descriptor : call.replacement.descriptor.fits call.replacement.availability = true
  pairs : ∀ pair ∈ call.replacement.chunks.zip call.replacement.entries, PairFits pair
  distinct : (call.replacement.entries.map (·.sourceId)).Nodup
  /-- The keys do not run out. -/
  room : call.replacement.nextKey tables + call.replacement.entries.length ≤ 2 ^ 63
  /-- No chunk of another file or provider in the workspace has one of the next keys. -/
  unused : ∀ chunk ∈ tables.chunks, chunk.workspaceId = call.replacement.workspaceId →
    call.replacement.deletes chunk.toSourceRow = false →
    chunk.annKey < call.replacement.nextKey tables
      ∨ call.replacement.nextKey tables + call.replacement.entries.length ≤ chunk.annKey
  /-- The file has no chunks of another model. -/
  sameModel : ∀ chunk ∈ tables.storedChunks call.replacement.fileId,
    call.replacement.SameModel chunk

/-! ## Tables of a run -/

/-- What holds of the tables after calls. -/
structure Sound (catalog : Catalog) (tables : Tables) : Prop where
  unique : UniqueChunks tables.chunks
  paired : tables.embeddings.map (·.toSourceRow) = tables.chunks.map (·.toSourceRow)
  owned : ∀ chunk ∈ tables.chunks, catalog.fileOf chunk.fileVersionId = chunk.fileId
    ∧ catalog.workspaceOf chunk.fileId = chunk.workspaceId
  keys : ∀ index next, tables.nextAnnKey index = some next → next < 2 ^ 63

theorem Sound.empty : Sound catalog {} where
  unique := List.Pairwise.nil
  paired := rfl
  owned := nofun
  keys := nofun

theorem Sound.nextKey_lt (hsound : Sound catalog tables) :
    replacement.nextKey tables < 2 ^ 63 := by
  unfold FileChunkReplacement.nextKey
  cases hstate : tables.nextAnnKey replacement.indexKey with
  | none => exact Nat.one_lt_two_pow (by decide)
  | some next => exact hsound.keys _ _ hstate

/-- The version of the source is one of the file, in its workspace. -/
theorem ReplaceCall.owned (hsource : call.validSource = true) :
    catalog.fileOf call.replacement.fileVersionId = call.replacement.fileId
      ∧ catalog.workspaceOf call.replacement.fileId = call.replacement.workspaceId := by
  obtain ⟨document, -, hdocument⟩ := List.any_eq_true.1 hsource
  simp only [Bool.and_eq_true, decide_eq_true_eq] at hdocument
  obtain ⟨⟨⟨hworkspace, hfile⟩, hversion⟩, -⟩ := hdocument
  exact ⟨hversion ▸ hfile ▸ document.ofFile, hworkspace ▸ hfile ▸ document.ofWorkspace⟩

theorem start_paired (hsound : Sound catalog tables) : Paired (replacement.start tables) := by
  have hfilter := congrArg (List.filter fun row => !replacement.deletes row) hsound.paired
  rwa [List.filter_map, List.filter_map] at hfilter

/-- The chunks that are kept do not have the version of the call's file, under its provider. -/
theorem kept_source_free (hsound : Sound catalog tables) (hsource : call.validSource = true)
    {chunk : ChunkRow} (hchunk : chunk ∈ tables.chunks)
    (hkept : call.replacement.deletes chunk.toSourceRow = false) (entry : EmbeddingIndexEntry) :
    ¬chunk.toSourceRow.Clashes (call.replacement.sourceRow entry) := by
  rintro ⟨hversion, hprovider, -, -⟩
  have hfile : chunk.fileId = call.replacement.fileId := by
    rw [← (hsound.owned chunk hchunk).1, ← (ReplaceCall.owned hsource).1]
    exact congrArg _ hversion
  refine absurd hkept (Bool.not_eq_false _ ▸ ?_)
  simp only [FileChunkReplacement.deletes, Bool.and_eq_true, decide_eq_true_eq]
  exact ⟨hfile, hprovider⟩

/-! ## When a call commits -/

/-- The chunks of a call with their entries. -/
def ReplaceCall.zipped (call : ReplaceCall catalog) : List (SemanticChunk × EmbeddingIndexEntry) :=
  call.replacement.chunks.zip call.replacement.entries

/-- Where the loop of a call ends. -/
def ReplaceCall.ends (call : ReplaceCall catalog) (tables : Tables) : Progress :=
  call.replacement.withPairs (call.replacement.start tables) call.zipped

/-- What a call returns when it commits. -/
def ReplaceCall.outcome (call : ReplaceCall catalog) (tables : Tables) :
    FileChunkReplaceResult × Tables :=
  ({ upserts := (call.ends tables).upserts, removedKeys := call.replacement.removedKeys tables },
    { chunks := (call.ends tables).chunks
      embeddings := (call.ends tables).embeddings
      nextAnnKey := Function.update tables.nextAnnKey call.replacement.indexKey
        (some (call.ends tables).nextKey) })

/-- The rows of a call clash with no chunk that is kept. -/
def NoClash (call : ReplaceCall catalog) (tables : Tables) : Prop :=
  ∀ other ∈ (call.replacement.start tables).chunks,
    ∀ row ∈ call.replacement.chunkRows (call.replacement.nextKey tables) call.zipped,
      ¬other.Clashes row

theorem replace_eq_ok (hsound : Sound catalog tables) {out : FileChunkReplaceResult × Tables} :
    call.replaceFileChunksAndEmbeddings tables = .ok out ↔
      call.Accepted
        ∧ (convertible call.replacement.descriptor.modelSizeBytes = true
            ∧ convertible call.replacement.descriptor.maxModelSizeBytes = true)
        ∧ call.replacement.descriptor.fits call.replacement.availability = true
        ∧ (∀ pair ∈ call.zipped, PairFits pair)
        ∧ NoClash call tables
        ∧ UniqueChunks
            (call.replacement.chunkRows (call.replacement.nextKey tables) call.zipped)
        ∧ call.outcome tables = out := by
  unfold ReplaceCall.replaceFileChunksAndEmbeddings
  dsimp only
  rw [test_bind_eq_ok, test_bind_eq_ok, test_bind_eq_ok, test_bind_eq_ok, bind_eq_ok]
  simp only [require_eq_ok, insertPairs_eq_ok (start_paired hsound), pure, Except.pure,
    Except.ok.injEq]
  constructor
  · rintro ⟨hvalid, hsizes, hfits, hsource, _, ⟨hsources, hpairs, hclash, hunique, rfl⟩, rfl⟩
    exact ⟨⟨hvalid, hsource, hsources⟩, hsizes, hfits, hpairs, hclash, hunique, rfl⟩
  · rintro ⟨⟨hvalid, hsource, hsources⟩, hsizes, hfits, hpairs, hclash, hunique, rfl⟩
    exact ⟨hvalid, hsizes, hfits, hsource, _, ⟨hsources, hpairs, hclash, hunique, rfl⟩, rfl⟩

theorem ReplaceCall.Accepted.length_zipped (haccepted : call.Accepted) :
    call.zipped.length = call.replacement.entries.length := by
  have hvalid := haccepted.1
  simp only [FileChunkReplacement.valid, Bool.and_eq_true, decide_eq_true_eq] at hvalid
  rw [ReplaceCall.zipped, List.length_zip, hvalid.1.1.2, min_self]

theorem ReplaceCall.Accepted.map_zipped (haccepted : call.Accepted) {α : Type}
    (f : EmbeddingIndexEntry → α) :
    (call.zipped.map fun pair => f pair.2) = call.replacement.entries.map f := by
  have hvalid := haccepted.1
  simp only [FileChunkReplacement.valid, Bool.and_eq_true, decide_eq_true_eq] at hvalid
  have hsnd : call.zipped.map Prod.snd = call.replacement.entries :=
    List.map_snd_zip hvalid.1.1.2.ge
  conv_rhs => rw [← hsnd, List.map_map]
  rfl

theorem unique_rows_iff (hsound : Sound catalog tables) (haccepted : call.Accepted) :
    UniqueChunks (call.replacement.chunkRows (call.replacement.nextKey tables) call.zipped) ↔
      call.replacement.nextKey tables + call.replacement.entries.length ≤ 2 ^ 63
        ∧ (call.replacement.entries.map (·.sourceId)).Nodup := by
  rw [chunkRows_unique_iff, haccepted.length_zipped, annKeys_nodup_iff hsound.nextKey_lt,
    haccepted.map_zipped]

theorem mem_start_chunks {chunk : ChunkRow} :
    chunk ∈ (replacement.start tables).chunks ↔
      chunk ∈ tables.chunks ∧ replacement.deletes chunk.toSourceRow = false := by
  simp [FileChunkReplacement.start]

/-- A chunk that is kept can clash with the rows of a call only by its key. -/
theorem noClash_iff (hsound : Sound catalog tables) (haccepted : call.Accepted)
    (hroom : call.replacement.nextKey tables + call.replacement.entries.length ≤ 2 ^ 63) :
    NoClash call tables ↔
      ∀ chunk ∈ tables.chunks, chunk.workspaceId = call.replacement.workspaceId →
        call.replacement.deletes chunk.toSourceRow = false →
        chunk.annKey < call.replacement.nextKey tables
          ∨ call.replacement.nextKey tables + call.replacement.entries.length ≤ chunk.annKey := by
  have hkeys : (call.replacement.chunkRows (call.replacement.nextKey tables) call.zipped).map
      (·.annKey) = List.range' (call.replacement.nextKey tables) call.replacement.entries.length := by
    rw [chunkRows_annKeys, haccepted.length_zipped, annKeys_eq_range' hroom]
  constructor
  · intro hclash chunk hchunk hworkspace hkept
    by_contra hbetween
    have hmem : chunk.annKey ∈ (call.replacement.chunkRows (call.replacement.nextKey tables)
        call.zipped).map (·.annKey) := by
      rw [hkeys, List.mem_range'_1]
      omega
    obtain ⟨row, hrow, hkey⟩ := List.mem_map.1 hmem
    obtain ⟨pair, -, hsource⟩ := exists_pair_of_mem_chunkRows hrow
    refine hclash chunk (mem_start_chunks.2 ⟨hchunk, hkept⟩) row hrow (.inl ⟨?_, hkey.symm⟩)
    exact hworkspace.trans (congrArg SourceRow.workspaceId hsource).symm
  · intro hunused chunk hchunk row hrow hclash
    obtain ⟨hmem, hkept⟩ := mem_start_chunks.1 hchunk
    obtain ⟨pair, -, hsource⟩ := exists_pair_of_mem_chunkRows hrow
    rcases hclash with ⟨hworkspace, hkey⟩ | hclash
    · have hbetween : row.annKey ∈ List.range' (call.replacement.nextKey tables)
          call.replacement.entries.length := hkeys ▸ List.mem_map_of_mem hrow
      have hown := hworkspace.trans (congrArg SourceRow.workspaceId hsource)
      have hfar := hunused chunk hmem hown hkept
      rw [List.mem_range'_1] at hbetween
      omega
    · exact kept_source_free hsound haccepted.2.1 hmem hkept pair.2 (hsource ▸ hclash)

/-- **When a call commits**: its numbers and texts fit, its sources are different, and its keys are
there and unused. -/
theorem replace_commits_iff (hsound : Sound catalog tables) (haccepted : call.Accepted) :
    call.replaceFileChunksAndEmbeddings tables = .ok (call.outcome tables) ↔
      (convertible call.replacement.descriptor.modelSizeBytes = true
          ∧ convertible call.replacement.descriptor.maxModelSizeBytes = true)
        ∧ call.replacement.descriptor.fits call.replacement.availability = true
        ∧ (∀ pair ∈ call.zipped, PairFits pair)
        ∧ (call.replacement.entries.map (·.sourceId)).Nodup
        ∧ call.replacement.nextKey tables + call.replacement.entries.length ≤ 2 ^ 63
        ∧ ∀ chunk ∈ tables.chunks, chunk.workspaceId = call.replacement.workspaceId →
            call.replacement.deletes chunk.toSourceRow = false →
            chunk.annKey < call.replacement.nextKey tables
              ∨ call.replacement.nextKey tables + call.replacement.entries.length
                ≤ chunk.annKey := by
  rw [replace_eq_ok hsound, unique_rows_iff hsound haccepted]
  constructor
  · rintro ⟨-, hsizes, hfits, hpairs, hclash, ⟨hroom, hdistinct⟩, -⟩
    exact ⟨hsizes, hfits, hpairs, hdistinct, hroom, (noClash_iff hsound haccepted hroom).1 hclash⟩
  · rintro ⟨hsizes, hfits, hpairs, hdistinct, hroom, hunused⟩
    exact ⟨haccepted, hsizes, hfits, hpairs, (noClash_iff hsound haccepted hroom).2 hunused,
      ⟨hroom, hdistinct⟩, rfl⟩

/-! ## What a call does -/

theorem ends_chunks :
    (call.ends tables).chunks = (call.replacement.start tables).chunks
      ++ call.replacement.chunkRows (call.replacement.nextKey tables) call.zipped :=
  withPairs_chunks

/-- The chunks of a call are all of its file, and stored. -/
theorem chunkRows_stored :
    ∀ row ∈ call.replacement.chunkRows (call.replacement.nextKey tables) call.zipped,
      (row.fileId = call.replacement.fileId && row.status.isStored) = true := by
  intro row hrow
  obtain ⟨pair, -, hsource⟩ := exists_pair_of_mem_chunkRows hrow
  rw [chunkRows_status row hrow, status_isStored, Bool.and_true, decide_eq_true_eq]
  exact congrArg SourceRow.fileId hsource

/-- The file has the chunks of the call, and those of other providers. -/
theorem storedChunks_outcome :
    (call.outcome tables).2.storedChunks call.replacement.fileId
      = (tables.storedChunks call.replacement.fileId).filter
          (fun chunk => !call.replacement.deletes chunk.toSourceRow)
        ++ call.replacement.chunkRows (call.replacement.nextKey tables) call.zipped := by
  have hrows := List.filter_eq_self.2 (@chunkRows_stored catalog call tables)
  change List.filter _ (call.ends tables).chunks = _
  rw [ends_chunks, List.filter_append, hrows, Tables.storedChunks, List.filter_filter,
    FileChunkReplacement.start, List.filter_filter]
  congr 2
  funext chunk
  exact Bool.and_comm _ _

theorem step_of_eq_ok {out : FileChunkReplaceResult × Tables}
    (hcall : call.replaceFileChunksAndEmbeddings tables = .ok out) : call.step tables = out.2 := by
  unfold ReplaceCall.step
  rw [hcall]

/-- The tables stay sound. -/
theorem Sound.step (hsound : Sound catalog tables) : Sound catalog (call.step tables) := by
  unfold ReplaceCall.step
  cases hcall : call.replaceFileChunksAndEmbeddings tables with
  | error e => exact hsound
  | ok out =>
    obtain ⟨haccepted, -, -, -, hclash, hunique, rfl⟩ := (replace_eq_ok hsound).1 hcall
    refine ⟨?_, withPairs_paired (start_paired hsound), fun chunk hchunk => ?_, fun index next h => ?_⟩
    · change UniqueChunks (call.ends tables).chunks
      rw [ends_chunks]
      exact List.pairwise_append.2 ⟨hsound.unique.filter _, hunique, hclash⟩
    · change chunk ∈ (call.ends tables).chunks at hchunk
      rw [ends_chunks] at hchunk
      rcases List.mem_append.1 hchunk with hchunk | hrow
      · exact hsound.owned chunk (mem_start_chunks.1 hchunk).1
      · obtain ⟨pair, -, hsource⟩ := exists_pair_of_mem_chunkRows hrow
        have hown := ReplaceCall.owned haccepted.2.1
        have hfile := congrArg SourceRow.fileId hsource
        have hversion := congrArg SourceRow.fileVersionId hsource
        have hworkspace := congrArg SourceRow.workspaceId hsource
        exact ⟨(congrArg _ hversion).trans (hown.1.trans hfile.symm),
          (congrArg _ hfile).trans (hown.2.trans hworkspace.symm)⟩
    · by_cases hindex : index = call.replacement.indexKey
      · subst hindex
        dsimp only [ReplaceCall.outcome] at h
        rw [Function.update_self] at h
        exact Option.some.inj h ▸ withPairs_nextKey_lt hsound.nextKey_lt
      · dsimp only [ReplaceCall.outcome] at h
        rw [Function.update_of_ne hindex] at h
        exact hsound.keys index next h

/-! ## The promise -/

/-- A key is in a workspace once. -/
theorem UniqueChunks.eq_of_key {chunks : List ChunkRow} (hunique : UniqueChunks chunks)
    {a b : ChunkRow} (ha : a ∈ chunks) (hb : b ∈ chunks) (hworkspace : a.workspaceId = b.workspaceId)
    (hkey : a.annKey = b.annKey) : a = b := by
  have hnodup : (chunks.map fun chunk => (chunk.workspaceId, chunk.annKey)).Nodup := by
    rw [List.Nodup, List.pairwise_map]
    exact hunique.imp fun hclash hsame => hclash (.inl (Prod.mk.inj hsame))
  exact List.inj_on_of_nodup_map hnodup ha hb (Prod.ext hworkspace hkey)

theorem mem_storedChunks {chunk : ChunkRow} {fileId : FileId} :
    chunk ∈ tables.storedChunks fileId ↔
      chunk ∈ tables.chunks ∧ chunk.fileId = fileId ∧ chunk.status.isStored = true := by
  simp [Tables.storedChunks]

theorem mem_removedKeys {key : Nat} :
    key ∈ replacement.removedKeys tables ↔
      ∃ chunk ∈ tables.storedChunks replacement.fileId,
        chunk.providerId = replacement.descriptor.providerId ∧ chunk.annKey = key := by
  simp only [FileChunkReplacement.removedKeys, FileChunkReplacement.deletes, List.mem_map,
    List.mem_filter, mem_storedChunks, Bool.and_eq_true, decide_eq_true_eq]
  constructor
  · rintro ⟨chunk, ⟨hchunk, ⟨hfile, hprovider⟩, hstored⟩, hkey⟩
    exact ⟨chunk, ⟨hchunk, hfile, hstored⟩, hprovider, hkey⟩
  · rintro ⟨chunk, ⟨hchunk, hfile, hstored⟩, hprovider, hkey⟩
    exact ⟨chunk, ⟨hchunk, ⟨hfile, hprovider⟩, hstored⟩, hkey⟩

/-- The chunks of a call are one for each entry. -/
theorem chunkRows_entries (haccepted : call.Accepted) :
    (call.replacement.chunkRows next call.zipped).map (·.toSourceRow)
      = call.replacement.entries.map call.replacement.sourceRow :=
  chunkRows_sources.trans (haccepted.map_zipped _)

/-- The file has one chunk for each entry exactly when it has none of another provider. -/
theorem stored_entries_iff (haccepted : call.Accepted) :
    ((call.outcome tables).2.storedChunks call.replacement.fileId).map (·.toSourceRow)
        = call.replacement.entries.map call.replacement.sourceRow ↔
      ∀ chunk ∈ tables.storedChunks call.replacement.fileId,
        chunk.providerId = call.replacement.descriptor.providerId := by
  rw [storedChunks_outcome, List.map_append, chunkRows_entries haccepted, List.append_left_eq_self,
    List.map_eq_nil_iff, List.filter_eq_nil_iff]
  refine forall₂_congr fun chunk hchunk => ?_
  simp [FileChunkReplacement.deletes, (mem_storedChunks.1 hchunk).2.1]

/-- What is removed are keys of the same index exactly when the chunks of the provider have the
version of the call. -/
theorem removed_keys_iff (hsound : Sound catalog tables) :
    (∀ key ∈ replacement.removedKeys tables, ∃ chunk ∈ tables.storedChunks replacement.fileId,
        replacement.SameModel chunk ∧ chunk.annKey = key) ↔
      ∀ chunk ∈ tables.storedChunks replacement.fileId,
        chunk.providerId = replacement.descriptor.providerId → replacement.SameModel chunk := by
  constructor
  · intro hremoved chunk hchunk hprovider
    obtain ⟨other, hother, hmodel, hkey⟩ :=
      hremoved chunk.annKey (mem_removedKeys.2 ⟨chunk, hchunk, hprovider, rfl⟩)
    obtain ⟨hmem, hfile, -⟩ := mem_storedChunks.1 hchunk
    obtain ⟨hmem', hfile', -⟩ := mem_storedChunks.1 hother
    -- a file is in one workspace, where the key is unique
    have hworkspace : other.workspaceId = chunk.workspaceId := by
      rw [← (hsound.owned other hmem').2, ← (hsound.owned chunk hmem).2, hfile, hfile']
    exact hsound.unique.eq_of_key hmem' hmem hworkspace hkey ▸ hmodel
  · intro hall key hkey
    obtain ⟨chunk, hchunk, hprovider, rfl⟩ := mem_removedKeys.1 hkey
    exact ⟨chunk, hchunk, hall chunk hchunk hprovider, rfl⟩

/-- The keys of a call that commits are new. -/
theorem upserts_annKeys (haccepted : call.Accepted) :
    (call.outcome tables).1.upserts.map (·.annKey)
      = annKeys (call.replacement.nextKey tables) call.replacement.entries.length := by
  rw [← haccepted.length_zipped]
  exact withPairs_upserts

/-- **One call**: a call that is accepted keeps the promise exactly when it finds what it needs. -/
theorem reindexed_iff (hsound : Sound catalog tables) (haccepted : call.Accepted) :
    Reindexed call tables ↔ Replaceable call tables := by
  constructor
  · rintro ⟨_, _, hcall, -, -, -, hremoved, hentries⟩
    have hsame := ((replace_eq_ok hsound).1 hcall).2.2.2.2.2.2
    obtain ⟨hsizes, hfits, hpairs, hdistinct, hroom, hunused⟩ :=
      (replace_commits_iff hsound haccepted).1 (hsame ▸ hcall)
    obtain ⟨rfl, rfl⟩ := Prod.mk.inj hsame
    have hproviders := (stored_entries_iff haccepted).1 hentries
    exact ⟨hsizes, hfits, hpairs, hdistinct, hroom, hunused, fun chunk hchunk =>
      (removed_keys_iff hsound).1 hremoved chunk hchunk (hproviders chunk hchunk)⟩
  · intro h
    have hcall := (replace_commits_iff hsound haccepted).2
      ⟨h.sizes, h.descriptor, h.pairs, h.distinct, h.room, h.unused⟩
    have hstep := step_of_eq_ok hcall
    refine ⟨(call.outcome tables).1, (call.outcome tables).2, hcall, ?_,
      fun key hkey chunk hchunk hworkspace hsame => ?_, hstep ▸ hsound.step.unique, ?_,
      (stored_entries_iff haccepted).2 fun chunk hchunk => (h.sameModel chunk hchunk).1⟩
    · rw [upserts_annKeys haccepted]
      exact (annKeys_nodup_iff hsound.nextKey_lt).2 h.room
    · rw [upserts_annKeys haccepted, annKeys_eq_range' h.room, List.mem_range'_1] at hkey
      by_contra hkept
      have hfar := h.unused chunk hchunk hworkspace (Bool.not_eq_true _ ▸ hkept)
      omega
    · exact (removed_keys_iff hsound).2 fun chunk hchunk _ => h.sameModel chunk hchunk

theorem tablesAfter_sound (calls : List (ReplaceCall catalog)) :
    Sound catalog (tablesAfter calls) :=
  Run.invariant (fun _ _ hsound => hsound.step) calls Sound.empty

/-- **Runs**: all accepted calls of a run keep the promise exactly when each of them finds what it
needs in the tables as they are then. -/
theorem run_reindexed_iff (calls : List (ReplaceCall catalog)) :
    History.Each (fun before call => call.Accepted → Reindexed call (tablesAfter before)) calls ↔
      History.Each (fun before call => call.Accepted → Replaceable call (tablesAfter before))
        calls :=
  ⟨fun h => h.imp fun before _ hpromise haccepted =>
      (reindexed_iff (tablesAfter_sound before) haccepted).1 (hpromise haccepted),
    fun h => h.imp fun before _ hcondition haccepted =>
      (reindexed_iff (tablesAfter_sound before) haccepted).2 (hcondition haccepted)⟩

/-! ## Two files and a new version -/

/-- One workspace, in which a version is named as its file. -/
def sampleCatalog : Catalog where
  workspaceOf := fun _ => 0
  fileOf := fun version => version.length

/-- A version of the model indexes a file with one chunk. -/
def sampleCall (version : String) (fileId : FileId) (fileVersionId : String)
    (hfile : sampleCatalog.fileOf fileVersionId = fileId) : ReplaceCall sampleCatalog where
  replacement :=
    { workspaceId := 0
      fileId
      fileVersionId
      semanticAnalysisId := "a"
      descriptor :=
        { providerId := "e5", version, dimensions := 1, localOnly := true, productionReady := false
          modelSizeBytes := 0, maxModelSizeBytes := 1 }
      availability := .availableDevelopment
      chunks :=
        [{ sourceId := "chunk-1", startOffset := none, endOffset := none, pageNumber := none
           sheetOrSlide := none, truncatedFile := false }]
      entries :=
        [{ sourceId := "chunk-1", sourceKind := "text_chunk", startOffset := none
           endOffset := none, vector := [1] }] }
  documents := [⟨0, fileId, fileVersionId, rfl, hfile⟩]
  analyses := [{ id := "a", fileId, fileVersionId, isCurrent := true }]

/-- The first version indexes two files, the second one the last of them. -/
def sampleCalls : List (ReplaceCall sampleCatalog) :=
  [sampleCall "1" 1 "v" rfl, sampleCall "1" 2 "vv" rfl, sampleCall "2" 2 "vv" rfl]

/-- The key of the new version is still the key of the other file. -/
theorem reindexing_fails_after_upgrade :
    ¬∀ (catalog : Catalog) (calls : List (ReplaceCall catalog)),
      History.Each (fun before call => call.Accepted → Reindexed call (tablesAfter before))
        calls := by
  intro h
  obtain ⟨result, after, hcall, -⟩ :=
    h sampleCatalog sampleCalls (sampleCalls.take 2) (sampleCall "2" 2 "vv" rfl) [] rfl (by decide)
  have hfails : ((sampleCall "2" 2 "vv" rfl).replaceFileChunksAndEmbeddings
      (tablesAfter (sampleCalls.take 2))).isOk = false := by decide
  exact nomatch hfails.symm.trans (congrArg Except.isOk hcall)

end Zemo.Search.Upgrades
