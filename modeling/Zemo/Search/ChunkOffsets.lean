import Zemo.Search.Windows

set_option autoImplicit false

/-! # The offsets of chunks

The chunks are the first windows of all segments, in order. Their offsets are places in the text
that the segments make together: what was dropped between segments is not counted, and the offsets
are right in the document as far as it reads the same there. -/

namespace Zemo.Search.Chunking

open Texts

variable {policy : ChunkingPolicy} {count : Text → Nat} {segments : List TextSegment}
  {document : EmbeddingDocument}

/-! ## The windows of all segments -/

/-- A window of a segment, with the length of the segments before. -/
structure PlacedWindow where
  segment : TextSegment
  cursor : Nat
  window : TextWindow

namespace PlacedWindow

variable (placed : PlacedWindow)

def start : Nat := placed.cursor + placed.window.startChar

def stop : Nat := placed.cursor + placed.window.endChar

end PlacedWindow

/-- The windows of all segments. -/
def placedWindows (policy : ChunkingPolicy) (count : Text → Nat) :
    List TextSegment → Nat → List PlacedWindow
  | [], _ => []
  | segment :: rest, cursor =>
      (tokenizeWindows policy count segment.text).map ({ segment, cursor, window := · })
        ++ placedWindows policy count rest (cursor + segment.text.length)

/-- The chunk of a window. -/
def PlacedWindow.chunk (placed : PlacedWindow) (sequence : Nat) : SemanticChunk where
  sourceId := "text:" ++ String.ofList (Nat.toDigits 10 (sequence - 1))
  sourceKind := "text_chunk"
  sequenceIndex := sequence
  text := placed.window.text
  startOffset := some placed.start
  endOffset := some placed.stop
  pageNumber := placed.segment.pageNumber
  sheetOrSlide := placed.segment.sheetOrSlide
  truncatedFile := false

/-! ## The loops -/

def ChunkState.pushPlaced (state : ChunkState) (placed : PlacedWindow) : ChunkState :=
  state.push placed.segment placed.cursor placed.window

@[simp] theorem ChunkState.pushPlaced_textChunks (state : ChunkState) (placed : PlacedWindow) :
    (state.pushPlaced placed).textChunks = state.textChunks + 1 := rfl

@[simp] theorem ChunkState.pushPlaced_charCursor (state : ChunkState) (placed : PlacedWindow) :
    (state.pushPlaced placed).charCursor = state.charCursor := rfl

theorem foldl_pushPlaced_textChunks (windows : List PlacedWindow) (state : ChunkState) :
    (windows.foldl ChunkState.pushPlaced state).textChunks
      = state.textChunks + windows.length := by
  induction windows generalizing state with
  | nil => rfl
  | cons placed rest ih =>
    rw [List.foldl_cons, ih, ChunkState.pushPlaced_textChunks, List.length_cons]
    omega

theorem foldl_pushPlaced_charCursor (windows : List PlacedWindow) (state : ChunkState) :
    (windows.foldl ChunkState.pushPlaced state).charCursor = state.charCursor := by
  induction windows generalizing state with
  | nil => rfl
  | cons placed rest ih => rw [List.foldl_cons, ih, ChunkState.pushPlaced_charCursor]

theorem foldl_pushPlaced_sequence (windows : List PlacedWindow) (state : ChunkState)
    (hsequence : state.sequence ≤ u32Max) :
    (windows.foldl ChunkState.pushPlaced state).sequence
      = min (state.sequence + windows.length) u32Max := by
  induction windows generalizing state with
  | nil => exact (Nat.min_eq_left hsequence).symm
  | cons placed rest ih =>
    rw [List.foldl_cons, ih _ (Nat.min_le_right _ _), List.length_cons]
    change min (min (state.sequence + 1) u32Max + rest.length) u32Max = _
    omega

/-- The chunks are numbered on, up to the greatest number. -/
def numbered (first : Nat) (windows : List PlacedWindow) : List SemanticChunk :=
  windows.mapIdx fun index placed => placed.chunk (min (first + index) u32Max)

theorem numbered_append (first : Nat) (a b : List PlacedWindow) :
    numbered first (a ++ b) = numbered first a ++ numbered (min (first + a.length) u32Max) b := by
  unfold numbered
  rw [List.mapIdx_append]
  congr 2
  funext index placed
  congr 1
  omega

theorem foldl_pushPlaced_chunks (windows : List PlacedWindow) (state : ChunkState)
    (hsequence : state.sequence ≤ u32Max) :
    (windows.foldl ChunkState.pushPlaced state).chunks
      = state.chunks ++ numbered state.sequence windows := by
  induction windows generalizing state with
  | nil => simp [numbered]
  | cons placed rest ih =>
    rw [List.foldl_cons, ih _ (Nat.min_le_right _ _), ← List.singleton_append (l := rest),
      numbered_append, ← List.append_assoc]
    unfold numbered
    rw [List.mapIdx_singleton, Nat.add_zero, Nat.min_eq_left hsequence]
    rfl

/-- The loop over the windows of a segment takes as many as there is room for. -/
theorem pushWindows_eq (segment : TextSegment) (cursor : Nat) (windows : List TextWindow)
    (state : ChunkState) (hcap : state.textChunks ≤ policy.maxTextChunks) :
    pushWindows policy segment cursor windows state
      = { ((windows.map ({ segment, cursor, window := · })).take
            (policy.maxTextChunks - state.textChunks)).foldl ChunkState.pushPlaced state with
          truncated := state.truncated
            || decide (policy.maxTextChunks - state.textChunks < windows.length) } := by
  induction windows generalizing state with
  | nil => simp [pushWindows]
  | cons window rest ih =>
    rw [pushWindows]
    by_cases hfull : policy.maxTextChunks ≤ state.textChunks
    · rw [if_pos hfull, Nat.sub_eq_zero_of_le hfull]
      simp
    · have hroom : policy.maxTextChunks - state.textChunks
          = policy.maxTextChunks - (state.textChunks + 1) + 1 := by omega
      rw [if_neg hfull, ih _ (by change state.textChunks + 1 ≤ _; omega), hroom, List.map_cons,
        List.take_succ_cons, List.foldl_cons, List.length_cons,
        decide_eq_decide.2 (@Nat.succ_lt_succ_iff (policy.maxTextChunks - (state.textChunks + 1))
          rest.length)]
      rfl

/-- The loop over the segments takes as many windows as there is room for. -/
theorem pushSegments_chunks (segments : List TextSegment) (state : ChunkState)
    (hcap : state.textChunks ≤ policy.maxTextChunks) (hsequence : state.sequence ≤ u32Max) :
    (pushSegments policy count segments state).chunks
      = state.chunks ++ numbered state.sequence
        ((placedWindows policy count segments state.charCursor).take
          (policy.maxTextChunks - state.textChunks)) := by
  induction segments generalizing state with
  | nil => simp [pushSegments, placedWindows, numbered]
  | cons segment rest ih =>
    rw [pushSegments]
    by_cases hfull : policy.maxTextChunks ≤ state.textChunks
    · rw [if_pos hfull, Nat.sub_eq_zero_of_le hfull]
      simp [numbered]
    · obtain ⟨moved, hmoved⟩ : ∃ moved : ChunkState,
          moved = { state with charCursor := state.charCursor + segment.text.length } := ⟨_, rfl⟩
      have htext : moved.textChunks = state.textChunks := by rw [hmoved]
      have hmoved' : moved.sequence ≤ u32Max := by rwa [hmoved]
      rw [if_neg hfull, ← hmoved, pushWindows_eq _ _ _ _ (by omega), ih]
      · dsimp only
        rw [foldl_pushPlaced_chunks _ _ hmoved', foldl_pushPlaced_sequence _ _ hmoved',
          foldl_pushPlaced_charCursor, foldl_pushPlaced_textChunks, List.append_assoc,
          ← numbered_append, placedWindows, List.take_append, htext, hmoved]
        congr 3
        rw [List.length_take, List.length_map]
        congr 1
        omega
      · dsimp only
        rw [foldl_pushPlaced_textChunks, List.length_take]
        omega
      · dsimp only
        rw [foldl_pushPlaced_sequence _ _ hmoved']
        exact Nat.min_le_right _ _

/-- The windows that become chunks. -/
def keptWindows (policy : ChunkingPolicy) (count : Text → Nat) (text : Text) :
    List PlacedWindow :=
  (placedWindows policy count (structureAwareSegments text) 0).take policy.maxTextChunks

/-- The state after all segments. -/
def finalState (policy : ChunkingPolicy) (count : Text → Nat) (document : EmbeddingDocument) :
    ChunkState :=
  pushSegments policy count (structureAwareSegments document.extractedText)
    { chunks := metadataChunk count policy document }

/-- The metadata comes first, then the first windows as chunks. -/
theorem finalState_chunks (policy : ChunkingPolicy) (count : Text → Nat)
    (document : EmbeddingDocument) :
    (finalState policy count document).chunks = metadataChunk count policy document
      ++ numbered 1 (keptWindows policy count document.extractedText) :=
  pushSegments_chunks _ _ (Nat.zero_le _) (show 1 ≤ u32Max by decide)

theorem chunkEmbeddingDocument_eq (policy : ChunkingPolicy) (count : Text → Nat)
    (document : EmbeddingDocument) :
    chunkEmbeddingDocument policy count document
      = (metadataChunk count policy document
          ++ numbered 1 (keptWindows policy count document.extractedText)).map
        ({ · with truncatedFile := (finalState policy count document).truncated }) := by
  have hplain : ∀ chunk ∈ (finalState policy count document).chunks,
      chunk.truncatedFile = false := by
    intro chunk hchunk
    rw [finalState_chunks, List.mem_append] at hchunk
    rcases hchunk with hchunk | hchunk
    · unfold metadataChunk at hchunk
      dsimp only at hchunk
      split at hchunk
      · cases hchunk
      · obtain rfl := List.mem_singleton.1 hchunk
        rfl
    · obtain ⟨index, hindex, rfl⟩ := List.mem_mapIdx.1 hchunk
      rfl
  rw [← finalState_chunks]
  change (if (finalState policy count document).truncated then _ else _) = _
  cases (finalState policy count document).truncated with
  | true => rfl
  | false =>
    rw [if_neg Bool.noConfusion]
    refine (List.map_id _).symm.trans (List.map_congr_left fun chunk hchunk => ?_)
    rw [id, ← hplain chunk hchunk]

/-! ## Places in the joined text -/

theorem slice_append_left {front back : Text} {start stop : Nat} (hstop : stop ≤ front.length) :
    slice (front ++ back) start stop = slice front start stop := by
  unfold slice
  rcases Nat.le_total start stop with hle | hle
  · rw [List.drop_append_of_le_length (by omega), List.take_append_of_le_length]
    rw [List.length_drop]
    omega
  · rw [Nat.sub_eq_zero_of_le hle, List.take_zero, List.take_zero]

theorem slice_append_right (front back : Text) (start stop : Nat) :
    slice (front ++ back) (front.length + start) (front.length + stop) = slice back start stop := by
  unfold slice
  rw [List.drop_append, List.drop_of_length_le (Nat.le_add_right _ _), List.nil_append,
    Nat.add_sub_cancel_left, Nat.add_sub_add_left]

/-- A window's text is what the joined text has at its place. -/
theorem placedWindows_text (segments : List TextSegment) (before : Text) :
    ∀ placed ∈ placedWindows policy count segments before.length,
      placed.start ≤ placed.stop ∧ placed.stop ≤ (before ++ joinedText segments).length
        ∧ placed.window.text
          = trimText (slice (before ++ joinedText segments) placed.start placed.stop) := by
  induction segments generalizing before with
  | nil => exact List.forall_mem_nil _
  | cons segment rest ih =>
    intro placed hplaced
    rw [placedWindows, List.mem_append] at hplaced
    have hjoined : joinedText (segment :: rest) = segment.text ++ joinedText rest :=
      List.flatMap_cons
    rw [hjoined, ← List.append_assoc]
    rcases hplaced with hplaced | hplaced
    · obtain ⟨window, hwindow, rfl⟩ := List.mem_map.1 hplaced
      obtain ⟨-, hle, hend, htext⟩ := tokenizeWindows_cut window hwindow
      refine ⟨Nat.add_le_add_left hle _, ?_, ?_⟩
      · rw [List.length_append, List.length_append]
        change before.length + window.endChar ≤ _
        omega
      · rw [slice_append_left]
        · exact htext.trans (congrArg trimText (slice_append_right ..).symm)
        · rw [List.length_append]
          exact Nat.add_le_add_left hend _
    · rw [← List.length_append] at hplaced
      exact ih (before ++ segment.text) placed hplaced

/-- The chunks that are windows of the text. -/
def textChunks (chunks : List SemanticChunk) : List SemanticChunk :=
  chunks.filter (·.sourceKind = "text_chunk")

theorem textChunks_eq (policy : ChunkingPolicy) (count : Text → Nat)
    (document : EmbeddingDocument) :
    textChunks (chunkEmbeddingDocument policy count document)
      = (numbered 1 (keptWindows policy count document.extractedText)).map
        ({ · with truncatedFile := (finalState policy count document).truncated }) := by
  have hmetadata : ∀ chunk ∈ metadataChunk count policy document,
      chunk.sourceKind ≠ "text_chunk" := by
    intro chunk hchunk
    unfold metadataChunk at hchunk
    dsimp only at hchunk
    split at hchunk
    · cases hchunk
    · obtain rfl := List.mem_singleton.1 hchunk
      exact (by decide : "semantic_summary" ≠ "text_chunk")
  have htext : ∀ chunk ∈ numbered 1 (keptWindows policy count document.extractedText),
      chunk.sourceKind = "text_chunk" := by
    intro chunk hchunk
    obtain ⟨index, hindex, rfl⟩ := List.mem_mapIdx.1 hchunk
    rfl
  rw [chunkEmbeddingDocument_eq, textChunks, List.filter_map, List.filter_append,
    List.filter_eq_nil_iff.2 (fun chunk hchunk => by simpa using hmetadata chunk hchunk),
    List.nil_append,
    List.filter_eq_self.2 (fun chunk hchunk => by simpa using htext chunk hchunk)]

/-- A chunk is made from a window. -/
structure SemanticChunk.MadeFrom (chunk : SemanticChunk) (placed : PlacedWindow) : Prop where
  startOffset : chunk.startOffset = some placed.start
  endOffset : chunk.endOffset = some placed.stop
  text : chunk.text = placed.window.text

theorem textChunks_made (policy : ChunkingPolicy) (count : Text → Nat)
    (document : EmbeddingDocument) :
    List.Forall₂ SemanticChunk.MadeFrom
      (textChunks (chunkEmbeddingDocument policy count document))
      (keptWindows policy count document.extractedText) := by
  rw [textChunks_eq, List.forall₂_map_left_iff, numbered, List.forall₂_iff_get]
  refine ⟨List.length_mapIdx, fun index _ _ => ?_⟩
  rw [List.get_eq_getElem, List.getElem_mapIdx]
  exact ⟨rfl, rfl, rfl⟩

theorem exists_window {chunk : SemanticChunk} (hchunk : chunk ∈ textChunks
    (chunkEmbeddingDocument policy count document)) :
    ∃ placed ∈ keptWindows policy count document.extractedText, chunk.MadeFrom placed := by
  obtain ⟨⟨index, hlt⟩, rfl⟩ := List.mem_iff_get.1 hchunk
  obtain ⟨hlength, hmade⟩ := List.forall₂_iff_get.1 (textChunks_made policy count document)
  exact ⟨_, List.get_mem _ ⟨index, hlength ▸ hlt⟩, hmade index hlt (hlength ▸ hlt)⟩

theorem exists_chunk {placed : PlacedWindow}
    (hplaced : placed ∈ keptWindows policy count document.extractedText) :
    ∃ chunk ∈ textChunks (chunkEmbeddingDocument policy count document),
      chunk.MadeFrom placed := by
  obtain ⟨⟨index, hlt⟩, rfl⟩ := List.mem_iff_get.1 hplaced
  obtain ⟨hlength, hmade⟩ := List.forall₂_iff_get.1 (textChunks_made policy count document)
  exact ⟨_, List.get_mem _ ⟨index, hlength ▸ hlt⟩, hmade index (hlength ▸ hlt) hlt⟩

/-! ## Offsets -/

/-- The offsets of a chunk are places in the text, and what the text has between them is, trimmed,
the chunk. -/
def SemanticChunk.LocatedIn (chunk : SemanticChunk) (text : Text) : Prop :=
  ∃ start stop, chunk.startOffset = some start ∧ chunk.endOffset = some stop ∧ start ≤ stop
    ∧ stop ≤ text.length ∧ trimText (slice text start stop) = chunk.text

/-- The text reads the same there, up to whitespace at the ends, as the segments do when they are
put together. -/
def ReadsAsJoined (text : Text) (placed : PlacedWindow) : Prop :=
  trimText (slice text placed.start placed.stop)
    = trimText (slice (joinedText (structureAwareSegments text)) placed.start placed.stop)

theorem keptWindows_text (policy : ChunkingPolicy) (count : Text → Nat) (text : Text) :
    ∀ placed ∈ keptWindows policy count text,
      placed.start ≤ placed.stop
        ∧ placed.stop ≤ (joinedText (structureAwareSegments text)).length
        ∧ placed.window.text
          = trimText (slice (joinedText (structureAwareSegments text)) placed.start placed.stop) :=
  fun placed hplaced => placedWindows_text _ [] placed (List.mem_of_mem_take hplaced)

/-- Two paragraphs. -/
private def twoParagraphs : EmbeddingDocument where
  filename := ['a']
  semanticFields := []
  identities := []
  extractedText := "ab\n\ncd".toList

end Zemo.Search.Chunking
