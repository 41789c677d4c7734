import Zemo.Search.ChunkOffsets

set_option autoImplicit false

/-! # Chunking loses no text

Every visible character of a document, but for the headers of sheets, is in the window of a chunk,
unless there are more windows than chunks. The hard limit of a chunk is kept by a policy whose
target is not above it; the mark of a truncated file is right unless the windows left out have
nothing that the others have not. -/

namespace Zemo.Search.Chunking

open Texts

variable {policy : ChunkingPolicy} {count : Text → Nat} {segments : List TextSegment}
  {document : EmbeddingDocument}

/-! ## The mark -/

theorem pushSegments_truncated (segments : List TextSegment) (state : ChunkState)
    (hsegments : ∀ segment ∈ segments, tokenizeWindows policy count segment.text ≠ [])
    (hcap : state.textChunks ≤ policy.maxTextChunks) :
    (pushSegments policy count segments state).truncated
      = (state.truncated || decide (policy.maxTextChunks - state.textChunks
        < (placedWindows policy count segments state.charCursor).length)) := by
  induction segments generalizing state with
  | nil => simp [pushSegments, placedWindows]
  | cons segment rest ih =>
    obtain ⟨hsegment, hrest⟩ := List.forall_mem_cons.1 hsegments
    have hwindows := List.length_pos_of_ne_nil hsegment
    rw [pushSegments, placedWindows, List.length_append, List.length_map]
    by_cases hfull : policy.maxTextChunks ≤ state.textChunks
    · rw [if_pos hfull, decide_eq_true (by omega), Bool.or_true]
    · obtain ⟨moved, hmoved⟩ : ∃ moved : ChunkState,
          moved = { state with charCursor := state.charCursor + segment.text.length } := ⟨_, rfl⟩
      have htext : moved.textChunks = state.textChunks := by rw [hmoved]
      rw [if_neg hfull, ← hmoved, pushWindows_eq _ _ _ _ (by omega), ih _ hrest]
      · dsimp only
        rw [foldl_pushPlaced_textChunks, foldl_pushPlaced_charCursor, List.length_take,
          List.length_map, htext, hmoved, Bool.or_assoc]
        congr 1
        rw [← Bool.decide_or]
        refine decide_eq_decide.2 ?_
        dsimp only
        omega
      · dsimp only
        rw [foldl_pushPlaced_textChunks, List.length_take]
        omega

/-! ## Coverage -/

/-- A place of the joined text is in a window. -/
def PlacedWindow.Has (placed : PlacedWindow) (i : Nat) : Prop := placed.start ≤ i ∧ i < placed.stop

theorem getElem?_joined {before : Text} {segment : TextSegment} {i : Nat}
    (hge : before.length ≤ i) (hlt : i < before.length + segment.text.length) :
    (before ++ joinedText (segment :: segments))[i]? = segment.text[i - before.length]? := by
  rw [List.getElem?_append_right hge, joinedText, List.flatMap_cons,
    List.getElem?_append_left (by omega)]

theorem joined_assoc (before : Text) (segment : TextSegment) :
    before ++ joinedText (segment :: segments) = (before ++ segment.text) ++ joinedText segments := by
  rw [joinedText, List.flatMap_cons, ← joinedText, List.append_assoc]

/-- A visible place that is in the windows of its segment. -/
theorem has_of_covers {before : Text} {segment : TextSegment} {windows : List TextWindow}
    {stop i : Nat} {c : Char} (hcovers : Covers segment.text windows 0 stop)
    (hstop : stop ≤ segment.text.length) (hge : before.length ≤ i) (hlt : i < before.length + stop)
    (hi : (before ++ joinedText (segment :: segments))[i]? = some c)
    (hc : isWhiteSpace c = false) :
    ∃ placed ∈ windows.map ({ segment, cursor := before.length, window := · }),
      PlacedWindow.Has placed i := by
  rw [getElem?_joined hge (by omega)] at hi
  obtain ⟨window, hwindow, hstart, hend⟩ :=
    hcovers (i - before.length) c (Nat.zero_le _) (by omega) hi hc
  refine ⟨_, List.mem_map_of_mem hwindow, ?_, ?_⟩
  · change before.length + window.startChar ≤ i
    omega
  · change i < before.length + window.endChar
    omega

theorem placedWindows_covers (htarget : 1 ≤ policy.targetTokens) (segments : List TextSegment)
    (before : Text) {i : Nat} {c : Char} (hge : before.length ≤ i)
    (hi : (before ++ joinedText segments)[i]? = some c) (hc : isWhiteSpace c = false) :
    ∃ placed ∈ placedWindows policy count segments before.length, placed.Has i := by
  induction segments generalizing before with
  | nil =>
    rw [joinedText, List.flatMap_nil, List.append_nil, List.getElem?_eq_none hge] at hi
    cases hi
  | cons segment rest ih =>
    rw [placedWindows]
    by_cases hlt : i < before.length + segment.text.length
    · obtain ⟨placed, hplaced, hhas⟩ :=
        has_of_covers (tokenizeWindows_covers htarget) le_rfl hge hlt hi hc
      exact ⟨placed, List.mem_append_left _ hplaced, hhas⟩
    · rw [joined_assoc] at hi
      obtain ⟨placed, hplaced, hhas⟩ := ih (before ++ segment.text)
        (by rw [List.length_append]; omega) hi
      rw [List.length_append] at hplaced
      exact ⟨placed, List.mem_append_right _ hplaced, hhas⟩

/-- The first windows have everything visible that is before the end of one of them. -/
theorem placedWindows_take_covers (htarget : 1 ≤ policy.targetTokens)
    (segments : List TextSegment) (before : Text) {number : Nat} {last : PlacedWindow}
    (hlast : last ∈ (placedWindows policy count segments before.length).take number) {i : Nat}
    {c : Char} (hge : before.length ≤ i) (hlt : i < last.stop)
    (hi : (before ++ joinedText segments)[i]? = some c) (hc : isWhiteSpace c = false) :
    ∃ placed ∈ (placedWindows policy count segments before.length).take number,
      placed.Has i := by
  induction segments generalizing before number with
  | nil =>
    rw [placedWindows, List.take_nil] at hlast
    cases hlast
  | cons segment rest ih =>
    rw [placedWindows, List.take_append, List.length_map, List.mem_append] at hlast
    rw [placedWindows, List.take_append, List.length_map]
    rcases hlast with hlast | hlast
    · rw [← List.map_take] at hlast ⊢
      obtain ⟨window, hwindow, rfl⟩ := List.mem_map.1 hlast
      have hcut := (tokenizeWindows_cut window (List.mem_of_mem_take hwindow)).2
      obtain ⟨placed, hplaced, hhas⟩ := has_of_covers
        (tokenizeWindows_take_covers htarget window hwindow) hcut.end_le hge hlt hi hc
      exact ⟨placed, List.mem_append_left _ hplaced, hhas⟩
    · have hroom : (tokenizeWindows policy count segment.text).length ≤ number := by
        by_contra hmore
        rw [Nat.sub_eq_zero_of_le (by omega), List.take_zero] at hlast
        cases hlast
      by_cases hlt' : i < before.length + segment.text.length
      · obtain ⟨placed, hplaced, hhas⟩ :=
          has_of_covers (tokenizeWindows_covers htarget) le_rfl hge hlt' hi hc
        rw [List.take_of_length_le (by rw [List.length_map]; exact hroom)]
        exact ⟨placed, List.mem_append_left _ hplaced, hhas⟩
      · rw [joined_assoc] at hi
        rw [← List.length_append] at hlast ⊢
        obtain ⟨placed, hplaced, hhas⟩ := ih (before ++ segment.text) hlast
          (by rw [List.length_append]; omega) hi
        exact ⟨placed, List.mem_append_right _ hplaced, hhas⟩

/-- The windows come in the order of the text. -/
theorem placedWindows_ordered (segments : List TextSegment) (cursor : Nat) :
    (placedWindows policy count segments cursor).Pairwise (fun a b => a.start < b.start)
      ∧ ∀ placed ∈ placedWindows policy count segments cursor, cursor ≤ placed.start := by
  induction segments generalizing cursor with
  | nil => exact ⟨List.Pairwise.nil, List.forall_mem_nil _⟩
  | cons segment rest ih =>
    obtain ⟨hordered, hge⟩ := ih (cursor + segment.text.length)
    rw [placedWindows, List.pairwise_append, List.pairwise_map]
    refine ⟨⟨tokenizeWindows_ordered.imp fun h => Nat.add_lt_add_left h _, hordered, ?_⟩, ?_⟩
    · intro a ha b hb
      obtain ⟨window, hwindow, rfl⟩ := List.mem_map.1 ha
      have hlt := (tokenizeWindows_cut window hwindow).1
      have := hge b hb
      change cursor + window.startChar < b.start
      omega
    · intro placed hplaced
      rcases List.mem_append.1 hplaced with hplaced | hplaced
      · obtain ⟨window, hwindow, rfl⟩ := List.mem_map.1 hplaced
        exact Nat.le_add_right _ _
      · exact (Nat.le_add_right _ _).trans (hge placed hplaced)

theorem mem_placedWindows {segments : List TextSegment} {cursor : Nat} {placed : PlacedWindow}
    (h : placed ∈ placedWindows policy count segments cursor) :
    placed.window ∈ tokenizeWindows policy count placed.segment.text := by
  induction segments generalizing cursor with
  | nil => cases h
  | cons segment rest ih =>
    rw [placedWindows, List.mem_append] at h
    rcases h with h | h
    · obtain ⟨window, hwindow, rfl⟩ := List.mem_map.1 h
      exact hwindow
    · exact ih h

/-! ## Keeping the text -/

/-- A visible character of the segments is at that place when they are put together. -/
def VisibleAt (text : Text) (i : Nat) : Prop :=
  ∃ c, (joinedText (structureAwareSegments text))[i]? = some c ∧ isWhiteSpace c = false

/-- The place is in the window of a chunk. -/
def SemanticChunk.Has (chunk : SemanticChunk) (i : Nat) : Prop :=
  ∃ start stop, chunk.startOffset = some start ∧ chunk.endOffset = some stop ∧ start ≤ i ∧ i < stop

/-- Some visible character is in no chunk. -/
def LeavesOutText (text : Text) (chunks : List SemanticChunk) : Prop :=
  ∃ i, VisibleAt text i ∧ ∀ chunk ∈ textChunks chunks, ¬ chunk.Has i

/-- The chunks of a document under a policy keep its text, and say so. -/
structure KeepsText (policy : ChunkingPolicy) (text : Text) (chunks : List SemanticChunk) :
    Prop where
  /-- The segments put together have what is visible, but the headers of sheets. -/
  visible_eq : visible (joinedText (structureAwareSegments text)) = visible (bodyText text)
  cut : ∀ chunk ∈ textChunks chunks, ∃ start stop, chunk.startOffset = some start
    ∧ chunk.endOffset = some stop
    ∧ chunk.text = trimText (slice (joinedText (structureAwareSegments text)) start stop)
  ordered : (textChunks chunks).Pairwise fun a b => ∃ first second, a.startOffset = some first
    ∧ b.startOffset = some second ∧ first < second
  numbered : (textChunks chunks).map (·.sequenceIndex) = List.range' 1 (textChunks chunks).length
  bounded : (textChunks chunks).length ≤ policy.maxTextChunks
  fits : ∀ chunk ∈ textChunks chunks, policy.countTokens chunk.text ≤ policy.maxTokens
  complete : (∀ chunk ∈ chunks, chunk.truncatedFile = false) → ¬ LeavesOutText text chunks
  marked : (∀ chunk ∈ chunks, chunk.truncatedFile = true) ↔ LeavesOutText text chunks

/-- The window has no more than the hard limit: a whole segment that fits the target must fit it,
trimmed, and a window of a longer segment does unless the policy is inconsistent. -/
def PlacedWindow.Fits (policy : ChunkingPolicy) (placed : PlacedWindow) : Prop :=
  (placed.segment.text.length ≤ policy.targetTokens * policy.charsPerToken →
      (trimText placed.segment.text).length ≤ policy.maxTokens * policy.charsPerToken)
    ∧ (policy.targetTokens * policy.charsPerToken < placed.segment.text.length →
      policy.Consistent ∨ placed.window.text.length ≤ policy.maxTokens * policy.charsPerToken)

/-- If there are more windows than chunks, something visible comes after all windows that are
kept. -/
def LosesMore (policy : ChunkingPolicy) (text : Text) : Prop :=
  policy.maxTextChunks
      < (placedWindows policy policy.countTokens (structureAwareSegments text) 0).length →
    ∃ i, VisibleAt text i ∧ ∀ placed ∈ keptWindows policy policy.countTokens text, placed.stop ≤ i

theorem placed_fits_iff (htarget : 1 ≤ policy.targetTokens) {placed : PlacedWindow}
    (h : placed.window ∈ tokenizeWindows policy policy.countTokens placed.segment.text) :
    placed.window.text.length ≤ policy.maxTokens * policy.charsPerToken ↔ placed.Fits policy := by
  unfold PlacedWindow.Fits
  by_cases hshort : placed.segment.text.length ≤ policy.targetTokens * policy.charsPerToken
  · have hwindow : placed.window.text = trimText placed.segment.text := by
      unfold tokenizeWindows at h
      split at h
      · cases h
      · rw [if_pos (countTokens_le_iff.2 hshort)] at h
        rw [List.mem_singleton.1 h]
    rw [hwindow]
    exact ⟨fun hfits => ⟨fun _ => hfits, fun hlong => absurd hlong (by omega)⟩,
      fun hfits => hfits.1 hshort⟩
  · have hlong : placed.window
        ∈ windowsFrom policy policy.countTokens placed.segment.text 0 := by
      unfold tokenizeWindows at h
      split at h
      · cases h
      · rwa [if_neg (mt countTokens_le_iff.1 hshort)] at h
    constructor
    · exact fun hfits => ⟨fun hle => absurd hle hshort, fun _ => .inr hfits⟩
    · intro hfits
      rcases hfits.2 (by omega) with hpolicy | hfits
      · exact windowsFrom_fits hpolicy htarget _ hlong
      · exact hfits

/-! ## The chunks of a document -/

theorem metadataChunk_ne_nil (count : Text → Nat) (policy : ChunkingPolicy)
    (document : EmbeddingDocument) : metadataChunk count policy document ≠ [] := by
  have hvisible : isBlank (buildMetadataSummary document) = false := by
    rw [isBlank_eq_false_iff]
    unfold buildMetadataSummary
    rw [visible_append, visible_append, visible_append, List.append_assoc, List.append_assoc]
    exact fun h => absurd (List.append_eq_nil_iff.1 h).1 (by decide)
  unfold metadataChunk
  rw [if_neg (by rw [hvisible]; exact Bool.noConfusion)]
  exact List.cons_ne_nil _ _

section Document

variable (document) (htarget : 1 ≤ policy.targetTokens)

include htarget

theorem finalState_truncated : (finalState policy policy.countTokens document).truncated
    = decide (policy.maxTextChunks < (placedWindows policy policy.countTokens
      (structureAwareSegments document.extractedText) 0).length) := by
  have hblank := (structureAwareSegments_of document.extractedText).not_blank
  exact pushSegments_truncated _ _ (fun segment hsegment =>
    tokenizeWindows_ne_nil htarget (hblank segment hsegment)) (Nat.zero_le _)

/-- All chunks are marked when there are more windows, and none otherwise. -/
theorem truncated_iff :
    ((∀ chunk ∈ chunkEmbeddingDocument policy policy.countTokens document,
        chunk.truncatedFile = true)
      ↔ policy.maxTextChunks < (placedWindows policy policy.countTokens
        (structureAwareSegments document.extractedText) 0).length)
      ∧ ((∀ chunk ∈ chunkEmbeddingDocument policy policy.countTokens document,
        chunk.truncatedFile = false)
      ↔ ¬ policy.maxTextChunks < (placedWindows policy policy.countTokens
        (structureAwareSegments document.extractedText) 0).length) := by
  obtain ⟨first, rest, hfirst⟩ := List.exists_cons_of_ne_nil
    (metadataChunk_ne_nil policy.countTokens policy document)
  have hflag : ∀ flag, (∀ chunk ∈ chunkEmbeddingDocument policy policy.countTokens document,
      chunk.truncatedFile = flag)
      ↔ (finalState policy policy.countTokens document).truncated = flag := by
    intro flag
    rw [chunkEmbeddingDocument_eq, hfirst]
    constructor
    · exact fun h => h _ (List.mem_map_of_mem (List.mem_cons_self ..))
    · intro h chunk hchunk
      obtain ⟨plain, -, rfl⟩ := List.mem_map.1 hchunk
      exact h
  rw [hflag, hflag, finalState_truncated document htarget, decide_eq_true_eq, decide_eq_false_iff_not]
  exact ⟨Iff.rfl, Iff.rfl⟩

/-- What is left out is what no kept window has. -/
theorem leavesOutText_iff :
    LeavesOutText document.extractedText
        (chunkEmbeddingDocument policy policy.countTokens document)
      ↔ policy.maxTextChunks < (placedWindows policy policy.countTokens
          (structureAwareSegments document.extractedText) 0).length
        ∧ ∃ i, VisibleAt document.extractedText i
          ∧ ∀ placed ∈ keptWindows policy policy.countTokens document.extractedText,
            placed.stop ≤ i := by
  constructor
  · rintro ⟨i, hvisible, hnone⟩
    have hnone' : ∀ placed ∈ keptWindows policy policy.countTokens document.extractedText,
        ¬ placed.Has i := by
      intro placed hplaced hhas
      obtain ⟨chunk, hchunk, hmade⟩ := exists_chunk hplaced
      exact hnone chunk hchunk ⟨_, _, hmade.startOffset, hmade.endOffset, hhas⟩
    obtain ⟨c, hi, hc⟩ := hvisible
    refine ⟨?_, i, ⟨c, hi, hc⟩, fun placed hplaced => ?_⟩
    · by_contra hfew
      obtain ⟨placed, hplaced, hhas⟩ := placedWindows_covers htarget _ [] (Nat.zero_le i) hi hc
      exact hnone' placed (by rw [keptWindows, List.take_of_length_le (by omega)]; exact hplaced)
        hhas
    · by_contra hlt
      obtain ⟨other, hother, hhas⟩ := placedWindows_take_covers htarget _ [] hplaced
        (Nat.zero_le i) (Nat.lt_of_not_le hlt) hi hc
      exact hnone' other hother hhas
  · rintro ⟨-, i, hvisible, hafter⟩
    refine ⟨i, hvisible, ?_⟩
    rintro chunk hchunk ⟨start, stop, hstart, hstop, -, hlt⟩
    obtain ⟨placed, hplaced, hmade⟩ := exists_window hchunk
    obtain rfl := Option.some.inj (hmade.endOffset.symm.trans hstop)
    have := hafter placed hplaced
    omega

theorem marked_iff :
    ((∀ chunk ∈ chunkEmbeddingDocument policy policy.countTokens document,
        chunk.truncatedFile = true)
      ↔ LeavesOutText document.extractedText
        (chunkEmbeddingDocument policy policy.countTokens document))
      ↔ LosesMore policy document.extractedText := by
  rw [(truncated_iff document htarget).1, leavesOutText_iff document htarget, LosesMore]
  exact ⟨fun h hmore => (h.1 hmore).2, fun h => ⟨fun hmore => ⟨hmore, h hmore⟩, And.left⟩⟩

theorem complete_of_unmarked
    (h : ∀ chunk ∈ chunkEmbeddingDocument policy policy.countTokens document,
      chunk.truncatedFile = false) :
    ¬ LeavesOutText document.extractedText
      (chunkEmbeddingDocument policy policy.countTokens document) := by
  rw [leavesOutText_iff document htarget]
  exact fun hleft => (truncated_iff document htarget).2.1 h hleft.1

theorem fits_iff :
    (∀ chunk ∈ textChunks (chunkEmbeddingDocument policy policy.countTokens document),
        policy.countTokens chunk.text ≤ policy.maxTokens)
      ↔ ∀ placed ∈ keptWindows policy policy.countTokens document.extractedText,
        placed.Fits policy := by
  have hfits : ∀ placed ∈ keptWindows policy policy.countTokens document.extractedText,
      placed.window.text.length ≤ policy.maxTokens * policy.charsPerToken
        ↔ placed.Fits policy :=
    fun placed hplaced => placed_fits_iff htarget
      (mem_placedWindows (List.mem_of_mem_take hplaced))
  constructor
  · intro h placed hplaced
    obtain ⟨chunk, hchunk, hmade⟩ := exists_chunk hplaced
    rw [← hfits placed hplaced, ← hmade.text]
    exact countTokens_le_iff.1 (h chunk hchunk)
  · intro h chunk hchunk
    obtain ⟨placed, hplaced, hmade⟩ := exists_window hchunk
    rw [countTokens_le_iff, hmade.text]
    exact (hfits placed hplaced).2 (h placed hplaced)

omit htarget in
theorem numbered_iff (count : Text → Nat) :
    (textChunks (chunkEmbeddingDocument policy count document)).map (·.sequenceIndex)
        = List.range' 1 (textChunks (chunkEmbeddingDocument policy count document)).length
      ↔ (keptWindows policy count document.extractedText).length ≤ u32Max := by
  have hlength := (textChunks_made policy count document).length_eq
  have hindex : ∀ index, index < (keptWindows policy count document.extractedText).length →
      ((textChunks (chunkEmbeddingDocument policy count document)).map
        (·.sequenceIndex))[index]? = some (min (1 + index) u32Max) := by
    intro index hlt
    rw [textChunks_eq, numbered, List.map_map, List.getElem?_map, List.getElem?_mapIdx,
      List.getElem?_eq_getElem hlt]
    rfl
  rw [hlength]
  constructor
  · intro h
    by_contra hmore
    have hlast := hindex u32Max (by omega)
    rw [h, List.getElem?_range' (by omega)] at hlast
    have := Option.some.inj hlast
    omega
  · intro h
    refine List.ext_getElem? fun index => ?_
    by_cases hlt : index < (keptWindows policy count document.extractedText).length
    · rw [hindex index hlt, List.getElem?_range' hlt]
      congr 1
      omega
    · rw [List.getElem?_eq_none (by rw [List.length_map, hlength]; omega),
        List.getElem?_eq_none (by rw [List.length_range']; omega)]

omit htarget in
theorem ordered_chunks (count : Text → Nat) :
    (textChunks (chunkEmbeddingDocument policy count document)).Pairwise fun a b =>
      ∃ first second, a.startOffset = some first ∧ b.startOffset = some second
        ∧ first < second := by
  have hordered : (keptWindows policy count document.extractedText).Pairwise
      fun a b => a.start < b.start :=
    (placedWindows_ordered _ 0).1.sublist (List.take_sublist _ _)
  obtain ⟨hlength, hmade⟩ := List.forall₂_iff_get.1 (textChunks_made policy count document)
  rw [List.pairwise_iff_getElem] at hordered ⊢
  intro i j hi hj hij
  exact ⟨_, _, (hmade i hi (hlength ▸ hi)).startOffset, (hmade j hj (hlength ▸ hj)).startOffset,
    hordered i j (hlength ▸ hi) (hlength ▸ hj) hij⟩

/-- **Chunking loses no text** exactly when the chunks can be numbered, the windows kept have no
more than the hard limit, and windows that are not kept have something visible of their own. -/
theorem keeps_text_iff :
    KeepsText policy document.extractedText
        (chunkEmbeddingDocument policy policy.countTokens document)
      ↔ (keptWindows policy policy.countTokens document.extractedText).length ≤ u32Max
        ∧ (∀ placed ∈ keptWindows policy policy.countTokens document.extractedText,
          placed.Fits policy)
        ∧ LosesMore policy document.extractedText := by
  rw [← numbered_iff document, ← fits_iff document htarget, ← marked_iff document htarget]
  constructor
  · exact fun h => ⟨h.numbered, h.fits, h.marked⟩
  · rintro ⟨hnumbered, hfits, hmarked⟩
    refine ⟨(structureAwareSegments_of _).visible_eq, fun chunk hchunk => ?_,
      ordered_chunks document _, hnumbered, ?_, hfits, complete_of_unmarked document htarget,
      hmarked⟩
    · obtain ⟨placed, hplaced, hmade⟩ := exists_window hchunk
      exact ⟨_, _, hmade.startOffset, hmade.endOffset,
        hmade.text.trans (keptWindows_text _ _ _ placed hplaced).2.2⟩
    · rw [(textChunks_made policy policy.countTokens document).length_eq, keptWindows,
        List.length_take]
      exact Nat.min_le_left _ _

end Document

/-- A short note. -/
private def note (text : String) : EmbeddingDocument where
  filename := ['a']
  semanticFields := []
  identities := []
  extractedText := text.toList

/-- A target above the hard limit. -/
private def softAboveHard : ChunkingPolicy where
  targetTokens := 8
  maxTokens := 1
  overlapTokens := 3
  approxCharsPerToken := 1

/-- One chunk only. -/
private def oneChunk : ChunkingPolicy where
  targetTokens := 3
  maxTokens := 12
  overlapTokens := 1
  maxTextChunks := 1
  approxCharsPerToken := 1

theorem keeps_text_iff_oneChunk :
    KeepsText oneChunk (note "abc").extractedText
        (chunkEmbeddingDocument oneChunk oneChunk.countTokens (note "abc"))
      ↔ (keptWindows oneChunk oneChunk.countTokens (note "abc").extractedText).length ≤ u32Max
        ∧ (∀ placed ∈ keptWindows oneChunk oneChunk.countTokens (note "abc").extractedText,
          placed.Fits oneChunk)
        ∧ LosesMore oneChunk (note "abc").extractedText :=
  keeps_text_iff (note "abc") (by decide)

/-- A chunk has more tokens than the hard limit; a file is marked although its only word is in a
chunk. -/
theorem text_not_kept :
    ¬ KeepsText softAboveHard (note "abcd").extractedText
        (chunkEmbeddingDocument softAboveHard softAboveHard.countTokens (note "abcd"))
      ∧ ¬ KeepsText oneChunk (note "abc   ").extractedText
        (chunkEmbeddingDocument oneChunk oneChunk.countTokens (note "abc   ")) := by
  constructor
  · intro h
    have hseen : (textChunks (chunkEmbeddingDocument softAboveHard softAboveHard.countTokens
        (note "abcd"))).map (fun chunk => softAboveHard.countTokens chunk.text) = [4] := by
      decide +kernel
    obtain ⟨chunk, hchunk, hcount⟩ := List.mem_map.1 (hseen.symm ▸ List.mem_singleton_self 4)
    have := h.fits chunk hchunk
    rw [hcount] at this
    exact absurd this (by decide)
  · intro h
    have hseen : (chunkEmbeddingDocument oneChunk oneChunk.countTokens (note "abc   ")).all
        (·.truncatedFile) = true := by decide +kernel
    have hchunks : (textChunks (chunkEmbeddingDocument oneChunk oneChunk.countTokens
        (note "abc   "))).map (fun chunk => (chunk.startOffset, chunk.endOffset))
        = [(some 0, some 3)] := by decide +kernel
    obtain ⟨i, ⟨c, hi, hc⟩, hnone⟩ := h.marked.1 (by simpa using hseen)
    obtain ⟨chunk, hchunk, hoffsets⟩ := List.mem_map.1
      (hchunks.symm ▸ List.mem_singleton_self _)
    simp only [Prod.mk.injEq] at hoffsets
    -- a visible character is one of the first three
    have hlt : i < 3 := by
      by_contra hge
      have hspaces : ∀ c ∈ (joinedText (structureAwareSegments (note "abc   ").extractedText)).drop
          3, isWhiteSpace c = true := List.all_eq_true.1 (by decide +kernel)
      rw [← Nat.add_sub_cancel' (Nat.le_of_not_lt hge), ← List.getElem?_drop] at hi
      rw [hspaces c (List.mem_of_getElem? hi)] at hc
      cases hc
    exact hnone chunk hchunk ⟨0, 3, hoffsets.1, hoffsets.2, Nat.zero_le i, hlt⟩

end Zemo.Search.Chunking
