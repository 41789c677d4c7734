import Zemo.Extraction.Tools
import Zemo.Lib.Texts

set_option autoImplicit false

/-! # Chunks of a document

How a document is cut into the texts that are embedded: a summary of its metadata, then windows of
its extracted text. The text is first cut into segments, at form feeds, at the headers of sheets and
slides, or at empty lines; each segment is cut into windows that overlap. A window's place in its
segment and the segment's place among the segments' texts give the offsets of a chunk. -/

namespace Zemo.Search.Chunking

open Texts

/-! ## Data -/

structure ChunkingPolicy where
  targetTokens : Nat := 256
  maxTokens : Nat := 480
  overlapTokens : Nat := 32
  maxTextChunks : Nat := 16
  approxCharsPerToken : Nat := 3

structure EmbeddingDocument where
  filename : Text
  semanticFields : List (Text × Text)
  identities : List (Text × Text)
  extractedText : Text

structure SemanticChunk where
  sourceId : String
  sourceKind : String
  sequenceIndex : Nat
  text : Text
  startOffset : Option Nat
  endOffset : Option Nat
  pageNumber : Option Nat
  sheetOrSlide : Option Text
  truncatedFile : Bool
deriving DecidableEq

structure TextSegment where
  text : Text
  pageNumber : Option Nat
  sheetOrSlide : Option Text
deriving DecidableEq

structure TextWindow where
  text : Text
  startChar : Nat
  endChar : Nat
deriving DecidableEq

/-- `usize::saturating_mul`. -/
def saturatingMul (a b : Nat) : Nat := min (a * b) (2 ^ 64 - 1)

/-- The greatest `u32`. -/
def u32Max : Nat := 2 ^ 32 - 1

/-- `MAX_EMBEDDING_INPUT_CHARS`. -/
def maxEmbeddingInputChars : Nat := 2048

/-- The characters a token is taken to have. -/
def ChunkingPolicy.charsPerToken (policy : ChunkingPolicy) : Nat := max policy.approxCharsPerToken 1

/-- `ApproximateTokenCounter::from_policy(policy).count_tokens`. -/
def ChunkingPolicy.countTokens (policy : ChunkingPolicy) (text : Text) : Nat :=
  max ((text.length + policy.charsPerToken - 1) / policy.charsPerToken) (if text = [] then 0 else 1)

/-- `str::trim`. -/
def trimText (text : Text) : Text := trim isWhiteSpace text

/-- The text has nothing but whitespace. -/
def isBlank (text : Text) : Bool := text.all isWhiteSpace

/-- `chars[start..end]`. -/
def slice (text : Text) (start stop : Nat) : Text := (text.drop start).take (stop - start)

/-! ## Metadata -/

/-- `bounded_chars`. -/
def boundedChars (value : Text) (limit : Nat) : Text := value.take limit

/-- A line of the summary. -/
def metadataLine (entry : Text × Text) : Text :=
  '\n' :: boundedChars entry.1 64 ++ [':', ' '] ++ boundedChars entry.2 256

/-- `build_metadata_summary`. -/
def buildMetadataSummary (document : EmbeddingDocument) : Text :=
  "filename: ".toList ++ boundedChars document.filename 256
    ++ (document.semanticFields.take 24).flatMap metadataLine
    ++ (document.identities.take 24).flatMap metadataLine

section Counting

variable (count : Text → Nat)

/-- The binary search of `truncate_to_tokens`. -/
def searchFit (maxTokens : Nat) (text : Text) (lo hi : Nat) : Nat :=
  if lo + 1 < hi then
    if count (text.take ((lo + hi) / 2)) ≤ maxTokens then
      searchFit maxTokens text ((lo + hi) / 2) hi
    else searchFit maxTokens text lo ((lo + hi) / 2)
  else lo
termination_by hi - lo

/-- `truncate_to_tokens`. -/
def truncateToTokens (text : Text) (maxTokens : Nat) : Text :=
  if count text ≤ maxTokens then text.take maxEmbeddingInputChars
  else text.take (searchFit count maxTokens text 0 (min text.length maxEmbeddingInputChars))

end Counting

/-! ## Segments -/

/-- The pages between form feeds, numbered from 1. -/
def pageSegments (text : Text) : List TextSegment :=
  (text.splitOn '\x0c').zipIdx.filterMap fun part =>
    if trimText part.1 = [] then none
    else some
      { text := trimText part.1, pageNumber := some (min (part.2 + 1) u32Max), sheetOrSlide := none }

/-- The letter is matched without regard to case; the long s is an s. -/
def foldsTo (letter c : Char) : Bool := c = letter || c.toLower = letter || (letter = 's' && c = 'ſ')

/-- What comes after the word, if the text begins with it. -/
def afterWord : List Char → Text → Option Text
  | [], text => some text
  | _ :: _, [] => none
  | letter :: word, c :: text => if foldsTo letter c then afterWord word text else none

/-- What comes after one of the words of a header. -/
def afterHeaderWord (text : Text) : Option Text :=
  ["sheet", "feuille", "slide", "diapositive"].findSome? fun word => afterWord word.toList text

/-- The name in a header, from what comes after its word on the line: `\s*[:#-]?\s*(.+)$`. The name
has one character at least, if need be the separator or a whitespace character. -/
def headerName (rest : Text) : Option Text :=
  if rest = [] then none
  else
    match rest.dropWhile isWhiteSpace with
    | [] => rest.getLast?.map ([·])
    | c :: tail =>
        if c ∈ [':', '#', '-'] then
          match tail.dropWhile isWhiteSpace with
          | [] => if tail = [] then some [c] else tail.getLast?.map ([·])
          | name => some name
        else some (c :: tail)

/-- The name in the header, if the line is a header. -/
def sheetHeader (line : Text) : Option Text := (afterHeaderWord line).bind headerName

/-- What comes after the newlines of a text. -/
def afterNewlines : Text → List Text
  | [] => []
  | c :: rest => if c = '\n' then rest :: afterNewlines rest else afterNewlines rest

/-- `is_match` of the whole text: `\s*` goes on over newlines. -/
def hasHeader (text : Text) : Bool :=
  (text :: afterNewlines text).any fun rest =>
    (afterHeaderWord rest).any fun after => after.any (· ≠ '\n')

/-- The lines between headers. -/
def sheetSegments : List Text → Option Text → Text → List TextSegment
  | [], name, buffer =>
      if isBlank buffer then []
      else [{ text := trimText buffer, pageNumber := none, sheetOrSlide := name }]
  | line :: rest, name, buffer =>
      match sheetHeader line with
      | some header =>
          let next := some (boundedChars (trimText header) 80)
          if isBlank buffer then sheetSegments rest next buffer
          else
            { text := trimText buffer, pageNumber := none, sheetOrSlide := name }
              :: sheetSegments rest next []
      | none => sheetSegments rest name (buffer ++ line ++ ['\n'])

/-- `split("\n\n")`. -/
def splitEmptyLines : Text → List Text
  | [] => [[]]
  | '\n' :: '\n' :: rest => [] :: splitEmptyLines rest
  | c :: rest => (splitEmptyLines rest).modifyHead (c :: ·)

/-- The paragraphs that are not blank. -/
def paragraphs (text : Text) : List TextSegment :=
  (((splitEmptyLines text).map trimText).filter (· ≠ [])).map fun part =>
    { text := part, pageNumber := none, sheetOrSlide := none }

/-- The segments without pages and sheets. -/
def plainSegments (text : Text) : List TextSegment :=
  if 1 < (paragraphs text).length then paragraphs text
  else [{ text, pageNumber := none, sheetOrSlide := none }]

/-- `structure_aware_segments`. -/
def structureAwareSegments (text : Text) : List TextSegment :=
  if isBlank text then []
  else if '\x0c' ∈ text then pageSegments text
  else if hasHeader text ∧ sheetSegments (Extraction.lines text) none [] ≠ [] then
    sheetSegments (Extraction.lines text) none []
  else plainSegments text

/-! ## Windows -/

/-- `rposition`: the place of the last character of the kind. -/
def rposition (p : Char → Bool) (text : Text) : Option Nat :=
  (text.reverse.findIdx? p).map fun index => text.length - 1 - index

section Windows

variable (policy : ChunkingPolicy) (count : Text → Nat) (text : Text) (start : Nat)

def ChunkingPolicy.targetChars : Nat := saturatingMul policy.targetTokens policy.charsPerToken

def ChunkingPolicy.maxChars : Nat := saturatingMul policy.maxTokens policy.charsPerToken

def ChunkingPolicy.overlapChars : Nat := saturatingMul policy.overlapTokens policy.charsPerToken

/-- The end near the target: after a newline, else after whitespace, in the second half. -/
def boundaryEnd : Nat :=
  let stop := min (start + policy.targetChars) text.length
  if stop < text.length then
    let searchFrom := start + policy.targetChars / 2
    match rposition (· = '\n') (slice text searchFrom stop) with
    | some rel => searchFrom + rel + 1
    | none =>
        match rposition isWhiteSpace (slice text searchFrom stop) with
        | some rel => searchFrom + rel + 1
        | none => stop
  else stop

/-- The first inner loop: shorter while there are too many tokens. -/
def shrinkEnd (stop : Nat) : Nat :=
  if policy.maxTokens < count (slice text start stop) ∧ start + 16 < stop then
    shrinkEnd (max (stop - 16) (start + 1))
  else stop
termination_by stop

/-- The second inner loop: longer while there are too few tokens. -/
def growEnd (stop : Nat) : Nat :=
  if stop < text.length ∧ count (slice text start stop) < policy.targetTokens
      ∧ stop - start < policy.maxChars then
    if policy.maxTokens < count (slice text start (min (stop + 16) text.length)) then
      max (min (stop + 16) text.length - 16) (start + 1)
    else growEnd (min (stop + 16) text.length)
  else stop
termination_by text.length - stop

/-- The end of the window that starts there. -/
def windowEnd : Nat :=
  growEnd policy count text start
    (shrinkEnd policy count text start (boundaryEnd policy text start))

/-- The window that starts there, unless it is blank. -/
def windowAt : Option TextWindow :=
  let stop := windowEnd policy count text start
  let trimmed := trimText (slice text start stop)
  if trimmed = [] then none else some { text := trimmed, startChar := start, endChar := stop }

/-- Where the next window starts. -/
def nextStart : Nat :=
  max (windowEnd policy count text start - policy.overlapChars) (start + 1)

/-- The loop of `tokenize_windows`. -/
def windowsFrom (policy : ChunkingPolicy) (count : Text → Nat) (text : Text) (start : Nat) :
    List TextWindow :=
  if start < text.length then
    (windowAt policy count text start).toList
      ++ if text.length ≤ windowEnd policy count text start then []
        else windowsFrom policy count text (nextStart policy count text start)
  else []
termination_by text.length - start
decreasing_by
  have : start + 1 ≤ nextStart policy count text start := Nat.le_max_right _ _
  omega

/-- `tokenize_windows`. -/
def tokenizeWindows : List TextWindow :=
  if text = [] then []
  else if count text ≤ policy.targetTokens then
    [{ text := trimText text, startChar := 0, endChar := text.length }]
  else windowsFrom policy count text 0

end Windows

/-! ## Chunks -/

/-- The chunk of the metadata. -/
def metadataChunk (count : Text → Nat) (policy : ChunkingPolicy) (document : EmbeddingDocument) :
    List SemanticChunk :=
  let metadata := buildMetadataSummary document
  if isBlank metadata then []
  else
    [{ sourceId := "metadata", sourceKind := "semantic_summary", sequenceIndex := 0
       text := truncateToTokens count metadata policy.maxTokens
       startOffset := none, endOffset := none, pageNumber := none, sheetOrSlide := none
       truncatedFile := false }]

/-- The variables of `chunk_embedding_document`. -/
structure ChunkState where
  chunks : List SemanticChunk
  sequence : Nat := 1
  textChunks : Nat := 0
  charCursor : Nat := 0
  truncated : Bool := false

/-- A window of a segment becomes a chunk. -/
def ChunkState.push (state : ChunkState) (segment : TextSegment) (segmentStart : Nat)
    (window : TextWindow) : ChunkState :=
  { state with
    chunks := state.chunks ++
      [{ sourceId := "text:" ++ String.ofList (Nat.toDigits 10 (state.sequence - 1))
         sourceKind := "text_chunk", sequenceIndex := state.sequence, text := window.text
         startOffset := some (segmentStart + window.startChar)
         endOffset := some (segmentStart + window.endChar)
         pageNumber := segment.pageNumber, sheetOrSlide := segment.sheetOrSlide
         truncatedFile := false }]
    sequence := min (state.sequence + 1) u32Max
    textChunks := state.textChunks + 1 }

section Loops

variable (policy : ChunkingPolicy) (count : Text → Nat)

/-- The loop over the windows of a segment. -/
def pushWindows (segment : TextSegment) (segmentStart : Nat) :
    List TextWindow → ChunkState → ChunkState
  | [], state => state
  | window :: rest, state =>
      if policy.maxTextChunks ≤ state.textChunks then { state with truncated := true }
      else pushWindows segment segmentStart rest (state.push segment segmentStart window)

/-- The loop over the segments. -/
def pushSegments : List TextSegment → ChunkState → ChunkState
  | [], state => state
  | segment :: rest, state =>
      if policy.maxTextChunks ≤ state.textChunks then { state with truncated := true }
      else
        pushSegments rest
          (pushWindows policy segment state.charCursor (tokenizeWindows policy count segment.text)
            { state with charCursor := state.charCursor + segment.text.length })

/-- `chunk_embedding_document`. -/
def chunkEmbeddingDocument (document : EmbeddingDocument) : List SemanticChunk :=
  let state := pushSegments policy count (structureAwareSegments document.extractedText)
    { chunks := metadataChunk count policy document }
  if state.truncated then state.chunks.map ({ · with truncatedFile := true }) else state.chunks

end Loops

end Zemo.Search.Chunking
