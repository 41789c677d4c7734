import Zemo.Extraction.Tools

set_option autoImplicit false

/-! # The extractors of texts, archives, images and videos -/

namespace Zemo.Extraction

open Organizer (startsWith containsText)

/-- `ExtractionInput`. -/
structure ExtractionInput where
  bytes : Bytes
  inputTruncated : Bool
  detection : FileTypeDetection

/-- `ExtractionContext`. -/
structure ExtractionContext where
  limits : ExtractionLimits
  tools : Tools
  ocrLanguages : List String

/-- What an extractor returns. -/
abbrev Extracted := Except ExtractionFailure ExtractionPayload

/-! ## Plain text -/

/-- The payload of a decoded text. -/
def plainTextPayload (input : ExtractionInput) (text : Text) : ExtractionPayload :=
  if input.inputTruncated then
    { ExtractionPayload.success .plainText with
      text
      status := .partialResult
      truncated := true
      errorCategory := some .tooLarge
      errorMessage := some "text was truncated at the configured input limit" }
  else { ExtractionPayload.success .plainText with text }

/-- The bytes after a byte order mark. -/
def withoutMark (bytes : Bytes) : Bytes :=
  if [0xef, 0xbb, 0xbf] <+: bytes then bytes.drop 3 else bytes

/-- `PlainTextExtractor::extract`. -/
def extractPlainText (input : ExtractionInput) : Extracted :=
  if 0 ∈ withoutMark input.bytes then
    .error (.failed .invalidEncoding "text contains binary NUL bytes")
  else
    match Utf8.decode (withoutMark input.bytes) with
    | (text, .complete) => .ok (plainTextPayload input text)
    | (text, .cut) =>
        -- a character cut by the input limit: the characters before it are kept
        if input.inputTruncated then .ok (plainTextPayload input text)
        else .error (.failed .invalidEncoding "text is not valid UTF-8")
    | (_, .broken) => .error (.failed .invalidEncoding "text is not valid UTF-8")

/-! ## ZIP archives -/

/-- `u64::saturating_add`. -/
def saturatingAdd (a b : Nat) : Nat := min (a + b) (2 ^ 64 - 1)

/-- `String::len`. -/
def byteLength (text : Text) : Nat := (text.map Char.utf8Size).sum

/-- `safe_archive_path`. -/
def safeArchivePath (name : Text) : Bool :=
  name ≠ [] ∧ name.head? ≠ some '/' ∧ '\\' ∉ name ∧ '\x00' ∉ name
    ∧ ['.', '.'] ∉ name.splitOn '/'
    ∧ ¬(name[1]? = some ':' ∧ name.head?.all (fun c => c.toNat < 0x80) = true)

/-- `suspicious_ratio`. -/
def suspiciousRatio (size compressedSize maxRatio : Nat) : Bool :=
  compressedSize = 0 ∧ 0 < size ∨ 0 < compressedSize ∧ maxRatio < size / compressedSize

/-- What the walk over a ZIP directory has collected. -/
structure ZipScan where
  manifest : Text := []
  totalUncompressed : Nat := 0
  unsafeEntries : Nat := 0
  suspiciousEntries : Nat := 0
  truncated : Bool := false

/-- The manifest line of an entry. -/
def manifestLine (entry : ZipEntry) : Text :=
  (if safeArchivePath entry.name then "SAFE" else "UNSAFE_PATH").toList ++ '\t' :: entry.name
    ++ '\t' :: (toString entry.size).toList ++ ['\n']

/-- The counters after an entry. -/
def ZipScan.count (limits : ExtractionLimits) (s : ZipScan) (entry : ZipEntry) : ZipScan :=
  { s with
    totalUncompressed := saturatingAdd s.totalUncompressed entry.size
    unsafeEntries := s.unsafeEntries + if safeArchivePath entry.name then 0 else 1
    suspiciousEntries := s.suspiciousEntries
      + if suspiciousRatio entry.size entry.compressedSize limits.maxCompressionRatio then 1
        else 0 }

/-- The loop over the entries, from the entry at an index on. -/
def scanZipEntries (context : ExtractionContext) :
    Nat → List (Option ZipEntry) → ZipScan → Except ExtractionFailure ZipScan
  | _, [], s => .ok s
  | index, entry :: rest, s =>
      if context.tools.isCancelled (index + 1) then
        .error (.skipped .cancelled "ZIP metadata inspection was cancelled")
      else
        match entry with
        | none => .error (.failed .corrupt "ZIP central directory is malformed")
        | some entry =>
            let s := s.count context.limits entry
            if context.limits.maxArchiveMetadataBytes
                < byteLength s.manifest + byteLength (manifestLine entry) then
              .ok { s with truncated := true }
            else
              let s := { s with manifest := s.manifest ++ manifestLine entry }
              if context.limits.maxUncompressedBytes < s.totalUncompressed then
                .ok { s with truncated := true }
              else scanZipEntries context (index + 1) rest s

/-- The payload of a walked directory. -/
def zipPayload (s : ZipScan) : ExtractionPayload :=
  let payload :=
    { ExtractionPayload.success .zipMetadata with text := s.manifest, truncated := s.truncated }
  if 0 < s.unsafeEntries then
    { payload with
      status := .partialResult
      errorCategory := some .archiveTraversal
      errorMessage := some "ZIP contains unsafe absolute or parent-traversal entry paths" }
  else if 0 < s.suspiciousEntries then
    { payload with
      status := .partialResult
      errorCategory := some .potentialArchiveBomb
      errorMessage := some "ZIP contains entries with suspicious compression ratios" }
  else if s.truncated then
    { payload with
      status := .partialResult
      errorCategory := some .tooLarge
      errorMessage := some "ZIP metadata inspection stopped at a configured safety limit" }
  else payload

/-- `ZipMetadataExtractor::extract`. -/
def extractZip (input : ExtractionInput) (context : ExtractionContext) : Extracted :=
  if input.inputTruncated then
    .error (.skipped .tooLarge "ZIP archive exceeds the configured input limit")
  else
    match context.tools.openZip input.bytes with
    | none => .error (.failed .corrupt "ZIP archive is malformed")
    | some archive =>
        if context.limits.maxArchiveEntries < archive.entries.length then
          .error (.skipped .tooManyEntries
            (s!"ZIP archive has {archive.entries.length} entries; "
              ++ s!"limit is {context.limits.maxArchiveEntries}"))
        else
          match scanZipEntries context 0 archive.entries {} with
          | .error failure => .error failure
          | .ok scan => .ok (zipPayload scan)

/-! ## Images -/

/-- The media type of an image. -/
def imageMediaType (input : ExtractionInput) (tools : Tools) : String :=
  match tools.infer input.bytes with
  | some mediaType =>
      if startsWith mediaType "image/" then mediaType else input.detection.detectedContentType
  | none => input.detection.detectedContentType

/-- The payload of an image before any OCR. -/
def imagePayload (width height : Nat) (requiresOcr : Bool) : ExtractionPayload :=
  { ExtractionPayload.success .imageMetadata with
    imageWidth := some width
    imageHeight := some height
    requiresOcr }

/-- What becomes of an image payload by the answer of the OCR. -/
def imageAfterOcr (payload : ExtractionPayload) : Except OcrError OcrResult → Extracted
  | .ok result =>
      .ok { payload with
        extractor := .imageOcr
        text := result.text
        ocrUsed := true
        ocrConfidence := result.meanConfidence
        languageHint := result.languageHint }
  | .error error =>
      if error.kind = .cancelled then .error (.skipped .cancelled "image OCR was cancelled")
      else
        .ok { payload with
          status := .partialResult
          errorCategory := some (if error.kind = .unavailable then .ocrUnavailable else .ocrFailed)
          errorMessage := some error.message }

/-- What the OCR provider answers for an image. -/
def ocrOfImage (input : ExtractionInput) (context : ExtractionContext)
    (run : Nat → Bytes → Except OcrError Bytes) : Except OcrError OcrResult :=
  recognize context.tools (run 0) input.bytes (imageMediaType input context.tools)
    context.ocrLanguages context.limits.maxOcrOutputCharacters (context.tools.isCancelled 2)

/-- The OCR of an image whose dimensions were read. -/
def ocrImage (input : ExtractionInput) (context : ExtractionContext) (payload : ExtractionPayload) :
    Extracted :=
  match context.tools.tesseract with
  | none =>
      .ok { payload with
        status := .partialResult
        errorCategory := some .ocrUnavailable
        errorMessage := some
          "image metadata was read but no trusted local OCR engine is installed" }
  | some run =>
      if context.tools.isCancelled 1 then
        .error (.skipped .cancelled "image OCR was cancelled")
      else if ¬context.tools.gateLocks 0 then
        .error (.failed .ocrFailed "local OCR concurrency gate is unavailable")
      else
        imageAfterOcr payload (ocrOfImage input context run)

/-- `ImageExtractor::extract`. -/
def extractImage (input : ExtractionInput) (context : ExtractionContext) : Extracted :=
  if input.inputTruncated then
    .error (.skipped .tooLarge "image exceeds the configured input limit")
  else
    match context.tools.blobSize input.bytes with
    | none => .error (.failed .corrupt "image dimensions could not be read")
    | some (width, height) =>
        if 2 ^ 32 ≤ width then .error (.skipped .tooLarge "image width is too large")
        else if 2 ^ 32 ≤ height then .error (.skipped .tooLarge "image height is too large")
        else if context.limits.maxImagePixels < width * height then
          .error (.skipped .tooLarge
            s!"image has {width * height} pixels; limit is {context.limits.maxImagePixels}")
        else if imageMediaType input context.tools ∈ ocrMediaTypes then
          ocrImage input context (imagePayload width height true)
        else .ok (imagePayload width height false)

/-! ## Videos -/

/-- `MAX_SCAN_BYTES`. -/
def maxScanBytes : Nat := 4 * 1024 * 1024

/-- `looks_like_ebml`. -/
def looksLikeEbml (bytes : Bytes) : Bool := [0x1A, 0x45, 0xDF, 0xA3] <+: bytes

/-- `looks_like_iso_bmff`. -/
def looksLikeIsoBmff (bytes : Bytes) : Bool :=
  8 ≤ bytes.length
    ∧ 8 ≤ (bytes.take 4).foldl (fun size b => size * 256 + b.toNat) 0
    ∧ (bytes.drop 4).take 4
      ∈ ["ftyp", "moov", "mdat", "free", "skip", "wide", "pnot"].map ascii

/-- `unsupported_video_payload`. -/
def unsupportedVideoPayload : ExtractionPayload :=
  { ExtractionPayload.success .videoMetadata with
    status := .unsupported
    errorCategory := some .unsupported
    errorMessage := some
      "video container is recognized but no safe metadata parser is available for this subtype" }

/-- The payload of scanned headers. -/
def videoPayload (partially : Bool) : ExtractionPayload :=
  if partially then
    { ExtractionPayload.success .videoMetadata with
      status := .partialResult
      errorCategory := some .parserFailure
      errorMessage := some
        "video container metadata was only partially recovered from bounded headers" }
  else ExtractionPayload.success .videoMetadata

/-- The container is one whose headers can be scanned. -/
def looksLikeVideo (input : ExtractionInput) : Bool :=
  let media := input.detection.detectedContentType
  let bytes := input.bytes.take maxScanBytes
  containsText media "webm" || containsText media "matroska" || looksLikeEbml bytes
    || containsText media "mp4" || containsText media "quicktime" || containsText media "x-m4v"
    || looksLikeIsoBmff bytes

/-- `VideoMetadataExtractor::extract`. -/
def extractVideo (input : ExtractionInput) (context : ExtractionContext) : Extracted :=
  if input.inputTruncated then
    .error (.skipped .tooLarge "video exceeds the configured input limit for metadata parsing")
  else if context.tools.isCancelled 1 then
    .error (.skipped .cancelled "video metadata extraction was cancelled")
  else if ¬looksLikeVideo input then .ok unsupportedVideoPayload
  else
    match context.tools.videoHeaders (input.bytes.take maxScanBytes) with
    | none => .error (.skipped .cancelled "video metadata extraction was cancelled")
    | some partially =>
        if context.tools.isCancelled 2 then
          .error (.skipped .cancelled "video metadata extraction was cancelled")
        else .ok (videoPayload partially)

end Zemo.Extraction
