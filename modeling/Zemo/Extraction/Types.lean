import Mathlib.Data.Rat.Defs
import Zemo.Organizer.PathSafety

set_option autoImplicit false

/-! # Content extraction: the data

Texts are lists of characters and inputs lists of bytes. The JSON metadata of a result is left out:
it is serialized by the standard serializer, and its column asks for valid JSON only. -/

namespace Zemo.Extraction

abbrev Text := List Char
abbrev Bytes := List UInt8

/-- `ExtractionStatus`. -/
inductive ExtractionStatus where
  | pending | running | success | partialResult | unsupported | skipped | failed
  deriving DecidableEq, Repr

/-- The extraction is over. -/
def ExtractionStatus.isFinished (status : ExtractionStatus) : Bool :=
  status ≠ .pending ∧ status ≠ .running

/-- `ErrorCategory`. -/
inductive ErrorCategory where
  | unreadable | encryptedDocument | unsupported | corrupt | tooLarge | tooManyPages
  | tooManyCells | tooManyEntries | ocrFailed | ocrUnavailable | typeMismatch
  | permissionDenied | invalidEncoding | archiveTraversal | potentialArchiveBomb
  | sourceChanged | cancelled | parserFailure
  deriving DecidableEq, Repr

/-- `OfficeKind`. -/
inductive OfficeKind where
  | docx | xlsx | pptx
  deriving DecidableEq, Repr

/-- `ExtractorType`. -/
inductive ExtractorType where
  | plainText | pdfText | pdfOcr | docx | xlsx | pptx
  | imageMetadata | imageOcr | zipMetadata | videoMetadata
  deriving DecidableEq, Repr

/-- `ContentKind`. -/
inductive ContentKind where
  | text | pdf | office (kind : OfficeKind) | zip | image | video
  | legacyOffice | executable | unknown
  deriving DecidableEq, Repr

/-- `FileTypeDetection`. -/
structure FileTypeDetection where
  extension : Option String
  contentKind : ContentKind
  detectedContentType : String
  magicConfirmed : Bool
  mismatch : Bool
  deriving DecidableEq, Repr

/-- `ReadMode`. -/
inductive ReadMode where
  | none
  | start (limit : Nat)
  | whole (limit : Nat)
  deriving DecidableEq, Repr

/-- `ExtractionPlan`. -/
structure ExtractionPlan where
  detection : FileTypeDetection
  readMode : ReadMode
  preflightStatus : Option ExtractionStatus
  preflightError : Option ErrorCategory
  preflightMessage : Option String
  deriving DecidableEq, Repr

/-- `ExtractionPlan::requires_input`. -/
def ExtractionPlan.requiresInput (plan : ExtractionPlan) : Bool := plan.readMode ≠ .none

/-- `ExtractionResult`, without the metadata. -/
structure ExtractionResult where
  status : ExtractionStatus
  extractor : Option ExtractorType
  extractorVersion : Option String
  detectedContentType : String
  typeMismatch : Bool
  text : Text
  characterCount : Nat
  pageCount : Option Nat
  sheetCount : Option Nat
  slideCount : Option Nat
  imageWidth : Option Nat
  imageHeight : Option Nat
  requiresOcr : Bool
  ocrUsed : Bool
  ocrConfidence : Option ℚ
  languageHint : Option String
  durationMs : Nat
  truncated : Bool
  errorCategory : Option ErrorCategory
  errorMessage : Option String

/-- `ExtractionPayload`, without the metadata. -/
structure ExtractionPayload where
  status : ExtractionStatus
  extractor : ExtractorType
  text : Text
  pageCount : Option Nat
  sheetCount : Option Nat
  slideCount : Option Nat
  imageWidth : Option Nat
  imageHeight : Option Nat
  requiresOcr : Bool
  ocrUsed : Bool
  ocrConfidence : Option ℚ
  languageHint : Option String
  truncated : Bool
  errorCategory : Option ErrorCategory
  errorMessage : Option String

/-- `ExtractionPayload::success`. -/
def ExtractionPayload.success (extractor : ExtractorType) : ExtractionPayload where
  status := .success
  extractor
  text := []
  pageCount := none
  sheetCount := none
  slideCount := none
  imageWidth := none
  imageHeight := none
  requiresOcr := false
  ocrUsed := false
  ocrConfidence := none
  languageHint := none
  truncated := false
  errorCategory := none
  errorMessage := none

/-- `ExtractionFailure`. -/
structure ExtractionFailure where
  status : ExtractionStatus
  category : ErrorCategory
  message : String
  finished : status.isFinished = true

/-- `ExtractionFailure::failed`. -/
def ExtractionFailure.failed (category : ErrorCategory) (message : String) : ExtractionFailure :=
  ⟨.failed, category, message, rfl⟩

/-- `ExtractionFailure::skipped`. -/
def ExtractionFailure.skipped (category : ErrorCategory) (message : String) : ExtractionFailure :=
  ⟨.skipped, category, message, rfl⟩

/-- The version of the extraction crate, `CARGO_PKG_VERSION`. -/
def packageVersion : String := "0.1.0"

/-- `ExtractionResult::preflight`. -/
def ExtractionResult.preflight (plan : ExtractionPlan) : ExtractionResult where
  status := plan.preflightStatus.getD .unsupported
  extractor := none
  extractorVersion := some packageVersion
  detectedContentType := plan.detection.detectedContentType
  typeMismatch := plan.detection.mismatch
  text := []
  characterCount := 0
  pageCount := none
  sheetCount := none
  slideCount := none
  imageWidth := none
  imageHeight := none
  requiresOcr := false
  ocrUsed := false
  ocrConfidence := none
  languageHint := none
  durationMs := 0
  truncated := false
  errorCategory := plan.preflightError
  errorMessage := plan.preflightMessage

/-- `ExtractionLimits`. -/
structure ExtractionLimits where
  detectionBytes : Nat := 64 * 1024
  maxTextInputBytes : Nat := 4 * 1024 * 1024
  maxPdfInputBytes : Nat := 64 * 1024 * 1024
  maxOfficeInputBytes : Nat := 64 * 1024 * 1024
  maxImageInputBytes : Nat := 32 * 1024 * 1024
  maxArchiveInputBytes : Nat := 32 * 1024 * 1024
  maxExtractedCharacters : Nat := 2000000
  maxPages : Nat := 500
  maxSpreadsheetCells : Nat := 200000
  maxArchiveEntries : Nat := 10000
  maxArchiveMetadataBytes : Nat := 2 * 1024 * 1024
  maxUncompressedBytes : Nat := 128 * 1024 * 1024
  maxCompressionRatio : Nat := 1000
  maxImagePixels : Nat := 40000000
  maxOcrPages : Nat := 20
  maxOcrOutputCharacters : Nat := 500000
  maxWorkers : Nat := 4
  maxOcrWorkers : Nat := 1
  externalProcessTimeoutMs : Nat := 60000
  deriving DecidableEq, Repr

/-- `clamp`. -/
def clamp (low high value : Nat) : Nat := min (max value low) high

/-- `ExtractionLimits::normalized`. -/
def ExtractionLimits.normalized (l : ExtractionLimits) : ExtractionLimits :=
  let detectionBytes := clamp 512 (1024 * 1024) l.detectionBytes
  let maxPages := max l.maxPages 1
  let maxWorkers := clamp 1 16 l.maxWorkers
  { l with
    detectionBytes
    maxTextInputBytes := max l.maxTextInputBytes detectionBytes
    maxExtractedCharacters := max l.maxExtractedCharacters 1
    maxPages
    maxSpreadsheetCells := max l.maxSpreadsheetCells 1
    maxArchiveEntries := max l.maxArchiveEntries 1
    maxArchiveMetadataBytes := max l.maxArchiveMetadataBytes 1
    maxUncompressedBytes := max l.maxUncompressedBytes 1
    maxCompressionRatio := max l.maxCompressionRatio 1
    maxImagePixels := max l.maxImagePixels 1
    maxOcrPages := max (min l.maxOcrPages maxPages) 1
    maxOcrOutputCharacters := max l.maxOcrOutputCharacters 1
    maxWorkers
    maxOcrWorkers := clamp 1 maxWorkers l.maxOcrWorkers
    externalProcessTimeoutMs := max l.externalProcessTimeoutMs 1000 }

end Zemo.Extraction

/-! ## Detection of the type of a file

`detect_file_type` from the extension and the first bytes. What `infer::get` recognizes is a
parameter. -/

namespace Zemo.Extraction

open Organizer (toAsciiLowercase trim startsWith)

/-- `ExpectedType`. -/
structure ExpectedType where
  kind : ContentKind
  mediaType : String
  deriving DecidableEq, Repr

/-- `normalize_extension`. -/
def normalizeExtension (extension : Option String) : Option String :=
  extension.bind fun value =>
    let lowered := toAsciiLowercase (String.ofList ((trim value).toList.dropWhile (· = '.')))
    if lowered ≠ "" ∧ lowered.utf8ByteSize ≤ 32 then some lowered else none

/-- `expected_type_for_extension`. -/
def expectedTypeForExtension (extension : String) : Option ExpectedType :=
  if extension ∈ ["txt", "md", "markdown", "csv", "tsv", "json", "xml", "log"] then
    some ⟨.text, "text/plain"⟩
  else if extension = "pdf" then some ⟨.pdf, "application/pdf"⟩
  else if extension = "docx" then
    some ⟨.office .docx,
      "application/vnd.openxmlformats-officedocument.wordprocessingml.document"⟩
  else if extension = "xlsx" then
    some ⟨.office .xlsx, "application/vnd.openxmlformats-officedocument.spreadsheetml.sheet"⟩
  else if extension = "pptx" then
    some ⟨.office .pptx,
      "application/vnd.openxmlformats-officedocument.presentationml.presentation"⟩
  else if extension = "zip" then some ⟨.zip, "application/zip"⟩
  else if extension = "png" then some ⟨.image, "image/png"⟩
  else if extension ∈ ["jpg", "jpeg"] then some ⟨.image, "image/jpeg"⟩
  else if extension = "webp" then some ⟨.image, "image/webp"⟩
  else if extension ∈ ["tif", "tiff"] then some ⟨.image, "image/tiff"⟩
  else if extension = "gif" then some ⟨.image, "image/gif"⟩
  else if extension = "bmp" then some ⟨.image, "image/bmp"⟩
  else if extension = "mp4" then some ⟨.video, "video/mp4"⟩
  else if extension = "mov" then some ⟨.video, "video/quicktime"⟩
  else if extension = "webm" then some ⟨.video, "video/webm"⟩
  else if extension ∈ ["mkv", "avi"] then some ⟨.video, "video/unknown"⟩
  else if extension ∈ ["doc", "xls", "ppt"] then
    some ⟨.legacyOffice, "application/x-ole-storage"⟩
  else if extension ∈ ["exe", "dll", "com", "msi", "app", "dmg", "so", "dylib"] then
    some ⟨.executable, "application/x-executable"⟩
  else none

/-- `is_executable_media_type`. -/
def isExecutableMediaType (mediaType : String) : Bool :=
  mediaType ∈ ["application/x-executable", "application/x-mach-binary",
    "application/vnd.microsoft.portable-executable", "application/x-msdownload"]

/-- `is_mach_o`. -/
def isMachO (head : Bytes) : Bool :=
  head.take 4 ∈ [[0xfe, 0xed, 0xfa, 0xce], [0xce, 0xfa, 0xed, 0xfe], [0xfe, 0xed, 0xfa, 0xcf],
    [0xcf, 0xfa, 0xed, 0xfe], [0xca, 0xfe, 0xba, 0xbe]]

/-- The bytes of an ASCII text. -/
def ascii (text : String) : Bytes := text.toList.map fun c => UInt8.ofNat c.toNat

/-- `magic_type`; `inferred` is what `infer::get` says of the bytes. -/
def magicType (inferred : Option String) (head : Bytes) : Option (ContentKind × String) :=
  if ascii "%PDF-" <+: head then some (.pdf, "application/pdf")
  else if [0x50, 0x4b, 0x03, 0x04] <+: head ∨ [0x50, 0x4b, 0x05, 0x06] <+: head
      ∨ [0x50, 0x4b, 0x07, 0x08] <+: head then some (.zip, "application/zip")
  else if [0xd0, 0xcf, 0x11, 0xe0, 0xa1, 0xb1, 0x1a, 0xe1] <+: head then
    some (.legacyOffice, "application/x-ole-storage")
  else if ascii "MZ" <+: head ∨ 0x7f :: ascii "ELF" <+: head ∨ isMachO head then
    some (.executable, "application/x-executable")
  else inferred.map fun mediaType =>
    (if startsWith mediaType "image/" then .image
      else if startsWith mediaType "video/" then .video
      else if mediaType = "application/pdf" then .pdf
      else if mediaType = "application/zip" then .zip
      else if isExecutableMediaType mediaType then .executable
      else .unknown, mediaType)

/-- `kinds_are_compatible`. -/
def kindsAreCompatible (expected actual : ContentKind) : Bool :=
  expected = actual ∧ expected ∈ [.text, .pdf, .zip, .image, .video, .legacyOffice, .executable]

/-- `media_types_are_compatible`. -/
def mediaTypesAreCompatible (expected actual : String) : Bool :=
  expected = actual
    ∨ expected = "text/plain" ∧ startsWith actual "text/"
    ∨ expected = "video/unknown" ∧ startsWith actual "video/"
    ∨ expected = "application/x-executable" ∧ isExecutableMediaType actual

/-- `looks_like_utf8_text`; `decoded` is the text of the bytes if they are UTF-8. -/
def looksLikeUtf8Text (decoded : Option Text) (head : Bytes) : Bool :=
  if head = [] ∨ 0 ∈ head then false
  else match decoded with
    | none => false
    | some text =>
        (text.filter fun c => isControl c ∧ c ∉ ['\n', '\r', '\t']).length * 100
          ≤ max text.length 1

/-- `detect_file_type`. -/
def detectFileType (inferred : Option String) (decoded : Option Text) (extension : Option String)
    (head : Bytes) : FileTypeDetection :=
  let extension := normalizeExtension extension
  match extension.bind expectedTypeForExtension, magicType inferred head with
  | some ⟨.office kind, mediaType⟩, some (.zip, _) =>
      ⟨extension, .office kind, mediaType, true, false⟩
  | some expected, some (actualKind, actualMedia) =>
      if kindsAreCompatible expected.kind actualKind
          ∧ mediaTypesAreCompatible expected.mediaType actualMedia then
        ⟨extension, expected.kind, actualMedia, true, false⟩
      else ⟨extension, actualKind, actualMedia, true, true⟩
  | some expected, none => ⟨extension, expected.kind, expected.mediaType, false, false⟩
  | none, some (kind, mediaType) => ⟨extension, kind, mediaType, true, false⟩
  | none, none =>
      if looksLikeUtf8Text decoded head then ⟨extension, .text, "text/plain", false, false⟩
      else ⟨extension, .unknown, "application/octet-stream", false, false⟩

example : (detectFileType none none (some "pdf") (ascii "MZ" ++ [0x90, 0x00])).mismatch = true := by
  decide +kernel

end Zemo.Extraction
