import Zemo.Extraction.Harmless
import Zemo.Lib.Run

set_option autoImplicit false

/-! # A content-extraction batch

`analyze_scan_content`: the candidates of the scan page by page; on each page several workers that
take the next candidate from a shared counter and send what they extract over a bounded channel, and
the receiver that stores it. Every order in which they run is a run of `Analysis.Step`.

The analysis is not cancelled: the flag is never found set. What an extraction of a candidate meets
on the platform and around its parsers is its `Look`. -/

namespace Zemo.Extraction

/-! ## One candidate -/

/-- `PlatformError`, as far as `platform_failure` tells the errors apart. -/
inductive PlatformError where
  | permissionDenied | sourceMissing | outsideRoot | reparsePoint | precondition
  | cloudPlaceholder | ioPermissionDenied | ioNotFound | other
  deriving DecidableEq, Repr

/-- `ExtractionCandidate`, without its paths. -/
structure ExtractionCandidate where
  fileVersionId : Nat
  extension : Option String
  declaredMediaType : Option String
  byteSize : Nat
  readable : Bool

/-- What is met while a candidate is read: its first bytes, its bytes in a read mode, the parsers. -/
structure Look where
  head : Except PlatformError Bytes
  body : ReadMode → Except PlatformError Bytes
  tools : Tools

/-- `failed_result`. -/
def failedResult (candidate : ExtractionCandidate) (status : ExtractionStatus)
    (category : ErrorCategory) (message : String) : ExtractionResult where
  status
  extractor := none
  extractorVersion := some packageVersion
  detectedContentType := candidate.declaredMediaType.getD "application/octet-stream"
  typeMismatch := false
  text := []
  characterCount := 0
  pageCount := none
  sheetCount := none
  slideCount := none
  imageWidth := none
  imageHeight := none
  requiresOcr := false
  ocrUsed := false
  ocrConfidence := none
  languageHint := none
  durationMs := 0
  truncated := false
  errorCategory := some category
  errorMessage := some message

/-- `platform_failure`. -/
def platformFailure (candidate : ExtractionCandidate) (error : PlatformError) : ExtractionResult :=
  match error with
  | .permissionDenied | .ioPermissionDenied =>
      failedResult candidate .failed .permissionDenied
        "permission was denied while reading the source"
  | .sourceMissing | .outsideRoot | .reparsePoint | .precondition =>
      failedResult candidate .failed .sourceChanged
        "source changed or left the registered scan scope"
  | .cloudPlaceholder =>
      failedResult candidate .skipped .unreadable "cloud placeholder was not hydrated"
  | .ioNotFound =>
      failedResult candidate .failed .sourceChanged "source disappeared after the inventory scan"
  | .other => failedResult candidate .failed .unreadable "source could not be read safely"

/-- `source_size_changed`. -/
def sourceSizeChanged (expected observed : Nat) : ReadMode → Bool
  | .none => false
  | .whole _ => observed ≠ expected
  | .start limit => if expected ≤ limit then observed ≠ expected else observed ≠ limit

/-- `extract_candidate`. -/
def extractCandidate (engine : LocalExtractionEngine) (look : Look)
    (candidate : ExtractionCandidate) : ExtractionResult :=
  if ¬candidate.readable then
    failedResult candidate .failed .permissionDenied "scanner recorded this file as unreadable"
  else
    match look.head with
    | .error error => platformFailure candidate error
    | .ok head =>
        let plan := engine.prepare look.tools candidate.extension head candidate.byteSize
        if ¬plan.requiresInput then engine.extract look.tools plan [] candidate.byteSize
        else
          match look.body plan.readMode with
          | .error error => platformFailure candidate error
          | .ok bytes =>
              if sourceSizeChanged candidate.byteSize bytes.length plan.readMode then
                failedResult candidate .failed .sourceChanged
                  "file size changed after the inventory scan"
              else engine.extract look.tools plan bytes candidate.byteSize

end Zemo.Extraction
