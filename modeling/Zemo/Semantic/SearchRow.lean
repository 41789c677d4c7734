import Mathlib.Data.List.DropRight
import Mathlib.Data.Rat.Init
import Zemo.Lib.Checked
import Zemo.Lib.Run

set_option autoImplicit false

/-! # The search row of a file and its analyses

One file has one row in `local_search_documents` and, over time, many rows in `semantic_analyses`.
Four writers touch them: a scan that saw the file, an extraction that read it, an analysis that
succeeded and an analysis that failed. Each rebuilds its own columns of the search row, and each
rebuilds the indexed text from what it knows.

Of the columns only those are here that one of the writers reads, with those of the batch that an
analysis is stored in. -/

namespace Zemo.Semantic

open Checked

inductive PersistenceError where
  | notFound
  | invalidSemanticOutput
  | sqlite
deriving DecidableEq, Repr

/-! ## Analyses -/

inductive SemanticStatus where
  | pending
  | running
  | success
  | partialResult
  | unknown
  | failed
  | cancelled
deriving DecidableEq, Repr

inductive DocumentType where
  | invoice | quote | contract | purchaseOrder | deliveryNote | bankStatement | taxDocument
  | payslip | employmentContract | insuranceDocument | legalDocument | administrativeDocument
  | receipt | report | letter | cv | photo | video | spreadsheet | presentation | archive
  | other | unknown
deriving DecidableEq, Repr

def DocumentType.databaseName : DocumentType → String
  | .invoice => "invoice"
  | .quote => "quote"
  | .contract => "contract"
  | .purchaseOrder => "purchase_order"
  | .deliveryNote => "delivery_note"
  | .bankStatement => "bank_statement"
  | .taxDocument => "tax_document"
  | .payslip => "payslip"
  | .employmentContract => "employment_contract"
  | .insuranceDocument => "insurance_document"
  | .legalDocument => "legal_document"
  | .administrativeDocument => "administrative_document"
  | .receipt => "receipt"
  | .report => "report"
  | .letter => "letter"
  | .cv => "cv"
  | .photo => "photo"
  | .video => "video"
  | .spreadsheet => "spreadsheet"
  | .presentation => "presentation"
  | .archive => "archive"
  | .other => "other"
  | .unknown => "unknown"

inductive DocumentContext where
  | personal | business | mixed | unknown
deriving DecidableEq, Repr

def DocumentContext.databaseName : DocumentContext → String
  | .personal => "personal"
  | .business => "business"
  | .mixed => "mixed"
  | .unknown => "unknown"

inductive SemanticFieldType where
  | documentType | context | supplierCandidate | customerCandidate | issuer | invoiceNumber
  | quoteNumber | documentNumber | issueDate | dueDate | expirationDate | documentDate | subtotal
  | tax | total | amount | currency | purchaseOrderReference | projectReferenceCandidate
  | contractParties | contractTitle | contractType | companyIdentifier
deriving DecidableEq, Repr

inductive SemanticValue where
  | text (value : String)
  | date (isoDate : String)
  | money (amountMinor : Int) (scale : Nat) (currency : Option String)
  | documentType (value : DocumentType)
  | context (value : DocumentContext)
  | textList (values : List String)
deriving DecidableEq, Repr

structure SemanticField where
  fieldType : SemanticFieldType
  value : Option SemanticValue
  confidence : Rat
deriving DecidableEq, Repr

structure SemanticAnalysis where
  status : SemanticStatus
  fields : List SemanticField
deriving DecidableEq, Repr

/-- `primary_field`. -/
def primaryField (fields : List SemanticField) (fieldType : SemanticFieldType) :
    Option SemanticField :=
  fields.find? fun field => field.fieldType = fieldType

/-- What a search row shows of an analysis. -/
structure Projection where
  documentType : Option DocumentType
  context : Option DocumentContext
  status : Option SemanticStatus
  confidence : Option Rat
deriving DecidableEq, Repr

/-- The semantic columns of a row without an analysis. -/
def Projection.none : Projection := ⟨.none, .none, .none, .none⟩

def documentValue (field : SemanticField) : Option (DocumentType × Rat) :=
  match field.value with
  | some (.documentType value) => some (value, field.confidence)
  | _ => none

def contextValue (field : SemanticField) : Option DocumentContext :=
  match field.value with
  | some (.context value) => some value
  | _ => none

/-- `semantic_projection_values`, with the status that is written beside them. -/
def semanticProjectionValues (status : SemanticStatus) (fields : List SemanticField) :
    Projection :=
  let document := (primaryField fields .documentType).bind documentValue
  { documentType := document.map Prod.fst
    context := (primaryField fields .context).bind contextValue
    status := some status
    confidence := document.map Prod.snd }

/-- A row of `semantic_analyses`, with the fields stored for it. -/
structure AnalysisRow where
  id : Nat
  batchId : Nat
  fileVersionId : Nat
  status : SemanticStatus
  fields : List SemanticField
  isCurrent : Bool
deriving DecidableEq, Repr

def AnalysisRow.projection (row : AnalysisRow) : Projection :=
  semanticProjectionValues row.status row.fields

structure Batch where
  id : Nat
  scanId : Nat
  running : Bool
  filesQueued : Nat
  filesCompleted : Nat
deriving DecidableEq, Repr

/-! ## The search row -/

inductive ExtractionStatus where
  | pending | running | success | partialResult | unsupported | skipped | failed
deriving DecidableEq, Repr

inductive OcrStatus where
  | used | unavailable | notUsed
deriving DecidableEq, Repr

structure SearchDocument where
  fileVersionId : Nat
  extension : Option String
  detectedType : Option String
  metadataText : List Char
  extractionResultId : Option Nat
  extractionStatus : Option ExtractionStatus
  ocrStatus : Option OcrStatus
  semantic : Projection
deriving DecidableEq, Repr

/-- `trim(X)` of SQLite, which takes spaces only. -/
def trimSpaces (text : List Char) : List Char :=
  (text.rdropWhile fun c => c = ' ').dropWhile fun c => c = ' '

/-- `COALESCE(X, '')`. -/
def orEmpty (text : Option String) : List Char := (text.map String.toList).getD []

/-- `trim(COALESCE(extension, '') || ' ' || COALESCE(detected_type, ''))`. -/
def fileWords (extension detectedType : Option String) : List Char :=
  trimSpaces (orEmpty extension ++ ' ' :: orEmpty detectedType)

/-- The join of all four columns, as `store_semantic_analysis` writes it. -/
def allWords (extension detectedType : Option String) (semantic : Projection) : List Char :=
  trimSpaces (orEmpty extension ++ ' ' :: orEmpty detectedType ++
    ' ' :: orEmpty (semantic.documentType.map DocumentType.databaseName) ++
    ' ' :: orEmpty (semantic.context.map DocumentContext.databaseName))

/-- What the tables hold of one file. -/
structure FileRecord where
  document : Option SearchDocument
  analyses : List AnalysisRow
  batches : List Batch
deriving DecidableEq, Repr

/-- A file nothing was written about yet. -/
def FileRecord.new : FileRecord := ⟨none, [], []⟩

/-! ## Scan and extraction -/

/-- A version of the file as a scan stored it: its extension and the media type of its content. -/
structure FileVersion where
  id : Nat
  extension : Option String
  mediaType : Option String
deriving DecidableEq, Repr

def newDocument (version : FileVersion) : SearchDocument where
  fileVersionId := version.id
  extension := version.extension
  detectedType := version.mediaType
  metadataText := fileWords version.extension version.mediaType
  extractionResultId := none
  extractionStatus := none
  ocrStatus := none
  semantic := .none

/-- `ON CONFLICT(file_id) DO UPDATE`: what belongs to the version is kept when the version is the
same. -/
def upsertDocument (document : SearchDocument) (version : FileVersion) : SearchDocument :=
  if document.fileVersionId = version.id then
    { document with
      extension := version.extension
      detectedType := document.detectedType.or version.mediaType
      metadataText := fileWords version.extension (document.detectedType.or version.mediaType) }
  else newDocument version

/-- `upsert_scan_search_document`. -/
def upsertScanSearchDocument (version : FileVersion) (s : FileRecord) : FileRecord :=
  { s with
    document := some <|
      match s.document with
      | none => newDocument version
      | some document => upsertDocument document version
    analyses := s.analyses.map fun row =>
      if row.fileVersionId ≠ version.id ∧ row.isCurrent then { row with isCurrent := false }
      else row }

inductive ErrorCategory where
  | cancelled | ocrUnavailable | other
deriving DecidableEq, Repr

structure ExtractionResultInput where
  status : ExtractionStatus
  detectedContentType : String
  requiresOcr : Bool
  ocrUsed : Bool
  errorCategory : Option ErrorCategory
deriving DecidableEq, Repr

/-- `ensure_search_document`, on the latest version of the file. -/
def ensureSearchDocument (latest : Option FileVersion) (s : FileRecord) : FileRecord :=
  match s.document with
  | some _ => s
  | none => { s with document := latest.map newDocument }

def readText (status : ExtractionStatus) : Bool := status = .success || status = .partialResult

/-- `extraction_status NOT IN ('success', 'partial')`, which is not true of a null. -/
def didNotRead (status : Option ExtractionStatus) : Bool := status.any fun status => !readText status

/-- The rows the update of `synchronize_search_extraction` applies to. -/
def takesExtraction (document : SearchDocument) (status : ExtractionStatus) : Bool :=
  readText status || document.extractionResultId.isNone || didNotRead document.extractionStatus

def ocrStatusOf (result : ExtractionResultInput) : OcrStatus :=
  if result.ocrUsed then .used
  else if result.requiresOcr ∧ result.errorCategory = some .ocrUnavailable then .unavailable
  else .notUsed

def extractDocument (document : SearchDocument) (extractionResultId : Nat)
    (result : ExtractionResultInput) : SearchDocument :=
  { document with
    extractionResultId := some extractionResultId
    detectedType := some result.detectedContentType
    metadataText := fileWords document.extension (some result.detectedContentType)
    extractionStatus := some result.status
    ocrStatus := some (ocrStatusOf result) }

/-- `synchronize_search_extraction`. -/
def synchronizeSearchExtraction (latest : Option FileVersion) (extractionResultId : Nat)
    (result : ExtractionResultInput) (s : FileRecord) : FileRecord :=
  if result.errorCategory = some .cancelled then s
  else
    let s := ensureSearchDocument latest s
    { s with
      document := s.document.map fun document =>
        if takesExtraction document result.status then
          extractDocument document extractionResultId result
        else document }

/-- What `synchronize_unfinished_extractions` does to the row: the extraction of its version never
ended. -/
def synchronizeUnfinished (extractionResultId fileVersionId : Nat) (s : FileRecord) : FileRecord :=
  { s with
    document := s.document.map fun document =>
      if document.fileVersionId = fileVersionId ∧
          (document.extractionResultId.isNone ∨ didNotRead document.extractionStatus) then
        { document with
          extractionResultId := some extractionResultId
          extractionStatus := some .failed
          ocrStatus := some .notUsed }
      else document }

/-! ## Analyses -/

/-- The file of an analysis, as the batch loaded it from the search row. -/
structure SemanticAnalysisCandidate where
  scanId : Nat
  fileVersionId : Nat
deriving DecidableEq, Repr

/-- A running batch with this id. -/
def isRunning (id : Nat) (batches : List Batch) : Bool :=
  batches.any fun batch => batch.id = id && batch.running

/-- The check `files_completed <= files_queued` after one more. -/
def hasRoom (id : Nat) (batches : List Batch) : Bool :=
  batches.all fun batch =>
    !(batch.id = id && batch.running) || decide (batch.filesCompleted + 1 ≤ batch.filesQueued)

def completeFile (id : Nat) (batches : List Batch) : List Batch :=
  batches.map fun batch =>
    if batch.id = id ∧ batch.running then
      { batch with filesCompleted := batch.filesCompleted + 1 }
    else batch

/-- `begin_semantic_batch`. -/
def beginSemanticBatch (id scanId filesQueued : Nat) (s : FileRecord) :
    Except PersistenceError FileRecord := do
  require (s.batches.all fun batch => batch.id ≠ id) .sqlite
  pure { s with batches := s.batches ++ [⟨id, scanId, true, filesQueued, 0⟩] }

/-- `finish_semantic_batch`. -/
def finishSemanticBatch (id : Nat) (s : FileRecord) : Except PersistenceError FileRecord := do
  require (isRunning id s.batches) .notFound
  pure { s with
    batches := s.batches.map fun batch =>
      if batch.id = id then { batch with running := false } else batch }

/-- The row `analysis_id`, while it is running for this version. -/
def awaitedRow (analysisId fileVersionId : Nat) (analyses : List AnalysisRow) :
    Option AnalysisRow :=
  analyses.find? fun row =>
    row.id = analysisId && row.fileVersionId = fileVersionId && row.status = .running

/-- `begin_semantic_analysis`. -/
def beginSemanticAnalysis (analysisId batchId : Nat) (candidate : SemanticAnalysisCandidate)
    (s : FileRecord) : Except PersistenceError FileRecord := do
  require (s.batches.any fun batch =>
    batch.id = batchId && batch.running && batch.scanId = candidate.scanId) .notFound
  require (s.analyses.all fun row => row.id ≠ analysisId) .sqlite
  pure { s with
    analyses := s.analyses ++
      [⟨analysisId, batchId, candidate.fileVersionId, .running, [], false⟩] }

def isFinished (status : SemanticStatus) : Bool :=
  status = .success || status = .partialResult || status = .unknown

/-- The current analyses of a version other than this one are superseded. -/
def supersede (analysisId fileVersionId : Nat) (analyses : List AnalysisRow) :
    List AnalysisRow :=
  analyses.map fun row =>
    if row.fileVersionId = fileVersionId ∧ row.isCurrent ∧ row.id ≠ analysisId then
      { row with isCurrent := false }
    else row

def finishAnalysis (analysisId : Nat) (analysis : SemanticAnalysis)
    (analyses : List AnalysisRow) : List AnalysisRow :=
  analyses.map fun row =>
    if row.id = analysisId ∧ row.status = .running then
      { row with status := analysis.status, fields := analysis.fields, isCurrent := true }
    else row

/-- The semantic columns of the row, and the indexed text with them. -/
def showAnalysis (fileVersionId : Nat) (semantic : Projection) (document : SearchDocument) :
    SearchDocument :=
  if document.fileVersionId = fileVersionId then
    { document with
      semantic := semantic
      metadataText := allWords document.extension document.detectedType semantic }
  else document

/-- The writes of a finished analysis: the search row, the row of the analysis and those it
supersedes, and the count of its batch. -/
def recordAnalysis (analysisId : Nat) (candidate : SemanticAnalysisCandidate)
    (analysis : SemanticAnalysis) (batchId : Nat) (s : FileRecord) : FileRecord where
  document := s.document.map <| showAnalysis candidate.fileVersionId <|
    semanticProjectionValues analysis.status analysis.fields
  analyses := finishAnalysis analysisId analysis
    (supersede analysisId candidate.fileVersionId s.analyses)
  batches := completeFile batchId s.batches

/-- `store_semantic_analysis`. Whether the analysis is valid, and whether the rows of its fields,
entities, evidence and reviews are accepted, is given. -/
def storeSemanticAnalysis (analysisId : Nat) (candidate : SemanticAnalysisCandidate)
    (analysis : SemanticAnalysis) (valid rowsAccepted : Bool) (s : FileRecord) :
    Except PersistenceError FileRecord := do
  require (valid && isFinished analysis.status) .invalidSemanticOutput
  let awaited ← orError (awaitedRow analysisId candidate.fileVersionId s.analyses) .notFound
  require rowsAccepted .sqlite
  require (hasRoom awaited.batchId s.batches) .sqlite
  pure (recordAnalysis analysisId candidate analysis awaited.batchId s)

def hasCurrent (fileVersionId : Nat) (analyses : List AnalysisRow) : Bool :=
  analyses.any fun row => row.fileVersionId = fileVersionId && row.isCurrent

/-- The semantic columns of a failure; the indexed text stays. -/
def showFailure (fileVersionId : Nat) (document : SearchDocument) : SearchDocument :=
  if document.fileVersionId = fileVersionId then
    { document with semantic := ⟨none, none, some .failed, none⟩ }
  else document

/-- The writes of a failure: it is current, and shown in the search row, only when its version has
no current analysis. -/
def recordFailure (analysisId batchId : Nat) (candidate : SemanticAnalysisCandidate)
    (s : FileRecord) : FileRecord where
  document :=
    if hasCurrent candidate.fileVersionId s.analyses then s.document
    else s.document.map (showFailure candidate.fileVersionId)
  analyses := s.analyses ++ [⟨analysisId, batchId, candidate.fileVersionId, .failed, [],
    !hasCurrent candidate.fileVersionId s.analyses⟩]
  batches := completeFile batchId s.batches

/-- `store_semantic_failure`. -/
def storeSemanticFailure (analysisId batchId : Nat) (candidate : SemanticAnalysisCandidate)
    (rowsAccepted : Bool) (s : FileRecord) : Except PersistenceError FileRecord := do
  require (isRunning batchId s.batches) .notFound
  require (rowsAccepted && s.analyses.all fun row => row.id ≠ analysisId) .sqlite
  require (hasRoom batchId s.batches) .sqlite
  pure (recordFailure analysisId batchId candidate s)

/-! ## Runs -/

/-- What a writer is called with. The ids of new rows are those the writer generates. -/
inductive Write where
  | upsertScan (version : FileVersion)
  | storeExtraction (latest : Option FileVersion) (extractionResultId : Nat)
      (result : ExtractionResultInput)
  | abandonExtraction (extractionResultId fileVersionId : Nat)
  | beginBatch (id scanId filesQueued : Nat)
  | finishBatch (id : Nat)
  | beginAnalysis (analysisId batchId : Nat) (candidate : SemanticAnalysisCandidate)
  | storeAnalysis (analysisId : Nat) (candidate : SemanticAnalysisCandidate)
      (analysis : SemanticAnalysis) (valid rowsAccepted : Bool)
  | storeFailure (analysisId batchId : Nat) (candidate : SemanticAnalysisCandidate)
      (rowsAccepted : Bool)
deriving DecidableEq, Repr

def Write.run : Write → FileRecord → Except PersistenceError FileRecord
  | .upsertScan version, s => .ok (upsertScanSearchDocument version s)
  | .storeExtraction latest id result, s => .ok (synchronizeSearchExtraction latest id result s)
  | .abandonExtraction id version, s => .ok (synchronizeUnfinished id version s)
  | .beginBatch id scanId filesQueued, s => beginSemanticBatch id scanId filesQueued s
  | .finishBatch id, s => finishSemanticBatch id s
  | .beginAnalysis id batchId candidate, s => beginSemanticAnalysis id batchId candidate s
  | .storeAnalysis id candidate analysis valid rowsAccepted, s =>
      storeSemanticAnalysis id candidate analysis valid rowsAccepted s
  | .storeFailure id batchId candidate rowsAccepted, s =>
      storeSemanticFailure id batchId candidate rowsAccepted s

/-- A writer is one transaction: when it fails, nothing is written. -/
def step (w : Write) (s : FileRecord) : FileRecord :=
  match w.run s with
  | .ok t => t
  | .error _ => s

end Zemo.Semantic
