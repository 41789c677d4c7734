import Zemo.Extraction.Batch

set_option autoImplicit false

/-! # The parser worker and the engine in the process

`DeterministicExtractor` of the parser worker gets all bytes of a file; `extract_candidate` reads
what the plan asks for. They agree on every file but the texts that are longer than the part the
plan lets be read: of these the worker refuses the whole, and the process reads the start. -/

namespace Zemo.Extraction

/-! ## The worker -/

/-- `ExtractionRequest`. As for the engine, no text has `2 ^ 63` characters. -/
structure ExtractionRequest where
  requestId : String
  mediaType : Option String
  extension : Option String
  bytes : Bytes
  maxOutputChars : Nat
  charactersFit : maxOutputChars < 2 ^ 63

/-- `ExtractionMethod`. -/
inductive ExtractionMethod where
  | nativeText | parser | ocr | hybrid | metadataOnly
  deriving DecidableEq, Repr

/-- `ExtractionWarning`. -/
inductive ExtractionWarning where
  | outputTruncated | ocrUnavailable | unsupportedFormat | archiveBudgetExceeded
  | potentialArchiveBomb | malformedContent
  deriving DecidableEq, Repr

/-- `ExtractionError`. -/
inductive ExtractionError where
  | inputTooLarge
  | unsupported
  | malformed (message : String)
  | ocrUnavailable (message : String)
  | worker (message : String)
  deriving DecidableEq, Repr

/-- `ExtractedDocument`, without the metadata and the pages, of which there are none. -/
structure ExtractedDocument where
  requestId : String
  title : Option Text
  text : Text
  method : ExtractionMethod
  language : Option String
  warnings : List ExtractionWarning

/-- The method that a document names. -/
def methodOf : Option ExtractorType → ExtractionMethod
  | some .plainText => .nativeText
  | some .pdfOcr | some .imageOcr => .ocr
  | some .imageMetadata | some .zipMetadata => .metadataOnly
  | _ => .parser

/-- The warnings about a result. -/
def warningsOf (result : ExtractionResult) : List ExtractionWarning :=
  (if result.truncated then [.outputTruncated] else [])
    ++ (if result.errorCategory = some .ocrUnavailable then [.ocrUnavailable] else [])
    ++ if result.errorCategory = some .potentialArchiveBomb then [.potentialArchiveBomb] else []

/-- The title of a text: the start of its first line that is not blank. -/
def titleOf (text : Text) : Option Text :=
  (((lines text).map Organizer.trimChars).find? (· ≠ [])).map (List.take 160)

/-- The document of a result. -/
def ExtractionRequest.document (request : ExtractionRequest) (result : ExtractionResult) :
    ExtractedDocument where
  requestId := request.requestId
  title := titleOf result.text
  text := result.text
  method := methodOf result.extractor
  language := result.languageHint
  warnings := warningsOf result

/-- The limits with another number of characters. -/
def limitsFor (characters : Nat) : ExtractionLimits :=
  ExtractionLimits.normalized { maxExtractedCharacters := characters }

theorem limitsFor_fit {characters : Nat} (h : characters < 2 ^ 63) :
    (limitsFor characters).maxExtractedCharacters < 2 ^ 63 := by
  show max characters 1 < 2 ^ 63
  omega

theorem limitsFor_max (characters : Nat) : limitsFor (max characters 1) = limitsFor characters := by
  simp [limitsFor, ExtractionLimits.normalized]

/-- The engine with a number of characters and without other settings. -/
def engineFor (characters : Nat) (ocrLanguages : List String) (fit : characters < 2 ^ 63) :
    LocalExtractionEngine :=
  ⟨limitsFor characters, ocrLanguages, limitsFor_fit fit⟩

/-- The engine of a request. -/
def ExtractionRequest.engine (request : ExtractionRequest) : LocalExtractionEngine :=
  engineFor (max request.maxOutputChars 1) ["eng"] (by have := request.charactersFit; omega)

/-- The tools of the worker: there is no OCR and no renderer, and nobody cancels. -/
def Tools.forWorker (tools : Tools) : Tools :=
  { tools with tesseract := none, renderPage := none, isCancelled := fun _ => false }

/-- What the worker answers to a result. -/
def ExtractionRequest.answer (request : ExtractionRequest) (result : ExtractionResult) :
    Except ExtractionError ExtractedDocument :=
  match result.status with
  | .unsupported => .error .unsupported
  | .skipped => .error .inputTooLarge
  | .failed => .error (.malformed (result.errorMessage.getD "local parser failed"))
  | .pending | .running =>
      .error (.worker "local parser returned an invalid transient status")
  | .success | .partialResult => .ok (request.document result)

/-- `DeterministicExtractor::extract`. -/
def deterministicExtract (tools : Tools) (request : ExtractionRequest) :
    Except ExtractionError ExtractedDocument :=
  let engine := request.engine
  let head := request.bytes.take engine.limits.detectionBytes
  let fileSize := request.bytes.length
  let plan := engine.prepare tools.forWorker request.extension head fileSize
  request.answer (engine.extract tools.forWorker plan request.bytes fileSize)

/-! ## Verdicts -/

/-- What becomes of a file: its text is read, or why not. -/
inductive Verdict where
  | read (text : Text)
  | unsupported
  | refused
  | failed
  deriving DecidableEq, Repr

/-- The verdict of a status and a text. -/
def verdictOf : ExtractionStatus → Text → Verdict
  | .success, text | .partialResult, text => .read text
  | .unsupported, _ => .unsupported
  | .skipped, _ => .refused
  | .failed, _ | .pending, _ | .running, _ => .failed

/-- The verdict of a result of the process. -/
def ExtractionResult.verdict (result : ExtractionResult) : Verdict :=
  verdictOf result.status result.text

/-- The verdict of an answer of the worker. -/
def answerVerdict : Except ExtractionError ExtractedDocument → Verdict
  | .ok document => .read document.text
  | .error .unsupported => .unsupported
  | .error .inputTooLarge => .refused
  | .error (.malformed _) | .error (.ocrUnavailable _) | .error (.worker _) => .failed

@[simp] theorem answerVerdict_answer (request : ExtractionRequest) (result : ExtractionResult) :
    answerVerdict (request.answer result) = result.verdict := by
  unfold ExtractionRequest.answer ExtractionResult.verdict
  cases result.status <;> rfl

/-! ## A renderer without OCR

A renderer of pages alone reads nothing: the parsers do not look at it, and a PDF without text names
what else is missing. -/

/-- The tools with another renderer. -/
def Tools.withRenderer (tools : Tools) (renderPage : Option (Nat → Except OcrError Bytes)) :
    Tools :=
  { tools with renderPage }

section Renderer

@[simp] theorem Tools.withRenderer_unescape (t : Tools) (r : Option (Nat → Except OcrError Bytes)) :
    (t.withRenderer r).unescape = t.unescape := rfl

@[simp] theorem Tools.withRenderer_openZip (t : Tools) (r : Option (Nat → Except OcrError Bytes)) :
    (t.withRenderer r).openZip = t.openZip := rfl

@[simp] theorem Tools.withRenderer_isCancelled (t : Tools)
    (r : Option (Nat → Except OcrError Bytes)) :
    (t.withRenderer r).isCancelled = t.isCancelled := rfl

variable (l : ExtractionLimits) (t : Tools) (r : Option (Nat → Except OcrError Bytes))
  (g g' : List String)

theorem eventText_withRenderer : eventText (t.withRenderer r) = eventText t := rfl

theorem extractWordText_withRenderer : extractWordText (t.withRenderer r) = extractWordText t := by
  have hloop (wellFormed : Bool) (events : List XmlEvent) (output : Text) :
      wordLoop (t.withRenderer r) wellFormed events output =
        wordLoop t wellFormed events output := by
    induction events generalizing output with
    | nil => rfl
    | cons event rest ih => cases event <;> simp only [wordLoop, eventText_withRenderer, ih]
  funext xml
  exact congrArg (Except.map Organizer.trimChars) (hloop _ _ _)

theorem parseSharedStrings_withRenderer :
    parseSharedStrings (t.withRenderer r) = parseSharedStrings t := by
  have hloop (wellFormed : Bool) (events : List XmlEvent) (values : List Text) (current : Text)
      (inside : Bool) :
      sharedStringsLoop (t.withRenderer r) wellFormed events values current inside =
        sharedStringsLoop t wellFormed events values current inside := by
    induction events generalizing values current inside with
    | nil => rfl
    | cons event rest ih =>
      cases event <;> simp only [sharedStringsLoop, eventText_withRenderer, ih]
  funext xml
  exact hloop _ _ _ _ _

theorem parseSheetNames_withRenderer : parseSheetNames (t.withRenderer r) = parseSheetNames t := by
  have hnames (attributes : List (Bytes × Text)) (names : List Text) :
      sheetAttributes (t.withRenderer r) attributes names = sheetAttributes t attributes names := by
    induction attributes generalizing names with
    | nil => rfl
    | cons a rest ih => simp only [sheetAttributes, Tools.withRenderer_unescape, ih]
  have hloop (wellFormed : Bool) (events : List XmlEvent) (names : List Text) :
      sheetNamesLoop (t.withRenderer r) wellFormed events names =
        sheetNamesLoop t wellFormed events names := by
    induction events generalizing names with
    | nil => rfl
    | cons event rest ih => cases event <;> simp only [sheetNamesLoop, hnames, ih]
  funext xml
  exact hloop _ _ _

theorem parseWorksheet_withRenderer : parseWorksheet (t.withRenderer r) = parseWorksheet t := by
  have hloop (strings : List Text) (maxCells : Nat) (wellFormed : Bool) (events : List XmlEvent)
      (s : Worksheet) : worksheetLoop (t.withRenderer r) strings maxCells wellFormed events s =
        worksheetLoop t strings maxCells wellFormed events s := by
    induction events generalizing s with
    | nil => rfl
    | cons event rest ih =>
      cases event <;> simp only [worksheetLoop, eventText_withRenderer, ih]
  funext xml strings maxCells
  exact hloop _ _ _ _ _

theorem docxText_withRenderer : docxText ⟨l, t.withRenderer r, g⟩ = docxText ⟨l, t, g'⟩ := by
  have hloop (archive : ZipArchive) (index : Nat) (names : List Text) (text : Text)
      (bytesRead : Nat) : docxLoop ⟨l, t.withRenderer r, g⟩ archive index names text bytesRead =
        docxLoop ⟨l, t, g'⟩ archive index names text bytesRead := by
    induction names generalizing index text bytesRead with
    | nil => rfl
    | cons name rest ih =>
      simp only [docxLoop, Tools.withRenderer_isCancelled, extractWordText_withRenderer, ih]
  funext archive names
  exact hloop _ _ _ _ _

theorem pptxText_withRenderer : pptxText ⟨l, t.withRenderer r, g⟩ = pptxText ⟨l, t, g'⟩ := by
  have hloop (archive : ZipArchive) (index : Nat) (names : List Text) (text : Text)
      (bytesRead : Nat) : pptxLoop ⟨l, t.withRenderer r, g⟩ archive index names text bytesRead =
        pptxLoop ⟨l, t, g'⟩ archive index names text bytesRead := by
    induction names generalizing index text bytesRead with
    | nil => rfl
    | cons name rest ih =>
      simp only [pptxLoop, Tools.withRenderer_isCancelled, extractWordText_withRenderer, ih]
  funext archive names
  simp only [pptxText, hloop]

theorem xlsxText_withRenderer : xlsxText ⟨l, t.withRenderer r, g⟩ = xlsxText ⟨l, t, g'⟩ := by
  have hloop (archive : ZipArchive) (strings sheets : List Text) (index : Nat) (names : List Text)
      (text : Text) (cellsSeen bytesRead : Nat) :
      xlsxLoop ⟨l, t.withRenderer r, g⟩ archive strings sheets index names text cellsSeen
          bytesRead =
        xlsxLoop ⟨l, t, g'⟩ archive strings sheets index names text cellsSeen bytesRead := by
    induction names generalizing index text cellsSeen bytesRead with
    | nil => rfl
    | cons name rest ih =>
      simp only [xlsxLoop, Tools.withRenderer_isCancelled, parseWorksheet_withRenderer, ih]
  funext archive names
  simp only [xlsxText, optionalPart, parseSharedStrings_withRenderer, parseSheetNames_withRenderer,
    hloop]

theorem extractOffice_withRenderer (kind : OfficeKind) (input : ExtractionInput) :
    extractOffice kind input ⟨l, t.withRenderer r, g⟩ = extractOffice kind input ⟨l, t, g'⟩ := by
  have hpayload (archive : ZipArchive) (names : List Text) (actual : OfficeKind) :
      officePayload ⟨l, t.withRenderer r, g⟩ archive names actual =
        officePayload ⟨l, t, g'⟩ archive names actual := by
    cases actual with
    | docx => rw [officePayload, officePayload, docxText_withRenderer]
    | xlsx => rw [officePayload, officePayload, xlsxText_withRenderer]
    | pptx => rw [officePayload, officePayload, pptxText_withRenderer]
  simp only [extractOffice, Tools.withRenderer_openZip, hpayload]

theorem extractZip_withRenderer (input : ExtractionInput) :
    extractZip input ⟨l, t.withRenderer r, g⟩ = extractZip input ⟨l, t, g'⟩ := by
  have hscan (index : Nat) (entries : List (Option ZipEntry)) (s : ZipScan) :
      scanZipEntries ⟨l, t.withRenderer r, g⟩ index entries s =
        scanZipEntries ⟨l, t, g'⟩ index entries s := by
    induction entries generalizing index s with
    | nil => rfl
    | cons entry rest ih =>
      cases entry with
      | none => rfl
      | some entry => simp only [scanZipEntries, Tools.withRenderer_isCancelled, ih]
  simp only [extractZip, Tools.withRenderer_openZip, hscan]

/-- What of an extractor's answer the verdict depends on. -/
def reading (extracted : Extracted) : Except ExtractionFailure (ExtractionStatus × Text) :=
  extracted.map fun payload => (payload.status, payload.text)

variable {t}

theorem extractImage_withRenderer (hocr : t.tesseract = none) (input : ExtractionInput) :
    extractImage input ⟨l, t.withRenderer r, g⟩ = extractImage input ⟨l, t, g'⟩ := by
  have htesseract : (t.withRenderer r).tesseract = none := hocr
  simp only [extractImage, ocrImage, hocr, htesseract]
  rfl

theorem extractPdf_withRenderer (hocr : t.tesseract = none) (input : ExtractionInput) :
    reading (extractPdf input ⟨l, t.withRenderer r, g⟩) =
      reading (extractPdf input ⟨l, t, g'⟩) := by
  have hscanned (pageCount : Nat) (tools : Tools) (h : tools.tesseract = none) (g : List String) :
      reading (extractScannedPdf ⟨l, tools, g⟩ pageCount) =
        .ok (.partialResult, []) := by
    unfold extractScannedPdf
    cases tools.renderPage <;> simp only [h] <;> rfl
  have hloaded (document : PdfDocument) :
      reading (extractLoadedPdf input ⟨l, t.withRenderer r, g⟩ document) =
        reading (extractLoadedPdf input ⟨l, t, g'⟩ document) := by
    unfold extractLoadedPdf
    dsimp only
    by_cases hencrypted : document.isEncrypted = true
    · rw [if_pos hencrypted, if_pos hencrypted]
    · rw [if_neg hencrypted, if_neg hencrypted]
      by_cases hpages : l.maxPages < document.pageCount
      · rw [if_pos hpages, if_pos hpages]
      · rw [if_neg hpages, if_neg hpages]
        by_cases husable : document.pageCount = 0 ∨
            hasUsableText ((t.pdfText input.bytes).getD []) document.pageCount
        · exact (congrArg reading (if_pos husable)).trans (congrArg reading (if_pos husable)).symm
        · refine (congrArg reading (if_neg husable)).trans
            (Eq.trans ?_ (congrArg reading (if_neg husable)).symm)
          rw [hscanned _ t hocr, hscanned _ (t.withRenderer r) hocr]
  unfold extractPdf
  split_ifs with htruncated hheader hencrypted
  · rfl
  · rfl
  · cases hload : t.loadPdf input.bytes with
    | error message =>
      have hother : (t.withRenderer r).loadPdf input.bytes = .error message := hload
      simp only [hother]
    | ok document =>
      have hother : (t.withRenderer r).loadPdf input.bytes = .ok document := hload
      simp only [hother, hloaded]
  · rfl

/-- Without OCR the renderer and the languages change neither the status nor the text. -/
theorem reading_withRenderer (hocr : t.tesseract = none) {kind : ContentKind}
    {extractorType : ExtractorType} {run : ExtractionInput → ExtractionContext → Extracted}
    (h : extractorFor kind = some (extractorType, run)) (input : ExtractionInput) :
    reading (run input ⟨l, t.withRenderer r, g⟩) = reading (run input ⟨l, t, g'⟩) := by
  cases kind with
  | text => cases h; rfl
  | pdf => cases h; exact extractPdf_withRenderer _ _ _ _ hocr _
  | office kind =>
    cases kind <;> cases h <;> exact congrArg reading (extractOffice_withRenderer _ _ _ _ _ _ _)
  | zip => cases h; exact congrArg reading (extractZip_withRenderer _ _ _ _ _ _)
  | image => cases h; exact congrArg reading (extractImage_withRenderer _ _ _ _ hocr _)
  | video => cases h; rfl
  | legacyOffice => cases h
  | executable => cases h
  | unknown => cases h

end Renderer

/-! ## The same call -/

/-- The verdict of what a parser read. -/
def readingVerdict (limits : ExtractionLimits) :
    Except ExtractionFailure (ExtractionStatus × Text) → Verdict
  | .error failure => verdictOf failure.status []
  | .ok (status, text) => verdictOf status (text.take limits.maxExtractedCharacters)

theorem payload_verdict (limits : ExtractionLimits) (plan : ExtractionPlan)
    (payload : ExtractionPayload) (durationMs : Nat) :
    (resultFromPayload plan (cutPayload limits payload) durationMs).verdict =
      verdictOf payload.status (payload.text.take limits.maxExtractedCharacters) := by
  have hstatus (text : Text) :
      verdictOf (cutPayload limits payload).status text = verdictOf payload.status text := by
    unfold cutPayload
    dsimp only
    split_ifs with hlong hsuccess
    · rw [hsuccess]
      rfl
    · rfl
    · rfl
  show verdictOf (cutPayload limits payload).status (cutPayload limits payload).text = _
  rw [hstatus, cutPayload_text]

theorem runExtractor_verdict (engine : LocalExtractionEngine) (tools : Tools)
    (plan : ExtractionPlan) (extractorType : ExtractorType)
    (run : ExtractionInput → ExtractionContext → Extracted) (bytes : Bytes) (fileSize : Nat) :
    (engine.runExtractor tools plan extractorType run bytes fileSize).verdict =
      if tools.panics then .failed
      else
        readingVerdict engine.limits (reading (run ⟨bytes, bytes.length < fileSize, plan.detection⟩
          ⟨engine.limits, tools, engine.ocrLanguages⟩)) := by
  unfold LocalExtractionEngine.runExtractor
  split_ifs with hpanics
  · rfl
  · cases hrun : run ⟨bytes, bytes.length < fileSize, plan.detection⟩
      ⟨engine.limits, tools, engine.ocrLanguages⟩ with
    | error failure => rfl
    | ok payload => exact payload_verdict _ _ _ _

/-- The same call of two engines that differ in the renderer and the languages only. -/
theorem extract_verdict_withRenderer {engine other : LocalExtractionEngine} {tools : Tools}
    (renderPage : Option (Nat → Except OcrError Bytes)) (hlimits : engine.limits = other.limits)
    (hocr : tools.tesseract = none) (plan : ExtractionPlan) (bytes : Bytes) (fileSize : Nat) :
    (engine.extract (tools.withRenderer renderPage) plan bytes fileSize).verdict =
      (other.extract tools plan bytes fileSize).verdict := by
  unfold LocalExtractionEngine.extract
  rw [Tools.withRenderer_isCancelled]
  split_ifs with hplan hcancelled
  · rfl
  · rfl
  · cases inputRefused plan.readMode bytes.length fileSize with
    | some message => rfl
    | none =>
      cases hextractor : extractorFor plan.detection.contentKind with
      | none => rfl
      | some pair =>
        dsimp only
        rw [runExtractor_verdict, runExtractor_verdict, hlimits,
          reading_withRenderer _ _ _ other.ocrLanguages hocr hextractor]
        rfl

/-! ## A file on both paths -/

/-- A file with an extension, and the parsers that meet it. A video that is read in part is refused
before any parser sees it. -/
structure ParsedFile where
  bytes : Bytes
  extension : Option String
  tools : Tools
  noOcr : tools.tesseract = none
  notCancelled : tools.isCancelled = fun _ => false
  refusedUnparsed : maxScanBytes < bytes.length →
    (tools.detect extension (bytes.take (64 * 1024))).contentKind = .video → tools.panics = false

namespace ParsedFile

variable (file : ParsedFile)

/-- The type that the first bytes of the file show. -/
def detection : FileTypeDetection := file.tools.detect file.extension (file.bytes.take (64 * 1024))

/-- `read_for_plan`. -/
def readForPlan : ReadMode → Except PlatformError Bytes
  | .none => .ok []
  | .start limit => .ok (file.bytes.take limit)
  | .whole limit => if limit < file.bytes.length then .error .precondition else .ok file.bytes

/-- What the process meets when it reads the file. -/
def look (engine : LocalExtractionEngine) : Look where
  head := .ok (file.bytes.take engine.limits.detectionBytes)
  body := file.readForPlan
  tools := file.tools

/-- The file as the scan found it. -/
def candidate (fileVersionId : Nat) (declaredMediaType : Option String) : ExtractionCandidate where
  fileVersionId
  extension := file.extension
  declaredMediaType
  byteSize := file.bytes.length
  readable := true

/-- The request to the worker for what the engine extracts of the file. -/
def request (engine : LocalExtractionEngine) (requestId : String) (mediaType : Option String) :
    ExtractionRequest where
  requestId
  mediaType
  extension := file.extension
  bytes := file.bytes
  maxOutputChars := engine.limits.maxExtractedCharacters
  charactersFit := engine.charactersFit

/-- The worker and the process come to one verdict. -/
def Agrees (engine : LocalExtractionEngine) : Prop :=
  ∀ requestId mediaType fileVersionId declaredMediaType,
    answerVerdict (deterministicExtract file.tools (file.request engine requestId mediaType)) =
      (extractCandidate engine (file.look engine)
        (file.candidate fileVersionId declaredMediaType)).verdict

end ParsedFile

/-- The engine has the limits of the worker, but for the number of characters. -/
def LocalExtractionEngine.Standard (engine : LocalExtractionEngine) : Prop :=
  engine.limits = limitsFor engine.limits.maxExtractedCharacters

section Paths

variable {file : ParsedFile} {engine : LocalExtractionEngine}

/-- The plan of both paths. -/
def ParsedFile.plan (file : ParsedFile) (engine : LocalExtractionEngine) : ExtractionPlan :=
  planForDetection engine.limits file.detection file.bytes.length

theorem request_limits (h : engine.Standard) (requestId : String) (mediaType : Option String) :
    (file.request engine requestId mediaType).engine.limits = engine.limits := by
  show limitsFor (max engine.limits.maxExtractedCharacters 1) = engine.limits
  rw [limitsFor_max]
  exact h.symm

theorem forWorker_eq (file : ParsedFile) :
    file.tools.forWorker = file.tools.withRenderer none := by
  unfold Tools.forWorker Tools.withRenderer
  rw [← file.noOcr, ← file.notCancelled]

theorem worker_verdict (h : engine.Standard) (requestId : String) (mediaType : Option String) :
    answerVerdict (deterministicExtract file.tools (file.request engine requestId mediaType)) =
      (engine.extract file.tools (file.plan engine) file.bytes file.bytes.length).verdict := by
  have hlimits := @request_limits file _ h requestId mediaType
  have hplan : (file.request engine requestId mediaType).engine.prepare file.tools.forWorker
      file.extension (file.bytes.take (64 * 1024)) file.bytes.length = file.plan engine := by
    unfold LocalExtractionEngine.prepare ParsedFile.plan
    rw [hlimits]
    rfl
  show answerVerdict (ExtractionRequest.answer _ (LocalExtractionEngine.extract _ _
    ((file.request engine requestId mediaType).engine.prepare file.tools.forWorker
      file.extension (file.bytes.take (64 * 1024)) file.bytes.length) file.bytes _)) = _
  rw [answerVerdict_answer, hplan, forWorker_eq]
  exact extract_verdict_withRenderer none hlimits file.noOcr _ _ _

/-- What the process lets be read of a file. -/
def ParsedFile.readBytes (file : ParsedFile) : ReadMode → Bytes
  | .start limit => file.bytes.take limit
  | .none | .whole _ => file.bytes

/-- A file is planned to be read whole only where it fits. -/
theorem planForDetection_whole {limits : ExtractionLimits} {detection : FileTypeDetection}
    {fileSize limit : Nat}
    (h : (planForDetection limits detection fileSize).readMode = .whole limit) :
    fileSize ≤ limit := by
  have hwhole {allowed : Nat} (h : (wholePlan detection fileSize allowed).readMode = .whole limit) :
      fileSize ≤ limit := by
    unfold wholePlan at h
    split_ifs at h with hsize
    · cases h
    · cases h
      omega
  unfold planForDetection at h
  split_ifs at h
  · cases h
  · split at h
    all_goals first
      | exact hwhole h
      | cases h

theorem sourceSize_unchanged (readMode : ReadMode) :
    sourceSizeChanged file.bytes.length (file.readBytes readMode).length readMode = false := by
  cases readMode with
  | none => rfl
  | whole limit => simp [sourceSizeChanged, ParsedFile.readBytes]
  | start limit =>
    simp only [sourceSizeChanged, ParsedFile.readBytes, List.length_take]
    split_ifs with hlimit
    · simp [Nat.min_eq_right hlimit]
    · simp [Nat.min_eq_left (Nat.le_of_not_le hlimit)]

/-- The process extracts what it reads. -/
theorem process_extract (h : engine.Standard) (fileVersionId : Nat)
    (declaredMediaType : Option String) :
    extractCandidate engine (file.look engine) (file.candidate fileVersionId declaredMediaType) =
      engine.extract file.tools (file.plan engine) (file.readBytes (file.plan engine).readMode)
        file.bytes.length := by
  have hdetection : engine.limits.detectionBytes = 64 * 1024 := by rw [h]; rfl
  have hplan : engine.prepare file.tools file.extension
      (file.bytes.take engine.limits.detectionBytes) file.bytes.length = file.plan engine := by
    rw [hdetection]
    rfl
  unfold extractCandidate
  simp only [ParsedFile.look, ParsedFile.candidate, not_true_eq_false, if_false, hplan]
  by_cases hinput : (file.plan engine).requiresInput = true
  · rw [if_neg (not_not_intro hinput)]
    have hbody : file.readForPlan (file.plan engine).readMode =
        .ok (file.readBytes (file.plan engine).readMode) := by
      cases hmode : (file.plan engine).readMode with
      | none => simp [ExtractionPlan.requiresInput, hmode] at hinput
      | start limit => rfl
      | whole limit => exact if_neg (Nat.not_lt.2 (planForDetection_whole hmode))
    rw [hbody]
    simp only [sourceSize_unchanged, Bool.false_eq_true, if_false]
  · rw [if_pos hinput]
    unfold LocalExtractionEngine.extract
    rw [if_pos (.inr hinput), if_pos (.inr hinput)]

/-! ## Where not all is read -/

/-- A file of which only a start is read is a text or a video. -/
theorem plan_start {limits : ExtractionLimits} {detection : FileTypeDetection}
    {fileSize limit : Nat}
    (h : (planForDetection limits detection fileSize).readMode = .start limit) :
    planForDetection limits detection fileSize = readPlan detection (.start limit) ∧
      detection.mismatch = false ∧
        (detection.contentKind = .text ∧ limit = limits.maxTextInputBytes ∨
          detection.contentKind = .video ∧ limit = maxScanBytes) := by
  have hwhole {allowed : Nat} (h : (wholePlan detection fileSize allowed).readMode = .start limit) :
      False := by
    unfold wholePlan at h
    split_ifs at h <;> cases h
  unfold planForDetection at h ⊢
  split_ifs at h ⊢ with hmismatch
  · cases h
  · have hmatch : detection.mismatch = false := by simpa using hmismatch
    split at h <;> rename_i hkind
    case h_1 =>
      cases h
      exact ⟨rfl, hmatch, .inl ⟨hkind, rfl⟩⟩
    case h_6 =>
      cases h
      exact ⟨rfl, hmatch, .inr ⟨hkind, rfl⟩⟩
    all_goals first
      | exact (hwhole h).elim
      | cases h

/-- More bytes than the plan asks for are refused. -/
theorem extract_start_refused {detection : FileTypeDetection} {limit : Nat} {bytes : Bytes}
    {fileSize : Nat} (hcancelled : file.tools.isCancelled = fun _ => false)
    (h : limit < bytes.length) :
    (engine.extract file.tools (readPlan detection (.start limit)) bytes fileSize).verdict =
      .refused := by
  unfold LocalExtractionEngine.extract
  rw [if_neg (by simp [readPlan, ExtractionPlan.requiresInput]), hcancelled,
    if_neg Bool.false_ne_true]
  simp only [readPlan, inputRefused, if_pos h]
  rfl

/-- The start of a file is handed to the extractor of its kind. -/
theorem extract_start_read {detection : FileTypeDetection} {limit : Nat} {bytes : Bytes}
    {fileSize : Nat} {extractorType : ExtractorType}
    {run : ExtractionInput → ExtractionContext → Extracted}
    (hcancelled : file.tools.isCancelled = fun _ => false) (h : bytes.length ≤ limit)
    (hrun : extractorFor detection.contentKind = some (extractorType, run)) :
    engine.extract file.tools (readPlan detection (.start limit)) bytes fileSize =
      engine.runExtractor file.tools (readPlan detection (.start limit)) extractorType run bytes
        fileSize := by
  unfold LocalExtractionEngine.extract
  rw [if_neg (by simp [readPlan, ExtractionPlan.requiresInput]), hcancelled,
    if_neg Bool.false_ne_true]
  simp only [readPlan, inputRefused, if_neg (Nat.not_lt.2 h), hrun]

/-- A text is read or its decoding fails; it is never refused for its size. -/
theorem extractPlainText_not_refused (limits : ExtractionLimits) (input : ExtractionInput) :
    readingVerdict limits (reading (extractPlainText input)) ≠ .refused := by
  have hpayload (text : Text) :
      readingVerdict limits (reading (.ok (plainTextPayload input text))) ≠ .refused := by
    unfold plainTextPayload
    split_ifs <;> exact Verdict.noConfusion
  unfold extractPlainText
  by_cases hnul : 0 ∈ withoutMark input.bytes
  · rw [if_pos hnul]
    exact Verdict.noConfusion
  · rw [if_neg hnul]
    split
    · exact hpayload _
    · split_ifs
      · exact hpayload _
      · exact Verdict.noConfusion
    · exact Verdict.noConfusion

/-- The paths disagree about a text that is longer than what is read of it. -/
theorem longText_disagrees (h : engine.Standard) (hkind : file.detection.contentKind = .text)
    (hmatch : file.detection.mismatch = false)
    (hlong : ({} : ExtractionLimits).maxTextInputBytes < file.bytes.length)
    (requestId : String) (mediaType declaredMediaType : Option String) (fileVersionId : Nat) :
    answerVerdict (deterministicExtract file.tools (file.request engine requestId mediaType)) ≠
      (extractCandidate engine (file.look engine)
        (file.candidate fileVersionId declaredMediaType)).verdict := by
  have hplan : file.plan engine =
      readPlan file.detection (.start ({} : ExtractionLimits).maxTextInputBytes) := by
    have hlimit : engine.limits.maxTextInputBytes = ({} : ExtractionLimits).maxTextInputBytes := by
      rw [h]
      rfl
    unfold ParsedFile.plan planForDetection
    rw [if_neg (by simp [hmatch]), hkind, ← hlimit]
  have hrun : extractorFor file.detection.contentKind =
      some (.plainText, fun input _ => extractPlainText input) := by
    rw [hkind]
    rfl
  rw [worker_verdict h, process_extract h, hplan, extract_start_refused file.notCancelled hlong]
  show Verdict.refused ≠ (engine.extract file.tools _ (file.bytes.take _) _).verdict
  rw [extract_start_read file.notCancelled (List.length_take_le _ _) hrun, runExtractor_verdict]
  split_ifs with hpanics
  · exact Verdict.noConfusion
  · exact (extractPlainText_not_refused _ _).symm

/-- The paths agree about a file that is read to its end, and about a video. -/
theorem agrees_of_not_longText (h : engine.Standard)
    (hshort : ¬(file.detection.contentKind = .text ∧ file.detection.mismatch = false ∧
      ({} : ExtractionLimits).maxTextInputBytes < file.bytes.length)) : file.Agrees engine := by
  intro requestId mediaType fileVersionId declaredMediaType
  rw [worker_verdict h, process_extract h]
  by_cases hfits : ∀ limit, (file.plan engine).readMode = .start limit → file.bytes.length ≤ limit
  · have hbytes : file.readBytes (file.plan engine).readMode = file.bytes := by
      cases hmode : (file.plan engine).readMode with
      | none => rfl
      | start limit => exact List.take_of_length_le (hfits limit hmode)
      | whole limit => rfl
    rw [hbytes]
  · push Not at hfits
    obtain ⟨limit, hmode, hlong⟩ := hfits
    obtain ⟨hplan, hmatch, ⟨hkind, rfl⟩ | ⟨hkind, rfl⟩⟩ := plan_start hmode
    · have hlimit : engine.limits.maxTextInputBytes =
          ({} : ExtractionLimits).maxTextInputBytes := by
        rw [h]
        rfl
      exact absurd ⟨hkind, hmatch, hlimit ▸ hlong⟩ hshort
    · change file.plan engine = _ at hplan
      have hrun : extractorFor file.detection.contentKind =
          some (.videoMetadata, extractVideo) := by
        rw [hkind]
        rfl
      rw [hplan, extract_start_refused file.notCancelled hlong]
      show Verdict.refused = (engine.extract file.tools _ (file.bytes.take _) _).verdict
      rw [extract_start_read file.notCancelled (List.length_take_le _ _) hrun,
        runExtractor_verdict, file.refusedUnparsed hlong hkind, if_neg Bool.false_ne_true]
      have htruncated : (file.bytes.take maxScanBytes).length < file.bytes.length := by
        rw [List.length_take]
        omega
      unfold extractVideo
      rw [if_pos (by simpa using htruncated)]
      rfl

/-- **The worker and the process agree exactly** on the files that are not texts of more than four
MiB, whatever the number of characters: such a text the worker refuses, and the process reads. -/
theorem worker_agrees_iff (h : engine.Standard) :
    file.Agrees engine ↔
      ¬(file.detection.contentKind = .text ∧ file.detection.mismatch = false ∧
        4 * 1024 * 1024 < file.bytes.length) := by
  refine ⟨fun hagrees hlong => ?_, agrees_of_not_longText h⟩
  exact longText_disagrees h hlong.1 hlong.2.1 hlong.2.2 "" none none 0
    (hagrees "" none 0 none)

end Paths

/-! ## Two files -/

/-- A text file. -/
def textFile (bytes : Bytes) : ParsedFile where
  bytes
  extension := some "txt"
  tools := partTools fun _ => []
  noOcr := rfl
  notCancelled := rfl
  refusedUnparsed := fun _ _ => rfl

/-- A short text is read alike. -/
theorem worker_agrees_iff_short : (textFile (ascii "hi")).Agrees .localDefault :=
  (@worker_agrees_iff _ .localDefault rfl).2 (by decide +kernel)

/-- The start of a text of letters is found to be a text. -/
theorem textFile_detection (n : Nat) :
    (textFile (List.replicate (n + 1) 0x61)).detection =
      ⟨some "txt", .text, "text/plain", false, false⟩ := by
  obtain ⟨m, hm⟩ : ∃ m, (List.replicate (n + 1) (0x61 : UInt8)).take (64 * 1024) =
      0x61 :: List.replicate m 0x61 := by
    rw [List.take_replicate]
    exact ⟨min (64 * 1024) (n + 1) - 1, by rw [← List.replicate_succ]; congr 1; omega⟩
  have hmagic : magicType none (0x61 :: List.replicate m 0x61) = none := by
    simp [magicType, isMachO, ascii, List.cons_prefix_cons]
  unfold ParsedFile.detection
  show (textFile _).tools.detect _ ((List.replicate (n + 1) (0x61 : UInt8)).take (64 * 1024)) = _
  rw [hm]
  show detectFileType none _ (some "txt") _ = _
  unfold detectFileType
  rw [hmagic]
  rfl

/-- Of a text one byte longer than four MiB only the process reads the start. -/
theorem longText_read_in_process :
    ¬(textFile (List.replicate (4 * 1024 * 1024 + 1) 0x61)).Agrees .localDefault := by
  intro hagrees
  have hdetection := textFile_detection (4 * 1024 * 1024)
  refine @longText_disagrees _ .localDefault rfl (by rw [hdetection]) (by rw [hdetection]) ?_
    "" none none 0 (hagrees "" none 0 none)
  show 4 * 1024 * 1024 < (List.replicate (4 * 1024 * 1024 + 1) (0x61 : UInt8)).length
  rw [List.length_replicate]
  omega

end Zemo.Extraction
