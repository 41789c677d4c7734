import Zemo.Extraction.Harmless

set_option autoImplicit false

/-! # Limits that cut without a word

What the limits may take away of a file: bytes, extracted characters, characters of the OCR, cells,
slides, pages for the OCR, entries of an archive. The extractors report what they cut, except for
the characters of the OCR, and the pages of a scanned PDF of which another one could not be
recognized. -/

namespace Zemo.Extraction

open Organizer (trimChars)

/-! ## What is there to be read -/

/-- The text in the output of the OCR process. -/
def recognizedText (parseF32 : Text → Option ℚ) (output : Bytes) : Option Text :=
  (Utf8.decode? output).map fun tsv => (((lines tsv).drop 1).foldl (tsvRow parseF32) {}).text

/-- The text that the OCR recognizes on an image, all of it. -/
def recognized (tools : Tools) (run : Bytes → Except OcrError Bytes) (image : Bytes)
    (mediaType : String) (cancelled : Bool) : Option Text :=
  if mediaType ∈ ocrMediaTypes ∧ cancelled = false then
    match run image with
    | .error _ => none
    | .ok output => recognizedText tools.parseF32 output
  else none

/-- The text of the page of a scanned PDF, all of it. -/
def recognizedPage (tools : Tools) (render : Nat → Except OcrError Bytes)
    (run : Nat → Bytes → Except OcrError Bytes) (page : Nat) : Option Text :=
  match render page with
  | .error _ => none
  | .ok image => recognized tools (run page) image "image/png" (tools.isCancelled page)

/-- The text of a PDF with the text of one more page. -/
def addPage (text page : Text) : Text :=
  if trimChars page = [] then text else text ++ (if text = [] then [] else ['\n']) ++ page

/-- The pages in one text, those that were recognized, each up to the limit. -/
def joinPages (limit : Nat) (pages : List (Option Text)) : Text :=
  (pages.filterMap id).foldl (fun text page => addPage text (page.take limit)) []

/-- The cells of a worksheet. -/
def cellCount (events : List XmlEvent) : Nat :=
  events.countP fun event =>
    match event with
    | .start name _ | .empty name _ => localName name = ascii "c"
    | _ => false

/-- The cells in a part of a spreadsheet. -/
def partCells (tools : Tools) (archive : ZipArchive) (name : Text) : Nat :=
  match archive.part name with
  | some (_, some xml) => cellCount (tools.readXml true xml).events
  | _ => 0

/-- The line of an entry of an archive. -/
def entryLine (entry : Option ZipEntry) : Text := (entry.map manifestLine).getD []

/-! ## What becomes of a file -/

/-- An image is handed to the OCR, which recognizes a text on it. -/
def RecognizesImage (input : ExtractionInput) (context : ExtractionContext) (text : Text) : Prop :=
  ∃ width height run, input.inputTruncated = false ∧
    context.tools.blobSize input.bytes = some (width, height) ∧ width < 2 ^ 32 ∧ height < 2 ^ 32 ∧
    width * height ≤ context.limits.maxImagePixels ∧
    imageMediaType input context.tools ∈ ocrMediaTypes ∧ context.tools.tesseract = some run ∧
    context.tools.isCancelled 1 = false ∧ context.tools.gateLocks 0 = true ∧
    recognized context.tools (run 0) input.bytes (imageMediaType input context.tools)
      (context.tools.isCancelled 2) = some text

/-- The pages of a document that the OCR gets. -/
def ocrPages (context : ExtractionContext) (document : PdfDocument) : Nat :=
  min document.pageCount context.limits.maxOcrPages

/-- A PDF without native text is handed to the OCR, and nothing stops it. -/
def ScansPdf (input : ExtractionInput) (context : ExtractionContext) (document : PdfDocument)
    (texts : List (Option Text)) : Prop :=
  OpensPdf input context document ∧ document.pageCount ≠ 0 ∧
    hasUsableText ((context.tools.pdfText input.bytes).getD []) document.pageCount = false ∧
    ∃ render run, context.tools.renderPage = some render ∧ context.tools.tesseract = some run ∧
      (∀ page ∈ List.range' 1 (ocrPages context document),
        context.tools.isCancelled page = false ∧ context.tools.gateLocks page = true ∧
          ∀ error, recognizePage context render run page = .error error →
            error.kind ≠ .cancelled) ∧
      texts = (List.range' 1 (ocrPages context document)).map
        (recognizedPage context.tools render run)

/-- The parts of an Office document that can be opened. -/
def OpensOffice (kind : OfficeKind) (input : ExtractionInput) (context : ExtractionContext)
    (archive : ZipArchive) (names : List Text) : Prop :=
  input.inputTruncated = false ∧ context.tools.openZip input.bytes = some archive ∧
    inspectArchive context.limits archive = .ok names ∧ officeKind names = some kind

/-- The slides of a presentation. -/
def slideNames (names : List Text) : List Text := names.filter (isNumberedXml "ppt/slides/slide")

/-- The worksheets of a spreadsheet. -/
def sheetNames (names : List Text) : List Text :=
  names.filter (isNumberedXml "xl/worksheets/sheet")

/-! ## What is cut -/

/-- The extractor of the kind of a file leaves something out because of a limit. -/
def KindCut (kind : ContentKind) (input : ExtractionInput) (context : ExtractionContext) : Prop :=
  match kind with
  | .image => ∃ text, RecognizesImage input context text ∧
      context.limits.maxOcrOutputCharacters < text.length
  | .pdf => ∃ document texts, ScansPdf input context document texts ∧
      (ocrPages context document < document.pages ∨
        ∃ text, some text ∈ texts ∧ context.limits.maxOcrOutputCharacters < text.length)
  | .office .xlsx => ∃ archive names, OpensOffice .xlsx input context archive names ∧
      context.limits.maxSpreadsheetCells
        < ((sheetNames names).map (partCells context.tools archive)).sum
  | .office .pptx => ∃ archive names, OpensOffice .pptx input context archive names ∧
      context.limits.maxPages < (slideNames names).length
  | .zip => ∃ archive scan, context.tools.openZip input.bytes = some archive ∧
      scanZipEntries context 0 archive.entries {} = .ok scan ∧
      scan.manifest ≠ archive.entries.flatMap entryLine
  | _ => False

/-- A limit takes something away of a file that is read: its start only reaches the parser, the
extractor leaves something out, or its text is too long for the engine. Of a file that is refused,
or that fails, nothing is read. -/
def LocalExtractionEngine.Cuts (engine : LocalExtractionEngine) (tools : Tools)
    (plan : ExtractionPlan) (bytes : Bytes) (fileSize : Nat) : Prop :=
  let input : ExtractionInput := ⟨bytes, bytes.length < fileSize, plan.detection⟩
  let context : ExtractionContext := ⟨engine.limits, tools, engine.ocrLanguages⟩
  ReachesParser tools plan bytes fileSize ∧ tools.panics = false ∧
    ∃ extractorType run payload,
      extractorFor plan.detection.contentKind = some (extractorType, run) ∧
      run input context = .ok payload ∧
      (input.inputTruncated = true ∨ KindCut plan.detection.contentKind input context ∨
        engine.limits.maxExtractedCharacters < payload.text.length)

/-- The result tells whether a limit took something away. -/
def ExtractionResult.Reports (result : ExtractionResult) (cut : Prop) : Prop :=
  (result.status = .success → ¬cut) ∧
    (cut → result.truncated = true ∧ result.status ≠ .success)

/-- The extractor leaves something out and does not say so, and the engine has nothing to add. -/
def SilentCut (kind : ContentKind) (input : ExtractionInput) (context : ExtractionContext) : Prop :=
  match kind with
  | .image => ∃ text, RecognizesImage input context text ∧
      context.limits.maxOcrOutputCharacters < text.length ∧
      context.limits.maxOcrOutputCharacters ≤ context.limits.maxExtractedCharacters
  | .pdf => ∃ document texts, ScansPdf input context document texts ∧
      (ocrPages context document < document.pages ∨
        ∃ text, some text ∈ texts ∧ context.limits.maxOcrOutputCharacters < text.length) ∧
      (none ∈ texts ∨ document.pageCount ≤ ocrPages context document) ∧
      (joinPages context.limits.maxOcrOutputCharacters texts).length
        ≤ context.limits.maxExtractedCharacters
  -- slides are counted up to `u32::MAX`
  | .office .pptx => ∃ archive names text count, OpensOffice .pptx input context archive names ∧
      2 ^ 32 - 1 ≤ context.limits.maxPages ∧ context.limits.maxPages < (slideNames names).length ∧
      pptxText context archive names = .ok (text, count) ∧
      text.length ≤ context.limits.maxExtractedCharacters
  | _ => False

/-! ## The loops -/

/-- What the OCR hands over is the start of what it recognizes. -/
theorem recognize_text (tools : Tools) (run : Bytes → Except OcrError Bytes) (image : Bytes)
    (mediaType : String) (languages : List String) (limit : Nat) (cancelled : Bool) :
    (recognize tools run image mediaType languages limit cancelled).toOption.map OcrResult.text =
      (recognized tools run image mediaType cancelled).map (List.take limit) := by
  unfold recognize recognized
  by_cases hmedia : mediaType ∈ ocrMediaTypes
  · rw [if_neg (not_not_intro hmedia)]
    cases cancelled with
    | true => rw [if_pos rfl, if_neg (by simp)]; rfl
    | false =>
      rw [if_neg Bool.false_ne_true, if_pos ⟨hmedia, rfl⟩]
      cases run image with
      | error error => rfl
      | ok output =>
        dsimp only [parseTesseractTsv, recognizedText]
        cases hdecode : Utf8.decode? output with
        | none => rfl
        | some tsv => rfl
  · rw [if_pos hmedia, if_neg fun h => hmedia h.1]
    rfl

theorem recognizePage_text (context : ExtractionContext) (render : Nat → Except OcrError Bytes)
    (run : Nat → Bytes → Except OcrError Bytes) (page : Nat) :
    (recognizePage context render run page).toOption.map OcrResult.text =
      (recognizedPage context.tools render run page).map
        (List.take context.limits.maxOcrOutputCharacters) := by
  unfold recognizePage recognizedPage
  cases render page with
  | error error => rfl
  | ok image => exact recognize_text _ _ _ _ _ _ _

/-- The walk over a directory that cuts nothing lists every entry. -/
theorem scanZipEntries_full {context : ExtractionContext} {entries : List (Option ZipEntry)}
    {index : Nat} {s scan : ZipScan} (h : scanZipEntries context index entries s = .ok scan)
    (hfull : scan.truncated = false) :
    scan.manifest = s.manifest ++ entries.flatMap entryLine := by
  induction entries generalizing index s with
  | nil =>
    obtain rfl := Except.ok.inj h
    simp
  | cons entry rest ih =>
    unfold scanZipEntries at h
    split_ifs at h with hcancel
    cases entry with
    | none => exact nomatch h
    | some entry =>
      dsimp only at h
      split_ifs at h with hmanifest hlarge
      · obtain rfl := Except.ok.inj h
        exact nomatch hfull
      · obtain rfl := Except.ok.inj h
        exact nomatch hfull
      · rw [ih h, List.flatMap_cons, ← List.append_assoc]
        rfl

/-- The pages of a scanned PDF: the text so far, and how many were recognized. -/
theorem scanPages_eq {context : ExtractionContext} {render : Nat → Except OcrError Bytes}
    {run : Nat → Bytes → Except OcrError Bytes} {pages : List Nat} {s scan : PdfScan}
    (h : scanPages context render run pages s = .ok scan) :
    scan.text = ((pages.map (recognizedPage context.tools render run)).filterMap id).foldl
        (fun text page => addPage text (page.take context.limits.maxOcrOutputCharacters)) s.text ∧
      scan.processedPages = s.processedPages +
        ((pages.map (recognizedPage context.tools render run)).filterMap id).length := by
  induction pages generalizing s with
  | nil =>
    obtain rfl := Except.ok.inj h
    exact ⟨rfl, rfl⟩
  | cons page rest ih =>
    have htext := recognizePage_text context render run page
    unfold scanPages at h
    split_ifs at h with hcancel hgate
    cases hpage : recognizePage context render run page with
    | ok result =>
      rw [hpage] at h htext
      obtain ⟨ihtext, ihpages⟩ := ih h
      obtain ⟨text, hrecognized, hcut⟩ := Option.map_eq_some_iff.1 htext.symm
      have hpages : ((page :: rest).map (recognizedPage context.tools render run)).filterMap id =
          text :: (rest.map (recognizedPage context.tools render run)).filterMap id := by
        rw [List.map_cons, hrecognized]
        rfl
      rw [hpages, List.foldl_cons, List.length_cons, hcut]
      refine ⟨ihtext, ihpages.trans ?_⟩
      show s.processedPages + 1 + _ = _
      omega
    | error error =>
      rw [hpage] at h htext
      have hnone : recognizedPage context.tools render run page = none :=
        Option.map_eq_none_iff.1 htext.symm
      dsimp only at h
      split_ifs at h with hkind
      obtain ⟨ihtext, ihpages⟩ := ih h
      have hpages : ((page :: rest).map (recognizedPage context.tools render run)).filterMap id =
          (rest.map (recognizedPage context.tools render run)).filterMap id := by
        rw [List.map_cons, hnone]
        rfl
      rw [hpages]
      exact ⟨ihtext, ihpages⟩

/-- The pages are gone through to the end where nothing stops the OCR. -/
theorem scanPages_isOk {context : ExtractionContext} {render : Nat → Except OcrError Bytes}
    {run : Nat → Bytes → Except OcrError Bytes} {pages : List Nat} {s : PdfScan} :
    (∃ scan, scanPages context render run pages s = .ok scan) ↔
      ∀ page ∈ pages, context.tools.isCancelled page = false ∧
        context.tools.gateLocks page = true ∧
          ∀ error, recognizePage context render run page = .error error →
            error.kind ≠ .cancelled := by
  induction pages generalizing s with
  | nil => exact iff_of_true ⟨s, rfl⟩ (List.forall_mem_nil _)
  | cons page rest ih =>
    rw [List.forall_mem_cons]
    unfold scanPages
    by_cases hcancel : context.tools.isCancelled page = true
    · rw [if_pos hcancel]
      simp [hcancel]
    by_cases hgate : context.tools.gateLocks page = true
    · rw [if_neg hcancel, if_neg (not_not_intro hgate)]
      cases hpage : recognizePage context render run page with
      | ok result =>
        dsimp only
        rw [ih]
        simp [hcancel, hgate]
      | error error =>
        dsimp only
        by_cases hkind : error.kind = .cancelled
        · rw [if_pos hkind]
          simp [hkind]
        · rw [if_neg hkind, ih]
          simp [hcancel, hgate, hkind]
    · rw [if_neg hcancel, if_pos hgate]
      simp [hgate]

/-- A worksheet that is read without reaching the limit has no more cells than that. -/
theorem worksheetLoop_cells {tools : Tools} {strings : List Text} {maxCells : Nat}
    {wellFormed : Bool} {events : List XmlEvent} {s sheet : Worksheet}
    (h : worksheetLoop tools strings maxCells wellFormed events s = .ok sheet)
    (hall : sheet.truncated = false) (hs : s.cellsSeen ≤ maxCells) :
    sheet.cellsSeen = s.cellsSeen + cellCount events ∧ sheet.cellsSeen ≤ maxCells := by
  induction events generalizing s with
  | nil =>
    unfold worksheetLoop at h
    split_ifs at h
    obtain rfl := Except.ok.inj h
    exact ⟨rfl, hs⟩
  | cons event rest ih =>
    -- an event that is not a cell leaves the count as it is
    have hskip {s' : Worksheet}
        (h : worksheetLoop tools strings maxCells wellFormed rest s' = .ok sheet)
        (hs' : s'.cellsSeen = s.cellsSeen)
        (hevent : cellCount (event :: rest) = cellCount rest) :
        sheet.cellsSeen = s.cellsSeen + cellCount (event :: rest) ∧ sheet.cellsSeen ≤ maxCells := by
      obtain ⟨hseen, hmax⟩ := ih h (hs'.trans_le hs)
      exact ⟨by rw [hseen, hs', hevent], hmax⟩
    have hcell {s' : Worksheet}
        (h : worksheetLoop tools strings maxCells wellFormed rest s' = .ok sheet)
        (hs' : s'.cellsSeen = s.cellsSeen + 1)
        (hevent : cellCount (event :: rest) = cellCount rest + 1)
        (hroom : ¬maxCells ≤ s.cellsSeen) :
        sheet.cellsSeen = s.cellsSeen + cellCount (event :: rest) ∧ sheet.cellsSeen ≤ maxCells := by
      obtain ⟨hseen, hmax⟩ := ih h (by omega)
      exact ⟨by omega, hmax⟩
    cases event with
    | start name attributes =>
      rw [worksheetLoop] at h
      by_cases hc : localName name = ascii "c"
      · rw [if_pos hc] at h
        split_ifs at h with hfull
        · obtain rfl := Except.ok.inj h
          exact nomatch hall
        · exact hcell h rfl (List.countP_cons_of_pos (by simpa using hc)) hfull
      · rw [if_neg hc] at h
        have hevent : cellCount (.start name attributes :: rest) = cellCount rest :=
          List.countP_cons_of_neg (by simpa using hc)
        split_ifs at h with hvalue hformula
        · exact hskip h rfl hevent
        · exact hskip h rfl hevent
        · exact hskip h rfl hevent
    | empty name attributes =>
      rw [worksheetLoop] at h
      by_cases hc : localName name = ascii "c"
      · rw [if_pos hc] at h
        split_ifs at h with hfull
        · obtain rfl := Except.ok.inj h
          exact nomatch hall
        · exact hcell h rfl (List.countP_cons_of_pos (by simpa using hc)) hfull
      · rw [if_neg hc] at h
        exact hskip h rfl (List.countP_cons_of_neg (by simpa using hc))
    | text decoded =>
      have hevent : cellCount (.text decoded :: rest) = cellCount rest :=
        List.countP_cons_of_neg (by simp)
      rw [worksheetLoop] at h
      split_ifs at h
      · cases htext : eventText tools decoded with
        | error failure => rw [htext] at h; exact nomatch h
        | ok text => rw [htext] at h; exact hskip h rfl hevent
      · exact hskip h rfl hevent
    | close name =>
      have hevent : cellCount (.close name :: rest) = cellCount rest :=
        List.countP_cons_of_neg (by simp)
      rw [worksheetLoop] at h
      split_ifs at h
      · exact hskip h rfl hevent
      · exact hskip h rfl hevent
      · exact hskip h rfl hevent
    | other =>
      rw [worksheetLoop] at h
      exact hskip h rfl (List.countP_cons_of_neg (by simp))

theorem parseWorksheet_cells {tools : Tools} {xml : Bytes} {strings : List Text} {maxCells : Nat}
    {sheet : Worksheet} (h : parseWorksheet tools xml strings maxCells = .ok sheet)
    (hall : sheet.truncated = false) :
    sheet.cellsSeen = cellCount (tools.readXml true xml).events ∧ sheet.cellsSeen ≤ maxCells := by
  have hcells := worksheetLoop_cells h hall (Nat.zero_le _)
  rwa [show ({} : Worksheet).cellsSeen = 0 from rfl, Nat.zero_add] at hcells

/-- The worksheets that are read without reaching the limit have no more cells than that. -/
theorem xlsxLoop_cells {context : ExtractionContext} {archive : ZipArchive}
    {strings sheets : List Text} {index : Nat} {names : List Text} {text result : Text}
    {cellsSeen bytesRead : Nat}
    (h : xlsxLoop context archive strings sheets index names text cellsSeen bytesRead =
      .ok (result, false)) (hseen : cellsSeen ≤ context.limits.maxSpreadsheetCells) :
    cellsSeen + (names.map (partCells context.tools archive)).sum
      ≤ context.limits.maxSpreadsheetCells := by
  induction names generalizing index text cellsSeen bytesRead with
  | nil => simpa using hseen
  | cons name rest ih =>
    unfold xlsxLoop at h
    split_ifs at h
    cases hentry : readEntry context.limits archive name bytesRead with
    | error failure => rw [hentry] at h; exact nomatch h
    | ok entry =>
      obtain ⟨xml, bytesRead'⟩ := entry
      rw [hentry] at h
      dsimp only at h
      cases hsheet : parseWorksheet context.tools xml strings
          (context.limits.maxSpreadsheetCells - cellsSeen) with
      | error failure => rw [hsheet] at h; exact nomatch h
      | ok sheet =>
        rw [hsheet] at h
        dsimp only at h
        split_ifs at h with htruncated
        · cases h
        have hall : sheet.truncated = false := by simpa using htruncated
        obtain ⟨hcount, hmax⟩ := parseWorksheet_cells hsheet hall
        have hpart : partCells context.tools archive name = sheet.cellsSeen := by
          rw [hcount]
          unfold readEntry at hentry
          unfold partCells
          cases hpart : archive.part name with
          | none => rw [hpart] at hentry; exact nomatch hentry
          | some part =>
            obtain ⟨size, content⟩ := part
            rw [hpart] at hentry
            dsimp only at hentry
            split_ifs at hentry
            cases content with
            | none => exact nomatch hentry
            | some bytes =>
              dsimp only at hentry
              split_ifs at hentry
              obtain ⟨rfl, -⟩ := Prod.mk.inj (Except.ok.inj hentry)
              rfl
        have hrest := ih h (by omega)
        rw [List.map_cons, List.sum_cons, hpart]
        omega

/-! ## What each extractor reports -/

/-- A payload that is cut is no success, and one whose text the engine leaves as it is says so
exactly where no cut is silent. -/
def CutsReported (limits : ExtractionLimits) (extracted : Extracted) (cut silent : Prop) : Prop :=
  (∀ payload, extracted = .ok payload → payload.truncated = true → payload.status ≠ .success) ∧
    ((∀ payload, extracted = .ok payload →
      payload.text.length ≤ limits.maxExtractedCharacters → cut → payload.truncated = true) ↔
        ¬silent)

section Extractors

variable {limits : ExtractionLimits} {extracted : Extracted} {cut silent : Prop}

/-- An extractor that says so whenever it cuts. -/
theorem cutsReported_always
    (h : ∀ payload, extracted = .ok payload →
      (payload.truncated = true → payload.status ≠ .success) ∧ (cut → payload.truncated = true)) :
    CutsReported limits extracted cut False :=
  ⟨fun payload hp => (h payload hp).1,
    iff_of_true (fun payload hp _ => (h payload hp).2) not_false⟩

/-- An extractor whose payloads are known where it cuts. -/
theorem cutsReported_of_payload
    (hsuccess : ∀ payload, extracted = .ok payload →
      payload.truncated = true → payload.status ≠ .success)
    (hsilent : silent → cut ∧ ∃ payload, extracted = .ok payload)
    (hcut : cut → ∀ payload, extracted = .ok payload →
      (silent ↔ payload.text.length ≤ limits.maxExtractedCharacters ∧
        payload.truncated = false)) :
    CutsReported limits extracted cut silent := by
  refine ⟨hsuccess, fun h hs => ?_, fun hs payload hp hlength hc => ?_⟩
  · obtain ⟨hc, payload, hp⟩ := hsilent hs
    obtain ⟨hlength, hfalse⟩ := (hcut hc payload hp).1 hs
    exact absurd (h payload hp hlength hc) (by simp [hfalse])
  · by_contra hfalse
    exact hs ((hcut hc payload hp).2 ⟨hlength, by simpa using hfalse⟩)

/-- Where a file that is read in part is refused, the rest decides. -/
theorem CutsReported.or_truncated (h : CutsReported limits extracted cut silent)
    {input : ExtractionInput}
    (hrefused : input.inputTruncated = true → ∃ failure, extracted = .error failure) :
    CutsReported limits extracted (input.inputTruncated = true ∨ cut) silent := by
  refine ⟨h.1, Iff.trans ?_ h.2⟩
  refine forall₂_congr fun payload hp => forall_congr' fun _ => ?_
  have hwhole : ¬input.inputTruncated = true := fun htruncated => by
    obtain ⟨failure, hfailure⟩ := hrefused htruncated
    exact nomatch hp.symm.trans hfailure
  rw [or_iff_right hwhole]

variable (input : ExtractionInput) (context : ExtractionContext)

theorem plainText_reported :
    CutsReported context.limits (extractPlainText input)
      (input.inputTruncated = true ∨ KindCut .text input context)
      (SilentCut .text input context) := by
  have hpayload {text : Text} {payload : ExtractionPayload}
      (hp : (.ok (plainTextPayload input text) : Extracted) = .ok payload) :
      (payload.truncated = true → payload.status ≠ .success) ∧
        (input.inputTruncated = true ∨ KindCut .text input context → payload.truncated = true) := by
    obtain rfl := Except.ok.inj hp
    unfold plainTextPayload
    by_cases htruncated : input.inputTruncated = true
    · rw [if_pos htruncated]
      exact ⟨fun _ => ExtractionStatus.noConfusion, fun _ => rfl⟩
    · rw [if_neg htruncated]
      exact ⟨fun h => (nomatch h), fun h => absurd h (not_or.2 ⟨htruncated, not_false⟩)⟩
  refine cutsReported_always fun payload hp => ?_
  unfold extractPlainText at hp
  by_cases hnul : 0 ∈ withoutMark input.bytes
  · rw [if_pos hnul] at hp
    exact nomatch hp
  rw [if_neg hnul] at hp
  split at hp
  · exact hpayload hp
  · by_cases htruncated : input.inputTruncated = true
    · rw [if_pos htruncated] at hp
      exact hpayload hp
    · rw [if_neg htruncated] at hp
      exact nomatch hp
  · exact nomatch hp

theorem zip_reported :
    CutsReported context.limits (extractZip input context) (KindCut .zip input context)
      (SilentCut .zip input context) := by
  refine cutsReported_always fun payload hp => ?_
  unfold extractZip at hp
  split_ifs at hp with htruncated
  cases harchive : context.tools.openZip input.bytes with
  | none => rw [harchive] at hp; exact nomatch hp
  | some archive =>
    rw [harchive] at hp
    dsimp only at hp
    split_ifs at hp with hentries
    cases hscan : scanZipEntries context 0 archive.entries {} with
    | error failure => rw [hscan] at hp; exact nomatch hp
    | ok scan =>
      rw [hscan] at hp
      obtain rfl := Except.ok.inj hp
      have hflag : (zipPayload scan).truncated = scan.truncated := by
        unfold zipPayload
        dsimp only
        split_ifs <;> rfl
      refine ⟨fun h => ?_, fun hcut => ?_⟩
      · rw [hflag] at h
        unfold zipPayload
        simp only [h, if_true]
        split_ifs <;> exact ExtractionStatus.noConfusion
      · rw [hflag]
        by_contra hfull
        obtain ⟨archive', scan', harchive', hscan', hne⟩ := hcut
        obtain rfl := Option.some.inj (harchive.symm.trans harchive')
        obtain rfl := Except.ok.inj (hscan.symm.trans hscan')
        exact hne (by simpa using scanZipEntries_full hscan (by simpa using hfull))

theorem video_reported :
    CutsReported context.limits (extractVideo input context) (KindCut .video input context)
      (SilentCut .video input context) := by
  refine cutsReported_always fun payload hp => ?_
  unfold extractVideo at hp
  by_cases htruncated : input.inputTruncated = true
  · rw [if_pos htruncated] at hp
    exact nomatch hp
  rw [if_neg htruncated] at hp
  refine ⟨fun hflag => ?_, fun hcut => absurd hcut not_false⟩
  have hfalse : payload.truncated = false := by
    by_cases hcancelled : context.tools.isCancelled 1 = true
    · rw [if_pos hcancelled] at hp
      exact nomatch hp
    rw [if_neg hcancelled] at hp
    by_cases hknown : looksLikeVideo input = true
    · rw [if_neg (not_not_intro hknown)] at hp
      cases hheaders : context.tools.videoHeaders (input.bytes.take maxScanBytes) with
      | none => rw [hheaders] at hp; exact nomatch hp
      | some partially =>
        rw [hheaders] at hp
        dsimp only at hp
        split_ifs at hp
        obtain rfl := Except.ok.inj hp
        cases partially <;> rfl
    · rw [if_pos hknown] at hp
      obtain rfl := Except.ok.inj hp
      rfl
  exact absurd hflag (by simp [hfalse])

/-- What the OCR recognizes on an image is kept up to its limit. -/
theorem RecognizesImage.exists_payload {input : ExtractionInput} {context : ExtractionContext}
    {text : Text} (h : RecognizesImage input context text) :
    ∃ payload, extractImage input context = .ok payload ∧
      payload.text = text.take context.limits.maxOcrOutputCharacters ∧
      payload.truncated = false := by
  obtain ⟨width, height, run, hinput, hsize, hwidth, hheight, hpixels, hmedia, hocr, hcancelled,
    hgate, hrecognized⟩ := h
  have hanswer := recognize_text context.tools (run 0) input.bytes
    (imageMediaType input context.tools) context.ocrLanguages
    context.limits.maxOcrOutputCharacters (context.tools.isCancelled 2)
  rw [hrecognized] at hanswer
  obtain ⟨result, hresult, htext⟩ := Option.map_eq_some_iff.1 hanswer
  have hok : ocrOfImage input context run = .ok result := by
    unfold ocrOfImage
    cases hcall : recognize context.tools (run 0) input.bytes (imageMediaType input context.tools)
        context.ocrLanguages context.limits.maxOcrOutputCharacters
        (context.tools.isCancelled 2) with
    | error error => rw [hcall] at hresult; exact nomatch hresult
    | ok other => rw [hcall] at hresult; exact congrArg Except.ok (Option.some.inj hresult)
  unfold extractImage
  rw [if_neg (by simp [hinput]), hsize]
  dsimp only
  rw [if_neg (by omega), if_neg (by omega), if_neg (by omega), if_pos hmedia]
  unfold ocrImage
  rw [hocr]
  dsimp only
  rw [if_neg (by simp [hcancelled]), if_neg (by simp [hgate]), hok]
  exact ⟨_, rfl, htext, rfl⟩

theorem image_reported :
    CutsReported context.limits (extractImage input context) (KindCut .image input context)
      (SilentCut .image input context) := by
  have huncut : ∀ payload, extractImage input context = .ok payload →
      payload.truncated = false := by
    intro payload hp
    unfold extractImage at hp
    by_cases htruncated : input.inputTruncated = true
    · rw [if_pos htruncated] at hp
      exact nomatch hp
    rw [if_neg htruncated] at hp
    cases hsize : context.tools.blobSize input.bytes with
    | none => rw [hsize] at hp; exact nomatch hp
    | some size =>
      obtain ⟨width, height⟩ := size
      rw [hsize] at hp
      dsimp only at hp
      split_ifs at hp
      · unfold ocrImage at hp
        cases hocr : context.tools.tesseract with
        | none =>
          rw [hocr] at hp
          obtain rfl := Except.ok.inj hp
          rfl
        | some run =>
          rw [hocr] at hp
          dsimp only at hp
          split_ifs at hp
          unfold imageAfterOcr at hp
          split at hp
          · obtain rfl := Except.ok.inj hp
            rfl
          · split_ifs at hp <;> obtain rfl := Except.ok.inj hp <;> rfl
      · obtain rfl := Except.ok.inj hp
        rfl
  refine cutsReported_of_payload (fun payload hp htrue => ?_) ?_ ?_
  · exact absurd htrue (by simp [huncut payload hp])
  · rintro ⟨text, htext, hlong, -⟩
    obtain ⟨payload, hp, -⟩ := htext.exists_payload
    exact ⟨⟨text, htext, hlong⟩, payload, hp⟩
  · rintro ⟨text, htext, hlong⟩ other hother
    obtain ⟨payload, hp, hkept, hfalse⟩ := htext.exists_payload
    obtain rfl := Except.ok.inj (hp.symm.trans hother)
    have hlength : payload.text.length = context.limits.maxOcrOutputCharacters := by
      rw [hkept, List.length_take]
      omega
    constructor
    · rintro ⟨_, -, -, hfits⟩
      exact ⟨hlength ▸ hfits, hfalse⟩
    · rintro ⟨hfits, -⟩
      exact ⟨text, htext, hlong, hlength ▸ hfits⟩

/-- A page is missing among the recognized ones exactly when they are fewer. -/
theorem length_filterMap_id_lt_iff {pages : List (Option Text)} :
    (pages.filterMap id).length < pages.length ↔ none ∈ pages := by
  induction pages with
  | nil => simp
  | cons page rest ih =>
    have hle : (rest.filterMap id).length ≤ rest.length := List.length_filterMap_le _ _
    cases page with
    | none => exact iff_of_true (Nat.lt_succ_of_le hle) List.mem_cons_self
    | some text =>
      rw [List.mem_cons, or_iff_right (by simp), ← ih]
      exact Nat.succ_lt_succ_iff

theorem scannedPdfPayload_truncated (context : ExtractionContext) (pageCount wanted : Nat)
    (s : PdfScan) :
    ((scannedPdfPayload context pageCount wanted s).truncated = false ↔
      s.processedPages < wanted ∨ pageCount ≤ wanted) ∧
    ((scannedPdfPayload context pageCount wanted s).truncated = true →
      (scannedPdfPayload context pageCount wanted s).status ≠ .success) := by
  unfold scannedPdfPayload
  dsimp only
  by_cases hmissing : s.processedPages < wanted
  · rw [if_pos hmissing]
    exact ⟨iff_of_true rfl (.inl hmissing), fun h => (nomatch h)⟩
  rw [if_neg hmissing]
  by_cases hmore : wanted < pageCount
  · rw [if_pos hmore]
    exact ⟨iff_of_false Bool.noConfusion (by omega), fun _ => ExtractionStatus.noConfusion⟩
  · rw [if_neg hmore]
    exact ⟨iff_of_true rfl (by omega), fun h => (nomatch h)⟩

/-- A document that is opened is read as one. -/
theorem extractPdf_of_opens {input : ExtractionInput} {context : ExtractionContext}
    {document : PdfDocument} (h : OpensPdf input context document) :
    extractPdf input context =
      if document.pageCount = 0 ∨
          hasUsableText ((context.tools.pdfText input.bytes).getD []) document.pageCount then
        .ok (nativePdfPayload document.pageCount (context.tools.pdfText input.bytes))
      else extractScannedPdf context document.pageCount := by
  obtain ⟨hinput, hheader, hadvertises, hload, hencrypted, hpages⟩ := h
  unfold extractPdf
  rw [if_neg (by simp [hinput]), if_neg (not_not_intro hheader), if_neg (by simp [hadvertises]),
    hload]
  dsimp only [extractLoadedPdf]
  rw [if_neg (by simp [hencrypted]), if_neg (by omega)]

/-- The pages that the OCR recognizes are joined, each up to its limit. -/
theorem ScansPdf.exists_payload {input : ExtractionInput} {context : ExtractionContext}
    {document : PdfDocument} {texts : List (Option Text)}
    (h : ScansPdf input context document texts) :
    ∃ payload, extractPdf input context = .ok payload ∧
      payload.text = joinPages context.limits.maxOcrOutputCharacters texts ∧
      (payload.truncated = false ↔
        none ∈ texts ∨ document.pageCount ≤ ocrPages context document) := by
  obtain ⟨hopens, hpages, husable, render, run, hrender, hrun, hundisturbed, rfl⟩ := h
  obtain ⟨scan, hscan⟩ := (@scanPages_isOk context render run _ {}).2 hundisturbed
  obtain ⟨htext, hcount⟩ := scanPages_eq hscan
  obtain ⟨htruncated, -⟩ := scannedPdfPayload_truncated context document.pageCount
    (ocrPages context document) scan
  refine ⟨scannedPdfPayload context document.pageCount (ocrPages context document) scan, ?_, ?_, ?_⟩
  · rw [extractPdf_of_opens hopens, if_neg (by simp [hpages, husable])]
    unfold extractScannedPdf
    rw [hrender, hrun]
    dsimp only
    rw [show min document.pageCount context.limits.maxOcrPages = ocrPages context document from rfl,
      hscan]
  · rw [scannedPdfPayload_text, htext]
    rfl
  · rw [htruncated, hcount]
    refine or_congr ?_ Iff.rfl
    rw [← length_filterMap_id_lt_iff, List.length_map, List.length_range']
    exact ⟨fun h => by simpa using h, fun h => by simpa using h⟩

/-- A payload of a PDF comes from a document that was opened. -/
theorem extractPdf_opens {input : ExtractionInput} {context : ExtractionContext}
    {payload : ExtractionPayload} (hp : extractPdf input context = .ok payload) :
    ∃ document, OpensPdf input context document := by
  unfold extractPdf at hp
  by_cases htruncated : input.inputTruncated = true
  · rw [if_pos htruncated] at hp
    exact nomatch hp
  rw [if_neg htruncated] at hp
  by_cases hheader : ascii "%PDF-" <+: input.bytes
  · rw [if_neg (not_not_intro hheader)] at hp
    by_cases hencrypt : pdfAdvertisesEncryption input.bytes = true
    · rw [if_pos hencrypt] at hp
      exact nomatch hp
    rw [if_neg hencrypt] at hp
    cases hload : context.tools.loadPdf input.bytes with
    | error message =>
      rw [hload] at hp
      dsimp only at hp
      split_ifs at hp
    | ok document =>
      rw [hload] at hp
      dsimp only [extractLoadedPdf] at hp
      by_cases hencrypted : document.isEncrypted = true
      · rw [if_pos hencrypted] at hp
        exact nomatch hp
      rw [if_neg hencrypted] at hp
      by_cases hpages : context.limits.maxPages < document.pageCount
      · rw [if_pos hpages] at hp
        exact nomatch hp
      exact ⟨document, by simpa using htruncated, hheader, by simpa using hencrypt, hload,
        by simpa using hencrypted, by omega⟩
  · rw [if_pos hheader] at hp
    exact nomatch hp

/-- A PDF of which pages were left out is not read successfully. -/
theorem extractPdf_truncated {input : ExtractionInput} {context : ExtractionContext}
    {payload : ExtractionPayload} (hp : extractPdf input context = .ok payload)
    (htrue : payload.truncated = true) : payload.status ≠ .success := by
  obtain ⟨document, hopens⟩ := extractPdf_opens hp
  rw [extractPdf_of_opens hopens] at hp
  split_ifs at hp
  · obtain rfl := Except.ok.inj hp
    unfold nativePdfPayload at htrue
    dsimp only at htrue
    split_ifs at htrue <;> exact nomatch htrue
  · unfold extractScannedPdf at hp
    split at hp
    · obtain rfl := Except.ok.inj hp
      exact nomatch htrue
    · obtain rfl := Except.ok.inj hp
      exact nomatch htrue
    · dsimp only at hp
      split at hp
      · exact nomatch hp
      · obtain rfl := Except.ok.inj hp
        exact (scannedPdfPayload_truncated _ _ _ _).2 htrue

theorem pdf_reported :
    CutsReported context.limits (extractPdf input context) (KindCut .pdf input context)
      (SilentCut .pdf input context) := by
  refine cutsReported_of_payload (fun payload => extractPdf_truncated) ?_ ?_
  · rintro ⟨document, texts, hscans, hcut, -⟩
    obtain ⟨payload, hp, -⟩ := hscans.exists_payload
    exact ⟨⟨document, texts, hscans, hcut⟩, payload, hp⟩
  · rintro ⟨document, texts, hscans, hcut⟩ other hother
    obtain ⟨payload, hp, htext, htruncated⟩ := hscans.exists_payload
    obtain rfl := Except.ok.inj (hp.symm.trans hother)
    constructor
    · rintro ⟨document', texts', hscans', hcut', hsilent, hfits⟩
      obtain ⟨payload', hp', htext', htruncated'⟩ := hscans'.exists_payload
      obtain rfl := Except.ok.inj (hp.symm.trans hp')
      exact ⟨by rwa [htext'], htruncated'.2 hsilent⟩
    · rintro ⟨hfits, hfalse⟩
      exact ⟨document, texts, hscans, hcut, htruncated.1 hfalse, by rwa [← htext]⟩

/-- What an Office document that is opened is read as. -/
theorem extractOffice_of_opens {kind : OfficeKind} {input : ExtractionInput}
    {context : ExtractionContext} {archive : ZipArchive} {names : List Text}
    (h : OpensOffice kind input context archive names) :
    extractOffice kind input context = officePayload context archive names kind := by
  obtain ⟨hinput, harchive, hnames, hkind⟩ := h
  unfold extractOffice
  rw [if_neg (by simp [hinput]), harchive]
  dsimp only
  rw [hnames]
  dsimp only
  rw [hkind]
  exact if_neg (by simp)

theorem extractOffice_opens {kind : OfficeKind} {input : ExtractionInput}
    {context : ExtractionContext} {payload : ExtractionPayload}
    (hp : extractOffice kind input context = .ok payload) :
    ∃ archive names, OpensOffice kind input context archive names := by
  unfold extractOffice at hp
  by_cases htruncated : input.inputTruncated = true
  · rw [if_pos htruncated] at hp
    exact nomatch hp
  rw [if_neg htruncated] at hp
  cases harchive : context.tools.openZip input.bytes with
  | none => rw [harchive] at hp; exact nomatch hp
  | some archive =>
    rw [harchive] at hp
    dsimp only at hp
    cases hnames : inspectArchive context.limits archive with
    | error failure => rw [hnames] at hp; exact nomatch hp
    | ok names =>
      rw [hnames] at hp
      dsimp only at hp
      cases hkind : officeKind names with
      | none => rw [hkind] at hp; exact nomatch hp
      | some actual =>
        rw [hkind] at hp
        dsimp only at hp
        by_cases hsame : actual = kind
        · subst hsame
          exact ⟨archive, names, by simpa using htruncated, harchive, hnames, hkind⟩
        · rw [if_pos hsame] at hp
          exact nomatch hp

private theorem map_eq_ok {ε α β : Type} {f : α → β} {x : Except ε α} {b : β} :
    x.map f = .ok b ↔ ∃ a, x = .ok a ∧ f a = b := by
  cases x <;> simp [Except.map]

theorem docx_reported :
    CutsReported context.limits (extractOffice .docx input context)
      (KindCut (.office .docx) input context) (SilentCut (.office .docx) input context) := by
  refine cutsReported_always fun payload hp => ⟨fun htrue => ?_, fun hcut => absurd hcut not_false⟩
  obtain ⟨archive, names, hopens⟩ := extractOffice_opens hp
  rw [extractOffice_of_opens hopens] at hp
  obtain ⟨text, -, rfl⟩ := map_eq_ok.1 hp
  exact nomatch htrue

/-- A spreadsheet of which no cell was left out has no more cells than the limit. -/
theorem xlsxText_cells {context : ExtractionContext} {archive : ZipArchive}
    {names : List Text} {text : Text} {sheets : Nat}
    (h : xlsxText context archive names = .ok (text, false, sheets)) :
    ((sheetNames names).map (partCells context.tools archive)).sum
      ≤ context.limits.maxSpreadsheetCells := by
  unfold xlsxText at h
  cases hstrings : optionalPart context archive names "xl/sharedStrings.xml"
      (parseSharedStrings context.tools) 0 with
  | error failure => rw [hstrings] at h; exact nomatch h
  | ok strings =>
    rw [hstrings] at h
    dsimp only at h
    cases hsheets : optionalPart context archive names "xl/workbook.xml"
        (parseSheetNames context.tools) strings.2 with
    | error failure => rw [hsheets] at h; exact nomatch h
    | ok titles =>
      rw [hsheets] at h
      dsimp only at h
      obtain ⟨⟨result, truncated⟩, hloop, heq⟩ := map_eq_ok.1 h
      obtain ⟨rfl, hrest⟩ := Prod.mk.inj heq
      obtain rfl := (Prod.mk.inj hrest).1
      have hcells := xlsxLoop_cells hloop (Nat.zero_le _)
      rw [Nat.zero_add] at hcells
      -- the order of the worksheets does not change how many cells they have
      have horder : (sortByKey numberedXmlIndex (sheetNames names)).Perm (sheetNames names) :=
        List.perm_insertionSort _ _
      exact ((horder.map _).sum_nat).symm.trans_le hcells

theorem xlsx_reported :
    CutsReported context.limits (extractOffice .xlsx input context)
      (KindCut (.office .xlsx) input context) (SilentCut (.office .xlsx) input context) := by
  refine cutsReported_always fun payload hp => ?_
  obtain ⟨archive, names, hopens⟩ := extractOffice_opens hp
  rw [extractOffice_of_opens hopens] at hp
  obtain ⟨⟨text, truncated, sheets⟩, htext, rfl⟩ := map_eq_ok.1 hp
  unfold xlsxPayload
  cases truncated with
  | true => exact ⟨fun _ => ExtractionStatus.noConfusion, fun _ => rfl⟩
  | false =>
    refine ⟨fun htrue => (nomatch htrue), ?_⟩
    rintro ⟨archive', names', hopens', hmore⟩
    obtain rfl := Option.some.inj (hopens.2.1.symm.trans hopens'.2.1)
    obtain rfl := Except.ok.inj (hopens.2.2.1.symm.trans hopens'.2.2.1)
    exact absurd hmore (Nat.not_lt.2 (xlsxText_cells htext))

theorem pptx_reported :
    CutsReported context.limits (extractOffice .pptx input context)
      (KindCut (.office .pptx) input context) (SilentCut (.office .pptx) input context) := by
  have hsuccess (text : Text) (slides : Nat) :
      ((pptxPayload context.limits text slides).truncated = true ↔
        context.limits.maxPages < slides) ∧
      ((pptxPayload context.limits text slides).truncated = true →
        (pptxPayload context.limits text slides).status ≠ .success) := by
    unfold pptxPayload
    dsimp only
    split_ifs with hmore
    · exact ⟨iff_of_true rfl hmore, fun _ => ExtractionStatus.noConfusion⟩
    · exact ⟨iff_of_false Bool.noConfusion hmore, fun h => (nomatch h)⟩
  refine cutsReported_of_payload (fun payload hp htrue => ?_) ?_ ?_
  · obtain ⟨archive, names, hopens⟩ := extractOffice_opens hp
    rw [extractOffice_of_opens hopens] at hp
    obtain ⟨⟨text, slides⟩, htext, rfl⟩ := map_eq_ok.1 hp
    exact (hsuccess text slides).2 htrue
  · rintro ⟨archive, names, text, count, hopens, -, hmore, htext, -⟩
    refine ⟨⟨archive, names, hopens, hmore⟩, pptxPayload context.limits text count, ?_⟩
    rw [extractOffice_of_opens hopens]
    exact map_eq_ok.2 ⟨_, htext, rfl⟩
  · rintro ⟨archive, names, hopens, hmore⟩ payload hp
    rw [extractOffice_of_opens hopens] at hp
    obtain ⟨⟨text, slides⟩, htext, rfl⟩ := map_eq_ok.1 hp
    obtain ⟨hflag, -⟩ := hsuccess text slides
    have hcount : slides = min (slideNames names).length (2 ^ 32 - 1) := by
      obtain ⟨_, -, heq⟩ := map_eq_ok.1 htext
      rw [← (Prod.mk.inj heq).2]
      exact congrArg (min · (2 ^ 32 - 1)) (List.perm_insertionSort _ _).length_eq
    constructor
    · rintro ⟨archive', names', text', count', hopens', hsaturated, hmore', htext', hfits⟩
      obtain rfl := Option.some.inj (hopens.2.1.symm.trans hopens'.2.1)
      obtain rfl := Except.ok.inj (hopens.2.2.1.symm.trans hopens'.2.2.1)
      obtain ⟨rfl, -⟩ := Prod.mk.inj (Except.ok.inj (htext.symm.trans htext'))
      refine ⟨by rwa [pptxPayload_text], ?_⟩
      rw [← Bool.not_eq_true, hflag]
      omega
    · rintro ⟨hfits, hfalse⟩
      rw [pptxPayload_text] at hfits
      rw [← Bool.not_eq_true, hflag] at hfalse
      exact ⟨archive, names, text, slides, hopens, by omega, hmore, htext, hfits⟩

/-- **What each extractor reports of its cuts.** -/
theorem extractor_reported {kind : ContentKind} {extractorType : ExtractorType}
    {run : ExtractionInput → ExtractionContext → Extracted}
    (h : extractorFor kind = some (extractorType, run)) :
    CutsReported context.limits (run input context)
      (input.inputTruncated = true ∨ KindCut kind input context)
      (SilentCut kind input context) := by
  cases kind with
  | text => cases h; exact plainText_reported input context
  | pdf =>
    cases h
    exact (pdf_reported input context).or_truncated fun h => ⟨_, if_pos h⟩
  | office kind =>
    cases kind <;> cases h
    · exact (docx_reported input context).or_truncated fun h => ⟨_, if_pos h⟩
    · exact (xlsx_reported input context).or_truncated fun h => ⟨_, if_pos h⟩
    · exact (pptx_reported input context).or_truncated fun h => ⟨_, if_pos h⟩
  | zip =>
    cases h
    exact (zip_reported input context).or_truncated fun h => ⟨_, if_pos h⟩
  | image =>
    cases h
    exact (image_reported input context).or_truncated fun h => ⟨_, if_pos h⟩
  | video =>
    cases h
    exact (video_reported input context).or_truncated fun h => ⟨_, if_pos h⟩
  | legacyOffice => exact nomatch h
  | executable => exact nomatch h
  | unknown => exact nomatch h

end Extractors

/-! ## What the engine reports -/

/-- The result of a payload reports a cut: the engine says what it cuts itself, and what the payload
says. -/
theorem payload_reports_iff {limits : ExtractionLimits} {plan : ExtractionPlan}
    {payload : ExtractionPayload} {durationMs : Nat} {cut : Prop}
    (hsuccess : payload.truncated = true → payload.status ≠ .success) :
    (resultFromPayload plan (cutPayload limits payload) durationMs).Reports
        (cut ∨ limits.maxExtractedCharacters < payload.text.length) ↔
      (payload.text.length ≤ limits.maxExtractedCharacters → cut → payload.truncated = true) := by
  unfold ExtractionResult.Reports resultFromPayload cutPayload
  by_cases hlong : limits.maxExtractedCharacters < payload.text.length
  · rw [if_pos hlong]
    refine iff_of_true ?_ fun h => absurd hlong (Nat.not_lt.2 h)
    by_cases hstatus : payload.status = .success
    · rw [if_pos hstatus]
      exact ⟨fun h => (nomatch h), fun _ => ⟨rfl, ExtractionStatus.noConfusion⟩⟩
    · rw [if_neg hstatus]
      exact ⟨fun h => absurd h hstatus, fun _ => ⟨rfl, hstatus⟩⟩
  · rw [if_neg hlong]
    simp only [hlong, or_false, Nat.not_lt.1 hlong, true_imp_iff]
    refine ⟨fun h hcut => (h.2 hcut).1, fun h => ⟨fun hs hcut => ?_, fun hcut => ?_⟩⟩
    · exact hsuccess (h hcut) hs
    · exact ⟨h hcut, hsuccess (h hcut)⟩

/-- **The engine reports its cuts exactly** where the extractor that gets the file makes no silent
one: for every file, all limits, and whatever the parsers and the OCR answer. -/
theorem extract_reports_iff (engine : LocalExtractionEngine) (tools : Tools)
    (extension : Option String) (head bytes : Bytes) (fileSize : Nat) :
    let plan := engine.prepare tools extension head fileSize
    (engine.extract tools plan bytes fileSize).Reports (engine.Cuts tools plan bytes fileSize) ↔
      ¬(ReachesParser tools plan bytes fileSize ∧ tools.panics = false ∧
        SilentCut plan.detection.contentKind ⟨bytes, bytes.length < fileSize, plan.detection⟩
          ⟨engine.limits, tools, engine.ocrLanguages⟩) := by
  intro plan
  by_cases hparsed : ReachesParser tools plan bytes fileSize ∧ tools.panics = false
  · obtain ⟨hreaches, hpanics⟩ := hparsed
    obtain ⟨hinput, hcancelled, hrefused⟩ := hreaches
    obtain ⟨hpreflight, ⟨extractorType, run⟩, hextractor⟩ := planForDetection_extractor hinput
    change plan.preflightStatus = none at hpreflight
    change extractorFor plan.detection.contentKind = _ at hextractor
    have hreported := extractor_reported ⟨bytes, bytes.length < fileSize, plan.detection⟩
      ⟨engine.limits, tools, engine.ocrLanguages⟩ hextractor
    have hrun : engine.extract tools plan bytes fileSize =
        engine.runExtractor tools plan extractorType run bytes fileSize := by
      unfold LocalExtractionEngine.extract
      rw [if_neg (by simp [hpreflight, hinput]), if_neg (by simp [hcancelled]), hrefused]
      dsimp only
      rw [hextractor]
    rw [hrun]
    unfold LocalExtractionEngine.runExtractor
    rw [if_neg (by simp [hpanics])]
    refine Iff.trans ?_ (hreported.2.trans
      (not_congr ⟨fun h => ⟨⟨hinput, hcancelled, hrefused⟩, hpanics, h⟩, fun h => h.2.2⟩))
    cases hextracted : run ⟨bytes, bytes.length < fileSize, plan.detection⟩
        ⟨engine.limits, tools, engine.ocrLanguages⟩ with
    | error failure =>
      have hcut : ¬engine.Cuts tools plan bytes fileSize := by
        rintro ⟨-, -, _, _, payload, hother, hp, -⟩
        obtain ⟨-, rfl⟩ := Prod.mk.inj (Option.some.inj (hextractor.symm.trans hother))
        exact nomatch hextracted.symm.trans hp
      exact iff_of_true ⟨fun _ => hcut, fun h => absurd h hcut⟩ fun _ hp => (nomatch hp)
    | ok payload =>
      have hcut : engine.Cuts tools plan bytes fileSize ↔
          (decide (bytes.length < fileSize) = true ∨ KindCut plan.detection.contentKind
            ⟨bytes, bytes.length < fileSize, plan.detection⟩
            ⟨engine.limits, tools, engine.ocrLanguages⟩) ∨
          engine.limits.maxExtractedCharacters < payload.text.length := by
        constructor
        · rintro ⟨-, -, _, _, other, hother, hp, hcut⟩
          obtain ⟨-, rfl⟩ := Prod.mk.inj (Option.some.inj (hextractor.symm.trans hother))
          obtain rfl := Except.ok.inj (hextracted.symm.trans hp)
          exact or_assoc.2 hcut
        · intro hcut
          exact ⟨⟨hinput, hcancelled, hrefused⟩, hpanics, extractorType, run, payload, hextractor,
            hextracted, or_assoc.1 hcut⟩
      rw [propext hcut, payload_reports_iff (hreported.1 payload hextracted)]
      exact ⟨fun h other hother => Except.ok.inj hother ▸ h, fun h => h payload rfl⟩
  · have hcut : ¬engine.Cuts tools plan bytes fileSize := fun h => hparsed ⟨h.1, h.2.1⟩
    refine iff_of_true ⟨fun _ => hcut, fun h => absurd h hcut⟩ fun h => hparsed ⟨h.1, h.2.1⟩

/-! ## A word cut in two -/

/-- The limits keep one character of the OCR. -/
def oneCharacter : LocalExtractionEngine where
  limits := ExtractionLimits.normalized { maxOcrOutputCharacters := 1 }
  ocrLanguages := ["eng"]
  charactersFit := by decide

/-- An image of one pixel, on which the OCR recognizes `ab`. -/
def pixelTools : Tools :=
  { partTools fun _ => [] with
    infer := fun _ => some "image/png"
    blobSize := fun _ => some (1, 1)
    tesseract := some fun _ _ =>
      .ok (ascii "level\n5\t1\t1\t1\t1\t1\t0\t0\t1\t1\t90\tab")
    gateLocks := fun _ => true }

/-- The OCR recognizes two characters, one is kept, and the image is read successfully. -/
theorem ocrCharacters_cutSilently :
    let plan := oneCharacter.prepare pixelTools (some "png") [0x89] 1
    ¬(oneCharacter.extract pixelTools plan [0x89] 1).Reports
      (oneCharacter.Cuts pixelTools plan [0x89] 1) := by
  intro plan hreports
  have hrecognizes : RecognizesImage ⟨[0x89], false, plan.detection⟩
      ⟨oneCharacter.limits, pixelTools, oneCharacter.ocrLanguages⟩ ['a', 'b'] :=
    ⟨1, 1, _, rfl, rfl, by decide, by decide, by decide, by decide +kernel, rfl, rfl, rfl,
      by decide +kernel⟩
  obtain ⟨payload, hp, -⟩ := hrecognizes.exists_payload
  have hkind : plan.detection.contentKind = .image := by decide +kernel
  refine hreports.1 (by decide +kernel) ⟨⟨by decide +kernel, rfl, by decide +kernel⟩, rfl,
    .imageMetadata, extractImage, payload, by rw [hkind]; rfl, hp, .inr (.inl ?_)⟩
  rw [hkind]
  exact ⟨_, hrecognizes, by decide⟩

end Zemo.Extraction
