import Mathlib.Data.List.Sort
import Zemo.Extraction.Extractors

set_option autoImplicit false

/-! # The extractors of PDF and Office documents

The parts of an Office document are read as the events of the XML reader; each loop of the source
over them is a recursion on the events, which ends well only at the end of a well-formed part. -/

namespace Zemo.Extraction

open Organizer (trimChars containsText toAsciiLowercase)

/-! ## PDF -/

/-- `pdf_advertises_encryption`. -/
def pdfAdvertisesEncryption (bytes : Bytes) : Bool :=
  ascii "/Encrypt" <:+: bytes.drop (bytes.length - 64 * 1024)

/-- `has_usable_text`. -/
def hasUsableText (text : Text) (pageCount : Nat) : Bool :=
  max (pageCount * 4) 16 ≤ (text.filter fun c => ¬isWhiteSpace c ∧ ¬isControl c).length

/-- `ocr_unavailable_payload`. -/
def ocrUnavailablePayload (pageCount : Nat) (message : String) : ExtractionPayload :=
  { ExtractionPayload.success .pdfText with
    status := .partialResult
    pageCount := some pageCount
    requiresOcr := true
    errorCategory := some .ocrUnavailable
    errorMessage := some message }

/-- What the OCR of the pages has collected. -/
structure PdfScan where
  text : Text := []
  confidenceSum : ℚ := 0
  confidenceCount : Nat := 0
  processedPages : Nat := 0
  firstError : Option String := none

/-- The scan after a page whose text was recognized. -/
def PdfScan.page (s : PdfScan) (result : OcrResult) : PdfScan :=
  { s with
    text :=
      if trimChars result.text = [] then s.text
      else s.text ++ (if s.text = [] then [] else ['\n']) ++ result.text
    confidenceSum := s.confidenceSum + result.meanConfidence.getD 0
    confidenceCount := s.confidenceCount + if result.meanConfidence.isSome then 1 else 0
    processedPages := s.processedPages + 1 }

/-- The answer of the OCR for a page. -/
def recognizePage (context : ExtractionContext) (render : Nat → Except OcrError Bytes)
    (run : Nat → Bytes → Except OcrError Bytes) (page : Nat) : Except OcrError OcrResult :=
  match render page with
  | .error error => .error error
  | .ok image =>
      recognize context.tools (run page) image "image/png" context.ocrLanguages
        context.limits.maxOcrOutputCharacters (context.tools.isCancelled page)

/-- The loop over the pages. -/
def scanPages (context : ExtractionContext) (render : Nat → Except OcrError Bytes)
    (run : Nat → Bytes → Except OcrError Bytes) :
    List Nat → PdfScan → Except ExtractionFailure PdfScan
  | [], s => .ok s
  | page :: rest, s =>
      if context.tools.isCancelled page then
        .error (.skipped .cancelled "PDF OCR was cancelled")
      else if ¬context.tools.gateLocks page then
        .error (.failed .ocrFailed "local OCR concurrency gate is unavailable")
      else
        match recognizePage context render run page with
        | .ok result => scanPages context render run rest (s.page result)
        | .error error =>
            if error.kind = .cancelled then
              .error (.skipped .cancelled "PDF OCR was cancelled")
            else
              scanPages context render run rest
                { s with firstError := s.firstError.or (some error.message) }

/-- The payload of scanned pages, `wanted` of `pageCount`. -/
def scannedPdfPayload (context : ExtractionContext) (pageCount wanted : Nat) (s : PdfScan) :
    ExtractionPayload :=
  let payload :=
    { ExtractionPayload.success .pdfOcr with
      text := s.text
      pageCount := some pageCount
      requiresOcr := true
      ocrUsed := s.processedPages ≠ 0
      ocrConfidence := mean s.confidenceSum s.confidenceCount
      languageHint := context.ocrLanguages.head? }
  if s.processedPages < wanted then
    { payload with
      status := .partialResult
      errorCategory := some .ocrFailed
      errorMessage := some (s.firstError.getD "one or more PDF pages could not be OCRed") }
  else if wanted < pageCount then
    { payload with
      status := .partialResult
      truncated := true
      errorCategory := some .tooManyPages
      errorMessage := some
        s!"OCR stopped after the configured {context.limits.maxOcrPages}-page limit" }
  else payload

/-- `extract_scanned_pdf`. -/
def extractScannedPdf (context : ExtractionContext) (pageCount : Nat) : Extracted :=
  match context.tools.renderPage, context.tools.tesseract with
  | none, _ =>
      .ok (ocrUnavailablePayload pageCount
        "PDF contains insufficient native text and no trusted local renderer is installed")
  | some _, none =>
      .ok (ocrUnavailablePayload pageCount
        "PDF contains insufficient native text and no trusted local OCR engine is installed")
  | some render, some run =>
      let wanted := min pageCount context.limits.maxOcrPages
      match scanPages context render run (List.range' 1 wanted) {} with
      | .error failure => .error failure
      | .ok scan => .ok (scannedPdfPayload context pageCount wanted scan)

/-- The payload of the native text of a PDF. -/
def nativePdfPayload (pageCount : Nat) (extracted : Option Text) : ExtractionPayload :=
  let payload :=
    { ExtractionPayload.success .pdfText with
      text := extracted.getD []
      pageCount := some pageCount }
  if extracted.isNone then
    { payload with
      status := .partialResult
      errorCategory := some .parserFailure
      errorMessage := some "PDF metadata was read but text extraction was incomplete" }
  else payload

/-- The failure for a PDF that says it is encrypted. -/
def encryptedPdf : ExtractionFailure :=
  .failed .encryptedDocument
    ("encrypted PDF detected; content is not opened, passwords are never requested, "
      ++ "and decryption is not attempted")

/-- The number of pages, within `u32`. -/
def PdfDocument.pageCount (document : PdfDocument) : Nat := min document.pages (2 ^ 32 - 1)

/-- `PdfExtractor::extract`, of a document that could be loaded. -/
def extractLoadedPdf (input : ExtractionInput) (context : ExtractionContext)
    (document : PdfDocument) : Extracted :=
  let pageCount := document.pageCount
  if document.isEncrypted then .error encryptedPdf
  else if context.limits.maxPages < pageCount then
    .error (.skipped .tooManyPages
      s!"PDF has {pageCount} pages; limit is {context.limits.maxPages}")
  else
    let extracted := context.tools.pdfText input.bytes
    if pageCount = 0 ∨ hasUsableText (extracted.getD []) pageCount then
      .ok (nativePdfPayload pageCount extracted)
    else extractScannedPdf context pageCount

/-- `PdfExtractor::extract`. -/
def extractPdf (input : ExtractionInput) (context : ExtractionContext) : Extracted :=
  if input.inputTruncated then
    .error (.skipped .tooLarge "PDF exceeds the configured input limit")
  else if ¬(ascii "%PDF-" <+: input.bytes) then
    .error (.failed .corrupt "PDF header is missing or malformed")
  else if pdfAdvertisesEncryption input.bytes then .error encryptedPdf
  else
    match context.tools.loadPdf input.bytes with
    | .error message =>
        if containsText (toAsciiLowercase message) "encrypt" then
          .error (.failed .encryptedDocument
            "encrypted PDF detected; password entry and decryption are not supported")
        else .error (.failed .corrupt "PDF structure is malformed")
    | .ok document => extractLoadedPdf input context document

/-! ## The parts of Office documents -/

/-- `local_name`. -/
def localName (name : Bytes) : Bytes := name.rtakeWhile (· ≠ 0x3A)

/-- `malformed_xml`. -/
def malformedXml : ExtractionFailure := .failed .corrupt "Office XML content is malformed"

/-- The text of an event, decoded and unescaped. -/
def eventText (tools : Tools) (decoded : Option Text) : Except ExtractionFailure Text :=
  match decoded.bind tools.unescape with
  | some text => .ok text
  | none => .error malformedXml

/-- `append_section`. -/
def appendSection (output section_ : Text) : Text :=
  let section_ := trimChars section_
  if section_ = [] then output
  else output ++ (if output = [] then [] else ['\n']) ++ section_

/-- Whether the text ends or starts with a separator. -/
def isSeparator (c : Option Char) : Bool := c ∈ [some ' ', some '\n', some '\t']

/-- A text event of `extract_word_text`. -/
def appendWord (output text : Text) : Text :=
  if trimChars text = [] then output
  else
    output
      ++ (if output ≠ [] ∧ ¬isSeparator output.getLast? ∧ ¬isSeparator text.head? then [' ']
        else [])
      ++ text

/-- The loop of `extract_word_text`. -/
def wordLoop (tools : Tools) (wellFormed : Bool) :
    List XmlEvent → Text → Except ExtractionFailure Text
  | [], output => if wellFormed then .ok output else .error malformedXml
  | .start name _ :: rest, output =>
      wordLoop tools wellFormed rest
        (if localName name = ascii "p" ∧ output ≠ [] ∧ output.getLast? ≠ some '\n' then
          output ++ ['\n']
        else output)
  | .empty name _ :: rest, output =>
      wordLoop tools wellFormed rest
        (if localName name = ascii "tab" then output ++ ['\t']
        else if localName name = ascii "br" then output ++ ['\n']
        else output)
  | .text decoded :: rest, output =>
      match eventText tools decoded with
      | .error failure => .error failure
      | .ok text => wordLoop tools wellFormed rest (appendWord output text)
  | .close _ :: rest, output => wordLoop tools wellFormed rest output
  | .other :: rest, output => wordLoop tools wellFormed rest output

/-- `extract_word_text`. -/
def extractWordText (tools : Tools) (xml : Bytes) : Except ExtractionFailure Text :=
  let part := tools.readXml true xml
  (wordLoop tools part.wellFormed part.events []).map trimChars

/-- The loop of `parse_shared_strings`. -/
def sharedStringsLoop (tools : Tools) (wellFormed : Bool) :
    List XmlEvent → List Text → Text → Bool → Except ExtractionFailure (List Text)
  | [], values, _, _ => if wellFormed then .ok values else .error malformedXml
  | .start name _ :: rest, values, current, insideItem =>
      if localName name = ascii "si" then sharedStringsLoop tools wellFormed rest values [] true
      else sharedStringsLoop tools wellFormed rest values current insideItem
  | .text decoded :: rest, values, current, insideItem =>
      if insideItem then
        match eventText tools decoded with
        | .error failure => .error failure
        | .ok text => sharedStringsLoop tools wellFormed rest values (current ++ text) insideItem
      else sharedStringsLoop tools wellFormed rest values current insideItem
  | .close name :: rest, values, current, insideItem =>
      if localName name = ascii "si" then
        sharedStringsLoop tools wellFormed rest (values ++ [current]) current false
      else sharedStringsLoop tools wellFormed rest values current insideItem
  | .empty _ _ :: rest, values, current, insideItem =>
      sharedStringsLoop tools wellFormed rest values current insideItem
  | .other :: rest, values, current, insideItem =>
      sharedStringsLoop tools wellFormed rest values current insideItem

/-- `parse_shared_strings`. -/
def parseSharedStrings (tools : Tools) (xml : Bytes) : Except ExtractionFailure (List Text) :=
  let part := tools.readXml false xml
  sharedStringsLoop tools part.wellFormed part.events [] [] false

/-- The sheet names among the attributes of a `sheet` element. -/
def sheetAttributes (tools : Tools) :
    List (Bytes × Text) → List Text → Except ExtractionFailure (List Text)
  | [], names => .ok names
  | (key, raw) :: rest, names =>
      if localName key = ascii "name" then
        match tools.unescape raw with
        | none => .error malformedXml
        | some value => sheetAttributes tools rest (names ++ [value])
      else sheetAttributes tools rest names

/-- The loop of `parse_sheet_names`. -/
def sheetNamesLoop (tools : Tools) (wellFormed : Bool) :
    List XmlEvent → List Text → Except ExtractionFailure (List Text)
  | [], names => if wellFormed then .ok names else .error malformedXml
  | .start name attributes :: rest, names =>
      if localName name = ascii "sheet" then
        match sheetAttributes tools attributes names with
        | .error failure => .error failure
        | .ok names => sheetNamesLoop tools wellFormed rest names
      else sheetNamesLoop tools wellFormed rest names
  | .empty name attributes :: rest, names =>
      if localName name = ascii "sheet" then
        match sheetAttributes tools attributes names with
        | .error failure => .error failure
        | .ok names => sheetNamesLoop tools wellFormed rest names
      else sheetNamesLoop tools wellFormed rest names
  | .text _ :: rest, names => sheetNamesLoop tools wellFormed rest names
  | .close _ :: rest, names => sheetNamesLoop tools wellFormed rest names
  | .other :: rest, names => sheetNamesLoop tools wellFormed rest names

/-- `parse_sheet_names`. -/
def parseSheetNames (tools : Tools) (xml : Bytes) : Except ExtractionFailure (List Text) :=
  let part := tools.readXml false xml
  sheetNamesLoop tools part.wellFormed part.events []

/-- What `parse_worksheet` keeps: the values, the cells seen, and where it stands. -/
structure Worksheet where
  values : List Text := []
  cellsSeen : Nat := 0
  truncated : Bool := false
  insideCell : Bool := false
  insideValue : Bool := false
  hasFormula : Bool := false
  cellType : Option Text := none
  value : Text := []

/-- The text a cell is rendered as. -/
def renderCell (sharedStrings : List Text) (cellType : Option Text) (value : Text) : Text :=
  if cellType = some ['s'] then
    ((parseUnsigned 64 value).bind (sharedStrings[·]?)).getD []
  else if cellType = some ['b'] then (if value = ['1'] then "TRUE" else "FALSE").toList
  else value

/-- The end of a cell. -/
def Worksheet.closeCell (sharedStrings : List Text) (s : Worksheet) : Worksheet :=
  let rendered := renderCell sharedStrings s.cellType s.value
  { s with
    values :=
      if ¬s.hasFormula ∧ s.value ≠ [] ∧ rendered ≠ [] then s.values ++ [rendered] else s.values
    insideCell := false
    insideValue := false
    value := [] }

/-- The loop of `parse_worksheet`. -/
def worksheetLoop (tools : Tools) (sharedStrings : List Text) (maxCells : Nat)
    (wellFormed : Bool) : List XmlEvent → Worksheet → Except ExtractionFailure Worksheet
  | [], s => if wellFormed then .ok s else .error malformedXml
  | .start name attributes :: rest, s =>
      if localName name = ascii "c" then
        -- the cell limit ends the loop before the rest of the part is read
        if maxCells ≤ s.cellsSeen then .ok { s with truncated := true }
        else
          worksheetLoop tools sharedStrings maxCells wellFormed rest
            { s with
              cellsSeen := s.cellsSeen + 1
              insideCell := true
              hasFormula := false
              value := []
              cellType := (attributes.find? fun a => localName a.1 = ascii "t").map Prod.snd }
      else if s.insideCell ∧ (localName name = ascii "v" ∨ localName name = ascii "t") then
        worksheetLoop tools sharedStrings maxCells wellFormed rest { s with insideValue := true }
      else if s.insideCell ∧ localName name = ascii "f" then
        worksheetLoop tools sharedStrings maxCells wellFormed rest { s with hasFormula := true }
      else worksheetLoop tools sharedStrings maxCells wellFormed rest s
  | .empty name _ :: rest, s =>
      if localName name = ascii "c" then
        if maxCells ≤ s.cellsSeen then .ok { s with truncated := true }
        else
          worksheetLoop tools sharedStrings maxCells wellFormed rest
            { s with cellsSeen := s.cellsSeen + 1 }
      else worksheetLoop tools sharedStrings maxCells wellFormed rest s
  | .text decoded :: rest, s =>
      if s.insideCell ∧ s.insideValue then
        match eventText tools decoded with
        | .error failure => .error failure
        | .ok text =>
            worksheetLoop tools sharedStrings maxCells wellFormed rest
              { s with value := s.value ++ text }
      else worksheetLoop tools sharedStrings maxCells wellFormed rest s
  | .close name :: rest, s =>
      if localName name = ascii "v" ∨ localName name = ascii "t" then
        worksheetLoop tools sharedStrings maxCells wellFormed rest { s with insideValue := false }
      else if localName name = ascii "c" then
        worksheetLoop tools sharedStrings maxCells wellFormed rest (s.closeCell sharedStrings)
      else worksheetLoop tools sharedStrings maxCells wellFormed rest s
  | .other :: rest, s => worksheetLoop tools sharedStrings maxCells wellFormed rest s

/-- `parse_worksheet`. -/
def parseWorksheet (tools : Tools) (xml : Bytes) (sharedStrings : List Text) (maxCells : Nat) :
    Except ExtractionFailure Worksheet :=
  let part := tools.readXml true xml
  worksheetLoop tools sharedStrings maxCells part.wellFormed part.events {}

/-! ## Office documents -/

/-- The digits between a start and `.xml`. -/
def numberOf (start : String) (name : Text) : Option Text :=
  if start.toList <+: name ∧ ".xml".toList <:+ name.drop start.length then
    some ((name.drop start.length).take ((name.drop start.length).length - 4))
  else none

/-- `is_numbered_xml`. -/
def isNumberedXml (start : String) (name : Text) : Bool :=
  match numberOf start name with
  | some digits => digits ≠ [] ∧ digits.all Char.isDigit
  | none => false

/-- `numbered_xml_index`, and `u32::MAX` where there is none. -/
def numberedXmlIndex (name : Text) : Nat :=
  if ".xml".toList <:+ name then
    (parseUnsigned 32 ((name.take (name.length - 4)).rtakeWhile Char.isDigit)).getD (2 ^ 32 - 1)
  else 2 ^ 32 - 1

/-- `sort_by_key`. -/
def sortByKey (key : Text → Nat) (names : List Text) : List Text :=
  names.insertionSort fun a b => key a ≤ key b

/-- `inspect_archive`, from the entry at an index on. -/
def inspectEntries (limits : ExtractionLimits) :
    List (Option ZipEntry) → Nat → List Text → Except ExtractionFailure (List Text)
  | [], _, names => .ok names
  | none :: _, _, _ => .error (.failed .corrupt "Office archive directory is malformed")
  | some entry :: rest, total, names =>
      let total := saturatingAdd total entry.size
      if ¬safeArchivePath entry.name then
        .error (.failed .archiveTraversal "Office archive contains an unsafe entry path")
      else if limits.maxUncompressedBytes < total then
        .error (.skipped .tooLarge "Office archive exceeds the decompression safety limit")
      else if suspiciousRatio entry.size entry.compressedSize limits.maxCompressionRatio then
        .error (.skipped .potentialArchiveBomb "Office archive has a suspicious compression ratio")
      else inspectEntries limits rest total (names ++ [entry.name])

/-- `inspect_archive`. -/
def inspectArchive (limits : ExtractionLimits) (archive : ZipArchive) :
    Except ExtractionFailure (List Text) :=
  if limits.maxArchiveEntries < archive.entries.length then
    .error (.skipped .tooManyEntries "Office archive contains too many entries")
  else inspectEntries limits archive.entries 0 []

/-- `office_kind`. -/
def officeKind (names : List Text) : Option OfficeKind :=
  if "word/document.xml".toList ∈ names then some .docx
  else if "xl/workbook.xml".toList ∈ names
      ∧ names.any (fun name => "xl/worksheets/sheet".toList <+: name) then some .xlsx
  else if names.any (isNumberedXml "ppt/slides/slide") then some .pptx
  else none

/-- `read_entry`: the bytes of a part and the bytes read so far. -/
def readEntry (limits : ExtractionLimits) (archive : ZipArchive) (name : Text) (totalRead : Nat) :
    Except ExtractionFailure (Bytes × Nat) :=
  match archive.part name with
  | none => .error (.failed .corrupt "required Office document part is missing")
  | some (size, content) =>
      if limits.maxUncompressedBytes < saturatingAdd totalRead size then
        .error (.skipped .tooLarge "Office XML parts exceed the decompression safety limit")
      else
        match content with
        | none => .error (.failed .corrupt "Office XML part could not be decompressed")
        | some bytes =>
            if size < bytes.length then
              .error (.failed .corrupt "Office XML part expanded beyond its declared size")
            else .ok (bytes, saturatingAdd totalRead size)

/-- The loop of `extract_docx` over the selected parts. -/
def docxLoop (context : ExtractionContext) (archive : ZipArchive) :
    Nat → List Text → Text → Nat → Except ExtractionFailure Text
  | _, [], text, _ => .ok text
  | index, name :: rest, text, bytesRead =>
      if context.tools.isCancelled (index + 1) then
        .error (.skipped .cancelled "Office extraction was cancelled")
      else
        match readEntry context.limits archive name bytesRead with
        | .error failure => .error failure
        | .ok (xml, bytesRead) =>
            match extractWordText context.tools xml with
            | .error failure => .error failure
            | .ok part =>
                docxLoop context archive (index + 1) rest (appendSection text part) bytesRead

/-- The order of the parts of a `docx`. -/
def docxKey (name : Text) : Nat :=
  if name = "word/document.xml".toList then 0
  else if "word/header".toList <+: name then 1
  else 2

/-- The text of a `docx`. -/
def docxText (context : ExtractionContext) (archive : ZipArchive) (names : List Text) :
    Except ExtractionFailure Text :=
  docxLoop context archive 0
    (sortByKey docxKey (names.filter fun name =>
      name = "word/document.xml".toList ∨ isNumberedXml "word/header" name
        ∨ isNumberedXml "word/footer" name)) [] 0

/-- A named part parsed when the archive has it. -/
def optionalPart {α : Type} (context : ExtractionContext) (archive : ZipArchive)
    (names : List Text) (name : String) (parse : Bytes → Except ExtractionFailure (List α))
    (bytesRead : Nat) : Except ExtractionFailure (List α × Nat) :=
  if name.toList ∈ names then
    match readEntry context.limits archive name.toList bytesRead with
    | .error failure => .error failure
    | .ok (xml, bytesRead) => (parse xml).map fun values => (values, bytesRead)
  else .ok ([], bytesRead)

/-- The loop of `extract_xlsx` over the worksheets; the second value tells that the cell limit was
reached. -/
def xlsxLoop (context : ExtractionContext) (archive : ZipArchive)
    (sharedStrings sheetNames : List Text) :
    Nat → List Text → Text → Nat → Nat → Except ExtractionFailure (Text × Bool)
  | _, [], text, _, _ => .ok (text, false)
  | index, name :: rest, text, cellsSeen, bytesRead =>
      if context.tools.isCancelled (index + 1) then
        .error (.skipped .cancelled "spreadsheet extraction was cancelled")
      else
        match readEntry context.limits archive name bytesRead with
        | .error failure => .error failure
        | .ok (xml, bytesRead) =>
            match parseWorksheet context.tools xml sharedStrings
                (context.limits.maxSpreadsheetCells - cellsSeen) with
            | .error failure => .error failure
            | .ok sheet =>
                let displayName :=
                  sheetNames[index]?.getD ("Sheet ".toList ++ (toString (index + 1)).toList)
                let text := appendSection text ("[Sheet: ".toList ++ displayName ++ [']'])
                let text := appendSection text (['\n'].intercalate sheet.values)
                if sheet.truncated then .ok (text, true)
                else
                  xlsxLoop context archive sharedStrings sheetNames (index + 1) rest text
                    (cellsSeen + sheet.cellsSeen) bytesRead

/-- The text of an `xlsx`, whether it is truncated, and the number of sheets. -/
def xlsxText (context : ExtractionContext) (archive : ZipArchive) (names : List Text) :
    Except ExtractionFailure (Text × Bool × Nat) :=
  match optionalPart context archive names "xl/sharedStrings.xml"
      (parseSharedStrings context.tools) 0 with
  | .error failure => .error failure
  | .ok (sharedStrings, bytesRead) =>
      match optionalPart context archive names "xl/workbook.xml"
          (parseSheetNames context.tools) bytesRead with
      | .error failure => .error failure
      | .ok (sheetNames, bytesRead) =>
          let worksheets :=
            sortByKey numberedXmlIndex (names.filter (isNumberedXml "xl/worksheets/sheet"))
          (xlsxLoop context archive sharedStrings sheetNames 0 worksheets [] 0 bytesRead).map
            fun (text, truncated) => (text, truncated, min worksheets.length (2 ^ 32 - 1))

/-- The loop of `extract_pptx` over the slides. -/
def pptxLoop (context : ExtractionContext) (archive : ZipArchive) :
    Nat → List Text → Text → Nat → Except ExtractionFailure Text
  | _, [], text, _ => .ok text
  | index, name :: rest, text, bytesRead =>
      if context.tools.isCancelled (index + 1) then
        .error (.skipped .cancelled "presentation extraction was cancelled")
      else
        match readEntry context.limits archive name bytesRead with
        | .error failure => .error failure
        | .ok (xml, bytesRead) =>
            let text := appendSection text
              ("[Slide ".toList ++ (toString (index + 1)).toList ++ [']'])
            match extractWordText context.tools xml with
            | .error failure => .error failure
            | .ok part =>
                pptxLoop context archive (index + 1) rest (appendSection text part) bytesRead

/-- The text of a `pptx`, and the number of slides. -/
def pptxText (context : ExtractionContext) (archive : ZipArchive) (names : List Text) :
    Except ExtractionFailure (Text × Nat) :=
  let slides := sortByKey numberedXmlIndex (names.filter (isNumberedXml "ppt/slides/slide"))
  (pptxLoop context archive 0 (slides.take context.limits.maxPages) [] 0).map
    fun text => (text, min slides.length (2 ^ 32 - 1))

/-- The payload of a `docx`. -/
def docxPayload (text : Text) : ExtractionPayload :=
  { ExtractionPayload.success .docx with text }

/-- The payload of an `xlsx`. -/
def xlsxPayload (limits : ExtractionLimits) (text : Text) (truncated : Bool) (sheets : Nat) :
    ExtractionPayload :=
  let payload := { ExtractionPayload.success .xlsx with text, sheetCount := some sheets }
  if truncated then
    { payload with
      status := .partialResult
      truncated := true
      errorCategory := some .tooManyCells
      errorMessage := some
        ("spreadsheet extraction stopped at the configured "
          ++ s!"{limits.maxSpreadsheetCells}-cell limit") }
  else payload

/-- The payload of a `pptx`. -/
def pptxPayload (limits : ExtractionLimits) (text : Text) (slides : Nat) : ExtractionPayload :=
  let payload := { ExtractionPayload.success .pptx with text, slideCount := some slides }
  if limits.maxPages < slides then
    { payload with
      status := .partialResult
      truncated := true
      errorCategory := some .tooManyPages
      errorMessage := some
        s!"presentation extraction stopped at the configured {limits.maxPages}-slide limit" }
  else payload

/-- The payload of an Office document of a kind. -/
def officePayload (context : ExtractionContext) (archive : ZipArchive) (names : List Text) :
    OfficeKind → Extracted
  | .docx => (docxText context archive names).map docxPayload
  | .xlsx =>
      (xlsxText context archive names).map fun (text, truncated, sheets) =>
        xlsxPayload context.limits text truncated sheets
  | .pptx =>
      (pptxText context archive names).map fun (text, slides) =>
        pptxPayload context.limits text slides

/-- `OfficeExtractor::extract`, of a document expected to be of a kind. -/
def extractOffice (expected : OfficeKind) (input : ExtractionInput) (context : ExtractionContext) :
    Extracted :=
  if input.inputTruncated then
    .error (.skipped .tooLarge "Office document exceeds the configured input limit")
  else
    match context.tools.openZip input.bytes with
    | none => .error (.failed .corrupt "Office document is not a readable Open XML archive")
    | some archive =>
        match inspectArchive context.limits archive with
        | .error failure => .error failure
        | .ok names =>
            match officeKind names with
            | none =>
                .error (.failed .typeMismatch
                  "archive does not contain a supported Office document structure")
            | some actual =>
                if actual ≠ expected then
                  .error (.failed .typeMismatch
                    "Office extension does not match the document structure")
                else officePayload context archive names actual

end Zemo.Extraction
