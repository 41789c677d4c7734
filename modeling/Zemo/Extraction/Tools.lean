import Mathlib.Algebra.Order.Field.Basic
import Mathlib.Tactic.Linarith
import Zemo.Extraction.Types
import Zemo.Lib.Utf8

set_option autoImplicit false

/-! # The parsers and processes an extraction calls

What code outside the repository answers while one file is read: the `zip`, `quick-xml`, `lopdf`,
`pdf-extract`, `imagesize` and `infer` crates, the local OCR and PDF processes, the cancellation
flag at each poll, the clock. All of it may answer anything. What the OCR process prints is read by
the repository's own `parse_tesseract_tsv`. -/

namespace Zemo.Extraction

open Organizer (trimChars)

/-- An entry of a ZIP directory. -/
structure ZipEntry where
  name : Text
  size : Nat
  compressedSize : Nat

/-- An opened archive: the entries by index, none where the crate refuses one; and the parts by
name, each with its declared size and what it decompresses to, read one byte past that size. -/
structure ZipArchive where
  entries : List (Option ZipEntry)
  part : Text → Option (Nat × Option Bytes)

/-- An event of the XML reader. Attribute values are decoded lossily, texts only if they can be. -/
inductive XmlEvent where
  | start (name : Bytes) (attributes : List (Bytes × Text))
  | empty (name : Bytes) (attributes : List (Bytes × Text))
  | close (name : Bytes)
  | text (decoded : Option Text)
  | other

/-- The events of a part, and whether they end at the end of the part and not at an error. -/
structure XmlPart where
  events : List XmlEvent
  wellFormed : Bool

/-- What `lopdf` loads. -/
structure PdfDocument where
  isEncrypted : Bool
  pages : Nat

/-- `OcrErrorKind`. -/
inductive OcrErrorKind where
  | unavailable | cancelled | timeout | invalidInput | processFailed | outputTooLarge
  deriving DecidableEq, Repr

/-- `OcrError`. -/
structure OcrError where
  kind : OcrErrorKind
  message : String
  deriving DecidableEq, Repr

/-- What happens around one extraction. Calls that may answer differently each time are numbered. -/
structure Tools where
  /-- `infer::get`: the media type. -/
  infer : Bytes → Option String
  /-- `ZipArchive::new`. -/
  openZip : Bytes → Option ZipArchive
  /-- The events of a part, with or without `trim_text`. -/
  readXml : Bool → Bytes → XmlPart
  /-- `quick_xml::escape::unescape`. -/
  unescape : Text → Option Text
  /-- `lopdf::Document::load_mem`; the error is its message. -/
  loadPdf : Bytes → Except String PdfDocument
  /-- `pdf_extract::extract_text_from_mem`. -/
  pdfText : Bytes → Option Text
  /-- `imagesize::blob_size`: the width and the height. -/
  blobSize : Bytes → Option (Nat × Nat)
  /-- The header scan of a video: whether it is partial; none when it is cancelled. -/
  videoHeaders : Bytes → Option Bool
  /-- The output of the OCR process at a call, when an engine is installed. -/
  tesseract : Option (Nat → Bytes → Except OcrError Bytes)
  /-- The PDF renderer's image of a page, when one is installed. -/
  renderPage : Option (Nat → Except OcrError Bytes)
  /-- Whether the OCR gate can be locked at a call. -/
  gateLocks : Nat → Bool
  /-- `str::parse::<f32>`. An infinite number is given as any number from 100 on, a number that is
  not one as any negative number: they are treated alike. -/
  parseF32 : Text → Option ℚ
  /-- The cancellation flag at a poll. -/
  isCancelled : Nat → Bool
  /-- A parser panics. -/
  panics : Bool
  /-- The milliseconds the extraction takes. -/
  elapsedMs : Nat

/-! ## The output of the OCR process -/

/-- `OcrResult`, without the boxes of the words. -/
structure OcrResult where
  text : Text
  meanConfidence : Option ℚ
  languageHint : Option String

/-- `str::lines`. -/
def lines (text : Text) : List Text :=
  let parts := text.splitOn '\n'
  let ended := parts.dropLast.map fun line =>
    if line.getLast? = some '\r' then line.dropLast else line
  match parts.getLast? with
  | some [] | none => ended
  | some last => ended ++ [last]

/-- `str::splitn` with tabs. -/
def splitTabs : Nat → Text → List Text
  | 0, _ => []
  | 1, text => [text]
  | n + 2, text =>
      if '\t' ∈ text then
        text.takeWhile (· ≠ '\t') :: splitTabs (n + 1) ((text.dropWhile (· ≠ '\t')).drop 1)
      else [text]

/-- The value of decimal digits. -/
def digitsValue (digits : Text) : Nat := digits.foldl (fun n c => n * 10 + (c.toNat - 48)) 0

/-- `str::parse` of an unsigned integer of some bits. -/
def parseUnsigned (bits : Nat) (value : Text) : Option Nat :=
  let digits := if value.head? = some '+' then value.drop 1 else value
  if digits ≠ [] ∧ digits.all Char.isDigit ∧ digitsValue digits < 2 ^ bits then
    some (digitsValue digits)
  else none

/-- `parse_u32`. -/
def parseU32 (value : Text) : Nat := (parseUnsigned 32 value).getD 0

/-- What `parse_tesseract_tsv` has collected. -/
structure TsvState where
  text : Text := []
  confidenceSum : ℚ := 0
  confidenceCount : Nat := 0
  previousLine : Option (Nat × Nat × Nat × Nat) := none

/-- `value / 100.0` between 0 and 1, of a confidence that is not negative. -/
def wordConfidence (parseF32 : Text → Option ℚ) (column : Text) : Option ℚ :=
  match parseF32 column with
  | some value => if 0 ≤ value then some (max 0 (min (value / 100) 1)) else none
  | none => none

/-- One row of `parse_tesseract_tsv`. -/
def tsvRow (parseF32 : Text → Option ℚ) (s : TsvState) (row : Text) : TsvState :=
  match splitTabs 12 row with
  | [level, page, block, paragraph, line, _, _, _, _, _, confidence, word] =>
      let word := trimChars word
      if level ≠ ['5'] ∨ word = [] then s
      else
        let line := (parseU32 page, parseU32 block, parseU32 paragraph, parseU32 line)
        let separator :=
          if s.previousLine.isSome ∧ s.previousLine ≠ some line then ['\n']
          else if s.text ≠ [] then [' ']
          else []
        let rated := wordConfidence parseF32 confidence
        { text := s.text ++ separator ++ word
          confidenceSum := s.confidenceSum + rated.getD 0
          confidenceCount := s.confidenceCount + if rated.isSome then 1 else 0
          previousLine := some line }
  | _ => s

/-- `mean`, of numbers given by their sum and how many they are. -/
def mean (sum : ℚ) (count : Nat) : Option ℚ := if 0 < count then some (sum / count) else none

/-- `parse_tesseract_tsv`. -/
def parseTesseractTsv (parseF32 : Text → Option ℚ) (output : Bytes) (maxOutputCharacters : Nat)
    (languageHint : Option String) : Except OcrError OcrResult :=
  match Utf8.decode? output with
  | none => .error ⟨.processFailed, "local OCR returned invalid UTF-8"⟩
  | some tsv =>
      let s := ((lines tsv).drop 1).foldl (tsvRow parseF32) {}
      .ok
        { text := s.text.take maxOutputCharacters
          meanConfidence := mean s.confidenceSum s.confidenceCount
          languageHint }

/-- The media types `TesseractOcrProvider` accepts. -/
def ocrMediaTypes : List String :=
  ["image/png", "image/jpeg", "image/webp", "image/tiff", "image/bmp"]

/-- `TesseractOcrProvider::recognize`, when the process is called as `run`. -/
def recognize (tools : Tools) (run : Bytes → Except OcrError Bytes) (imageBytes : Bytes)
    (mediaType : String) (languages : List String) (maxOutputCharacters : Nat) (cancelled : Bool) :
    Except OcrError OcrResult :=
  if mediaType ∉ ocrMediaTypes then
    .error ⟨.invalidInput, "the local OCR provider does not accept this image type"⟩
  else if cancelled then .error ⟨.cancelled, "OCR was cancelled"⟩
  else
    match run imageBytes with
    | .error error => .error error
    | .ok output =>
        parseTesseractTsv tools.parseF32 output maxOutputCharacters languages.head?

end Zemo.Extraction
