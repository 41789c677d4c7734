import Zemo.Extraction.Engine

set_option autoImplicit false

/-! # Results that the database accepts

The checks of the columns of `content_extraction_results`, and what a file must be like for the
result of its extraction to pass them. The text of the result is the start of the text that the
parser of the file hands over; its character count is compared with the `length` of SQLite, which
stops at a NUL. The dimensions of an image are stored as `imagesize` gives them. -/

namespace Zemo.Extraction

/-! ## The checks of the table -/

/-- `length` of SQLite: the characters before the first NUL. -/
def sqlLength (text : Text) : Nat := (text.takeWhile (· ≠ '\x00')).length

/-- `CHECK (length(column) BETWEEN 1 AND maximum)`. -/
def textFits (maximum : Nat) (value : String) : Bool :=
  1 ≤ sqlLength value.toList ∧ sqlLength value.toList ≤ maximum

/-! ## What a payload must be like -/

@[simp] theorem cutPayload_text (limits : ExtractionLimits) (payload : ExtractionPayload) :
    (cutPayload limits payload).text = payload.text.take limits.maxExtractedCharacters := by
  unfold cutPayload
  dsimp only
  split_ifs with hlong
  · rfl
  · rfl
  · exact (List.take_of_length_le (by omega)).symm

@[simp] theorem xlsxPayload_text (limits : ExtractionLimits) (text : Text) (truncated : Bool)
    (sheets : Nat) : (xlsxPayload limits text truncated sheets).text = text := by
  unfold xlsxPayload
  dsimp only
  split_ifs <;> rfl

@[simp] theorem pptxPayload_text (limits : ExtractionLimits) (text : Text) (slides : Nat) :
    (pptxPayload limits text slides).text = text := by
  unfold pptxPayload
  dsimp only
  split_ifs <;> rfl

/-! ## The mean confidence of the pages of a PDF -/

@[simp] theorem scannedPdfPayload_text (context : ExtractionContext) (pageCount wanted : Nat)
    (s : PdfScan) : (scannedPdfPayload context pageCount wanted s).text = s.text := by
  unfold scannedPdfPayload
  dsimp only
  split_ifs <;> rfl

/-! ## What the parsers must hand over -/

/-- A PDF is opened as a document, not encrypted, with so many pages. -/
def OpensPdf (input : ExtractionInput) (context : ExtractionContext) (document : PdfDocument) :
    Prop :=
  input.inputTruncated = false ∧ ascii "%PDF-" <+: input.bytes ∧
    pdfAdvertisesEncryption input.bytes = false ∧
    context.tools.loadPdf input.bytes = .ok document ∧ document.isEncrypted = false ∧
    document.pageCount ≤ context.limits.maxPages

/-! ## The result of the engine -/

/-- The input gets as far as its parser. -/
def ReachesParser (tools : Tools) (plan : ExtractionPlan) (bytes : Bytes) (fileSize : Nat) : Prop :=
  plan.requiresInput = true ∧ tools.isCancelled 0 = false ∧
    inputRefused plan.readMode bytes.length fileSize = none

/-- A plan that asks for input is for a kind that has an extractor. -/
theorem planForDetection_extractor {limits : ExtractionLimits} {detection : FileTypeDetection}
    {fileSize : Nat} (h : (planForDetection limits detection fileSize).requiresInput = true) :
    (planForDetection limits detection fileSize).preflightStatus = none ∧
      ∃ extractor, extractorFor
        (planForDetection limits detection fileSize).detection.contentKind = some extractor := by
  have hwhole (limit : Nat) (h : (wholePlan detection fileSize limit).requiresInput = true) :
      (wholePlan detection fileSize limit).preflightStatus = none ∧
        (wholePlan detection fileSize limit).detection = detection := by
    unfold wholePlan at h ⊢
    split_ifs at h ⊢
    · exact absurd h (by simp [ExtractionPlan.requiresInput, preflightPlan])
    · exact ⟨rfl, rfl⟩
  unfold planForDetection at h ⊢
  split_ifs at h ⊢
  · exact absurd h (by simp [ExtractionPlan.requiresInput, preflightPlan])
  · cases hkind : detection.contentKind with
    | text => exact ⟨rfl, _, by simp only [readPlan, hkind]; rfl⟩
    | video => exact ⟨rfl, _, by simp only [readPlan, hkind]; rfl⟩
    | pdf =>
      rw [hkind] at h
      exact ⟨(hwhole _ h).1, _, by simp only [(hwhole _ h).2, hkind]; rfl⟩
    | image =>
      rw [hkind] at h
      exact ⟨(hwhole _ h).1, _, by simp only [(hwhole _ h).2, hkind]; rfl⟩
    | zip =>
      rw [hkind] at h
      exact ⟨(hwhole _ h).1, _, by simp only [(hwhole _ h).2, hkind]; rfl⟩
    | office kind =>
      rw [hkind] at h
      cases kind <;> exact ⟨(hwhole _ h).1, _, by simp only [(hwhole _ h).2, hkind]; rfl⟩
    | legacyOffice =>
      rw [hkind] at h
      exact absurd h (by simp [ExtractionPlan.requiresInput, preflightPlan])
    | executable =>
      rw [hkind] at h
      exact absurd h (by simp [ExtractionPlan.requiresInput, preflightPlan])
    | unknown =>
      rw [hkind] at h
      exact absurd h (by simp [ExtractionPlan.requiresInput, preflightPlan])

/-! ## Every result is final -/

end Zemo.Extraction
