import Zemo.Extraction.Markup

set_option autoImplicit false

/-! # The extraction engine

`LocalExtractionEngine`: a plan from the detected type, then the extractor of that type behind the
checks of the engine. -/

namespace Zemo.Extraction

/-- `LocalExtractionEngine`. No text has `2 ^ 63` characters or more, so a larger limit on them would
do what this bound does. -/
structure LocalExtractionEngine where
  limits : ExtractionLimits
  ocrLanguages : List String
  charactersFit : limits.maxExtractedCharacters < 2 ^ 63

/-- `LocalExtractionEngine::local_default`. -/
def LocalExtractionEngine.localDefault : LocalExtractionEngine where
  limits := ExtractionLimits.normalized {}
  ocrLanguages := ["eng"]
  charactersFit := by decide

/-- `preflight_plan`. -/
def preflightPlan (detection : FileTypeDetection) (status : ExtractionStatus)
    (category : ErrorCategory) (message : String) : ExtractionPlan where
  detection
  readMode := .none
  preflightStatus := some status
  preflightError := some category
  preflightMessage := some message

/-- The plan to read a file. -/
def readPlan (detection : FileTypeDetection) (readMode : ReadMode) : ExtractionPlan where
  detection
  readMode
  preflightStatus := none
  preflightError := none
  preflightMessage := none

/-- The plan to read a whole file of at most some bytes. -/
def wholePlan (detection : FileTypeDetection) (fileSize limit : Nat) : ExtractionPlan :=
  if limit < fileSize then
    preflightPlan detection .skipped .tooLarge
      s!"file exceeds the configured {limit}-byte extractor limit"
  else readPlan detection (.whole limit)

/-- `plan_for_detection`. -/
def planForDetection (limits : ExtractionLimits) (detection : FileTypeDetection) (fileSize : Nat) :
    ExtractionPlan :=
  if detection.mismatch then
    preflightPlan detection .failed .typeMismatch
      "file extension disagrees with detected content; parser was not invoked"
  else
    match detection.contentKind with
    | .text => readPlan detection (.start limits.maxTextInputBytes)
    | .pdf => wholePlan detection fileSize limits.maxPdfInputBytes
    | .office _ => wholePlan detection fileSize limits.maxOfficeInputBytes
    | .image => wholePlan detection fileSize limits.maxImageInputBytes
    | .zip => wholePlan detection fileSize limits.maxArchiveInputBytes
    | .video => readPlan detection (.start maxScanBytes)
    | .legacyOffice =>
        preflightPlan detection .unsupported .unsupported
          "legacy Office formats are not opened or automated"
    | .executable =>
        preflightPlan detection .unsupported .unsupported
          "executable content is never launched or parsed"
    | .unknown =>
        preflightPlan detection .unsupported .unsupported
          "no safe local extractor supports this content type"

/-- `prepare`. -/
def LocalExtractionEngine.prepare (engine : LocalExtractionEngine) (tools : Tools)
    (extension : Option String) (head : Bytes) (fileSize : Nat) : ExtractionPlan :=
  planForDetection engine.limits
    (detectFileType (tools.infer head) (Utf8.decode? head) extension head) fileSize

/-- `result_from_failure`. -/
def resultFromFailure (plan : ExtractionPlan) (extractor : Option ExtractorType)
    (failure : ExtractionFailure) (durationMs : Nat) : ExtractionResult where
  status := failure.status
  extractor
  extractorVersion := extractor.map fun _ => packageVersion
  detectedContentType := plan.detection.detectedContentType
  typeMismatch := plan.detection.mismatch
  text := []
  characterCount := 0
  pageCount := none
  sheetCount := none
  slideCount := none
  imageWidth := none
  imageHeight := none
  requiresOcr := false
  ocrUsed := false
  ocrConfidence := none
  languageHint := none
  durationMs
  truncated := false
  errorCategory := some failure.category
  errorMessage := some failure.message

/-- The extractor of a kind of content, and its type. -/
def extractorFor :
    ContentKind → Option (ExtractorType × (ExtractionInput → ExtractionContext → Extracted))
  | .text => some (.plainText, fun input _ => extractPlainText input)
  | .pdf => some (.pdfText, extractPdf)
  | .office .docx => some (.docx, extractOffice .docx)
  | .office .xlsx => some (.xlsx, extractOffice .xlsx)
  | .office .pptx => some (.pptx, extractOffice .pptx)
  | .image => some (.imageMetadata, extractImage)
  | .zip => some (.zipMetadata, extractZip)
  | .video => some (.videoMetadata, extractVideo)
  | .legacyOffice | .executable | .unknown => none

/-- The payload with its text cut at the limit. -/
def cutPayload (limits : ExtractionLimits) (payload : ExtractionPayload) : ExtractionPayload :=
  if limits.maxExtractedCharacters < payload.text.length then
    let cut :=
      { payload with text := payload.text.take limits.maxExtractedCharacters, truncated := true }
    if payload.status = .success then
      { cut with
        status := .partialResult
        errorCategory := some .tooLarge
        errorMessage := some "extracted text was truncated at the configured limit" }
    else cut
  else payload

/-- The result of a payload. -/
def resultFromPayload (plan : ExtractionPlan) (payload : ExtractionPayload) (durationMs : Nat) :
    ExtractionResult where
  status := payload.status
  extractor := some payload.extractor
  extractorVersion := some packageVersion
  detectedContentType := plan.detection.detectedContentType
  typeMismatch := plan.detection.mismatch
  text := payload.text
  characterCount := payload.text.length
  pageCount := payload.pageCount
  sheetCount := payload.sheetCount
  slideCount := payload.slideCount
  imageWidth := payload.imageWidth
  imageHeight := payload.imageHeight
  requiresOcr := payload.requiresOcr
  ocrUsed := payload.ocrUsed
  ocrConfidence := payload.ocrConfidence
  languageHint := payload.languageHint
  durationMs
  truncated := payload.truncated
  errorCategory := payload.errorCategory
  errorMessage := payload.errorMessage

/-- The extractor behind `catch_unwind`, and the result of what it returns. -/
def LocalExtractionEngine.runExtractor (engine : LocalExtractionEngine) (tools : Tools)
    (plan : ExtractionPlan) (extractorType : ExtractorType)
    (run : ExtractionInput → ExtractionContext → Extracted) (bytes : Bytes) (fileSize : Nat) :
    ExtractionResult :=
  if tools.panics then
    resultFromFailure plan (some extractorType)
      (.failed .parserFailure "local parser stopped while handling hostile or malformed input")
      tools.elapsedMs
  else
    match run ⟨bytes, bytes.length < fileSize, plan.detection⟩
        ⟨engine.limits, tools, engine.ocrLanguages⟩ with
    | .error failure => resultFromFailure plan (some extractorType) failure tools.elapsedMs
    | .ok payload => resultFromPayload plan (cutPayload engine.limits payload) tools.elapsedMs

/-- The input is more, or less, than the read mode lets the parser have. -/
def inputRefused (readMode : ReadMode) (length fileSize : Nat) : Option String :=
  match readMode with
  | .none => none
  | .whole limit =>
      if length < fileSize ∨ limit < length then
        some "complete parser input was not available within its safety limit"
      else none
  | .start limit => if limit < length then some "text input exceeded its safety limit" else none

/-- `extract`. -/
def LocalExtractionEngine.extract (engine : LocalExtractionEngine) (tools : Tools)
    (plan : ExtractionPlan) (bytes : Bytes) (fileSize : Nat) : ExtractionResult :=
  if plan.preflightStatus.isSome ∨ ¬plan.requiresInput then .preflight plan
  else if tools.isCancelled 0 then
    resultFromFailure plan none (.skipped .cancelled "content extraction was cancelled") 0
  else
    match inputRefused plan.readMode bytes.length fileSize with
    | some message => resultFromFailure plan none (.skipped .tooLarge message) 0
    | none =>
        match extractorFor plan.detection.contentKind with
        | none =>
            resultFromFailure plan none
              ⟨.unsupported, .unsupported, "no safe extractor is registered for this content type",
                rfl⟩ 0
        | some (extractorType, run) =>
            engine.runExtractor tools plan extractorType run bytes fileSize

end Zemo.Extraction

/-! ## Where the first bytes of a text end

The type of a file without a known extension is found from its first bytes. A text is found to be one
from its start exactly when the start ends with a character, is not empty and has few control
characters itself, and the text does not begin as a file of another kind does. -/

namespace Zemo.Extraction

open Utf8 (encode)

/-- The beginnings of texts that are taken for another kind of file. -/
def signatures : List Text :=
  ["%PDF-".toList, ['P', 'K', '\x03', '\x04'], ['P', 'K', '\x05', '\x06'],
    ['P', 'K', '\x07', '\x08'], "MZ".toList, ['\x7f', 'E', 'L', 'F']]

/-- The text does not begin as another kind of file. -/
def Unsigned (text : Text) : Prop := ∀ signature ∈ signatures, ¬signature <+: text

/-- At most one in a hundred characters is a control character other than a line end or a tab. -/
def FewControls (text : Text) : Prop :=
  (text.filter fun c => isControl c ∧ c ∉ ['\n', '\r', '\t']).length * 100 ≤ max text.length 1

instance (text : Text) : Decidable (Unsigned text) :=
  inferInstanceAs (Decidable (∀ _ ∈ _, ¬_))

instance (text : Text) : Decidable (FewControls text) := inferInstanceAs (Decidable (_ ≤ _))

/-- The detection from a file's first bytes. -/
def Tools.detect (tools : Tools) (extension : Option String) (head : Bytes) : FileTypeDetection :=
  detectFileType (tools.infer head) (Utf8.decode? head) extension head

/-- From its first bytes the text is found to be what the whole text is found to be, a text, and is
read as one. -/
def FoundAsText (tools : Tools) (extension : Option String) (text : Text) (head : Bytes) : Prop :=
  tools.detect extension head = tools.detect extension (encode text)
    ∧ (tools.detect extension head).contentKind = .text
    ∧ (extractorFor (tools.detect extension head).contentKind).map Prod.fst = some .plainText

section Detection

variable {tools : Tools} {extension : Option String} {text : Text} {head : Bytes}

/-! ## Signatures -/

theorem ascii_prefix_iff {signature : Text} {bytes : Bytes} (h : encode signature = bytes) :
    bytes <+: encode text ↔ signature <+: text := by
  rw [← h, Utf8.encode_prefix_iff]

/-- No text begins with the bytes of the other magic numbers. -/
theorem isMachO_encode (hhead : head <+: encode text) : isMachO head = false := by
  unfold isMachO
  rw [decide_eq_false_iff_not]
  intro h
  have hprefixed : head.take 4 <+: encode text := (List.take_prefix 4 head).trans hhead
  simp only [List.mem_cons, List.not_mem_nil, or_false] at h
  rcases h with h | h | h | h | h <;> rw [h] at hprefixed <;>
    exact Utf8.not_prefix_of_broken (by decide) hprefixed

/-- A magic number makes the file another kind than text. -/
theorem magicType_ne_text {kind : ContentKind} {mediaType : String}
    (h : magicType none head = some (kind, mediaType)) : kind ≠ .text := by
  unfold magicType at h
  rintro rfl
  split_ifs at h <;> cases h

theorem magicType_eq_none_iff :
    magicType none head = none ↔ ¬(ascii "%PDF-" <+: head
      ∨ ([0x50, 0x4b, 0x03, 0x04] <+: head ∨ [0x50, 0x4b, 0x05, 0x06] <+: head
        ∨ [0x50, 0x4b, 0x07, 0x08] <+: head)
      ∨ [0xd0, 0xcf, 0x11, 0xe0, 0xa1, 0xb1, 0x1a, 0xe1] <+: head
      ∨ (ascii "MZ" <+: head ∨ 0x7f :: ascii "ELF" <+: head ∨ isMachO head)) := by
  unfold magicType
  split_ifs with h1 h2 h3 h4
  · exact iff_of_false (nomatch ·) fun h => h (.inl h1)
  · exact iff_of_false (nomatch ·) fun h => h (.inr (.inl h2))
  · exact iff_of_false (nomatch ·) fun h => h (.inr (.inr (.inl h3)))
  · exact iff_of_false (nomatch ·) fun h => h (.inr (.inr (.inr h4)))
  · refine iff_of_true rfl ?_
    rintro (h | h | h | h)
    · exact h1 h
    · exact h2 h
    · exact h3 h
    · exact h4 h

/-- The bytes of a text are taken for another kind of file when the text begins as one. -/
theorem magicType_encode_eq_none_iff : magicType none (encode text) = none ↔ Unsigned text := by
  have hole : ¬[0xd0, 0xcf, 0x11, 0xe0, 0xa1, 0xb1, 0x1a, 0xe1] <+: encode text :=
    Utf8.not_prefix_of_broken (by decide)
  have hpdf : ascii "%PDF-" <+: encode text ↔ "%PDF-".toList <+: text :=
    ascii_prefix_iff (by decide)
  have hzip (a b : UInt8) (c d : Char) (h : encode [c, d] = [a, b]) :
      [0x50, 0x4b, a, b] <+: encode text ↔ ['P', 'K', c, d] <+: text :=
    ascii_prefix_iff (by
      rw [show ['P', 'K', c, d] = ['P', 'K'] ++ [c, d] from rfl, Utf8.encode_append, h]
      rfl)
  have hexe : ascii "MZ" <+: encode text ↔ "MZ".toList <+: text := ascii_prefix_iff (by decide)
  have helf : 0x7f :: ascii "ELF" <+: encode text ↔ ['\x7f', 'E', 'L', 'F'] <+: text :=
    ascii_prefix_iff (by decide)
  rw [magicType_eq_none_iff, hpdf, hzip 3 4 '\x03' '\x04' (by decide),
    hzip 5 6 '\x05' '\x06' (by decide), hzip 7 8 '\x07' '\x08' (by decide), hexe, helf,
    isMachO_encode (List.prefix_refl _)]
  simp [Unsigned, signatures, hole, not_or, and_assoc]

/-- Neither is a start of a text that does not begin as another kind of file. -/
theorem magicType_start (hhead : head <+: encode text) (h : Unsigned text) :
    magicType none head = none := by
  rw [← magicType_encode_eq_none_iff, magicType_eq_none_iff] at h
  rw [magicType_eq_none_iff]
  refine fun hmagic => h ?_
  rcases hmagic with h | (h | h | h) | h | h | h | h
  · exact .inl (h.trans hhead)
  · exact .inr (.inl (.inl (h.trans hhead)))
  · exact .inr (.inl (.inr (.inl (h.trans hhead))))
  · exact .inr (.inl (.inr (.inr (h.trans hhead))))
  · exact .inr (.inr (.inl (h.trans hhead)))
  · exact .inr (.inr (.inr (.inl (h.trans hhead))))
  · exact .inr (.inr (.inr (.inr (.inl (h.trans hhead)))))
  · rw [isMachO_encode hhead] at h
    cases h

/-! ## Detection -/

/-- A file without a known extension is found to be a text when it has no magic number and its bytes
look like one. -/
theorem detectFileType_unknown {decoded : Option Text}
    (hextension : (normalizeExtension extension).bind expectedTypeForExtension = none) :
    (detectFileType none decoded extension head).contentKind = .text ↔
      magicType none head = none ∧ looksLikeUtf8Text decoded head = true := by
  unfold detectFileType
  simp only [hextension]
  cases hmagic : magicType none head with
  | some magic =>
    obtain ⟨kind, mediaType⟩ := magic
    simpa using magicType_ne_text hmagic
  | none => cases hlooks : looksLikeUtf8Text decoded head <;> simp

theorem detectFileType_text {decoded : Option Text}
    (hextension : (normalizeExtension extension).bind expectedTypeForExtension = none)
    (hmagic : magicType none head = none) (hlooks : looksLikeUtf8Text decoded head = true) :
    detectFileType none decoded extension head
      = ⟨normalizeExtension extension, .text, "text/plain", false, false⟩ := by
  unfold detectFileType
  simp only [hextension, hmagic, hlooks, if_true]

/-- A start of a text looks like one when it ends with a character, is not empty and has few
controls. -/
theorem looksLikeUtf8Text_start (hnul : '\x00' ∉ text) (hhead : head <+: encode text) :
    looksLikeUtf8Text (Utf8.decode? head) head = true ↔
      ∃ start, head = encode start ∧ start ≠ [] ∧ FewControls start := by
  have hzero : 0 ∉ head := fun h => Utf8.zero_notMem_encode hnul (hhead.subset h)
  unfold looksLikeUtf8Text
  by_cases hempty : head = []
  · rw [if_pos (.inl hempty)]
    refine iff_of_false (nomatch ·) ?_
    rintro ⟨start, hstart, hne, -⟩
    rw [hempty, ← Utf8.encode_nil] at hstart
    exact hne (Utf8.encode_injective hstart).symm
  · rw [if_neg (not_or.2 ⟨hempty, hzero⟩)]
    cases hdecode : Utf8.decode? head with
    | none =>
      refine iff_of_false (nomatch ·) ?_
      rintro ⟨start, rfl, -⟩
      rw [Utf8.decode?_encode] at hdecode
      cases hdecode
    | some start =>
      have hstart := (Utf8.decode?_eq_some hhead).1 hdecode
      simp only [decide_eq_true_iff]
      constructor
      · exact fun hfew => ⟨start, hstart, fun hnil => hempty (by rw [hstart, hnil]; rfl), hfew⟩
      · rintro ⟨start', hstart', -, hfew⟩
        rwa [Utf8.encode_injective (hstart.symm.trans hstart')]

/-- **Which starts of a text are found to be text.** A text is found to be one from its first bytes,
as from all of them, exactly when it does not begin as a file of another kind and the bytes are those
of a start of it that is not empty and has few control characters itself. -/
theorem foundAsText_iff (hinfer : ∀ head, head <+: encode text → tools.infer head = none)
    (hextension : (normalizeExtension extension).bind expectedTypeForExtension = none)
    (hnul : '\x00' ∉ text) (hfew : FewControls text) (hhead : head <+: encode text) :
    FoundAsText tools extension text head ↔
      Unsigned text ∧ ∃ start, head = encode start ∧ start ≠ [] ∧ FewControls start := by
  have hwhole := List.prefix_refl (encode text)
  unfold FoundAsText Tools.detect
  rw [hinfer head hhead, hinfer _ hwhole]
  constructor
  · rintro ⟨hsame, htext, -⟩
    have hlooks := ((detectFileType_unknown hextension).1 htext).2
    rw [hsame] at htext
    have hmagic := ((detectFileType_unknown hextension).1 htext).1
    exact ⟨magicType_encode_eq_none_iff.1 hmagic, (looksLikeUtf8Text_start hnul hhead).1 hlooks⟩
  · rintro ⟨hunsigned, start, hstart, hne, hstartFew⟩
    have htext : text ≠ [] := by
      rintro rfl
      rw [hstart, Utf8.encode_prefix_iff, List.prefix_nil] at hhead
      exact hne hhead
    rw [detectFileType_text hextension (magicType_start hhead hunsigned)
        ((looksLikeUtf8Text_start hnul hhead).2 ⟨start, hstart, hne, hstartFew⟩),
      detectFileType_text hextension (magicType_start hwhole hunsigned)
        ((looksLikeUtf8Text_start hnul hwhole).2 ⟨text, rfl, htext, hfew⟩)]
    exact ⟨rfl, rfl, rfl⟩

theorem foundAsText_iff_word :
    FoundAsText (partTools fun _ => []) none ['n', 'é'] [0x6e] :=
  (foundAsText_iff (fun _ _ => rfl) rfl (by decide) (by decide) (by decide)).2
    ⟨by decide, ['n'], by decide, by decide, by decide⟩

/-- A text whose start ends inside a character is not found to be one. -/
theorem cutCharacter_notFound :
    ¬FoundAsText (partTools fun _ => []) none ['n', 'é'] [0x6e, 0xc3] := by
  rintro ⟨-, htext, -⟩
  exact absurd htext (by decide)

end Detection

end Zemo.Extraction
