import Zemo.Knowledge.Dates
import Zemo.Search.WholeWords

set_option autoImplicit false

/-! # Corrections by the user

A value is shown as a text, and a text that the user enters for a field is read as a value by
`normalize_user_correction`. -/

namespace Zemo.Knowledge

open Texts
open Organizer (trimChars)
open Search.Interpretation (splitWhitespace joinSpaces)
open Semantic (SemanticFieldType SemanticValue DocumentType DocumentContext)

/-! ## Reading a correction -/

/-- `is_ascii_punctuation`. -/
def isAsciiPunctuation (c : Char) : Bool :=
  (0x21 ≤ c.toNat && c.toNat ≤ 0x2f) || (0x3a ≤ c.toNat && c.toNat ≤ 0x40)
    || (0x5b ≤ c.toNat && c.toNat ≤ 0x60) || (0x7b ≤ c.toNat && c.toNat ≤ 0x7e)

/-- The characters taken off both ends of a value. -/
def isTrimmed (c : Char) : Bool := isAsciiPunctuation c && !(c = '@' || c = '+' || c = '-')

/-- `normalize_entity_value`. -/
def normalizeEntityValue (value : Text) : Text :=
  trim isTrimmed (joinSpaces (splitWhitespace value))

/-- The document type of a label. -/
def documentTypeOf (label : String) : Option DocumentType :=
  match label with
  | "invoice" | "facture" => some .invoice
  | "quote" | "quotation" | "devis" => some .quote
  | "contract" | "contrat" => some .contract
  | "purchase_order" | "bon_de_commande" => some .purchaseOrder
  | "delivery_note" | "bon_de_livraison" => some .deliveryNote
  | "bank_statement" | "relevé_bancaire" | "releve_bancaire" => some .bankStatement
  | "tax_document" | "document_fiscal" => some .taxDocument
  | "payslip" | "bulletin_de_paie" => some .payslip
  | "employment_contract" | "contrat_de_travail" => some .employmentContract
  | "insurance_document" | "document_assurance" => some .insuranceDocument
  | "legal_document" | "document_juridique" => some .legalDocument
  | "administrative_document" | "document_administratif" => some .administrativeDocument
  | "receipt" | "reçu" | "recu" => some .receipt
  | "report" | "rapport" => some .report
  | "letter" | "lettre" => some .letter
  | "cv" | "resume" => some .cv
  | "photo" => some .photo
  | "video" | "vidéo" => some .video
  | "spreadsheet" | "tableur" => some .spreadsheet
  | "presentation" | "présentation" => some .presentation
  | "archive" => some .archive
  | "other" | "autre" => some .other
  | "unknown" | "inconnu" => some .unknown
  | _ => none

/-- The context of a label. -/
def contextOf (label : String) : Option DocumentContext :=
  match label with
  | "personal" | "personnel" => some .personal
  | "business" | "professional" | "professionnel" => some .business
  | "mixed" | "mixte" => some .mixed
  | "unknown" | "inconnu" => some .unknown
  | _ => none

/-- The label of a correction. -/
def normalizedLabel (trimmed : Text) : String :=
  String.ofList ((trimmed.map Char.toLower).map fun c => if c = ' ' ∨ c = '-' then '_' else c)

/-- The input a correction of a date is read in. -/
def correctionInput (localeHint : Option Text) : SemanticInput where
  filename := "user-correction".toList
  extractorType := none
  pageCount := none
  ocrUsed := false
  languageHint := localeHint
  localeHint := localeHint

/-- The quality of a correction. -/
def fullConfidence : ConfidenceScore := ⟨1, by decide, by decide⟩

/-- A correction of a date. -/
def correctDate (patterns : DatePatterns) (trimmed : Text) (localeHint : Option Text) :
    Except KnowledgeError SemanticValue :=
  match (parseDates patterns (correctionInput localeHint) fullConfidence trimmed).head?.filter
      (·.alternate.isNone) with
  | some date => .ok (.date (String.ofList date.normalized))
  | none => .error (.invalidStructuredOutput "date correction is invalid or locale-ambiguous")

/-- A correction of an amount. -/
def correctMoney (trimmed : Text) : Except KnowledgeError SemanticValue :=
  match (parseMoneyValues trimmed false).head? with
  | some parsed => .ok (.money parsed.amountMinor parsed.scale parsed.currency)
  | none => .error (.invalidStructuredOutput "money correction is invalid")

/-- The separators of contract parties. -/
def isPartySeparator (c : Char) : Bool := c = ';' || c = '|'

/-- A correction of contract parties. -/
def correctParties (trimmed : Text) : Except KnowledgeError SemanticValue :=
  let values := ((((trimmed.splitOnP isPartySeparator).map trimChars).filter (· ≠ [])).map
    normalizeEntityValue).take 16
  if values = [] then .error (.invalidStructuredOutput "contract parties correction is empty")
  else .ok (.textList (values.map String.ofList))

/-- `normalize_user_correction`. -/
def normalizeUserCorrection (patterns : DatePatterns) (fieldType : SemanticFieldType) (value : Text)
    (localeHint : Option Text) : Except KnowledgeError SemanticValue :=
  let trimmed := trimChars value
  if trimmed = [] ∨ 256 < trimmed.length then
    .error (.invalidStructuredOutput "user correction must contain between 1 and 256 characters")
  else
    match fieldType with
    | .documentType =>
        match documentTypeOf (normalizedLabel trimmed) with
        | some value => .ok (.documentType value)
        | none => .error (.invalidStructuredOutput "unsupported document type correction")
    | .context =>
        match contextOf (normalizedLabel trimmed) with
        | some value => .ok (.context value)
        | none => .error (.invalidStructuredOutput "unsupported context correction")
    | .issueDate | .dueDate | .expirationDate | .documentDate =>
        correctDate patterns trimmed localeHint
    | .subtotal | .tax | .total | .amount => correctMoney trimmed
    | .contractParties => correctParties trimmed
    | .supplierCandidate | .customerCandidate | .issuer | .invoiceNumber | .quoteNumber
    | .documentNumber | .currency | .purchaseOrderReference | .projectReferenceCandidate
    | .contractTitle | .contractType | .companyIdentifier =>
        .ok (.text (String.ofList (normalizeEntityValue trimmed)))

/-- The fields whose value is a date. -/
def IsDateField (fieldType : SemanticFieldType) : Prop :=
  fieldType = .issueDate ∨ fieldType = .dueDate ∨ fieldType = .expirationDate
    ∨ fieldType = .documentDate

/-- The fields whose value is an amount. -/
def IsMoneyField (fieldType : SemanticFieldType) : Prop :=
  fieldType = .subtotal ∨ fieldType = .tax ∨ fieldType = .total ∨ fieldType = .amount

section Branches

variable {patterns : DatePatterns} {fieldType : SemanticFieldType} {value : Text}
  {localeHint : Option Text}

/-- A correction is read without the white space at its ends. -/
theorem normalizeUserCorrection_trimmed (hne : trimChars value ≠ [])
    (hlength : (trimChars value).length ≤ 256) :
    (IsDateField fieldType → normalizeUserCorrection patterns fieldType value localeHint
        = correctDate patterns (trimChars value) localeHint)
      ∧ (IsMoneyField fieldType → normalizeUserCorrection patterns fieldType value localeHint
        = correctMoney (trimChars value))
      ∧ normalizeUserCorrection patterns .contractParties value localeHint
        = correctParties (trimChars value) := by
  have hguard : ¬(trimChars value = [] ∨ 256 < (trimChars value).length) := by
    rintro (h | h)
    · exact hne h
    · omega
  unfold normalizeUserCorrection
  dsimp only
  rw [if_neg hguard]
  refine ⟨?_, ?_, if_neg hguard⟩
  · rintro (rfl | rfl | rfl | rfl) <;> rfl
  · rintro (rfl | rfl | rfl | rfl) <;> rfl

end Branches

/-! ## Dates with one reading -/

/-- What a date of a text is reported as: a date of the calendar that the text at its place gives, in
numbers or with its month in letters. The alternate of a date in numbers whose year is last is the
other order of the month and the day, when these differ and that is a date as well; other dates have
none. -/
structure DateReport (patterns : DatePatterns) (source : Text) (parsed : ParsedDate)
    (front full : Text) (year month day : Nat) : Prop where
  located : (∃ back, source = front ++ full ++ back)
    ∧ parsed.located = .fromMatch full (byteLength front)
  calendar : IsCalendarDate year month day
  normalized : parsed.normalized = isoDate year month day ∧ IsIsoForm parsed.normalized
  read : (∃ date : NumericDate, date.InForm ∧ full = date.full ∧ date.Reads year month day
      ∧ (date.first.length = 4 → parsed.alternate = none)
      ∧ (date.YearLast → month ≠ day → ∀ alternate, parsed.alternate = some alternate ↔
          validDate year day month = true ∧ alternate = isoDate year day month))
    ∨ (∃ date : TextDate, date.InForm ∧ full = date.full ∧ parseDatePart date.day = some day
      ∧ monthNumber patterns.toLowercase date.month = some month
      ∧ parseDatePart date.year = some year) ∧ parsed.alternate = none

section Reading

variable {patterns : DatePatterns} {input : SemanticInput} {quality : ConfidenceScore}
  {source : Text} {parsed : ParsedDate}

theorem TextDate.parsed_spec {date : TextDate}
    (h : date.parsed patterns.toLowercase quality = some parsed) :
    parsed.located = .fromMatch date.full (byteLength date.front) ∧ parsed.alternate = none
      ∧ ∃ year month day, validDate year month day = true ∧ parsed.normalized = isoDate year month day
        ∧ parseDatePart date.day = some day
        ∧ monthNumber patterns.toLowercase date.month = some month
        ∧ parseDatePart date.year = some year := by
  unfold TextDate.parsed at h
  obtain ⟨day, hday, h⟩ := Option.bind_eq_some_iff.1 h
  obtain ⟨month, hmonth, h⟩ := Option.bind_eq_some_iff.1 h
  obtain ⟨year, hyear, h⟩ := Option.bind_eq_some_iff.1 h
  split at h
  swap
  · cases h
  next hvalid =>
  obtain rfl := Option.some.inj h
  exact ⟨rfl, rfl, year, month, day, hvalid, rfl, hday, hmonth, hyear⟩

/-- A date is found in numbers or with its month in letters. -/
theorem mem_parseDates (h : parsed ∈ parseDates patterns input quality source) :
    (∃ date ∈ numericDates patterns.isWord source,
        date.parsed (frenchLocale input) quality = some parsed)
      ∨ ∃ date ∈ textDates patterns source ++ englishTextDates patterns source,
        date.parsed patterns.toLowercase quality = some parsed := by
  unfold parseDates at h
  rcases List.mem_append.1 h with h | h
  · rcases List.mem_append.1 h with h | h
    · obtain ⟨date, hmem, hdate⟩ := List.mem_filterMap.1 h
      exact .inl ⟨date, List.mem_of_mem_take hmem, hdate⟩
    · obtain ⟨date, hmem, hdate⟩ := List.mem_filterMap.1 h
      exact .inr ⟨date, List.mem_append_left _ (List.mem_of_mem_take hmem), hdate⟩
  · obtain ⟨date, hmem, hdate⟩ := List.mem_filterMap.1 h
    exact .inr ⟨date, List.mem_append_right _ (List.mem_of_mem_take hmem), hdate⟩

theorem parseDates_report (h : parsed ∈ parseDates patterns input quality source) :
    ∃ front full year month day, DateReport patterns source parsed front full year month day := by
  rcases mem_parseDates h with ⟨date, hmem, hdate⟩ | ⟨date, hmem, hdate⟩
  · obtain ⟨hlocated, year, month, day, hreads, hvalid, hnormalized, hfirst, hlast⟩ :=
      NumericDate.parsed_spec hdate
    obtain ⟨hplace, hform⟩ := mem_numericDates hmem
    refine ⟨date.front, date.full, year, month, day, ⟨hplace, hlocated⟩,
      ((validDate_iff ..).1 hvalid).2, ⟨hnormalized, ?_⟩,
      .inl ⟨date, hform, rfl, hreads, hfirst, fun hyearLast _ alternate => ?_⟩⟩
    · rw [hnormalized]
      exact isIsoForm_isoDate hvalid
    · rw [hlast hyearLast]
      split
      · next hother => simp [hother, eq_comm]
      · next hother => simp [hother]
  · obtain ⟨hlocated, hnone, year, month, day, hvalid, hnormalized, hparts⟩ :=
      TextDate.parsed_spec hdate
    obtain ⟨hplace, hform⟩ := mem_textDates hmem
    refine ⟨date.front, date.full, year, month, day, ⟨hplace, hlocated⟩,
      ((validDate_iff ..).1 hvalid).2, ⟨hnormalized, ?_⟩, .inr ⟨⟨date, hform, rfl, hparts⟩, hnone⟩⟩
    rw [hnormalized]
    exact isIsoForm_isoDate hvalid

/-! ## Dates in numbers that stand alone -/

/-- A run of digits before another character. -/
theorem digitGroup_append {maximum : Nat} {run behind : Text} (hne : run ≠ [])
    (hle : run.length ≤ maximum) (hdigits : ∀ c ∈ run, c.isDigit = true)
    (hbehind : ∀ c ∈ behind.head?, c.isDigit = false) :
    digitGroup maximum (run ++ behind) = some (run, behind) := by
  have hrun : (run ++ behind).takeWhile Char.isDigit = run := by
    rw [List.takeWhile_append_of_pos hdigits]
    cases behind with
    | nil => simp
    | cons c behind => simp [hbehind c rfl]
  refine Option.filter_eq_some_iff.2 ⟨?_, decide_eq_true hle⟩
  unfold takeRun
  dsimp only
  rw [hrun, if_neg hne, List.drop_left]

theorem isDateSeparator_iff {c : Char} : isDateSeparator c = true ↔ c = '/' ∨ c = '-' := by
  simp [isDateSeparator]

theorem isDigit_of_isDateSeparator {c : Char} (h : isDateSeparator c = true) :
    c.isDigit = false := by
  rcases isDateSeparator_iff.1 h with rfl | rfl <;> rfl

/-- A date in numbers is found where it stands alone. -/
theorem numericDateAt_full {isWord : Char → Bool} {date : NumericDate} (hform : date.InForm)
    (hfront : date.front = []) : numericDateAt isWord [] date.full = some date := by
  have hhead : ∀ {c : Char} {behind : Text}, isDateSeparator c = true →
      ∀ d ∈ (c :: behind).head?, d.isDigit = false := by
    rintro c behind hc d ⟨⟩
    exact isDigit_of_isDateSeparator hc
  obtain ⟨⟨hne₁, hle₁, hdigits₁⟩, ⟨hne₂, hle₂, hdigits₂⟩, ⟨hne₃, hle₃, hdigits₃⟩, hsep, hsep'⟩ :=
    hform
  have hthird := @digitGroup_append _ _ [] hne₃ hle₃ hdigits₃ (by simp)
  rw [List.append_nil] at hthird
  unfold numericDateAt
  refine (if_neg (by simp)).trans ?_
  refine Option.bind_eq_some_iff.2 ⟨_, digitGroup_append hne₁ hle₁ hdigits₁ (hhead hsep), ?_⟩
  refine Option.bind_eq_some_iff.2 ⟨_, Option.filter_eq_some_iff.2 ⟨rfl, hsep⟩, ?_⟩
  refine Option.bind_eq_some_iff.2 ⟨_, digitGroup_append hne₂ hle₂ hdigits₂ (hhead hsep'), ?_⟩
  refine Option.bind_eq_some_iff.2 ⟨_, Option.filter_eq_some_iff.2 ⟨rfl, hsep'⟩, ?_⟩
  refine Option.bind_eq_some_iff.2 ⟨_, hthird, ?_⟩
  refine (if_neg (by simp)).trans (congrArg some ?_)
  rw [← hfront]

/-- The characters of a date in numbers. -/
theorem mem_full {date : NumericDate} (hform : date.InForm) {c : Char} (h : c ∈ date.full) :
    c.isDigit = true ∨ isDateSeparator c = true := by
  rcases List.mem_append.1 h with h | h
  · exact .inl (hform.first.2.2 c h)
  rcases List.mem_cons.1 h with rfl | h
  · exact .inr hform.separators.1
  rcases List.mem_append.1 h with h | h
  · exact .inl (hform.second.2.2 c h)
  rcases List.mem_cons.1 h with rfl | h
  · exact .inr hform.separators.2
  · exact .inl (hform.third.2.2 c h)

theorem not_isWhiteSpace_of_mem_full {date : NumericDate} (hform : date.InForm) {c : Char}
    (h : c ∈ date.full) : isWhiteSpace c = false := by
  rcases mem_full hform h with h | h
  · exact not_isWhiteSpace_of_digit h
  · rcases isDateSeparator_iff.1 h with rfl | rfl <;> rfl

/-- A text in numbers has no date with a month in letters. -/
theorem parseDates_full {date : NumericDate} (hform : date.InForm) (hfront : date.front = []) :
    parseDates patterns input quality date.full
      = (date.parsed (frenchLocale input) quality).toList := by
  have hletters : textDates patterns date.full ++ englishTextDates patterns date.full = [] := by
    refine List.eq_nil_iff_forall_not_mem.2 fun found hfound => ?_
    obtain ⟨⟨back, hback⟩, hfound⟩ := mem_textDates hfound
    obtain ⟨c, hc, hspace⟩ := hfound.spaced
    have hmem : c ∈ date.full := by
      rw [hback]
      simp [hc]
    rw [not_isWhiteSpace_of_mem_full hform hmem] at hspace
    cases hspace
  obtain ⟨htext, henglish⟩ := List.append_eq_nil_iff.1 hletters
  have hnumeric : numericDates patterns.isWord date.full = [date] :=
    captures_full (by simp [NumericDate.full]) (numericDateAt_full hform hfront)
  unfold parseDates
  rw [hnumeric, htext, henglish]
  cases hparsed : date.parsed (frenchLocale input) quality <;> simp [hparsed]

end Reading

/-! ## Corrections of dates -/

section DateCorrections

variable {patterns : DatePatterns} {fieldType : SemanticFieldType} {localeHint : Option Text}
  {date : NumericDate}

theorem full_length_le (hform : date.InForm) : date.full.length ≤ 12 := by
  have hfirst := hform.first.2.1
  have hsecond := hform.second.2.1
  have hthird := hform.third.2.1
  simp only [NumericDate.full, List.length_append, List.length_cons]
  omega

/-- A date in numbers is accepted when it has a reading and no alternate. -/
theorem correctDate_full {value : Text} (hvalue : trimChars value = date.full)
    (hform : date.InForm) (hfront : date.front = []) (hfield : IsDateField fieldType)
    {corrected : SemanticValue} :
    normalizeUserCorrection patterns fieldType value localeHint = .ok corrected ↔
      ∃ parsed, date.parsed (frenchLocale (correctionInput localeHint)) fullConfidence = some parsed
        ∧ parsed.alternate = none ∧ corrected = .date (String.ofList parsed.normalized) := by
  have hlength := full_length_le hform
  rw [(normalizeUserCorrection_trimmed (by rw [hvalue]; simp [NumericDate.full])
    (by rw [hvalue]; omega)).1 hfield, hvalue, correctDate, parseDates_full hform hfront]
  cases hparsed : date.parsed (frenchLocale (correctionInput localeHint)) fullConfidence with
  | none => simp
  | some parsed =>
    cases halternate : parsed.alternate <;> simp [Option.filter, halternate, eq_comm]

/-- Up to the twelfth, the day and the month can change places. -/
theorem validDate_of_le_twelve {year month day : Nat} (hmonth : month ≤ 12) (hday : day ≤ 12) :
    validDate year month day = true ↔ (1900 ≤ year ∧ year ≤ 2200) ∧ 1 ≤ month ∧ 1 ≤ day := by
  rw [validDate_iff, IsCalendarDate]
  refine and_congr_right fun _ => and_congr_right fun hone => and_iff_left ?_
  have hlt : month - 1 < (monthLengths year).length := by
    rw [show (monthLengths year).length = 12 from rfl]
    omega
  have hlong : ∀ length ∈ monthLengths year, 12 ≤ length := by
    unfold monthLengths
    split <;> simp
  exact ⟨_, List.getElem?_eq_getElem hlt, hday.trans (hlong _ (List.getElem_mem hlt))⟩

/-- A date in numbers that has a reading is read. -/
theorem NumericDate.exists_parsed (french : Bool) (quality : ConfidenceScore)
    {year month day : Nat} (hreads : date.Reads year month day)
    (hvalid : validDate year month day = true) :
    ∃ parsed, date.parsed french quality = some parsed := by
  have hread : ∀ {year month day alternate base},
      date.reading french = some ((year, month, day), alternate, base) →
      validDate year month day = true → ∃ parsed, date.parsed french quality = some parsed := by
    intro year month day alternate base hreading hvalid
    unfold NumericDate.parsed
    rw [hreading]
    exact ⟨_, if_pos hvalid⟩
  unfold NumericDate.Reads at hreads
  unfold NumericDate.reading at hread
  dsimp only at hread
  by_cases hfirst : date.first.length = 4
  · simp only [if_pos hfirst, Prod.mk.injEq] at hreads hread
    obtain ⟨rfl, rfl, rfl⟩ := hreads
    exact hread rfl hvalid
  rw [if_neg hfirst] at hreads
  obtain ⟨hthird, rfl, hdate⟩ := hreads
  have hmonth := month_le_of_validDate hvalid
  simp only [if_neg hfirst, if_pos hthird] at hread
  by_cases ha : 12 < Numerals.value date.first
  · simp only [if_pos ha] at hread
    rcases hdate with hdate | hdate <;> obtain ⟨rfl, rfl⟩ := Prod.mk.inj hdate
    · exact hread rfl hvalid
    · omega
  simp only [if_neg ha] at hread
  by_cases hb : 12 < Numerals.value date.second
  · simp only [if_pos hb] at hread
    rcases hdate with hdate | hdate <;> obtain ⟨rfl, rfl⟩ := Prod.mk.inj hdate
    · omega
    · exact hread rfl hvalid
  simp only [if_neg hb] at hread
  -- either order is a date as soon as one is
  have hboth := @validDate_of_le_twelve (Numerals.value date.third) (Numerals.value date.second)
    (Numerals.value date.first) (by omega) (by omega)
  have hboth' := @validDate_of_le_twelve (Numerals.value date.third) (Numerals.value date.first)
    (Numerals.value date.second) (by omega) (by omega)
  have hall : validDate (Numerals.value date.third) (Numerals.value date.second)
        (Numerals.value date.first) = true
      ∧ validDate (Numerals.value date.third) (Numerals.value date.first)
        (Numerals.value date.second) = true := by
    rcases hdate with hdate | hdate <;> obtain ⟨rfl, rfl⟩ := Prod.mk.inj hdate
    · obtain ⟨hyear, hone, hone'⟩ := hboth.1 hvalid
      exact ⟨hvalid, hboth'.2 ⟨hyear, hone', hone⟩⟩
    · obtain ⟨hyear, hone, hone'⟩ := hboth'.1 hvalid
      exact ⟨hboth.2 ⟨hyear, hone', hone⟩, hvalid⟩
  cases french
  · exact hread rfl hall.2
  · exact hread rfl hall.1

/-- Two readings are the same, or differ in the order of the month and the day. -/
theorem reads_eq_or_swap {year month day year' month' day' : Nat}
    (h : date.Reads year month day) (h' : date.Reads year' month' day') :
    (year, month, day) = (year', month', day')
      ∨ date.YearLast ∧ year' = year ∧ month' = day ∧ day' = month := by
  unfold NumericDate.Reads at h h'
  by_cases hfirst : date.first.length = 4
  · rw [if_pos hfirst] at h h'
    exact .inl (h.trans h'.symm)
  rw [if_neg hfirst] at h h'
  obtain ⟨hthird, rfl, hdate⟩ := h
  obtain ⟨-, rfl, hdate'⟩ := h'
  rcases hdate with hdate | hdate <;> rcases hdate' with hdate' | hdate' <;>
    obtain ⟨rfl, rfl⟩ := Prod.mk.inj hdate <;> obtain ⟨rfl, rfl⟩ := Prod.mk.inj hdate'
  · exact .inl rfl
  · exact .inr ⟨⟨hfirst, hthird⟩, rfl, rfl, rfl⟩
  · exact .inr ⟨⟨hfirst, hthird⟩, rfl, rfl, rfl⟩
  · exact .inl rfl

/-- With the year last, the month and the day can be read in either order. -/
theorem reads_swap {year month day : Nat} (hlast : date.YearLast) (h : date.Reads year month day) :
    date.Reads year day month
      ∧ (Numerals.value date.first ≠ Numerals.value date.second → month ≠ day) := by
  unfold NumericDate.Reads at h ⊢
  rw [if_neg hlast.1] at h ⊢
  obtain ⟨hthird, rfl, hdate⟩ := h
  rcases hdate with hdate | hdate <;> obtain ⟨rfl, rfl⟩ := Prod.mk.inj hdate
  · exact ⟨⟨hthird, rfl, .inr rfl⟩, fun hne heq => hne heq.symm⟩
  · exact ⟨⟨hthird, rfl, .inl rfl⟩, id⟩

/-- **A date in numbers is accepted when it is one day**: when exactly one of its readings is a date,
unless the day and the month are the same number. -/
theorem correctDate_iff {value : Text} (hvalue : trimChars value = date.full)
    (hform : date.InForm) (hfront : date.front = []) (hfield : IsDateField fieldType)
    (hdiffers : date.YearLast → Numerals.value date.first ≠ Numerals.value date.second) :
    (∃ corrected,
        normalizeUserCorrection patterns fieldType value localeHint = .ok corrected) ↔
      ∃! reading : Nat × Nat × Nat, date.Reads reading.1 reading.2.1 reading.2.2
        ∧ validDate reading.1 reading.2.1 reading.2.2 = true := by
  constructor
  · rintro ⟨corrected, hcorrected⟩
    obtain ⟨parsed, hparsed, hnone, -⟩ :=
      (correctDate_full hvalue hform hfront hfield).1 hcorrected
    obtain ⟨-, year, month, day, hreads, hvalid, -, -, hlast⟩ := NumericDate.parsed_spec hparsed
    refine ⟨(year, month, day), ⟨hreads, hvalid⟩, ?_⟩
    rintro ⟨year', month', day'⟩ ⟨hreads', hvalid'⟩
    rcases reads_eq_or_swap hreads hreads' with hsame | ⟨hyearLast, rfl, rfl, rfl⟩
    · exact hsame.symm
    · rw [hlast hyearLast, if_pos hvalid'] at hnone
      cases hnone
  · rintro ⟨⟨year, month, day⟩, ⟨hreads, hvalid⟩, hunique⟩
    obtain ⟨parsed, hparsed⟩ := NumericDate.exists_parsed
      (frenchLocale (correctionInput localeHint)) fullConfidence hreads hvalid
    refine ⟨_, (correctDate_full hvalue hform hfront hfield).2 ⟨parsed, hparsed, ?_, rfl⟩⟩
    obtain ⟨-, year', month', day', hreads', hvalid', -, hfirst, hlast⟩ :=
      NumericDate.parsed_spec hparsed
    by_cases hyearLast : date.YearLast
    · rw [hlast hyearLast, if_neg]
      intro hswapped
      obtain ⟨hreads'', hne⟩ := reads_swap hyearLast hreads'
      have hone := hunique (year', month', day') ⟨hreads', hvalid'⟩
      have hother := hunique (year', day', month') ⟨hreads'', hswapped⟩
      exact hne (hdiffers hyearLast) (Prod.mk.inj (Prod.mk.inj (hone.trans hother.symm)).2).1
    · refine hfirst (Decidable.by_contra fun hlength => hyearLast ⟨hlength, ?_⟩)
      unfold NumericDate.Reads at hreads
      rw [if_neg hlength] at hreads
      exact hreads.1

end DateCorrections

/-- Words of letters, digits and underscores. -/
def asciiPatterns : DatePatterns where
  isWord c := c.isAlphanum || c = '_'
  fold := Char.toLower
  toLowercase := List.map Char.toLower

/-- With the day first or the month first, both dates are kept. -/
example : (parseDates asciiPatterns (correctionInput (some "fr".toList)) fullConfidence
    "Le 03/04/2026, le 2 Avril 2026 et le 31/02/2026".toList).map
      (fun date => (date.normalized, date.alternate))
    = [("2026-04-03".toList, some "2026-03-04".toList), ("2026-04-02".toList, none)] := by
  decide +kernel

end Zemo.Knowledge
