import Mathlib.Tactic.IntervalCases
import Zemo.Knowledge.Amounts
import Zemo.Knowledge.MoreEvidence
import Zemo.Lib.Pointwise

set_option autoImplicit false

/-! # Dates in a text

`parse_dates` finds dates in numbers and dates with a month in letters. A date in numbers whose year
comes last can be read with the day or with the month first; the locale says which one is meant, and
the other reading is kept as the alternate when both are dates. -/

namespace Zemo.Knowledge

open Texts
open Semantic (SemanticFieldType SemanticValue)

/-! ## Inputs and evidence -/

/-- What an analysis is given, as far as fields and evidence show it. -/
structure SemanticInput where
  filename : Text
  extractorType : Option Text
  pageCount : Option Nat
  ocrUsed : Bool
  languageHint : Option Text
  localeHint : Option Text

/-- `LineMatch`. -/
structure LineMatch where
  start : Nat
  end_ : Nat
  text : Text
deriving DecidableEq

/-- `text_evidence`. -/
def textEvidence (input : SemanticInput) (found : LineMatch) (explanation : String)
    (evidenceType : EvidenceType) : SemanticEvidence where
  evidenceType := if input.ocrUsed then .ocrText else evidenceType
  exactText := truncateChars found.text 500
  startOffset := some found.start
  endOffset := some found.end_
  pageNumber := if input.pageCount = some 1 then some 1 else none
  sheetName := none
  slideNumber := none
  sourceLabel := input.filename
  explanation := explanation.toList
  extractionMethod := input.extractorType.getD "existing_metadata".toList
  analyzerVersion := analyzerVersion

/-- `located_evidence`. -/
def locatedEvidence (input : SemanticInput) (located : LocatedValue) (explanation : String)
    (evidenceType : EvidenceType) : SemanticEvidence :=
  textEvidence input ⟨located.start, located.end_, located.value⟩ explanation evidenceType

/-- `adjust_for_quality`, by the score of the quality. -/
def adjustForQuality (base : Rat) (quality : ConfidenceScore) : Rat :=
  max 0 (min 1 (base * (1 / 2 + 1 / 2 * quality.value)))

/-! ## The calendar -/

/-- `valid_date`. -/
def validDate (year month day : Nat) : Bool :=
  if ¬(1900 ≤ year ∧ year ≤ 2200) ∨ ¬(1 ≤ month ∧ month ≤ 12) then false
  else
    let leap := year % 4 = 0 ∧ (¬year % 100 = 0 ∨ year % 400 = 0)
    let maximum :=
      match month with
      | 2 => if leap then 29 else 28
      | 4 | 6 | 9 | 11 => 30
      | _ => 31
    1 ≤ day ∧ day ≤ maximum

/-- A number with zeros up to a width. -/
def padded (width n : Nat) : Text :=
  let digits := Nat.toDigits 10 n
  List.replicate (width - digits.length) '0' ++ digits

/-- `iso_date`. -/
def isoDate (year month day : Nat) : Text :=
  padded 4 year ++ '-' :: (padded 2 month ++ '-' :: padded 2 day)

/-- `month_number`. -/
def monthNumber (toLowercase : Text → Text) (value : Text) : Option Nat :=
  match String.ofList ((toLowercase value).rdropWhile (· = '.')) with
  | "janvier" | "january" | "jan" => some 1
  | "février" | "fevrier" | "february" | "feb" => some 2
  | "mars" | "march" | "mar" => some 3
  | "avril" | "april" | "apr" => some 4
  | "mai" | "may" => some 5
  | "juin" | "june" | "jun" => some 6
  | "juillet" | "july" | "jul" => some 7
  | "août" | "aout" | "august" | "aug" => some 8
  | "septembre" | "september" | "sep" | "sept" => some 9
  | "octobre" | "october" | "oct" => some 10
  | "novembre" | "november" | "nov" => some 11
  | "décembre" | "decembre" | "december" | "dec" => some 12
  | _ => none

/-! ## The patterns -/

/-- A match of `NUMERIC_DATE_REGEX`: the source before it, and its three numbers with the separators
between them. -/
structure NumericDate where
  front : Text
  first : Text
  separator : Char
  second : Text
  separator' : Char
  third : Text
deriving DecidableEq

/-- The match. -/
def NumericDate.full (date : NumericDate) : Text :=
  date.first ++ date.separator :: (date.second ++ date.separator' :: date.third)

/-- A match of a pattern of dates with a month in letters. -/
structure TextDate where
  front : Text
  full : Text
  day : Text
  month : Text
  year : Text

/-- What Unicode says of characters: which ones make up words, which ones are the same up to case,
and `to_lowercase`. -/
structure DatePatterns where
  isWord : Char → Bool
  fold : Char → Char
  toLowercase : Text → Text

/-- The separators of a date in numbers. -/
def isDateSeparator (c : Char) : Bool := c = '/' || c = '-'

/-- The characters of a kind at the start of a text, when there is one. -/
def takeRun (p : Char → Bool) (text : Text) : Option (Text × Text) :=
  let run := text.takeWhile p
  if run = [] then none else some (run, text.drop run.length)

/-- The digits at the start of a text, when there are one to `maximum` of them. -/
def digitGroup (maximum : Nat) (text : Text) : Option (Text × Text) :=
  (takeRun Char.isDigit text).filter fun group => group.1.length ≤ maximum

/-- The match of `NUMERIC_DATE_REGEX` at a place: a run of digits that is not part of a word, twice a
separator and a run, and no word goes on behind. -/
def numericDateAt (isWord : Char → Bool) (front text : Text) : Option NumericDate :=
  if front.getLast?.any isWord then none
  else do
    let (first, behind) ← digitGroup 4 text
    let separator ← behind.head?.filter isDateSeparator
    let (second, behind) ← digitGroup 2 behind.tail
    let separator' ← behind.head?.filter isDateSeparator
    let (third, behind) ← digitGroup 4 behind.tail
    if behind.head?.any isWord then none
    else some { front, first, separator, second, separator', third }

/-- The months of `TEXT_DATE_REGEX` that are written out. -/
def monthWords : List String :=
  ["janvier", "january", "février", "fevrier", "february", "mars", "march", "avril", "april", "mai",
    "may", "juin", "june", "juillet", "july", "août", "aout", "august", "septembre", "september",
    "octobre", "october", "novembre", "november", "décembre", "decembre", "december"]

/-- The months of `ENGLISH_TEXT_DATE_REGEX` that are written out. -/
def englishMonthWords : List String :=
  ["january", "february", "march", "april", "may", "june", "july", "august", "september", "october",
    "november", "december"]

/-- The short months, which a dot may follow. -/
def shortMonths : List String :=
  ["jan", "feb", "mar", "apr", "jun", "jul", "aug", "sep", "sept", "oct", "nov", "dec"]

/-- The month at the start of a text, in either case; white space must follow it, so that it is all
that comes before the white space. -/
def monthGroup (fold : Char → Char) (written : List String) (text : Text) :
    Option (Text × Text) :=
  (takeRun (fun c => !isWhiteSpace c) text).filter fun group =>
    (written ++ shortMonths ++ shortMonths.map (· ++ ".")).any fun month =>
      group.1.map fold = month.toList.map fold

/-- The ending of a day in English, in either case, and a comma. -/
def dayEnding (fold : Char → Char) (text : Text) : Text :=
  let ordinal := if ["st", "nd", "rd", "th"].any fun ending =>
    (text.take 2).map fold = ending.toList.map fold then text.take 2 else []
  ordinal ++ ((text.drop ordinal.length).take 1).filter (· = ',')

/-- The four digits of a year. -/
def yearGroup (text : Text) : Option (Text × Text) :=
  (takeRun Char.isDigit text).filter fun group => group.1.length = 4

/-- The match of `TEXT_DATE_REGEX` at a place. -/
def textDateAt (patterns : DatePatterns) (front text : Text) : Option TextDate :=
  if front.getLast?.any patterns.isWord then none
  else do
    let (day, behind) ← digitGroup 2 text
    let (space, behind) ← takeRun isWhiteSpace behind
    let (month, behind) ← monthGroup patterns.fold monthWords behind
    let (space', behind) ← takeRun isWhiteSpace behind
    let (year, behind) ← yearGroup behind
    if behind.head?.any patterns.isWord then none
    else some { front, full := day ++ (space ++ (month ++ (space' ++ year))), day, month, year }

/-- The match of `ENGLISH_TEXT_DATE_REGEX` at a place. -/
def englishTextDateAt (patterns : DatePatterns) (front text : Text) : Option TextDate :=
  if front.getLast?.any patterns.isWord then none
  else do
    let (month, behind) ← monthGroup patterns.fold englishMonthWords text
    let (space, behind) ← takeRun isWhiteSpace behind
    let (day, behind) ← digitGroup 2 behind
    let ending := dayEnding patterns.fold behind
    let (space', behind) ← takeRun isWhiteSpace (behind.drop ending.length)
    let (year, behind) ← yearGroup behind
    if behind.head?.any patterns.isWord then none
    else some { front, day, month, year,
                full := month ++ (space ++ (day ++ (ending ++ (space' ++ year)))) }

/-- `captures_iter`: the matches from left to right; `skip` characters belong to the last one. -/
def captures {α : Type} (matchAt : Text → Text → Option α) (full : α → Text) :
    Text → Nat → Text → List α
  | _, _, [] => []
  | front, skip + 1, c :: rest => captures matchAt full (front ++ [c]) skip rest
  | front, 0, c :: rest =>
      match matchAt front (c :: rest) with
      | some found => found :: captures matchAt full (front ++ [c]) ((full found).length - 1) rest
      | none => captures matchAt full (front ++ [c]) 0 rest

/-- The matches of `NUMERIC_DATE_REGEX`. -/
def numericDates (isWord : Char → Bool) (source : Text) : List NumericDate :=
  captures (numericDateAt isWord) NumericDate.full [] 0 source

/-- The matches of `TEXT_DATE_REGEX`. -/
def textDates (patterns : DatePatterns) (source : Text) : List TextDate :=
  captures (textDateAt patterns) TextDate.full [] 0 source

/-- The matches of `ENGLISH_TEXT_DATE_REGEX`. -/
def englishTextDates (patterns : DatePatterns) (source : Text) : List TextDate :=
  captures (englishTextDateAt patterns) TextDate.full [] 0 source

/-! ## The dates -/

structure ParsedDate where
  located : LocatedValue
  normalized : Text
  alternate : Option Text
  confidence : Rat
deriving DecidableEq

/-- Whether a hint says French. -/
def isFrench (hint : Option Text) : Bool :=
  hint.any fun value => "fr".toList <+: value.map Char.toLower

/-- `french_locale`. -/
def frenchLocale (input : SemanticInput) : Bool :=
  isFrench input.localeHint || isFrench input.languageHint

/-- The year, month and day of a date in numbers, its alternate and its confidence. -/
def NumericDate.reading (french : Bool) (date : NumericDate) :
    Option ((Nat × Nat × Nat) × Option Text × Rat) :=
  let a := Numerals.value date.first
  let b := Numerals.value date.second
  let c := Numerals.value date.third
  if date.first.length = 4 then some ((a, b, c), none, 99 / 100)
  else if date.third.length = 4 then
    if 12 < a then some ((c, b, a), none, 98 / 100)
    else if 12 < b then some ((c, a, b), none, 95 / 100)
    else
      let primary := if french then (c, b, a) else (c, a, b)
      let alternate := if french then (c, a, b) else (c, b, a)
      some (primary,
        if validDate alternate.1 alternate.2.1 alternate.2.2 then
          some (isoDate alternate.1 alternate.2.1 alternate.2.2)
        else none,
        72 / 100)
  else none

/-- A date in numbers. -/
def NumericDate.parsed (french : Bool) (quality : ConfidenceScore) (date : NumericDate) :
    Option ParsedDate :=
  match date.reading french with
  | none => none
  | some ((year, month, day), alternate, base) =>
      if validDate year month day then
        some
          { located := .fromMatch date.full (byteLength date.front)
            normalized := isoDate year month day
            alternate
            confidence := adjustForQuality base quality }
      else none

/-- `parse::<u32>`, of digits. -/
def parseDatePart (digits : Text) : Option Nat :=
  (Search.Interpretation.parseDigits (2 ^ 32 - 1) digits).map Int.toNat

/-- A date with its month in letters. -/
def TextDate.parsed (toLowercase : Text → Text) (quality : ConfidenceScore) (date : TextDate) :
    Option ParsedDate := do
  let day ← parseDatePart date.day
  let month ← monthNumber toLowercase date.month
  let year ← parseDatePart date.year
  if validDate year month day then
    some
      { located := .fromMatch date.full (byteLength date.front)
        normalized := isoDate year month day
        alternate := none
        confidence := adjustForQuality (98 / 100) quality }
  else none

section Parse

variable (patterns : DatePatterns) (input : SemanticInput) (quality : ConfidenceScore)

/-- `parse_dates`. -/
def parseDates (source : Text) : List ParsedDate :=
  ((numericDates patterns.isWord source).take 32).filterMap
      (NumericDate.parsed (frenchLocale input) quality)
    ++ ((textDates patterns source).take 24).filterMap
      (TextDate.parsed patterns.toLowercase quality)
    ++ ((englishTextDates patterns source).take 24).filterMap
      (TextDate.parsed patterns.toLowercase quality)

/-- The status of a date among the entities. -/
def ParsedDate.entityStatus (date : ParsedDate) : FieldStatus :=
  if date.alternate.isSome then .ambiguous
  else if 85 / 100 ≤ date.confidence then .confirmed
  else .inferred

/-- A candidate for a date. -/
def dateCandidate (located : LocatedValue) (isoDate : Text) (confidence : Rat)
    (explanation : String) (sourceMethod : SourceMethod) (ambiguous : Bool) :
    Except KnowledgeError SemanticCandidate := do
  let confidence ← ConfidenceScore.new confidence
  return {
    value := .date (String.ofList isoDate)
    originalValue := located.value
    confidence
    evidence := [locatedEvidence input located explanation .parserMatch]
    sourceMethod
    ambiguous }

/-- The candidates of a date and of its alternate. -/
def dateCandidates (located : LocatedValue) (date : ParsedDate) (confidence confidence' : Rat)
    (explanation explanation' : String) (sourceMethod : SourceMethod) :
    Except KnowledgeError (List SemanticCandidate) := do
  let first ← dateCandidate input located date.normalized confidence explanation sourceMethod
    date.alternate.isSome
  let others ← date.alternate.toList.mapM fun alternate =>
    dateCandidate input located alternate confidence' explanation' sourceMethod true
  return first :: others

/-- The candidates of `append_first_document_date`. -/
def firstDateCandidates (date : ParsedDate) : Except KnowledgeError (List SemanticCandidate) :=
  dateCandidates input date.located date (max 0 (min 1 (date.confidence * (88 / 100))))
    (max 0 (min 1 (date.confidence * (86 / 100))))
    "first document date near a recognized business-document header"
    "alternate locale interpretation of a document date" .deterministicRule

/-- The place of a value that was found in a labelled value. -/
def LocatedValue.shifted (labeled located : LocatedValue) : LocatedValue where
  value := located.value
  start := labeled.start + located.start
  end_ := labeled.start + located.end_

/-- The candidates of `append_date_field`. -/
def labeledDateCandidates (labeled : List LocatedValue) :
    Except KnowledgeError (List SemanticCandidate) := do
  let found := labeled.flatMap fun value =>
    (parseDates patterns input quality value.value).map fun date => (value, date)
  let candidates ← found.mapM fun entry =>
    dateCandidates input (entry.1.shifted entry.2.located) entry.2 entry.2.confidence
      (max 0 (entry.2.confidence - 2 / 100)) "date found under an explicit semantic label"
      "alternate locale interpretation of an ambiguous numeric date" .structuredParser
  return candidates.flatten

/-- `append_first_document_date`, by the field it appends. -/
def firstDocumentDate (text : Text) (fields : List SemanticField) :
    Except KnowledgeError (Option SemanticField) :=
  if fields.any fun field => field.fieldType = .issueDate then .ok none
  else
    match parseDates patterns input quality text with
    | [] => .ok none
    | date :: _ => do
      let candidates ← firstDateCandidates input date
      some <$> resolveField patterns.toLowercase .default .issueDate candidates

/-- `append_date_field` on the labelled values, by the field it appends. -/
def dateField (fieldType : SemanticFieldType) (labeled : List LocatedValue) :
    Except KnowledgeError (Option SemanticField) := do
  let candidates ← labeledDateCandidates patterns input quality labeled
  if candidates = [] then return none
  else some <$> resolveField patterns.toLowercase .default fieldType candidates

end Parse

/-! ## Calendar dates -/

def IsLeapYear (year : Nat) : Prop := (4 ∣ year ∧ ¬100 ∣ year) ∨ 400 ∣ year

instance (year : Nat) : Decidable (IsLeapYear year) := inferInstanceAs (Decidable (_ ∨ _))

/-- The days of the months of a year. -/
def monthLengths (year : Nat) : List Nat :=
  [31, if IsLeapYear year then 29 else 28, 31, 30, 31, 30, 31, 31, 30, 31, 30, 31]

/-- A day of the calendar. -/
def IsCalendarDate (year month day : Nat) : Prop :=
  1 ≤ month ∧ 1 ≤ day ∧ ∃ length ∈ (monthLengths year)[month - 1]?, day ≤ length

/-- Four, two and two digits. -/
def IsIsoForm (text : Text) : Prop :=
  ∃ year month day : Text, text = year ++ '-' :: (month ++ '-' :: day)
    ∧ (year.length = 4 ∧ month.length = 2 ∧ day.length = 2)
    ∧ ∀ c ∈ year ++ month ++ day, c.isDigit = true

/-- The dates that are taken are those of the calendar, from 1900 to 2200. -/
theorem validDate_iff (year month day : Nat) :
    validDate year month day = true ↔
      (1900 ≤ year ∧ year ≤ 2200) ∧ IsCalendarDate year month day := by
  have hleap : (year % 4 = 0 ∧ (¬year % 100 = 0 ∨ year % 400 = 0)) ↔ IsLeapYear year := by
    unfold IsLeapYear
    omega
  unfold validDate IsCalendarDate
  dsimp only
  by_cases hyear : 1900 ≤ year ∧ year ≤ 2200
  swap
  · rw [if_pos (.inl hyear)]
    exact ⟨fun h => (nomatch h), fun h => absurd h.1 hyear⟩
  by_cases hmonth : 1 ≤ month ∧ month ≤ 12
  swap
  · rw [if_pos (.inr hmonth)]
    refine ⟨fun h => (nomatch h), fun h => absurd ⟨h.2.1, ?_⟩ hmonth⟩
    obtain ⟨-, -, -, length, hlength, -⟩ := h
    have hlt := (List.getElem?_eq_some_iff.1 hlength).1
    have htwelve : (monthLengths year).length = 12 := rfl
    omega
  rw [if_neg (by rintro (h | h); exacts [h hyear, h hmonth])]
  obtain ⟨hone, htwelve⟩ := hmonth
  simp only [hyear, hone, true_and, hleap]
  unfold monthLengths
  by_cases hyearLeap : IsLeapYear year <;> simp only [hyearLeap, if_true, if_false] <;>
    interval_cases month <;> simp

theorem month_le_of_validDate {year month day : Nat} (h : validDate year month day = true) :
    month ≤ 12 := by
  obtain ⟨-, -, -, length, hlength, -⟩ := (validDate_iff ..).1 h
  have hlt := (List.getElem?_eq_some_iff.1 hlength).1
  have htwelve : (monthLengths year).length = 12 := rfl
  omega

theorem padded_length {width n : Nat} (hwidth : 0 < width) (h : n < 10 ^ width) :
    (padded width n).length = width := by
  have hle := (Nat.length_toDigits_le_iff (by decide) hwidth).2 h
  unfold padded
  dsimp only
  rw [List.length_append, List.length_replicate]
  omega

theorem isDigit_of_mem_padded {width n : Nat} {c : Char} (h : c ∈ padded width n) :
    c.isDigit = true := by
  rcases List.mem_append.1 h with h | h
  · rw [List.eq_of_mem_replicate h]
    rfl
  · exact Nat.isDigit_of_mem_toDigits (by decide) (by decide) h

theorem value_padded (width n : Nat) : Numerals.value (padded width n) = n := by
  have hzeros : Numerals.value (List.replicate (width - (Nat.toDigits 10 n).length) '0') = 0 :=
    (Numerals.value_eq_zero_iff fun c hc => by rw [List.eq_of_mem_replicate hc]; rfl).2
      fun c hc => List.eq_of_mem_replicate hc
  unfold padded
  dsimp only
  rw [Numerals.value_append, hzeros, Nat.zero_mul, Nat.zero_add]
  exact Nat.ofDigitChars_ten_toDigits

theorem date_bounds {year month day : Nat} (h : validDate year month day = true) :
    year < 10 ^ 4 ∧ month < 10 ^ 2 ∧ day < 10 ^ 2 := by
  obtain ⟨⟨-, hyear⟩, -, -, length, hlength, hday⟩ := (validDate_iff year month day).1 h
  have hmonth := (List.getElem?_eq_some_iff.1 hlength).1
  have hlengths : ∀ length ∈ monthLengths year, length ≤ 31 := by
    unfold monthLengths
    split <;> decide
  have hle := hlengths length (List.mem_of_getElem? hlength)
  have htwelve : (monthLengths year).length = 12 := rfl
  omega

theorem isIsoForm_isoDate {year month day : Nat} (h : validDate year month day = true) :
    IsIsoForm (isoDate year month day) := by
  obtain ⟨hyear, hmonth, hday⟩ := date_bounds h
  refine ⟨_, _, _, rfl, ⟨padded_length (by decide) hyear, padded_length (by decide) hmonth,
    padded_length (by decide) hday⟩, ?_⟩
  rw [List.forall_mem_append, List.forall_mem_append]
  exact ⟨⟨fun _ => isDigit_of_mem_padded, fun _ => isDigit_of_mem_padded⟩,
    fun _ => isDigit_of_mem_padded⟩

/-! ## Dates in numbers -/

/-- The ways a date in numbers can be read: the year first, or last behind the day and month or the
month and day. -/
def NumericDate.Reads (date : NumericDate) (year month day : Nat) : Prop :=
  if date.first.length = 4 then
    (year, month, day)
      = (Numerals.value date.first, Numerals.value date.second, Numerals.value date.third)
  else date.third.length = 4 ∧ year = Numerals.value date.third
    ∧ ((month, day) = (Numerals.value date.second, Numerals.value date.first)
      ∨ (month, day) = (Numerals.value date.first, Numerals.value date.second))

/-- The year is last. -/
def NumericDate.YearLast (date : NumericDate) : Prop :=
  ¬date.first.length = 4 ∧ date.third.length = 4

/-- The cases of the reading of a date in numbers. -/
theorem NumericDate.reading_cases {french : Bool} {date : NumericDate} {year month day : Nat}
    {alternate : Option Text} {base : Rat}
    (h : date.reading french = some ((year, month, day), alternate, base)) :
    (date.first.length = 4 ∧ (year, month, day)
        = (Numerals.value date.first, Numerals.value date.second, Numerals.value date.third)
      ∧ alternate = none)
    ∨ date.YearLast ∧ year = Numerals.value date.third
      ∧ ((month, day) = (Numerals.value date.second, Numerals.value date.first)
        ∨ (month, day) = (Numerals.value date.first, Numerals.value date.second))
      ∧ (12 < day ∧ alternate = none
        ∨ alternate = if validDate year day month then some (isoDate year day month) else none) := by
  unfold NumericDate.reading at h
  dsimp only at h
  by_cases hfirst : date.first.length = 4
  · rw [if_pos hfirst, Option.some_inj] at h
    obtain ⟨hdate, halternate, -⟩ := by simpa only [Prod.mk.injEq] using h
    exact .inl ⟨hfirst, by simp [hdate], halternate.symm⟩
  rw [if_neg hfirst] at h
  by_cases hthird : date.third.length = 4
  swap
  · rw [if_neg hthird] at h
    cases h
  rw [if_pos hthird] at h
  refine .inr ⟨⟨hfirst, hthird⟩, ?_⟩
  by_cases ha : 12 < Numerals.value date.first
  · rw [if_pos ha, Option.some_inj] at h
    obtain ⟨⟨rfl, rfl, rfl⟩, rfl, -⟩ := by simpa only [Prod.mk.injEq] using h
    exact ⟨rfl, .inl rfl, .inl ⟨ha, rfl⟩⟩
  rw [if_neg ha] at h
  by_cases hb : 12 < Numerals.value date.second
  · rw [if_pos hb, Option.some_inj] at h
    obtain ⟨⟨rfl, rfl, rfl⟩, rfl, -⟩ := by simpa only [Prod.mk.injEq] using h
    exact ⟨rfl, .inr rfl, .inl ⟨hb, rfl⟩⟩
  rw [if_neg hb, Option.some_inj] at h
  cases french
  · obtain ⟨⟨rfl, rfl, rfl⟩, rfl, -⟩ := by simpa only [Prod.mk.injEq] using h
    exact ⟨rfl, .inr rfl, .inr rfl⟩
  · obtain ⟨⟨rfl, rfl, rfl⟩, rfl, -⟩ := by simpa only [Prod.mk.injEq] using h
    exact ⟨rfl, .inl rfl, .inr rfl⟩

/-- **What a date in numbers is read as**: one of its readings that is a date; the other one is the
alternate when the year is last and it is a date as well. -/
theorem NumericDate.parsed_spec {french : Bool} {quality : ConfidenceScore} {date : NumericDate}
    {parsed : ParsedDate} (h : date.parsed french quality = some parsed) :
    parsed.located = .fromMatch date.full (byteLength date.front)
      ∧ ∃ year month day, date.Reads year month day ∧ validDate year month day = true
        ∧ parsed.normalized = isoDate year month day
        ∧ (date.first.length = 4 → parsed.alternate = none)
        ∧ (date.YearLast → parsed.alternate
            = if validDate year day month then some (isoDate year day month) else none) := by
  unfold NumericDate.parsed at h
  split at h
  · cases h
  next year month day alternate base hreading =>
  split at h
  swap
  · cases h
  next hvalid =>
  obtain rfl := Option.some.inj h
  refine ⟨rfl, year, month, day, ?_⟩
  unfold NumericDate.Reads
  rcases NumericDate.reading_cases hreading with
    ⟨hfirst, hdate, halternate⟩ | ⟨hlast, hyear, hdate, halternate⟩
  · rw [if_pos hfirst]
    exact ⟨hdate, hvalid, rfl, fun _ => halternate, fun hlast => absurd hfirst hlast.1⟩
  · rw [if_neg hlast.1]
    refine ⟨⟨hlast.2, hyear, hdate⟩, hvalid, rfl, fun hfirst => absurd hfirst hlast.1, fun _ => ?_⟩
    rcases halternate with ⟨hday, halternate⟩ | halternate
    · -- there is no such month
      have hinvalid : validDate year day month = false :=
        Bool.eq_false_iff.2 fun hvalid => absurd (month_le_of_validDate hvalid) (by omega)
      rw [hinvalid, if_neg Bool.noConfusion]
      exact halternate
    · exact halternate

/-! ## Where a date is found -/

theorem takeRun_eq_some {p : Char → Bool} {text run behind : Text}
    (h : takeRun p text = some (run, behind)) :
    text = run ++ behind ∧ run ≠ [] ∧ ∀ c ∈ run, p c = true := by
  unfold takeRun at h
  dsimp only at h
  split at h
  · cases h
  next hne =>
  obtain ⟨rfl, rfl⟩ := by simpa only [Option.some.injEq, Prod.mk.injEq] using h
  exact ⟨(List.prefix_iff_eq_append.1 (List.takeWhile_prefix _)).symm, hne,
    fun c hc => List.mem_takeWhile_imp hc⟩

theorem digitGroup_eq_some {maximum : Nat} {text run behind : Text}
    (h : digitGroup maximum text = some (run, behind)) :
    text = run ++ behind ∧ run ≠ [] ∧ run.length ≤ maximum ∧ ∀ c ∈ run, c.isDigit = true := by
  obtain ⟨hrun, hle⟩ := Option.filter_eq_some_iff.1 h
  obtain ⟨htext, hne, hdigits⟩ := takeRun_eq_some hrun
  exact ⟨htext, hne, of_decide_eq_true hle, hdigits⟩

/-- The form of a date in numbers. -/
structure NumericDate.InForm (date : NumericDate) : Prop where
  first : date.first ≠ [] ∧ date.first.length ≤ 4 ∧ ∀ c ∈ date.first, c.isDigit = true
  second : date.second ≠ [] ∧ date.second.length ≤ 2 ∧ ∀ c ∈ date.second, c.isDigit = true
  third : date.third ≠ [] ∧ date.third.length ≤ 4 ∧ ∀ c ∈ date.third, c.isDigit = true
  separators : isDateSeparator date.separator = true ∧ isDateSeparator date.separator' = true

/-- A match is at its place, in the form of the pattern. -/
theorem numericDateAt_spec {isWord : Char → Bool} {front text : Text} {date : NumericDate}
    (h : numericDateAt isWord front text = some date) :
    date.front = front ∧ date.full <+: text ∧ date.InForm := by
  have hseparator : ∀ {behind : Text} {c : Char}, behind.head?.filter isDateSeparator = some c →
      behind = c :: behind.tail ∧ isDateSeparator c = true := by
    intro behind c hc
    obtain ⟨hhead, hseparator⟩ := Option.filter_eq_some_iff.1 hc
    obtain ⟨tail, rfl⟩ := List.head?_eq_some_iff.1 hhead
    exact ⟨rfl, hseparator⟩
  unfold numericDateAt at h
  split at h
  · cases h
  obtain ⟨⟨first, behind⟩, hfirst, h⟩ := Option.bind_eq_some_iff.1 h
  obtain ⟨separator, hseparator₁, h⟩ := Option.bind_eq_some_iff.1 h
  obtain ⟨⟨second, behind'⟩, hsecond, h⟩ := Option.bind_eq_some_iff.1 h
  obtain ⟨separator', hseparator₂, h⟩ := Option.bind_eq_some_iff.1 h
  obtain ⟨⟨third, behind''⟩, hthird, h⟩ := Option.bind_eq_some_iff.1 h
  dsimp only at h hseparator₁ hseparator₂ hsecond hthird
  split at h
  · cases h
  obtain rfl := Option.some.inj h
  obtain ⟨htext, hfirst⟩ := digitGroup_eq_some hfirst
  obtain ⟨hbehind, hsep⟩ := hseparator hseparator₁
  obtain ⟨htail, hsecond⟩ := digitGroup_eq_some hsecond
  obtain ⟨hbehind', hsep'⟩ := hseparator hseparator₂
  obtain ⟨htail', hthird⟩ := digitGroup_eq_some hthird
  refine ⟨rfl, ⟨behind'', ?_⟩, hfirst, hsecond, hthird, hsep, hsep'⟩
  rw [htext, hbehind, htail, hbehind', htail']
  simp [NumericDate.full]

/-- A match was found at a place of the source. -/
theorem mem_captures {α : Type} {matchAt : Text → Text → Option α} {full : α → Text}
    {front text : Text} {skip : Nat} {found : α} (h : found ∈ captures matchAt full front skip text) :
    ∃ front' text', front ++ text = front' ++ text' ∧ matchAt front' text' = some found := by
  induction text generalizing front skip with
  | nil => cases h
  | cons c text ih =>
    have happend : front ++ c :: text = front ++ [c] ++ text := by simp
    cases skip with
    | succ skip =>
      rw [happend]
      exact ih h
    | zero =>
      rw [captures] at h
      split at h
      · next first hfirst =>
        rcases List.mem_cons.1 h with rfl | h
        · exact ⟨front, c :: text, rfl, hfirst⟩
        · rw [happend]
          exact ih h
      · rw [happend]
        exact ih h

theorem captures_skipped {α : Type} {matchAt : Text → Text → Option α} {full : α → Text}
    {front text : Text} {skip : Nat} (h : text.length ≤ skip) :
    captures matchAt full front skip text = [] := by
  induction text generalizing front skip with
  | nil => rfl
  | cons c text ih =>
    cases skip with
    | zero => cases h
    | succ skip => exact ih (Nat.le_of_succ_le_succ h)

/-- A match of all of the source is the only one. -/
theorem captures_full {α : Type} {matchAt : Text → Text → Option α} {full : α → Text} {found : α}
    (hne : full found ≠ []) (h : matchAt [] (full found) = some found) :
    captures matchAt full [] 0 (full found) = [found] := by
  obtain ⟨c, rest, hfull⟩ := List.exists_cons_of_ne_nil hne
  rw [hfull] at h
  have hrest : rest.length ≤ (full found).length - 1 := by simp [hfull]
  rw [hfull, captures, h]
  exact congrArg _ (captures_skipped hrest)

theorem mem_numericDates {isWord : Char → Bool} {source : Text} {date : NumericDate}
    (h : date ∈ numericDates isWord source) :
    (∃ back, source = date.front ++ date.full ++ back) ∧ date.InForm := by
  obtain ⟨front, text, hsource, hfound⟩ := mem_captures h
  obtain ⟨hfront, ⟨back, hback⟩, hform⟩ := numericDateAt_spec hfound
  exact ⟨⟨back, by rw [hfront, List.append_assoc, hback]; exact hsource⟩, hform⟩

/-- The form of a date with its month in letters: its groups are parts of it, with white space in
between. -/
structure TextDate.InForm (date : TextDate) : Prop where
  groups : date.day <:+: date.full ∧ date.month <:+: date.full ∧ date.year <:+: date.full
  spaced : ∃ c ∈ date.full, isWhiteSpace c = true

theorem exists_white_of_takeRun {text run behind : Text}
    (h : takeRun isWhiteSpace text = some (run, behind)) : ∃ c ∈ run, isWhiteSpace c = true := by
  obtain ⟨-, hne, hwhite⟩ := takeRun_eq_some h
  exact ⟨run.head hne, List.head_mem hne, hwhite _ (List.head_mem hne)⟩

theorem textDateAt_spec {patterns : DatePatterns} {front text : Text} {date : TextDate}
    (h : textDateAt patterns front text = some date) :
    date.front = front ∧ date.full <+: text ∧ date.InForm := by
  unfold textDateAt at h
  split at h
  · cases h
  obtain ⟨⟨day, behind₁⟩, hday, h⟩ := Option.bind_eq_some_iff.1 h
  obtain ⟨⟨space, behind₂⟩, hspace, h⟩ := Option.bind_eq_some_iff.1 h
  obtain ⟨⟨month, behind₃⟩, hmonth, h⟩ := Option.bind_eq_some_iff.1 h
  obtain ⟨⟨space', behind₄⟩, hspace', h⟩ := Option.bind_eq_some_iff.1 h
  obtain ⟨⟨year, behind₅⟩, hyear, h⟩ := Option.bind_eq_some_iff.1 h
  dsimp only at h hspace hmonth hspace' hyear
  split at h
  · cases h
  obtain rfl := Option.some.inj h
  obtain ⟨c, hc, hwhite⟩ := exists_white_of_takeRun hspace
  refine ⟨rfl, ⟨behind₅, ?_⟩, ⟨⟨[], _, rfl⟩, ⟨day ++ space, space' ++ year, ?_⟩,
    ⟨day ++ (space ++ (month ++ space')), [], ?_⟩⟩, c, by simp [hc], hwhite⟩
  · rw [(digitGroup_eq_some hday).1, (takeRun_eq_some hspace).1,
      (takeRun_eq_some (Option.filter_eq_some_iff.1 hmonth).1).1, (takeRun_eq_some hspace').1,
      (takeRun_eq_some (Option.filter_eq_some_iff.1 hyear).1).1]
    simp
  · simp
  · simp

theorem dayEnding_isStart (fold : Char → Char) (text : Text) : dayEnding fold text <+: text := by
  have hcomma : ∀ behind : Text, (behind.take 1).filter (· = ',') <+: behind := by
    rintro (_ | ⟨c, behind⟩)
    · exact List.prefix_rfl
    · by_cases hc : c = ',' <;> simp [hc]
  have hjoin : ∀ ordinal : Text, ordinal <+: text →
      ordinal ++ ((text.drop ordinal.length).take 1).filter (· = ',') <+: text := by
    intro ordinal hordinal
    conv_rhs => rw [← List.prefix_iff_eq_append.1 hordinal]
    exact (List.prefix_append_right_inj _).2 (hcomma _)
  unfold dayEnding
  dsimp only
  split
  · exact hjoin _ (List.take_prefix ..)
  · exact hjoin [] List.nil_prefix

theorem englishTextDateAt_spec {patterns : DatePatterns} {front text : Text} {date : TextDate}
    (h : englishTextDateAt patterns front text = some date) :
    date.front = front ∧ date.full <+: text ∧ date.InForm := by
  unfold englishTextDateAt at h
  split at h
  · cases h
  obtain ⟨⟨month, behind₁⟩, hmonth, h⟩ := Option.bind_eq_some_iff.1 h
  obtain ⟨⟨space, behind₂⟩, hspace, h⟩ := Option.bind_eq_some_iff.1 h
  obtain ⟨⟨day, behind₃⟩, hday, h⟩ := Option.bind_eq_some_iff.1 h
  obtain ⟨⟨space', behind₄⟩, hspace', h⟩ := Option.bind_eq_some_iff.1 h
  obtain ⟨⟨year, behind₅⟩, hyear, h⟩ := Option.bind_eq_some_iff.1 h
  dsimp only at h hspace hday hspace' hyear
  split at h
  · cases h
  obtain rfl := Option.some.inj h
  obtain ⟨c, hc, hwhite⟩ := exists_white_of_takeRun hspace
  have hending := List.prefix_iff_eq_append.1 (dayEnding_isStart patterns.fold behind₃)
  generalize hgeneral : dayEnding patterns.fold behind₃ = ending at *
  refine ⟨rfl, ⟨behind₅, ?_⟩, ⟨⟨month ++ space, ending ++ (space' ++ year), ?_⟩, ⟨[], _, rfl⟩,
    ⟨month ++ (space ++ (day ++ (ending ++ space'))), [], ?_⟩⟩, c, by simp [hc], hwhite⟩
  · rw [(takeRun_eq_some (Option.filter_eq_some_iff.1 hmonth).1).1, (takeRun_eq_some hspace).1,
      (digitGroup_eq_some hday).1, ← hending, (takeRun_eq_some hspace').1,
      (takeRun_eq_some (Option.filter_eq_some_iff.1 hyear).1).1]
    simp
  · simp
  · simp

/-- A date with its month in letters is at its place. -/
theorem mem_textDates {patterns : DatePatterns} {source : Text} {date : TextDate}
    (h : date ∈ textDates patterns source ++ englishTextDates patterns source) :
    (∃ back, source = date.front ++ date.full ++ back) ∧ date.InForm := by
  rcases List.mem_append.1 h with h | h <;> obtain ⟨front, text, hsource, hfound⟩ := mem_captures h
  · obtain ⟨hfront, ⟨back, hback⟩, hform⟩ := textDateAt_spec hfound
    exact ⟨⟨back, by rw [hfront, List.append_assoc, hback]; exact hsource⟩, hform⟩
  · obtain ⟨hfront, ⟨back, hback⟩, hform⟩ := englishTextDateAt_spec hfound
    exact ⟨⟨back, by rw [hfront, List.append_assoc, hback]; exact hsource⟩, hform⟩

/-! ## Ambiguous dates -/

/-- The value of a confirmed field has no ambiguous candidate. -/
theorem not_ambiguous_of_confirmed {toLowercase : Text → Text} {policy : ConfidencePolicy}
    {fieldType : SemanticFieldType} {candidates : List SemanticCandidate} {field : SemanticField}
    (hresolve : resolveField toLowercase policy fieldType candidates = .ok field)
    (hstatus : field.status = .confirmed) {candidate : SemanticCandidate}
    (hmem : candidate ∈ candidates) (hvalue : field.value = some candidate.value) :
    candidate.ambiguous = false := by
  obtain ⟨first, hprimary, houtcome⟩ :=
    @outcomeOf_eq toLowercase policy _ _ fieldType (List.Perm.refl candidates)
      (List.ne_nil_of_mem hmem)
  rw [outcomeOf, hresolve] at houtcome
  have houtcome := Except.ok.inj houtcome
  have hled := led toLowercase policy candidates candidates first
  rw [← houtcome] at hled
  obtain ⟨hfirst, hambiguous, -⟩ := hled.of_confirmed hstatus
  have hsame : first.value = candidate.value := Option.some.inj (hfirst.symm.trans hvalue)
  have hall := List.any_eq_false.1 hambiguous candidate (Grouping.mem_group.2 ⟨hmem, by
    rw [SemanticCandidate.key, SemanticCandidate.key, hsame]⟩)
  simpa using hall

/-- The two readings of a date, as values. -/
def ParsedDate.Values (date : ParsedDate) (value : SemanticValue) : Prop :=
  value = .date (String.ofList date.normalized)
    ∨ ∃ alternate ∈ date.alternate, value = .date (String.ofList alternate)

theorem dateCandidate_spec {input : SemanticInput} {located : LocatedValue} {iso : Text}
    {confidence : Rat} {explanation : String} {sourceMethod : SourceMethod}
    {ambiguous : Bool} {candidate : SemanticCandidate}
    (h : dateCandidate input located iso confidence explanation sourceMethod ambiguous
      = .ok candidate) :
    candidate.value = .date (String.ofList iso) ∧ candidate.ambiguous = ambiguous
      ∧ candidate.evidence = [locatedEvidence input located explanation .parserMatch] := by
  unfold dateCandidate at h
  obtain ⟨score, -, h⟩ := Checked.bind_eq_ok.1 h
  obtain rfl := Except.ok.inj h
  exact ⟨rfl, rfl, rfl⟩

/-- Both readings of an ambiguous date become ambiguous candidates. -/
theorem dateCandidates_spec {input : SemanticInput} {located : LocatedValue} {date : ParsedDate}
    {confidence confidence' : Rat} {explanation explanation' : String}
    {sourceMethod : SourceMethod} {candidates : List SemanticCandidate}
    (h : dateCandidates input located date confidence confidence' explanation explanation'
      sourceMethod = .ok candidates) :
    (∀ value, date.Values value → ∃ candidate ∈ candidates, candidate.value = value
        ∧ candidate.ambiguous = date.alternate.isSome)
      ∧ ∀ candidate ∈ candidates, ∃ explanation, candidate.evidence
          = [locatedEvidence input located explanation .parserMatch] := by
  unfold dateCandidates at h
  obtain ⟨first, hfirst, h⟩ := Checked.bind_eq_ok.1 h
  obtain ⟨others, hothers, h⟩ := Checked.bind_eq_ok.1 h
  obtain rfl := Except.ok.inj h
  obtain ⟨hvalue, hambiguous, hevidence⟩ := dateCandidate_spec hfirst
  have hpass := Pointwise.mapM_eq_ok.1 hothers
  constructor
  · rintro value (rfl | ⟨alternate, halternate, rfl⟩)
    · exact ⟨first, List.mem_cons_self .., hvalue, hambiguous⟩
    · obtain ⟨other, hother, hcandidate⟩ :=
        Pointwise.exists_of_mem_left hpass (Option.mem_toList.2 halternate)
      obtain ⟨hvalue', hambiguous', -⟩ := dateCandidate_spec hcandidate
      refine ⟨other, List.mem_cons_of_mem _ hother, hvalue', hambiguous'.trans ?_⟩
      rw [Option.mem_def.1 halternate]
      rfl
  · rw [List.forall_mem_cons]
    refine ⟨⟨_, hevidence⟩, fun other hother => ?_⟩
    obtain ⟨alternate, -, hcandidate⟩ := Pointwise.exists_of_mem_right hpass hother
    exact ⟨_, (dateCandidate_spec hcandidate).2.2⟩

/-- A confirmed field has none of the readings of an ambiguous date for its value. -/
def NotConfirmed (field : SemanticField) (date : ParsedDate) : Prop :=
  field.status = .confirmed → date.alternate.isSome = true →
    ∀ value, date.Values value → field.value ≠ some value

theorem map_some_eq_ok {ε α : Type} {x : Except ε α} {a : α} :
    some <$> x = .ok (some a) ↔ x = .ok a := by
  cases x <;> simp [Functor.map, Except.map]

section Fields

variable {patterns : DatePatterns} {input : SemanticInput} {quality : ConfidenceScore}
  {field : SemanticField}

theorem firstDocumentDate_notConfirmed {text : Text} {fields : List SemanticField}
    (h : firstDocumentDate patterns input quality text fields = .ok (some field)) :
    ∀ date ∈ (parseDates patterns input quality text).head?, NotConfirmed field date := by
  intro date hdate hstatus hambiguous value hreading hvalue
  unfold firstDocumentDate at h
  split at h
  · cases h
  split at h
  · cases h
  next first rest hparsed =>
  rw [hparsed] at hdate
  obtain rfl := Option.some.inj hdate
  obtain ⟨candidates, hcandidates, h⟩ := Checked.bind_eq_ok.1 h
  obtain ⟨candidate, hmem, rfl, hflag⟩ := (dateCandidates_spec hcandidates).1 value hreading
  rw [not_ambiguous_of_confirmed (map_some_eq_ok.1 h) hstatus hmem hvalue, hambiguous] at hflag
  cases hflag

theorem dateField_notConfirmed {fieldType : SemanticFieldType} {labeled : List LocatedValue}
    (h : dateField patterns input quality fieldType labeled = .ok (some field)) :
    ∀ value ∈ labeled, ∀ date ∈ parseDates patterns input quality value.value,
      NotConfirmed field date := by
  intro found hfound date hdate hstatus hambiguous value hreading hvalue
  obtain ⟨candidates, hcandidates, h⟩ := Checked.bind_eq_ok.1 h
  split at h
  · cases h
  obtain ⟨groups, hgroups, hok⟩ := Checked.bind_eq_ok.1 hcandidates
  obtain rfl := Except.ok.inj hok
  obtain ⟨group, hgroup, hdates⟩ := Pointwise.exists_of_mem_left (Pointwise.mapM_eq_ok.1 hgroups)
    (List.mem_flatMap.2 ⟨found, hfound, List.mem_map_of_mem hdate⟩)
  obtain ⟨candidate, hmem, rfl, hflag⟩ := (dateCandidates_spec hdates).1 value hreading
  rw [not_ambiguous_of_confirmed (map_some_eq_ok.1 h) hstatus
    (List.mem_flatten.2 ⟨group, hgroup, hmem⟩) hvalue, hambiguous] at hflag
  cases hflag

end Fields

end Zemo.Knowledge
