import Zemo.Knowledge.Corrections
import Zemo.Lib.Places

set_option autoImplicit false

/-! # Where evidence stands

`labeled_values` finds the values behind labels at the starts of lines. It cuts a line at the length
of the label, which it has found in the lower-cased line, and searches the whole line for the value.
The evidence of labels, dates and amounts carries the place of what was found. -/

namespace Zemo.Knowledge

open Texts
open History (Each each_cons_iff each_congr)
open Organizer (trimChars)
open Semantic (SemanticFieldType SemanticValue)

/-! ## Labelled values -/

/-- `to_lowercase`: what each character of a text becomes. -/
structure LowercaseTable where
  images : Text → List Text
  length_images : ∀ text, (images text).length = text.length

def LowercaseTable.lower (table : LowercaseTable) (text : Text) : Text := (table.images text).flatten

/-- The characters that end a line. -/
def isLineEnd (c : Char) : Bool := c = '\r' || c = '\n'

/-- The lines of a source, with their ends. -/
def sourceLines (source : Text) : List Text := splitInclusive (· = '\n') source

/-- The line of a segment. -/
def lineOf (segment : Text) : Text := segment.rdropWhile isLineEnd

/-- A line from its first character that is no white space. -/
def lineText (segment : Text) : Text := (lineOf segment).dropWhile isWhiteSpace

/-- The characters between a label and its value. -/
def isLabelSeparator (c : Char) : Bool := c = ':' || c = '#' || c = '-' || c = '–'

/-- The value behind the first bytes of a line; without a character at that place, slicing the line
fails. -/
def labeledValue (label text : Text) : Option (Option Text) :=
  (sliceTo text (byteLength label)).map fun front =>
    match (text.drop front.length).dropWhile isWhiteSpace with
    | [] => none
    | c :: tail =>
        if isLabelSeparator c then
          let rawValue := trimChars tail
          if rawValue = [] then none else some rawValue
        else none

section Lines

variable (table : LowercaseTable)

/-- The first label of a line with a value behind it. -/
def readLine (text : Text) : List Text → Option (Option (Text × Text))
  | [] => some none
  | label :: labels =>
      if label <+: table.lower text then
        match labeledValue label text with
        | none => none
        | some none => readLine text labels
        | some (some rawValue) => some (some (label, rawValue))
      else readLine text labels

/-- A value behind a label: where its line begins, the line and the label. -/
structure Reading where
  offset : Nat
  leading : Text
  text : Text
  label : Text
  rawValue : Text
deriving DecidableEq

/-- The readings of the lines, up to a limit. -/
def readings (labels : List Text) : Nat → Nat → List Text → Option (List Reading)
  | 0, _, _ => some []
  | _ + 1, _, [] => some []
  | limit + 1, offset, segment :: rest =>
      match readLine table (lineText segment) labels with
      | none => none
      | some none => readings labels (limit + 1) (offset + byteLength segment) rest
      | some (some (label, rawValue)) =>
          (readings labels limit (offset + byteLength segment) rest).map fun others =>
            { offset
              leading := (lineOf segment).takeWhile isWhiteSpace
              text := lineText segment
              label
              rawValue } :: others

/-- The bytes of the line before the value. -/
def Reading.valuePosition (reading : Reading) : Nat :=
  match find reading.rawValue reading.text with
  | some i => byteLength (reading.text.take i)
  | none => byteLength reading.label

/-- The value of a reading, with its place. -/
def Reading.located (reading : Reading) : LocatedValue :=
  let bounded := truncateChars reading.rawValue 256
  let start := reading.offset + byteLength reading.leading + reading.valuePosition
  { value := bounded, start, end_ := start + byteLength bounded }

/-- `labeled_values`; `none` when slicing a line fails. -/
def labeledValues (source : Text) (labels : List Text) (limit : Nat) :
    Option (List LocatedValue) :=
  (readings table labels limit 0 (sourceLines source)).map (·.map Reading.located)

/-- Whether a term is looked for in a line and found there. -/
def termMatches (headerOnly : Bool) (index : Nat) (lowered term : Text) : Bool :=
  (headerOnly = false || index < 12) && (find term lowered).isSome
    && (headerOnly = false || term <+: lowered || lowered = term || index < 4)

/-- `find_terms`, from a line on. -/
def findTermsFrom (terms : List Text) (headerOnly : Bool) :
    Nat → Nat → List Text → Option LineMatch
  | _, _, [] => none
  | index, offset, segment :: rest =>
      let line := lineOf segment
      let trimmed := trimChars line
      if terms.any (termMatches headerOnly index (table.lower trimmed)) ∧ trimmed ≠ [] then
        let start := offset + (byteLength line - byteLength (line.dropWhile isWhiteSpace))
        some ⟨start, start + byteLength trimmed, truncateChars trimmed 500⟩
      else findTermsFrom terms headerOnly (index + 1) (offset + byteLength segment) rest

/-- `find_terms`. -/
def findTerms (source : Text) (terms : List Text) (headerOnly : Bool) : Option LineMatch :=
  findTermsFrom table terms headerOnly 0 0 (sourceLines source)

end Lines

/-! ## Amounts behind labels -/

section Candidates

variable (input : SemanticInput) (quality : ConfidenceScore)

/-- A candidate of `append_money_field`. -/
def moneyCandidate (located : LocatedValue) (parsed : ParsedMoney) :
    Except KnowledgeError SemanticCandidate := do
  let hasCurrency := parsed.currency.isSome
  let confidence ← ConfidenceScore.new
    (adjustForQuality (if hasCurrency then parsed.confidence else 68 / 100) quality)
  return {
    value := .money parsed.amountMinor parsed.scale parsed.currency
    originalValue := located.value
    confidence
    evidence := [locatedEvidence input located
      (if hasCurrency then "money parser match under an explicit amount label"
        else "amount has no evidenced currency") .parserMatch]
    sourceMethod := .structuredParser
    ambiguous := !hasCurrency }

/-- The candidates of `append_money_field`. -/
def labeledMoneyCandidates (labeled : List LocatedValue) :
    Except KnowledgeError (List SemanticCandidate) :=
  (labeled.flatMap fun value =>
      ((parseMoneyValues value.value false).take 2).map fun parsed => (value, parsed)).mapM
    fun entry => moneyCandidate input quality (entry.1.shifted entry.2.located) entry.2

/-- The candidates of `candidates_from_labels`. -/
def labeledTextCandidates (baseConfidence : Rat) (labeled : List LocatedValue) :
    Except KnowledgeError (List SemanticCandidate) :=
  labeled.mapM fun located => do
    let confidence ← ConfidenceScore.new (adjustForQuality baseConfidence quality)
    return {
      value := .text (String.ofList (normalizeEntityValue located.value))
      originalValue := located.value
      confidence
      evidence := [locatedEvidence input located "explicit labeled field" .parserMatch]
      sourceMethod := .structuredParser
      ambiguous := false }

end Candidates

/-! ## Places -/

/-- The part of the source between the offsets of an evidence, trimmed and truncated, is its text. -/
def EvidenceDelimits (source : Text) (maximum : Nat) (evidence : SemanticEvidence) : Prop :=
  ∃ start stop part, evidence.startOffset = some start ∧ evidence.endOffset = some stop
    ∧ slice source start stop = some part
    ∧ evidence.exactText = truncateChars (trimChars part) maximum

/-- The start of a line that consists of a label, in any letter case, and the separator behind it. -/
def BehindLabel (table : LowercaseTable) (label text front : Text) : Prop :=
  front <+: text ∧ ∃ own white separator, front = own ++ white ++ [separator]
    ∧ ((table.images text).take own.length).flatten = label
    ∧ Blank isWhiteSpace white ∧ isLabelSeparator separator = true

/-- The value stands behind the label and its separator … -/
def Reading.AfterLabel (table : LowercaseTable) (reading : Reading) : Prop :=
  ∃ front, BehindLabel table reading.label reading.text front
    ∧ reading.offset + byteLength reading.leading + byteLength front ≤ reading.located.start

/-- … on its line. -/
def Reading.OnLine (source : Text) (reading : Reading) : Prop :=
  (∃ before segment after, sourceLines source = before ++ segment :: after
      ∧ reading.offset = byteLength before.flatten
      ∧ lineOf segment = reading.leading ++ reading.text)
    ∧ reading.located.end_
      ≤ reading.offset + byteLength reading.leading + byteLength reading.text

/-- The places of labelled values, and of the evidence of labels, dates and amounts. -/
structure OffsetsDelimit (table : LowercaseTable) (patterns : DatePatterns) (input : SemanticInput)
    (quality : ConfidenceScore) (source : Text) (labels : List Text) (limit : Nat) : Prop where
  labeled : ∃ found, readings table labels limit 0 (sourceLines source) = some found
    ∧ ∀ reading ∈ found,
      slice source reading.located.start reading.located.end_ = some reading.located.value
        ∧ (reading.AfterLabel table ∧ reading.OnLine source)
        ∧ ∀ explanation evidenceType, EvidenceDelimits source 256
          (locatedEvidence input reading.located explanation evidenceType)
  nested : ∀ values, labeledValues table source labels limit = some values →
    (∀ candidates, labeledDateCandidates patterns input quality values = .ok candidates →
        ∀ candidate ∈ candidates, ∀ evidence ∈ candidate.evidence,
          EvidenceDelimits source 256 evidence)
      ∧ (∀ candidates, labeledMoneyCandidates input quality values = .ok candidates →
        ∀ candidate ∈ candidates, ∀ evidence ∈ candidate.evidence,
          EvidenceDelimits source 256 evidence)
      ∧ ∀ baseConfidence candidates,
        labeledTextCandidates input quality baseConfidence values = .ok candidates →
        ∀ candidate ∈ candidates, ∀ evidence ∈ candidate.evidence,
          EvidenceDelimits source 256 evidence
  found : (∀ date ∈ parseDates patterns input quality source, ∀ explanation evidenceType,
      EvidenceDelimits source 256 (locatedEvidence input date.located explanation evidenceType))
    ∧ (∀ requireCurrency, ∀ money ∈ parseMoneyValues source requireCurrency,
      ∀ explanation evidenceType, EvidenceDelimits source 256
        (locatedEvidence input money.located explanation evidenceType))
    ∧ ∀ terms headerOnly line, findTerms table source terms headerOnly = some line →
      ∀ explanation evidenceType, EvidenceDelimits source 500
        (textEvidence input line explanation evidenceType)

/-! ## The condition -/

/-- A value does not occur in the line before the place behind its label and separator, and it is
not cut behind white space. -/
def InPlace (table : LowercaseTable) (label text rawValue : Text) : Prop :=
  (∃ front, BehindLabel table label text front
      ∧ ∀ before behind, text = before ++ rawValue ++ behind → front.length ≤ before.length)
    ∧ ∀ c ∈ rawValue[255]?, isWhiteSpace c = false

/-- A line begins with a label that has a value behind it. -/
def reads (table : LowercaseTable) (text label : Text) : Bool :=
  label <+: table.lower text && (labeledValue label text).any Option.isSome

/-- A label that a line begins with, behind labels that it is not read with, ends where a character
of the line does, and its value is in its place. -/
def LineInPlace (table : LowercaseTable) (labels : List Text) (text : Text) : Prop :=
  Each (fun before label => (∀ other ∈ before, reads table text other = false) →
    label <+: table.lower text →
      (∃ front, front <+: text ∧ byteLength front = byteLength label)
        ∧ ∀ rawValue, labeledValue label text = some (some rawValue) →
          InPlace table label text rawValue) labels

/-- So it is on every line until as many lines as the limit says have been read. -/
def LabelsInPlace (table : LowercaseTable) (source : Text) (labels : List Text) (limit : Nat) :
    Prop :=
  Each (fun before segment =>
    before.countP (fun line => labels.any (reads table (lineText line))) < limit →
      LineInPlace table labels (lineText segment)) (sourceLines source)

/-! ## Reading a line -/

section Line

variable {table : LowercaseTable} {text label rawValue : Text} {labels : List Text}

theorem labeledValue_eq_none :
    labeledValue label text = none ↔ ¬∃ front, front <+: text ∧ byteLength front = byteLength label := by
  rw [labeledValue, Option.map_eq_none_iff, Option.eq_none_iff_forall_ne_some]
  simp only [ne_eq, sliceTo_eq_some, not_exists]

/-- A value is a part of its line, without white space at its ends. -/
theorem labeledValue_eq_some (h : labeledValue label text = some (some rawValue)) :
    Solid isWhiteSpace rawValue ∧ ∃ before behind, text = before ++ rawValue ++ behind := by
  obtain ⟨front, hfront, h⟩ := Option.map_eq_some_iff.1 h
  obtain ⟨⟨rest, rfl⟩, -⟩ := sliceTo_eq_some.1 hfront
  rw [List.drop_left] at h
  have hrest := List.takeWhile_append_dropWhile (p := isWhiteSpace) (l := rest)
  generalize rest.dropWhile isWhiteSpace = behind at h hrest
  generalize rest.takeWhile isWhiteSpace = white at hrest
  cases behind with
  | nil => cases h
  | cons c tail =>
    dsimp only at h
    split at h
    swap
    · cases h
    split at h
    · cases h
    next hne =>
    obtain rfl := Option.some.inj h
    obtain ⟨left, right, -, -, htail⟩ := exists_trim isWhiteSpace tail
    refine ⟨solid_trim fun hblank => hne (trim_eq_nil_iff.2 hblank),
      front ++ (white ++ c :: left), right, ?_⟩
    rw [← hrest]
    conv_lhs => rw [htail]
    simp [trimChars, trim]

/-- A line that is read has every label that is tried on it in its place. -/
theorem readLine_iff :
    (∃ result, readLine table text labels = some result
        ∧ ∀ found ∈ result, InPlace table found.1 text found.2) ↔ LineInPlace table labels text := by
  unfold LineInPlace
  induction labels with
  | nil => simp [readLine]
  | cons label labels ih =>
    have hskip : reads table text label = false →
        (Each (fun before other =>
            (∀ earlier ∈ label :: before, reads table text earlier = false) →
              other <+: table.lower text →
                (∃ front, front <+: text ∧ byteLength front = byteLength other)
                  ∧ ∀ rawValue, labeledValue other text = some (some rawValue) →
                    InPlace table other text rawValue) labels
          ↔ ∃ result, readLine table text labels = some result
            ∧ ∀ found ∈ result, InPlace table found.1 text found.2) := by
      intro hreads
      refine (each_congr fun before other => ?_).trans ih.symm
      simp [hreads]
    rw [each_cons_iff, readLine]
    by_cases hprefixed : label <+: table.lower text
    swap
    · rw [if_neg hprefixed, hskip (by simp [reads, hprefixed])]
      exact (and_iff_right fun _ h => absurd h hprefixed).symm
    rw [if_pos hprefixed]
    cases hvalue : labeledValue label text with
    | none =>
      refine iff_of_false (by simp) fun h => ?_
      exact labeledValue_eq_none.1 hvalue (h.1 (by simp) hprefixed).1
    | some value =>
      have hcuts : ∃ front, front <+: text ∧ byteLength front = byteLength label := by
        by_contra hcuts
        rw [labeledValue_eq_none.2 hcuts] at hvalue
        cases hvalue
      cases value with
      | none =>
        rw [hskip (by simp [reads, hvalue])]
        exact (and_iff_right fun _ _ => ⟨hcuts, by simp⟩).symm
      | some rawValue =>
        -- the labels behind it are not tried
        have hreads : reads table text label = true := by simp [reads, hprefixed, hvalue]
        constructor
        · rintro ⟨result, hresult, hplace⟩
          obtain rfl := Option.some.inj hresult
          refine ⟨fun _ _ => ⟨hcuts, fun raw hraw => ?_⟩, fun before other rest _ hnone => ?_⟩
          · obtain rfl := Option.some.inj (Option.some.inj hraw)
            exact hplace _ rfl
          · rw [hnone label (List.mem_cons_self ..)] at hreads
            cases hreads
        · rintro ⟨hfirst, -⟩
          refine ⟨_, rfl, fun found hfound => ?_⟩
          obtain rfl := Option.some.inj hfound
          exact (hfirst (by simp) hprefixed).2 rawValue rfl

/-- What a line is read as. -/
theorem readLine_eq_some {result : Option (Text × Text)}
    (h : readLine table text labels = some result) :
    labels.any (reads table text) = result.isSome
      ∧ ∀ found ∈ result, labeledValue found.1 text = some (some found.2) := by
  induction labels with
  | nil =>
    obtain rfl := Option.some.inj h
    exact ⟨rfl, by simp⟩
  | cons label labels ih =>
    rw [readLine] at h
    rw [List.any_cons]
    by_cases hprefixed : label <+: table.lower text
    swap
    · rw [if_neg hprefixed] at h
      have hreads : reads table text label = false := by simp [reads, hprefixed]
      rw [hreads, Bool.false_or]
      exact ih h
    rw [if_pos hprefixed] at h
    cases hvalue : labeledValue label text with
    | none =>
      rw [hvalue] at h
      cases h
    | some value =>
      rw [hvalue] at h
      cases value with
      | none =>
        have hreads : reads table text label = false := by simp [reads, hvalue]
        rw [hreads, Bool.false_or]
        exact ih h
      | some rawValue =>
        obtain rfl := Option.some.inj h
        have hreads : reads table text label = true := by simp [reads, hprefixed, hvalue]
        rw [hreads, Bool.true_or]
        refine ⟨rfl, fun found hfound => ?_⟩
        obtain rfl := Option.some.inj hfound
        exact hvalue

end Line

/-! ## Reading the lines -/

section Lines

variable {table : LowercaseTable} {labels : List Text}

theorem readings_iff (limit offset : Nat) (segments : List Text) :
    (∃ found, readings table labels limit offset segments = some found
        ∧ ∀ reading ∈ found, InPlace table reading.label reading.text reading.rawValue)
      ↔ Each (fun before segment =>
        before.countP (fun line => labels.any (reads table (lineText line))) < limit →
          LineInPlace table labels (lineText segment)) segments := by
  induction segments generalizing limit offset with
  | nil =>
    refine iff_of_true ⟨[], ?_, by simp⟩ History.each_nil
    cases limit <;> rfl
  | cons segment rest ih =>
    cases limit with
    | zero =>
      refine iff_of_true ⟨[], rfl, by simp⟩ fun _ _ _ _ h => ?_
      exact absurd h (Nat.not_lt_zero _)
    | succ limit =>
      rw [each_cons_iff, List.countP_nil, readings]
      -- what the line is read as decides how many more are read
      have hrest : ∀ {more : Nat},
          (if labels.any (reads table (lineText segment)) = true then 1 else 0) + more = limit + 1 →
          (Each (fun before line =>
              (segment :: before).countP (fun line => labels.any (reads table (lineText line)))
                  < limit + 1 → LineInPlace table labels (lineText line)) rest
            ↔ ∃ found, readings table labels more (offset + byteLength segment) rest = some found
              ∧ ∀ reading ∈ found,
                InPlace table reading.label reading.text reading.rawValue) := by
        intro more hmore
        refine (each_congr fun before line => ?_).trans (ih more _).symm
        rw [List.countP_cons, ← hmore, Nat.add_comm]
        simp
      cases hline : readLine table (lineText segment) labels with
      | none =>
        refine iff_of_false (by simp) fun h => ?_
        obtain ⟨result, hresult, -⟩ := readLine_iff.2 (h.1 (Nat.succ_pos _))
        rw [hline] at hresult
        cases hresult
      | some result =>
        obtain ⟨hany, -⟩ := readLine_eq_some hline
        have hfirst : LineInPlace table labels (lineText segment)
            ↔ ∀ found ∈ result, InPlace table found.1 (lineText segment) found.2 := by
          rw [← readLine_iff, hline]
          simp
        cases result with
        | none =>
          rw [hrest (by rw [hany]; simp : _ + (limit + 1) = limit + 1), hfirst]
          simp
        | some found =>
          rw [hrest (by rw [hany]; simp [Nat.add_comm] : _ + limit = limit + 1), hfirst]
          simp only [Option.map_eq_some_iff, Nat.succ_pos, forall_const, Option.mem_def,
            Option.some.injEq, forall_eq']
          constructor
          · rintro ⟨_, ⟨others, hothers, rfl⟩, hplace⟩
            obtain ⟨hhead, htail⟩ := List.forall_mem_cons.1 hplace
            exact ⟨hhead, others, hothers, htail⟩
          · rintro ⟨hhead, others, hothers, htail⟩
            exact ⟨_, ⟨others, hothers, rfl⟩, List.forall_mem_cons.2 ⟨hhead, htail⟩⟩

/-- Where a reading comes from. -/
theorem mem_readings {limit offset : Nat} {segments : List Text} {found : List Reading}
    (h : readings table labels limit offset segments = some found) :
    ∀ reading ∈ found, (∃ before segment after, segments = before ++ segment :: after
        ∧ reading.offset = offset + byteLength before.flatten
        ∧ lineOf segment = reading.leading ++ reading.text)
      ∧ labeledValue reading.label reading.text = some (some reading.rawValue) := by
  induction segments generalizing limit offset found with
  | nil =>
    cases limit <;>
    · obtain rfl := Option.some.inj h
      simp
  | cons segment rest ih =>
    cases limit with
    | zero =>
      obtain rfl := Option.some.inj h
      simp
    | succ limit =>
      have hlater : ∀ {limit : Nat} {found : List Reading},
          readings table labels limit (offset + byteLength segment) rest = some found →
          ∀ reading ∈ found, (∃ before line after, segment :: rest = before ++ line :: after
              ∧ reading.offset = offset + byteLength before.flatten
              ∧ lineOf line = reading.leading ++ reading.text)
            ∧ labeledValue reading.label reading.text = some (some reading.rawValue) := by
        intro limit found hfound reading hreading
        obtain ⟨⟨before, line, after, hsplit, hoffset, hline⟩, hvalue⟩ := ih hfound reading hreading
        refine ⟨⟨segment :: before, line, after, by rw [hsplit]; rfl, ?_, hline⟩, hvalue⟩
        rw [hoffset, List.flatten_cons, byteLength_append, Nat.add_assoc]
      rw [readings] at h
      split at h
      · cases h
      · exact hlater h
      · next label rawValue hread =>
        obtain ⟨others, hothers, rfl⟩ := Option.map_eq_some_iff.1 h
        rw [List.forall_mem_cons]
        refine ⟨⟨⟨[], segment, rest, rfl, rfl, ?_⟩, ?_⟩, hlater hothers⟩
        · exact List.takeWhile_append_dropWhile.symm
        · exact (readLine_eq_some hread).2 _ rfl

end Lines

/-! ## The place of a value -/

section Places

variable {table : LowercaseTable} {input : SemanticInput} {source : Text} {reading : Reading}

/-- The line of a reading in its source. -/
def Reading.Within (source : Text) (reading : Reading) : Prop :=
  (∃ before segment after, sourceLines source = before ++ segment :: after
      ∧ reading.offset = byteLength before.flatten
      ∧ lineOf segment = reading.leading ++ reading.text)
    ∧ labeledValue reading.label reading.text = some (some reading.rawValue)

/-- The value is at its first place in the line. -/
theorem Reading.Within.place (h : reading.Within source) :
    ∃ before behind, reading.text = before ++ reading.rawValue ++ behind
      ∧ reading.located.start
        = reading.offset + byteLength reading.leading + byteLength before
      ∧ ∀ before' behind', reading.text = before' ++ reading.rawValue ++ behind' →
        before.length ≤ before'.length := by
  obtain ⟨-, before, behind, htext⟩ := labeledValue_eq_some h.2
  obtain ⟨i, hi, hle⟩ := find_le htext
  obtain ⟨rest, hrest⟩ := isPrefix_of_find hi
  have hlength : (reading.text.take i).length = i := by
    rw [List.length_take]
    exact Nat.min_eq_left (find_le_length hi)
  refine ⟨reading.text.take i, rest, ?_, ?_, fun before' behind' h' => ?_⟩
  · rw [List.append_assoc, hrest, List.take_append_drop]
  · rw [Reading.located, Reading.valuePosition, hi]
  · obtain ⟨j, hj, hle'⟩ := find_le h'
    rw [hi] at hj
    obtain rfl := Option.some.inj hj
    rw [hlength]
    exact hle'

/-- The source between the offsets of a value is the value, on its line. -/
theorem Reading.Within.slice (h : reading.Within source) :
    Texts.slice source reading.located.start reading.located.end_ = some reading.located.value
      ∧ reading.OnLine source := by
  obtain ⟨before, behind, htext, hstart, -⟩ := h.place
  obtain ⟨⟨lines, segment, after, hlines, hoffset, hline⟩, -⟩ := h
  obtain ⟨lineEnd, hend⟩ : ∃ lineEnd, segment = lineOf segment ++ lineEnd :=
    ⟨_, (List.rdropWhile_append_rtakeWhile (p := isLineEnd) (l := segment)).symm⟩
  have hsource : source = lines.flatten ++ (reading.leading ++ reading.text ++ lineEnd)
      ++ after.flatten := by
    rw [← flatten_splitInclusive (· = '\n') source, ← hline, ← hend]
    change (sourceLines source).flatten = _
    rw [hlines]
    simp
  have hvalue : reading.rawValue = reading.located.value ++ reading.rawValue.drop 256 :=
    (List.take_append_drop ..).symm
  constructor
  · refine slice_eq_some.2 ⟨lines.flatten ++ reading.leading ++ before,
      reading.rawValue.drop 256 ++ behind ++ lineEnd ++ after.flatten, ?_, ?_, ?_⟩
    · rw [hsource, htext]
      conv_lhs => rw [hvalue]
      simp
    · rw [byteLength_append, byteLength_append, ← hoffset, hstart]
    · rw [byteLength_append, byteLength_append, ← hoffset, ← hstart]
      rfl
  · refine ⟨⟨lines, segment, after, hlines, hoffset, hline⟩, ?_⟩
    have hbytes : byteLength reading.text = byteLength before + byteLength reading.located.value
        + byteLength (reading.rawValue.drop 256) + byteLength behind := by
      rw [htext, byteLength_append, byteLength_append]
      conv_lhs => rw [hvalue]
      rw [byteLength_append]
      omega
    have hstop : reading.located.end_
        = reading.located.start + byteLength reading.located.value := rfl
    omega

/-- A value stands behind its label exactly when it does not occur before that place. -/
theorem Reading.Within.afterLabel_iff (h : reading.Within source) :
    reading.AfterLabel table ↔
      ∃ front, BehindLabel table reading.label reading.text front
        ∧ ∀ before behind, reading.text = before ++ reading.rawValue ++ behind →
          front.length ≤ before.length := by
  obtain ⟨before, behind, htext, hstart, hfirst⟩ := h.place
  unfold Reading.AfterLabel
  refine exists_congr fun front => and_congr_right fun hfront => ?_
  have hbytes : byteLength front ≤ byteLength before ↔ front.length ≤ before.length :=
    byteLength_le_iff hfront.1 ⟨reading.rawValue ++ behind, by rw [htext, List.append_assoc]⟩
  rw [hstart]
  constructor
  · intro hle before' behind' h'
    exact (hbytes.1 (by omega)).trans (hfirst before' behind' h')
  · intro hall
    have hle := hbytes.2 (hall before behind htext)
    omega

/-- The evidence of a value is its part of the source unless the value is cut behind white space. -/
theorem Reading.Within.evidence_iff (h : reading.Within source) (explanation : String)
    (evidenceType : EvidenceType) :
    EvidenceDelimits source 256 (locatedEvidence input reading.located explanation evidenceType)
      ↔ ∀ c ∈ reading.rawValue[255]?, isWhiteSpace c = false := by
  have hslice := h.slice.1
  obtain ⟨hsolid, -⟩ := labeledValue_eq_some h.2
  have hshort : (reading.rawValue.take 256).length ≤ 256 := List.length_take_le ..
  have hevidence : EvidenceDelimits source 256
      (locatedEvidence input reading.located explanation evidenceType)
        ↔ trimChars (reading.rawValue.take 256) = reading.rawValue.take 256 := by
    have htext : (locatedEvidence input reading.located explanation evidenceType).exactText
        = reading.rawValue.take 256 := List.take_of_length_le (hshort.trans (by decide))
    have htrim : truncateChars (trimChars (reading.rawValue.take 256)) 256
        = trimChars (reading.rawValue.take 256) :=
      List.take_of_length_le ((length_trim_le ..).trans hshort)
    constructor
    · rintro ⟨start, stop, part, hstart, hstop, hpart, hexact⟩
      obtain rfl := Option.some.inj hstart
      obtain rfl := Option.some.inj hstop
      obtain rfl := Option.some.inj (hslice.symm.trans hpart)
      exact (htrim.symm.trans (hexact.symm.trans htext))
    · intro hsame
      exact ⟨_, _, _, rfl, rfl, hslice, htext.trans (htrim.trans hsame).symm⟩
  rw [hevidence]
  exact trim_take_eq_iff hsolid 255

end Places

/-! ## Nested parsers -/

section Nested

variable {patterns : DatePatterns} {input : SemanticInput} {quality : ConfidenceScore}
  {source : Text} {labeled : LocatedValue}

/-- The evidence of a match. -/
theorem evidence_fromMatch {full : Text} {located : LocatedValue}
    (hvalue : located.value = truncateChars (trimChars full) 256)
    (hplace : slice source located.start located.end_ = some full) (explanation : String)
    (evidenceType : EvidenceType) :
    EvidenceDelimits source 256 (locatedEvidence input located explanation evidenceType) := by
  refine ⟨_, _, full, rfl, rfl, hplace, ?_⟩
  have hshort : located.value.length ≤ 256 := by
    rw [hvalue]
    exact List.length_take_le ..
  rw [← hvalue]
  exact List.take_of_length_le (hshort.trans (by decide))

/-- A date is where it is located. -/
theorem parseDates_slice {date : ParsedDate} (h : date ∈ parseDates patterns input quality source) :
    ∃ full, date.located.value = truncateChars (trimChars full) 256
      ∧ slice source date.located.start date.located.end_ = some full := by
  obtain ⟨front, full, year, month, day, hreport⟩ := parseDates_report h
  obtain ⟨⟨back, hback⟩, hlocated⟩ := hreport.located
  rw [hlocated]
  exact ⟨full, rfl, slice_eq_some.2 ⟨front, back, hback, rfl, rfl⟩⟩

/-- An amount is where it is located. -/
theorem parseMoneyValues_slice {requireCurrency : Bool} {money : ParsedMoney}
    (h : money ∈ parseMoneyValues source requireCurrency) :
    ∃ full, money.located.value = truncateChars (trimChars full) 256
      ∧ slice source money.located.start money.located.end_ = some full := by
  obtain ⟨capture, hcapture, hparsed⟩ := List.mem_filterMap.1 h
  have hparts := moneyCaptures_parts (List.mem_of_mem_take hcapture)
  unfold MoneyCapture.parsed at hparsed
  dsimp only at hparsed
  split at hparsed
  · cases hparsed
  obtain ⟨amountMinor, -, rfl⟩ := Option.map_eq_some_iff.1 hparsed
  exact ⟨capture.full, rfl, slice_eq_some.2 ⟨capture.front, capture.back, hparts, rfl, rfl⟩⟩

/-- What is found in a labelled value is shifted to its place in the source. -/
theorem evidence_shifted (hlabeled : slice source labeled.start labeled.end_ = some labeled.value)
    {located : LocatedValue} {full : Text}
    (hvalue : located.value = truncateChars (trimChars full) 256)
    (hplace : slice labeled.value located.start located.end_ = some full) (explanation : String)
    (evidenceType : EvidenceType) :
    EvidenceDelimits source 256
      (locatedEvidence input (labeled.shifted located) explanation evidenceType) := by
  have hshifted : (labeled.shifted located).value = truncateChars (trimChars full) 256 := hvalue
  exact evidence_fromMatch hshifted (slice_slice hlabeled hplace) explanation evidenceType

theorem labeledDateCandidates_delimit {labeled : List LocatedValue}
    (hlabeled : ∀ value ∈ labeled, slice source value.start value.end_ = some value.value)
    {candidates : List SemanticCandidate}
    (h : labeledDateCandidates patterns input quality labeled = .ok candidates) :
    ∀ candidate ∈ candidates, ∀ evidence ∈ candidate.evidence,
      EvidenceDelimits source 256 evidence := by
  obtain ⟨groups, hgroups, hok⟩ := Checked.bind_eq_ok.1 h
  obtain rfl := Except.ok.inj hok
  intro candidate hcandidate evidence hevidence
  obtain ⟨group, hgroup, hcandidate⟩ := List.mem_flatten.1 hcandidate
  obtain ⟨⟨value, date⟩, hentry, hdates⟩ :=
    Pointwise.exists_of_mem_right (Pointwise.mapM_eq_ok.1 hgroups) hgroup
  obtain ⟨value', hvalue, hentry⟩ := List.mem_flatMap.1 hentry
  obtain ⟨date', hdate, heq⟩ := List.mem_map.1 hentry
  obtain ⟨rfl, rfl⟩ := Prod.mk.inj heq
  obtain ⟨explanation, hexplained⟩ := (dateCandidates_spec hdates).2 candidate hcandidate
  rw [hexplained, List.mem_singleton] at hevidence
  obtain ⟨full, hfull, hplace⟩ := parseDates_slice hdate
  rw [hevidence]
  exact evidence_shifted (hlabeled value' hvalue) hfull hplace _ _

theorem labeledMoneyCandidates_delimit {labeled : List LocatedValue}
    (hlabeled : ∀ value ∈ labeled, slice source value.start value.end_ = some value.value)
    {candidates : List SemanticCandidate}
    (h : labeledMoneyCandidates input quality labeled = .ok candidates) :
    ∀ candidate ∈ candidates, ∀ evidence ∈ candidate.evidence,
      EvidenceDelimits source 256 evidence := by
  intro candidate hcandidate evidence hevidence
  obtain ⟨⟨value, money⟩, hentry, hmoney⟩ :=
    Pointwise.exists_of_mem_right (Pointwise.mapM_eq_ok.1 h) hcandidate
  obtain ⟨value', hvalue, hentry⟩ := List.mem_flatMap.1 hentry
  obtain ⟨money', hparsed, heq⟩ := List.mem_map.1 hentry
  obtain ⟨rfl, rfl⟩ := Prod.mk.inj heq
  obtain ⟨confidence, -, hok⟩ := Checked.bind_eq_ok.1 hmoney
  obtain rfl := Except.ok.inj hok
  rw [List.mem_singleton] at hevidence
  obtain ⟨full, hfull, hplace⟩ := parseMoneyValues_slice (List.mem_of_mem_take hparsed)
  rw [hevidence]
  exact evidence_shifted (hlabeled value' hvalue) hfull hplace _ _

/-- A line that is found is where it is located. -/
theorem findTermsFrom_slice {table : LowercaseTable} {terms : List Text} {headerOnly : Bool}
    {index : Nat} {before segments : List Text} {line : LineMatch}
    (h : findTermsFrom table terms headerOnly index (byteLength before.flatten) segments
      = some line) :
    ∃ part, slice (before ++ segments).flatten line.start line.end_ = some (trimChars part)
      ∧ line.text = truncateChars (trimChars part) 500 := by
  induction segments generalizing index before with
  | nil => cases h
  | cons segment rest ih =>
    rw [findTermsFrom] at h
    dsimp only at h
    split at h
    · obtain rfl := Option.some.inj h
      refine ⟨lineOf segment, ?_, rfl⟩
      have hline : (lineOf segment).takeWhile isWhiteSpace
          ++ (lineOf segment).dropWhile isWhiteSpace = lineOf segment :=
        List.takeWhile_append_dropWhile
      have htrim : trimChars (lineOf segment)
          ++ ((lineOf segment).dropWhile isWhiteSpace).rtakeWhile isWhiteSpace
            = (lineOf segment).dropWhile isWhiteSpace := List.rdropWhile_append_rtakeWhile
      have hend : lineOf segment ++ segment.rtakeWhile isLineEnd = segment :=
        List.rdropWhile_append_rtakeWhile
      have hleading : byteLength (lineOf segment)
          - byteLength ((lineOf segment).dropWhile isWhiteSpace)
            = byteLength ((lineOf segment).takeWhile isWhiteSpace) := by
        have hbytes := congrArg byteLength hline
        rw [byteLength_append] at hbytes
        omega
      dsimp only
      rw [hleading]
      refine slice_eq_some.2 ⟨before.flatten ++ (lineOf segment).takeWhile isWhiteSpace,
        ((lineOf segment).dropWhile isWhiteSpace).rtakeWhile isWhiteSpace
          ++ segment.rtakeWhile isLineEnd ++ rest.flatten, ?_, byteLength_append .., ?_⟩
      · have hsegment : segment = (lineOf segment).takeWhile isWhiteSpace
            ++ (trimChars (lineOf segment)
              ++ ((lineOf segment).dropWhile isWhiteSpace).rtakeWhile isWhiteSpace)
            ++ segment.rtakeWhile isLineEnd := by rw [htrim, hline, hend]
        rw [List.flatten_append, List.flatten_cons]
        conv_lhs => rw [hsegment]
        simp only [List.append_assoc]
      · rw [byteLength_append]
    · have hnext : byteLength before.flatten + byteLength segment
          = byteLength (before ++ [segment]).flatten := by simp
      rw [hnext] at h
      have hfound := ih h
      rwa [List.append_assoc] at hfound

end Nested

/-- **Offsets delimit what was read** exactly when the labels of the lines end where characters do
and the values behind them are in their places; for dates, amounts and terms they always do. -/
theorem offsets_delimit_iff (table : LowercaseTable) (patterns : DatePatterns)
    (input : SemanticInput) (quality : ConfidenceScore) (source : Text) (labels : List Text)
    (limit : Nat) :
    OffsetsDelimit table patterns input quality source labels limit
      ↔ LabelsInPlace table source labels limit := by
  rw [LabelsInPlace, ← readings_iff limit 0]
  have hwithin : ∀ found, readings table labels limit 0 (sourceLines source) = some found →
      ∀ reading ∈ found, reading.Within source := by
    intro found hfound reading hreading
    obtain ⟨⟨before, segment, after, hsplit, hoffset, hline⟩, hvalue⟩ :=
      mem_readings hfound reading hreading
    exact ⟨⟨before, segment, after, hsplit, by rw [hoffset, Nat.zero_add], hline⟩, hvalue⟩
  constructor
  · intro h
    obtain ⟨found, hfound, hall⟩ := h.labeled
    refine ⟨found, hfound, fun reading hreading => ?_⟩
    obtain ⟨-, ⟨hafter, -⟩, hevidence⟩ := hall reading hreading
    have hplace := hwithin found hfound reading hreading
    exact ⟨hplace.afterLabel_iff.1 hafter, (hplace.evidence_iff "" .parserMatch).1 (hevidence ..)⟩
  · rintro ⟨found, hfound, hall⟩
    refine ⟨⟨found, hfound, fun reading hreading => ?_⟩, ?_, ?_, ?_, ?_⟩
    · have hplace := hwithin found hfound reading hreading
      obtain ⟨hafter, hwhite⟩ := hall reading hreading
      exact ⟨hplace.slice.1, ⟨hplace.afterLabel_iff.2 hafter, hplace.slice.2⟩,
        fun explanation evidenceType => (hplace.evidence_iff explanation evidenceType).2 hwhite⟩
    · intro values hvalues
      rw [labeledValues, hfound] at hvalues
      obtain rfl := Option.some.inj hvalues
      have hlabeled : ∀ value ∈ found.map Reading.located,
          slice source value.start value.end_ = some value.value := by
        intro value hvalue
        obtain ⟨reading, hreading, rfl⟩ := List.mem_map.1 hvalue
        exact (hwithin found hfound reading hreading).slice.1
      refine ⟨fun candidates h => labeledDateCandidates_delimit hlabeled h,
        fun candidates h => labeledMoneyCandidates_delimit hlabeled h, ?_⟩
      intro baseConfidence candidates h candidate hcandidate evidence hevidence
      obtain ⟨value, hvalue, hok⟩ :=
        Pointwise.exists_of_mem_right (Pointwise.mapM_eq_ok.1 h) hcandidate
      obtain ⟨reading, hreading, rfl⟩ := List.mem_map.1 hvalue
      obtain ⟨confidence, -, hok⟩ := Checked.bind_eq_ok.1 hok
      obtain rfl := Except.ok.inj hok
      rw [List.mem_singleton.1 hevidence]
      exact ((hwithin found hfound reading hreading).evidence_iff _ _).2 (hall reading hreading).2
    · intro date hdate explanation evidenceType
      obtain ⟨full, hfull, hplace⟩ := parseDates_slice hdate
      exact evidence_fromMatch hfull hplace explanation evidenceType
    · intro requireCurrency money hmoney explanation evidenceType
      obtain ⟨full, hfull, hplace⟩ := parseMoneyValues_slice hmoney
      exact evidence_fromMatch hfull hplace explanation evidenceType
    · intro terms headerOnly line hline explanation evidenceType
      obtain ⟨part, hslice, htext⟩ := @findTermsFrom_slice table terms headerOnly 0 []
        (sourceLines source) line hline
      rw [List.nil_append, sourceLines, flatten_splitInclusive] at hslice
      refine ⟨_, _, _, rfl, rfl, hslice, ?_⟩
      have hshort : line.text.length ≤ 500 := by
        rw [htext]
        exact List.length_take_le ..
      have htwice : trimChars (trimChars part) = trimChars part := trim_trim isWhiteSpace part
      rw [htwice, ← htext]
      exact List.take_of_length_le hshort

/-- Letters in lower case, one for one. -/
def asciiTable : LowercaseTable where
  images text := text.map fun c => [c.toLower]
  length_images _ := List.length_map ..

/-- A value that occurs in its label is located there. -/
theorem valueInLabel_notBehind :
    (readings asciiTable ["total".toList] 8 0 (sourceLines "Total: a".toList)).map
        (·.map Reading.located) = some [⟨"a".toList, 3, 4⟩]
      ∧ ¬OffsetsDelimit asciiTable asciiPatterns (correctionInput none) fullConfidence
          "Total: a".toList ["total".toList] 8 := by
  have hread : readings asciiTable ["total".toList] 8 0 (sourceLines "Total: a".toList)
      = some [⟨0, [], "Total: a".toList, "total".toList, "a".toList⟩] := by decide
  refine ⟨by rw [hread]; decide, fun h => ?_⟩
  obtain ⟨found, hfound, hall⟩ := h.labeled
  obtain rfl := Option.some.inj (hread.symm.trans hfound)
  obtain ⟨-, ⟨⟨front, hfront, hbehind⟩, -⟩, -⟩ := hall _ (List.mem_singleton_self _)
  have hthree : byteLength front ≤ byteLength "Tot".toList := by
    have hstart :
        (Reading.mk 0 [] "Total: a".toList "total".toList "a".toList).located.start = 3 := by decide
    rw [hstart] at hbehind
    have hbytes : byteLength front ≤ 3 := by simpa using hbehind
    exact hbytes.trans (by decide)
  have hshort := (byteLength_le_iff hfront.1 (by decide)).1 hthree
  -- three characters do not make up the label
  have hnone : ∀ n ≤ 3, ((asciiTable.images "Total: a".toList).take n).flatten
      ≠ "total".toList := by decide
  obtain ⟨-, own, white, separator, rfl, hlabel, -⟩ := hfront
  simp only [List.length_append, List.length_singleton, String.toList] at hshort
  have hle : own.length ≤ 3 := (Nat.le_add_right ..).trans ((Nat.le_add_right ..).trans hshort)
  exact hnone own.length hle hlabel

end Zemo.Knowledge
