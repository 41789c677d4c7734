import Mathlib.Data.List.Sort
import Zemo.Search.Chunking

set_option autoImplicit false

/-! # Interpretation of a query

What a query asks for: a type of document, a context, an amount, a date, named relationships, an
inferred party, and the words that are left for the lexical search. The tables of Unicode
(`QueryTables`) and the matches of the regular expressions (`QueryPatterns`) are given.

Each intent that is found gives the phrases it was found by; these are deleted from the query, the
longest first, wherever they occur, and the words of the rest are searched for. -/

namespace Zemo.Search.Interpretation

open Texts
open Chunking (rposition trimText)

/-! ## Data -/

/-- The Unicode tables. -/
structure QueryTables where
  nfkd : Text → Text
  isCombiningMark : Char → Bool
  toLowercase : Char → Text
  isAlphanumeric : Char → Bool
  isAlphabetic : Char → Bool

/-- Letters and digits are not whitespace. -/
def QueryTables.Standard (tables : QueryTables) : Prop :=
  ∀ c, tables.isAlphanumeric c = true → isWhiteSpace c = false

/-- What the regular expressions capture: the whole match first, then the groups. -/
structure QueryPatterns where
  between : Text → Option (Text × Text × Text × Option Text)
  comparison : Text → Option (Text × Text × Text × Option Text)
  single : Text → Option (Text × Option Text × Text × Text)
  lastYear : Text → Option Text
  /-- The month's name, then the text. -/
  monthYear : Text → Text → Option (Text × Text)
  year : Text → Option (Text × Text)

structure QueryClock where
  year : Int
  month : Nat
  day : Nat

structure QueryChip where
  id : Text
  kind : Text
  label : Text
  value : Text
deriving DecidableEq

structure AmountIntent where
  minimumMinor : Option Int
  maximumMinor : Option Int
  targetMinor : Option Int
  currency : Option Text
  approximate : Bool
deriving DecidableEq

structure DateIntent where
  fromDay : Text
  toDay : Text
  year : Int
  month : Option Nat
deriving DecidableEq

structure QueryInterpretation where
  lexicalText : Text := []
  documentType : Option Text := none
  context : Option Text := none
  supplier : Option Text := none
  customer : Option Text := none
  project : Option Text := none
  party : Option Text := none
  amount : Option AmountIntent := none
  date : Option DateIntent := none
  chips : List QueryChip := []
deriving DecidableEq

/-! ## Texts -/

/-- `MAX_QUERY_CHARS`. -/
def maxQueryChars : Nat := 512

/-- `MAX_RELATION_CHARS`. -/
def maxRelationChars : Nat := 128

/-- `split_whitespace`. -/
def splitWhitespace (text : Text) : List Text := (text.splitOnP isWhiteSpace).filter (· ≠ [])

/-- `join(" ")`. -/
def joinSpaces (parts : List Text) : Text := [' '].intercalate parts

/-- `bounded_relation`. -/
def boundedRelation (value : Text) : Text := (joinSpaces (splitWhitespace value)).take maxRelationChars

/-- `str::contains`. -/
def containsText (value part : Text) : Bool := (find part value).isSome

/-- `contains_phrase`. -/
def containsPhrase (value phrase : Text) : Bool :=
  containsText (' ' :: value ++ [' ']) (' ' :: phrase ++ [' '])

/-- A number with zeros in front. -/
def zeroPadded (width n : Nat) : Text :=
  let digits := Nat.toDigits 10 n
  List.replicate (width - digits.length) '0' ++ digits

/-- A signed number with zeros in front, the sign included in the width. -/
def signedPadded (width : Nat) (n : Int) : Text :=
  if n < 0 then '-' :: zeroPadded (width - 1) n.natAbs else zeroPadded width n.natAbs

/-- `to_string` of a number. -/
def signedText (n : Int) : Text := signedPadded 0 n

section Tables

variable (tables : QueryTables)

/-- `normalize_search_text`. -/
def normalizeSearchText (value : Text) : Text :=
  let deaccented := (((tables.nfkd value).filter fun c => !tables.isCombiningMark c).flatMap
    tables.toLowercase).map fun c =>
      if c = '\u2019' || c = '\u2018' || c = '\x60' then '\x27'
      else if c = '\u00a0' || c = '\u202f' then ' '
      else c
  (joinSpaces (splitWhitespace deaccented)).take maxQueryChars

end Tables

/-! ## Types and contexts -/

/-- A value, its label and its aliases. -/
abbrev Named := String × String × List String

def documentTypes : List Named :=
  [("invoice", "Facture", ["facture", "factures", "invoice", "invoices"]),
    ("quote", "Devis", ["devis", "quotation", "estimate"]),
    ("contract", "Contrat", ["contrat", "contrats", "contract", "contracts"]),
    ("purchase_order", "Bon de commande", ["bon de commande", "bons de commande", "purchase order"]),
    ("delivery_note", "Bon de livraison", ["bon de livraison", "delivery note"]),
    ("bank_statement", "Relevé bancaire",
      ["releve bancaire", "releves bancaires", "bank statement"]),
    ("tax_document", "Document fiscal",
      ["document fiscal", "documents fiscaux", "impot", "tax document"]),
    ("payslip", "Fiche de paie", ["fiche de paie", "bulletin de paie", "payslip"]),
    ("administrative_document", "Document administratif",
      ["document administratif", "documents administratifs"]),
    ("receipt", "Reçu", ["recu", "recus", "ticket de caisse", "receipt"]),
    ("report", "Rapport", ["rapport", "rapports", "report"]),
    ("letter", "Courrier", ["courrier", "lettre", "letter"]),
    ("photo", "Photo", ["photo", "photos", "image", "images"]),
    ("spreadsheet", "Tableur", ["tableur", "tableurs", "spreadsheet"]),
    ("presentation", "Présentation", ["presentation", "presentations", "diaporama"])]

def contexts : List Named :=
  [("personal", "Personnel", ["personnel", "personnels", "personnelle", "personnelles", "prive"]),
    ("business", "Professionnel",
      ["professionnel", "professionnels", "professionnelle", "entreprise", "business"])]

/-- The first entry of which an alias is in the text as a phrase. -/
def parseNamed (entries : List Named) (value : Text) : Option Named :=
  entries.find? fun entry => entry.2.2.any fun phrase => containsPhrase value phrase.toList

/-- `parse_document_type`. -/
def parseDocumentType (value : Text) : Option Named := parseNamed documentTypes value

/-- `parse_context`. -/
def parseContext (value : Text) : Option Named := parseNamed contexts value

/-! ## Amounts -/

def i64Max : Int := 2 ^ 63 - 1

def i64Min : Int := -2 ^ 63

/-- Decimal digits, as a number that is at most the bound. -/
def parseDigits (bound : Int) (text : Text) : Option Int :=
  if text ≠ [] ∧ text.all Char.isDigit = true then
    let value : Int := (Nat.ofDigitChars 10 text 0 : Nat)
    if value ≤ bound then some value else none
  else none

/-- The place of the decimal separator. -/
def separatorAt (compact : Text) : Option Nat :=
  match rposition (· = ',') compact, rposition (· = '.') compact with
  | some left, some right => some (max left right)
  | some index, none | none, some index =>
      if compact.length - (index + 1) ≤ 2 then some index else none
  | none, none => none

/-- `parse_major_minor`. -/
def parseMajorMinor (value : Text) : Option Int :=
  let compact := value.filter fun c => c ≠ ' ' && c ≠ '\u00a0' && c ≠ '\u202f'
  let separator := separatorAt compact
  let behind := fun index => separator.any (· < index)
  let digits := (compact.zipIdx.filter fun entry => entry.1.isDigit && !behind entry.2).map (·.1)
  let fractional := (compact.zipIdx.filter fun entry => entry.1.isDigit && behind entry.2).map (·.1)
  if compact.all (fun c => c.isDigit || c = ',' || c = '.') = false ∨ digits = [] then none
  else do
    let major ← parseDigits i64Max digits
    let fraction ← match fractional with
      | [] => some 0
      | [digit] => (parseDigits i64Max [digit]).map (· * 10)
      | first :: second :: _ => parseDigits i64Max [first, second]
    if major * 100 + fraction ≤ i64Max then some (major * 100 + fraction) else none

/-- `currency_code`. -/
def currencyCode (value : Text) : Text :=
  let code := (trimText value).map Char.toLower
  if code ∈ ["$".toList, "dollar".toList, "dollars".toList, "usd".toList] then "USD".toList
  else if code ∈ ["£".toList, "gbp".toList] then "GBP".toList
  else "EUR".toList

section Patterns

variable (patterns : QueryPatterns)

/-- The operators of a lower bound. -/
def isMinimumOperator (operator : Text) : Bool :=
  operator ∈ ["plus de".toList, "superieur a".toList, "superieure a".toList,
    "au-dessus de".toList]

/-- `parse_amount`. -/
def parseAmount (value : Text) : Option (AmountIntent × Text) :=
  match patterns.between value with
  | some (whole, first, second, currency) => do
      let first ← parseMajorMinor first
      let second ← parseMajorMinor second
      some
        ({ minimumMinor := some (min first second), maximumMinor := some (max first second)
           targetMinor := none, currency := some ((currency.map currencyCode).getD "EUR".toList)
           approximate := false }, whole)
  | none =>
      match patterns.comparison value with
      | some (whole, operator, amount, currency) => do
          let amount ← parseMajorMinor amount
          some
            ({ minimumMinor :=
                 if isMinimumOperator operator then some (min (amount + 1) i64Max) else none
               maximumMinor :=
                 if isMinimumOperator operator then none else some (max (amount - 1) i64Min)
               targetMinor := none
               currency := some ((currency.map currencyCode).getD "EUR".toList)
               approximate := false }, whole)
      | none => do
          let (whole, approximately, amount, currency) ← patterns.single value
          let target ← parseMajorMinor amount
          let tolerance : Int := if approximately.isSome then max (target.natAbs / 10 : Nat) 1000
            else 0
          some
            ({ minimumMinor := some (max (target - tolerance) i64Min)
               maximumMinor := some (min (target + tolerance) i64Max)
               targetMinor := some target, currency := some (currencyCode currency)
               approximate := approximately.isSome }, whole)

/-! ## Dates -/

def months : List (String × Nat) :=
  [("janvier", 1), ("january", 1), ("fevrier", 2), ("february", 2), ("mars", 3), ("march", 3),
    ("avril", 4), ("april", 4), ("mai", 5), ("may", 5), ("juin", 6), ("june", 6), ("juillet", 7),
    ("july", 7), ("aout", 8), ("august", 8), ("septembre", 9), ("september", 9), ("octobre", 10),
    ("october", 10), ("novembre", 11), ("november", 11), ("decembre", 12), ("december", 12)]

/-- `days_in_month`. -/
def daysInMonth (year : Int) (month : Nat) : Nat :=
  if month ∈ [4, 6, 9, 11] then 30
  else if month = 2 then
    if year % 400 = 0 ∨ (year % 4 = 0 ∧ year % 100 ≠ 0) then 29 else 28
  else 31

/-- A day as text. -/
def dayText (year : Int) (month day : Nat) : Text :=
  signedPadded 4 year ++ '-' :: zeroPadded 2 month ++ '-' :: zeroPadded 2 day

/-- A whole year. -/
def yearIntent (year : Int) : DateIntent where
  fromDay := dayText year 1 1
  toDay := dayText year 12 31
  year := year
  month := none

/-- A month of a year. -/
def monthIntent (year : Int) (month : Nat) : DateIntent where
  fromDay := dayText year month 1
  toDay := dayText year month (daysInMonth year month)
  year := year
  month := some month

/-- `parse_date`. -/
def parseDate (value : Text) (clock : QueryClock) : Option (DateIntent × Text) :=
  match patterns.lastYear value with
  | some found => some (yearIntent (max (clock.year - 1) (-2 ^ 31)), found)
  | none =>
      let found := months.findSome? fun entry =>
        (patterns.monthYear entry.1.toList value).map fun captures => (captures, entry.2)
      match found with
      | some ((whole, year), month) =>
          (parseDigits (2 ^ 31 - 1) year).map fun year => (monthIntent year month, whole)
      | none => do
          let (whole, year) ← patterns.year value
          let year ← parseDigits (2 ^ 31 - 1) year
          some (yearIntent year, whole)

end Patterns

/-! ## Relationships -/

def relationMarkers : List (String × List String) :=
  [("supplier", ["fournisseur", "supplier"]), ("customer", ["client", "customer"]),
    ("project", ["chantier", "projet", "project"])]

def stopWords : List String :=
  [" environ ", " autour ", " entre ", " plus de ", " moins de ", " en janvier ", " en fevrier ",
    " en mars ", " en avril ", " en mai ", " en juin ", " en juillet ", " en aout ",
    " en septembre ", " en octobre ", " en novembre ", " en decembre "]

def dateTerms : List String :=
  ["janvier", "fevrier", "mars", "avril", "mai", "juin", "juillet", "aout", "septembre",
    "octobre", "novembre", "decembre", "annee", "last year"]

/-- `starts_with_date_term`. -/
def startsWithDateTerm (value : Text) : Bool :=
  (splitWhitespace value).head?.any (·.all Char.isDigit)
    || dateTerms.any fun term => term.toList <+: value

/-- What is trimmed off a named relationship. -/
def isRelationEdge (c : Char) : Bool := isWhiteSpace c || c ∈ [',', ';', ':', '.']

/-- The relationship after the first of the markers that is found: its name and the phrase. -/
def parseRelationship (value : Text) (markers : List String) : Option (Text × Text) := do
  let (start, marker) ← markers.findSome? fun marker =>
    (find (marker.toList ++ [' ']) value).map fun start => (start, marker)
  let valueStart := start + (marker.toList.length + 1)
  let tail := value.drop valueStart
  let stop := ((stopWords.filterMap fun word => find word.toList tail).min?).getD tail.length
  let part := trim isRelationEdge (tail.take stop)
  let candidate := if "de ".toList <+: part then part.drop 3 else part
  if candidate = [] || startsWithDateTerm candidate then none
  else some (candidate, trimText ((value.drop start).take (valueStart + stop - start)))

/-- `parse_explicit_relationships`. -/
def parseExplicitRelationships (value : Text) : List (String × Text × Text) :=
  relationMarkers.filterMap fun entry =>
    (parseRelationship value entry.2).map fun found => (entry.1, found)

/-! ## The remainder -/

/-- The pieces between the occurrences of a phrase. -/
def pieces (phrase : Text) (text : Text) : List Text :=
  if phrase ≠ [] ∧ phrase <+: text then [] :: pieces phrase (text.drop phrase.length)
  else
    match text with
    | [] => [[]]
    | c :: rest => (pieces phrase rest).modifyHead (c :: ·)
termination_by text.length
decreasing_by
  · next h =>
    have := List.length_pos_of_ne_nil h.1
    have := h.2.length_le
    rw [List.length_drop]
    omega
  · simp

/-- `replace(phrase, " ")`. -/
def replacePhrase (text phrase : Text) : Text := joinSpaces (pieces phrase text)

/-- The phrases that are not blank, the longest first. -/
def orderedPhrases (consumed : List Text) : List Text :=
  (consumed.filter fun phrase => trimText phrase ≠ []).insertionSort
    fun a b => byteLength b ≤ byteLength a

/-- The text without the phrases. -/
def withoutPhrases (value : Text) (consumed : List Text) : Text :=
  (orderedPhrases consumed).foldl replacePhrase value

def fillers : List String :=
  ["retrouve", "retrouver", "trouve", "chercher", "recherche", "document", "documents",
    "fournisseur", "supplier", "client", "customer", "projet", "project", "chantier", "du", "de",
    "des", "la", "le", "les", "un", "une", "d", "l", "lie", "lies", "liee", "liees", "concernant",
    "environ", "autour", "approximativement", "pour", "vers", "en", "au", "aux", "a"]

def isFiller (token : Text) : Bool := fillers.any fun filler => filler.toList = token

section Tables

variable (tables : QueryTables)

/-- A character that no token has. -/
def isBreak (c : Char) : Bool := !tables.isAlphanumeric c && c ≠ '-'

/-- The tokens of a text: letters, digits and hyphens between them. -/
def tokens (text : Text) : List Text :=
  ((text.splitOnP (isBreak tables)).map (trim (· = '-'))).filter (· ≠ [])

/-- `lexical_remainder`. -/
def lexicalRemainder (value : Text) (consumed : List Text) : Text :=
  joinSpaces (((tokens tables (withoutPhrases value consumed)).filter fun token =>
    !isFiller token).take 32)

/-- `infer_party`. -/
def inferParty (value : Text) : Option Text :=
  let named := ((splitWhitespace value).filter (·.any tables.isAlphabetic)).take 8
  if named = [] then none else some (boundedRelation (joinSpaces named))

/-- `looks_like_file_query`. -/
def looksLikeFileQuery (value : Text) : Bool :=
  '/' ∈ value || '\\' ∈ value ||
    (rposition (· = '.') value).any fun dot =>
      trimText (value.take dot) ≠ [] && 2 ≤ (value.drop (dot + 1)).length
        && (value.drop (dot + 1)).length ≤ 10 && (value.drop (dot + 1)).all tables.isAlphanumeric

end Tables

/-! ## Labels -/

/-- `format_major`. -/
def formatMajor (minor : Int) : Text :=
  let major := signedText (minor.tdiv 100)
  let fraction := minor.natAbs % 100
  if fraction = 0 then major else major ++ ',' :: zeroPadded 2 fraction

/-- `amount_label`. -/
def amountLabel (amount : AmountIntent) : Text :=
  let currency := amount.currency.getD "EUR".toList
  let symbol := if currency = "EUR".toList then "€".toList else currency
  match amount.targetMinor, amount.minimumMinor, amount.maximumMinor with
  | some target, _, _ =>
      (if amount.approximate then ['~'] else []) ++ formatMajor target ++ symbol
  | none, some minimum, some maximum =>
      formatMajor minimum ++ "–".toList ++ formatMajor maximum ++ symbol
  | none, some minimum, none => "≥".toList ++ formatMajor minimum ++ symbol
  | none, none, some maximum => "≤".toList ++ formatMajor maximum ++ symbol
  | none, none, none => symbol

def monthLabels : List String :=
  ["janv.", "févr.", "mars", "avr.", "mai", "juin", "juil.", "août", "sept.", "oct.", "nov.",
    "déc."]

/-- `date_label`. -/
def dateLabel (date : DateIntent) : Text :=
  match date.month with
  | none => signedText date.year
  | some month => (monthLabels.getD (month - 1) "").toList ++ ' ' :: signedText date.year

/-- `relationship_label`. -/
def relationshipLabel (kind : String) (value : Text) : Text :=
  if kind = "supplier" then "Fournisseur ".toList ++ value
  else if kind = "customer" then "Client ".toList ++ value
  else if kind = "project" then "Projet ".toList ++ value
  else value

/-! ## Interpretation -/

/-- What has been found, and the phrases it was found by. -/
structure Findings where
  interpretation : QueryInterpretation := {}
  consumed : List Text := []

/-- A chip whose id is its kind. -/
def chipOf (kind : String) (label value : Text) : QueryChip where
  id := kind.toList
  kind := kind.toList
  label
  value

def Findings.addDocumentType (findings : Findings) (entry : Named) : Findings where
  interpretation :=
    { findings.interpretation with
      documentType := some entry.1.toList
      chips := findings.interpretation.chips
        ++ [chipOf "document_type" entry.2.1.toList entry.1.toList] }
  consumed := findings.consumed ++ entry.2.2.map String.toList

def Findings.addContext (findings : Findings) (entry : Named) : Findings where
  interpretation :=
    { findings.interpretation with
      context := some entry.1.toList
      chips := findings.interpretation.chips
        ++ [chipOf "context" entry.2.1.toList entry.1.toList] }
  consumed := findings.consumed ++ entry.2.2.map String.toList

def Findings.addAmount (findings : Findings) (found : AmountIntent × Text) : Findings where
  interpretation :=
    { findings.interpretation with
      amount := some found.1
      chips := findings.interpretation.chips ++ [chipOf "amount" (amountLabel found.1)
        (signedText ((found.1.targetMinor.or found.1.minimumMinor).getD 0))] }
  consumed := findings.consumed ++ [found.2]

def Findings.addDate (findings : Findings) (found : DateIntent × Text) : Findings where
  interpretation :=
    { findings.interpretation with
      date := some found.1
      chips := findings.interpretation.chips
        ++ [chipOf "date" (dateLabel found.1) found.1.fromDay] }
  consumed := findings.consumed ++ [found.2]

/-- The interpretation with the relationship, unless it has one of the kind. -/
def QueryInterpretation.withRelationship (interpretation : QueryInterpretation) (kind : String)
    (value : Text) : Option QueryInterpretation :=
  if kind = "supplier" then
    if interpretation.supplier.isNone then some { interpretation with supplier := some value }
    else none
  else if kind = "customer" then
    if interpretation.customer.isNone then some { interpretation with customer := some value }
    else none
  else if kind = "project" then
    if interpretation.project.isNone then some { interpretation with project := some value }
    else none
  else none

/-- One turn of the loop over the relationships. -/
def Findings.addRelationship (disabled : List Text) (findings : Findings)
    (found : String × Text × Text) : Findings :=
  let value := boundedRelation found.2.1
  if found.1.toList ∈ disabled ∨ value = [] then findings
  else
    match findings.interpretation.withRelationship found.1 value with
    | none => findings
    | some interpretation =>
        { interpretation :=
            { interpretation with
              chips := interpretation.chips
                ++ [chipOf found.1 (relationshipLabel found.1 value) value] }
          consumed := findings.consumed ++ [found.2.2] }

/-- Something found is added, unless the intent is disabled. -/
def Findings.addFound {α : Type} (disabled : List Text) (kind : String)
    (add : Findings → α → Findings) (findings : Findings) (found : Option α) : Findings :=
  if kind.toList ∈ disabled then findings
  else
    match found with
    | none => findings
    | some found => add findings found

section Query

variable (tables : QueryTables) (patterns : QueryPatterns)

/-- All that is found in the normalized query, before the remainder is read. -/
def findIntents (normalized : Text) (clock : QueryClock) (disabled : List Text) : Findings :=
  let findings : Findings := {}
  let findings := findings.addFound disabled "document_type" Findings.addDocumentType
    (parseDocumentType normalized)
  let findings := findings.addFound disabled "context" Findings.addContext
    (parseContext normalized)
  let findings := findings.addFound disabled "amount" Findings.addAmount
    (parseAmount patterns normalized)
  let findings := findings.addFound disabled "date" Findings.addDate
    (parseDate patterns normalized clock)
  (parseExplicitRelationships normalized).foldl (Findings.addRelationship disabled) findings

/-- The lexical text and the party, from the remainder. -/
def readRemainder (normalized : Text) (disabled : List Text) (findings : Findings) :
    QueryInterpretation :=
  let interpretation := findings.interpretation
  let partyRemainder := lexicalRemainder tables normalized findings.consumed
  let lexicalText := if partyRemainder = [] ∧ normalized ≠ [] then
      lexicalRemainder tables normalized []
    else partyRemainder
  let party := if "party".toList ∉ disabled ∧ interpretation.supplier.isNone
        ∧ interpretation.customer.isNone ∧ looksLikeFileQuery tables normalized = false then
      inferParty tables partyRemainder
    else none
  match party with
  | none => { interpretation with lexicalText }
  | some party =>
      { interpretation with
        lexicalText
        party := some party
        chips := interpretation.chips ++ [chipOf "party" party party] }

/-- `interpret_query`. -/
def interpretQuery (query : Text) (clock : QueryClock) (disabledIntents : List Text) :
    QueryInterpretation :=
  let normalized := normalizeSearchText tables (query.take maxQueryChars)
  let disabled := disabledIntents.map fun intent => intent.map Char.toLower
  readRemainder tables normalized disabled (findIntents patterns normalized clock disabled)

end Query

end Zemo.Search.Interpretation
