import Mathlib.Algebra.Order.Ring.Unbundled.Rat
import Mathlib.Data.Finset.Basic
import Mathlib.Data.List.Destutter
import Mathlib.Data.Prod.Lex
import Mathlib.Data.String.Basic
import Mathlib.Order.WithBot
import Zemo.Organizer.PathSafety
import Zemo.Lib.Grouping
import Zemo.Lib.Texts
import Zemo.Semantic.SearchRow

set_option autoImplicit false

/-! # Candidates of a semantic field

The rules and parsers propose candidates for the value of a field, each with a confidence and its
evidence. Candidates of one value are merged, the value of the greatest confidence is the field's,
and its status says how sure the analysis is of it. Confidences are exact rationals. -/

namespace Zemo.Knowledge

open Texts
open Semantic (SemanticFieldType SemanticValue)

/-! ## Data -/

inductive SourceMethod where
  | deterministicRule
  | regexParser
  | structuredParser
  | filenameHint
  | metadata
  | localSemanticProvider
deriving DecidableEq, Repr

inductive KnowledgeError where
  | invalidPattern
  | confidence
  | invalidConfidence
  | invalidStructuredOutput (message : String)
  | outputLimitExceeded
  | remoteProviderRejected
  | cancelled
  | timedOut
deriving DecidableEq, Repr

/-- A number between zero and one. -/
structure ConfidenceScore where
  value : Rat
  nonneg : 0 ≤ value
  le_one : value ≤ 1
deriving DecidableEq

/-- `ConfidenceScore::new`. -/
def ConfidenceScore.new (value : Rat) : Except KnowledgeError ConfidenceScore :=
  if h : 0 ≤ value ∧ value ≤ 1 then .ok ⟨value, h.1, h.2⟩ else .error .invalidConfidence

structure ConfidencePolicy where
  veryHigh : Rat
  high : Rat
  medium : Rat
  conflictMargin : Rat

/-- The default policy. -/
def ConfidencePolicy.default : ConfidencePolicy :=
  { veryHigh := 95 / 100, high := 85 / 100, medium := 65 / 100, conflictMargin := 12 / 100 }

inductive FieldStatus where
  | confirmed
  | inferred
  | ambiguous
  | unknown
  | conflicting
deriving DecidableEq, Repr

inductive EvidenceType where
  | textSpan
  | filename
  | metadata
  | structuralIndicator
  | parserMatch
  | ocrText
deriving DecidableEq, Repr

structure SemanticEvidence where
  evidenceType : EvidenceType
  exactText : Text
  startOffset : Option Nat
  endOffset : Option Nat
  pageNumber : Option Nat
  sheetName : Option Text
  slideNumber : Option Nat
  sourceLabel : Text
  explanation : Text
  extractionMethod : Text
  analyzerVersion : Text

structure SemanticCandidate where
  value : SemanticValue
  originalValue : Text
  confidence : ConfidenceScore
  evidence : List SemanticEvidence
  sourceMethod : SourceMethod
  ambiguous : Bool

structure SemanticField where
  fieldType : SemanticFieldType
  value : Option SemanticValue
  originalValue : Option Text
  confidence : ConfidenceScore
  status : FieldStatus
  evidence : List SemanticEvidence
  candidates : List SemanticCandidate
  sourceMethod : SourceMethod
  analyzerVersion : Text

/-- `ANALYZER_VERSION`. -/
def analyzerVersion : Text := "5.0.0".toList

/-! ## Merging -/

section Merge

variable (toLowercase : Text → Text)

/-- `value_key`. -/
def valueKey : SemanticValue → Text
  | .text value => "text:".toList ++ toLowercase value.toList
  | .date isoDate => "date:".toList ++ isoDate.toList
  | .money amountMinor scale currency =>
      "money:".toList ++ (toString amountMinor).toList ++ ':' :: (toString scale).toList
        ++ ':' :: (currency.getD "").toList
  | .documentType value => "document_type:".toList ++ value.databaseName.toList
  | .context value => "context:".toList ++ value.databaseName.toList
  | .textList values => "list:".toList ++ toLowercase (['|'].intercalate (values.map String.toList))

def SemanticCandidate.key (candidate : SemanticCandidate) : Text :=
  valueKey toLowercase candidate.value

/-- `append_unique_evidence`. -/
def appendUniqueEvidence (destination source : List SemanticEvidence) : List SemanticEvidence :=
  source.foldl (fun found evidence =>
    if 8 ≤ found.length then found
    else if found.any fun existing => existing.evidenceType = evidence.evidenceType
        && existing.startOffset = evidence.startOffset && existing.exactText = evidence.exactText
      then found
    else found ++ [evidence]) destination

/-- A candidate of a value that has one already. -/
def strengthen (existing candidate : SemanticCandidate) : Except KnowledgeError SemanticCandidate :=
  do
    let confidence ← ConfidenceScore.new
      (min (existing.confidence.value + candidate.confidence.value * (18 / 100)) (99 / 100))
    return {
      existing with
      confidence
      ambiguous := existing.ambiguous || candidate.ambiguous
      evidence := appendUniqueEvidence existing.evidence candidate.evidence }

/-- One step of `merge_equivalent_candidates`: the map is in the order of the keys. -/
def mergeCandidate (candidate : SemanticCandidate) :
    List SemanticCandidate → Except KnowledgeError (List SemanticCandidate)
  | [] => .ok [candidate]
  | existing :: rest =>
      if candidate.key toLowercase = existing.key toLowercase then
        (strengthen existing candidate).map (· :: rest)
      else if candidate.key toLowercase < existing.key toLowercase then
        .ok (candidate :: existing :: rest)
      else (mergeCandidate candidate rest).map (existing :: ·)

/-- `merge_equivalent_candidates`. -/
def mergeEquivalentCandidates (candidates : List SemanticCandidate) :
    Except KnowledgeError (List SemanticCandidate) :=
  candidates.foldlM (fun merged candidate => mergeCandidate toLowercase candidate merged) []

end Merge

/-! ## Resolving -/

/-- `unknown_field`. -/
def unknownField (fieldType : SemanticFieldType) : Except KnowledgeError SemanticField := do
  let confidence ← ConfidenceScore.new 0
  return {
    fieldType, value := none, originalValue := none, confidence, status := .unknown, evidence := []
    candidates := [], sourceMethod := .deterministicRule, analyzerVersion }

/-- The value of a type or context that is not known. -/
def isUnknownValue : SemanticValue → Bool
  | .documentType .unknown => true
  | .context .unknown => true
  | _ => false

/-- A field without a value, after the candidate of the greatest confidence. -/
def undecided (fieldType : SemanticFieldType) (candidates : List SemanticCandidate)
    (primary : SemanticCandidate) (status : FieldStatus) (evidence : List SemanticEvidence) :
    SemanticField :=
  { fieldType, value := none, originalValue := none, confidence := primary.confidence, status
    evidence, candidates, sourceMethod := primary.sourceMethod, analyzerVersion }

section Resolve

variable (toLowercase : Text → Text) (policy : ConfidencePolicy)

/-- Two values are both good enough, and near each other. -/
def inConflict (primary second : SemanticCandidate) : Bool :=
  policy.medium ≤ primary.confidence.value && policy.medium ≤ second.confidence.value
    && primary.confidence.value - second.confidence.value < policy.conflictMargin
    && primary.key toLowercase ≠ second.key toLowercase

/-- The status of a value that is good enough. -/
def decidedStatus (primary : SemanticCandidate) : FieldStatus :=
  if primary.ambiguous then .ambiguous
  else if policy.high ≤ primary.confidence.value && primary.sourceMethod ≠ .filenameHint then
    .confirmed
  else .inferred

/-- `resolve_field`. -/
def resolveField (fieldType : SemanticFieldType) (candidates : List SemanticCandidate) :
    Except KnowledgeError SemanticField := do
  let merged ← mergeEquivalentCandidates toLowercase candidates
  let sorted := (merged.insertionSort fun left right =>
    right.confidence.value ≤ left.confidence.value).take 8
  match sorted with
  | [] => unknownField fieldType
  | primary :: others =>
      if isUnknownValue primary.value then
        return undecided fieldType sorted primary .unknown primary.evidence
      else if others.head?.any (inConflict toLowercase policy primary) then
        return undecided fieldType sorted primary .conflicting
          (appendUniqueEvidence primary.evidence (others.head?.elim [] (·.evidence)))
      else if primary.confidence.value < policy.medium then
        return undecided fieldType sorted primary
          (if primary.ambiguous then .ambiguous else .unknown) primary.evidence
      else
        return {
          fieldType, value := some primary.value, originalValue := some primary.originalValue
          confidence := primary.confidence, status := decidedStatus policy primary
          evidence := primary.evidence, candidates := sorted
          sourceMethod := primary.sourceMethod, analyzerVersion }

end Resolve

end Zemo.Knowledge
