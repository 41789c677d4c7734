import Mathlib.Data.List.Sort
import Zemo.Domain.Proposal
import Zemo.Organizer.PathSafety

set_option autoImplicit false

/-! # Machine names

How the organizer makes a name of its own safe: invalid characters are replaced, endings that
Windows drops are cut, device names are marked and what is too long is cut off. The places of a
proposal are told apart by their collision keys. -/

namespace Zemo

open Organizer

structure SanitizedValue where
  value : String
  changed : Bool
deriving DecidableEq

/-! ## Cutting -/

/-- `truncate_utf16` on characters. -/
def truncateChars : Nat → List Char → List Char
  | _, [] => []
  | maximum, c :: rest =>
      if utf16Units c ≤ maximum then c :: truncateChars (maximum - utf16Units c) rest else []

/-- `truncate_utf16`. -/
def truncateUtf16 (input : String) (maximum : Nat) : String :=
  String.ofList (truncateChars maximum input.toList)

/-- `split_extension`. -/
def splitExtension (filename : String) : String × Option String :=
  match rsplitOnce '.' filename with
  | none => (filename, none)
  | some (stem, ending) =>
      if stem = "" ∨ ending = "" ∨ 16 < utf16Count ending then (filename, none)
      else (stem, some ending)

/-- `truncate_filename_preserving_extension`. -/
def truncateFilenamePreservingExtension (input : String) (maximumUtf16 : Nat) : String :=
  if utf16Count input ≤ maximumUtf16 then input
  else
    match splitExtension input with
    | (_, none) => truncateUtf16 input maximumUtf16
    | (stem, some ending) =>
        let endingLength := utf16Count ending + 1
        if maximumUtf16 ≤ endingLength then truncateUtf16 input maximumUtf16
        else truncateUtf16 stem (maximumUtf16 - endingLength) ++ "." ++ ending

/-! ## Sanitizing -/

/-- Runs of invalid characters and separators, each made one underscore. -/
def replaceInvalid : Bool → List Char → List Char
  | _, [] => []
  | previous, c :: rest =>
      if isWindowsInvalid c || c = '/' || c = '\\' then
        if previous then replaceInvalid true rest else '_' :: replaceInvalid true rest
      else c :: replaceInvalid false rest

/-- What is left of an input before it is cut to its length. -/
def cleanComponent (input : String) : List Char :=
  let output := (replaceInvalid false (trimChars input.toList)).rdropWhile
    fun c => c = ' ' || c = '.'
  let output := if output = [] ∨ output = ['.'] ∨ output = ['.', '.'] then "Unclassified".toList
    else output
  let output := if hasDrivePrefix output then output.set 1 '_' else output
  if isReservedWindowsName output then '_' :: output else output

/-- `sanitize_component`. -/
def sanitizeComponent (input : String) (maximumUtf16 : Nat) (preserveExtension : Bool) :
    SanitizedValue :=
  let before := String.ofList (cleanComponent input)
  let output := if preserveExtension then truncateFilenamePreservingExtension before maximumUtf16
    else truncateUtf16 before maximumUtf16
  { value := output, changed := output ≠ input || output ≠ before }

namespace VirtualPathPolicy

variable (policy : VirtualPathPolicy)

/-- `sanitize_machine_segment`. -/
def sanitizeMachineSegment (input : String) : SanitizedValue :=
  sanitizeComponent input policy.maximumSegmentUtf16 false

/-- `sanitize_machine_filename`. -/
def sanitizeMachineFilename (input : String) : SanitizedValue :=
  sanitizeComponent input policy.maximumFilenameUtf16 true

/-- What `fit_machine_path` returns. -/
structure FittedPath where
  destination : List String
  name : String
  changed : Bool
  valid : Bool
deriving DecidableEq

/-- The components cut to 32 units from the last on, as long as the path is too long. -/
def shortenSegments (name : String) : List String → Nat → List String
  | destination, 0 => destination
  | destination, index + 1 =>
      if pathLengthUtf16 destination name ≤ policy.maximumPathUtf16 then destination
      else
        shortenSegments name
          (destination.set index (truncateUtf16 (destination.getD index "") 32)) index

/-- `fit_machine_path`. -/
def fitMachinePath (destination : List String) (filename : String) : FittedPath :=
  let sanitized := destination.map policy.sanitizeMachineSegment
  let tooDeep := decide (policy.maximumDepth < sanitized.length)
  let safe := (sanitized.map (·.value)).take policy.maximumDepth
  let name := policy.sanitizeMachineFilename filename
  let changed := sanitized.any (·.changed) || tooDeep || name.changed
  let tooLong := decide (policy.maximumPathUtf16 < pathLengthUtf16 safe name.value)
  let safe := policy.shortenSegments name.value safe safe.length
  let stillTooLong := decide (policy.maximumPathUtf16 < pathLengthUtf16 safe name.value)
  let remaining := max 16 (policy.maximumPathUtf16 - ((safe.map utf16Count).sum + safe.length))
  let safeName := if stillTooLong then truncateFilenamePreservingExtension name.value remaining
    else name.value
  { destination := safe
    name := safeName
    changed := changed || (tooLong && safe ≠ []) || stillTooLong
    valid := pathLengthUtf16 safe safeName ≤ policy.maximumPathUtf16 }

end VirtualPathPolicy

/-! ## Collisions -/

/-- `collision_key`, for a `to_lowercase`. -/
def collisionKey (lower : String → String) (destination : List String) (filename : String) :
    String :=
  "\\".intercalate ((destination ++ [filename]).map lower)

/-- `collision_name`. -/
def collisionName (filename : String) (ordinal maximumUtf16 : Nat) : String :=
  let (stem, ending) := splitExtension filename
  let suffix := "_" ++ String.ofList (Nat.toDigits 10 ordinal)
  let endingLength := match ending with
    | none => 0
    | some ending => utf16Count ending + 1
  let stemLimit := max 1 (maximumUtf16 - utf16Count suffix - endingLength)
  let stem := truncateUtf16 stem stemLimit
  match ending with
  | some ending => stem ++ suffix ++ "." ++ ending
  | none => stem ++ suffix

example : (VirtualPathPolicy.sanitizeMachineFilename {} "CON<report>.pdf").value
    = "CON_report_.pdf" := by decide +kernel

end Zemo

/-! ## What a proposal is built from

The files of a root with what analysis, rules and relationships say of them, and the preferences of
the user. Confidences are floating point numbers in the source; what is computed from them is a
parameter of the engine. -/

namespace Zemo.Organizer

/-! ## Sources -/

structure ProposalSignal where
  value : String
  confidence : Rat
  status : String
  userConfirmed : Bool
deriving DecidableEq

/-- `is_high_confidence`. -/
def ProposalSignal.isHighConfidence (signal : ProposalSignal) : Bool :=
  signal.userConfirmed
    || (17 / 20 ≤ signal.confidence && signal.status ∈ ["confirmed", "inferred", "auto_linked"])

structure ProposalRelationship where
  relationshipType : String
  identityId : String
  displayName : String
  confidence : Rat
  status : String
  userConfirmed : Bool
  projectCustomerName : Option String
deriving DecidableEq

/-- `is_eligible`. -/
def ProposalRelationship.isEligible (relationship : ProposalRelationship) : Bool :=
  relationship.userConfirmed
    || (relationship.status = "auto_linked" && 9 / 10 ≤ relationship.confidence)
    || relationship.status = "user_confirmed"

structure MatchedRule where
  id : Nat
  explanation : String
  position : Nat
deriving DecidableEq

/-- `RuleEvaluation`; of the semantic overrides only the rules. -/
structure RuleEvaluation where
  semanticOverrides : List MatchedRule := []
  classifiedSupplier : Option (String × MatchedRule) := none
  classifiedCustomer : Option (String × MatchedRule) := none
  preferProjectLocation : Option MatchedRule := none
  destination : Option (List String × MatchedRule) := none
  preserveSubtree : Option MatchedRule := none
  useYearFolders : Option (Bool × MatchedRule) := none
deriving DecidableEq

structure OrganizationSourceInput where
  fileId : FileId
  fileVersionId : String
  sourceRelativePath : String
  sourceName : String
  byteSize : Nat
  modifiedAt : Option String
  contentHash : Option String
  extractionStatus : Option String
  semanticStatus : Option String
  inputQuality : Rat
  context : Option ProposalSignal
  documentType : Option ProposalSignal
  issueDate : Option ProposalSignal
  identifier : Option ProposalSignal
  amount : Option ProposalSignal
  currency : Option ProposalSignal
  relationships : List ProposalRelationship
  reviewReasons : List String
  duplicateGroupId : Option String
  duplicateCanonical : Bool
  ruleEvaluation : RuleEvaluation
deriving DecidableEq

structure OrganizationPreferences where
  clientFirst : Bool := true
  includeYearFolders : Bool := true
  maximumDepth : Nat := 6
  minimumGroupSize : Nat := 2
  keepPhotosInsideProjects : Bool := true
  supplierInvoicesInsideProjects : Bool := true
  namingLanguage : String := "en"
  preserveExistingFolders : Bool := true
  personalRootName : String := "Personal"
  businessRootName : String := "Business"
  renameTemplate : String := "{date}_{party}_{document_type}_{identifier}"
  reviewThreshold : Rat := 13 / 20
deriving DecidableEq

/-- The case mappings of Unicode, and what is computed with floating point numbers. -/
structure EngineContext where
  toLowercase : String → String
  /-- The first character in upper case. -/
  title : String → String
  /-- `{:.0}` of a hundred times the number. -/
  percent : Rat → String
  proposalConfidence : OrganizationSourceInput → Option ProposalRelationship →
    Option ProposalRelationship → Option ProposalRelationship → Rat × ProposalConfidenceLevel
  disruptionScore : List String → List String → String → String → Rat

/-! ## Reading an input -/

/-- `normalized_signal`. -/
def normalizedSignal (signal : Option ProposalSignal) (default : String) : String :=
  let value := signal.map fun signal => toAsciiLowercase (trim signal.value)
  (value.filter (· ≠ "")).getD default

/-- The order in which `max_by` compares relationships. -/
def ProposalRelationship.isBelow (left right : ProposalRelationship) : Bool :=
  left.confidence < right.confidence
    || (left.confidence = right.confidence && right.identityId ≤ left.identityId)

/-- `strongest_relationship`. -/
def OrganizationSourceInput.strongestRelationship (input : OrganizationSourceInput)
    (relationshipType : String) : Option ProposalRelationship :=
  let eligible := input.relationships.filter fun relationship =>
    relationship.relationshipType = relationshipType && relationship.isEligible
  eligible.foldl (fun best relationship =>
    match best with
    | none => some relationship
    | some best => some (if best.isBelow relationship then relationship else best)) none

/-- `source_parent_components`. -/
def sourceParentComponents (relativePath sourceName : String) : List String :=
  let parts := (splitAny (fun c => c = '/' || c = '\\') relativePath).filter fun part =>
    trim part ≠ ""
  match parts.getLast? with
  | some last => if eqIgnoreAsciiCase last sourceName then parts.dropLast else parts
  | none => parts

def OrganizationSourceInput.sourceParent (input : OrganizationSourceInput) : List String :=
  sourceParentComponents input.sourceRelativePath input.sourceName

/-- `paths_equal`. -/
def pathsEqual (left right : List String) : Bool :=
  left.length = right.length && (left.zip right).all fun (left, right) =>
    eqIgnoreAsciiCase left right

/-- `as_bytes`. -/
def utf8Bytes (value : String) : List UInt8 := value.toList.flatMap String.utf8EncodeChar

/-- The number four ASCII digits write, most significant first. -/
def yearOf (bytes : List UInt8) : Option Nat :=
  if bytes.all fun byte => 0x30 ≤ byte && byte ≤ 0x39 then
    some (bytes.foldl (fun number byte => 10 * number + (byte.toNat - 0x30)) 0)
  else none

/-- `valid_iso_date`. -/
def validIsoDate (value : String) : Bool :=
  let bytes := utf8Bytes value
  bytes.length = 10 && bytes[4]? = some 0x2d && bytes[7]? = some 0x2d
    && (yearOf (bytes.take 4)).any fun year => 1900 ≤ year && year ≤ 2200

/-! ## Reasons -/

/-- `reason`. -/
def reason (code explanation : String) (evidence : Option String) : OrganizationReason where
  code := takeChars 64 code
  explanation := takeChars 512 explanation
  evidenceReferences := (evidence.map (takeChars 512)).toList

/-- `signal_reference`. -/
def EngineContext.signalReference (engine : EngineContext) (signal : ProposalSignal) : String :=
  signal.value ++ " (" ++ engine.percent signal.confidence ++ "%, "
    ++ (if signal.userConfirmed then "user confirmed" else signal.status) ++ ")"

/-- The order of the rules of the user. -/
def MatchedRule.isBefore (left right : MatchedRule) : Bool :=
  left.position < right.position || (left.position = right.position && left.id ≤ right.id)

/-- The rule that decides on the place of a file, with what it asks for. -/
inductive LocationKind where
  | project
  | destination
  | preserve
deriving DecidableEq, Repr

/-- `winning_location_rule`: the first of the least. -/
def RuleEvaluation.winningLocationRule (evaluation : RuleEvaluation) :
    Option (LocationKind × MatchedRule) :=
  let candidates := [evaluation.preferProjectLocation.map (LocationKind.project, ·),
    evaluation.destination.map fun (_, rule) => (LocationKind.destination, rule),
    evaluation.preserveSubtree.map (LocationKind.preserve, ·)].filterMap id
  candidates.foldl (fun best candidate =>
    match best with
    | none => some candidate
    | some best => some (if best.2.isBefore candidate.2 then best else candidate)) none

/-- `push_applied_rule_reasons`. -/
def appliedRuleReasons (evaluation : RuleEvaluation) (winning : Option Nat) :
    List OrganizationReason :=
  let ifWinning := fun rule : Option MatchedRule =>
    (rule.filter fun rule => some rule.id = winning).toList
  let matched := evaluation.semanticOverrides
    ++ (evaluation.classifiedSupplier.map (·.2)).toList
    ++ (evaluation.classifiedCustomer.map (·.2)).toList
    ++ ifWinning evaluation.preferProjectLocation
    ++ ifWinning (evaluation.destination.map (·.2))
    ++ ifWinning evaluation.preserveSubtree
    ++ (evaluation.useYearFolders.map (·.2)).toList
  (dedupBy (·.id) (matched.insertionSort fun left right => left.isBefore right)).map fun rule =>
    reason "user_rule" ("Placed here because of your rule: " ++ trim rule.explanation)
      (some (toString rule.id))

end Zemo.Organizer
