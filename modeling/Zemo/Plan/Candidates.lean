import Mathlib.Data.List.Sort
import Zemo.Coordinator.Checks
import Zemo.Domain.Proposal
import Zemo.Lib.GreedyOrder
import Zemo.Organizer.PathSafety

set_option autoImplicit false

/-! # From a proposal to candidates

Every operation of an approved proposal that moves or renames a file becomes a candidate. A candidate
is blocked when a check of it fails, when another candidate has its destination, when something that
does not leave is at its destination, or when it waits for a blocked candidate. The others are put
in an order in which every destination is free when its turn comes, as far as there is one. -/

namespace Zemo

open Checked

/-! ## Paths as texts -/

/-- `split('/')` of `normalize_relative_string`: the components between separators of either kind. -/
def normalizeRelativeString (value : String) : RelPath :=
  (value.toList.splitOnP fun c => c = '/' || c = '\\').map String.ofList

/-- `destination_relative`, as the components of the joined text. -/
def destinationRelative (destination : List String) (filename : String) : RelPath :=
  (destination ++ [filename]).flatMap fun component =>
    (component.toList.splitOnP (· = '/')).map String.ofList

/-- The text of a path. -/
def pathText (path : RelPath) : String := "/".intercalate path

/-- The key of a path whose components may still have a separator of the other kind. -/
def FilePolicy.textKey (policy : FilePolicy) (path : RelPath) : PathKey :=
  policy.key (path.flatMap normalizeRelativeString)

/-- `classify_operation`. -/
def classifyOperation (source destination : RelPath) : ExecutionOperationKind :=
  let moved := source.dropLast ≠ destination.dropLast
  let renamed := source.getLast? ≠ destination.getLast?
  if moved ∧ renamed then .moveAndRename
  else if moved then .move
  else .rename

/-! ## The files a plan is made for -/

/-- The files below a root, with the names `read_dir` lists in each directory. -/
structure FileView (lower : String → String) where
  tree : Tree
  names : PathKey → List String
  mem_names : ∀ key component,
    (∃ name ∈ names key, lower name = component) ↔ tree.node (key ++ [component]) ≠ none
  nodup_names : ∀ key, ((names key).map lower).Nodup

/-- `case_insensitive_existing`: whether something is at a path, in any letter case. -/
def caseInsensitiveExisting (tree : Tree) (key : PathKey) : Except IoError Bool :=
  match tree.metadata key with
  | .ok _ => .ok true
  | .error .notFound => .ok false
  | .error e => .error e

/-! ## Planning -/

/-- What a new operation id is made for. -/
inductive StepName where
  | candidate (index : Nat)
  | stage (index : Nat)
  | directory (index : Nat)
  | cleanup (index : Nat)
deriving DecidableEq, Repr

/-- The identifiers of a new execution. No two operations get the same. -/
structure FreshIds where
  executionId : ExecutionId
  planId : PlanId
  step : StepName → OperationStepId
  step_injective : Function.Injective step
  /-- The text of the execution id. -/
  executionText : String
  /-- The name tried in an attempt for the staging path with this number. -/
  stagingName : Nat → Nat → String

/-- The safety policy, the identifiers, and the texts of input and output errors. -/
structure Planner where
  files : FilePolicy
  allowQualifiedCaseOnlyRename : Bool
  allowIndependentSafeSubset : Bool
  ids : FreshIds
  ioText : IoError → String

structure PlannedCandidate where
  operation : ExecutionOperation
  blocked : Bool
deriving DecidableEq

/-- The text of an error of the safety policy. -/
def SafetyPolicyError.text (ioText : IoError → String) : SafetyPolicyError → String
  | .invalidRelativePath => "the relative destination is invalid"
  | .protectedPath => "the path is protected by execution policy"
  | .sourceMissing => "the source no longer exists"
  | .linkedOrSpecialEntry => "the source is linked or is not a regular file"
  | .destinationExists => "the destination already exists"
  | .confirmationPhraseRequired => "explicit confirmation is required"
  | .invalidRoot => "the approved root is invalid"
  | .io e => "filesystem safety inspection failed: " ++ ioText e

/-- The text of an error of the platform reader. -/
def PlatformError.text (limitBytes : Nat) : PlatformError → String
  | .precondition message => "filesystem precondition failed: " ++ message
  | .verificationLimitExceeded =>
      "file exceeds the " ++ toString limitBytes ++ "-byte execution verification bound"

/-- The text of `ApplicationError::InvalidExecution`. -/
def invalidExecutionText : String := "filesystem execution state or plan integrity is invalid"

/-- Why a candidate is blocked. -/
structure Blocking where
  code : String
  message : String
  stale : Bool := false
deriving DecidableEq

/-- `block_operation`. -/
def ExecutionOperation.block (operation : ExecutionOperation) (why : Blocking) :
    ExecutionOperation :=
  { operation with
    status := if why.stale then .stale else .blocked
    errorCode := some why.code
    errorMessage := some (String.ofList (why.message.toList.take 2048)) }

/-- A candidate with the reason it is blocked for. -/
def PlannedCandidate.block (candidate : PlannedCandidate) (why : Blocking) : PlannedCandidate where
  operation := candidate.operation.block why
  blocked := true

/-- `execution_preconditions`. -/
def executionPreconditions (internalStaging : Bool) : List String :=
  ["source_exists", "source_identity_matches", "source_size_matches",
    "source_modified_time_matches", "source_content_hash_revalidated", "destination_absent",
    "same_volume", "single_link", "no_symlink_or_reparse_traversal", "no_overwrite"]
    ++ if internalStaging then ["application_controlled_staging_name"] else []

/-! ## Preflight -/

def digitValue (radix : Nat) (c : Char) : Option Nat :=
  let value :=
    if '0' ≤ c ∧ c ≤ '9' then some (c.toNat - '0'.toNat)
    else if 'a' ≤ c ∧ c ≤ 'z' then some (c.toNat - 'a'.toNat + 10)
    else if 'A' ≤ c ∧ c ≤ 'Z' then some (c.toNat - 'A'.toNat + 10)
    else none
  value.filter (· < radix)

/-- The number of a text of at least one digit. -/
def digitsValue (radix : Nat) (digits : List Char) : Option Nat :=
  if digits = [] then none
  else digits.foldlM (fun n c => (digitValue radix c).map (n * radix + ·)) 0

/-- `str::parse::<i128>`. -/
def parseI128 (value : String) : Option Int :=
  let parsed : Option Int :=
    match value.toList with
    | '-' :: digits => (digitsValue 10 digits).map fun n => -(n : Int)
    | '+' :: digits => (digitsValue 10 digits).map fun n => (n : Int)
    | digits => (digitsValue 10 digits).map fun n => (n : Int)
  parsed.filter fun n => -(2 : Int) ^ 127 ≤ n ∧ n < (2 : Int) ^ 127

/-- `modified_time_matches`. -/
def modifiedTimeMatches (expected : Option String) (observed : Option Int) : Bool :=
  match expected with
  | some expected => parseI128 expected = observed
  | none => true

/-- `u8::from_str_radix` of two characters, which takes a plus sign for the first. -/
def hexPair (high low : Char) : Option UInt8 :=
  if high = '+' then (digitValue 16 low).map UInt8.ofNat
  else do
    let h ← digitValue 16 high
    let l ← digitValue 16 low
    return UInt8.ofNat (h * 16 + l)

def hexPairs : List Char → Option (List UInt8)
  | [] => some []
  | [_] => none
  | high :: low :: rest => do
      let byte ← hexPair high low
      let bytes ← hexPairs rest
      return byte :: bytes

/-- `decode_hex_digest`. -/
def decodeHexDigest (value : String) : Option Bytes32 := do
  let bytes ← hexPairs value.toList
  if h : bytes.length = 32 then some ⟨bytes, h⟩ else none

section Preflight

variable (planner : Planner) (tree : Tree) (rootVolume : VolumeIdentity)

/-- `validate_destination_components`. -/
def validateDestinationComponents (destination : List String) (filename : String) :
    Except SafetyPolicyError Unit := do
  let pathPolicy : VirtualPathPolicy := {}
  (pathPolicy.validateUserDestination destination).mapError fun _ => .invalidRelativePath
  (pathPolicy.validateUserFilename filename).mapError fun _ => .invalidRelativePath
  require (VirtualPathPolicy.pathLengthUtf16 destination filename ≤ pathPolicy.maximumPathUtf16)
    .invalidRelativePath

/-- `live_source_fingerprint`. -/
def liveSourceFingerprint (source : ProposalSourceSnapshot) : Except Blocking FileFingerprint := do
  let path := normalizeRelativeString source.relativePath
  require (validRelative path = true)
    { code := "invalid_source_path", message := invalidExecutionText, stale := true }
  let found ← (planner.files.resolveExistingSource tree path).mapError fun e =>
    { code := "source_unavailable", message := e.text planner.ioText, stale := true }
  let fingerprint ← (planner.files.fingerprintStreaming found).mapError fun e =>
    { code := "source_fingerprint_failed"
      message := e.text planner.files.maximumRehashBytes
      stale := true }
  require (fingerprint.stableForApply = true
      ∧ fingerprint.volume.stableIdentifier = rootVolume.stableIdentifier
      ∧ fingerprint.byteSize = source.byteSize
      ∧ modifiedTimeMatches source.modifiedAt fingerprint.modifiedAtNs = true)
    { code := "source_drift"
      message := "Source identity, size, or modified time changed after proposal review."
      stale := true }
  match source.contentHash with
  | none => return fingerprint
  | some expectedHash => do
      let expected ← orError (decodeHexDigest expectedHash)
        { code := "invalid_snapshot_hash"
          message := "The proposal source hash is malformed."
          stale := true }
      require (fingerprint.contentDigest = some expected)
        { code := "source_hash_drift"
          message := "Source content hash changed after proposal review."
          stale := true }
      return fingerprint

/-- The operation of a candidate before any check. -/
def candidateOperation (index : Nat) (proposal : OrganizationProposalOperation) :
    ExecutionOperation where
  id := planner.ids.step (.candidate index)
  proposalOperationId := some proposal.id
  kind := classifyOperation (normalizeRelativeString proposal.source.relativePath)
    (destinationRelative proposal.proposedDestination proposal.proposedName)
  sourceRelativePath := some (normalizeRelativeString proposal.source.relativePath)
  destinationRelativePath := destinationRelative proposal.proposedDestination proposal.proposedName
  originalSourceRelativePath := some (normalizeRelativeString proposal.source.relativePath)
  expectedSourceHash := proposal.source.contentHash
  expectedSourceSize := some proposal.source.byteSize
  expectedSourceModifiedAt := proposal.source.modifiedAt
  liveFingerprint := none
  postFingerprint := none
  preconditions := executionPreconditions false
  dependencies := []
  sequence := 0
  status := .preflightOk
  directoryExistedBefore := none
  reason := some (String.ofList
    ((" ".intercalate (proposal.reasons.map (·.explanation))).toList.take 1024))
  errorCode := none
  errorMessage := none
  startedAt := none
  completedAt := none
  rolledBackAt := none

/-- The checks of `preflight_candidate`, in the order they are made. -/
def preflightChecks (proposal : OrganizationProposalOperation) : Except Blocking FileFingerprint := do
  let source := normalizeRelativeString proposal.source.relativePath
  let destination := destinationRelative proposal.proposedDestination proposal.proposedName
  require (proposal.stale = false)
    { code := "stale_source", message := "Source snapshot is stale.", stale := true }
  require ((proposal.needsReview = false ∧ proposal.conflictState.requiresReview = false)
      ∨ proposal.userOverride = true)
    { code := "proposal_needs_review"
      message := "The approved proposal operation still requires review." }
  require (source ≠ destination)
    { code := "no_effect", message := "The proposed operation has no filesystem effect." }
  require (planner.files.key source ≠ planner.files.textKey destination
      ∨ planner.allowQualifiedCaseOnlyRename = true)
    { code := "case_only_rename_unqualified"
      message := "Case-only rename is blocked until native behavior is proven safe." }
  (validateDestinationComponents proposal.proposedDestination proposal.proposedName).mapError
    fun e => { code := "invalid_destination", message := e.text planner.ioText }
  liveSourceFingerprint planner tree rootVolume proposal.source

/-- `preflight_candidate`. -/
def preflightCandidate (index : Nat) (proposal : OrganizationProposalOperation) :
    PlannedCandidate :=
  let operation := candidateOperation planner index proposal
  match preflightChecks planner tree rootVolume proposal with
  | .ok fingerprint =>
      { operation := { operation with liveFingerprint := some fingerprint }, blocked := false }
  | .error why => { operation := operation.block why, blocked := true }

end Preflight

/-! ## Collisions -/

section Collisions

variable (planner : Planner) (tree : Tree)

/-- The key of the destination of a candidate. -/
def Planner.destinationKey (candidate : PlannedCandidate) : PathKey :=
  planner.files.key candidate.operation.destinationRelativePath

/-- The key of the source of a candidate. -/
def Planner.sourceKey (candidate : PlannedCandidate) : Option PathKey :=
  candidate.operation.sourceRelativePath.map planner.files.key

/-- `detect_plan_collisions`. -/
def detectPlanCollisions (candidates : List PlannedCandidate) : List PlannedCandidate :=
  candidates.map fun candidate =>
    if candidate.blocked = false ∧ 1 < candidates.countP fun other =>
        other.blocked = false ∧ planner.destinationKey other = planner.destinationKey candidate then
      candidate.block
        { code := "duplicate_plan_destination"
          message :=
            "Multiple approved operations target the same case-insensitive destination." }
    else candidate

/-- `is_case_only_operation`. -/
def isCaseOnlyOperation (operation : ExecutionOperation) : Bool :=
  operation.sourceRelativePath.any fun source =>
    source ≠ operation.destinationRelativePath
      && planner.files.key source = planner.files.key operation.destinationRelativePath

/-- The candidate whose source is at a path: of several, the last. `open_` says which were not
    blocked when the sources were collected. -/
def occupantOf (candidates : List PlannedCandidate) (open_ : List Bool) (key : PathKey) :
    Option Nat :=
  (List.range candidates.length).reverse.find? fun index =>
    open_[index]? = some true ∧ candidates[index]?.bind planner.sourceKey = some key

/-- What the destination of a candidate asks for. -/
inductive DestinationVerdict where
  | free
  | after (id : OperationStepId)
  | blocked (why : Blocking)
deriving DecidableEq

/-- The verdict on a destination where something is. -/
def occupiedVerdict (candidates : List PlannedCandidate) (open_ : List Bool) (index : Nat)
    (candidate : PlannedCandidate) : DestinationVerdict :=
  match occupantOf planner candidates open_ (planner.destinationKey candidate) with
  | none =>
      .blocked
        { code := "destination_exists"
          message := "Destination already exists and is not vacated by this plan." }
  | some occupant =>
      if occupant = index ∧ planner.allowQualifiedCaseOnlyRename = true
          ∧ isCaseOnlyOperation planner candidate.operation = true then .free
      else
        match candidates[occupant]? with
        | none => .free
        | some other =>
            if occupant = index ∨ other.blocked = true then
              .blocked { code := "destination_exists", message := "Destination already exists." }
            else .after other.operation.id

/-- The verdict on the destination of a candidate. -/
def destinationVerdict (candidates : List PlannedCandidate) (open_ : List Bool) (index : Nat)
    (candidate : PlannedCandidate) : DestinationVerdict :=
  let destination := candidate.operation.destinationRelativePath
  if validRelative destination = false then
    .blocked { code := "invalid_destination", message := invalidExecutionText }
  else
    match caseInsensitiveExisting tree (planner.files.key destination) with
    | .ok true => occupiedVerdict planner candidates open_ index candidate
    | .ok false =>
        match planner.files.resolveAbsentDestination tree destination false with
        | .ok () => .free
        | .error e => .blocked { code := "unsafe_destination", message := e.text planner.ioText }
    | .error e =>
        .blocked { code := "destination_inspection_failed", message := planner.ioText e }

/-- A candidate with the verdict on its destination. -/
def PlannedCandidate.settle (candidate : PlannedCandidate) : DestinationVerdict → PlannedCandidate
  | .free => candidate
  | .after id =>
      { candidate with operation :=
          { candidate.operation with dependencies := candidate.operation.dependencies ++ [id] } }
  | .blocked why => candidate.block why

/-- The loop of `resolve_destination_dependencies` at one index. -/
def resolveAt (open_ : List Bool) (candidates : List PlannedCandidate) (index : Nat) :
    List PlannedCandidate :=
  match candidates[index]? with
  | none => candidates
  | some candidate =>
      if candidate.blocked then candidates
      else candidates.set index
        (candidate.settle (destinationVerdict planner tree candidates open_ index candidate))

/-- `resolve_destination_dependencies`. -/
def resolveDestinationDependencies (candidates : List PlannedCandidate) : List PlannedCandidate :=
  (List.range candidates.length).foldl
    (resolveAt planner tree (candidates.map fun candidate => !candidate.blocked)) candidates

/-- A round of `propagate_dependency_blocks`. -/
def propagateRound (candidates : List PlannedCandidate) : List PlannedCandidate :=
  let blockedIds := (candidates.filter (·.blocked)).map (·.operation.id)
  candidates.map fun candidate =>
    if candidate.blocked = false ∧ candidate.operation.dependencies.any (· ∈ blockedIds) then
      candidate.block
        { code := "blocked_dependency", message := "A destination dependency is blocked." }
    else candidate

/-- Rounds until one changes nothing, at most `fuel`. -/
def propagateFor : Nat → List PlannedCandidate → List PlannedCandidate
  | 0, candidates => candidates
  | fuel + 1, candidates =>
      let next := propagateRound candidates
      if next = candidates then candidates else propagateFor fuel next

/-- `propagate_dependency_blocks`: a round that changes something blocks a candidate, so there are
    no more rounds than candidates before the one that changes nothing. -/
def propagateDependencyBlocks (candidates : List PlannedCandidate) : List PlannedCandidate :=
  propagateFor (candidates.length + 1) candidates

/-! ## Order -/

/-- The text candidates are ordered by. -/
def Planner.orderText (candidate : PlannedCandidate) : String :=
  pathText ((planner.sourceKey candidate).getD [])

/-- The greedy order of candidates: ready ones first, by the key of the source and the id. -/
def orderRules : GreedyOrder.Rules PlannedCandidate OperationStepId where
  key := (·.operation.id)
  deps := (·.operation.dependencies)
  before := fun a b =>
    decide (planner.orderText a < planner.orderText b
      ∨ (planner.orderText a = planner.orderText b ∧ a.operation.id < b.operation.id))

/-- `dependency_order`: the candidates that can be ordered, and the cyclic ones. -/
def dependencyOrder (candidates : List PlannedCandidate) :
    List PlannedCandidate × List PlannedCandidate :=
  let r := GreedyOrder.order (orderRules planner) (candidates.filter fun c => !c.blocked)
  (r.1, r.2.insertionSort fun a b => planner.orderText a ≤ planner.orderText b)

end Collisions

end Zemo
