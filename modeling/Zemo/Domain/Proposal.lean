import Mathlib.Data.Rat.Init
import Zemo.Domain.Execution
import Zemo.Lib.Checked

set_option autoImplicit false

/-! # Organization proposals

A proposal says, for the files of a root, where each should go and under which name. It is reviewed,
corrected by overrides of the user and approved before an execution is prepared from it. -/

namespace Zemo

abbrev FileId := Nat

/-! ## States -/

inductive OrganizationProposalStatus where
  | draft
  | readyForReview
  | reviewed
  | approvedForFutureApply
  | superseded
  | cancelled
deriving DecidableEq, Repr

inductive ProposalOperationKind where
  | moveProposal
  | renameProposal
  | createFolderProposal
  | keepInPlace
  | toReview
  | noAction
deriving DecidableEq, Repr

inductive ProposalConfidenceLevel where
  | veryHigh
  | high
  | medium
  | low
deriving DecidableEq, Repr

inductive ProposalConflictState where
  | none
  | autoResolved
  | destinationCollision
  | invalidPath
  | pathTooLong
  | staleSource
deriving DecidableEq, Repr

/-- `requires_review`. -/
def ProposalConflictState.requiresReview : ProposalConflictState → Bool
  | .destinationCollision | .invalidPath | .pathTooLong | .staleSource => true
  | _ => false

inductive ProposalOverrideAction where
  | destination
  | rename
  | destinationAndRename
  | keepInPlace
  | toReview
  | reject
deriving DecidableEq, Repr

/-! ## Records -/

structure OrganizationReason where
  code : String
  explanation : String
  evidenceReferences : List String
deriving DecidableEq, Repr

structure ProposalSourceSnapshot where
  relativePath : String
  contentHash : Option String
  byteSize : Nat
  modifiedAt : Option String
deriving DecidableEq, Repr

/-- The scores are floating point numbers in the source. -/
structure OrganizationProposalOperation where
  id : ProposalItemId
  fileId : FileId
  fileVersionId : String
  source : ProposalSourceSnapshot
  sourceName : String
  machineDestination : List String
  machineName : String
  proposedDestination : List String
  proposedName : String
  operationKind : ProposalOperationKind
  confidenceScore : Rat
  confidenceLevel : ProposalConfidenceLevel
  reasons : List OrganizationReason
  conflictState : ProposalConflictState
  needsReview : Bool
  stale : Bool
  userOverride : Bool
  disruptionScore : Rat
  proposedPathLength : Nat
  proposedDepth : Nat
  semanticContext : String
  documentType : String
  customerName : Option String
  supplierName : Option String
  projectName : Option String
  duplicateGroupId : Option String
  duplicateCanonical : Bool
deriving DecidableEq

structure OrganizationProposalOverride where
  fileId : FileId
  action : ProposalOverrideAction
  destination : Option (List String)
  proposedName : Option String
  reason : Option String
deriving DecidableEq, Repr

/-- `is_rename`: the proposed name is another one, letter case aside. -/
def OrganizationProposalOperation.isRename (operation : OrganizationProposalOperation) : Bool :=
  operation.sourceName.toList.map Char.toLower ≠ operation.proposedName.toList.map Char.toLower

inductive VirtualNodeKind where
  | root
  | folder
  | file
deriving DecidableEq, Repr

structure VirtualProposalNode where
  id : Nat
  parentId : Option Nat
  kind : VirtualNodeKind
  name : String
  virtualPath : String
  operationId : Option ProposalItemId
  childCount : Nat
  needsReviewCount : Nat
  conflictCount : Nat
deriving DecidableEq, Repr

structure OrganizationProposalSummary where
  filesAnalyzed : Nat := 0
  proposedMoves : Nat := 0
  proposedRenames : Nat := 0
  unchanged : Nat := 0
  needsReview : Nat := 0
  unresolved : Nat := 0
  conflicts : Nat := 0
  highConfidence : Nat := 0
  mediumConfidence : Nat := 0
  lowConfidence : Nat := 0
  duplicateNoAction : Nat := 0
  averageDepth : Rat := 0
  maximumDepth : Nat := 0
deriving DecidableEq

structure OrganizationProposalDiff where
  destinationsChanged : Nat := 0
  filesAdded : Nat := 0
  conflictsResolved : Nat := 0
  movedToReview : Nat := 0
deriving DecidableEq, Repr

structure OrganizationProposal where
  id : ProposalId
  revisionId : OrganizationRevisionId
  workspaceId : WorkspaceId
  rootId : RootId
  sourceScanId : ScanId
  revision : Nat
  status : OrganizationProposalStatus
  engineVersion : String
  policyVersion : String
  sourceSemanticVersion : Option String
  sourceRelationshipVersion : Option String
  createdAt : String
  updatedAt : String
  summary : OrganizationProposalSummary
  diff : OrganizationProposalDiff
  nodes : List VirtualProposalNode
  operations : List OrganizationProposalOperation
deriving DecidableEq

end Zemo

/-! ## The proposal tables

What a proposal has to satisfy to be stored: the checks that are made before anything is written,
and those the tables of revisions and operations make themselves. -/

namespace Zemo

open Checked

inductive ProposalStoreError where
  | invalidProposal
  | sqlite
deriving DecidableEq, Repr

/-! ## Overrides -/

def OrganizationProposalOverride.destinationValid (value : OrganizationProposalOverride) : Bool :=
  value.destination.all fun segments =>
    segments ≠ [] && segments.length ≤ 8
      && segments.all fun segment => segment ≠ "" && segment.toList.length ≤ 512

def OrganizationProposalOverride.nameValid (value : OrganizationProposalOverride) : Bool :=
  value.proposedName.all fun name => name ≠ "" && name.toList.length ≤ 512

def OrganizationProposalOverride.requiredFields (value : OrganizationProposalOverride) : Bool :=
  match value.action with
  | .destination => value.destination.isSome
  | .rename => value.proposedName.isSome
  | .destinationAndRename => value.destination.isSome && value.proposedName.isSome
  | .keepInPlace | .toReview | .reject => true

/-- `validate_override`. -/
def validateOverride (value : OrganizationProposalOverride) : Except ProposalStoreError Unit :=
  require (value.destinationValid = true ∧ value.nameValid = true ∧ value.requiredFields = true)
    .invalidProposal

/-! ## Proposals -/

/-- The trigger kinds the table of revisions knows. -/
def storedTriggerKinds : List String :=
  ["initial", "manual_recompute", "semantic_changed", "relationships_changed", "user_override",
    "algorithm_changed"]

/-- `validate_proposal`. -/
def validateProposal (proposal : OrganizationProposal) (triggerKind : String) :
    Except ProposalStoreError Unit := do
  require (triggerKind ∈ storedTriggerKinds ∧ proposal.revision ≠ 0
    ∧ proposal.engineVersion ≠ "" ∧ proposal.engineVersion.utf8ByteSize ≤ 64
    ∧ proposal.policyVersion ≠ "" ∧ proposal.policyVersion.utf8ByteSize ≤ 64
    ∧ proposal.operations.length = proposal.summary.filesAnalyzed
    ∧ proposal.summary.maximumDepth ≤ 8) .invalidProposal
  let operationIds := proposal.operations.map (·.id)
  require (operationIds.dedup.length = proposal.operations.length
    ∧ ∀ node ∈ proposal.nodes, ∀ id ∈ node.operationId, id ∈ operationIds) .invalidProposal

/-- The checks of the table of revisions. -/
def checkRevisionRow (proposal : OrganizationProposal) (triggerKind : String) :
    Except ProposalStoreError Unit :=
  require (0 < proposal.revision ∧ triggerKind ∈ storedTriggerKinds
    ∧ 0 ≤ proposal.summary.averageDepth ∧ proposal.summary.averageDepth ≤ 8
    ∧ proposal.summary.maximumDepth ≤ 8) .sqlite

/-- The checks of the table of operations. -/
def checkOperationRow (operation : OrganizationProposalOperation) :
    Except ProposalStoreError Unit :=
  require (1 ≤ operation.proposedPathLength ∧ operation.proposedDepth ≤ 8) .sqlite

/-- `persist_organization_proposal_with_meta`: whether the proposal goes into its tables, where the
    identifier of an operation is the key of its row. -/
def persistOrganizationProposalWithMeta (proposal : OrganizationProposal) (triggerKind : String) :
    Except ProposalStoreError Unit := do
  validateProposal proposal triggerKind
  checkRevisionRow proposal triggerKind
  forM proposal.operations checkOperationRow
  require (proposal.operations.map (·.id)).Nodup .sqlite

/-! ## Revisions built on an earlier one -/

/-- A revision as it is stored: the rows of its operations, and the counts of its own row. -/
structure StoredRevision where
  operations : List OrganizationProposalOperation
  summary : OrganizationProposalSummary
deriving DecidableEq

/-- `memory_unchanged`: the identifier a proposal has for a file that did not change. -/
def memoryUnchanged (proposal : OrganizationProposal) (changed : List FileId) (fileId : FileId) :
    Option ProposalItemId :=
  (proposal.operations.filter fun operation =>
    operation.fileId ∉ changed && operation.fileId = fileId).getLast?.map (·.id)

/-- A row of the revision before, copied under the identifier the proposal has for its file. -/
def copiedRow (newRowId : ProposalItemId → ProposalItemId) (proposal : OrganizationProposal)
    (changed : List FileId) (row : OrganizationProposalOperation) :
    OrganizationProposalOperation :=
  { row with id := (memoryUnchanged proposal changed row.fileId).getD (newRowId row.id) }

/-- The rows of a revision that is built on an earlier one: those of the files that did not change
    are copied, the others come from the proposal. -/
def incrementalRows (newRowId : ProposalItemId → ProposalItemId) (proposal : OrganizationProposal)
    (previousRows : List OrganizationProposalOperation) (changed : List FileId) :
    List OrganizationProposalOperation :=
  (previousRows.filter fun row => row.fileId ∉ changed).map (copiedRow newRowId proposal changed)
    ++ proposal.operations.filter fun operation => operation.fileId ∈ changed

/-- `persist_organization_proposal_incremental`. -/
def persistOrganizationProposalIncremental (newRowId : ProposalItemId → ProposalItemId)
    (proposal : OrganizationProposal) (triggerKind : String)
    (previousRows : List OrganizationProposalOperation) (changed : List FileId) :
    Except ProposalStoreError StoredRevision := do
  validateProposal proposal triggerKind
  checkRevisionRow proposal triggerKind
  let rows := incrementalRows newRowId proposal previousRows changed
  forM rows checkOperationRow
  require (rows.map (·.id)).Nodup .sqlite
  return { operations := rows, summary := proposal.summary }

/-! ## What is accepted -/

/-- The row of an operation is accepted. -/
def FitsTable (operation : OrganizationProposalOperation) : Prop :=
  operation.proposedDepth ≤ 8 ∧ 1 ≤ operation.proposedPathLength

instance (operation : OrganizationProposalOperation) : Decidable (FitsTable operation) :=
  inferInstanceAs (Decidable (_ ∧ _))

theorem checkOperationRow_ok {operation : OrganizationProposalOperation} :
    checkOperationRow operation = .ok () ↔ FitsTable operation := by
  rw [checkOperationRow, require_eq_ok, FitsTable, and_comm]

theorem persistOrganizationProposalIncremental_ok {newRowId : ProposalItemId → ProposalItemId}
    {proposal : OrganizationProposal} {triggerKind : String}
    {previousRows : List OrganizationProposalOperation} {changed : List FileId}
    {revision : StoredRevision}
    (h : persistOrganizationProposalIncremental newRowId proposal triggerKind previousRows changed
      = .ok revision) :
    revision.operations = incrementalRows newRowId proposal previousRows changed
      ∧ revision.summary = proposal.summary := by
  simp only [persistOrganizationProposalIncremental, test_bind_eq_ok] at h
  obtain ⟨-, -, -, -, hrevision⟩ := h
  obtain rfl := Except.ok.inj hrevision
  exact ⟨rfl, rfl⟩

/-- What an override that was accepted looks like. -/
structure StoredOverride (value : OrganizationProposalOverride) : Prop where
  shallow : ∀ segments ∈ value.destination, segments.length ≤ 8
  named : ∀ name ∈ value.proposedName, name ≠ ""
  destination : value.action = .destination ∨ value.action = .destinationAndRename →
    value.destination.isSome = true
  name : value.action = .rename ∨ value.action = .destinationAndRename →
    value.proposedName.isSome = true

theorem validateOverride_ok {value : OrganizationProposalOverride}
    (h : validateOverride value = .ok ()) : StoredOverride value := by
  simp only [validateOverride, require_eq_ok, OrganizationProposalOverride.destinationValid,
    OrganizationProposalOverride.nameValid, OrganizationProposalOverride.requiredFields,
    Option.all_eq_true, Bool.and_eq_true, decide_eq_true_eq] at h
  obtain ⟨hdestination, hname, hrequired⟩ := h
  refine ⟨fun segments hsome => (hdestination segments hsome).1.2,
    fun name hsome => (hname name hsome).1, fun haction => ?_, fun haction => ?_⟩
  all_goals
    rcases haction with haction | haction <;> rw [haction] at hrequired <;>
      simp_all only [Bool.and_eq_true]

end Zemo
