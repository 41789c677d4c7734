import Zemo.Organizer.Passes
import Zemo.Organizer.Tree

set_option autoImplicit false

/-! # Building a proposal

A full build compiles every file and runs the passes over all operations. An incremental build
compiles the files around those that changed, carries the other operations over from the revision
before, and runs the passes again; where it may not do that it falls back to a full build. -/

namespace Zemo.Organizer

structure OrganizationBuildRequest where
  proposalId : ProposalId
  revisionId : OrganizationRevisionId
  workspaceId : WorkspaceId
  rootId : RootId
  sourceScanId : ScanId
  revision : Nat
  createdAt : String
  updatedAt : String
  sourceSemanticVersion : Option String
  sourceRelationshipVersion : Option String
  preferences : OrganizationPreferences
  inputs : List OrganizationSourceInput
  overrides : List OrganizationProposalOverride
  previousOperations : List OrganizationProposalOperation
  consumerMode : Bool
  consumerRootKind : ConsumerRootKind

/-- What a build draws and asks while it runs: the identifiers of the operations, the answers of
    `is_cancelled`, and the order in which a hash map gives its values. -/
structure BuildRun where
  newId : Nat → ProposalItemId
  isCancelled : Nat → Bool := fun _ => false
  intoValues : List DraftOperation → List DraftOperation := id

/-- The same run, some questions later. -/
def BuildRun.later (run : BuildRun) (asked : Nat) : BuildRun :=
  { run with isCancelled := fun number => run.isCancelled (asked + number) }

/-- `ORGANIZATION_ENGINE_VERSION`. -/
def organizationEngineVersion : String := "m7-local-organizer-1"

/-- `ORGANIZATION_POLICY_VERSION`. -/
def organizationPolicyVersion : String := "m7-safety-policy-1"

namespace OrganizationBuildRequest

/-- The policy of a request. -/
def policy (request : OrganizationBuildRequest) : VirtualPathPolicy where
  maximumDepth := min 32 <|
    if request.consumerMode then 32 else max 2 (min 8 request.preferences.maximumDepth)

/-- The group size of a request. -/
def minimumGroupSize (request : OrganizationBuildRequest) : Nat :=
  max 1 (min 20 request.preferences.minimumGroupSize)

/-- The decision stored for a file: of several the last. -/
def overrideOf (request : OrganizationBuildRequest) (fileId : FileId) :
    Option OrganizationProposalOverride :=
  (request.overrides.filter fun user => user.fileId = fileId).getLast?

end OrganizationBuildRequest

variable (engine : EngineContext)

/-- The draft of the file that is compiled as the `position`-th. -/
def EngineContext.compileInput (run : BuildRun) (request : OrganizationBuildRequest)
    (input : OrganizationSourceInput) (position : Nat) : DraftOperation :=
  engine.compileOperation (run.newId position) input request.preferences request.policy
    (request.overrideOf input.fileId) request.consumerMode request.consumerRootKind

/-- The drafts of some files, compiled one after the other. -/
def EngineContext.compileInputs (run : BuildRun) (request : OrganizationBuildRequest)
    (inputs : List OrganizationSourceInput) : List DraftOperation :=
  inputs.mapIdx fun position input => engine.compileInput run request input position

/-- The passes before the names are settled. -/
def EngineContext.placeDrafts (request : OrganizationBuildRequest) (drafts : List DraftOperation) :
    List DraftOperation :=
  let grouped := engine.applyMinimumGroupPolicy request.minimumGroupSize drafts
  if request.consumerMode then
    engine.applyConsumerFolderBundlePolicy request.inputs request.consumerRootKind request.policy
      grouped
  else grouped

/-- The proposal of some operations. -/
def OrganizationBuildRequest.proposal (request : OrganizationBuildRequest)
    (status : OrganizationProposalStatus) (operations : List OrganizationProposalOperation) :
    OrganizationProposal where
  id := request.proposalId
  revisionId := request.revisionId
  workspaceId := request.workspaceId
  rootId := request.rootId
  sourceScanId := request.sourceScanId
  revision := request.revision
  status
  engineVersion := organizationEngineVersion
  policyVersion := organizationPolicyVersion
  sourceSemanticVersion := request.sourceSemanticVersion
  sourceRelationshipVersion := request.sourceRelationshipVersion
  createdAt := request.createdAt
  updatedAt := request.updatedAt
  summary := summarize operations
  diff := proposalDiff request.previousOperations operations
  nodes := buildVirtualTree operations
  operations

/-! ## Full builds -/

/-- The operations of a full build that is not cancelled. -/
def EngineContext.fullDrafts (run : BuildRun) (request : OrganizationBuildRequest) :
    List DraftOperation :=
  engine.resolveCollisions request.policy
    (engine.placeDrafts request (engine.compileInputs run request request.inputs))

/-- `build_full`. -/
def EngineContext.buildFull (run : BuildRun) (request : OrganizationBuildRequest) :
    OrganizationProposal :=
  match (List.range request.inputs.length).find? run.isCancelled with
  | some stopped =>
      request.proposal .cancelled
        ((engine.compileInputs run request (request.inputs.take stopped)).map (·.operation))
  | none =>
      request.proposal .readyForReview ((engine.fullDrafts run request).map (·.operation))

inductive ProposalRebuildMode where
  | full
  | incremental
deriving DecidableEq, Repr

structure OrganizationBuildOutcome where
  proposal : OrganizationProposal
  rebuildMode : ProposalRebuildMode
  rebuildReason : Option String
  dirtyFileCount : Nat
  affectedFileIds : List FileId
deriving DecidableEq

/-- The outcome of a full build. -/
def OrganizationBuildOutcome.ofFull (proposal : OrganizationProposal)
    (rebuildReason : Option String) : OrganizationBuildOutcome where
  proposal
  rebuildMode := .full
  rebuildReason
  dirtyFileCount := proposal.summary.filesAnalyzed
  affectedFileIds := []

/-- `build_with_mode`. -/
def EngineContext.buildWithMode (run : BuildRun) (request : OrganizationBuildRequest) :
    OrganizationBuildOutcome :=
  .ofFull (engine.buildFull run request) none

/-! ## The files around a change -/

/-- The name a folder is looked for under. -/
def prefixKey (segments : List String) : String :=
  "\\".intercalate (segments.map toAsciiLowercase)

/-- The keys of all folders of an operation, proposed and machine's. -/
def prefixKeys (operation : OrganizationProposalOperation) : List String :=
  (folderKeys operation.proposedDestination ++ folderKeys operation.machineDestination).map prefixKey

/-- The place the machine would give an operation. -/
def EngineContext.machineKey (operation : OrganizationProposalOperation) : String :=
  collisionKey engine.toLowercase operation.machineDestination operation.machineName

/-- Two operations name the same identity. -/
def sameIdentity (left right : Option String) : Bool :=
  left.any fun left => right.any fun right => toAsciiLowercase left = toAsciiLowercase right

/-- An operation has to do with another one: an identity, the machine's place or a folder. -/
def EngineContext.isNear (operation changed : OrganizationProposalOperation) : Bool :=
  sameIdentity operation.customerName changed.customerName
    || sameIdentity operation.supplierName changed.supplierName
    || sameIdentity operation.projectName changed.projectName
    || engine.machineKey operation = engine.machineKey changed
    || (prefixKeys operation).any (· ∈ prefixKeys changed)

/-- `expand_invalidation_neighborhood`. -/
def EngineContext.expandInvalidationNeighborhood (dirtyFileIds deletedFileIds : List FileId)
    (previousOperations : List OrganizationProposalOperation) (seedDrafts : List DraftOperation) :
    List FileId :=
  let changed := dirtyFileIds ++ deletedFileIds
  let absorbed := (changed.filterMap fun fileId =>
      (previousOperations.filter fun operation => operation.fileId = fileId).getLast?)
    ++ seedDrafts.map (·.operation)
  (changed ++ (previousOperations.filter fun operation =>
    operation.fileId ∉ changed && absorbed.any (engine.isNear operation)).map (·.fileId)).dedup

/-- `compute_invalidation_neighborhood`. -/
def EngineContext.computeInvalidationNeighborhood (dirtyFileIds deletedFileIds : List FileId)
    (previousOperations : List OrganizationProposalOperation) : List FileId :=
  engine.expandInvalidationNeighborhood dirtyFileIds deletedFileIds previousOperations []

/-! ## Incremental builds -/

structure IncrementalOrganizationBuildRequest where
  base : OrganizationBuildRequest
  dirtyFileIds : List FileId
  neighborhoodInputs : List OrganizationSourceInput
  deletedFileIds : List FileId
  forceFullRebuild : Bool

inductive IncrementalFallbackReason where
  | noPreviousProposal
  | emptyDirtySet
  | dirtySetTooLarge (dirty limit : Nat)
  | neighborhoodTooLarge (neighborhood limit : Nat)
  | preferencesOrRulesChanged
  | cancelled
deriving DecidableEq, Repr

/-- `as_str`. -/
def IncrementalFallbackReason.asStr : IncrementalFallbackReason → String
  | .noPreviousProposal => "no_previous_proposal"
  | .emptyDirtySet => "empty_dirty_set"
  | .dirtySetTooLarge dirty limit =>
      "dirty_set_too_large:" ++ toString dirty ++ ">" ++ toString limit
  | .neighborhoodTooLarge neighborhood limit =>
      "neighborhood_too_large:" ++ toString neighborhood ++ ">" ++ toString limit
  | .preferencesOrRulesChanged => "preferences_or_rules_changed"
  | .cancelled => "cancelled"

/-- `INCREMENTAL_NEIGHBORHOOD_LIMIT`. -/
def incrementalNeighborhoodLimit : Nat := 2048

/-- `INCREMENTAL_DIRTY_FILE_LIMIT`. -/
def incrementalDirtyFileLimit : Nat := 512

namespace IncrementalOrganizationBuildRequest

variable (request : IncrementalOrganizationBuildRequest)

/-- The count of changed files. -/
def dirtyCount : Nat := request.dirtyFileIds.dedup.length + request.deletedFileIds.length

/-- The files that may not be carried over. -/
def affected (seedDrafts : List DraftOperation) : List FileId :=
  engine.expandInvalidationNeighborhood (request.dirtyFileIds ++ request.deletedFileIds)
    request.deletedFileIds request.base.previousOperations seedDrafts

end IncrementalOrganizationBuildRequest

/-- The draft that was compiled for a file: of several the last. -/
def draftOf (drafts : List DraftOperation) (fileId : FileId) : Option DraftOperation :=
  (drafts.filter fun draft => draft.operation.fileId = fileId).getLast?

/-- The operations of the revision before, each replaced by its new draft where there is one, and
    the drafts that are left. `position` numbers the identifiers that are drawn. -/
def carryOver (run : BuildRun) (deleted : List FileId) :
    Nat → List DraftOperation → List OrganizationProposalOperation →
    List DraftOperation × List DraftOperation
  | _, recompiled, [] => ([], recompiled)
  | position, recompiled, previous :: rest =>
      if previous.fileId ∈ deleted then carryOver run deleted position recompiled rest
      else
        match draftOf recompiled previous.fileId with
        | some draft =>
            let left := recompiled.filter fun other => other.operation.fileId ≠ previous.fileId
            let (drafts, left) := carryOver run deleted position left rest
            (draft :: drafts, left)
        | none =>
            let (drafts, left) := carryOver run deleted (position + 1) recompiled rest
            (draftFromPreviousOperation (run.newId position) previous :: drafts, left)

/-- All drafts of an incremental build, before the passes. -/
def IncrementalOrganizationBuildRequest.assembled (run : BuildRun)
    (request : IncrementalOrganizationBuildRequest) (seedDrafts : List DraftOperation) :
    List DraftOperation :=
  let (carried, left) := carryOver run request.deletedFileIds seedDrafts.length seedDrafts
    request.base.previousOperations
  let fresh := dedupBy (·.operation.fileId)
    ((run.intoValues (left.filter fun draft =>
        draftOf left draft.operation.fileId = some draft)).filter fun draft =>
      draft.operation.fileId ∉ request.deletedFileIds)
  carried ++ fresh.filter fun draft =>
    draft.operation.fileId ∉ carried.map (·.operation.fileId)

/-- The drafts of an incremental build that goes through. -/
def EngineContext.incrementalDrafts (run : BuildRun)
    (request : IncrementalOrganizationBuildRequest) : List DraftOperation :=
  let seedDrafts := engine.compileInputs run request.base request.neighborhoodInputs
  engine.resolveCollisions request.base.policy
    (resetCollisionNamesForNeighborhood (request.affected engine seedDrafts)
      (engine.placeDrafts request.base (request.assembled run seedDrafts)))

/-- The reason to fall back to a full build, and how often `is_cancelled` was asked until then. -/
def EngineContext.fallbackReason (run : BuildRun) (request : IncrementalOrganizationBuildRequest) :
    Option (IncrementalFallbackReason × Nat) :=
  let inputs := request.neighborhoodInputs.length
  let seedDrafts := engine.compileInputs run request.base request.neighborhoodInputs
  let neighborhood := (request.affected engine seedDrafts).length
  if request.forceFullRebuild then some (.preferencesOrRulesChanged, 0)
  else if request.base.previousOperations = [] then some (.noPreviousProposal, 0)
  else if request.dirtyFileIds = [] ∧ request.deletedFileIds = [] then some (.emptyDirtySet, 0)
  else if incrementalDirtyFileLimit < request.dirtyCount then
    some (.dirtySetTooLarge request.dirtyCount incrementalDirtyFileLimit, 0)
  else
    match (List.range inputs).find? run.isCancelled with
    | some stopped => some (.cancelled, stopped + 1)
    | none =>
        if incrementalNeighborhoodLimit < neighborhood then
          some (.neighborhoodTooLarge neighborhood incrementalNeighborhoodLimit, inputs)
        else if run.isCancelled inputs then some (.cancelled, inputs + 1)
        else none

/-- `build_incremental`. -/
def EngineContext.buildIncremental (run : BuildRun)
    (request : IncrementalOrganizationBuildRequest) : OrganizationBuildOutcome :=
  match engine.fallbackReason run request with
  | some (fallback, asked) =>
      .ofFull (engine.buildFull (run.later asked) request.base) (some fallback.asStr)
  | none =>
      let seedDrafts := engine.compileInputs run request.base request.neighborhoodInputs
      { proposal := request.base.proposal .readyForReview
          ((engine.incrementalDrafts run request).map (·.operation))
        rebuildMode := .incremental
        rebuildReason := none
        dirtyFileCount := request.dirtyCount
        affectedFileIds := request.affected engine seedDrafts }

end Zemo.Organizer
