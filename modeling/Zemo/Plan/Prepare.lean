import Mathlib.Order.Lattice.Nat
import Zemo.Coordinator.PlanMaterial
import Zemo.Plan.Candidates

set_option autoImplicit false

/-! # The plan of an execution

`prepare_execution` turns the candidates that are not blocked into a sequence of operations: first
the directories it has to make, then the moves in their order, where a rename that only changes the
letter case goes through a staging path, then the cyclic moves, all of them to staging paths before
any of them to its destination, and last the removal of the source directories that are left empty.
The blocked candidates follow and are never run. -/

namespace Zemo

open Checked

section Plan

variable (planner : Planner)

/-! ## Staging -/

/-- The attempts of `unique_staging_path`, one for each name. -/
def firstStagingPath (tree : Tree) (reserved : List RelPath) :
    List String → Except ApplicationError RelPath
  | [] => .error .executionPreflightBlocked
  | name :: rest => do
      let candidate := [stagingDirectoryName, planner.ids.executionText, name]
      let key ← relativePath planner.files candidate
      if reserved.any fun existing => planner.files.key existing = key then
        firstStagingPath tree reserved rest
      else do
        let existing ← raise .io (caseInsensitiveExisting tree key)
        if existing = false
            ∧ (planner.files.resolveAbsentDestination tree candidate true).isOk = true then
          return candidate
        else firstStagingPath tree reserved rest

/-- `unique_staging_path`. -/
def uniqueStagingPath (tree : Tree) (reserved : List RelPath) :
    Except ApplicationError RelPath :=
  firstStagingPath planner tree reserved
    ((List.range 16).map (planner.ids.stagingName reserved.length))

/-- The move of a file to its staging path. -/
def stageOperation (number : Nat) (operation : ExecutionOperation) (source path : RelPath)
    (dependencies : List OperationStepId) (reason : String) : ExecutionOperation where
  id := planner.ids.step (.stage number)
  proposalOperationId := none
  kind := .internalStage
  sourceRelativePath := some source
  destinationRelativePath := path
  originalSourceRelativePath := some source
  expectedSourceHash := operation.expectedSourceHash
  expectedSourceSize := operation.expectedSourceSize
  expectedSourceModifiedAt := operation.expectedSourceModifiedAt
  liveFingerprint := operation.liveFingerprint
  postFingerprint := none
  preconditions := executionPreconditions true
  dependencies := dependencies
  sequence := 0
  status := .preflightOk
  directoryExistedBefore := none
  reason := some reason
  errorCode := none
  errorMessage := none
  startedAt := none
  completedAt := none
  rolledBackAt := none

/-- The staging of a rename that only changes the letter case. -/
def caseStage (number : Nat) (operation : ExecutionOperation) (source path : RelPath) :
    ExecutionOperation :=
  stageOperation planner number operation source path operation.dependencies
    "Qualification-only case rename staging transition."

/-- The move that ends such a rename. -/
def caseFinal (stage operation : ExecutionOperation) : ExecutionOperation :=
  { operation with
    sourceRelativePath := some stage.destinationRelativePath
    dependencies := [stage.id]
    reason := some "Qualification-only final case rename transition." }

/-- The staging of a move of a cycle. -/
def cycleStage (number : Nat) (operation : ExecutionOperation) (source path : RelPath) :
    ExecutionOperation :=
  stageOperation planner number operation source path [] "Internal collision-safe staging step."

/-- The ordered operations, and the staging paths in use after them. -/
def stageOrdered (tree : Tree) : List PlannedCandidate → List RelPath →
    Except ApplicationError (List ExecutionOperation × List RelPath)
  | [], reserved => .ok ([], reserved)
  | candidate :: rest, reserved => do
      let operation := candidate.operation
      if planner.allowQualifiedCaseOnlyRename = true
          ∧ isCaseOnlyOperation planner operation = true then
        let source ← orError operation.sourceRelativePath .invalidExecution
        let path ← uniqueStagingPath planner tree reserved
        let stage := caseStage planner reserved.length operation source path
        let (operations, paths) ← stageOrdered tree rest (reserved ++ [path])
        return (stage :: caseFinal stage operation :: operations, paths)
      else
        let (operations, paths) ← stageOrdered tree rest reserved
        return (operation :: operations, paths)

/-- The stages of the cyclic moves, the moves from the staging paths, and the paths in use. -/
def stageCyclic (tree : Tree) : List PlannedCandidate → List RelPath →
    Except ApplicationError
      (List ExecutionOperation × List ExecutionOperation × List RelPath)
  | [], reserved => .ok ([], [], reserved)
  | candidate :: rest, reserved => do
      let source ← orError candidate.operation.sourceRelativePath .invalidExecution
      let path ← uniqueStagingPath planner tree reserved
      let stage := cycleStage planner reserved.length candidate.operation source path
      let (stages, finals, paths) ← stageCyclic tree rest (reserved ++ [path])
      return (stage :: stages,
        { candidate.operation with sourceRelativePath := some path } :: finals, paths)

/-- The operations that move files, and the staging paths. -/
def executableOperations (tree : Tree) (candidates : List PlannedCandidate) :
    Except ApplicationError (List ExecutionOperation × List RelPath) := do
  let (ordered, cyclic) := dependencyOrder planner candidates
  let (direct, reserved) ← stageOrdered planner tree ordered []
  let (stages, finals, paths) ← stageCyclic planner tree cyclic reserved
  -- a final move of a cycle waits for every stage
  let waiting := finals.map fun operation =>
    { operation with dependencies := stages.map (·.id) }
  return (direct ++ stages ++ waiting, paths)

/-! ## Directories -/

/-- The proper prefixes of a path but the empty one. -/
def properPrefixes (path : RelPath) : List RelPath :=
  (path.inits.filter fun p => p ≠ [] ∧ p.length < path.length)

/-- A prefix among those collected: of two with one key the smaller text stays. -/
def insertPrefix (collected : List RelPath) (path : RelPath) : List RelPath :=
  if collected.any fun q => planner.files.key q = planner.files.key path then
    collected.map fun q =>
      if planner.files.key q = planner.files.key path ∧ pathText path < pathText q then path else q
  else collected ++ [path]

/-- By depth, then by text. -/
def shallowFirst (p q : RelPath) : Bool :=
  decide (p.length < q.length ∨ (p.length = q.length ∧ pathText p ≤ pathText q))

/-- `directory_prefixes`. -/
def directoryPrefixes (destinations : List RelPath) : Except ApplicationError (List RelPath) := do
  let all := destinations.flatMap properPrefixes
  forM all fun p => discard (relativePath planner.files p)
  return (all.foldl (insertPrefix planner) []).insertionSort (shallowFirst · ·)

/-- The directories among the prefixes that are not there yet. -/
def missingDirectories (tree : Tree) : List RelPath → Except ApplicationError (List RelPath)
  | [] => .ok []
  | path :: rest => do
      let key ← relativePath planner.files path
      match tree.metadata key with
      | .ok .dir => missingDirectories tree rest
      | .ok (.leaf _) => .error .invalidExecution
      | .error .notFound => do
          raise .safety
            (planner.files.resolveAbsentDestination tree path (startsWithStaging path))
          let missing ← missingDirectories tree rest
          return path :: missing
      | .error e => .error (.safety (.io e))

def directoryOperation (number : Nat) (path : RelPath) : ExecutionOperation where
  id := planner.ids.step (.directory number)
  proposalOperationId := none
  kind := .createDirectory
  sourceRelativePath := none
  destinationRelativePath := path
  originalSourceRelativePath := none
  expectedSourceHash := none
  expectedSourceSize := none
  expectedSourceModifiedAt := none
  liveFingerprint := none
  postFingerprint := none
  preconditions := ["destination_absent", "parent_inside_approved_root",
    "no_symlink_or_reparse_traversal", "remove_on_rollback_only_if_empty"]
  dependencies := []
  sequence := 0
  status := .preflightOk
  directoryExistedBefore := some false
  reason := some (if startsWithStaging path then "Application-controlled staging directory."
    else "Approved destination directory required by the frozen plan.")
  errorCode := none
  errorMessage := none
  startedAt := none
  completedAt := none
  rolledBackAt := none

/-- `plan_directories`: the operations, and how many directories the user's destinations need. -/
def planDirectories (tree : Tree) (allDestinations userDestinations : List RelPath) :
    Except ApplicationError (List ExecutionOperation × Nat) := do
  let userPrefixes ← directoryPrefixes planner userDestinations
  let allPrefixes ← directoryPrefixes planner allDestinations
  let missing ← missingDirectories planner tree allPrefixes
  return (missing.mapIdx (directoryOperation planner), missing.countP (· ∈ userPrefixes))

/-! ## Cleanup -/

/-- `source_cleanup_top_level_is_protected`. -/
def sourceCleanupTopLevelIsProtected (value : String) : Bool :=
  value.toList.head? = some '.'
    || String.ofList (value.toList.map Char.toLower) ∈ ["documents", "images", "pictures", "photos",
      "vidéos", "videos", "archives", "installateurs", "à vérifier", "a verifier", "développement",
      "developpement", "applications", "library", "system", "windows", "program files",
      "program files (x86)"]

/-- The length of the longest path of the tree. -/
def Tree.depth (tree : Tree) : Nat := tree.entries.keys.sup List.length

/-- `collect_fully_planned_directory_tree`: the directories below one and itself, when all files in
    them leave and no destination is in them. Nothing is deeper than the tree, so a fuel above its
    depth is enough. -/
def collectFullyPlannedDirectoryTree (view : FileView planner.files.lower)
    (plannedSources destinations : List RelPath) : Nat → RelPath → Option (List RelPath)
  | 0, _ => none
  | fuel + 1, directory =>
      if destinations.any (directory.isPrefixOf ·) ∨ validRelative directory = false then none
      else
        let key := planner.files.key directory
        match view.tree.metadata key with
        | .ok .dir => do
            let found ← ((view.names key).insertionSort (· ≤ ·)).mapM fun name =>
              let child := directory ++ normalizeRelativeString name
              match view.tree.metadata (key ++ [planner.files.lower name]) with
              | .ok .dir =>
                  collectFullyPlannedDirectoryTree view plannedSources destinations fuel child
              | .ok (.leaf (.file _)) => if child ∈ plannedSources then some [] else none
              | _ => none
            return found.flatten ++ [directory]
        | _ => none

/-- By depth, the deepest first, then by text. -/
def deepestFirst (p q : RelPath) : Bool :=
  decide (q.length < p.length ∨ (p.length = q.length ∧ pathText p ≤ pathText q))

def cleanupOperation (number : Nat) (path : RelPath) : ExecutionOperation where
  id := planner.ids.step (.cleanup number)
  proposalOperationId := none
  kind := .removeDirectoryIfEmpty
  sourceRelativePath := some path
  destinationRelativePath := path
  originalSourceRelativePath := some path
  expectedSourceHash := none
  expectedSourceSize := none
  expectedSourceModifiedAt := none
  liveFingerprint := none
  postFingerprint := none
  preconditions := ["source_directory_is_unlinked",
    "source_directory_is_empty_after_planned_moves"]
  dependencies := []
  sequence := 0
  status := .preflightOk
  directoryExistedBefore := some true
  reason := some "Remove an emptied source folder so Ranger cleans the visible folder tree."
  errorCode := none
  errorMessage := none
  startedAt := none
  completedAt := none
  rolledBackAt := none

/-- The sources the user's operations of a plan move. -/
def plannedSources (executable : List ExecutionOperation) : List RelPath :=
  (executable.filter fun operation =>
      operation.proposalOperationId.isSome ∧ operation.kind ≠ .internalStage).filterMap
    fun operation => operation.originalSourceRelativePath.or operation.sourceRelativePath

/-- The source directories a plan leaves empty, in the order they are removed. -/
def removableDirectories (view : FileView planner.files.lower)
    (sources destinations : List RelPath) : List RelPath :=
  let tops := ((sources.filterMap (·.head?)).filter fun top =>
    top ≠ "" ∧ sourceCleanupTopLevelIsProtected top = false).dedup.insertionSort (· ≤ ·)
  let removable := tops.flatMap fun top =>
    (collectFullyPlannedDirectoryTree planner view sources destinations (view.tree.depth + 1)
      [top]).getD []
  (removable.insertionSort (deepestFirst · ·)).dedup

/-- `plan_source_directory_cleanup`. -/
def planSourceDirectoryCleanup (view : FileView planner.files.lower)
    (executable : List ExecutionOperation) (userDestinations : List RelPath) :
    List ExecutionOperation :=
  (removableDirectories planner view (plannedSources executable) userDestinations).mapIdx
    (cleanupOperation planner)

/-! ## The plan -/

/-- What `prepare_execution` reads besides the policy. -/
structure PlanContext where
  applyGate : Except ApplicationError Unit
  blockingExecutionExists : Bool
  proposal : OrganizationProposal
  revision : Nat
  /-- `validate_root` of the root the proposal is for. -/
  canonicalRoot : Except SafetyPolicyError (NativePath × String)
  volume : Except PlatformError VolumeIdentity
  platform : PlatformKind
  view : FileView planner.files.lower
  safetyPolicy : Option ExecutionSafetyPolicyBinding
  largeBatchConfirmationThreshold : Nat
  hash : PlanHash
  createdAt : String

/-- `is_case_only_proposal`. -/
def isCaseOnlyProposal (operation : OrganizationProposalOperation) : Bool :=
  let source := normalizeRelativeString operation.source.relativePath
  let destination := destinationRelative operation.proposedDestination operation.proposedName
  source ≠ destination && planner.files.key source = planner.files.textKey destination

/-- The operation of the proposal asks for a move or a rename. -/
def asksForMove (operation : OrganizationProposalOperation) : Bool :=
  operation.operationKind = .moveProposal || operation.operationKind = .renameProposal
    || (operation.userOverride && operation.operationKind = .keepInPlace
      && isCaseOnlyProposal planner operation)

def eqIgnoreAsciiCase (a b : String) : Bool :=
  a.toList.map Char.toLower = b.toList.map Char.toLower

/-- The volume is one plans are made for. -/
def requireVolume (platform : PlatformKind) (volume : VolumeIdentity) :
    Except ApplicationError Unit := do
  require (volume.isLocal = true ∧ volume.removable = false) (.safety .protectedPath)
  require (platform ≠ .windows ∨ (volume.filesystemType.any (eqIgnoreAsciiCase · "NTFS")) = true)
    (.unsupported "same-volume apply currently requires a local fixed NTFS volume")
  require (platform ≠ .macOs ∨ (volume.filesystemType.any fun value =>
      eqIgnoreAsciiCase value "apfs" || eqIgnoreAsciiCase value "hfs") = true)
    (.unsupported "same-volume apply currently requires a local APFS or HFS volume")

/-- The candidates of a proposal after all checks. -/
def planCandidates (proposal : OrganizationProposal) (tree : Tree) (volume : VolumeIdentity) :
    List PlannedCandidate :=
  propagateDependencyBlocks
    (resolveDestinationDependencies planner tree
      (detectPlanCollisions planner
        ((proposal.operations.filter (asksForMove planner)).mapIdx
          (preflightCandidate planner tree volume))))

/-- The operations of a plan in their order, and the number of directories the user asked for. -/
def planOperations (view : FileView planner.files.lower) (candidates : List PlannedCandidate) :
    Except ApplicationError (List ExecutionOperation × Nat) := do
  let (executable, stagingDestinations) ← executableOperations planner view.tree candidates
  let userDestinations :=
    (executable.filter (·.kind ≠ .internalStage)).map (·.destinationRelativePath)
  let (directories, userDirectoryCount) ← planDirectories planner view.tree
    (userDestinations ++ stagingDestinations) userDestinations
  let cleanup := planSourceDirectoryCleanup planner view executable userDestinations
  let blocked := (candidates.filter (·.blocked)).map (·.operation)
  let operations := directories ++ executable ++ cleanup ++ blocked
  require (operations.length ≤ 2 ^ 32) .invalidExecution
  return (operations.mapIdx fun index operation => { operation with sequence := index },
    userDirectoryCount)

variable (context : PlanContext planner)

/-- The detail of a plan, before its digest is known. -/
def planDetail (candidates : List PlannedCandidate) (operations : List ExecutionOperation)
    (directoryCount : Nat) (root : NativePath × String) (volume : VolumeIdentity)
    (safetyPolicy : ExecutionSafetyPolicyBinding) (digest : String) : ExecutionDetail :=
  let approvedOperationIds := ((candidates.filter fun c => !c.blocked).filterMap
    (·.operation.proposalOperationId)).insertionSort (· ≤ ·)
  let blocked := candidates.countP (·.blocked)
  { session :=
      { id := planner.ids.executionId
        planId := planner.ids.planId
        proposalId := context.proposal.id
        proposalRevisionId := context.proposal.revisionId
        proposalRevision := context.proposal.revision
        sourceScanId := context.proposal.sourceScanId
        planDigest := digest
        rootId := context.proposal.rootId
        status := .awaitingConfirmation
        recoveryState := .recoveryNotRequired
        summary :=
          { affectedFiles := candidates.length
            foldersToCreate := directoryCount
            preflightOk := candidates.length - blocked
            applied := 0
            blocked := blocked
            skipped := 0
            failed := 0
            rolledBack := 0
            rollbackBlocked := 0
            rollbackFailed := 0 }
        confirmationPhraseRequired :=
          decide (context.largeBatchConfirmationThreshold ≤ approvedOperationIds.length)
        userConfirmed := false
        rollbackAvailable := false
        pauseRequested := false
        cancelRequested := false
        currentOperation := none
        journalSequence := -1
        journalChainHead := none
        createdAt := context.createdAt
        approvedAt := none
        startedAt := none
        completedAt := none
        rolledBackAt := none
        errorMessage := none }
    approval :=
      { planId := planner.ids.planId
        proposalId := context.proposal.id
        proposalRevisionId := context.proposal.revisionId
        proposalRevision := context.proposal.revision
        sourceSnapshotVersion := context.proposal.sourceScanId
        approvedOperationIds := approvedOperationIds
        operationCount := approvedOperationIds.length
        userConfirmed := false
        approvedAt := none
        snapshotDigest := digest }
    consent :=
      { materialVersion := executionPlanMaterialVersion
        destinationRoot :=
          { canonicalPath := root.1, displayPath := root.2, volume := volume }
        safetyPolicy := safetyPolicy
        consent := ExecutionConsent.pending
        stateChangedAtUnixMs := 0 }
    operations := operations }

/-- The part of `prepare_execution` before the plan is stored. -/
def planExecution : Except ApplicationError ExecutionDetail := do
  context.applyGate
  require (context.blockingExecutionExists = false) .executionAlreadyActive
  require (context.proposal.status = .approvedForFutureApply
    ∧ context.proposal.revision = context.revision) .executionApprovalRequired
  let root ← raise .safety context.canonicalRoot
  let volume ← raise .platform context.volume
  requireVolume context.platform volume
  let safetyPolicy ← orError context.safetyPolicy .invalidExecution
  let candidates := planCandidates planner context.proposal context.view.tree volume
  require (candidates ≠ []) .executionPreflightBlocked
  let safe := candidates.countP fun c => !c.blocked
  require (safe ≠ 0 ∧ (planner.allowIndependentSafeSubset = true ∨ safe = candidates.length))
    .executionPreflightBlocked
  let (operations, directoryCount) ← planOperations planner context.view candidates
  let draft := planDetail planner context candidates operations directoryCount root volume
    safetyPolicy ""
  return planDetail planner context candidates operations directoryCount root volume safetyPolicy
    (planDigest context.hash draft.planMaterial)

/-- `prepare_execution`: the rows of the new execution. -/
def prepareExecution : Except ApplicationError Database := do
  let detail ← planExecution planner context
  require (verifyPlanDigest context.hash detail = true) .invalidExecution
  raise .persistence (persistPreparedExecution detail)

end Plan

/-! ## A small plan

A root with a few files directly below it, whose names are compared as they are. The concrete plans
of later files move files of such a root. -/

/-- The tree with these files at its top. -/
def rootFiles (files : List (String × FileFingerprint)) : Tree where
  entries := (files.map fun file => ⟨[file.1], .leaf (.file file.2)⟩).toFinmap
  rootless := by simp [Finmap.mem_list_toFinmap]
  closed := by
    intro p x h
    simp only [Finmap.mem_list_toFinmap, List.mem_map] at h
    obtain ⟨_, file, -, heq⟩ := h
    left
    simpa using congrArg List.dropLast (Sigma.mk.inj heq).1.symm

theorem rootFiles_node_ne_none {files : List (String × FileFingerprint)} {key : PathKey}
    {component : String} : (rootFiles files).node (key ++ [component]) ≠ none ↔
      key = [] ∧ ∃ file ∈ files, file.1 = component := by
  rw [PathTree.node_of_ne (by simp), ne_eq, Finmap.lookup_eq_none, not_not, rootFiles,
    Finmap.mem_list_toFinmap]
  constructor
  · rintro ⟨_, hmem⟩
    obtain ⟨file, hfile, heq⟩ := List.mem_map.1 hmem
    have hkey : [] ++ [file.1] = key ++ [component] := (Sigma.mk.inj heq).1
    obtain ⟨h1, h2⟩ := List.append_inj' hkey rfl
    exact ⟨h1.symm, file, hfile, List.singleton_injective h2⟩
  · rintro ⟨rfl, file, hfile, rfl⟩
    exact ⟨_, List.mem_map_of_mem hfile⟩

/-- The view of a root with these files. -/
def rootView (files : List (String × FileFingerprint)) (h : (files.map (·.1)).Nodup) :
    FileView id where
  tree := rootFiles files
  names := fun key => if key = [] then files.map (·.1) else []
  mem_names := by
    intro key component
    rw [rootFiles_node_ne_none]
    split
    · simp_all
    · simp_all
  nodup_names := by
    intro key
    split
    · rwa [List.map_id]
    · exact List.nodup_nil

def sampleStep : StepName → Nat
  | .candidate index => 4 * index
  | .stage index => 4 * index + 1
  | .directory index => 4 * index + 2
  | .cleanup index => 4 * index + 3

theorem sampleStep_injective : Function.Injective sampleStep := by
  intro a b h
  cases a <;> cases b <;> simp only [sampleStep, StepName.candidate.injEq, StepName.stage.injEq,
    StepName.directory.injEq, StepName.cleanup.injEq, reduceCtorEq] at h ⊢ <;> omega

def samplePlanner : Planner where
  files := { lower := id, maximumRehashBytes := 1 }
  allowQualifiedCaseOnlyRename := false
  allowIndependentSafeSubset := true
  ids :=
    { executionId := 1
      planId := 1
      step := sampleStep
      step_injective := sampleStep_injective
      executionText := "execution"
      stagingName := fun number _ => if number = 0 then "first" else "second" }
  ioText := fun _ => "error"

/-- The proposal to move the file at the top to a destination. -/
def sampleProposalOperation (id : ProposalItemId) (source : String) (destination : List String)
    (name : String) : OrganizationProposalOperation where
  id := id
  fileId := id
  fileVersionId := "version"
  source := { relativePath := source, contentHash := none, byteSize := 1, modifiedAt := none }
  sourceName := source
  machineDestination := destination
  machineName := name
  proposedDestination := destination
  proposedName := name
  operationKind := .moveProposal
  confidenceScore := 1
  confidenceLevel := .veryHigh
  reasons := []
  conflictState := .none
  needsReview := false
  stale := false
  userOverride := false
  disruptionScore := 1
  proposedPathLength := (destination ++ [name]).length
  proposedDepth := destination.length
  semanticContext := "unknown"
  documentType := "unknown"
  customerName := none
  supplierName := none
  projectName := none
  duplicateGroupId := none
  duplicateCanonical := false

/-- What is planned for approved operations on files of a root. -/
def samplePlanContext (view : FileView samplePlanner.files.lower)
    (operations : List OrganizationProposalOperation) : PlanContext samplePlanner where
  applyGate := .ok ()
  blockingExecutionExists := false
  proposal :=
    { id := 1, revisionId := 1, workspaceId := 1, rootId := 1, sourceScanId := 1, revision := 1
      status := .approvedForFutureApply
      engineVersion := "m7-local-organizer-1"
      policyVersion := "m7-safety-policy-1"
      sourceSemanticVersion := none
      sourceRelationshipVersion := none
      createdAt := "2024-01-01T00:00:00Z"
      updatedAt := "2024-01-01T00:00:00Z"
      summary := {}
      diff := {}
      nodes := []
      operations := operations }
  revision := 1
  canonicalRoot := .ok (sampleRoot.canonicalPath, sampleRoot.displayPath)
  volume := .ok sampleVolume
  platform := .linux
  view := view
  safetyPolicy := some sampleDetail.consent.safetyPolicy
  largeBatchConfirmationThreshold := 100
  hash := { json := fun _ => [], hash := fun _ => sampleDigest }
  createdAt := "t0"

/-- The rows of a plan, when there is one. -/
def plannedRows (context : PlanContext samplePlanner) : Database :=
  match prepareExecution samplePlanner context with
  | .ok db => db
  | .error _ => sampleRows

theorem prepareExecution_plannedRows {context : PlanContext samplePlanner}
    (h : (prepareExecution samplePlanner context).isOk = true) :
    prepareExecution samplePlanner context = .ok (plannedRows context) := by
  unfold plannedRows
  cases hplan : prepareExecution samplePlanner context with
  | ok db => rfl
  | error e =>
      rw [hplan] at h
      cases h

/-- Two files at the top that change their names. -/
def swapFiles : List (String × FileFingerprint) :=
  [("a", sampleFingerprint), ("b", { sampleFingerprint with objectKey := [2] })]

def swapContext : PlanContext samplePlanner :=
  samplePlanContext (rootView swapFiles (by decide))
    [sampleProposalOperation 1 "a" [] "b", sampleProposalOperation 2 "b" [] "a"]

end Zemo
