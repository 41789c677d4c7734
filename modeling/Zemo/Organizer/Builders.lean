import Mathlib.Algebra.Order.BigOperators.Group.List
import Mathlib.Data.List.Dedup
import Mathlib.Tactic.Linarith
import Zemo.Organizer.Build

set_option autoImplicit false

/-! # The builders of the application

What the application reads from the database for a proposal, how it asks the engine to build one,
and under which trigger it has the result stored. -/

namespace Zemo.Organizer

/-- What is read from the database for a proposal of a root: each file once, and the overrides that
    were stored. `current` is the proposal that is built anew, where there is one. -/
structure ProposalSource where
  workspaceId : WorkspaceId
  rootId : RootId
  scanId : ScanId
  semanticVersion : Option String
  relationshipVersion : Option String
  files : List OrganizationSourceInput
  preferences : OrganizationPreferences
  consumerRootKind : ConsumerRootKind
  current : Option OrganizationProposal
  /-- `organization_proposal_revision_number` of the current proposal. -/
  revisionNumber : Nat
  overrides : List OrganizationProposalOverride
  now : String
  newProposalId : ProposalId
  newRevisionId : OrganizationRevisionId
  files_nodup : (files.map (·.fileId)).Nodup
  overrides_valid : ∀ value ∈ overrides, validateOverride value = .ok ()

/-- A proposal on its way into the store, and what it is stored for. -/
structure Submission where
  proposal : OrganizationProposal
  triggerKind : String
deriving DecidableEq

/-- Whether a submission is stored. -/
def Submission.persisted (submission : Submission) : Except ProposalStoreError Unit :=
  persistOrganizationProposalWithMeta submission.proposal submission.triggerKind

/-- `saturating_add(1)` on a number of 32 bits. -/
def nextRevision (number : Nat) : Nat := min (number + 1) 4294967295

/-- `AUTOMATIC_CONFIDENCE_THRESHOLD`. -/
def automaticConfidenceThreshold : Rat := 23 / 25

namespace ProposalSource

variable (source : ProposalSource)

/-- `organization_source_for_files`. -/
def filesOf (fileIds : List FileId) : List OrganizationSourceInput :=
  source.files.filter fun input => input.fileId ∈ fileIds

/-! ## Full builds -/

/-- The preferences of a build. -/
def preferencesFor (consumerMode : Bool) : OrganizationPreferences :=
  if consumerMode then
    { source.preferences with
      maximumDepth := 6, includeYearFolders := false, namingLanguage := "fr" }
  else source.preferences

/-- The request `build_organization_proposal_full` makes; `previous` is the proposal that is built
    anew. -/
def fullRequest (previous : Option OrganizationProposal) (consumerMode : Bool) :
    OrganizationBuildRequest where
  proposalId := (previous.map (·.id)).getD source.newProposalId
  revisionId := source.newRevisionId
  workspaceId := source.workspaceId
  rootId := source.rootId
  sourceScanId := source.scanId
  revision := nextRevision (if previous.isSome then source.revisionNumber else 0)
  createdAt := (previous.map (·.createdAt)).getD source.now
  updatedAt := source.now
  sourceSemanticVersion := source.semanticVersion
  sourceRelationshipVersion := source.relationshipVersion
  preferences := source.preferencesFor consumerMode
  inputs := source.files
  overrides := if previous.isSome then source.overrides else []
  previousOperations := (previous.map (·.operations)).getD []
  consumerMode
  consumerRootKind := source.consumerRootKind

/-- `build_organization_proposal_full`. -/
def buildOrganizationProposalFull (engine : EngineContext) (run : BuildRun)
    (previous : Option OrganizationProposal) (triggerKind : String) (consumerMode : Bool) :
    Submission where
  proposal := (engine.buildWithMode run (source.fullRequest previous consumerMode)).proposal
  triggerKind

/-- `generate_organization_proposal_for_root` and
    `generate_consumer_organization_proposal_for_root`. -/
def generateOrganizationProposal (engine : EngineContext) (run : BuildRun)
    (consumerMode recomputeCurrent : Bool) : Submission :=
  source.buildOrganizationProposalFull engine run (if recomputeCurrent then source.current else none)
    (if recomputeCurrent && source.current.isSome then "manual_recompute" else "initial")
    consumerMode

/-! ## Incremental builds -/

/-- The files around a change that are read again. -/
def neighborhoodIds (engine : EngineContext) (previous : OrganizationProposal)
    (dirty deleted : List FileId) : List FileId :=
  (engine.computeInvalidationNeighborhood dirty deleted previous.operations).filter
    fun fileId => fileId ∉ deleted

/-- The request `build_organization_proposal_incremental` makes. -/
def incrementalRequest (engine : EngineContext) (previous : OrganizationProposal)
    (dirty deleted : List FileId) : IncrementalOrganizationBuildRequest where
  base :=
    { source.fullRequest (some previous) false with inputs := [] }
  dirtyFileIds := dirty
  neighborhoodInputs := source.filesOf (neighborhoodIds engine previous dirty deleted)
  deletedFileIds := deleted
  forceFullRebuild := false

/-- `build_organization_proposal_incremental`; a full build that becomes necessary is another run. -/
def buildOrganizationProposalIncremental (engine : EngineContext) (run again : BuildRun)
    (previous : OrganizationProposal) (dirty deleted : List FileId) (triggerKind : String) :
    Submission :=
  let full := source.buildOrganizationProposalFull engine again (some previous) "manual_recompute"
    false
  if incrementalNeighborhoodLimit
        < (engine.computeInvalidationNeighborhood dirty deleted previous.operations).length
      ∨ incrementalDirtyFileLimit < dirty.length + deleted.length then full
  else
    let outcome := engine.buildIncremental run
      (source.incrementalRequest engine previous dirty deleted)
    match outcome.rebuildMode with
    | .full => full
    | .incremental => { proposal := outcome.proposal, triggerKind }

/-- `update_organization_proposal_incrementally`. -/
def updateOrganizationProposalIncrementally (engine : EngineContext) (run again : BuildRun)
    (dirty deleted : List FileId) : Submission :=
  match source.current with
  | none => source.buildOrganizationProposalFull engine again none "initial" false
  | some previous =>
      source.buildOrganizationProposalIncremental engine run again previous dirty deleted
        "semantic_changed"

/-! ## Monitoring -/

/-- The request `generate_automatic_monitoring_proposal_for_files` makes. -/
def monitoringRequest (fileIds : List FileId) : OrganizationBuildRequest :=
  { source.fullRequest none false with
    preferences :=
      { source.preferences with
        reviewThreshold := max source.preferences.reviewThreshold automaticConfidenceThreshold }
    inputs := source.filesOf fileIds }

/-- `generate_automatic_monitoring_proposal_for_files`. -/
def generateAutomaticMonitoringProposal (engine : EngineContext) (run : BuildRun)
    (fileIds : List FileId) : Submission where
  proposal := (engine.buildWithMode run (source.monitoringRequest fileIds)).proposal
  triggerKind := "automatic_monitoring"

end ProposalSource

/-! ## All builders -/

/-- The ways a proposal comes to be built. -/
inductive ProposalBuilder where
  | generate (consumerMode recomputeCurrent : Bool)
  | overrideStored
  | rulesChanged
  | incremental (dirty deleted : List FileId)
  | automaticMonitoring (fileIds : List FileId)
deriving DecidableEq

/-- What a builder has stored; without a proposal to build anew, or without files, some fail before
    they build one. -/
def ProposalBuilder.build (builder : ProposalBuilder) (engine : EngineContext)
    (run again : BuildRun) (source : ProposalSource) : Option Submission :=
  match builder with
  | .generate consumerMode recomputeCurrent =>
      some (source.generateOrganizationProposal engine again consumerMode recomputeCurrent)
  | .overrideStored =>
      source.current.map fun previous =>
        source.buildOrganizationProposalFull engine again (some previous) "user_override" false
  | .rulesChanged =>
      source.current.map fun previous =>
        source.buildOrganizationProposalFull engine again (some previous) "algorithm_changed" false
  | .incremental dirty deleted =>
      some (source.updateOrganizationProposalIncrementally engine run again dirty deleted)
  | .automaticMonitoring fileIds =>
      if fileIds = [] then none
      else some (source.generateAutomaticMonitoringProposal engine again fileIds)

end Zemo.Organizer

/-! ## Which proposals are stored

Of what a proposal has to satisfy to be stored, most holds of every proposal the engine makes: its
summary counts its operations and its tree shows them. What is left are the trigger, the identifiers
of the operations, and the row of each operation. -/

namespace Zemo.Organizer

open Checked

/-! ## The tree -/

/-- The files of a tree show operations of a list. -/
def ShowsOperations (operations : List OrganizationProposalOperation)
    (files : List VirtualProposalNode) : Prop :=
  ∀ node ∈ files, ∀ id ∈ node.operationId, id ∈ operations.map (·.id)

@[simp] theorem modify_files (tree : TreeState) (path : String) (f : MutableNode → MutableNode) :
    (tree.modify path f).files = tree.files := rfl

theorem enterFolder_files (operation : OrganizationProposalOperation) (at_ : TreeState × String)
    (segment : String) : (enterFolder operation at_ segment).1.files = at_.1.files := by
  obtain ⟨tree, parentPath⟩ := at_
  simp only [enterFolder, modify_files]
  split <;> rfl

theorem foldl_enterFolder_files (operation : OrganizationProposalOperation)
    (destination : List String) (at_ : TreeState × String) :
    (destination.foldl (enterFolder operation) at_).1.files = at_.1.files := by
  induction destination generalizing at_ with
  | nil => rfl
  | cons segment rest ih => rw [List.foldl_cons, ih, enterFolder_files]

theorem placeOperation_shows {operations : List OrganizationProposalOperation} {tree : TreeState}
    {operation : OrganizationProposalOperation} (hmem : operation ∈ operations)
    (h : ShowsOperations operations tree.files) :
    ShowsOperations operations (placeOperation tree operation).files := by
  intro node hnode id hid
  simp only [placeOperation, modify_files, foldl_enterFolder_files] at hnode
  rcases List.mem_append.1 hnode with hold | hnew
  · exact h node hold id hid
  · rw [List.mem_singleton.1 hnew, Option.mem_some_iff] at hid
    exact hid ▸ List.mem_map_of_mem hmem

theorem buildVirtualTree_shows (operations : List OrganizationProposalOperation) :
    ShowsOperations operations (buildVirtualTree operations) := by
  have hfiles : ∀ (rest : List OrganizationProposalOperation) (tree : TreeState),
      (∀ operation ∈ rest, operation ∈ operations) → ShowsOperations operations tree.files →
      ShowsOperations operations (rest.foldl placeOperation tree).files := by
    intro rest
    induction rest with
    | nil => exact fun _ _ h => h
    | cons operation rest ih =>
        exact fun tree hmem h => ih _ (fun other hother => hmem other (List.mem_cons_of_mem _ hother))
          (placeOperation_shows (hmem operation (List.mem_cons_self ..)) h)
  intro node hnode id hid
  rcases List.mem_append.1 hnode with hfolder | hfile
  · -- folders and the root show no operation
    obtain ⟨_, _, rfl⟩ := List.mem_map.1 hfolder
    exact nomatch hid
  · exact hfiles operations emptyTree (fun _ h => h) (fun _ h => nomatch h) node hfile id hid

/-! ## The summary -/

theorem foldl_max_le {operations : List OrganizationProposalOperation} {start limit : Nat}
    (hlimit : limit < 4294967295) :
    operations.foldl
        (fun deepest operation => max deepest (min operation.proposedDepth 4294967295)) start ≤ limit
      ↔ start ≤ limit ∧ ∀ operation ∈ operations, operation.proposedDepth ≤ limit := by
  induction operations generalizing start with
  | nil => simp
  | cons operation rest ih =>
      rw [List.foldl_cons, ih, List.forall_mem_cons, ← and_assoc]
      refine and_congr_left fun _ => ?_
      omega

theorem maximumDepth_le_iff {operations : List OrganizationProposalOperation} :
    (summarize operations).maximumDepth ≤ 8
      ↔ ∀ operation ∈ operations, operation.proposedDepth ≤ 8 := by
  rw [show (summarize operations).maximumDepth = operations.foldl _ 0 from rfl,
    foldl_max_le (by omega)]
  exact and_iff_right (Nat.zero_le 8)

theorem averageDepth_nonneg (operations : List OrganizationProposalOperation) :
    0 ≤ (summarize operations).averageDepth := by
  show 0 ≤ if operations = [] then (0 : Rat) else _
  split
  · exact le_refl 0
  · refine div_nonneg (List.sum_nonneg fun depth hdepth => ?_) (Nat.cast_nonneg _)
    obtain ⟨operation, -, rfl⟩ := List.mem_map.1 hdepth
    exact Nat.cast_nonneg _

/-- The average is no more than what no member exceeds. -/
theorem averageDepth_le {operations : List OrganizationProposalOperation}
    (h : ∀ operation ∈ operations, operation.proposedDepth ≤ 8) :
    (summarize operations).averageDepth ≤ 8 := by
  show (if operations = [] then (0 : Rat) else _) ≤ 8
  split
  · norm_num
  · rename_i hne
    have hlength : (0 : Rat) < operations.length :=
      Nat.cast_pos.2 (List.length_pos_iff.2 hne)
    have hsum := List.sum_le_card_nsmul
      (operations.map fun operation => (operation.proposedDepth : Rat)) 8 fun depth hdepth => by
        obtain ⟨operation, hmem, rfl⟩ := List.mem_map.1 hdepth
        exact_mod_cast h operation hmem
    rw [List.length_map, nsmul_eq_mul] at hsum
    rw [div_le_iff₀ hlength]
    linarith

theorem length_dedup_eq_iff {ids : List ProposalItemId} {length : Nat} (h : ids.length = length) :
    ids.dedup.length = length ↔ ids.Nodup := by
  rw [← List.dedup_eq_self, ← h]
  exact ⟨fun heq => (List.dedup_sublist ids).eq_of_length heq, fun heq => by rw [heq]⟩

/-! ## Acceptance -/

/-- A proposal of the engine is stored when its trigger is known, its operations have identifiers of
    their own, and each has a row the table accepts. -/
theorem persisted_iff (request : OrganizationBuildRequest) (status : OrganizationProposalStatus)
    (operations : List OrganizationProposalOperation) (triggerKind : String) :
    persistOrganizationProposalWithMeta (request.proposal status operations) triggerKind = .ok ()
      ↔ triggerKind ∈ storedTriggerKinds ∧ request.revision ≠ 0
        ∧ (operations.map (·.id)).Nodup ∧ ∀ operation ∈ operations, FitsTable operation := by
  have hversions : organizationEngineVersion ≠ "" ∧ organizationEngineVersion.utf8ByteSize ≤ 64
      ∧ organizationPolicyVersion ≠ "" ∧ organizationPolicyVersion.utf8ByteSize ≤ 64 := by
    decide +kernel
  have hids : (operations.map (·.id)).dedup.length = operations.length
      ↔ (operations.map (·.id)).Nodup := length_dedup_eq_iff (List.length_map _)
  simp only [persistOrganizationProposalWithMeta, validateProposal, checkRevisionRow,
    test_bind_eq_ok, require_eq_ok, forM_eq_ok, checkOperationRow_ok]
  constructor
  · rintro ⟨⟨⟨htrigger, hrevision, -⟩, -⟩, -, hrows, hnodup⟩
    exact ⟨htrigger, hrevision, hnodup, hrows⟩
  · rintro ⟨htrigger, hrevision, hnodup, hrows⟩
    have hdepth : ∀ operation ∈ operations, operation.proposedDepth ≤ 8 :=
      fun operation hmem => (hrows operation hmem).1
    have hmaximum := maximumDepth_le_iff.2 hdepth
    exact ⟨⟨⟨htrigger, hrevision, hversions.1, hversions.2.1, hversions.2.2.1,
        hversions.2.2.2, rfl, hmaximum⟩, hids.2 hnodup, buildVirtualTree_shows operations⟩,
      ⟨Nat.pos_of_ne_zero hrevision, htrigger, averageDepth_nonneg operations,
        averageDepth_le hdepth, hmaximum⟩, hrows, hnodup⟩

end Zemo.Organizer
