import Zemo.Organizer.Storable

set_option autoImplicit false

/-! # Every builder and the store

For each way the application has a proposal built: when the proposal that comes out can be stored. -/

namespace Zemo.Organizer

variable {engine : EngineContext} {run again : BuildRun} {source : ProposalSource}

/-! ## Conditions -/

/-- An incremental build goes through: nothing makes it a full one. -/
def ProposalSource.goesThrough (source : ProposalSource) (engine : EngineContext) (run : BuildRun)
    (previous : OrganizationProposal) (dirty deleted : List FileId) : Prop :=
  (engine.computeInvalidationNeighborhood dirty deleted previous.operations).length
      ≤ incrementalNeighborhoodLimit
    ∧ dirty.length + deleted.length ≤ incrementalDirtyFileLimit
    ∧ engine.fallbackReason run (source.incrementalRequest engine previous dirty deleted) = none

instance (previous : OrganizationProposal) (dirty deleted : List FileId) :
    Decidable (source.goesThrough engine run previous dirty deleted) :=
  inferInstanceAs (Decidable (_ ∧ _ ∧ _))

/-- The files an incremental update compiles. -/
def ProposalSource.compiledFiles (source : ProposalSource) (engine : EngineContext)
    (run : BuildRun) (dirty deleted : List FileId) : List OrganizationSourceInput :=
  match source.current with
  | none => source.files
  | some previous =>
      if source.goesThrough engine run previous dirty deleted then
        source.filesOf (neighborhoodIds engine previous dirty deleted)
      else source.files

/-- The files of a build have rows the tables accept, and its trigger is one they know. -/
def ProposalBuilder.Fits (builder : ProposalBuilder) (engine : EngineContext) (run : BuildRun)
    (source : ProposalSource) : Prop :=
  match builder with
  | .generate consumerMode recomputeCurrent =>
      let previous := if recomputeCurrent then source.current else none
      ∀ input ∈ source.files, FileFits engine (source.fullRequest previous consumerMode) input
  | .overrideStored | .rulesChanged =>
      ∀ input ∈ source.files, FileFits engine (source.fullRequest source.current false) input
  | .incremental dirty deleted =>
      ∀ input ∈ source.compiledFiles engine run dirty deleted,
        FileFits engine (source.fullRequest source.current false) input
  | .automaticMonitoring _ => False

/-! ## Submissions -/

/-- A submission is stored exactly under a condition, and what is stored can be built upon. -/
structure StoredWhen (c : Prop) (submission : Submission) : Prop where
  persisted : submission.persisted = .ok () ↔ c
  stored : submission.persisted = .ok () → StoredOperations submission.proposal.operations

theorem nextRevision_ne_zero (number : Nat) : nextRevision number ≠ 0 := by
  unfold nextRevision
  omega

theorem overrides_stored (source : ProposalSource) (previous : Option OrganizationProposal)
    (consumerMode : Bool) :
    ∀ value ∈ (source.fullRequest previous consumerMode).overrides, StoredOverride value := by
  intro value hvalue
  unfold ProposalSource.fullRequest at hvalue
  simp only at hvalue
  split at hvalue
  · exact validateOverride_ok (source.overrides_valid value hvalue)
  · exact absurd hvalue List.not_mem_nil

/-- The proposal of some drafts is stored when its trigger is known and their rows are accepted. -/
theorem drafts_storedWhen {request : OrganizationBuildRequest} {drafts : List DraftOperation}
    {triggerKind : String} {c : Prop} (hrevision : request.revision ≠ 0)
    (htrigger : triggerKind ∈ storedTriggerKinds)
    (hids : (drafts.map (·.operation.id)).Nodup)
    (hfits : c ↔ ∀ draft ∈ drafts, FitsTable draft.operation)
    (hstored : (∀ draft ∈ drafts, FitsTable draft.operation) →
      StoredOperations (drafts.map (·.operation))) :
    StoredWhen c
      { proposal := request.proposal .readyForReview (drafts.map (·.operation)), triggerKind } := by
  have hiff : Submission.persisted
      { proposal := request.proposal .readyForReview (drafts.map (·.operation)), triggerKind }
        = .ok () ↔ c := by
    rw [hfits]
    refine (persisted_iff request .readyForReview _ triggerKind).trans ?_
    rw [List.map_map, List.forall_mem_map]
    exact ⟨fun h => h.2.2.2, fun h => ⟨htrigger, hrevision, hids, h⟩⟩
  exact ⟨hiff, fun hok => hstored (hfits.1 (hiff.1 hok))⟩

theorem buildFull_drafts (engine : EngineContext) (run : BuildRun)
    (request : OrganizationBuildRequest)
    (hdone : (engine.buildFull run request).status ≠ .cancelled) :
    engine.buildFull run request
      = request.proposal .readyForReview ((engine.fullDrafts run request).map (·.operation)) := by
  unfold EngineContext.buildFull at hdone ⊢
  split
  · rename_i hstopped
    rw [hstopped] at hdone
    exact absurd rfl hdone
  · rfl

theorem full_storedWhen (hrun : run.Lawful) {previous : Option OrganizationProposal}
    {triggerKind : String} {consumerMode : Bool} (htrigger : triggerKind ∈ storedTriggerKinds)
    (hdone : (source.buildOrganizationProposalFull engine run previous triggerKind
      consumerMode).proposal.status ≠ .cancelled) :
    StoredWhen
      (∀ input ∈ source.files, FileFits engine (source.fullRequest previous consumerMode) input)
      (source.buildOrganizationProposalFull engine run previous triggerKind consumerMode) := by
  have hproposal := buildFull_drafts engine run (source.fullRequest previous consumerMode) hdone
  have hsubmission : source.buildOrganizationProposalFull engine run previous triggerKind
      consumerMode = { proposal := _, triggerKind } :=
    congrArg (fun proposal => Submission.mk proposal triggerKind) hproposal
  rw [hsubmission]
  have hoverrides := overrides_stored source previous consumerMode
  exact drafts_storedWhen (nextRevision_ne_zero _) htrigger (fullDrafts_ids_nodup hrun)
    (full_fits_iff source.files_nodup hoverrides) (fullDrafts_stored source.files_nodup hoverrides)

/-! ## Incremental updates -/

section Incremental

variable {previous : OrganizationProposal} {dirty deleted : List FileId}

theorem incrementalRequest_source (hcurrent : StoredOperations previous.operations) :
    IncrementalSource (source.incrementalRequest engine previous dirty deleted) := by
  refine ⟨rfl, hcurrent, ?_, fun input hinput => ?_, overrides_stored source (some previous) false⟩
  · exact source.files_nodup.sublist (List.filter_sublist.map _)
  · have hnear := of_decide_eq_true (List.mem_filter.1 hinput).2
    exact of_decide_eq_true (List.mem_filter.1 hnear).2

theorem buildIncremental_drafts (engine : EngineContext) (run : BuildRun)
    (request : IncrementalOrganizationBuildRequest) (h : engine.fallbackReason run request = none) :
    (engine.buildIncremental run request).rebuildMode = .incremental
      ∧ (engine.buildIncremental run request).proposal = request.base.proposal .readyForReview
        ((engine.incrementalDrafts run request).map (·.operation)) := by
  unfold EngineContext.buildIncremental
  rw [h]
  exact ⟨rfl, rfl⟩

theorem buildIncremental_full {request : IncrementalOrganizationBuildRequest}
    (h : engine.fallbackReason run request ≠ none) :
    (engine.buildIncremental run request).rebuildMode = .full := by
  unfold EngineContext.buildIncremental
  split
  · rfl
  · rename_i hnone
    exact absurd hnone h

/-- An incremental update goes through, or is a full build. -/
theorem buildOrganizationProposalIncremental_cases (triggerKind : String) :
    source.buildOrganizationProposalIncremental engine run again previous dirty deleted triggerKind
      = if source.goesThrough engine run previous dirty deleted then
          { proposal := (engine.buildIncremental run
              (source.incrementalRequest engine previous dirty deleted)).proposal, triggerKind }
        else
          source.buildOrganizationProposalFull engine again (some previous) "manual_recompute"
            false := by
  unfold ProposalSource.buildOrganizationProposalIncremental
  simp only
  by_cases hlimits : incrementalNeighborhoodLimit
        < (engine.computeInvalidationNeighborhood dirty deleted previous.operations).length
      ∨ incrementalDirtyFileLimit < dirty.length + deleted.length
  · rw [if_pos hlimits, if_neg]
    rintro ⟨hneighborhood, hdirty, -⟩
    omega
  rw [if_neg hlimits]
  by_cases hfallback : engine.fallbackReason run
      (source.incrementalRequest engine previous dirty deleted) = none
  · rw [(buildIncremental_drafts engine run _ hfallback).1, if_pos]
    exact ⟨by omega, by omega, hfallback⟩
  · rw [buildIncremental_full hfallback, if_neg]
    exact fun h => hfallback h.2.2

theorem incremental_storedWhen (hrun : run.Lawful)
    (hcurrent : StoredOperations previous.operations)
    (hthrough : source.goesThrough engine run previous dirty deleted) :
    StoredWhen
      (∀ input ∈ source.filesOf (ProposalSource.neighborhoodIds engine previous dirty deleted),
        FileFits engine (source.fullRequest (some previous) false) input)
      { proposal := (engine.buildIncremental run
          (source.incrementalRequest engine previous dirty deleted)).proposal
        triggerKind := "semantic_changed" } := by
  have hsource : IncrementalSource (source.incrementalRequest engine previous dirty deleted) :=
    incrementalRequest_source hcurrent
  rw [(buildIncremental_drafts engine run _ hthrough.2.2).2]
  have hfits := incremental_fits_iff engine hrun hsource
  have hsame : ∀ input : OrganizationSourceInput,
      FileFits engine (source.fullRequest (some previous) false) input
        ↔ FileFits engine (source.incrementalRequest engine previous dirty deleted).base input := by
    intro input
    rw [fileFits_professional rfl, fileFits_professional rfl]
    exact Iff.rfl
  exact drafts_storedWhen (nextRevision_ne_zero _) (by decide)
    (incrementalDrafts_ids_nodup hrun hsource)
    ((forall₂_congr fun input _ => hsame input).trans hfits)
    (incrementalDrafts_stored hrun hsource)

end Incremental

/-! ## All builders -/

/-- A root with one file, for which nothing was proposed before. -/
def oneFileSource (path name : String) : ProposalSource where
  workspaceId := 1
  rootId := 1
  scanId := 1
  semanticVersion := none
  relationshipVersion := none
  files := [sampleInput 1 path name]
  preferences := {}
  consumerRootKind := .desktop
  current := none
  revisionNumber := 0
  overrides := []
  now := "2024-01-01T00:00:00Z"
  newProposalId := 1
  newRevisionId := 1
  files_nodup := List.nodup_singleton _
  overrides_valid := fun _ hvalue => absurd hvalue List.not_mem_nil

theorem sampleBuildRun_lawful : sampleBuildRun.Lawful :=
  ⟨fun _ _ h => h, fun _ => List.Perm.refl _⟩

/-- A builder has a proposal for review made, which is then refused. -/
def BuiltButRefused (builder : ProposalBuilder) (source : ProposalSource) : Prop :=
  ∃ submission ∈ builder.build sampleEngine sampleBuildRun sampleBuildRun source,
    submission.proposal.status = .readyForReview ∧ submission.persisted ≠ .ok ()

end Zemo.Organizer
