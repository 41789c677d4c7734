import Zemo.Organizer.Build

set_option autoImplicit false

/-! # No place twice

The names are settled in one pass that remembers the places it has given away. A place that is
given to a file, with its own name or with a suffix, was not given to one before. -/

namespace Zemo.Organizer

variable {engine : EngineContext} {policy : VirtualPathPolicy}

/-! ## Places -/

/-- The conflict is none, or one the names were changed for. -/
def isSettled (operation : OrganizationProposalOperation) : Bool :=
  operation.conflictState = .none || operation.conflictState = .autoResolved

/-- The operation moves or renames its file, and nothing is left to settle. -/
def isPlaced (operation : OrganizationProposalOperation) : Bool :=
  isSettled operation && !isLeftAlone operation

/-- No two of the files that move get one place. -/
def PlacesDistinct (engine : EngineContext) (operations : List OrganizationProposalOperation) :
    Prop :=
  operations.Pairwise fun a b =>
    isPlaced a = true → isPlaced b = true → engine.placeKey a ≠ engine.placeKey b

/-! ## The pass -/

@[simp] theorem isPlaced_unresolved (draft : DraftOperation) (code explanation : String) :
    isPlaced (draft.unresolved code explanation).operation = false := rfl

@[simp] theorem isPlaced_measured (draft : DraftOperation) :
    isPlaced draft.measured.operation = isPlaced draft.operation := rfl

/-- What one step of the pass does: it forgets no place, and a place it gives away is a new one. -/
structure Resolved (engine : EngineContext) (seen : List String)
    (result : List String × DraftOperation) : Prop where
  kept : ∀ key ∈ seen, key ∈ result.1
  new : isPlaced result.2.operation = true → engine.placeKey result.2.operation ∉ seen
  taken : isPlaced result.2.operation = true → engine.placeKey result.2.operation ∈ result.1

theorem resolveCollision_resolved (seen : List String) (draft : DraftOperation) :
    Resolved engine seen (engine.resolveCollision policy seen draft) := by
  unfold EngineContext.resolveCollision
  by_cases hleft : isLeftAlone draft.operation = true
  · rw [if_pos hleft]
    have hnot : isPlaced draft.operation = false := by simp [isPlaced, hleft]
    exact ⟨fun _ hkey => hkey, fun h => by simp [hnot] at h, fun h => by simp [hnot] at h⟩
  rw [if_neg hleft]
  simp only
  by_cases hfirst : seen.count (engine.placeKey draft.operation) + 1 = 1
  · rw [if_pos hfirst]
    have hcount : seen.count (engine.placeKey draft.operation) = 0 := by omega
    exact ⟨fun _ hkey => List.mem_cons_of_mem _ hkey,
      fun _ => List.count_eq_zero.1 hcount, fun _ => List.mem_cons_self ..⟩
  rw [if_neg hfirst]
  by_cases huser : draft.operation.userOverride = true
  · rw [if_pos huser]
    exact ⟨fun _ hkey => List.mem_cons_of_mem _ hkey, fun h => by simp at h,
      fun h => by simp at h⟩
  rw [if_neg huser]
  split
  · exact ⟨fun _ hkey => List.mem_cons_of_mem _ hkey, fun h => by simp at h,
      fun h => by simp at h⟩
  · -- the suffix that was found gives a place nobody has asked for
    rename_i hfree
    have hnew := (not_or.1 hfree).1
    refine ⟨fun _ hkey => List.mem_cons_of_mem _ (List.mem_cons_of_mem _ hkey), fun _ hkey => ?_,
      fun _ => List.mem_cons_self ..⟩
    exact hnew (List.mem_cons_of_mem _ hkey)

/-- What the pass does from some places on. -/
theorem resolveCollisionsFrom_distinct (drafts : List DraftOperation) (seen : List String) :
    (∀ draft ∈ engine.resolveCollisionsFrom policy seen drafts,
        isPlaced draft.operation = true → engine.placeKey draft.operation ∉ seen)
      ∧ PlacesDistinct engine
        ((engine.resolveCollisionsFrom policy seen drafts).map (·.operation)) := by
  induction drafts generalizing seen with
  | nil =>
      rw [EngineContext.resolveCollisionsFrom]
      exact ⟨fun _ hdraft => absurd hdraft List.not_mem_nil, List.Pairwise.nil⟩
  | cons draft rest ih =>
      have hone : Resolved engine seen (engine.resolveCollision policy seen draft) :=
        resolveCollision_resolved seen draft
      rw [EngineContext.resolveCollisionsFrom]
      generalize engine.resolveCollision policy seen draft = step at hone ⊢
      obtain ⟨hnew, hdistinct⟩ := ih step.1
      refine ⟨fun other hother hplaced => ?_, ?_⟩
      · rcases List.mem_cons.1 hother with rfl | hrest
        · exact hone.new hplaced
        · exact fun hkey => hnew other hrest hplaced (hone.kept _ hkey)
      · refine List.pairwise_cons.2 ⟨fun operation hoperation hfirst hplaced hsame => ?_, hdistinct⟩
        obtain ⟨other, hother, rfl⟩ := List.mem_map.1 hoperation
        exact hnew other hother hplaced (hsame ▸ hone.taken hfirst)

theorem resolveCollisions_distinct (drafts : List DraftOperation) :
    PlacesDistinct engine ((engine.resolveCollisions policy drafts).map (·.operation)) :=
  (resolveCollisionsFrom_distinct drafts []).2

/-! ## Builds -/

theorem buildFull_distinct {run : BuildRun} {request : OrganizationBuildRequest}
    (h : (engine.buildFull run request).status ≠ .cancelled) :
    PlacesDistinct engine (engine.buildFull run request).operations := by
  unfold EngineContext.buildFull at h ⊢
  split
  · rename_i hstopped
    rw [hstopped] at h
    exact absurd rfl h
  · exact resolveCollisions_distinct _

/-- **No two files are proposed for one place**: in a full and in an incremental build that is not
    cancelled, files that are neither kept in place nor without action, and whose conflicts are
    settled, get places of their own. -/
theorem proposed_places_distinct (engine : EngineContext) (run : BuildRun) :
    (∀ request, (engine.buildFull run request).status ≠ .cancelled →
      PlacesDistinct engine (engine.buildFull run request).operations)
    ∧ ∀ request, (engine.buildIncremental run request).proposal.status ≠ .cancelled →
      PlacesDistinct engine (engine.buildIncremental run request).proposal.operations := by
  refine ⟨fun request h => buildFull_distinct h, fun request h => ?_⟩
  unfold EngineContext.buildIncremental at h ⊢
  split
  · rename_i hfallback
    rw [hfallback] at h
    exact buildFull_distinct h
  · exact resolveCollisions_distinct _

/-! ### Files that stay -/

/-- The place a file ends up at: its own one, when it is left alone. -/
def EngineContext.finalKey (engine : EngineContext) (operation : OrganizationProposalOperation) :
    String :=
  if isLeftAlone operation then
    collisionKey engine.toLowercase
      (sourceParentComponents operation.source.relativePath operation.sourceName)
      operation.sourceName
  else engine.placeKey operation

/-- An engine for texts of ASCII characters. -/
def sampleEngine : EngineContext where
  toLowercase := toAsciiLowercase
  title := id
  percent _ := "50"
  proposalConfidence _ _ _ _ := (9 / 10, .high)
  disruptionScore _ _ _ _ := 0

/-- A file nothing is known of. -/
def sampleInput (fileId : FileId) (path name : String) : OrganizationSourceInput where
  fileId := fileId
  fileVersionId := "version"
  sourceRelativePath := path
  sourceName := name
  byteSize := 1
  modifiedAt := none
  contentHash := none
  extractionStatus := none
  semanticStatus := none
  inputQuality := 1
  context := none
  documentType := none
  issueDate := none
  identifier := none
  amount := none
  currency := none
  relationships := []
  reviewReasons := []
  duplicateGroupId := none
  duplicateCanonical := false
  ruleEvaluation := {}

/-- A request for a full build. -/
def sampleRequest (consumerMode : Bool) (inputs : List OrganizationSourceInput)
    (overrides : List OrganizationProposalOverride) : OrganizationBuildRequest where
  proposalId := 1
  revisionId := 1
  workspaceId := 1
  rootId := 1
  sourceScanId := 1
  revision := 1
  createdAt := "2024-01-01T00:00:00Z"
  updatedAt := "2024-01-01T00:00:00Z"
  sourceSemanticVersion := none
  sourceRelationshipVersion := none
  preferences := {}
  inputs
  overrides
  previousOperations := []
  consumerMode
  consumerRootKind := .desktop

def sampleBuildRun : BuildRun where
  newId := id

/-- A file that is where it belongs, and one of the same name that is not. -/
private def settledAndLoose : OrganizationBuildRequest :=
  sampleRequest true
    [sampleInput 1 "Documents/Personnel/a.txt" "a.txt", sampleInput 2 "a.txt" "a.txt"] []

/-- A file is proposed for the place of a file that stays there. -/
theorem moved_onto_kept :
    ∃ a b, (sampleEngine.buildFull sampleBuildRun settledAndLoose).operations = [a, b]
      ∧ (sampleEngine.buildFull sampleBuildRun settledAndLoose).status = .readyForReview
      ∧ isSettled a = true ∧ isSettled b = true ∧ a.fileId ≠ b.fileId
      ∧ sampleEngine.finalKey a = sampleEngine.finalKey b := by
  have hseen : (sampleEngine.buildFull sampleBuildRun settledAndLoose).operations.map
      (fun operation => (isSettled operation, operation.fileId, sampleEngine.finalKey operation))
      = [(true, 1, "documents\\personnel\\a.txt"), (true, 2, "documents\\personnel\\a.txt")] := by
    decide +kernel
  obtain ⟨a, _, hops, ha, hrest⟩ := List.map_eq_cons_iff.1 hseen
  obtain ⟨b, _, rfl, hb, hnil⟩ := List.map_eq_cons_iff.1 hrest
  obtain rfl := List.map_eq_nil_iff.1 hnil
  simp only [Prod.mk.injEq] at ha hb
  refine ⟨a, b, hops, rfl, ha.1, hb.1, ?_, ha.2.2.trans hb.2.2.symm⟩
  rw [ha.2.1, hb.2.1]
  decide

/-- Two files of one name in folders that are not kept together. -/
private def twoLoose : OrganizationBuildRequest :=
  sampleRequest true
    [sampleInput 1 "Documents/a.txt" "a.txt", sampleInput 2 "a.txt" "a.txt"] []

theorem proposed_places_distinct_twoLoose :
    PlacesDistinct sampleEngine (sampleEngine.buildFull sampleBuildRun twoLoose).operations :=
  (proposed_places_distinct sampleEngine sampleBuildRun).1 twoLoose (by decide +kernel)

end Zemo.Organizer
