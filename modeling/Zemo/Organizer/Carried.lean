import Mathlib.Data.List.Dedup
import Zemo.Organizer.Assembled
import Zemo.Organizer.PassRules

set_option autoImplicit false

/-! # What the passes do to carried operations

The files around a change are recompiled; the operations of the others are carried over and go
through the passes again. The group policy measures them anew, and the collision pass changes those
whose place was asked for before. -/

namespace Zemo.Organizer

variable {engine : EngineContext} {policy : VirtualPathPolicy}

/-! ## Neighborhoods -/

/-- The operations a neighborhood grows from. -/
def absorbedOperations (changed : List FileId)
    (previousOperations : List OrganizationProposalOperation) (seedDrafts : List DraftOperation) :
    List OrganizationProposalOperation :=
  (changed.filterMap fun fileId =>
      (previousOperations.filter fun operation => operation.fileId = fileId).getLast?)
    ++ seedDrafts.map (·.operation)

theorem absorbedOperations_mono {changed more : List FileId} (h : ∀ fileId ∈ changed, fileId ∈ more)
    {previousOperations : List OrganizationProposalOperation} {seedDrafts : List DraftOperation} :
    ∀ operation ∈ absorbedOperations changed previousOperations [],
      operation ∈ absorbedOperations more previousOperations seedDrafts := by
  intro operation hoperation
  rw [absorbedOperations, List.map_nil, List.append_nil] at hoperation
  obtain ⟨fileId, hfile, hlast⟩ := List.mem_filterMap.1 hoperation
  exact List.mem_append_left _ (List.mem_filterMap.2 ⟨fileId, h fileId hfile, hlast⟩)

/-- A file is in a neighborhood when it changed itself, or has to do with what changed. -/
theorem mem_expandInvalidationNeighborhood {dirty deleted : List FileId}
    {previousOperations : List OrganizationProposalOperation} {seedDrafts : List DraftOperation}
    {fileId : FileId} :
    fileId ∈ engine.expandInvalidationNeighborhood dirty deleted previousOperations seedDrafts
      ↔ fileId ∈ dirty ++ deleted ∨ ∃ operation ∈ previousOperations, operation.fileId = fileId
        ∧ (absorbedOperations (dirty ++ deleted) previousOperations seedDrafts).any
          (engine.isNear operation) = true := by
  unfold EngineContext.expandInvalidationNeighborhood
  simp only [List.mem_dedup]
  rw [List.mem_append]
  constructor
  · rintro (h | h)
    · exact .inl h
    · obtain ⟨operation, hoperation, rfl⟩ := List.mem_map.1 h
      obtain ⟨hmem, hnear⟩ := List.mem_filter.1 hoperation
      exact .inr ⟨operation, hmem, rfl, (Bool.and_eq_true .. ▸ hnear).2⟩
  · rintro (h | ⟨operation, hmem, rfl, hnear⟩)
    · exact .inl h
    · by_cases hchanged : operation.fileId ∈ dirty ++ deleted
      · exact .inl hchanged
      · exact .inr (List.mem_map_of_mem (List.mem_filter.2 ⟨hmem, Bool.and_eq_true .. ▸
          ⟨decide_eq_true hchanged, hnear⟩⟩))

variable {request : IncrementalOrganizationBuildRequest} {seedDrafts : List DraftOperation}

/-- The files that are read again are among those that may not be carried over. -/
theorem neighborhood_subset_affected {fileId : FileId}
    (h : fileId ∈ engine.computeInvalidationNeighborhood request.dirtyFileIds
      request.deletedFileIds request.base.previousOperations) :
    fileId ∈ request.affected engine seedDrafts := by
  unfold EngineContext.computeInvalidationNeighborhood at h
  unfold IncrementalOrganizationBuildRequest.affected
  rw [mem_expandInvalidationNeighborhood] at h ⊢
  have hmore : ∀ fileId ∈ request.dirtyFileIds ++ request.deletedFileIds,
      fileId ∈ request.dirtyFileIds ++ request.deletedFileIds ++ request.deletedFileIds :=
    fun _ hmem => List.mem_append_left _ hmem
  refine h.imp (hmore fileId) ?_
  rintro ⟨operation, hmem, hfile, hnear⟩
  obtain ⟨changed, hchanged, hisNear⟩ := List.any_eq_true.1 hnear
  exact ⟨operation, hmem, hfile, List.any_eq_true.2
    ⟨changed, absorbedOperations_mono hmore changed hchanged, hisNear⟩⟩

theorem deleted_subset_affected {fileId : FileId} (h : fileId ∈ request.deletedFileIds) :
    fileId ∈ request.affected engine seedDrafts := by
  unfold IncrementalOrganizationBuildRequest.affected
  rw [mem_expandInvalidationNeighborhood]
  exact .inl (List.mem_append_right _ h)

/-! ## The group policy -/

/-- What the group policy makes of a draft with no folder that may be left out. -/
def EngineContext.regrouped (engine : EngineContext) (minimumGroupSize : Nat)
    (draft : DraftOperation) : DraftOperation :=
  if minimumGroupSize ≤ 1 then draft else engine.remeasured draft

theorem applyMinimumGroupPolicy_required (engine : EngineContext) (minimumGroupSize : Nat)
    (drafts : List DraftOperation) :
    List.Forall₂ (fun draft result => true ∉ draft.optionalTail →
        result = engine.regrouped minimumGroupSize draft) drafts
      (engine.applyMinimumGroupPolicy minimumGroupSize drafts) := by
  unfold EngineContext.applyMinimumGroupPolicy EngineContext.regrouped
  by_cases hsmall : minimumGroupSize ≤ 1
  · simp only [if_pos hsmall]
    exact List.forall₂_same.2 fun _ _ _ => rfl
  · simp only [if_neg hsmall]
    have hloop : List.Forall₂ (fun draft result => true ∉ draft.optionalTail → result = draft)
        drafts (engine.groupLoop minimumGroupSize (drafts.map (·.optionalTail.length)).sum drafts) :=
      groupLoop_forall₂ (fun _ _ => rfl) (fun _ _ _ h h' htail => by
          have hsame := h htail
          exact (h' (hsame ▸ htail)).trans hsame)
        (fun _ hlast htail => absurd (List.mem_of_getLast? hlast) htail) _ _ _
    exact Pointwise.comp hloop (Pointwise.of_map (R := fun draft result =>
      result = engine.remeasured draft) fun _ _ => rfl) fun _ _ _ h h' htail => h htail ▸ h'

/-! ## The collision pass -/

/-- Each draft with the places that were asked for or given away before it. -/
def EngineContext.askedBefore (engine : EngineContext) (policy : VirtualPathPolicy) :
    List String → List DraftOperation → List (List String × DraftOperation)
  | _, [] => []
  | seen, draft :: rest =>
      (seen, draft) ::
        EngineContext.askedBefore engine policy (engine.resolveCollision policy seen draft).1 rest

theorem askedBefore_drafts (seen : List String) (drafts : List DraftOperation) :
    (engine.askedBefore policy seen drafts).map (·.2) = drafts := by
  induction drafts generalizing seen with
  | nil => rfl
  | cons draft rest ih => rw [EngineContext.askedBefore, List.map_cons, ih]

theorem resolveCollisionsFrom_eq (seen : List String) (drafts : List DraftOperation) :
    engine.resolveCollisionsFrom policy seen drafts
      = (engine.askedBefore policy seen drafts).map fun asked =>
        (engine.resolveCollision policy asked.1 asked.2).2 := by
  induction drafts generalizing seen with
  | nil => rfl
  | cons draft rest ih =>
      rw [EngineContext.askedBefore, List.map_cons, ← ih]
      rfl

/-- A place nobody has asked for before. -/
def EngineContext.PlaceFree (engine : EngineContext) (seen : List String)
    (operation : OrganizationProposalOperation) : Prop :=
  isLeftAlone operation = true ∨ engine.placeKey operation ∉ seen

theorem resolveCollision_of_free {seen : List String} {draft : DraftOperation}
    (h : engine.PlaceFree seen draft.operation) :
    (engine.resolveCollision policy seen draft).2 = draft := by
  unfold EngineContext.resolveCollision
  by_cases hleft : isLeftAlone draft.operation = true
  · rw [if_pos hleft]
  · rw [if_neg hleft]
    have hnew := h.resolve_left hleft
    simp only [List.count_eq_zero.2 hnew, Nat.zero_add, if_true]

/-- An operation whose place was asked for before is given a reason more. -/
theorem resolveCollision_free_of_reasons {seen : List String} {draft : DraftOperation}
    (h : (engine.resolveCollision policy seen draft).2.operation.reasons
      = draft.operation.reasons) :
    engine.PlaceFree seen draft.operation := by
  have hmore : ∀ reason : OrganizationReason,
      draft.operation.reasons ++ [reason] ≠ draft.operation.reasons :=
    fun reason heq => absurd (List.append_right_eq_self.1 heq) (List.cons_ne_nil _ _)
  by_cases hleft : isLeftAlone draft.operation = true
  · exact .inl hleft
  refine .inr fun hasked => ?_
  have hcount := List.count_pos_iff.2 hasked
  unfold EngineContext.resolveCollision at h
  rw [if_neg hleft] at h
  simp only at h
  rw [if_neg (by omega)] at h
  split at h
  · exact hmore _ h
  · split at h
    · exact hmore _ h
    · exact hmore _ h

end Zemo.Organizer
