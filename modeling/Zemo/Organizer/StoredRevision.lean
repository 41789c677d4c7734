import Zemo.Organizer.Carried
import Zemo.Organizer.Submissions

set_option autoImplicit false

/-! # The stored revision

An incremental update stores the operations of the files around the change and copies the rows of
all others. The revision that is loaded is the one that was built exactly when the passes, which go
over all operations, left the copied ones as they were. -/

namespace Zemo.Organizer

/-! ## Lists of one member for each key -/

/-- Two lists with one member for each key, the keys of the first among those of the second, hold
    the same when the second holds nothing else. -/
theorem perm_iff_of_keys {α κ : Type} (key : α → κ) {first second : List α}
    (hfirst : (first.map key).Nodup) (hsecond : (second.map key).Nodup)
    (hkeys : ∀ a ∈ first, key a ∈ second.map key) :
    first.Perm second ↔ ∀ b ∈ second, b ∈ first := by
  constructor
  · exact fun hperm b hb => hperm.mem_iff.2 hb
  · intro hmem
    refine (List.perm_ext_iff_of_nodup hfirst.of_map hsecond.of_map).2 fun a => ⟨fun ha => ?_,
      hmem a⟩
    obtain ⟨b, hb, hkey⟩ := List.mem_map.1 (hkeys a ha)
    exact List.inj_on_of_nodup_map hfirst (hmem b hb) ha hkey ▸ hb

/-- The summary does not depend on the order of the operations. -/
theorem summarize_perm {first second : List OrganizationProposalOperation}
    (h : first.Perm second) : summarize first = summarize second := by
  have hcount : ∀ p, countOperations first p = countOperations second p :=
    fun p => (h.filter p).length_eq
  have hnil : (first = []) = (second = []) := by
    rw [← List.length_eq_zero_iff, h.length_eq, List.length_eq_zero_iff]
  have hdepth : (first.map fun operation => (operation.proposedDepth : Rat)).sum
      = (second.map fun operation => (operation.proposedDepth : Rat)).sum := (h.map _).sum_eq
  have hdeepest : first.foldl
        (fun deepest operation => max deepest (min operation.proposedDepth 4294967295)) 0
      = second.foldl
        (fun deepest operation => max deepest (min operation.proposedDepth 4294967295)) 0 :=
    h.foldl_eq' (fun _ _ _ _ _ => by omega) 0
  simp only [summarize, hcount, hdepth, hdeepest, h.length_eq]
  congr 1
  simp only [hnil]

/-! ## Carried operations -/

variable {engine : EngineContext} {run : BuildRun}
  {incremental : IncrementalOrganizationBuildRequest}

/-- The drafts that were compiled for an incremental build. -/
def IncrementalOrganizationBuildRequest.seeds (incremental : IncrementalOrganizationBuildRequest)
    (engine : EngineContext) (run : BuildRun) : List DraftOperation :=
  engine.compileInputs run incremental.base incremental.neighborhoodInputs

/-- The files whose operations are not copied. -/
def IncrementalOrganizationBuildRequest.affectedFiles
    (incremental : IncrementalOrganizationBuildRequest) (engine : EngineContext) (run : BuildRun) :
    List FileId :=
  incremental.affected engine (incremental.seeds engine run)

/-- The drafts as they come to the collision pass, each with the places asked for before it. -/
def IncrementalOrganizationBuildRequest.asked (incremental : IncrementalOrganizationBuildRequest)
    (engine : EngineContext) (run : BuildRun) : List (List String × DraftOperation) :=
  engine.askedBefore incremental.base.policy []
    (resetCollisionNamesForNeighborhood (incremental.affectedFiles engine run)
      (engine.placeDrafts incremental.base
        (incremental.assembled run (incremental.seeds engine run))))

/-- What the collision pass makes of a draft. -/
def EngineContext.settled (engine : EngineContext) (policy : VirtualPathPolicy)
    (asked : List String × DraftOperation) : OrganizationProposalOperation :=
  (engine.resolveCollision policy asked.1 asked.2).2.operation

theorem incrementalDrafts_eq :
    (engine.incrementalDrafts run incremental).map (·.operation)
      = (incremental.asked engine run).map (engine.settled incremental.base.policy) := by
  rw [EngineContext.incrementalDrafts, EngineContext.resolveCollisions, resolveCollisionsFrom_eq,
    List.map_map]
  rfl

/-- The score of an operation is the one it is measured with. -/
def EngineContext.ScoreKept (engine : EngineContext) (minimumGroupSize : Nat)
    (operation : OrganizationProposalOperation) : Prop :=
  minimumGroupSize ≤ 1 ∨ operation.disruptionScore = engine.disruptionScore
    (sourceParentComponents operation.source.relativePath operation.sourceName)
    operation.proposedDestination operation.sourceName operation.proposedName

instance (minimumGroupSize : Nat) (operation : OrganizationProposalOperation) :
    Decidable (engine.ScoreKept minimumGroupSize operation) :=
  inferInstanceAs (Decidable (_ ∨ _))

instance (seen : List String) (operation : OrganizationProposalOperation) :
    Decidable (engine.PlaceFree seen operation) :=
  inferInstanceAs (Decidable (_ ∨ _))

/-- A carried operation comes out of the passes as it was exactly when its score is the one it is
    measured with and nobody asked for its place before. -/
theorem settled_carried_iff {policy : VirtualPathPolicy} {minimumGroupSize : Nat}
    {id : ProposalItemId} {operation : OrganizationProposalOperation}
    (hmeasured : operation.proposedDepth = operation.proposedDestination.length)
    {asked : List String × DraftOperation}
    (hasked : asked.2
      = engine.regrouped minimumGroupSize (draftFromPreviousOperation id operation)) :
    engine.settled policy asked = { operation with id }
      ↔ engine.ScoreKept minimumGroupSize operation
        ∧ engine.PlaceFree asked.1 asked.2.operation := by
  have hregrouped : asked.2.operation = { operation with id }
      ↔ engine.ScoreKept minimumGroupSize operation := by
    rw [hasked, EngineContext.regrouped, EngineContext.ScoreKept]
    by_cases hsmall : minimumGroupSize ≤ 1
    · simp [hsmall, draftFromPreviousOperation]
    · rw [if_neg hsmall]
      refine ⟨fun h => .inr (congrArg (·.disruptionScore) h).symm, fun h => ?_⟩
      have hscore := h.resolve_left hsmall
      simp only [EngineContext.remeasured, draftFromPreviousOperation]
      rw [← hscore, ← hmeasured]
  have hreasons : asked.2.operation.reasons = operation.reasons := by
    rw [hasked, EngineContext.regrouped]
    split <;> rfl
  constructor
  · intro hsettled
    have hfree : engine.PlaceFree asked.1 asked.2.operation := by
      have hkept : (engine.settled policy asked).reasons = asked.2.operation.reasons := by
        rw [hsettled, hreasons]
      exact resolveCollision_free_of_reasons hkept
    rw [EngineContext.settled, resolveCollision_of_free hfree] at hsettled
    exact ⟨hregrouped.1 hsettled, hfree⟩
  · rintro ⟨hscore, hfree⟩
    rw [EngineContext.settled, resolveCollision_of_free hfree]
    exact hregrouped.2 hscore

/-! ## Operations that are not affected -/

/-- The drafts that were compiled are for affected files. -/
def SeedsAffected (engine : EngineContext) (run : BuildRun)
    (incremental : IncrementalOrganizationBuildRequest) : Prop :=
  ∀ input ∈ incremental.neighborhoodInputs, input.fileId ∈ incremental.affectedFiles engine run

theorem resetCollisionName_unaffected {affected : List FileId} {draft : DraftOperation}
    (h : draft.operation.fileId ∉ affected) : resetCollisionName affected draft = draft :=
  if_pos h

/-- What the collision pass finds, and what there was before the passes. -/
theorem asked_forall₂ (engine : EngineContext) (run : BuildRun)
    (hsource : IncrementalSource incremental) :
    List.Forall₂ (fun draft asked => Follows draft asked.2
        ∧ (draft.operation.fileId ∉ incremental.affectedFiles engine run →
          true ∉ draft.optionalTail →
            asked.2 = engine.regrouped incremental.base.minimumGroupSize draft))
      (incremental.assembled run (incremental.seeds engine run)) (incremental.asked engine run) := by
  set affected := incremental.affectedFiles engine run with haffected
  have hgrouped := Pointwise.and
    (applyMinimumGroupPolicy_follows engine incremental.base.minimumGroupSize
      (incremental.assembled run (incremental.seeds engine run)))
    (applyMinimumGroupPolicy_required engine incremental.base.minimumGroupSize _)
  have hreset := Pointwise.comp hgrouped
    (Pointwise.of_map (R := fun draft result => Follows draft result
        ∧ (draft.operation.fileId ∉ affected → result = draft))
      fun draft _ => ⟨resetCollisionName_follows affected draft, resetCollisionName_unaffected⟩)
    (T := fun draft result => Follows draft result
      ∧ (draft.operation.fileId ∉ affected → true ∉ draft.optionalTail →
        result = engine.regrouped incremental.base.minimumGroupSize draft))
    fun draft grouped result h h' => by
      refine ⟨h.1.trans h'.1, fun hfile htail => ?_⟩
      rw [h'.2 (h.1.fileId ▸ hfile), h.2 htail]
  have hdrafts : (incremental.asked engine run).map (·.2)
      = (engine.applyMinimumGroupPolicy incremental.base.minimumGroupSize
        (incremental.assembled run (incremental.seeds engine run))).map
          (resetCollisionName affected) := by
    rw [IncrementalOrganizationBuildRequest.asked, askedBefore_drafts, EngineContext.placeDrafts,
      hsource.professional]
    rfl
  rw [← hdrafts] at hreset
  exact List.forall₂_map_right_iff.1 hreset

/-- An operation that is not affected is carried over from the revision before. -/
theorem unaffected_carried (hrun : run.Lawful) (hsource : IncrementalSource incremental)
    (hseeds : SeedsAffected engine run incremental) {draft : DraftOperation}
    (hdraft : draft ∈ incremental.assembled run (incremental.seeds engine run))
    (hfile : draft.operation.fileId ∉ incremental.affectedFiles engine run) :
    ∃ operation ∈ incremental.base.previousOperations, ∃ later,
      draft = draftFromPreviousOperation (run.newId later) operation := by
  have hspec := assembled_spec (incremental.seeds engine run) hrun hsource.stored.files_nodup
  rcases hspec.origin draft hdraft with hseed | ⟨operation, hmem, later, -, heq, -⟩
  · obtain ⟨input, hinput, position, rfl⟩ :=
      Pointwise.exists_of_mem_right (compileInputs_forall₂ _ _ _ _) hseed
    rw [(compileInput_for engine run _ input position).fileId] at hfile
    exact absurd (hseeds input hinput) hfile
  · exact ⟨operation, hmem, later, heq⟩

theorem settled_file (engine : EngineContext) (policy : VirtualPathPolicy)
    (asked : List String × DraftOperation) :
    (engine.settled policy asked).id = asked.2.operation.id
      ∧ (engine.settled policy asked).fileId = asked.2.operation.fileId :=
  have hstep : CollisionStep policy asked.2 (engine.resolveCollision policy asked.1 asked.2).2 :=
    resolveCollision_step asked.1 asked.2
  ⟨hstep.follows.id, hstep.follows.fileId⟩

/-- A carried operation that is not affected, as the collision pass finds it. -/
structure CarriedAs (engine : EngineContext) (run : BuildRun)
    (incremental : IncrementalOrganizationBuildRequest) (asked : List String × DraftOperation)
    (operation : OrganizationProposalOperation) : Prop where
  mem : operation ∈ incremental.base.previousOperations
  fileId : asked.2.operation.fileId = operation.fileId
  draft : asked.2 = engine.regrouped incremental.base.minimumGroupSize
    (draftFromPreviousOperation asked.2.operation.id operation)

theorem asked_carried (hrun : run.Lawful) (hsource : IncrementalSource incremental)
    (hseeds : SeedsAffected engine run incremental) {asked : List String × DraftOperation}
    (hasked : asked ∈ incremental.asked engine run)
    (hfile : asked.2.operation.fileId ∉ incremental.affectedFiles engine run) :
    ∃ operation, CarriedAs engine run incremental asked operation := by
  obtain ⟨draft, hdraft, hfollows, hregrouped⟩ :=
    Pointwise.exists_of_mem_right (asked_forall₂ engine run hsource) hasked
  rw [hfollows.fileId] at hfile
  obtain ⟨operation, hmem, later, rfl⟩ := unaffected_carried hrun hsource hseeds hdraft hfile
  have htail : true ∉ (draftFromPreviousOperation (run.newId later) operation).optionalTail := by
    intro hmem
    obtain ⟨_, -, hfalse⟩ := List.mem_map.1 hmem
    exact absurd hfalse Bool.false_ne_true
  refine ⟨operation, hmem, hfollows.fileId, ?_⟩
  rw [hfollows.id]
  exact hregrouped hfile htail

/-- Each operation of the revision before that is not affected is carried. -/
theorem carried_asked (hrun : run.Lawful) (hsource : IncrementalSource incremental)
    (hseeds : SeedsAffected engine run incremental) {operation : OrganizationProposalOperation}
    (hmem : operation ∈ incremental.base.previousOperations)
    (hfile : operation.fileId ∉ incremental.affectedFiles engine run) :
    ∃ asked ∈ incremental.asked engine run, CarriedAs engine run incremental asked operation := by
  have hspec := assembled_spec (incremental.seeds engine run) hrun hsource.stored.files_nodup
  obtain ⟨draft, hdraft, hsame⟩ := List.mem_map.1 (hspec.kept operation hmem fun hdeleted =>
    hfile (deleted_subset_affected hdeleted))
  obtain ⟨asked, hasked, hfollows, -⟩ :=
    Pointwise.exists_of_mem_left (asked_forall₂ engine run hsource) hdraft
  have hfollowed : asked.2.operation.fileId = operation.fileId := hfollows.fileId.trans hsame
  obtain ⟨other, hother⟩ := asked_carried hrun hsource hseeds hasked (hfollowed ▸ hfile)
  have heq : other = operation := List.inj_on_of_nodup_map hsource.stored.files_nodup hother.mem hmem
    (hother.fileId.symm.trans hfollowed)
  exact ⟨asked, hasked, heq ▸ hother⟩

/-! ## Rows -/

/-- The passes leave the operations that are not affected as they were: their scores are those they
    are measured with, and no operation before them asks for their places or is given one. -/
structure CarryUnchanged (engine : EngineContext) (run : BuildRun)
    (incremental : IncrementalOrganizationBuildRequest) : Prop where
  scores : ∀ operation ∈ incremental.base.previousOperations,
    operation.fileId ∉ incremental.affectedFiles engine run →
      engine.ScoreKept incremental.base.minimumGroupSize operation
  places : ∀ asked ∈ incremental.asked engine run,
    asked.2.operation.fileId ∉ incremental.affectedFiles engine run →
      engine.PlaceFree asked.1 asked.2.operation

/-- The operations that are not affected come out of the passes as they were. -/
theorem carryUnchanged_iff (hrun : run.Lawful) (hsource : IncrementalSource incremental)
    (hseeds : SeedsAffected engine run incremental) :
    CarryUnchanged engine run incremental
      ↔ ∀ asked ∈ incremental.asked engine run, ∀ operation,
        CarriedAs engine run incremental asked operation →
        operation.fileId ∉ incremental.affectedFiles engine run →
          engine.settled incremental.base.policy asked
            = { operation with id := asked.2.operation.id } := by
  have hsettled : ∀ asked operation, CarriedAs engine run incremental asked operation →
      (engine.settled incremental.base.policy asked
          = { operation with id := asked.2.operation.id }
        ↔ engine.ScoreKept incremental.base.minimumGroupSize operation
          ∧ engine.PlaceFree asked.1 asked.2.operation) :=
    fun asked operation h =>
      settled_carried_iff (hsource.stored.stored operation h.mem).measured h.draft
  constructor
  · intro h asked hasked operation hcarried hfile
    exact (hsettled asked operation hcarried).2
      ⟨h.scores operation hcarried.mem hfile, h.places asked hasked (hcarried.fileId ▸ hfile)⟩
  · intro h
    refine ⟨fun operation hmem hfile => ?_, fun asked hasked hfile => ?_⟩
    · obtain ⟨asked, hasked, hcarried⟩ := carried_asked hrun hsource hseeds hmem hfile
      exact ((hsettled asked operation hcarried).1 (h asked hasked operation hcarried hfile)).1
    · obtain ⟨operation, hcarried⟩ := asked_carried hrun hsource hseeds hasked hfile
      exact ((hsettled asked operation hcarried).1
        (h asked hasked operation hcarried (hcarried.fileId ▸ hfile))).2

variable {newRowId : ProposalItemId → ProposalItemId} {proposal : OrganizationProposal}
  {changed : List FileId}

/-- The operations of an incremental build are for different files. -/
theorem settled_files_nodup (hrun : run.Lawful) (hsource : IncrementalSource incremental) :
    (((incremental.asked engine run).map (engine.settled incremental.base.policy)).map
      (·.fileId)).Nodup := by
  have hspec := assembled_spec (incremental.seeds engine run) hrun hsource.stored.files_nodup
  have hfiles := Pointwise.map_eq (asked_forall₂ engine run hsource)
    (f := fun draft => draft.operation.fileId) (g := fun asked => asked.2.operation.fileId)
    fun _ _ h => h.1.fileId
  rw [List.map_map]
  refine (List.map_congr_left fun asked _ => ?_) ▸ hfiles ▸ hspec.files_nodup
  exact (settled_file engine incremental.base.policy asked).2.symm

/-- The identifier a proposal has for a file that did not change is that of its operation. -/
theorem memoryUnchanged_eq (hnodup : (proposal.operations.map (·.fileId)).Nodup)
    {operation : OrganizationProposalOperation} (hmem : operation ∈ proposal.operations)
    (hfile : operation.fileId ∉ changed) :
    memoryUnchanged proposal changed operation.fileId = some operation.id := by
  have hlast := getLast?_filter_eq_some (p := fun other =>
      other.fileId ∉ changed && other.fileId = operation.fileId) hmem
    (by simp [hfile]) fun other hother hsame =>
      List.inj_on_of_nodup_map hnodup hother hmem
        (of_decide_eq_true (Bool.and_eq_true .. ▸ hsame).2)
  rw [memoryUnchanged, hlast]
  rfl

/-- The rows of a revision are the operations of the build exactly when the passes left those that
    are not affected as they were. -/
theorem incrementalRows_perm_iff (hrun : run.Lawful) (hsource : IncrementalSource incremental)
    (hseeds : SeedsAffected engine run incremental)
    (hproposal : proposal.operations
      = (incremental.asked engine run).map (engine.settled incremental.base.policy))
    (hchanged : ∀ fileId, fileId ∈ changed ↔ fileId ∈ incremental.affectedFiles engine run) :
    (incrementalRows newRowId proposal incremental.base.previousOperations changed).Perm
        proposal.operations
      ↔ CarryUnchanged engine run incremental := by
  have hnodup : (proposal.operations.map (·.fileId)).Nodup :=
    hproposal ▸ settled_files_nodup hrun hsource
  have hsplit : ∀ rows : List OrganizationProposalOperation,
      (rows ++ proposal.operations.filter fun operation => operation.fileId ∈ changed).Perm
          proposal.operations
        ↔ rows.Perm (proposal.operations.filter fun operation => operation.fileId ∉ changed) := by
    intro rows
    have hparts := List.filter_append_perm
      (fun operation : OrganizationProposalOperation => decide (operation.fileId ∉ changed))
      proposal.operations
    simp only [decide_not, Bool.not_not] at hparts
    simp only [decide_not]
    exact ⟨fun h => (List.perm_append_right_iff _).1 (h.trans hparts.symm),
      fun h => ((List.perm_append_right_iff _).2 h).trans hparts⟩
  rw [incrementalRows, hsplit, carryUnchanged_iff hrun hsource hseeds]
  set copies := (incremental.base.previousOperations.filter fun row => row.fileId ∉ changed).map
    (copiedRow newRowId proposal changed) with hcopies
  -- a copied row is the operation under the identifier the proposal has for its file
  have hcopied : ∀ asked ∈ incremental.asked engine run, ∀ operation,
      CarriedAs engine run incremental asked operation →
      operation.fileId ∉ incremental.affectedFiles engine run →
        (engine.settled incremental.base.policy asked ∈ copies
          ↔ engine.settled incremental.base.policy asked
            = { operation with id := asked.2.operation.id }) := by
    intro asked hasked operation hcarried hfile
    obtain ⟨hid, hsame⟩ := settled_file engine incremental.base.policy asked
    have hunchanged : operation.fileId ∉ changed := fun h => hfile ((hchanged _).1 h)
    have hmemory := memoryUnchanged_eq hnodup
      (hproposal ▸ List.mem_map_of_mem (f := engine.settled incremental.base.policy) hasked)
      (hsame.trans hcarried.fileId ▸ hunchanged)
    rw [hsame, hid, hcarried.fileId] at hmemory
    have hrow : copiedRow newRowId proposal changed operation
        = { operation with id := asked.2.operation.id } := by
      rw [copiedRow, hmemory]
      rfl
    rw [hcopies, List.mem_map]
    constructor
    · rintro ⟨row, hrow', heq⟩
      have hrowFile : row.fileId = operation.fileId := by
        have := congrArg (·.fileId) heq
        exact this.trans (hsame.trans hcarried.fileId)
      have := List.inj_on_of_nodup_map hsource.stored.files_nodup (List.mem_filter.1 hrow').1
        hcarried.mem hrowFile
      rw [← heq, this, hrow]
    · intro heq
      exact ⟨operation, List.mem_filter.2 ⟨hcarried.mem, decide_eq_true hunchanged⟩,
        hrow.trans heq.symm⟩
  have hfirst : (copies.map (·.fileId)).Nodup := by
    rw [hcopies, List.map_map]
    exact hsource.stored.files_nodup.sublist
      (List.filter_sublist.map OrganizationProposalOperation.fileId)
  have hkeys : ∀ row ∈ copies, row.fileId
      ∈ (proposal.operations.filter fun operation => operation.fileId ∉ changed).map (·.fileId) := by
    intro row hrow
    obtain ⟨operation, hoperation, rfl⟩ := List.mem_map.1 hrow
    obtain ⟨hmem, hunchanged⟩ := List.mem_filter.1 hoperation
    replace hunchanged := of_decide_eq_true hunchanged
    obtain ⟨asked, hasked, hcarried⟩ := carried_asked hrun hsource hseeds hmem
      fun hfile => hunchanged ((hchanged _).2 hfile)
    have hfile := (settled_file engine incremental.base.policy asked).2.trans hcarried.fileId
    refine List.mem_map.2 ⟨engine.settled incremental.base.policy asked, ?_, hfile⟩
    exact List.mem_filter.2 ⟨hproposal ▸ List.mem_map_of_mem hasked,
      decide_eq_true (hfile ▸ hunchanged)⟩
  rw [perm_iff_of_keys (·.fileId) hfirst (hnodup.sublist (List.filter_sublist.map _)) hkeys]
  constructor
  · intro h asked hasked operation hcarried hfile
    have hsame := (settled_file engine incremental.base.policy asked).2.trans hcarried.fileId
    refine (hcopied asked hasked operation hcarried hfile).1 (h _ (List.mem_filter.2
      ⟨hproposal ▸ List.mem_map_of_mem hasked, decide_eq_true ?_⟩))
    exact hsame ▸ fun hmem => hfile ((hchanged _).1 hmem)
  · intro h operation hoperation
    obtain ⟨hmem, hunchanged⟩ := List.mem_filter.1 hoperation
    replace hunchanged := of_decide_eq_true hunchanged
    rw [hproposal] at hmem
    obtain ⟨asked, hasked, rfl⟩ := List.mem_map.1 hmem
    have hsame := (settled_file engine incremental.base.policy asked).2
    have hfile : asked.2.operation.fileId ∉ incremental.affectedFiles engine run :=
      fun hfile => hunchanged (hsame ▸ (hchanged _).2 hfile)
    obtain ⟨previous, hcarried⟩ := asked_carried hrun hsource hseeds hasked hfile
    have hprevious := hcarried.fileId ▸ hfile
    exact (hcopied asked hasked previous hcarried hprevious).2
      (h asked hasked previous hcarried hprevious)

/-! ## The update of the application -/

/-- What is loaded is what was built: the same operations, and the counts that were stored are
    theirs. -/
structure LoadedAsBuilt (loaded : List OrganizationProposalOperation) (revision : StoredRevision)
    (proposal : OrganizationProposal) : Prop where
  operations : loaded.Perm proposal.operations
  counts : summarize loaded = revision.summary

variable {source : ProposalSource} {previous : OrganizationProposal} {dirty deleted : List FileId}

theorem incrementalRequest_seedsAffected :
    SeedsAffected engine run (source.incrementalRequest engine previous dirty deleted) := by
  intro input hinput
  have hnear := of_decide_eq_true (List.mem_filter.1 hinput).2
  exact neighborhood_subset_affected (List.mem_filter.1 hnear).1

theorem buildIncremental_affected (request : IncrementalOrganizationBuildRequest)
    (h : engine.fallbackReason run request = none) :
    (engine.buildIncremental run request).affectedFileIds = request.affectedFiles engine run := by
  unfold EngineContext.buildIncremental
  rw [h]
  rfl

/-- **When the stored incremental revision is the one that was built**: of an incremental update
    that goes through and is stored, what is loaded are the operations of its outcome, with the
    counts that were stored, exactly when the passes left the operations outside of the affected
    files as they were. -/
theorem stored_revision_iff (hrun : run.Lawful) (hcurrent : StoredOperations previous.operations)
    (hthrough : source.goesThrough engine run previous dirty deleted)
    {revision : StoredRevision} {loaded : List OrganizationProposalOperation}
    (hpersist :
      let outcome := engine.buildIncremental run
        (source.incrementalRequest engine previous dirty deleted)
      persistOrganizationProposalIncremental newRowId outcome.proposal "semantic_changed"
        previous.operations (outcome.affectedFileIds ++ deleted) = .ok revision)
    (hloaded : loaded.Perm revision.operations) :
    LoadedAsBuilt loaded revision (engine.buildIncremental run
        (source.incrementalRequest engine previous dirty deleted)).proposal
      ↔ CarryUnchanged engine run (source.incrementalRequest engine previous dirty deleted) := by
  set request := source.incrementalRequest engine previous dirty deleted with hrequest
  have hsource : IncrementalSource request := incrementalRequest_source hcurrent
  obtain ⟨-, hproposal⟩ := buildIncremental_drafts engine run request hthrough.2.2
  have haffected := buildIncremental_affected request hthrough.2.2
  obtain ⟨hrows, hsummary⟩ := persistOrganizationProposalIncremental_ok hpersist
  have hoperations : (engine.buildIncremental run request).proposal.operations
      = (request.asked engine run).map (engine.settled request.base.policy) := by
    rw [hproposal]
    exact incrementalDrafts_eq
  have hchanged : ∀ fileId, fileId ∈ (engine.buildIncremental run request).affectedFileIds
      ++ deleted ↔ fileId ∈ request.affectedFiles engine run := by
    intro fileId
    rw [haffected, List.mem_append]
    exact or_iff_left_of_imp fun h =>
      deleted_subset_affected (show fileId ∈ request.deletedFileIds from h)
  have hiff : (incrementalRows newRowId _ previous.operations _).Perm _ ↔ _ :=
    incrementalRows_perm_iff hrun hsource incrementalRequest_seedsAffected hoperations hchanged
  constructor
  · exact fun h => hiff.1 (hrows ▸ hloaded.symm.trans h.operations)
  · intro h
    have hperm := hloaded.trans (hrows ▸ hiff.2 h)
    refine ⟨hperm, ?_⟩
    rw [summarize_perm hperm, hsummary, hproposal]
    rfl

/-! ### Two files one user wants in one place -/

/-- The files of a root: two of one name that nothing is known of, and an archive. -/
private def clashingInputs : List OrganizationSourceInput :=
  let confirmed := fun value : String =>
    some { value, confidence := 1, status := "confirmed", userConfirmed := true : ProposalSignal }
  [sampleInput 1 "p/a.txt" "a.txt", sampleInput 2 "q/a.txt" "a.txt",
    { sampleInput 3 "c.zip" "c.zip" with
      context := confirmed "personal"
      documentType := confirmed "archive"
      semanticStatus := some "success" }]

/-- A full build makes operations that can be carried on from. -/
private theorem buildFull_stored {request : OrganizationBuildRequest}
    (hdone : (engine.buildFull run request).status ≠ .cancelled)
    (hnodup : (request.inputs.map (·.fileId)).Nodup)
    (hoverrides : ∀ value ∈ request.overrides, StoredOverride value)
    (hfits : ∀ draft ∈ engine.fullDrafts run request, FitsTable draft.operation) :
    StoredOperations (engine.buildFull run request).operations := by
  rw [buildFull_drafts engine run request hdone]
  exact fullDrafts_stored hnodup hoverrides hfits

/-- The user wants a file in a folder. -/
private def wantedIn (folder : String) (fileId : FileId) : OrganizationProposalOverride where
  fileId := fileId
  action := .destination
  destination := some [folder]
  proposedName := none
  reason := none

/-- The user wants the files of one name in these two folders. -/
private def wanted (first second : String) : List OrganizationProposalOverride :=
  [wantedIn first 1, wantedIn second 2]

/-- What there is once the archive is gone. -/
private def archiveGone (first second : String)
    (hvalid : ∀ value ∈ wanted first second, validateOverride value = .ok ()) : ProposalSource where
  workspaceId := 1
  rootId := 1
  scanId := 1
  semanticVersion := none
  relationshipVersion := none
  files := clashingInputs.take 2
  preferences := {}
  consumerRootKind := .desktop
  current := none
  revisionNumber := 1
  overrides := wanted first second
  now := "2024-01-01T00:00:00Z"
  newProposalId := 1
  newRevisionId := 2
  files_nodup := by decide
  overrides_valid := hvalid

private theorem wanted_valid {second : String} (h : second = "Papers" ∨ second = "Letters") :
    ∀ value ∈ wanted "Papers" second, validateOverride value = .ok () := by
  intro value hvalue
  rcases h with rfl | rfl <;> rcases List.mem_pair.1 hvalue with rfl | rfl <;> decide +kernel

/-- The revision before, with the archive. -/
private def withArchive (first second : String) : OrganizationProposal :=
  sampleEngine.buildFull sampleBuildRun (sampleRequest false clashingInputs (wanted first second))

/-- The update after the archive is gone, when the second file is wanted in some folder. -/
private def updated (second : String) (h : second = "Papers" ∨ second = "Letters") :
    OrganizationBuildOutcome :=
  sampleEngine.buildIncremental sampleBuildRun
    ((archiveGone "Papers" second (wanted_valid h)).incrementalRequest sampleEngine
      (withArchive "Papers" second) [] [3])

/-- What is stored of the update. -/
private def storedUpdate (second : String) (h : second = "Papers" ∨ second = "Letters") :
    Except ProposalStoreError StoredRevision :=
  persistOrganizationProposalIncremental id (updated second h).proposal "semantic_changed"
    (withArchive "Papers" second).operations ((updated second h).affectedFileIds ++ [3])

/-- Two files are wanted in one place, and an archive is deleted: the update tells the user of the
    conflict once more, and stores that it did not. -/
theorem stored_revision_outdated :
    (archiveGone "Papers" "Papers" (wanted_valid (.inl rfl))).goesThrough sampleEngine
        sampleBuildRun (withArchive "Papers" "Papers") [] [3]
      ∧ ∃ revision, storedUpdate "Papers" (.inl rfl) = .ok revision
        ∧ ∀ loaded, loaded.Perm revision.operations →
          ¬LoadedAsBuilt loaded revision (updated "Papers" (.inl rfl)).proposal := by
  obtain ⟨revision, hrevision⟩ : ∃ revision, storedUpdate "Papers" (.inl rfl) = .ok revision :=
    Checked.exists_of_isOk (by decide +kernel)
  refine ⟨by decide +kernel, revision, hrevision, fun loaded hloaded hbuilt => ?_⟩
  obtain ⟨hrows, -⟩ := persistOrganizationProposalIncremental_ok hrevision
  have hperm := ((hloaded.symm.trans hbuilt.operations).map (·.reasons.length)).sum_eq
  rw [hrows] at hperm
  revert hperm
  decide +kernel

/-- Where the two files are wanted in different places, the update is stored as it was built. -/
theorem stored_revision_iff_apart :
    ∃ revision, storedUpdate "Letters" (.inr rfl) = .ok revision
      ∧ LoadedAsBuilt revision.operations revision (updated "Letters" (.inr rfl)).proposal := by
  obtain ⟨revision, hrevision⟩ : ∃ revision, storedUpdate "Letters" (.inr rfl) = .ok revision :=
    Checked.exists_of_isOk (by decide +kernel)
  have hoverrides : ∀ value ∈ (sampleRequest false clashingInputs
      (wanted "Papers" "Letters")).overrides, StoredOverride value :=
    fun value hvalue => validateOverride_ok (wanted_valid (.inr rfl) value hvalue)
  have hcurrent : StoredOperations (withArchive "Papers" "Letters").operations :=
    buildFull_stored (by decide +kernel) (by decide +kernel) hoverrides (by decide +kernel)
  have hthrough : (archiveGone "Papers" "Letters" (wanted_valid (.inr rfl))).goesThrough
      sampleEngine sampleBuildRun (withArchive "Papers" "Letters") [] [3] := by decide +kernel
  have hiff := stored_revision_iff sampleBuildRun_lawful hcurrent hthrough hrevision
    (List.Perm.refl _)
  exact ⟨revision, hrevision, hiff.2 ⟨by decide +kernel, by decide +kernel⟩⟩

end Zemo.Organizer
