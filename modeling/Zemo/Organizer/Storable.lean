import Zemo.Organizer.Builders
import Zemo.Organizer.Assembled
import Zemo.Organizer.Compiled
import Zemo.Organizer.Places

set_option autoImplicit false

/-! # Which builds are stored

Whether a proposal that was built can be stored is settled file by file, before anything is built:
by the folders of the files a user leaves in place, and in a one-click organization by the folders
that come along with a file. -/

namespace Zemo.Organizer

open VirtualPathPolicy

variable {engine : EngineContext}

/-! ## Folders that stay together -/

/-- The folders a file goes under together with the folder at the top it is in. -/
def EngineContext.bundledFolders (engine : EngineContext) (inputs : List OrganizationSourceInput)
    (rootKind : ConsumerRootKind) (input : OrganizationSourceInput) : Option (List String) :=
  match normalizedSourceComponents input.sourceRelativePath with
  | first :: second :: rest =>
      let members := bundleMembers inputs (toAsciiLowercase first)
      members.head?.map fun canonical =>
        consumerBundleBase rootKind (engine.bundleKind members) (canonical.bundleTop.getD first)
          ++ (second :: rest).dropLast
  | _ => none

/-- The folders of a file that is kept with its folder at the top: no decision of the user is stored
    for it, and its path can be fitted. -/
def EngineContext.keptTogether (engine : EngineContext) (request : OrganizationBuildRequest)
    (input : OrganizationSourceInput) : Option (List String) :=
  if (request.overrideOf input.fileId).isSome then none
  else
    (engine.bundledFolders request.inputs request.consumerRootKind input).filter fun folders =>
      (request.policy.fitMachinePath (folders.take request.policy.maximumDepth)
        input.sourceName).valid

/-- What the bundle policy makes of one draft. -/
def EngineContext.bundleStep (engine : EngineContext) (inputs : List OrganizationSourceInput)
    (rootKind : ConsumerRootKind) (policy : VirtualPathPolicy) (draft : DraftOperation) :
    DraftOperation :=
  if draft.operation.userOverride || draft.operation.stale then draft
  else
    match inputOf inputs draft.operation.fileId with
    | none => draft
    | some input =>
        match engine.bundlePlace inputs rootKind policy input with
        | none => draft
        | some place => draft.bundled policy input place

theorem applyConsumerFolderBundlePolicy_eq {inputs : List OrganizationSourceInput}
    {rootKind : ConsumerRootKind} {policy : VirtualPathPolicy} {drafts : List DraftOperation} :
    engine.applyConsumerFolderBundlePolicy inputs rootKind policy drafts
      = drafts.map (engine.bundleStep inputs rootKind policy) := rfl

/-- A folder that stays together goes under folders for its kind. -/
theorem consumerBundleBase_ne_nil (rootKind : ConsumerRootKind) (kind : ConsumerFolderBundleKind)
    (top : String) : consumerBundleBase rootKind kind top ≠ [] := by
  cases kind <;> cases rootKind <;> exact List.cons_ne_nil _ _

variable {inputs : List OrganizationSourceInput} {rootKind : ConsumerRootKind}
  {policy : VirtualPathPolicy} {input : OrganizationSourceInput}

theorem bundledFolders_ne_nil {folders : List String}
    (h : engine.bundledFolders inputs rootKind input = some folders) : folders ≠ [] := by
  unfold EngineContext.bundledFolders at h
  split at h
  · obtain ⟨canonical, -, rfl⟩ := Option.map_eq_some_iff.1 h
    exact List.append_ne_nil_of_left_ne_nil (consumerBundleBase_ne_nil _ _ _) _
  · exact nomatch h

theorem bundlePlace_destination (engine : EngineContext) (inputs : List OrganizationSourceInput)
    (rootKind : ConsumerRootKind) (policy : VirtualPathPolicy) (input : OrganizationSourceInput) :
    (engine.bundlePlace inputs rootKind policy input).map (·.destination)
      = (engine.bundledFolders inputs rootKind input).map (·.take policy.maximumDepth) := by
  unfold EngineContext.bundlePlace EngineContext.bundledFolders
  rcases normalizedSourceComponents input.sourceRelativePath with _ | ⟨first, _ | ⟨second, rest⟩⟩
  · rfl
  · rfl
  · simp only
    cases bundleMembers inputs (toAsciiLowercase first) <;> rfl

/-- The bundle policy does not touch what file an operation is for. -/
theorem bundleStep_file (inputs : List OrganizationSourceInput) (rootKind : ConsumerRootKind)
    (policy : VirtualPathPolicy) (draft : DraftOperation) :
    (engine.bundleStep inputs rootKind policy draft).operation.id = draft.operation.id
      ∧ (engine.bundleStep inputs rootKind policy draft).operation.fileId
        = draft.operation.fileId := by
  unfold EngineContext.bundleStep
  split
  · exact ⟨rfl, rfl⟩
  split
  · exact ⟨rfl, rfl⟩
  split
  · exact ⟨rfl, rfl⟩
  · unfold DraftOperation.bundled
    simp only
    split <;> exact ⟨rfl, rfl⟩

/-! ## The condition on a file -/

/-- The row of a file of a one-click organization is accepted. -/
def ConsumerFileFits (engine : EngineContext) (request : OrganizationBuildRequest)
    (input : OrganizationSourceInput) : Prop :=
  (∀ folders ∈ engine.keptTogether request input, folders.length ≤ 8)
    ∧ (engine.keptTogether request input = none →
      CompiledFits (request.overrideOf input.fileId) input
        (engine.takenOver request.policy request.consumerRootKind input).length)

instance (request : OrganizationBuildRequest) (input : OrganizationSourceInput) :
    Decidable (ConsumerFileFits engine request input) :=
  inferInstanceAs (Decidable (_ ∧ _))

/-- The row of a file is accepted. -/
def FileFits (engine : EngineContext) (request : OrganizationBuildRequest)
    (input : OrganizationSourceInput) : Prop :=
  (request.consumerMode = true → ConsumerFileFits engine request input)
    ∧ (request.consumerMode = false →
      keepsInPlace (request.overrideOf input.fileId) = true → OwnPlaceFits input)

instance (request : OrganizationBuildRequest) (input : OrganizationSourceInput) :
    Decidable (FileFits engine request input) :=
  inferInstanceAs (Decidable (_ ∧ _))

theorem fileFits_professional {request : OrganizationBuildRequest}
    (hmode : request.consumerMode = false) :
    FileFits engine request input
      ↔ (keepsInPlace (request.overrideOf input.fileId) = true → OwnPlaceFits input) := by
  simp [FileFits, hmode]

/-! ## Passes of a one-click organization -/

theorem bundled_judged {place : BundlePlace} (draft : DraftOperation)
    (hvalid : (policy.fitMachinePath place.destination input.sourceName).valid = true)
    (hplace : place.destination ≠ []) (hfilename : 2 ≤ policy.maximumFilenameUtf16) :
    Judged (place.destination.length ≤ 8) (draft.bundled policy input place)
      ∧ Measured (draft.bundled policy input place) := by
  have hpositive : 0 < pathLengthUtf16 place.destination input.sourceName :=
    pathLengthUtf16_pos_iff.2 (.inl hplace)
  unfold DraftOperation.bundled
  simp only [hvalid, Bool.true_eq_false, if_false]
  refine ⟨⟨fitMachinePath_name_ne_empty hfilename _ _, fun hmem => ?_, .inr ⟨hpositive, hpositive⟩,
    and_iff_left hpositive⟩, rfl⟩
  obtain ⟨_, -, hfalse⟩ := List.mem_map.1 hmem
  exact absurd hfalse Bool.false_ne_true

theorem unbundled_judged {place : BundlePlace} {draft : DraftOperation} {c : Prop}
    (hvalid : (policy.fitMachinePath place.destination input.sourceName).valid = false)
    (h : Judged c draft) (hmeasured : Measured draft) :
    Judged c (draft.bundled policy input place) ∧ Measured (draft.bundled policy input place) := by
  unfold DraftOperation.bundled
  simp only [hvalid, if_true]
  exact ⟨⟨h.machineNamed, h.droppable, h.placed, h.fits⟩, hmeasured⟩

/-- The bundle policy leaves a row that is judged by the folders the file is kept with, or as it was
    before. -/
theorem bundleStep_judged {request : OrganizationBuildRequest} {draft : DraftOperation}
    (hmode : request.consumerMode = true)
    (hinput : inputOf request.inputs draft.operation.fileId = some input)
    (huser : draft.operation.userOverride = (request.overrideOf input.fileId).isSome)
    (hstale : draft.operation.stale = false)
    (h : Judged (CompiledFits (request.overrideOf input.fileId) input
      (engine.takenOver request.policy request.consumerRootKind input).length) draft)
    (hmeasured : Measured draft) :
    let result := engine.bundleStep request.inputs request.consumerRootKind request.policy draft
    Judged (ConsumerFileFits engine request input) result ∧ Measured result := by
  have hdepth : request.policy.maximumDepth = 32 := by
    simp [OrganizationBuildRequest.policy, hmode]
  have hapart : engine.keptTogether request input = none →
      (CompiledFits (request.overrideOf input.fileId) input
        (engine.takenOver request.policy request.consumerRootKind input).length
          ↔ ConsumerFileFits engine request input) := by
    intro hkept
    rw [ConsumerFileFits, hkept]
    simp
  unfold EngineContext.bundleStep
  rw [huser, hstale, Bool.or_false, hinput]
  by_cases hoverride : (request.overrideOf input.fileId).isSome = true
  · rw [if_pos hoverride]
    exact ⟨h.congr (hapart (if_pos hoverride)), hmeasured⟩
  rw [if_neg hoverride]
  have hkept : engine.keptTogether request input = _ := if_neg hoverride
  have hdestination := bundlePlace_destination engine request.inputs request.consumerRootKind
    request.policy input
  simp only
  cases hplace : engine.bundlePlace request.inputs request.consumerRootKind request.policy input with
  | none =>
      rw [hplace, Option.map_none, eq_comm, Option.map_eq_none_iff] at hdestination
      rw [hdestination, Option.filter_none] at hkept
      exact ⟨h.congr (hapart hkept), hmeasured⟩
  | some place =>
      rw [hplace, Option.map_some, eq_comm, Option.map_eq_some_iff] at hdestination
      obtain ⟨folders, hfolders, hplaced⟩ := hdestination
      rw [hfolders, Option.filter_some, hplaced] at hkept
      simp only
      cases hvalid : (request.policy.fitMachinePath place.destination input.sourceName).valid with
      | false =>
          rw [hvalid, if_neg Bool.false_ne_true] at hkept
          obtain ⟨hjudged, hdraft⟩ := unbundled_judged hvalid h hmeasured
          exact ⟨hjudged.congr (hapart hkept), hdraft⟩
      | true =>
          rw [hvalid, if_pos rfl] at hkept
          have hfits : place.destination.length ≤ 8 ↔ ConsumerFileFits engine request input := by
            rw [ConsumerFileFits, hkept, ← hplaced, List.length_take, hdepth]
            simp only [Option.mem_some_iff, forall_eq', reduceCtorEq, IsEmpty.forall_iff, and_true]
            omega
          have hne : place.destination ≠ [] := by
            rw [← hplaced, ne_eq, List.take_eq_nil_iff, hdepth]
            exact not_or.2 ⟨by decide, bundledFolders_ne_nil hfolders⟩
          obtain ⟨hjudged, hdraft⟩ := bundled_judged draft hvalid hne (show 2 ≤ 160 by decide)
          exact ⟨hjudged.congr hfits, hdraft⟩

/-! ## Full builds -/

variable {run : BuildRun} {request : OrganizationBuildRequest}

/-- A compiled draft is for its file, under the next identifier. -/
structure CompiledFor (run : BuildRun) (request : OrganizationBuildRequest)
    (input : OrganizationSourceInput) (position : Nat) (draft : DraftOperation) : Prop where
  id : draft.operation.id = run.newId position
  fileId : draft.operation.fileId = input.fileId
  userOverride : draft.operation.userOverride = (request.overrideOf input.fileId).isSome
  stale : draft.operation.stale = false
  measured : Measured draft

theorem compileInput_for (engine : EngineContext) (run : BuildRun)
    (request : OrganizationBuildRequest) (input : OrganizationSourceInput) (position : Nat) :
    CompiledFor run request input position (engine.compileInput run request input position) := by
  unfold EngineContext.compileInput EngineContext.compileOperation
  simp only
  split
  · exact ⟨rfl, rfl, rfl, rfl, rfl⟩
  · exact ⟨rfl, rfl, rfl, rfl, rfl⟩

theorem overrideOf_stored (hoverrides : ∀ value ∈ request.overrides, StoredOverride value)
    (fileId : FileId) : ∀ value ∈ request.overrideOf fileId, StoredOverride value :=
  fun value hvalue => hoverrides value (List.mem_filter.1 (List.mem_of_getLast? hvalue)).1

theorem compileInput_professional (hmode : request.consumerMode = false)
    (hoverrides : ∀ value ∈ request.overrides, StoredOverride value)
    (input : OrganizationSourceInput) (position : Nat) :
    Judged (FileFits engine request input) (engine.compileInput run request input position) := by
  have hdepth : request.policy.maximumDepth ≤ 8 := by
    simp only [OrganizationBuildRequest.policy, hmode, Bool.false_eq_true, if_false]
    omega
  unfold EngineContext.compileInput EngineContext.compileOperation
  rw [hmode]
  refine (compileProfessionalOperation_judged (overrideOf_stored hoverrides _) hdepth
    (show 2 ≤ 160 by decide)).congr (fileFits_professional hmode).symm

theorem compileInput_consumer (hmode : request.consumerMode = true)
    (hoverrides : ∀ value ∈ request.overrides, StoredOverride value)
    (input : OrganizationSourceInput) (position : Nat) :
    Judged (CompiledFits (request.overrideOf input.fileId) input
        (engine.takenOver request.policy request.consumerRootKind input).length)
      (engine.compileInput run request input position) := by
  have hdepth : 8 < request.policy.maximumDepth := by
    simp [OrganizationBuildRequest.policy, hmode]
  unfold EngineContext.compileInput EngineContext.compileOperation
  rw [hmode]
  exact compileConsumerOperation_judged (overrideOf_stored hoverrides _) hdepth
    (show 2 ≤ 160 by decide)

/-- The draft of a file, whose row is judged by a condition on the file. -/
structure JudgedFor (engine : EngineContext) (request : OrganizationBuildRequest)
    (input : OrganizationSourceInput) (draft : DraftOperation) : Prop where
  fileId : draft.operation.fileId = input.fileId
  judged : Judged (FileFits engine request input) draft
  measured : Measured draft

theorem inputOf_eq_some (h : (inputs.map (·.fileId)).Nodup) (hinput : input ∈ inputs) :
    inputOf inputs input.fileId = some input :=
  getLast?_filter_eq_some hinput (decide_eq_true rfl) fun _ hother hsame =>
    List.inj_on_of_nodup_map h hother hinput (of_decide_eq_true hsame)

theorem compileInputs_forall₂ (engine : EngineContext) (run : BuildRun)
    (request : OrganizationBuildRequest) (files : List OrganizationSourceInput) :
    List.Forall₂ (fun input draft => ∃ position,
      draft = engine.compileInput run request input position) files
      (engine.compileInputs run request files) :=
  Pointwise.of_mapIdx fun position _ _ => ⟨position, rfl⟩

/-- The group policy keeps what is known of compiled drafts. -/
theorem groupedInputs_for (engine : EngineContext) (run : BuildRun)
    (request : OrganizationBuildRequest) (files : List OrganizationSourceInput) :
    List.Forall₂ (fun input draft => ∃ position, Follows
        (engine.compileInput run request input position) draft ∧ Measured draft) files
      (engine.applyMinimumGroupPolicy request.minimumGroupSize
        (engine.compileInputs run request files)) := by
  have hcompiled := compileInputs_forall₂ engine run request files
  refine Pointwise.comp hcompiled
    (Pointwise.and_right (applyMinimumGroupPolicy_follows _ _ _)
      (applyMinimumGroupPolicy_measured fun draft hdraft => ?_)) ?_
  · obtain ⟨input, -, position, rfl⟩ := Pointwise.exists_of_mem_right hcompiled hdraft
    exact (compileInput_for engine run request input position).measured
  · rintro input draft result ⟨position, rfl⟩ hfollows
    exact ⟨position, hfollows⟩

theorem placeDrafts_judged (hnodup : (request.inputs.map (·.fileId)).Nodup)
    (hoverrides : ∀ value ∈ request.overrides, StoredOverride value) :
    List.Forall₂ (JudgedFor engine request) request.inputs
      (engine.placeDrafts request (engine.compileInputs run request request.inputs)) := by
  have hgrouped := groupedInputs_for engine run request request.inputs
  unfold EngineContext.placeDrafts
  cases hmode : request.consumerMode with
  | false =>
      refine hgrouped.imp fun input draft ⟨position, hfollows, hmeasured⟩ => ⟨?_, ?_, hmeasured⟩
      · exact hfollows.fileId.trans (compileInput_for engine run request input position).fileId
      · exact hfollows.judged _ (compileInput_professional hmode hoverrides input position)
  | true =>
      simp only [if_true, applyConsumerFolderBundlePolicy_eq]
      refine Pointwise.comp ((List.forall₂_and_left _ _).2 ⟨fun _ hmem => hmem, hgrouped⟩)
        (Pointwise.of_map (R := fun draft result => result = _) fun _ _ => rfl) ?_
      rintro input draft _ ⟨hmem, position, hfollows, hmeasured⟩ rfl
      have hcompiled := compileInput_for engine run request input position
      have hfile := hfollows.fileId.trans hcompiled.fileId
      obtain ⟨hjudged, hresult⟩ := bundleStep_judged hmode
        (hfile ▸ inputOf_eq_some hnodup hmem) (hfollows.userOverride.trans hcompiled.userOverride)
        (hfollows.stale.trans hcompiled.stale)
        (hfollows.judged _ (compileInput_consumer hmode hoverrides input position)) hmeasured
      exact ⟨(bundleStep_file _ _ _ draft).2.trans hfile, hjudged.congr (by simp [FileFits, hmode]),
        hresult⟩

theorem placeDrafts_ids (drafts : List DraftOperation) :
    (engine.placeDrafts request drafts).map (·.operation.id) = drafts.map (·.operation.id) := by
  have hgrouped := Pointwise.map_eq
    (applyMinimumGroupPolicy_follows engine request.minimumGroupSize drafts)
    fun _ _ hfollows => hfollows.id
  unfold EngineContext.placeDrafts
  simp only
  split
  · rw [applyConsumerFolderBundlePolicy_eq, ← hgrouped, List.map_map]
    exact List.map_congr_left fun draft _ => (bundleStep_file _ _ _ draft).1
  · exact hgrouped

theorem resolveCollisions_ids (drafts : List DraftOperation) :
    (engine.resolveCollisions policy drafts).map (·.operation.id)
      = drafts.map (·.operation.id) :=
  Pointwise.map_eq (resolveCollisions_follows drafts) fun _ _ hfollows => hfollows.1.id

theorem compileInputs_drawn (hrun : run.Lawful) (files : List OrganizationSourceInput) :
    DrawnBefore run (engine.compileInputs run request files).length
      (engine.compileInputs run request files) := by
  have hids : (engine.compileInputs run request files).map (·.operation.id)
      = (List.range files.length).map run.newId := by
    refine List.ext_getElem (by simp [EngineContext.compileInputs]) fun index _ _ => ?_
    simp only [EngineContext.compileInputs, List.getElem_map, List.getElem_mapIdx,
      List.getElem_range]
    exact (compileInput_for engine run request _ index).id
  refine ⟨hids ▸ List.nodup_range.map hrun.newId_injective, fun draft hdraft => ?_⟩
  have hid := List.mem_map_of_mem (f := fun draft => draft.operation.id) hdraft
  rw [hids] at hid
  obtain ⟨position, hposition, hdrawn⟩ := List.mem_map.1 hid
  refine ⟨position, ?_, hdrawn.symm⟩
  rw [EngineContext.compileInputs, List.length_mapIdx]
  exact List.mem_range.1 hposition

/-- The rows of a full build are judged by conditions on its files. -/
theorem fullDrafts_judged (hnodup : (request.inputs.map (·.fileId)).Nodup)
    (hoverrides : ∀ value ∈ request.overrides, StoredOverride value) :
    List.Forall₂ (JudgedFor engine request) request.inputs (engine.fullDrafts run request) :=
  Pointwise.comp (placeDrafts_judged hnodup hoverrides) (resolveCollisions_follows _)
    fun _ _ _ h ⟨hfollows, hmeasured⟩ =>
      ⟨hfollows.fileId.trans h.fileId, hfollows.judged _ h.judged, hmeasured h.measured⟩

theorem fullDrafts_ids_nodup (hrun : run.Lawful) :
    ((engine.fullDrafts run request).map (·.operation.id)).Nodup := by
  rw [EngineContext.fullDrafts, resolveCollisions_ids, placeDrafts_ids]
  exact (compileInputs_drawn hrun request.inputs).nodup

theorem full_fits_iff (hnodup : (request.inputs.map (·.fileId)).Nodup)
    (hoverrides : ∀ value ∈ request.overrides, StoredOverride value) :
    (∀ input ∈ request.inputs, FileFits engine request input)
      ↔ ∀ draft ∈ engine.fullDrafts run request, FitsTable draft.operation :=
  Pointwise.forall_iff (fullDrafts_judged hnodup hoverrides) fun _ _ h =>
    (h.judged.fitsTable_iff h.measured).symm

theorem fullDrafts_stored (hnodup : (request.inputs.map (·.fileId)).Nodup)
    (hoverrides : ∀ value ∈ request.overrides, StoredOverride value)
    (hfits : ∀ draft ∈ engine.fullDrafts run request, FitsTable draft.operation) :
    StoredOperations ((engine.fullDrafts run request).map (·.operation)) := by
  have hjudged : List.Forall₂ (JudgedFor engine request) request.inputs
      (engine.fullDrafts run request) :=
    fullDrafts_judged hnodup hoverrides
  refine ⟨?_, fun operation hoperation => ?_⟩
  · rw [List.map_map]
    exact (Pointwise.map_eq hjudged fun _ _ h => h.fileId) ▸ hnodup
  · obtain ⟨draft, hdraft, rfl⟩ := List.mem_map.1 hoperation
    obtain ⟨_, _, h⟩ := Pointwise.exists_of_mem_right hjudged hdraft
    exact h.judged.stored h.measured (hfits draft hdraft)

/-! ## Incremental builds -/

section Incremental

variable {incremental : IncrementalOrganizationBuildRequest}

/-- What is compiled again and what is carried over, by the same conditions on the files. -/
structure IncrementalSource (incremental : IncrementalOrganizationBuildRequest) : Prop where
  professional : incremental.base.consumerMode = false
  stored : StoredOperations incremental.base.previousOperations
  files_nodup : (incremental.neighborhoodInputs.map (·.fileId)).Nodup
  remaining : ∀ input ∈ incremental.neighborhoodInputs, input.fileId ∉ incremental.deletedFileIds
  overrides : ∀ value ∈ incremental.base.overrides, StoredOverride value

/-- The drafts before the passes are compiled for a file, or fit. -/
theorem assembled_judged (engine : EngineContext) (hrun : run.Lawful)
    (hsource : IncrementalSource incremental) :
    let seedDrafts := engine.compileInputs run incremental.base incremental.neighborhoodInputs
    ∀ draft ∈ incremental.assembled run seedDrafts,
      (∃ input ∈ incremental.neighborhoodInputs, JudgedFor engine incremental.base input draft)
        ∨ Judged True draft ∧ Measured draft := by
  intro seedDrafts draft hdraft
  have hspec := assembled_spec seedDrafts hrun hsource.stored.files_nodup
  rcases hspec.origin draft hdraft with hseed | ⟨operation, hmem, later, -, rfl, -⟩
  · obtain ⟨input, hinput, position, rfl⟩ :=
      Pointwise.exists_of_mem_right (compileInputs_forall₂ _ _ _ _) hseed
    have hfor := compileInput_for engine run incremental.base input position
    exact .inl ⟨input, hinput, hfor.fileId,
      compileInput_professional hsource.professional hsource.overrides input position,
      hfor.measured⟩
  · exact .inr ((hsource.stored.stored operation hmem).judged _)

/-- Every file that is compiled again has its draft among them. -/
theorem assembled_compiled (engine : EngineContext) (hrun : run.Lawful)
    (hsource : IncrementalSource incremental) :
    let seedDrafts := engine.compileInputs run incremental.base incremental.neighborhoodInputs
    ∀ input ∈ incremental.neighborhoodInputs, ∃ draft ∈ incremental.assembled run seedDrafts,
      JudgedFor engine incremental.base input draft := by
  intro seedDrafts input hinput
  have hspec := assembled_spec seedDrafts hrun hsource.stored.files_nodup
  have hfiles : seedDrafts.map (·.operation.fileId)
      = incremental.neighborhoodInputs.map (·.fileId) :=
    Pointwise.map_eq (compileInputs_forall₂ engine run incremental.base _)
      fun other _ ⟨position, heq⟩ => heq ▸ (compileInput_for engine run _ other position).fileId
  obtain ⟨draft, hdraft, position, rfl⟩ :=
    Pointwise.exists_of_mem_left (compileInputs_forall₂ engine run incremental.base _) hinput
  have hfor := compileInput_for engine run incremental.base input position
  exact ⟨_, hspec.compiled (hfiles ▸ hsource.files_nodup) _ hdraft
      (hfor.fileId ▸ hsource.remaining input hinput), hfor.fileId,
    compileInput_professional hsource.professional hsource.overrides input position,
    hfor.measured⟩

/-- The passes of an incremental build keep the files and the judgements of their rows. -/
theorem incrementalDrafts_follow (engine : EngineContext) (hrun : run.Lawful)
    (hsource : IncrementalSource incremental) :
    List.Forall₂ (fun draft result => Follows draft result ∧ Measured result)
      (incremental.assembled run
        (engine.compileInputs run incremental.base incremental.neighborhoodInputs))
      (engine.incrementalDrafts run incremental) := by
  have hassembled := assembled_judged engine hrun hsource
  unfold EngineContext.incrementalDrafts EngineContext.placeDrafts
  simp only [hsource.professional, Bool.false_eq_true, if_false]
  have hgrouped := Pointwise.and_right (applyMinimumGroupPolicy_follows engine
      incremental.base.minimumGroupSize (incremental.assembled run
        (engine.compileInputs run incremental.base incremental.neighborhoodInputs)))
    (applyMinimumGroupPolicy_measured fun draft hdraft =>
      (hassembled draft hdraft).elim (fun ⟨_, _, h⟩ => h.measured) fun h => h.2)
  have hreset := Pointwise.comp hgrouped (resetCollisionNames_follows (incremental.affected engine
      (engine.compileInputs run incremental.base incremental.neighborhoodInputs)) _)
    fun _ _ _ h h' => And.intro (h.1.trans h'.1) (h'.2 h.2)
  exact Pointwise.comp hreset (resolveCollisions_follows _)
    fun _ _ _ h h' => ⟨h.1.trans h'.1, h'.2 h.2⟩

theorem incremental_fits_iff (engine : EngineContext) (hrun : run.Lawful) (hsource : IncrementalSource incremental) :
    (∀ input ∈ incremental.neighborhoodInputs, FileFits engine incremental.base input)
      ↔ ∀ draft ∈ engine.incrementalDrafts run incremental, FitsTable draft.operation := by
  have hfollow := incrementalDrafts_follow engine hrun hsource
  constructor
  · intro hfits result hresult
    obtain ⟨draft, hdraft, hfollows, hmeasured⟩ := Pointwise.exists_of_mem_right hfollow hresult
    rcases assembled_judged engine hrun hsource draft hdraft with ⟨input, hinput, h⟩ | h
    · exact ((hfollows.judged _ h.judged).fitsTable_iff hmeasured).2 (hfits input hinput)
    · exact ((hfollows.judged _ h.1).fitsTable_iff hmeasured).2 trivial
  · intro hfits input hinput
    obtain ⟨draft, hdraft, h⟩ := assembled_compiled engine hrun hsource input hinput
    obtain ⟨result, hresult, hfollows, hmeasured⟩ := Pointwise.exists_of_mem_left hfollow hdraft
    exact ((hfollows.judged _ h.judged).fitsTable_iff hmeasured).1 (hfits result hresult)

theorem incrementalDrafts_stored (hrun : run.Lawful) (hsource : IncrementalSource incremental)
    (hfits : ∀ draft ∈ engine.incrementalDrafts run incremental, FitsTable draft.operation) :
    StoredOperations ((engine.incrementalDrafts run incremental).map (·.operation)) := by
  have hfollow := incrementalDrafts_follow engine hrun hsource
  have hspec := assembled_spec
    (engine.compileInputs run incremental.base incremental.neighborhoodInputs) hrun
    hsource.stored.files_nodup
  refine ⟨?_, fun operation hoperation => ?_⟩
  · rw [List.map_map]
    exact (Pointwise.map_eq hfollow fun _ _ h => h.1.fileId) ▸ hspec.files_nodup
  · obtain ⟨result, hresult, rfl⟩ := List.mem_map.1 hoperation
    obtain ⟨draft, hdraft, hfollows, hmeasured⟩ := Pointwise.exists_of_mem_right hfollow hresult
    rcases assembled_judged engine hrun hsource draft hdraft with ⟨input, -, h⟩ | h
    · exact (hfollows.judged _ h.judged).stored hmeasured (hfits result hresult)
    · exact (hfollows.judged _ h.1).stored hmeasured (hfits result hresult)

theorem incrementalDrafts_ids_nodup (hrun : run.Lawful) (hsource : IncrementalSource incremental) :
    ((engine.incrementalDrafts run incremental).map (·.operation.id)).Nodup := by
  have hspec := assembled_spec
    (engine.compileInputs run incremental.base incremental.neighborhoodInputs) hrun
    hsource.stored.files_nodup
  exact (Pointwise.map_eq (incrementalDrafts_follow engine hrun hsource) fun _ _ h => h.1.id) ▸
    hspec.ids_nodup (compileInputs_drawn hrun _)

end Incremental

end Zemo.Organizer
