import Zemo.Organizer.DerivedFields
import Zemo.Organizer.Groups

set_option autoImplicit false

/-! # Only optional small folders are collapsed

A draft keeps its folders up to the last ones that only sort, and an optional folder it keeps at the
end has enough files. -/

namespace Zemo.Organizer

variable {engine : EngineContext} {drafts results : List DraftOperation}
  {draft result : DraftOperation} {minimumGroupSize : Nat}

/-- The folder at the index was marked optional by `destination_policy`, as a year or a kind. -/
def Sorts (draft : DraftOperation) (index : Nat) : Prop :=
  ∃ (input : OrganizationSourceInput) (policy : VirtualPathPolicy) (folders : Folders)
      (filename name : String),
    input.fileId = draft.operation.fileId
      ∧ ChosenByPolicy input draft.operation.semanticContext draft.operation.documentType folders
      ∧ draft.operation.machineDestination
        = (policy.fitMachinePath (folders.map (·.1)) filename).destination
      ∧ folders[index]? = some (name, true) ∧ IsSortingFolder name

/-- What becomes of a draft. A draft whose folders `fit_machine_path` has cut still has the flags of
the folders that were cut. -/
structure CollapsedOnly (engine : EngineContext) (minimumGroupSize : Nat)
    (results : List DraftOperation) (draft result : DraftOperation) : Prop where
  kept : result.operation.proposedDestination <+: draft.operation.proposedDestination
  sorting : draft.optionalTail.length = draft.operation.proposedDestination.length →
    ∀ index, result.operation.proposedDestination.length ≤ index →
      index < draft.operation.proposedDestination.length → Sorts draft index
  lengths : draft.operation.userOverride = false →
    result.operation.proposedDestination.length = result.operation.machineDestination.length
  shared : result.operation.proposedDestination ≠ [] →
    draft.optionalTail[result.operation.proposedDestination.length - 1]? = some true →
    minimumGroupSize ≤ results.countP (engine.isIn result.operation.proposedDestination)

/-! ## What is left out -/

/-- An optional folder of a compiled draft sorts. -/
theorem Flagged.sorts (h : Flagged draft) {index : Nat}
    (hflag : draft.optionalTail[index]? = some true) : Sorts draft index := by
  cases huser : draft.operation.userOverride with
  | true => exact absurd (List.mem_of_getElem? hflag) (h.user huser).1
  | false =>
    obtain ⟨-, input, policy, folders, filename, hinput, hfolders, hflags, hmachine⟩ :=
      h.machine huser
    rw [hflags, List.getElem?_map, Option.map_eq_some_iff] at hflag
    obtain ⟨⟨name, optional⟩, hfolder, hoptional⟩ := hflag
    obtain rfl : optional = true := hoptional
    have hmem := List.mem_of_getElem? hfolder
    rcases hfolders with hrequired | hchosen
    · exact absurd (hrequired _ hmem) Bool.noConfusion
    · exact ⟨input, policy, folders, filename, name, hinput, hchosen, hmachine, hfolder,
        hchosen.optionalLast.sorting _ hmem rfl⟩

theorem LeavesOut.sorting (h : LeavesOut draft result) (hflagged : Flagged draft)
    (huncut : draft.optionalTail.length = draft.operation.proposedDestination.length) {index : Nat}
    (hge : result.operation.proposedDestination.length ≤ index)
    (hlt : index < draft.operation.proposedDestination.length) : Sorts draft index := by
  obtain ⟨count, hcount, -, hproposed, -, hflags, -⟩ := h
  rw [hproposed, List.length_take] at hge
  exact hflagged.sorts (hflags index (by omega) (by omega))

theorem LeavesOut.lengths (h : LeavesOut draft result) (hflagged : Flagged draft)
    (huser : draft.operation.userOverride = false) :
    result.operation.proposedDestination.length = result.operation.machineDestination.length := by
  obtain ⟨count, -, -, hproposed, hmachine, -⟩ := h
  rw [hproposed, hmachine, (hflagged.machine huser).1]

/-- If the last folder that is kept is optional, so is the last one with a flag. -/
theorem LeavesOut.getLast_flag (h : LeavesOut draft result) (hflagged : Flagged draft)
    (hne : result.operation.proposedDestination ≠ [])
    (hflag : draft.optionalTail[result.operation.proposedDestination.length - 1]? = some true) :
    result.optionalTail.getLast? = some true := by
  obtain ⟨count, hcount, htail, hproposed, -⟩ := h
  have hpos := List.length_pos_of_ne_nil hne
  have hle := hflagged.length_le
  have hkept : result.operation.proposedDestination.length
      ≤ draft.operation.proposedDestination.length - count := by
    rw [hproposed, List.length_take]
    omega
  have hlength : result.optionalTail.length = draft.optionalTail.length - count := by
    rw [htail, List.length_take]
    omega
  rw [List.getLast?_eq_getElem?, hlength, htail, List.getElem?_take_of_lt (by omega)]
  exact hflagged.flag_later (by omega) hflag (by omega)

/-! ## What is kept -/

theorem groupCount_map_remeasured (drafts : List DraftOperation) (key : String) :
    engine.groupCount (drafts.map engine.remeasured) key = engine.groupCount drafts key := by
  rw [EngineContext.groupCount, List.flatMap_map]
  rfl

/-- A folder is in itself. -/
theorem isIn_self (hne : draft.operation.proposedDestination ≠ []) :
    engine.isIn draft.operation.proposedDestination draft = true := by
  have hpos := List.length_pos_of_ne_nil hne
  refine List.any_eq_true.2 ⟨draft.operation.proposedDestination, List.mem_map.2
    ⟨draft.operation.proposedDestination.length - 1, List.mem_range.2 (by omega), ?_⟩,
    decide_eq_true rfl⟩
  rw [Nat.sub_add_cancel hpos, List.take_length]

/-- After the policy, an optional folder at the end has enough files. -/
theorem groupCount_of_optional (hsize : 1 < minimumGroupSize)
    (hresult : result ∈ engine.applyMinimumGroupPolicy minimumGroupSize drafts)
    (hflag : result.optionalTail.getLast? = some true) :
    minimumGroupSize ≤ engine.groupCount
      (engine.applyMinimumGroupPolicy minimumGroupSize drafts)
      (engine.groupKey result.operation.proposedDestination) := by
  obtain ⟨-, -, -, hend⟩ := @groupLoop_eq_iterate engine drafts
      minimumGroupSize _ le_rfl
  rw [EngineContext.applyMinimumGroupPolicy, if_neg (by omega)] at hresult ⊢
  obtain ⟨last, hlast, rfl⟩ := List.mem_map.1 hresult
  rw [groupCount_map_remeasured]
  have hsmall := List.any_eq_false.1 hend last hlast
  have hflag' : last.optionalTail.getLast? = some true := hflag
  simp only [EngineContext.isSmall, hflag', decide_true, Bool.true_and, decide_eq_true_eq,
    Nat.not_lt] at hsmall
  exact hsmall

theorem shared_of_optional
    (hresult : result ∈ engine.applyMinimumGroupPolicy minimumGroupSize drafts)
    (hne : result.operation.proposedDestination ≠ [])
    (hflag : result.optionalTail.getLast? = some true) :
    minimumGroupSize ≤ (engine.applyMinimumGroupPolicy minimumGroupSize drafts).countP
      (engine.isIn result.operation.proposedDestination) := by
  by_cases hsize : 1 < minimumGroupSize
  · rw [← groupCount_eq_countP]
    exact groupCount_of_optional hsize hresult hflag
  · have : 0 < (engine.applyMinimumGroupPolicy minimumGroupSize drafts).countP
        (engine.isIn result.operation.proposedDestination) :=
      List.countP_pos_iff.2 ⟨result, hresult, isIn_self hne⟩
    omega

/-! ## The policy -/

theorem LeavesOut.collapsedOnly (h : LeavesOut draft result) (hflagged : Flagged draft)
    (hresult : result ∈ engine.applyMinimumGroupPolicy minimumGroupSize drafts) :
    CollapsedOnly engine minimumGroupSize (engine.applyMinimumGroupPolicy minimumGroupSize drafts)
      draft result where
  kept := by
    obtain ⟨count, -, -, hproposed, -⟩ := h
    rw [hproposed]
    exact List.take_prefix _ _
  sorting := fun huncut _ hge hlt => h.sorting hflagged huncut hge hlt
  lengths := h.lengths hflagged
  shared := fun hne hflag => shared_of_optional hresult hne (h.getLast_flag hflagged hne hflag)

/-- **Only optional small folders are collapsed**: the rounds go on while an optional last folder is
too small and come to an end; each draft loses folders that only sort, and an optional folder it
keeps at the end has enough files; the order of the drafts does not matter. -/
theorem optional_folders_collapsed (engine : EngineContext) (minimumGroupSize : Nat)
    (drafts : List DraftOperation) (h : ∀ draft ∈ drafts, engine.Compiled draft) :
    (1 < minimumGroupSize → ∃ rounds,
      engine.applyMinimumGroupPolicy minimumGroupSize drafts
          = ((engine.groupRound minimumGroupSize)^[rounds] drafts).map engine.remeasured
        ∧ (∀ earlier < rounds, ((engine.groupRound minimumGroupSize)^[earlier] drafts).any
          (engine.isSmall ((engine.groupRound minimumGroupSize)^[earlier] drafts)
            minimumGroupSize) = true)
        ∧ ((engine.groupRound minimumGroupSize)^[rounds] drafts).any
          (engine.isSmall ((engine.groupRound minimumGroupSize)^[rounds] drafts)
            minimumGroupSize) = false)
      ∧ List.Forall₂ (CollapsedOnly engine minimumGroupSize
          (engine.applyMinimumGroupPolicy minimumGroupSize drafts)) drafts
        (engine.applyMinimumGroupPolicy minimumGroupSize drafts)
      ∧ ∃ f : DraftOperation → DraftOperation, ∀ others : List DraftOperation,
        others.Perm drafts → engine.applyMinimumGroupPolicy minimumGroupSize others
          = others.map f := by
  refine ⟨fun hsize => ?_, ?_, applyMinimumGroupPolicy_perm engine minimumGroupSize drafts⟩
  · obtain ⟨rounds, heq, hearlier, hend⟩ := @groupLoop_eq_iterate engine drafts
      minimumGroupSize _ le_rfl
    rw [heq] at hend
    refine ⟨rounds, ?_, hearlier, hend⟩
    rw [EngineContext.applyMinimumGroupPolicy, if_neg (by omega)]
    exact congrArg _ heq
  · have hleaves := applyMinimumGroupPolicy_leavesOut engine minimumGroupSize drafts
    rw [List.forall₂_iff_get] at hleaves ⊢
    refine ⟨hleaves.1, fun index hdraft hresult => ?_⟩
    exact (hleaves.2 index hdraft hresult).collapsedOnly
      (h _ (List.get_mem _ _)).flagged (List.get_mem _ _)

/-! ## A client of three folders -/

/-- A customer the user has confirmed. -/
private def acme : ProposalRelationship where
  relationshipType := "file_customer"
  identityId := "1"
  displayName := "ACME"
  confidence := 1
  status := "user_confirmed"
  userConfirmed := true
  projectCustomerName := none

private def acmeInvoice (fileId : FileId) (name : String) : OrganizationSourceInput :=
  { invoiceInput fileId ("inbox/" ++ name) name with relationships := [acme] }

/-- Two invoices, of which the user has moved the second; folders are three deep at most. -/
private def shallow : OrganizationBuildRequest :=
  { sampleRequest false [acmeInvoice 1 "a.pdf", acmeInvoice 2 "b.pdf"]
      [{ fileId := 2, action := .destination, destination := some ["Shared"], proposedName := none,
         reason := none }] with
    preferences := { maximumDepth := 3 } }

private def shallowDrafts : List DraftOperation :=
  sampleEngine.compileInputs sampleBuildRun shallow shallow.inputs

private theorem shallowDrafts_compiled : ∀ draft ∈ shallowDrafts, sampleEngine.Compiled draft := by
  intro draft hdraft
  obtain ⟨position, hposition, rfl⟩ := List.mem_mapIdx.1 hdraft
  exact ⟨sampleBuildRun, shallow, _, position, rfl⟩

theorem optional_folders_collapsed_shallow :
    List.Forall₂ (CollapsedOnly sampleEngine 2
        (sampleEngine.applyMinimumGroupPolicy 2 shallowDrafts)) shallowDrafts
      (sampleEngine.applyMinimumGroupPolicy 2 shallowDrafts) :=
  (optional_folders_collapsed sampleEngine 2 shallowDrafts shallowDrafts_compiled).2.1

/-- The folder of a client is left out, and the two destinations of a file the user has moved have
different lengths. -/
theorem client_folder_left_out :
    (∀ draft ∈ shallowDrafts, sampleEngine.Compiled draft)
      ∧ shallowDrafts.map (fun draft => (draft.operation.proposedDestination,
          draft.optionalTail[2]?)) = [(["Business", "Clients", "ACME"], some false),
        (["Shared"], none)]
      ∧ (sampleEngine.applyMinimumGroupPolicy 2 shallowDrafts).map (fun result =>
          (result.operation.proposedDestination, result.operation.machineDestination))
        = [(["Business", "Clients"], ["Business", "Clients"]),
          (["Shared"], ["Business", "Clients", "ACME"])] :=
  ⟨shallowDrafts_compiled, by decide +kernel, by decide +kernel⟩

end Zemo.Organizer
