import Zemo.Organizer.Depths

set_option autoImplicit false

/-! # Compiled rows

Which compiled operations have a row the tables accept. A file that the user leaves in place brings
its own folders, a one-click organization those of a rule or of the file's own path; everything else
is as deep as the policy allows. -/

namespace Zemo.Organizer

open VirtualPathPolicy

variable {engine : EngineContext} {policy : VirtualPathPolicy}

/-! ## Conditions -/

/-- A file can be left where it is: its own folders are not too many for the tables. -/
def OwnPlaceFits (input : OrganizationSourceInput) : Prop :=
  input.sourceParent.length ≤ 8 ∧ (input.sourceParent ≠ [] ∨ input.sourceName ≠ "")

instance (input : OrganizationSourceInput) : Decidable (OwnPlaceFits input) :=
  inferInstanceAs (Decidable (_ ∧ _))

/-- The user says nothing about the folders of a file. -/
def leavesFolders (user : Option OrganizationProposalOverride) : Bool :=
  user.all fun user => user.action = .rename

/-- The row of a compiled operation is accepted, for a machine destination of some depth. -/
def CompiledFits (user : Option OrganizationProposalOverride) (input : OrganizationSourceInput)
    (depth : Nat) : Prop :=
  (keepsInPlace user = true → OwnPlaceFits input) ∧ (leavesFolders user = true → depth ≤ 8)

instance (user : Option OrganizationProposalOverride) (input : OrganizationSourceInput)
    (depth : Nat) : Decidable (CompiledFits user input depth) :=
  inferInstanceAs (Decidable (_ ∧ _))

theorem ownPlaceFits_iff {input : OrganizationSourceInput} :
    input.sourceParent.length ≤ 8 ∧ 1 ≤ pathLengthUtf16 input.sourceParent input.sourceName
      ↔ OwnPlaceFits input :=
  and_congr_right fun _ => pathLengthUtf16_pos_iff

/-! ## Placements -/

@[simp] theorem checked_destination (placement : Placement) :
    (placement.checked policy).destination = placement.destination := by
  unfold Placement.checked
  split
  · rfl
  · split <;> rfl

@[simp] theorem checked_name (placement : Placement) :
    (placement.checked policy).name = placement.name := by
  unfold Placement.checked
  split
  · rfl
  · split <;> rfl

/-- Where the user leaves a file in place, the placement is its own place. -/
theorem decidedPlacement_kept (policy : VirtualPathPolicy) (review : String)
    (input : OrganizationSourceInput) (machine : Placement)
    {user : Option OrganizationProposalOverride} (h : keepsInPlace user = true) :
    (decidedPlacement policy review user input machine).destination = input.sourceParent
      ∧ (decidedPlacement policy review user input machine).name = input.sourceName := by
  cases user with
  | none => exact nomatch h
  | some user =>
      simp only [keepsInPlace, Option.any_some, Bool.or_eq_true, decide_eq_true_eq] at h
      rcases h with h | h <;> simp [decidedPlacement, applyOverride, h]

/-- Elsewhere it has a name, and folders of the machine only where the user names none. -/
theorem decidedPlacement_moved (policy : VirtualPathPolicy) (review : String)
    (input : OrganizationSourceInput) {user : Option OrganizationProposalOverride}
    {machine : Placement} (hstored : ∀ value ∈ user, StoredOverride value)
    (hmachine : machine.name ≠ "") (h : keepsInPlace user = false) :
    (decidedPlacement policy review user input machine).name ≠ ""
      ∧ ((decidedPlacement policy review user input machine).destination.length ≤ 8
        ↔ (leavesFolders user = true → machine.destination.length ≤ 8)) := by
  cases user with
  | none => exact ⟨hmachine, by simp [decidedPlacement, leavesFolders]⟩
  | some user =>
      have hvalue := hstored user rfl
      have hnamed : ∀ fallback : String, fallback ≠ "" → user.proposedName.getD fallback ≠ "" := by
        intro fallback hfallback
        cases hname : user.proposedName with
        | none => exact hfallback
        | some name => exact hvalue.named name hname
      have hshallow : ∀ fallback : List String, user.destination.isSome = true →
          (user.destination.getD fallback).length ≤ 8 := by
        intro fallback hsome
        cases hdestination : user.destination with
        | none => exact absurd hsome (by rw [hdestination]; exact Bool.false_ne_true)
        | some destination => exact hvalue.shallow destination hdestination
      simp only [decidedPlacement, checked_name, checked_destination, leavesFolders,
        Option.all_some, decide_eq_true_eq]
      cases haction : user.action with
      | destination =>
          refine ⟨by simpa [applyOverride, haction] using hmachine, ?_⟩
          simpa [applyOverride, haction] using hshallow _ (hvalue.destination (.inl haction))
      | rename =>
          exact ⟨by simpa [applyOverride, haction] using hnamed _ hmachine,
            by simp [applyOverride, haction]⟩
      | destinationAndRename =>
          refine ⟨by simpa [applyOverride, haction] using hnamed _ hmachine, ?_⟩
          simpa [applyOverride, haction] using hshallow _ (hvalue.destination (.inr haction))
      | keepInPlace => simp [keepsInPlace, haction] at h
      | reject => simp [keepsInPlace, haction] at h
      | toReview => exact ⟨by simpa [applyOverride, haction] using hmachine,
          by simp [applyOverride, haction]⟩

/-! ## Drafts -/

theorem makeDraft_judged {id : ProposalItemId} {input : OrganizationSourceInput}
    {user : Option OrganizationProposalOverride} {fitted : FittedPath} {optionalTail : List Bool}
    {review : String} {needsReview : Bool} {kind : ProposalOperationKind}
    {confidence : Rat × ProposalConfidenceLevel} {reasons : List OrganizationReason}
    {context documentType : String} (hstored : ∀ value ∈ user, StoredOverride value)
    (hname : fitted.name ≠ "")
    (hkind : keepsInPlace user = true → kind = .keepInPlace ∨ kind = .noAction)
    (htail : true ∈ optionalTail → fitted.destination.length ≤ 8) :
    Judged (CompiledFits user input fitted.destination.length)
      (engine.makeDraft id input user fitted optionalTail
        (decidedPlacement policy review user input (.ofFitted fitted needsReview)) kind confidence
        reasons context documentType) := by
  have hmachine : (Placement.ofFitted fitted needsReview).name ≠ "" := hname
  refine ⟨hname, fun hmem => ?_, ?_, ?_⟩
  · -- only where the user has decided nothing a folder may be left out
    cases user with
    | some user => simp [EngineContext.makeDraft] at hmem
    | none => exact ⟨hmachine, fun h => (nomatch h), fun _ => htail hmem⟩
  · by_cases hkeeps : keepsInPlace user = true
    · left
      rcases hkind hkeeps with rfl | rfl <;> rfl
    · have hmoved := decidedPlacement_moved policy review input hstored hmachine
        (Bool.eq_false_iff.2 hkeeps)
      exact .inr ⟨pathLengthUtf16_pos_of_name _ hmoved.1, pathLengthUtf16_pos_of_name _ hmoved.1⟩
  · by_cases hkeeps : keepsInPlace user = true
    · have hplace := decidedPlacement_kept policy review input (.ofFitted fitted needsReview) hkeeps
      have hfolders : leavesFolders user = false := by
        cases user with
        | none => exact nomatch hkeeps
        | some user =>
            simp only [keepsInPlace, Option.any_some, Bool.or_eq_true, decide_eq_true_eq] at hkeeps
            rcases hkeeps with haction | haction <;> simp [leavesFolders, haction]
      show (_ ∧ 1 ≤ pathLengthUtf16 _ _) ↔ _
      simp only [EngineContext.makeDraft, hplace.1, hplace.2, ownPlaceFits_iff, CompiledFits, hkeeps,
        hfolders, forall_const, Bool.false_eq_true, IsEmpty.forall_iff, and_true]
    · have hkeeps' : keepsInPlace user = false := Bool.eq_false_iff.2 hkeeps
      have hmoved := decidedPlacement_moved policy review input hstored hmachine hkeeps'
      refine (and_iff_left (pathLengthUtf16_pos_of_name _ hmoved.1)).trans (hmoved.2.trans ?_)
      simp only [CompiledFits, hkeeps', Bool.false_eq_true, IsEmpty.forall_iff, true_and]
      rfl

/-! ## Modes -/

variable {id : ProposalItemId} {input : OrganizationSourceInput}
  {user : Option OrganizationProposalOverride} {winning : Option LocationKind}
  {ruleReasons : List OrganizationReason} {context documentType : String}

theorem compileProfessionalOperation_judged {preferences : OrganizationPreferences}
    (hstored : ∀ value ∈ user, StoredOverride value) (hdepth : policy.maximumDepth ≤ 8)
    (hfilename : 2 ≤ policy.maximumFilenameUtf16) :
    Judged (keepsInPlace user = true → OwnPlaceFits input)
      (engine.compileProfessionalOperation id input preferences policy user winning ruleReasons
        context documentType) := by
  have hfitted : ∀ destination filename,
      (policy.fitMachinePath destination filename).destination.length ≤ 8 :=
    fun destination filename => fitMachinePath_length destination filename ▸
      le_trans (min_le_left _ _) hdepth
  unfold EngineContext.compileProfessionalOperation
  simp only
  refine (makeDraft_judged hstored (fitMachinePath_name_ne_empty hfilename _ _) (fun hkeeps => ?_)
    fun _ => hfitted _ _).congr (and_iff_left fun _ => hfitted _ _)
  split
  · exact .inr rfl
  · exact .inl rfl

/-- The folders of a destination on which a rule may decide; `otherwise` are those without one. -/
def ruledFolders (policy : VirtualPathPolicy) (input : OrganizationSourceInput)
    (winning : Option LocationKind) (otherwise : List String) : List String :=
  match winning, input.ruleEvaluation.destination with
  | some .destination, some (destination, _) =>
      if (policy.validateUserDestination destination).isOk then destination else []
  | some .preserve, _ => input.sourceParent
  | _, _ => otherwise

/-- The folders a one-click organization takes over, from a rule or from the file's own path. -/
def EngineContext.takenOver (engine : EngineContext) (policy : VirtualPathPolicy)
    (rootKind : ConsumerRootKind) (input : OrganizationSourceInput) : List String :=
  let documentType := normalizedSignal input.documentType "unknown"
  let decision := engine.decideConsumerOrganization input.sourceRelativePath input.sourceName
    rootKind (if documentType = "unknown" then none else some documentType)
  ruledFolders policy input (input.ruleEvaluation.winningLocationRule.map (·.1))
    (if decision.leaveInPlace then input.sourceParent else [])

theorem byRule_length {review : String} {chosen : Chosen} {otherwise : List String}
    (h : chosen.folders.length ≤ 8 ↔ otherwise.length ≤ 8) :
    (Chosen.byRule policy review input winning chosen fun chosen => chosen).folders.length ≤ 8
      ↔ (ruledFolders policy input winning otherwise).length ≤ 8 := by
  unfold Chosen.byRule ruledFolders
  cases winning with
  | none => exact h
  | some kind =>
      cases kind with
      | project => exact h
      | preserve => simp
      | destination =>
          cases input.ruleEvaluation.destination with
          | none => exact h
          | some rule => by_cases hvalid : (policy.validateUserDestination rule.1).isOk <;>
              simp [hvalid]

/-- A rule brings no folders that may be left out. -/
theorem byRule_required {review : String} {chosen : Chosen}
    (h : ∀ folder ∈ chosen.folders, folder.2 = false) :
    ∀ folder ∈ (Chosen.byRule policy review input winning chosen fun chosen => chosen).folders,
      folder.2 = false := by
  have hmap : ∀ names : List String, ∀ folder ∈ names.map fun name => (name, false),
      folder.2 = false := by
    intro names folder hfolder
    obtain ⟨_, -, rfl⟩ := List.mem_map.1 hfolder
    rfl
  unfold Chosen.byRule
  split
  · split
    · exact hmap _
    · exact hmap [review]
  · exact hmap _
  · exact h

theorem compileConsumerOperation_judged {rootKind : ConsumerRootKind}
    (hstored : ∀ value ∈ user, StoredOverride value) (hdepth : 8 < policy.maximumDepth)
    (hfilename : 2 ≤ policy.maximumFilenameUtf16) :
    Judged (CompiledFits user input (engine.takenOver policy rootKind input).length)
      (engine.compileConsumerOperation id input policy user rootKind
        (input.ruleEvaluation.winningLocationRule.map (·.1)) ruleReasons context
        (normalizedSignal input.documentType "unknown")) := by
  unfold EngineContext.compileConsumerOperation
  simp only
  generalize hdecision : engine.decideConsumerOrganization _ _ _ _ = decision
  have hshallow : decision.Shallow := hdecision ▸ decideConsumerOrganization_shallow _ _ _ _
  refine (makeDraft_judged hstored (fitMachinePath_name_ne_empty hfilename _ _) (fun hkeeps => ?_)
    fun htail => ?_).congr (and_congr_right fun _ => imp_congr_right fun _ => ?_)
  · split
    · exact .inr rfl
    · exact .inl (if_pos (by rw [hkeeps, Bool.true_or]))
  · -- no folder of a one-click organization may be left out
    obtain ⟨folder, hfolder, hoptional⟩ := List.mem_map.1 htail
    have hrequired := byRule_required (fun folder hfolder => by
      obtain ⟨_, -, rfl⟩ := List.mem_map.1 hfolder
      rfl) folder hfolder
    exact absurd (hoptional.symm.trans hrequired) (by decide)
  · rw [fitMachinePath_length, List.length_map, EngineContext.takenOver, hdecision]
    have hmin : ∀ length, min policy.maximumDepth length ≤ 8 ↔ length ≤ 8 := by omega
    refine (hmin _).trans (byRule_length ?_)
    cases hleave : decision.leaveInPlace with
    | true => simp
    | false =>
        have := hshallow hleave
        simp only [Bool.false_eq_true, if_false, List.length_map, List.length_nil]
        unfold consumerMaxDestinationDepth at this
        omega

end Zemo.Organizer
