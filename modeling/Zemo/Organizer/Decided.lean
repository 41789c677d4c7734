import Zemo.Organizer.Derived

set_option autoImplicit false

/-! # The user's decision and the machine's

What is compiled for a file with a stored decision is what the machine would propose for it, with
the folders and the name of the decision put in and checked. The kind of the operation looks at the
file, the decision and the place. -/

namespace Zemo.Organizer

open VirtualPathPolicy

variable {engine : EngineContext} {run : BuildRun} {request : OrganizationBuildRequest}

/-- What would be compiled for a file nobody has decided on. -/
def EngineContext.undecided (engine : EngineContext) (request : OrganizationBuildRequest)
    (input : OrganizationSourceInput) : OrganizationProposalOperation :=
  (engine.compileOperation 0 input request.preferences request.policy none request.consumerMode
    request.consumerRootKind).operation

/-- The folder for what is to be reviewed. -/
def OrganizationBuildRequest.reviewFolder (request : OrganizationBuildRequest) : String :=
  if request.consumerMode then "À vérifier" else "TO_REVIEW"

/-- The machine's proposal as a placement. -/
def EngineContext.undecidedPlacement (engine : EngineContext) (request : OrganizationBuildRequest)
    (input : OrganizationSourceInput) : Placement where
  destination := (engine.undecided request input).proposedDestination
  name := (engine.undecided request input).proposedName
  conflictState := (engine.undecided request input).conflictState
  needsReview := (engine.undecided request input).needsReview

/-- **The place that is compiled**: the machine's after the decision of the user. -/
theorem compileInput_placement (engine : EngineContext) (run : BuildRun)
    (request : OrganizationBuildRequest) (input : OrganizationSourceInput) (position : Nat) :
    let operation := (engine.compileInput run request input position).operation
    let placement := decidedPlacement request.policy request.reviewFolder
      (request.overrideOf input.fileId) input (engine.undecidedPlacement request input)
    operation.proposedDestination = placement.destination
      ∧ operation.proposedName = placement.name
      ∧ operation.conflictState = placement.conflictState := by
  unfold EngineContext.undecidedPlacement EngineContext.undecided
    OrganizationBuildRequest.reviewFolder EngineContext.compileInput EngineContext.compileOperation
  cases request.consumerMode with
  | true => exact ⟨rfl, rfl, rfl⟩
  | false => exact ⟨rfl, rfl, rfl⟩

/-- The one-click organization leaves the file where it is. -/
def EngineContext.leftByMachine (engine : EngineContext) (request : OrganizationBuildRequest)
    (input : OrganizationSourceInput) : Bool :=
  request.consumerMode && (engine.decisionFor request input).leaveInPlace

/-- **The kind that is compiled.** -/
theorem compileInput_kind (engine : EngineContext) (run : BuildRun)
    (request : OrganizationBuildRequest) (input : OrganizationSourceInput) (position : Nat) :
    let operation := (engine.compileInput run request input position).operation
    operation.operationKind
      = if input.duplicateNoAction then .noAction
        else if keepsInPlace (request.overrideOf input.fileId) || engine.leftByMachine request input
        then .keepInPlace
        else if request.consumerMode = false ∧ operation.proposedDestination = ["TO_REVIEW"] then
          .toReview
        else placedKind input operation.proposedDestination operation.proposedName := by
  unfold EngineContext.leftByMachine EngineContext.decisionFor EngineContext.compileInput
    EngineContext.compileOperation
  cases request.consumerMode with
  | true =>
      simp only [if_true, Bool.true_and, Bool.true_eq_false, false_and, if_false]
      rfl
  | false =>
      simp only [Bool.false_eq_true, if_false, Bool.false_and, Bool.or_false, true_and]
      rfl

/-- Of a file with a decision no folder may be left out. -/
theorem compileInput_required_override (input : OrganizationSourceInput) (position : Nat)
    (huser : (request.overrideOf input.fileId).isSome = true) :
    true ∉ (engine.compileInput run request input position).optionalTail := by
  have hnone : ∀ folders : List String, true ∉ folders.map fun _ => false := by
    intro folders hmem
    obtain ⟨_, -, hfalse⟩ := List.mem_map.1 hmem
    exact nomatch hfalse
  unfold EngineContext.compileInput EngineContext.compileOperation
  split
  · unfold EngineContext.compileConsumerOperation EngineContext.makeDraft
    dsimp only
    rw [if_pos huser]
    exact hnone _
  · unfold EngineContext.compileProfessionalOperation EngineContext.makeDraft
    dsimp only
    rw [if_pos huser]
    exact hnone _

/-! ## The place of a file on its own -/

/-- The name the machine starts from. -/
def EngineContext.nameFor (engine : EngineContext) (request : OrganizationBuildRequest)
    (input : OrganizationSourceInput) : String :=
  if request.consumerMode then input.sourceName
  else
    let identities := input.identities
    let confidence := engine.proposalConfidence input (input.strongestRelationship "file_customer")
      (input.strongestRelationship "file_supplier") (input.strongestRelationship "file_project")
    proposedFilename input (normalizedSignal input.documentType "unknown") identities.customer
      identities.supplier confidence.2 request.preferences request.policy

/-- The folders a rule of the user gives, when the rule can be followed. -/
def OrganizationSourceInput.ruledPlace (input : OrganizationSourceInput)
    (policy : VirtualPathPolicy) : Option (List String) :=
  input.ruleEvaluation.winningLocationRule.bind fun (kind, _) =>
    match kind with
    | .project => none
    | .destination =>
        (input.ruleEvaluation.destination.map (·.1)).filter fun destination =>
          (policy.validateUserDestination destination).isOk
    | .preserve => some input.sourceParent

theorem byRule_of_ruledPlace {policy : VirtualPathPolicy} {input : OrganizationSourceInput}
    {folders : List String} (hrule : input.ruledPlace policy = some folders) (review : String)
    (chosen : Chosen) (otherwise : Chosen → Chosen) :
    (Chosen.byRule policy review input (input.ruleEvaluation.winningLocationRule.map (·.1)) chosen
      otherwise).folders.map (·.1) = folders := by
  unfold OrganizationSourceInput.ruledPlace at hrule
  obtain ⟨⟨kind, rule⟩, hwinning, hkind⟩ := Option.bind_eq_some_iff.1 hrule
  rw [hwinning]
  unfold Chosen.byRule
  cases kind with
  | project => exact nomatch hkind
  | preserve =>
      obtain rfl : input.sourceParent = folders := Option.some.inj hkind
      simp [Function.comp_def]
  | destination =>
      obtain ⟨hfolders, hvalid⟩ := Option.filter_eq_some_iff.1 hkind
      obtain ⟨⟨destination, matched⟩, hdestination, rfl⟩ := Option.map_eq_some_iff.1 hfolders
      simp only [Option.map_some, hdestination]
      rw [if_pos hvalid]
      simp [Function.comp_def]

/-- **A rule the machine follows** is fitted like every machine path. -/
theorem undecided_of_ruledPlace {input : OrganizationSourceInput} {folders : List String}
    (hrule : input.ruledPlace request.policy = some folders) :
    (engine.undecided request input).proposedDestination
      = (request.policy.fitMachinePath folders (engine.nameFor request input)).destination := by
  unfold EngineContext.undecided EngineContext.nameFor EngineContext.compileOperation
  cases request.consumerMode with
  | true =>
      simp only [if_true]
      rw [← byRule_of_ruledPlace hrule]
      rfl
  | false =>
      simp only [Bool.false_eq_true, if_false]
      rw [← byRule_of_ruledPlace hrule]
      rfl

end Zemo.Organizer
