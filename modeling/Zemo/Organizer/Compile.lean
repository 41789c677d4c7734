import Zemo.Organizer.Consumer
import Zemo.Organizer.Destinations

set_option autoImplicit false

/-! # Compiling one operation

What is proposed for a single file, from what is known of it and from the decision the user has
stored for it. A machine path is always made safe; what a user decides is taken as it is and only
checked. -/

namespace Zemo.Organizer

structure DraftOperation where
  operation : OrganizationProposalOperation
  optionalTail : List Bool
deriving DecidableEq

/-! ## The user's decision -/

/-- Where a file goes and what is to be said of it, before the operation is made. -/
structure Placement where
  destination : List String
  name : String
  conflictState : ProposalConflictState
  needsReview : Bool

/-- The destination and the name a stored decision asks for; `review` is the folder for what is to
    be reviewed. -/
def applyOverride (user : OrganizationProposalOverride) (review : String)
    (input : OrganizationSourceInput) (machine : Placement) : Placement :=
  match user.action with
  | .destination => { machine with destination := user.destination.getD machine.destination }
  | .rename => { machine with name := user.proposedName.getD machine.name }
  | .destinationAndRename =>
      { machine with
        destination := user.destination.getD machine.destination
        name := user.proposedName.getD machine.name }
  | .keepInPlace | .reject =>
      { machine with
        destination := input.sourceParent, name := input.sourceName, needsReview := false }
  | .toReview => { machine with destination := [review], needsReview := true }

/-- What the check of a user's path makes of a placement. -/
def Placement.checked (policy : VirtualPathPolicy) (placement : Placement) : Placement :=
  if (policy.validateUserDestination placement.destination).isOk = false
      ∨ (policy.validateUserFilename placement.name).isOk = false then
    { placement with conflictState := .invalidPath, needsReview := true }
  else if policy.maximumPathUtf16 <
      VirtualPathPolicy.pathLengthUtf16 placement.destination placement.name then
    { placement with conflictState := .pathTooLong, needsReview := true }
  else placement

/-- The placement after the decision of the user, if there is one. -/
def decidedPlacement (policy : VirtualPathPolicy) (review : String)
    (user : Option OrganizationProposalOverride) (input : OrganizationSourceInput)
    (machine : Placement) : Placement :=
  match user with
  | none => machine
  | some user => (applyOverride user review input machine).checked policy

/-- The reason a decision of the user gives. -/
def overrideReasons (user : Option OrganizationProposalOverride) : List OrganizationReason :=
  user.toList.map fun user =>
    reason "user_override"
      "A stored user decision is authoritative over this machine-generated suggestion." user.reason

/-- The user has decided to leave the file where it is. -/
def keepsInPlace (user : Option OrganizationProposalOverride) : Bool :=
  user.any fun user => user.action = .reject || user.action = .keepInPlace

/-- `duplicate_no_action`. -/
def OrganizationSourceInput.duplicateNoAction (input : OrganizationSourceInput) : Bool :=
  input.duplicateGroupId.isSome && !input.duplicateCanonical

/-- The machine path as a placement. -/
def Placement.ofFitted (fitted : VirtualPathPolicy.FittedPath) (needsReview : Bool) : Placement where
  destination := fitted.destination
  name := fitted.name
  conflictState := if fitted.valid then .none else .pathTooLong
  needsReview := if fitted.valid then needsReview else true

/-- The reason for a machine path that had to be changed. -/
def pathSafetyReasons (fitted : VirtualPathPolicy.FittedPath) : List OrganizationReason :=
  if fitted.changed then
    [reason "windows_path_safety"
      "Unsafe or excessive path components were sanitized or shortened for Windows." none]
  else []

/-! ## The machine's destination -/

/-- The reason for a rule whose destination is not safe. -/
def invalidRuleReason (rule : MatchedRule) : OrganizationReason :=
  reason "invalid_user_rule" "The matched rule contains an unsafe destination and was not applied."
    (some (toString rule.id))

/-- Folders before they are fitted, whether the last may be left out, and why. -/
structure Chosen where
  folders : Folders
  needsReview : Bool
  reasons : List OrganizationReason

/-- What the winning rule makes of a destination; without one `otherwise` decides. -/
def Chosen.byRule (policy : VirtualPathPolicy) (review : String) (input : OrganizationSourceInput)
    (winning : Option LocationKind) (chosen : Chosen) (otherwise : Chosen → Chosen) : Chosen :=
  match winning, input.ruleEvaluation.destination with
  | some .destination, some (destination, matched) =>
      if (policy.validateUserDestination destination).isOk then
        { chosen with folders := destination.map (·, false) }
      else
        { folders := [(review, false)]
          needsReview := true
          reasons := chosen.reasons ++ [invalidRuleReason matched] }
  | some .preserve, _ => { chosen with folders := input.sourceParent.map (·, false) }
  | _, _ => otherwise chosen

/-- `existing_structure_is_useful`. -/
def EngineContext.existingStructureIsUseful (engine : EngineContext) (source proposed : List String)
    (policy : VirtualPathPolicy) : Bool :=
  let proposedSet := (proposed.map engine.toLowercase).dedup
  let matching := ((source.map engine.toLowercase).filter (· ∈ proposedSet)).length
  source ≠ [] && source.length ≤ policy.maximumDepth
    && (source.all fun segment => (validateComponent segment policy.maximumSegmentUtf16).isOk)
    && (source.head?.any fun root => toAsciiLowercase root ∈ ["business", "entreprise",
      "professional", "professionnel", "personal", "personnel"])
    && 2 ≤ matching && min source.length proposedSet.length ≤ matching * 2

/-! ## The professional mode -/

/-- What is said of the quality of an input, and whether it asks for a review. -/
def EngineContext.qualityReasons (engine : EngineContext) (input : OrganizationSourceInput)
    (preferences : OrganizationPreferences) (context documentType : String)
    (confidence : Rat × ProposalConfidenceLevel) : Bool × List OrganizationReason :=
  let ambiguous := context = "unknown" || context = "mixed"
  let uncertain := documentType = "unknown" || !input.documentType.any (·.isHighConfidence)
  let degraded := !input.semanticStatus.any (· ∈ ["success", "partial"])
    || input.inputQuality < 13 / 20
  let incomplete := input.extractionStatus.any (· ≠ "success")
  let unresolved := input.reviewReasons ≠ []
  let below := confidence.1 < preferences.reviewThreshold
  (ambiguous || uncertain || degraded || incomplete || unresolved || confidence.2 = .low || below,
    [if ambiguous then
        reason "ambiguous_context"
          "Personal versus business context is not strong enough for a definitive location."
          (input.context.map engine.signalReference)
      else
        reason "context"
          (engine.title context ++ " context is supported by local semantic evidence.")
          (input.context.map engine.signalReference),
      if uncertain then
        reason "uncertain_document_type"
          "The document type is unknown or below the high-confidence policy threshold."
          (input.documentType.map engine.signalReference)
      else
        reason "document_type" ("Document type: " ++ documentTypeLabel documentType ++ ".")
          (input.documentType.map engine.signalReference)]
    ++ (if degraded then [reason "semantic_input_quality"
        "Semantic input is missing or degraded, so critical organization evidence may be absent."
        none] else [])
    ++ (if incomplete then [reason "partial_extraction" "Content extraction is not complete."
        input.extractionStatus] else [])
    ++ (if unresolved then [reason "existing_review_state"
        "The source file already has unresolved local review items."
        (some (",".intercalate input.reviewReasons))] else [])
    ++ (if below then [reason "user_preference"
        ("Review is required below your configured " ++ engine.percent preferences.reviewThreshold
          ++ "% confidence threshold.") (some "review_threshold")] else [])
    ++ (if input.duplicateNoAction then [reason "exact_duplicate"
        "This is a non-canonical member of an exact-duplicate group; no cleanup is proposed."
        input.duplicateGroupId] else []))

/-- The kind of an operation that is neither left alone nor to be reviewed. -/
def placedKind (input : OrganizationSourceInput) (destination : List String) (name : String) :
    ProposalOperationKind :=
  if pathsEqual input.sourceParent destination then
    if eqIgnoreAsciiCase input.sourceName name then .keepInPlace else .renameProposal
  else .moveProposal

/-- The identities the organizer reads off the relationships of a file. -/
structure Identities where
  customer : Option String
  supplier : Option String
  project : Option String

def OrganizationSourceInput.identities (input : OrganizationSourceInput) : Identities :=
  let project := input.strongestRelationship "file_project"
  { customer := ((input.strongestRelationship "file_customer").map (·.displayName)).or
      (project.bind (·.projectCustomerName))
    supplier := (input.strongestRelationship "file_supplier").map (·.displayName)
    project := project.map (·.displayName) }

/-- The operation of a placement. -/
def EngineContext.makeDraft (engine : EngineContext) (id : ProposalItemId)
    (input : OrganizationSourceInput) (user : Option OrganizationProposalOverride)
    (fitted : VirtualPathPolicy.FittedPath) (optionalTail : List Bool) (placement : Placement)
    (kind : ProposalOperationKind) (confidence : Rat × ProposalConfidenceLevel)
    (reasons : List OrganizationReason) (context documentType : String) : DraftOperation where
  optionalTail := if user.isSome then placement.destination.map fun _ => false else optionalTail
  operation :=
    { id
      fileId := input.fileId
      fileVersionId := input.fileVersionId
      source :=
        { relativePath := input.sourceRelativePath
          contentHash := input.contentHash
          byteSize := input.byteSize
          modifiedAt := input.modifiedAt }
      sourceName := input.sourceName
      machineDestination := fitted.destination
      machineName := fitted.name
      proposedDestination := placement.destination
      proposedName := placement.name
      operationKind := kind
      confidenceScore := confidence.1
      confidenceLevel := confidence.2
      reasons
      conflictState := placement.conflictState
      needsReview := placement.needsReview
      stale := false
      userOverride := user.isSome
      disruptionScore := engine.disruptionScore input.sourceParent placement.destination
        input.sourceName placement.name
      proposedPathLength :=
        VirtualPathPolicy.pathLengthUtf16 placement.destination placement.name
      proposedDepth := placement.destination.length
      semanticContext := context
      documentType
      customerName := input.identities.customer
      supplierName := input.identities.supplier
      projectName := input.identities.project
      duplicateGroupId := input.duplicateGroupId
      duplicateCanonical := input.duplicateCanonical }

/-- The professional part of `compile_operation`. -/
def EngineContext.compileProfessionalOperation (engine : EngineContext) (id : ProposalItemId)
    (input : OrganizationSourceInput) (preferences : OrganizationPreferences)
    (policy : VirtualPathPolicy) (user : Option OrganizationProposalOverride)
    (winning : Option LocationKind) (ruleReasons : List OrganizationReason)
    (context documentType : String) : DraftOperation :=
  let identities := input.identities
  let confidence := engine.proposalConfidence input (input.strongestRelationship "file_customer")
    (input.strongestRelationship "file_supplier") (input.strongestRelationship "file_project")
  let (needsReview, qualityReasons) :=
    engine.qualityReasons input preferences context documentType confidence
  let (folders, policyReasons) :=
    if needsReview ∧ (confidence.2 = .low ∨ context = "unknown" ∨ context = "mixed") then
      ([("TO_REVIEW", false)], [])
    else
      destinationPolicy context documentType identities.customer identities.supplier
        identities.project input preferences
        ((input.ruleEvaluation.useYearFolders.map (·.1)).getD preferences.includeYearFolders)
        (winning = some .project)
  let chosen := Chosen.byRule policy "TO_REVIEW" input winning
    { folders, needsReview, reasons := ruleReasons ++ qualityReasons ++ policyReasons } fun chosen =>
      if preferences.preserveExistingFolders && !chosen.needsReview
          && engine.existingStructureIsUseful input.sourceParent (chosen.folders.map (·.1)) policy
      then
        { chosen with
          folders := input.sourceParent.map (·, false)
          reasons := chosen.reasons ++ [reason "minimal_disruption"
            "The current folder structure already matches the supported organization signals."
            (some input.sourceRelativePath)] }
      else chosen
  let fitted := policy.fitMachinePath (chosen.folders.map (·.1))
    (proposedFilename input documentType identities.customer identities.supplier confidence.2
      preferences policy)
  let placement := decidedPlacement policy "TO_REVIEW" user input
    (.ofFitted fitted chosen.needsReview)
  let kind := if input.duplicateNoAction then .noAction
    else if keepsInPlace user then .keepInPlace
    else if placement.destination = ["TO_REVIEW"] then .toReview
    else placedKind input placement.destination placement.name
  engine.makeDraft id input user fitted (chosen.folders.map (·.2)) placement kind confidence
    (chosen.reasons ++ pathSafetyReasons fitted ++ overrideReasons user) context documentType

/-! ## The consumer mode -/

/-- The score that goes with a level. -/
def consumerScore : ProposalConfidenceLevel → Rat
  | .veryHigh => 49 / 50
  | .high => 9 / 10
  | .medium => 3 / 4
  | .low => 2 / 5

/-- `compile_consumer_operation`. -/
def EngineContext.compileConsumerOperation (engine : EngineContext) (id : ProposalItemId)
    (input : OrganizationSourceInput) (policy : VirtualPathPolicy)
    (user : Option OrganizationProposalOverride) (rootKind : ConsumerRootKind)
    (winning : Option LocationKind) (ruleReasons : List OrganizationReason)
    (context documentType : String) : DraftOperation :=
  let decision := engine.decideConsumerOrganization input.sourceRelativePath input.sourceName
    rootKind (if documentType = "unknown" then none else some documentType)
  let folders := if decision.leaveInPlace then input.sourceParent else decision.destination
  let chosen := Chosen.byRule policy "À vérifier" input winning
    { folders := folders.map (·, false)
      needsReview := decision.needsReview
      reasons := ruleReasons
        ++ [reason decision.reasonCode decision.explanation (some rootKind.asStr)] } fun chosen => chosen
  let fitted := policy.fitMachinePath (chosen.folders.map (·.1)) input.sourceName
  let placement := decidedPlacement policy "À vérifier" user input
    (.ofFitted fitted chosen.needsReview)
  let kind := if input.duplicateNoAction then .noAction
    else if keepsInPlace user || decision.leaveInPlace then .keepInPlace
    else placedKind input placement.destination placement.name
  let level := if decision.leaveInPlace then .veryHigh
    else if decision.needsReview then .low
    else .high
  engine.makeDraft id input user fitted (chosen.folders.map (·.2)) placement kind
    (consumerScore level, level)
    (chosen.reasons ++ pathSafetyReasons fitted ++ overrideReasons user) context documentType

/-! ## Either mode -/

/-- `compile_operation`; the identifier is a new one. -/
def EngineContext.compileOperation (engine : EngineContext) (id : ProposalItemId)
    (input : OrganizationSourceInput) (preferences : OrganizationPreferences)
    (policy : VirtualPathPolicy) (user : Option OrganizationProposalOverride)
    (consumerMode : Bool) (rootKind : ConsumerRootKind) : DraftOperation :=
  let context := normalizedSignal input.context "unknown"
  let documentType := normalizedSignal input.documentType "unknown"
  let winning := input.ruleEvaluation.winningLocationRule
  let ruleReasons := appliedRuleReasons input.ruleEvaluation (winning.map (·.2.id))
  let kind := winning.map (·.1)
  if consumerMode then
    engine.compileConsumerOperation id input policy user rootKind kind ruleReasons context
      documentType
  else
    engine.compileProfessionalOperation id input preferences policy user kind ruleReasons context
      documentType

end Zemo.Organizer
