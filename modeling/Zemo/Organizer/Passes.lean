import Zemo.Organizer.Compile

set_option autoImplicit false

/-! # Passes over all operations

What the operations of the files have to do with each other: small optional folders are left out,
the folders at the top of a one-click organization are kept together, and two files that would get
the same place get names of their own. -/

namespace Zemo.Organizer

variable (engine : EngineContext)

/-! ## Small groups -/

/-- The name a folder is counted under. -/
def EngineContext.groupKey (destination : List String) : String :=
  "\\".intercalate (destination.map engine.toLowercase)

/-- The folders of a destination, from the top. -/
def folderKeys (destination : List String) : List (List String) :=
  (List.range destination.length).map fun index => destination.take (index + 1)

/-- How many operations are in a folder or below it. -/
def EngineContext.groupCount (drafts : List DraftOperation) (key : String) : Nat :=
  (drafts.flatMap fun draft =>
    (folderKeys draft.operation.proposedDestination).map engine.groupKey).count key

/-- The last folder is optional and too small. -/
def EngineContext.isSmall (drafts : List DraftOperation) (minimumGroupSize : Nat)
    (draft : DraftOperation) : Bool :=
  draft.optionalTail.getLast? = some true
    && engine.groupCount drafts (engine.groupKey draft.operation.proposedDestination)
      < minimumGroupSize

/-- An operation without its last folder. -/
def DraftOperation.popped (draft : DraftOperation) : DraftOperation where
  optionalTail := draft.optionalTail.dropLast
  operation :=
    { draft.operation with
      proposedDestination := draft.operation.proposedDestination.dropLast
      machineDestination := draft.operation.machineDestination.dropLast
      reasons := draft.operation.reasons ++ [reason "minimum_group_policy"
        "A singleton optional folder was omitted to avoid folder proliferation." none] }

/-- One round over all operations. -/
def EngineContext.groupRound (minimumGroupSize : Nat) (drafts : List DraftOperation) :
    List DraftOperation :=
  drafts.map fun draft =>
    if engine.isSmall drafts minimumGroupSize draft then draft.popped else draft

/-- The rounds until nothing changes; each takes one folder away at least. -/
def EngineContext.groupLoop (minimumGroupSize : Nat) :
    Nat → List DraftOperation → List DraftOperation
  | 0, drafts => drafts
  | fuel + 1, drafts =>
      if drafts.any (engine.isSmall drafts minimumGroupSize) then
        EngineContext.groupLoop minimumGroupSize fuel
          (engine.groupRound minimumGroupSize drafts)
      else drafts

/-- The fields that follow from the destination. -/
def EngineContext.remeasured (draft : DraftOperation) : DraftOperation :=
  { draft with
    operation :=
      { draft.operation with
        proposedDepth := draft.operation.proposedDestination.length
        disruptionScore := engine.disruptionScore
          (sourceParentComponents draft.operation.source.relativePath draft.operation.sourceName)
          draft.operation.proposedDestination draft.operation.sourceName
          draft.operation.proposedName } }

/-- `apply_minimum_group_policy`. -/
def EngineContext.applyMinimumGroupPolicy (minimumGroupSize : Nat)
    (drafts : List DraftOperation) : List DraftOperation :=
  if minimumGroupSize ≤ 1 then drafts
  else
    let rounds := (drafts.map (·.optionalTail.length)).sum
    (engine.groupLoop minimumGroupSize rounds drafts).map engine.remeasured

/-! ## Folders that stay together -/

inductive ConsumerFolderBundleKind where
  | development
  | work
  | images
  | videos
  | general
deriving DecidableEq, Repr

/-- `normalized_source_components`. -/
def normalizedSourceComponents (path : String) : List String :=
  (splitAny (fun c => c = '/' || c = '\\') path).filter (· ≠ "")

/-- `consumer_bundle_top_level_is_protected`. -/
def consumerBundleTopLevelIsProtected (value : String) : Bool :=
  startsWith value "."
    || toAsciiLowercase value ∈ ["documents", "images", "pictures", "photos", "vidéos", "videos",
      "archives", "installateurs", "à vérifier", "a verifier", "développement", "developpement",
      "node_modules", "applications", "library", "system", "windows", "program files",
      "program files (x86)"]

/-- `is_bundle_project_manifest`. -/
def isBundleProjectManifest (name : String) : Bool :=
  name ∈ ["package.json", "package-lock.json", "pnpm-lock.yaml", "yarn.lock", "cargo.toml",
    "cargo.lock", "pyproject.toml", "requirements.txt", "poetry.lock", "go.mod", "go.sum",
    "pom.xml", "composer.json", "composer.lock"]

/-- The ending of a name is one of these. -/
def hasEnding (name : String) (endings : List String) : Bool :=
  (rsplitOnce '.' name).any fun (_, ending) => ending ∈ endings

/-- `bundle_extension_is_code`. -/
def bundleExtensionIsCode (name : String) : Bool :=
  hasEnding name ["js", "jsx", "ts", "tsx", "mjs", "cjs", "rs", "py", "go", "java", "c", "h",
    "cpp", "hpp", "cs", "php", "rb", "swift", "kt", "kts", "vue", "svelte", "html", "css", "scss"]

/-- `bundle_extension_is_image`. -/
def bundleExtensionIsImage (name : String) : Bool :=
  hasEnding name ["jpg", "jpeg", "png", "gif", "webp", "heic", "avif", "svg"]

/-- `bundle_extension_is_video`. -/
def bundleExtensionIsVideo (name : String) : Bool :=
  hasEnding name ["mp4", "mov", "m4v", "mkv", "avi", "webm"]

/-- `folder_name_looks_like_work`. -/
def EngineContext.folderNameLooksLikeWork (name : String) : Bool :=
  containsAny (engine.toLowercase name) ["maquette", "portfolio", "projet", "project", "client",
    "chantier", "site", "web", "coaching", "lea", "témoignage", "temoignage", "etanche", "psps"]

/-- The folder at the top a file is kept together with. -/
def OrganizationSourceInput.bundleTop (input : OrganizationSourceInput) : Option String :=
  match normalizedSourceComponents input.sourceRelativePath with
  | top :: _ :: _ => if consumerBundleTopLevelIsProtected top then none else some top
  | _ => none

/-- The files kept together under a key. -/
def bundleMembers (inputs : List OrganizationSourceInput) (key : String) :
    List OrganizationSourceInput :=
  inputs.filter fun input => input.bundleTop.any fun top => toAsciiLowercase top = key

/-- A file that says of its folder that it is about work. -/
def EngineContext.isWorkSignal (input : OrganizationSourceInput) : Bool :=
  input.bundleTop.any engine.folderNameLooksLikeWork
    || input.context.any (fun signal => containsText (toAsciiLowercase signal.value) "work")
    || containsAny (toAsciiLowercase input.sourceName) ["devis", "chantier", "client"]

/-- The kind of a folder, from its files. -/
def EngineContext.bundleKind (members : List OrganizationSourceInput) :
    ConsumerFolderBundleKind :=
  let number := fun p : String → Bool =>
    (members.filter fun input => p (toAsciiLowercase input.sourceName)).length
  let images := number bundleExtensionIsImage
  let videos := number bundleExtensionIsVideo
  if 0 < number isBundleProjectManifest ∨ 2 ≤ number bundleExtensionIsCode then .development
  else if 0 < images ∧ members.length * 70 ≤ images * 100 then .images
  else if 0 < videos ∧ members.length * 70 ≤ videos * 100 then .videos
  else if members.any engine.isWorkSignal then .work
  else .general

/-- `consumer_bundle_base`. -/
def consumerBundleBase (rootKind : ConsumerRootKind) (kind : ConsumerFolderBundleKind)
    (top : String) : List String :=
  match kind with
  | .development => ["Développement", "Projets", top]
  | .work =>
      if rootKind = .documents then ["Travail", "Projets", top]
      else ["Documents", "Travail", "Projets", top]
  | .images => if rootKind = .pictures then ["Albums", top] else ["Images", "Albums", top]
  | .videos =>
      if rootKind = .videos then ["Collections", top] else ["Vidéos", "Collections", top]
  | .general => ["À vérifier", "Dossiers", top]

/-- The score that goes with a kind of folder. -/
def ConsumerFolderBundleKind.score : ConsumerFolderBundleKind → Rat
  | .development | .work => 49 / 50
  | .images | .videos => 97 / 100
  | .general => 9 / 10

/-- Where the folder of a file goes and what it is, for a file that is kept with its folder. -/
structure BundlePlace where
  kind : ConsumerFolderBundleKind
  top : String
  destination : List String

def EngineContext.bundlePlace (inputs : List OrganizationSourceInput) (rootKind : ConsumerRootKind)
    (policy : VirtualPathPolicy) (input : OrganizationSourceInput) : Option BundlePlace :=
  match normalizedSourceComponents input.sourceRelativePath with
  | first :: second :: rest =>
      let members := bundleMembers inputs (toAsciiLowercase first)
      match members with
      | [] => none
      | canonical :: _ =>
          let kind := engine.bundleKind members
          let top := canonical.bundleTop.getD first
          some
            { kind, top
              destination := (consumerBundleBase rootKind kind top
                ++ (second :: rest).dropLast).take policy.maximumDepth }
  | _ => none

/-- The operation of a file that is kept with its folder. -/
def DraftOperation.bundled (policy : VirtualPathPolicy) (input : OrganizationSourceInput)
    (place : BundlePlace) (draft : DraftOperation) : DraftOperation :=
  let fitted := policy.fitMachinePath place.destination input.sourceName
  if fitted.valid = false then
    { draft with
      operation := { draft.operation with conflictState := .pathTooLong, needsReview := true } }
  else
    { optionalTail := place.destination.map fun _ => false
      operation :=
        { draft.operation with
          proposedDestination := place.destination
          machineDestination := fitted.destination
          proposedName := input.sourceName
          machineName := fitted.name
          operationKind := .moveProposal
          confidenceScore := place.kind.score
          confidenceLevel := .high
          needsReview := false
          conflictState := .none
          reasons := draft.operation.reasons ++
            [{ code := "consumer_folder_bundle"
               explanation := "Le dossier est conservé comme un bloc cohérent et rangé avec toute "
                ++ "son arborescence."
               evidenceReferences := ["folder:" ++ place.top] }]
          disruptionScore := if fitted.changed then 3 / 25 else 2 / 25
          proposedPathLength :=
            VirtualPathPolicy.pathLengthUtf16 place.destination input.sourceName
          proposedDepth := place.destination.length } }

/-- The input of a file: of several the last. -/
def inputOf (inputs : List OrganizationSourceInput) (fileId : FileId) :
    Option OrganizationSourceInput :=
  (inputs.filter fun input => input.fileId = fileId).getLast?

/-- `apply_consumer_folder_bundle_policy`. -/
def EngineContext.applyConsumerFolderBundlePolicy (inputs : List OrganizationSourceInput)
    (rootKind : ConsumerRootKind) (policy : VirtualPathPolicy) (drafts : List DraftOperation) :
    List DraftOperation :=
  drafts.map fun draft =>
    if draft.operation.userOverride || draft.operation.stale then draft
    else
      match inputOf inputs draft.operation.fileId with
      | none => draft
      | some input =>
          match engine.bundlePlace inputs rootKind policy input with
          | none => draft
          | some place => draft.bundled policy input place

/-! ## Places taken twice -/

/-- The place of an operation. -/
def EngineContext.placeKey (operation : OrganizationProposalOperation) : String :=
  collisionKey engine.toLowercase operation.proposedDestination operation.proposedName

/-- The first suffix from one on that is not taken, or the last there is. -/
def searchSuffix (taken : Nat → Bool) : Nat → Nat → Nat
  | 0, suffix => suffix
  | fuel + 1, suffix => if taken suffix then searchSuffix taken fuel (suffix + 1) else suffix

/-- The largest suffix that is tried. -/
def maximumSuffix : Nat := 10000

/-- The operation is not moved at all. -/
def isLeftAlone (operation : OrganizationProposalOperation) : Bool :=
  operation.operationKind = .keepInPlace || operation.operationKind = .noAction

/-- A conflict that is left to the user. -/
def DraftOperation.unresolved (draft : DraftOperation) (code explanation : String) :
    DraftOperation :=
  { draft with
    operation :=
      { draft.operation with
        conflictState := .destinationCollision
        needsReview := true
        operationKind := .toReview
        reasons := draft.operation.reasons ++ [reason code explanation none] } }

/-- The length of the path, once its name is settled. -/
def DraftOperation.measured (draft : DraftOperation) : DraftOperation :=
  { draft with
    operation :=
      { draft.operation with
        proposedPathLength := VirtualPathPolicy.pathLengthUtf16
          draft.operation.proposedDestination draft.operation.proposedName } }

/-- The body of the loop in `resolve_collisions`, with the keys that are taken so far, each as
    often as it was asked for. -/
def EngineContext.resolveCollision (policy : VirtualPathPolicy) (seen : List String)
    (draft : DraftOperation) : List String × DraftOperation :=
  if isLeftAlone draft.operation then (seen, draft)
  else
    let key := engine.placeKey draft.operation
    let ordinal := seen.count key + 1
    let seen := key :: seen
    if ordinal = 1 then (seen, draft)
    else if draft.operation.userOverride then
      (seen, draft.unresolved "destination_collision"
        ("The authoritative user destination collides case-insensitively with another "
          ++ "proposal."))
    else
      let candidate := fun suffix =>
        collisionName draft.operation.proposedName suffix policy.maximumFilenameUtf16
      let candidateKey := fun suffix =>
        collisionKey engine.toLowercase draft.operation.proposedDestination (candidate suffix)
      let suffix := searchSuffix (fun suffix => candidateKey suffix ∈ seen)
        (maximumSuffix - ordinal) ordinal
      if candidateKey suffix ∈ seen ∨ policy.maximumPathUtf16 < VirtualPathPolicy.pathLengthUtf16
          draft.operation.proposedDestination (candidate suffix) then
        (seen, (draft.unresolved "unresolved_collision"
          "A unique Windows-safe virtual filename could not be generated.").measured)
      else
        (candidateKey suffix :: seen,
          DraftOperation.measured
            { draft with
              operation :=
                { draft.operation with
                  proposedName := candidate suffix
                  conflictState := .autoResolved
                  reasons := draft.operation.reasons ++ [reason "collision_resolved"
                    ("A deterministic numeric suffix avoids a case-insensitive destination "
                      ++ "collision.") none] } })

/-- `resolve_collisions`, from some keys on. -/
def EngineContext.resolveCollisionsFrom (policy : VirtualPathPolicy) :
    List String → List DraftOperation → List DraftOperation
  | _, [] => []
  | seen, draft :: rest =>
      let step := engine.resolveCollision policy seen draft
      step.2 :: EngineContext.resolveCollisionsFrom policy step.1 rest

/-- `resolve_collisions`. -/
def EngineContext.resolveCollisions (policy : VirtualPathPolicy) (drafts : List DraftOperation) :
    List DraftOperation :=
  engine.resolveCollisionsFrom policy [] drafts

/-! ## Operations of an earlier revision -/

/-- `draft_from_previous_operation`; the identifier is a new one. -/
def draftFromPreviousOperation (id : ProposalItemId) (operation : OrganizationProposalOperation) :
    DraftOperation where
  optionalTail := operation.proposedDestination.map fun _ => false
  operation := { operation with id }

/-- The codes of the reasons a collision leaves. -/
def collisionCodes : List String :=
  ["destination_collision", "unresolved_collision", "collision_resolved"]

/-- The body of the loop in `reset_collision_names_for_neighborhood`. -/
def resetCollisionName (affected : List FileId) (draft : DraftOperation) : DraftOperation :=
  let operation := draft.operation
  if operation.fileId ∉ affected then draft
  else if operation.conflictState = .autoResolved ∨ operation.conflictState = .destinationCollision
      ∨ operation.proposedName ≠ operation.machineName then
    if operation.userOverride then
      { draft with operation := { operation with proposedName := operation.machineName } }
    else
      { draft with
        operation :=
          { operation with
            proposedName := operation.machineName
            conflictState := .none
            reasons := operation.reasons.filter fun reason => reason.code ∉ collisionCodes } }
  else draft

/-- `reset_collision_names_for_neighborhood`. -/
def resetCollisionNamesForNeighborhood (affected : List FileId) (drafts : List DraftOperation) :
    List DraftOperation :=
  drafts.map (resetCollisionName affected)

end Zemo.Organizer
