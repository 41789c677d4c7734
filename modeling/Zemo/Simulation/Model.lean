import Zemo.Files.Tree
import Zemo.Simulation.NativePaths

set_option autoImplicit false

/-! # The simulation of a proposal

A revision of a proposal says of each file of a snapshot whether it stays or where it goes. The
simulation goes through its items in order, on a virtual file system that knows the places of files
and the directories of the snapshot, and collects the conflicts it meets, the directories that must
be made, and the moves. Places are compared by a key that lowercases their path; the lowercasing is
a parameter. -/

namespace Zemo.Simulation

/-! ## Proposals -/

inductive ReviewState where
  | ready
  | toReview
  | accepted
  | rejected
  | blocked
  | stale
deriving DecidableEq, Repr

inductive ReviewReason where
  | lowConfidence
  | uncalibrated
  | outOfDistribution
  | unsupportedFormat
  | extractionFailed
  | encryptedContent
  | reparsePoint
  | hardLink
  | cloudPlaceholder
  | nonLocalVolume
  | nonNtfsVolume
  | removableVolume
  | sourceChanged
  | destinationConflict
  | invalidPath
  | fileLocked
  | permissionDenied
  | crossVolume
  | ambiguousRecovery
deriving DecidableEq, Repr

structure DestinationIntent where
  rootId : RootId
  folderComponents : List String
  fileName : String
deriving DecidableEq, Repr

/-- The path below the root. -/
def DestinationIntent.path (destination : DestinationIntent) : RelPath :=
  destination.folderComponents ++ [destination.fileName]

inductive ProposalAction where
  | keep
  | move (destination : DestinationIntent)
  | placeInReview (destination : DestinationIntent)
deriving DecidableEq, Repr

/-- Where the action wants the file. -/
def ProposalAction.destination? : ProposalAction → Option DestinationIntent
  | keep => none
  | move destination => some destination
  | placeInReview destination => some destination

structure ProposalItem where
  id : ProposalItemId
  fileId : FileId
  expectedFileVersionId : Nat
  action : ProposalAction
  reviewState : ReviewState
deriving DecidableEq, Repr

structure ProposalRevision where
  id : ProposalId
  workspaceId : WorkspaceId
  baseScanId : ScanId
  revision : Nat
  policyDigest : Bytes32
  items : List ProposalItem
  createdAtUnixMs : Int
deriving DecidableEq

/-! ## Records of a simulation -/

structure SimulationFile where
  itemId : ProposalItemId
  rootId : RootId
  sourcePath : NativePath
  sourceDisplay : String
  fingerprint : FileFingerprint
deriving DecidableEq

structure PlannedMove where
  itemId : ProposalItemId
  sourceRootId : RootId
  sourcePath : NativePath
  destinationRootId : RootId
  destinationPath : NativePath
  fingerprint : FileFingerprint
deriving DecidableEq

structure PlannedDirectory where
  rootId : RootId
  path : NativePath
  displayPath : String
deriving DecidableEq

inductive ConflictSeverity where
  | warning
  | blocker
deriving DecidableEq, Repr

structure SimulationConflict where
  itemId : ProposalItemId
  reason : ReviewReason
  severity : ConflictSeverity
  message : String
deriving DecidableEq, Repr

structure SimulationDiff where
  itemId : ProposalItemId
  displayLabel : String
  beforeLabel : Option String
  afterLabel : Option String
  summary : String
deriving DecidableEq, Repr

structure ProposalSimulation where
  proposalId : ProposalId
  proposalDigest : Bytes32
  diffs : List SimulationDiff
  conflicts : List SimulationConflict
  simulatedAtUnixMs : Int
deriving DecidableEq

/-- `has_blockers`, on the conflicts. -/
def hasBlockers (conflicts : List SimulationConflict) : Bool :=
  conflicts.any fun conflict => conflict.severity = .blocker

structure SimulationOutcome where
  simulation : ProposalSimulation
  directories : List PlannedDirectory
  moves : List PlannedMove
deriving DecidableEq

inductive SimulationError where
  | missingSnapshot
deriving DecidableEq, Repr

/-! ## Components -/

/-- A component of a destination that may not be there. -/
def validateComponent (component : String) : Option ReviewReason :=
  let chars := component.toList
  if chars = [] ∨ component = "." ∨ component = ".." ∨ chars.getLast? = some ' '
      ∨ chars.getLast? = some '.'
      ∨ chars.any (fun c => c.toNat < 0x20 || c ∈ ['<', '>', ':', '"', '/', '\\', '|', '?', '*'])
      ∨ utf16Count component > 255 then
    some .invalidPath
  else
    let stem := (chars.takeWhile (· ≠ '.')).map Char.toUpper
    if stem ∈ ["CON", "PRN", "AUX", "NUL", "COM1", "COM2", "COM3", "COM4", "COM5", "COM6", "COM7",
        "COM8", "COM9", "LPT1", "LPT2", "LPT3", "LPT4", "LPT5", "LPT6", "LPT7", "LPT8",
        "LPT9"].map String.toList then
      some .invalidPath
    else none

/-- `str::to_lowercase`, of which the simulation needs that it goes by the parts between
    backslashes. -/
structure CaseMapping where
  lower : String → String
  lower_backslash : ∀ a b, lower (a ++ "\\" ++ b) = lower a ++ "\\" ++ lower b
  lower_name : ∀ a, '\\' ∉ a.toList → '\\' ∉ (lower a).toList

/-- `case_key`. -/
def caseKey (mapping : CaseMapping) (value : String) : String := mapping.lower value

/-! ## The virtual file system -/

structure VirtualFileSystem where
  occupiedPaths : Finset (RootId × String) := ∅
  existingDirectories : Finset (RootId × String) := ∅

/-- What is collected on the way through the items. -/
structure SimulationState where
  occupied : Finset (RootId × String)
  conflicts : List SimulationConflict := []
  diffs : List SimulationDiff := []
  directories : List PlannedDirectory := []
  plannedDirectories : Finset (RootId × String) := ∅
  moves : List PlannedMove := []

/-- `components[..index]` for each index from one on. -/
def folderPrefixes (folders : List String) : List RelPath :=
  (List.range folders.length).map fun index => folders.take (index + 1)

namespace SimulationState

/-- A conflict of this item. -/
def noteConflict (state : SimulationState) (itemId : ProposalItemId) (reason : ReviewReason)
    (severity : ConflictSeverity) (message : String) : SimulationState :=
  { state with conflicts := state.conflicts ++ [{ itemId, reason, severity, message }] }

/-- A folder on the way to a destination: it is planned unless it exists or was planned before. -/
def planDirectory (vfs : VirtualFileSystem) (mapping : CaseMapping) (rootId : RootId)
    (encoding : PathEncoding) (state : SimulationState) (folder : RelPath) : SimulationState :=
  let displayPath := joinComponents folder
  let key := (rootId, caseKey mapping displayPath)
  { state with
    plannedDirectories := insert key state.plannedDirectories
    directories :=
      if key ∈ vfs.existingDirectories ∨ key ∈ state.plannedDirectories then state.directories
      else state.directories
        ++ [{ rootId, path := encodeNativePath displayPath encoding, displayPath }] }

/-- The folders, the difference and the move of an item that goes to its destination. -/
def planMove (vfs : VirtualFileSystem) (mapping : CaseMapping) (state : SimulationState)
    (item : ProposalItem) (destination : DestinationIntent) (source : SimulationFile) :
    SimulationState :=
  let destinationDisplay := joinComponents destination.path
  let planned := (folderPrefixes destination.folderComponents).foldl
    (planDirectory vfs mapping destination.rootId source.sourcePath.encoding) state
  { planned with
    diffs := planned.diffs ++ [{
      itemId := item.id
      displayLabel := source.sourceDisplay
      beforeLabel := some source.sourceDisplay
      afterLabel := some destinationDisplay
      summary := "Déplacement intra-racine proposé, sans écrasement." }]
    moves := planned.moves ++ [{
      itemId := item.id
      sourceRootId := source.rootId
      sourcePath := source.sourcePath
      destinationRootId := destination.rootId
      destinationPath := encodeNativePath destinationDisplay source.sourcePath.encoding
      fingerprint := source.fingerprint }] }

end SimulationState

/-- Why a file may not be moved to a root, with the message for the user. -/
def transferProblem (source : SimulationFile) (destinationRootId : RootId) :
    Option (ReviewReason × String) :=
  let fingerprint := source.fingerprint
  let volume := fingerprint.volume
  if source.rootId ≠ destinationRootId then
    some (.crossVolume, "Le MVP n’autorise pas les transferts entre racines ou volumes.")
  else if ¬volume.isLocal ∨ volume.removable then
    some (if volume.removable then .removableVolume else .nonLocalVolume,
      "Apply est limité aux volumes locaux fixes.")
  else if volume.platform = .windows
      ∧ ¬volume.filesystemType.any (fun value => value.toList.map Char.toUpper = "NTFS".toList) then
    some (.nonNtfsVolume, "Apply Windows est limité aux volumes NTFS.")
  else if ¬fingerprint.stableForApply then
    some (if fingerprint.linkCount ≠ 1 then .hardLink
      else if fingerprint.reparseTag.isSome then .reparsePoint
      else .sourceChanged,
      "La source ne possède pas une identité stable pour Apply.")
  else none

/-- The snapshot file of an item: the last one, as in a map that is filled in order. -/
def snapshotFile (files : List SimulationFile) (id : ProposalItemId) : Option SimulationFile :=
  files.reverse.find? fun file => file.itemId = id

/-- One turn of the loop of `simulate`. -/
def simulateItem (vfs : VirtualFileSystem) (mapping : CaseMapping) (files : List SimulationFile)
    (state : SimulationState) (item : ProposalItem) : Except SimulationError SimulationState :=
  if item.reviewState = .rejected then .ok state
  else
    match snapshotFile files item.id with
    | none => .error .missingSnapshot
    | some source =>
        if item.reviewState = .blocked ∨ item.reviewState = .stale then
          .ok (state.noteConflict item.id .sourceChanged .blocker
            "La source est bloquée ou périmée.")
        else
          match item.action.destination? with
          | none => .ok state
          | some destination =>
              match destination.path.findSome? validateComponent with
              | some reason => .ok (state.noteConflict item.id reason .blocker
                  "La destination contient un composant Windows non sûr.")
              | none =>
                  let destinationDisplay := joinComponents destination.path
                  let key := (destination.rootId, caseKey mapping destinationDisplay)
                  if utf16Count destinationDisplay > 240 then
                    .ok (state.noteConflict item.id .invalidPath .blocker
                      "La destination dépasse la limite produit de 240 unités UTF-16.")
                  else if key ∈ state.occupied then
                    .ok (state.noteConflict item.id .destinationConflict .blocker
                      "Une entrée existe déjà à cette destination.")
                  else
                    let state := { state with occupied := insert key state.occupied }
                    match transferProblem source destination.rootId with
                    | some (reason, message) =>
                        .ok (state.noteConflict item.id reason .blocker message)
                    | none =>
                        let state :=
                          if item.reviewState = .toReview then
                            state.noteConflict item.id .lowConfidence .warning
                              "Une décision explicite est requise avant le scellement."
                          else state
                        .ok (state.planMove vfs mapping item destination source)

/-- `simulate`. The digest of a proposal is a parameter. -/
def VirtualFileSystem.simulate (vfs : VirtualFileSystem) (mapping : CaseMapping)
    (digestOf : ProposalRevision → Bytes32) (proposal : ProposalRevision)
    (snapshotFiles : List SimulationFile) (nowUnixMs : Int) :
    Except SimulationError SimulationOutcome := do
  let state ← proposal.items.foldlM (simulateItem vfs mapping snapshotFiles)
    { occupied := vfs.occupiedPaths }
  return {
    simulation := {
      proposalId := proposal.id
      proposalDigest := digestOf proposal
      diffs := state.diffs
      conflicts := state.conflicts
      simulatedAtUnixMs := nowUnixMs }
    directories := state.directories
    moves := state.moves }

end Zemo.Simulation
