import Zemo.Simulation.Model

set_option autoImplicit false

/-! # Sealed plans

From a proposal and its simulation a plan is compiled: a step for each directory that must be made,
then a step for each planned move the user accepted. Each step carries its inverse. Digests and new
identifiers are parameters. -/

namespace Zemo.Simulation

inductive OperationKind where
  | createDirectory
  | removeDirectoryIfEmpty
  | renameEntrySameVolume
  | noOp
deriving DecidableEq, Repr

inductive StepPrecondition where
  | sourceMatches (fingerprint : FileFingerprint)
  | destinationAbsent (rootId : RootId) (path : NativePath)
  | parentMatches (nativeKey : List UInt8)
  | sameVolume (stableVolumeId : String)
  | singleLink
  | notReparsePoint
  | localNtfsVolume
deriving DecidableEq

structure OperationStep where
  id : OperationStepId
  proposalItemId : Option ProposalItemId
  sequence : Nat
  kind : OperationKind
  sourceRootId : Option RootId
  sourcePath : Option NativePath
  destinationRootId : Option RootId
  destinationPath : Option NativePath
  preconditions : List StepPrecondition
  inverse : Option OperationStep

structure PlanDraft where
  id : PlanId
  workspaceId : WorkspaceId
  proposalId : ProposalId
  proposalDigest : Bytes32
  steps : List OperationStep
  createdAtUnixMs : Int

structure SealedPlan where
  id : PlanId
  workspaceId : WorkspaceId
  proposalId : ProposalId
  proposalDigest : Bytes32
  digest : Bytes32
  steps : List OperationStep
  sealedAtUnixMs : Int

inductive PlanSealError where
  | empty
  | staleSimulation
  | unsafeStep
deriving DecidableEq, Repr

inductive OperationsError where
  | staleSimulation
  | sealing (error : PlanSealError)
deriving DecidableEq, Repr

/-- `step_is_safe_and_reversible`. -/
def OperationStep.isSafeAndReversible (step : OperationStep) : Bool :=
  match step.kind with
  | .noOp => true
  | .createDirectory =>
      step.sourcePath.isNone && step.destinationPath.isSome && step.inverse.any fun inverse =>
        inverse.kind = .removeDirectoryIfEmpty && inverse.destinationPath = step.destinationPath
  | .removeDirectoryIfEmpty =>
      step.sourcePath.isNone && step.destinationPath.isSome && step.inverse.any fun inverse =>
        inverse.kind = .createDirectory && inverse.destinationPath = step.destinationPath
  | .renameEntrySameVolume =>
      step.sourcePath.isSome && step.destinationPath.isSome
        && (step.inverse.any fun inverse =>
          inverse.kind = .renameEntrySameVolume && inverse.sourcePath = step.destinationPath
            && inverse.destinationPath = step.sourcePath)
        && step.preconditions.any fun
          | .destinationAbsent .. => true
          | _ => false

/-- What sealing takes from its surroundings. -/
structure SealContext where
  digestOf : ProposalRevision → Bytes32
  planDigest : PlanDraft → Bytes32
  newPlanId : PlanId
  newStepId : Nat → OperationStepId

/-- `seal`. -/
def PlanDraft.seal (context : SealContext) (draft : PlanDraft)
    (simulatedProposalDigest : Bytes32) : Except PlanSealError SealedPlan :=
  if draft.proposalDigest ≠ simulatedProposalDigest then .error .staleSimulation
  else if draft.steps = [] then .error .empty
  else if draft.steps.any fun step => !step.isSafeAndReversible then .error .unsafeStep
  else .ok {
    id := draft.id
    workspaceId := draft.workspaceId
    proposalId := draft.proposalId
    proposalDigest := draft.proposalDigest
    digest := context.planDigest draft
    steps := draft.steps
    sealedAtUnixMs := draft.createdAtUnixMs }

/-- `u32::try_from(number).unwrap_or(u32::MAX)`. -/
def sequenceNumber (number : Nat) : Nat := min number 4294967295

/-- The step for a directory, when this many steps were made before. -/
def directoryStep (context : SealContext) (count : Nat) (directory : PlannedDirectory) :
    OperationStep :=
  let inverse : OperationStep :=
    { id := context.newStepId (2 * count)
      proposalItemId := none
      sequence := sequenceNumber (count + 1)
      kind := .removeDirectoryIfEmpty
      sourceRootId := none
      sourcePath := none
      destinationRootId := some directory.rootId
      destinationPath := some directory.path
      preconditions := []
      inverse := none }
  { id := context.newStepId (2 * count + 1)
    proposalItemId := none
    sequence := sequenceNumber (count + 1)
    kind := .createDirectory
    sourceRootId := none
    sourcePath := none
    destinationRootId := some directory.rootId
    destinationPath := some directory.path
    preconditions := [.destinationAbsent directory.rootId directory.path]
    inverse := some inverse }

/-- What a rename asks for: the file of this fingerprint, and nothing at its destination. -/
def renamePreconditions (fingerprint : FileFingerprint) (rootId : RootId) (path : NativePath) :
    List StepPrecondition :=
  [.sourceMatches fingerprint, .destinationAbsent rootId path,
    .sameVolume fingerprint.volume.stableIdentifier, .singleLink, .notReparsePoint,
    .localNtfsVolume]

/-- The step for a move, the `index`-th of the simulation. -/
def moveStep (context : SealContext) (count index : Nat) (item : ProposalItem)
    (planned : PlannedMove) : OperationStep :=
  let inverse : OperationStep :=
    { id := context.newStepId (2 * count)
      proposalItemId := some item.id
      sequence := sequenceNumber (count + index + 1)
      kind := .renameEntrySameVolume
      sourceRootId := some planned.destinationRootId
      sourcePath := some planned.destinationPath
      destinationRootId := some planned.sourceRootId
      destinationPath := some planned.sourcePath
      preconditions :=
        renamePreconditions planned.fingerprint planned.sourceRootId planned.sourcePath
      inverse := none }
  { id := context.newStepId (2 * count + 1)
    proposalItemId := some item.id
    sequence := sequenceNumber (count + 1)
    kind := .renameEntrySameVolume
    sourceRootId := some planned.sourceRootId
    sourcePath := some planned.sourcePath
    destinationRootId := some planned.destinationRootId
    destinationPath := some planned.destinationPath
    preconditions :=
      renamePreconditions planned.fingerprint planned.destinationRootId planned.destinationPath
    inverse := some inverse }

/-- The steps for the directories. -/
def directorySteps (context : SealContext) :
    Nat → List PlannedDirectory → List OperationStep
  | _, [] => []
  | count, directory :: directories =>
      directoryStep context count directory :: directorySteps context (count + 1) directories

/-- The item a move is for, when it is accepted: the last one, as in a map that is filled in
    order. -/
def acceptedItem (items : List ProposalItem) (id : ProposalItemId) : Option ProposalItem :=
  (items.reverse.find? fun item => item.id = id).filter fun item =>
    item.reviewState = .accepted && item.action.destination?.isSome

/-- The steps for the moves that are accepted. -/
def moveSteps (context : SealContext) (items : List ProposalItem) :
    Nat → Nat → List PlannedMove → List OperationStep
  | _, _, [] => []
  | count, index, planned :: moves =>
      match acceptedItem items planned.itemId with
      | none => moveSteps context items count (index + 1) moves
      | some item =>
          moveStep context count index item planned
            :: moveSteps context items (count + 1) (index + 1) moves

/-- `compile_plan`. -/
def compilePlan (context : SealContext) (proposal : ProposalRevision)
    (simulation : SimulationOutcome) : Except OperationsError SealedPlan :=
  let proposalDigest := context.digestOf proposal
  if simulation.simulation.proposalId ≠ proposal.id
      ∨ simulation.simulation.proposalDigest ≠ proposalDigest then
    .error .staleSimulation
  else
    let created := directorySteps context 0 simulation.directories
    let steps := created ++ moveSteps context proposal.items created.length 0 simulation.moves
    let draft : PlanDraft :=
      { id := context.newPlanId
        workspaceId := proposal.workspaceId
        proposalId := proposal.id
        proposalDigest
        steps
        createdAtUnixMs := simulation.simulation.simulatedAtUnixMs }
    match draft.seal context proposalDigest with
    | .ok plan => .ok plan
    | .error error => .error (.sealing error)

/-! ## What is compiled -/

variable {context : SealContext} {proposal : ProposalRevision} {outcome : SimulationOutcome}
  {plan : SealedPlan}

/-- A sealed plan has the steps for the directories and then those for the accepted moves. -/
theorem compilePlan_steps (h : compilePlan context proposal outcome = .ok plan) :
    plan.steps = directorySteps context 0 outcome.directories
      ++ moveSteps context proposal.items (directorySteps context 0 outcome.directories).length 0
        outcome.moves := by
  simp only [compilePlan] at h
  split at h
  · exact nomatch h
  · split at h
    · rename_i sealed hsealed
      obtain rfl := Except.ok.inj h
      simp only [PlanDraft.seal] at hsealed
      split at hsealed
      · exact nomatch hsealed
      · split at hsealed
        · exact nomatch hsealed
        · split at hsealed
          · exact nomatch hsealed
          · exact (Except.ok.inj hsealed) ▸ rfl
    · exact nomatch h

end Zemo.Simulation
