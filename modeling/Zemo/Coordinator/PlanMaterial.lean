import Mathlib.Data.Finset.Sort
import Zemo.Persistence.Prepared

set_option autoImplicit false

/-! # What a plan digest is taken of

The canonical material of a plan: who it is for, what was approved, the root and the policy it is
bound to, and every operation that is approved or that the planner added itself. The status of an
operation is not part of it, and neither is what only an execution learns. -/

namespace Zemo

structure CanonicalOperation where
  id : OperationStepId
  proposalOperationId : Option ProposalItemId
  kind : ExecutionOperationKind
  sourceRelativePath : Option RelPath
  destinationRelativePath : RelPath
  originalSourceRelativePath : Option RelPath
  expectedSourceHash : Option String
  expectedSourceSize : Option Nat
  expectedSourceModifiedAt : Option String
  liveFingerprint : Option FileFingerprint
  preconditions : List String
  dependencies : List OperationStepId
  sequence : Nat
  directoryExistedBefore : Option Bool
deriving DecidableEq

def ExecutionOperation.canonical (operation : ExecutionOperation) : CanonicalOperation where
  id := operation.id
  proposalOperationId := operation.proposalOperationId
  kind := operation.kind
  sourceRelativePath := operation.sourceRelativePath
  destinationRelativePath := operation.destinationRelativePath
  originalSourceRelativePath := operation.originalSourceRelativePath
  expectedSourceHash := operation.expectedSourceHash
  expectedSourceSize := operation.expectedSourceSize
  expectedSourceModifiedAt := operation.expectedSourceModifiedAt
  liveFingerprint := operation.liveFingerprint
  preconditions := operation.preconditions
  dependencies := operation.dependencies
  sequence := operation.sequence
  directoryExistedBefore := operation.directoryExistedBefore

structure CanonicalPlanMaterial where
  materialVersion : Nat
  executionId : ExecutionId
  planId : PlanId
  proposalId : ProposalId
  proposalRevisionId : OrganizationRevisionId
  proposalRevision : Nat
  sourceScanId : ScanId
  approvedOperationIds : List ProposalItemId
  approvedOperationCount : Nat
  rootId : RootId
  destinationRoot : ExecutionRootBinding
  safetyPolicy : ExecutionSafetyPolicyBinding
  operations : List CanonicalOperation
deriving DecidableEq

/-- An operation belongs to the material: it is approved, or no proposal has it. -/
def ExecutionOperation.inPlan (operation : ExecutionOperation)
    (approvedOperationIds : List ProposalItemId) : Bool :=
  operation.proposalOperationId.all (· ∈ approvedOperationIds)

/-- The material `plan_digest` hashes for the arguments `verify_plan_digest` gives it. -/
def ExecutionDetail.planMaterial (detail : ExecutionDetail) : CanonicalPlanMaterial where
  materialVersion := executionPlanMaterialVersion
  executionId := detail.session.id
  planId := detail.session.planId
  proposalId := detail.session.proposalId
  proposalRevisionId := detail.session.proposalRevisionId
  proposalRevision := detail.session.proposalRevision
  sourceScanId := detail.session.sourceScanId
  approvedOperationIds := detail.approval.approvedOperationIds
  approvedOperationCount := detail.approval.operationCount
  rootId := detail.session.rootId
  destinationRoot := detail.consent.destinationRoot
  safetyPolicy := detail.consent.safetyPolicy
  operations := (detail.operations.filter (·.inPlan detail.approval.approvedOperationIds)).map
    (·.canonical)

/-- The encoding and the digest of plan materials: `serde_json::to_vec` and the text of
    `blake3::hash`. -/
structure PlanHash where
  json : CanonicalPlanMaterial → List UInt8
  hash : List UInt8 → String

/-- `plan_digest`. -/
def planDigest (hash : PlanHash) (material : CanonicalPlanMaterial) : String :=
  hash.hash (hash.json material)

/-! ## Verifying a plan -/

/-- The operation is not ruled out by its status. -/
def ExecutionOperationStatus.isExecutable (status : ExecutionOperationStatus) : Bool :=
  status ≠ .blocked && status ≠ .stale

/-- The proposal operations that are not ruled out, in the order of the rows. -/
def ExecutionDetail.executableProposalIds (detail : ExecutionDetail) : List ProposalItemId :=
  (detail.operations.filter (·.status.isExecutable)).filterMap (·.proposalOperationId)

/-- `verify_plan_digest`. -/
def verifyPlanDigest (hash : PlanHash) (detail : ExecutionDetail) : Bool :=
  let computed := planDigest hash detail.planMaterial
  let approved := detail.approval.approvedOperationIds
  computed = detail.session.planDigest
    && computed = detail.approval.snapshotDigest
    && detail.consent.materialVersion = executionPlanMaterialVersion
    && detail.approval.planId = detail.session.planId
    && detail.approval.proposalId = detail.session.proposalId
    && detail.approval.proposalRevisionId = detail.session.proposalRevisionId
    && detail.approval.proposalRevision = detail.session.proposalRevision
    && detail.approval.sourceSnapshotVersion = detail.session.sourceScanId
    && detail.approval.operationCount = approved.length
    && detail.approval.operationCount = detail.session.summary.preflightOk
    && decide (approved.Pairwise (· < ·))
    && detail.executableProposalIds.insertionSort (· ≤ ·) = approved

end Zemo

/-! ## What a plan digest binds

Two details that verify with the same digest execute the same operations. The status of an
operation is not hashed, so this rests on the comparison of the executable proposal operations with
the approved ones: an approved operation that is hashed is executable, and an executable one is
approved and therefore hashed.

The argument needs that an approved proposal operation has one operation. The planner gives it one,
and the rows are unique but for staging steps; with a second one the statuses can be exchanged. -/

namespace Zemo

/-- The operation is executed: no proposal has it, or its status does not rule it out. -/
def ExecutionOperation.isExecutable (operation : ExecutionOperation) : Bool :=
  operation.proposalOperationId.isNone || operation.status.isExecutable

def ExecutionDetail.executableOperations (detail : ExecutionDetail) : List ExecutionOperation :=
  detail.operations.filter (·.isExecutable)

/-- No two hashed operations carry the same proposal operation. -/
def CanonicalPlanMaterial.ApprovedOnce (material : CanonicalPlanMaterial) : Prop :=
  material.operations.Pairwise fun a b =>
    ∀ p, a.proposalOperationId = some p → b.proposalOperationId ≠ some p

variable {hash : PlanHash} {detail detail' : ExecutionDetail}

/-- The parts of a verification the proofs use. -/
theorem verifyPlanDigest_eq_true (h : verifyPlanDigest hash detail = true) :
    planDigest hash detail.planMaterial = detail.session.planDigest ∧
      detail.executableProposalIds.insertionSort (· ≤ ·) = detail.approval.approvedOperationIds := by
  simp only [verifyPlanDigest, Bool.and_eq_true, decide_eq_true_eq] at h
  exact ⟨h.1.1.1.1.1.1.1.1.1.1.1, h.2⟩

/-- A proposal operation is approved exactly when some operation that carries it is executable. -/
theorem mem_approved_iff (h : verifyPlanDigest hash detail = true) {p : ProposalItemId} :
    p ∈ detail.approval.approvedOperationIds ↔ ∃ operation ∈ detail.operations,
      operation.status.isExecutable = true ∧ operation.proposalOperationId = some p := by
  rw [← (verifyPlanDigest_eq_true h).2, List.mem_insertionSort, ExecutionDetail.executableProposalIds,
    List.mem_filterMap]
  constructor
  · rintro ⟨operation, hmem, hp⟩
    obtain ⟨hmem, hexec⟩ := List.mem_filter.1 hmem
    exact ⟨operation, hmem, hexec, hp⟩
  · rintro ⟨operation, hmem, hexec, hp⟩
    exact ⟨operation, List.mem_filter.2 ⟨hmem, hexec⟩, hp⟩

/-- Of a verified detail, the hashed operations are the executable ones. -/
theorem inPlan_eq_isExecutable (h : verifyPlanDigest hash detail = true)
    (honce : detail.planMaterial.ApprovedOnce) {operation : ExecutionOperation}
    (hmem : operation ∈ detail.operations) :
    operation.inPlan detail.approval.approvedOperationIds = operation.isExecutable := by
  cases hproposal : operation.proposalOperationId with
  | none => simp [ExecutionOperation.inPlan, ExecutionOperation.isExecutable, hproposal]
  | some p =>
      have hplan : ∀ op : ExecutionOperation, op.proposalOperationId = some p →
          (op.inPlan detail.approval.approvedOperationIds = true ↔
            p ∈ detail.approval.approvedOperationIds) := fun op hop => by
        simp [ExecutionOperation.inPlan, hop]
      have hexec : operation.isExecutable = operation.status.isExecutable := by
        simp [ExecutionOperation.isExecutable, hproposal]
      rw [hexec, Bool.eq_iff_iff, hplan operation hproposal]
      refine ⟨fun happroved => ?_, fun hstatus =>
        (mem_approved_iff h).2 ⟨operation, hmem, hstatus, hproposal⟩⟩
      -- the executable operation that carries `p` is this one: no other hashed one carries it
      obtain ⟨other, hother, hstatus, hotherProposal⟩ := (mem_approved_iff h).1 happroved
      by_contra hnot
      have hne : operation ≠ other := fun heq => hnot (heq ▸ hstatus)
      have hsymm : Std.Symm fun a b : ExecutionOperation =>
          ∀ q, a.canonical.proposalOperationId = some q → b.canonical.proposalOperationId ≠ some q :=
        ⟨fun a b hab q hb ha => hab q ha hb⟩
      exact (List.pairwise_map.1 honce).forall
        (List.mem_filter.2 ⟨hmem, (hplan operation hproposal).2 happroved⟩)
        (List.mem_filter.2 ⟨hother, (hplan other hotherProposal).2 happroved⟩) hne p hproposal
        hotherProposal

/-- The operations of the material are the executable ones, in their order. -/
theorem planMaterial_operations (h : verifyPlanDigest hash detail = true)
    (honce : detail.planMaterial.ApprovedOnce) :
    detail.planMaterial.operations = detail.executableOperations.map (·.canonical) := by
  show (detail.operations.filter _).map _ = (detail.operations.filter _).map _
  rw [List.filter_congr fun operation hmem => inPlan_eq_isExecutable h honce hmem]

/-- What the digest of a verified plan binds. -/
structure SamePlan (detail detail' : ExecutionDetail) : Prop where
  /-- The same operations are executed, in the same order, with the same hashed fields. -/
  operations : detail.executableOperations.map (·.canonical)
    = detail'.executableOperations.map (·.canonical)
  approved : detail.approval.approvedOperationIds = detail'.approval.approvedOperationIds
  root : detail.consent.destinationRoot = detail'.consent.destinationRoot
  policy : detail.consent.safetyPolicy = detail'.consent.safetyPolicy
  /-- No proposal operation is executable that was not approved. -/
  noOther : ∀ operation ∈ detail'.operations, ∀ p, operation.proposalOperationId = some p →
    operation.status.isExecutable = true → p ∈ detail.approval.approvedOperationIds

/-- **The plan digest binds what is executed.** When neither the encoding nor the digest takes the
    materials of the two details together, equal digests mean equal plans. -/
theorem plan_digest_binds (hash : PlanHash) (detail detail' : ExecutionDetail)
    (hjson : hash.json detail.planMaterial = hash.json detail'.planMaterial →
      detail.planMaterial = detail'.planMaterial)
    (hhash : hash.hash (hash.json detail.planMaterial)
        = hash.hash (hash.json detail'.planMaterial) →
      hash.json detail.planMaterial = hash.json detail'.planMaterial)
    (h : verifyPlanDigest hash detail = true) (h' : verifyPlanDigest hash detail' = true)
    (hdigest : detail.session.planDigest = detail'.session.planDigest)
    (honce : detail.planMaterial.ApprovedOnce) : SamePlan detail detail' := by
  have hmaterial : detail.planMaterial = detail'.planMaterial := by
    refine hjson (hhash ?_)
    calc planDigest hash detail.planMaterial
        = detail.session.planDigest := (verifyPlanDigest_eq_true h).1
      _ = detail'.session.planDigest := hdigest
      _ = planDigest hash detail'.planMaterial := (verifyPlanDigest_eq_true h').1.symm
  have happroved : detail.approval.approvedOperationIds = detail'.approval.approvedOperationIds :=
    congrArg CanonicalPlanMaterial.approvedOperationIds hmaterial
  refine ⟨?_, happroved, congrArg CanonicalPlanMaterial.destinationRoot hmaterial,
    congrArg CanonicalPlanMaterial.safetyPolicy hmaterial, fun operation hmem p hp hstatus => ?_⟩
  · rw [← planMaterial_operations h honce, ← planMaterial_operations h' (hmaterial ▸ honce),
      hmaterial]
  · rw [happroved]
    exact (mem_approved_iff h').2 ⟨operation, hmem, hstatus, hp⟩

/-! ## Small plans -/

def samplePlanHash : PlanHash where
  json := fun material => [UInt8.ofNat material.operations.length]
  hash := fun _ => sampleDigest

/-- The sample execution while it runs. -/
def runningDetail : ExecutionDetail :=
  { sampleDetail with
    session := { sampleDetail.session with status := .running }
    operations := [{ sampleMove with status := .running, startedAt := some "t1" }] }

/-- The plan is the same while it is executed. -/
theorem plan_digest_binds_sample : sampleDetail ≠ runningDetail ∧ SamePlan sampleDetail runningDetail :=
  ⟨by decide, plan_digest_binds samplePlanHash sampleDetail runningDetail (fun _ => by decide)
    (fun _ => by decide) (by decide) (by decide) (by decide)
    (List.pairwise_singleton _ _)⟩

/-- A rename and a staging step that carry the same proposal operation; one of them is blocked. -/
def doubledDetail (rename stage : ExecutionOperationStatus) : ExecutionDetail :=
  { sampleDetail with
    operations :=
      [{ sampleMove with status := rename },
        { sampleMove with id := 2, kind := .internalStage, sequence := 1, status := stage }] }

/-- Which of two operations with one approved proposal operation is executed is not bound: the
    material is the same, and both details verify. -/
theorem plan_digest_leaves_status :
    verifyPlanDigest samplePlanHash (doubledDetail .preflightOk .blocked) = true ∧
      verifyPlanDigest samplePlanHash (doubledDetail .blocked .preflightOk) = true ∧
      (doubledDetail .preflightOk .blocked).planMaterial
        = (doubledDetail .blocked .preflightOk).planMaterial ∧
      (doubledDetail .preflightOk .blocked).executableOperations.map (·.canonical)
        ≠ (doubledDetail .blocked .preflightOk).executableOperations.map (·.canonical) := by
  decide

end Zemo
