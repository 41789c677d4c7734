import Zemo.Persistence.Events

set_option autoImplicit false

/-! # Prepared executions

`persist_prepared_execution` stores a new execution: it checks the prepared detail and inserts one
row in every table. Every run of an execution starts from such rows. The check that the proposal is
still the approved one concerns other tables and is not modelled. -/

namespace Zemo

/-- `validate_prepared_execution`. -/
def validatePreparedExecution (detail : ExecutionDetail) : Bool :=
  decide (detail.session.status = .awaitingConfirmation
    ∧ detail.session.recoveryState = .recoveryNotRequired
    ∧ detail.consent.consent = ExecutionConsent.pending
    ∧ detail.consent.materialVersion = executionPlanMaterialVersion
    ∧ detail.approval.planId = detail.session.planId
    ∧ detail.approval.userConfirmed = false
    ∧ detail.session.planDigest.utf8ByteSize = 64
    ∧ detail.approval.snapshotDigest = detail.session.planDigest
    ∧ detail.consent.safetyPolicy.version.isEmpty = false
    ∧ detail.consent.safetyPolicy.version.utf8ByteSize ≤ 64
    ∧ detail.consent.safetyPolicy.digestHex.utf8ByteSize = 64
    ∧ detail.consent.destinationRoot.canonicalPath.isEmpty = false
    ∧ detail.consent.destinationRoot.displayPath.isEmpty = false
    ∧ detail.consent.destinationRoot.displayPath.utf8ByteSize ≤ 4096
    ∧ detail.operations ≠ []
    ∧ detail.approval.approvedOperationIds.Nodup
    ∧ detail.approval.approvedOperationIds.length = detail.approval.operationCount
    ∧ detail.approval.operationCount = detail.session.summary.preflightOk
    ∧ (∀ id ∈ detail.approval.approvedOperationIds, ∃ op ∈ detail.operations,
        op.status = .preflightOk ∧ op.kind ≠ .internalStage ∧ op.proposalOperationId = some id)
    ∧ (∀ op ∈ detail.operations, op.status = .preflightOk → op.kind ≠ .internalStage →
        ∀ id ∈ op.proposalOperationId, id ∈ detail.approval.approvedOperationIds)
    ∧ detail.operations.map (·.sequence) = List.range detail.operations.length)

/-- The rows `persist_prepared_execution` inserts for a detail. -/
def preparedRows (detail : ExecutionDetail) : Database where
  session := { detail.session with
    userConfirmed := detail.approval.userConfirmed
    pauseRequested := false
    cancelRequested := false
    journalSequence := -1
    journalChainHead := none }
  snapshot := detail.approval
  consent := { detail.consent with consent := ExecutionConsent.pending, stateChangedAtUnixMs := 0 }
  operations := detail.operations.map fun op => { op with postFingerprint := none }
  journal := []
  executorSessions := []
  executorRequests := []
  rollbackRecords := []
  recovery := none
  retention :=
    { finalizedAt := none
      journalRetentionReason := "execution_not_finalized"
      rollbackRetentionReason := "no_applied_operations"
      minimumRetainUntil := none
      activeRecovery := false
      rollbackEligible := false
      cleanupEligibleAt := none
      cleanupEligibilityReason := "execution_not_finalized"
      updatedAt := detail.session.createdAt }
  errors := []

/-- `persist_prepared_execution`: the tests and the constraints of the tables. -/
def persistPreparedExecution (detail : ExecutionDetail) : Except PersistenceError Database := do
  Checked.require (validatePreparedExecution detail = true) .invalidExecution
  let db := preparedRows detail
  Checked.require (db.session.check = true ∧ db.snapshot.check = true ∧ db.consent.check = true
    ∧ 0 < db.consent.safetyPolicy.maximumRehashBytes
    ∧ db.consent.safetyPolicy.maximumRehashBytes ≤ maxExecutionVerificationBytes
    ∧ (db.operations.map (·.id)).Nodup) .sqlite
  return db

/-- The rows of an execution that was just prepared. -/
def Prepared (db : Database) : Prop := ∃ detail, persistPreparedExecution detail = .ok db

/-- What is known of the rows of a prepared execution. -/
structure PreparedRows (db : Database) : Prop where
  status : db.session.status = .awaitingConfirmation
  recoveryState : db.session.recoveryState = .recoveryNotRequired
  userConfirmed : db.session.userConfirmed = false
  snapshot : db.snapshot.userConfirmed = false
  consent : db.consent.consent = ExecutionConsent.pending
  consentCheck : db.consent.check = true
  binding : db.consent.BindingValid
  journalSequence : db.session.journalSequence = -1
  chainHead : db.session.journalChainHead = none
  journal : db.journal = []
  requests : db.executorRequests = []
  sessions : db.executorSessions = []
  ids : (db.operations.map (·.id)).Nodup

theorem Prepared.rows {db : Database} (h : Prepared db) : PreparedRows db := by
  obtain ⟨detail, h⟩ := h
  simp only [persistPreparedExecution, Checked.bind_eq_ok, Checked.require_eq_ok] at h
  obtain ⟨_, hvalid, _, ⟨-, -, hcheck, hpos, hmax, hids⟩, h⟩ := h
  obtain rfl := Except.ok.inj h
  obtain ⟨hstatus, hrec, -, hver, -, hconf, -, -, hpol, -, hdig, hroot, hdisp, -⟩ :=
    of_decide_eq_true hvalid
  exact
    { status := hstatus
      recoveryState := hrec
      userConfirmed := hconf
      snapshot := hconf
      consent := rfl
      consentCheck := hcheck
      binding := ⟨hver, hroot, hdisp, hpol, hdig, Nat.pos_iff_ne_zero.1 hpos, hmax⟩
      journalSequence := rfl
      chainHead := rfl
      journal := rfl
      requests := rfl
      sessions := rfl
      ids := hids }

/-! ## A small execution

One file to be renamed, ready to be confirmed. The concrete runs of later files start from it. -/

def sampleVolume : VolumeIdentity where
  platform := .linux
  stableIdentifier := "volume"
  filesystemType := none
  caseSensitive := true
  removable := false
  isLocal := true

def sampleFingerprint : FileFingerprint where
  volume := sampleVolume
  objectKey := [1]
  parentKey := [2]
  leafName := { encoding := .unixBytes, bytes := [97] }
  linkCount := 1
  reparseTag := none
  byteSize := 1
  modifiedAtNs := none
  createdAtNs := none
  attributes := 0
  quickDigest := none
  contentDigest := some (Bytes32.filled 1)

def sampleMove : ExecutionOperation where
  id := 1
  proposalOperationId := some 1
  kind := .rename
  sourceRelativePath := some ["a"]
  destinationRelativePath := ["b"]
  originalSourceRelativePath := some ["a"]
  expectedSourceHash := none
  expectedSourceSize := some 1
  expectedSourceModifiedAt := none
  liveFingerprint := some sampleFingerprint
  postFingerprint := none
  preconditions := []
  dependencies := []
  sequence := 0
  status := .preflightOk
  directoryExistedBefore := none
  reason := none
  errorCode := none
  errorMessage := none
  startedAt := none
  completedAt := none
  rolledBackAt := none

/-- A text of the length of a digest. -/
def sampleDigest : String := String.ofList (List.replicate 64 'd')

def sampleRoot : ExecutionRootBinding where
  canonicalPath := { encoding := .unixBytes, bytes := [47] }
  displayPath := "/"
  volume := sampleVolume

def sampleDetail : ExecutionDetail where
  session :=
    { id := 1, planId := 1, proposalId := 1, proposalRevisionId := 1, proposalRevision := 1
      sourceScanId := 1, planDigest := sampleDigest, rootId := 1
      status := .awaitingConfirmation
      recoveryState := .recoveryNotRequired
      summary := { affectedFiles := 1, foldersToCreate := 0, preflightOk := 1, applied := 0
                   blocked := 0, skipped := 0, failed := 0, rolledBack := 0, rollbackBlocked := 0
                   rollbackFailed := 0 }
      confirmationPhraseRequired := false
      userConfirmed := false
      rollbackAvailable := false
      pauseRequested := false
      cancelRequested := false
      currentOperation := none
      journalSequence := -1
      journalChainHead := none
      createdAt := "t0"
      approvedAt := none
      startedAt := none
      completedAt := none
      rolledBackAt := none
      errorMessage := none }
  approval :=
    { planId := 1, proposalId := 1, proposalRevisionId := 1, proposalRevision := 1
      sourceSnapshotVersion := 1
      approvedOperationIds := [1]
      operationCount := 1
      userConfirmed := false
      approvedAt := none
      snapshotDigest := sampleDigest }
  consent :=
    { materialVersion := executionPlanMaterialVersion
      destinationRoot := sampleRoot
      safetyPolicy := { version := "v2", maximumRehashBytes := 1
                        allowQualifiedCaseOnlyRename := false, digestHex := sampleDigest }
      consent := ExecutionConsent.pending
      stateChangedAtUnixMs := 0 }
  operations := [sampleMove]

def sampleRows : Database := preparedRows sampleDetail

/-- A store whose digests are all the same. -/
def sampleContext : StoreContext where
  codec :=
    { blake3 := fun _ => Bytes32.filled 2
      payloadBytes := fun _ => []
      executionIdBytes := fun _ => []
      stepIdBytes := fun _ => [] }
  retainUntil := fun _ => none

theorem sampleRows_prepared : Prepared sampleRows := ⟨sampleDetail, by decide⟩

end Zemo
