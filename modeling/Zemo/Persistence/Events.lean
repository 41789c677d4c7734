import Zemo.Persistence.Consent

set_option autoImplicit false

/-! # The execution transactions

Every other change of the stored rows of an execution: the journal events with their effect on the
session, the operations and the executor requests, the answers and proofs of requests, the
recovery assessment, the control flags and the cancellation of an execution that did not start.

`persistExecutionEventTx` is the transaction that appends an event. It is written statement by
statement; `EventWrite.Accepted` collects its tests and `EventWrite.effect` its effect. -/

namespace Zemo

/-- What the statements compute that the rows do not hold. -/
structure StoreContext where
  codec : Codec
  /-- `strftime('%Y-%m-%dT%H:%M:%fZ', julianday(t) + 30)`. -/
  retainUntil : String → Option String

/-! ## Derived columns -/

/-- The number of operations of a kind that moves a user's file, in a status. -/
def countUserOperations (p : ExecutionOperationStatus → Bool) (operations : List ExecutionOperation) :
    Nat :=
  operations.countP fun op => p op.status && !op.kind.isDirectory && op.kind ≠ .internalStage

def countOperations (p : ExecutionOperationStatus → Bool) (operations : List ExecutionOperation) :
    Nat :=
  operations.countP fun op => p op.status

/-- The `rollback_available` column for a session in `status` with these operations. -/
def rollbackAvailableFor (status : OrganizationExecutionStatus)
    (operations : List ExecutionOperation) : Bool :=
  match status with
  | .rolledBack | .rollbackPartial | .recoveryAmbiguous => false
  | _ => operations.any (·.status.isApplied)

/-- `refresh_execution_counts`. -/
def refreshExecutionCounts (db : Database) : Database :=
  { db with
    session :=
      { db.session with
        summary :=
          { db.session.summary with
            applied := countUserOperations (·.isApplied) db.operations
            blocked := countOperations (fun s => s = .blocked || s = .stale) db.operations
            skipped := countOperations (· = .skipped) db.operations
            failed := countOperations (· = .failed) db.operations
            rolledBack := countUserOperations (· = .rolledBack) db.operations
            rollbackBlocked := countOperations (· = .rollbackBlocked) db.operations
            rollbackFailed := countOperations (· = .rollbackFailed) db.operations }
        rollbackAvailable := rollbackAvailableFor db.session.status db.operations } }

/-- The recovery states during which the evidence of an execution is kept. -/
def ExecutionRecoveryState.isActive : ExecutionRecoveryState → Bool
  | .recoveryRequired | .recoveryAmbiguous => true
  | _ => false

/-- `refresh_execution_retention`. The right-hand sides read the row as it was before. -/
def refreshExecutionRetention (ctx : StoreContext) (updatedAt : String) (db : Database) :
    Database :=
  let old := db.retention
  let active := db.session.recoveryState.isActive
  let available := db.session.rollbackAvailable
  { db with
    retention :=
      { finalizedAt :=
          if db.session.status.isTerminal then old.finalizedAt.or (some updatedAt)
          else old.finalizedAt
        minimumRetainUntil :=
          if db.session.status.isTerminal then old.minimumRetainUntil.or (ctx.retainUntil updatedAt)
          else old.minimumRetainUntil
        activeRecovery := active
        rollbackEligible := if active then false else available
        journalRetentionReason :=
          if active then "recovery_evidence_required"
          else if available then "rollback_evidence_required"
          else "execution_audit_history"
        rollbackRetentionReason :=
          if available then "verified_applied_operations" else "no_rollback_eligible_operations"
        cleanupEligibleAt :=
          if active then none
          else if available then none
          else if old.finalizedAt.isSome then
            old.minimumRetainUntil.or (ctx.retainUntil updatedAt)
          else none
        cleanupEligibilityReason :=
          if active then "active_recovery_blocks_cleanup"
          else if available then "rollback_eligibility_blocks_cleanup"
          else if old.finalizedAt.isNone then "execution_not_finalized"
          else "eligible_after_minimum_retention"
        updatedAt := updatedAt } }

/-! ## Executor requests -/

/-- `executor_request_state`. -/
def executorRequestState (db : Database) (requestId : String) :
    Except PersistenceError ExecutorRequestState := do
  let row ← Checked.orError (db.executorRequests.find? (·.requestId = requestId)) .notFound
  return row.state

/-- Change the request with this id. -/
def Database.updateRequest (db : Database) (requestId : String)
    (f : ExecutorRequestRow → ExecutorRequestRow) : Database :=
  { db with
    executorRequests := db.executorRequests.map fun row =>
      if row.requestId = requestId then f row else row }

/-- The effect of a proof on a request. -/
def ExecutorRequestRow.withProof (row : ExecutorRequestRow) (next : ExecutorRequestState)
    (recordedAt : String) : ExecutorRequestRow :=
  { row with state := next, proofRecordedAt := row.proofRecordedAt.or (some recordedAt) }

/-- `transition_executor_request_state` with `proof = true`, as every caller has it. -/
def transitionExecutorRequestState (requestId : String) (next : ExecutorRequestState)
    (recordedAt : String) (db : Database) : Except PersistenceError Database := do
  let current ← executorRequestState db requestId
  Checked.require (current.mayTransitionTo next = true) .invalidExecution
  return db.updateRequest requestId (·.withProof next recordedAt)

/-- `transition_executor_request_proof`. -/
def Database.transitionExecutorRequestProof (db : Database) (requestId : String)
    (proofState : ExecutorRequestState) (recordedAt : String) :
    Except PersistenceError Unit × Database :=
  db.transact fun db => do
    Checked.require (proofState = .provenNotStarted ∨ proofState = .provenApplied
      ∨ proofState = .ambiguous ∨ proofState = .recoveryRequired) .invalidExecution
    let db ← transitionExecutorRequestState requestId proofState recordedAt db
    return .commit db ()

/-- What the coordinator records of an executor's answer. -/
structure ResponseRecord where
  requestId : String
  responseDigestHex : String
  outcomeClass : String
  attemptCount : Option Nat
  errorClass : Option String
  state : ExecutorRequestState
  recordedAt : String
deriving DecidableEq

/-- The effect of an answer on a request. -/
def ResponseRecord.apply (r : ResponseRecord) (row : ExecutorRequestRow) : ExecutorRequestRow :=
  { row with
    state := r.state
    responseDigest := some r.responseDigestHex
    outcomeClass := some r.outcomeClass
    attemptCount := r.attemptCount
    errorClass := r.errorClass
    responseRecordedAt := some r.recordedAt }

/-- `record_executor_response`. -/
def Database.recordExecutorResponse (db : Database) (r : ResponseRecord) :
    Except PersistenceError Unit × Database :=
  db.transact fun db => do
    Checked.require (r.requestId.utf8ByteSize = 64 ∧ r.responseDigestHex.utf8ByteSize = 64
      ∧ (r.outcomeClass = "success" ∨ r.outcomeClass = "proven_not_applied"
        ∨ r.outcomeClass = "recovery_required" ∨ r.outcomeClass = "protocol_refusal"
        ∨ r.outcomeClass = "transport_ambiguous")
      ∧ (∀ n ∈ r.attemptCount, 1 ≤ n ∧ n ≤ 3)
      ∧ (∀ c ∈ r.errorClass, ¬c.isEmpty ∧ c.utf8ByteSize ≤ 128)
      ∧ (r.state = .acknowledgedSuccess ∨ r.state = .provenNotApplied
        ∨ r.state = .recoveryRequired)) .invalidExecution
    let current ← executorRequestState db r.requestId
    Checked.require (current.mayTransitionTo r.state = true) .invalidExecution
    Checked.require (∃ row ∈ db.executorRequests,
      row.requestId = r.requestId ∧ row.responseDigest = none) .invalidExecution
    return .commit (db.updateRequest r.requestId r.apply) ()

/-- `persist_executor_session`. -/
def Database.persistExecutorSession (db : Database) (identity : ExecutorSessionIdentity) :
    Except PersistenceError Unit × Database :=
  db.transact fun db => do
    Checked.require (identity.sessionId.utf8ByteSize = 64
      ∧ identity.planDigestHex.utf8ByteSize = 64 ∧ identity.coordinatorPid ≠ 0
      ∧ identity.childPid ≠ some 0 ∧ identity.workerNonceHashHex.utf8ByteSize = 64
      ∧ identity.coordinatorNonceHashHex.utf8ByteSize = 64
      ∧ (∀ v ∈ identity.responseNonceHashHex, v.utf8ByteSize = 64)
      ∧ 0 ≤ identity.openedAtUnixMs) .invalidExecution
    Checked.require (identity.executionId = db.session.id ∧ identity.planId = db.session.planId
      ∧ identity.planDigestHex = db.session.planDigest) .invalidExecution
    Checked.require (∀ row ∈ db.executorSessions, row.sessionId ≠ identity.sessionId) .sqlite
    return .commit { db with executorSessions := db.executorSessions ++ [identity] } ()

/-! ## Events -/

/-- The arguments of `persist_execution_event_inner`. -/
structure EventWrite where
  event : OperationJournalEvent
  canonicalData : Payload
  operationStatus : Option ExecutionOperationStatus := none
  sessionStatus : Option OrganizationExecutionStatus := none
  postFingerprint : Option FileFingerprint := none
  errorCode : Option String := none
  errorMessage : Option String := none
  createdAt : String
  requestIntent : Option ExecutorRequestIdentity := none
  requestProof : Option (String × ExecutorRequestState) := none
deriving DecidableEq

/-- The tests on the identity of a request whose intent an event records. -/
def ExecutorRequestIdentity.wellFormedFor (request : ExecutorRequestIdentity)
    (event : OperationJournalEvent) : Prop :=
  request.executionId = event.executionId ∧ event.stepId = some request.operationId
    ∧ (event.kind = .intentDurable ∨ event.kind = .rollbackIntent)
    ∧ request.requestId.utf8ByteSize = 64 ∧ request.sessionId.utf8ByteSize = 64
    ∧ request.requestDigestHex.utf8ByteSize = 64 ∧ request.requestSequence ≠ 0
    ∧ request.requestNonce.isZero = false

instance (request : ExecutorRequestIdentity) (event : OperationJournalEvent) :
    Decidable (request.wellFormedFor event) := by
  unfold ExecutorRequestIdentity.wellFormedFor; exact inferInstance

/-- The payload names the request. -/
def ExecutorRequestMaterial.names (stored : ExecutorRequestMaterial)
    (request : ExecutorRequestIdentity) : Prop :=
  stored.requestId = request.requestId ∧ stored.sessionId = request.sessionId
    ∧ stored.requestSequence = request.requestSequence
    ∧ stored.requestDigest = request.requestDigestHex

instance (stored : ExecutorRequestMaterial) (request : ExecutorRequestIdentity) :
    Decidable (stored.names request) := by
  unfold ExecutorRequestMaterial.names; exact inferInstance

/-- The requests already stored for an operation in a direction. -/
def Database.priorRequests (db : Database) (operationId : OperationStepId)
    (direction : ExecutorRequestDirection) : List ExecutorRequestRow :=
  db.executorRequests.filter fun row => row.operationId = operationId ∧ row.direction = direction

/-- A new attempt is admitted after these earlier requests of its operation and direction. -/
def admitsAttempt (direction : ExecutorRequestDirection) (prior : List ExecutorRequestRow) : Prop :=
  (direction = .forward → prior = [])
    ∧ ∀ row ∈ prior, row.state = .provenNotApplied ∨ row.state = .provenNotStarted

instance (direction : ExecutorRequestDirection) (prior : List ExecutorRequestRow) :
    Decidable (admitsAttempt direction prior) := by
  unfold admitsAttempt; exact inferInstance

/-- The row an intent inserts. -/
def ExecutorRequestIdentity.toRow (request : ExecutorRequestIdentity)
    (event : OperationJournalEvent) (preparedAt : String) : ExecutorRequestRow where
  requestId := request.requestId
  sessionId := request.sessionId
  operationId := request.operationId
  direction := request.direction
  requestSequence := request.requestSequence
  requestNonce := request.requestNonce
  requestDigest := request.requestDigestHex
  intentEventSequence := event.sequence
  intentEventDigest := event.eventDigest
  state := .intentDurable
  responseDigest := none
  outcomeClass := none
  attemptCount := none
  errorClass := none
  preparedAt := preparedAt
  responseRecordedAt := none
  proofRecordedAt := none

/-- The part of the event transaction that records a request intent. -/
def insertRequestIntent (event : OperationJournalEvent) (canonicalData : Payload)
    (createdAt : String) (request : ExecutorRequestIdentity) (db : Database) :
    Except PersistenceError Database := do
  Checked.require (request.wellFormedFor event) .invalidExecution
  let stored ← Checked.orError canonicalData.executorRequest .invalidExecution
  Checked.require (stored.names request) .invalidExecution
  let session ← Checked.orError
    (db.executorSessions.find? (·.sessionId = request.sessionId)) .sqlite
  Checked.require (session.purpose = request.direction.purpose) .invalidExecution
  Checked.require
    (admitsAttempt request.direction (db.priorRequests request.operationId request.direction))
    .invalidExecution
  -- the keys of the table: the request id, and sequence and nonce within the session
  Checked.require (∀ row ∈ db.executorRequests, row.requestId ≠ request.requestId
    ∧ ¬(row.sessionId = request.sessionId ∧ row.requestSequence = request.requestSequence)
    ∧ ¬(row.sessionId = request.sessionId ∧ row.requestNonce = request.requestNonce)) .sqlite
  return { db with
    executorRequests := db.executorRequests ++ [request.toRow event createdAt] }

/-- The session columns an event sets. -/
def SessionRow.afterEvent (row : SessionRow) (w : EventWrite)
    (operations : List ExecutionOperation) : SessionRow :=
  let endsWith := fun (p : OrganizationExecutionStatus → Bool) => w.sessionStatus.any p
  { row with
    journalSequence := w.event.sequence
    journalChainHead := some w.event.eventDigest
    status := w.sessionStatus.getD row.status
    recoveryState := if endsWith (·.isTerminal) then .recoveryNotRequired else row.recoveryState
    currentOperation :=
      if w.sessionStatus = some .running ∧ w.event.stepId.isSome then
        (operations.find? fun op => some op.id = w.event.stepId).map (·.destinationRelativePath)
      else if endsWith fun s => s.isTerminal || s = .paused || s = .recoveryRequired
          || s = .recoveryAvailable || s = .recoveryAmbiguous then none
      else row.currentOperation
    errorMessage := w.errorMessage.or row.errorMessage
    startedAt :=
      if w.sessionStatus = some .running then row.startedAt.or (some w.createdAt) else row.startedAt
    completedAt :=
      if endsWith fun s => s = .completed || s = .partial_ || s = .failed || s = .cancelled then
        some w.createdAt
      else row.completedAt
    rolledBackAt :=
      if endsWith fun s => s = .rolledBack || s = .rollbackPartial then some w.createdAt
      else row.rolledBackAt }

/-- The operation columns an event sets. -/
def ExecutionOperation.afterEvent (op : ExecutionOperation) (w : EventWrite) : ExecutionOperation :=
  let sets := fun (p : ExecutionOperationStatus → Bool) => w.operationStatus.any p
  { op with
    status := w.operationStatus.getD op.status
    postFingerprint := w.postFingerprint.or op.postFingerprint
    errorCode := w.errorCode.or op.errorCode
    errorMessage := w.errorMessage.or op.errorMessage
    startedAt :=
      if sets fun s => s = .running || s = .rollingBack then op.startedAt.or (some w.createdAt)
      else op.startedAt
    completedAt :=
      if sets fun s => s = .applied || s = .failed || s = .skipped || s = .recovered then
        some w.createdAt
      else op.completedAt
    rolledBackAt := if sets (· = .rolledBack) then some w.createdAt else op.rolledBackAt }

/-- `insert_rollback_record`; a row that conflicts with a stored one is ignored. -/
def insertRollbackRecord (stepId : OperationStepId) (preparedAt : String) (db : Database) :
    Database :=
  match db.operations.find? (·.id = stepId) with
  | none => db
  | some op =>
      if db.rollbackRecords.any fun r => r.operationId = op.id || r.rollbackOrder = op.sequence then
        db
      else
        { db with
          rollbackRecords := db.rollbackRecords ++
            [{ operationId := op.id
               rollbackOrder := op.sequence
               sourceRelativePath := op.destinationRelativePath
               destinationRelativePath := op.sourceRelativePath.getD op.destinationRelativePath
               expectedFingerprint := op.postFingerprint
               preparedAt := preparedAt }] }

/-- The update of the operation an event is about, with the rollback record of an operation that
    becomes applied. -/
def updateEventOperation (w : EventWrite) (db : Database) : Except PersistenceError Database := do
  match w.event.stepId with
  | none => return db
  | some stepId => do
      Checked.require (∃ op ∈ db.operations, op.id = stepId) .invalidExecution
      let updated := { db with
        operations := db.operations.map fun op =>
          if op.id = stepId then op.afterEvent w else op }
      return if w.operationStatus.any (·.isApplied) then
        insertRollbackRecord stepId w.createdAt updated
      else updated

/-- The intent of an event, when it has one. -/
def applyRequestIntent (w : EventWrite) (db : Database) : Except PersistenceError Database :=
  match w.requestIntent with
  | some request => insertRequestIntent w.event w.canonicalData w.createdAt request db
  | none => .ok db

/-- The session an event leaves; one that ends the execution also resolves its recovery. -/
def updateEventSession (w : EventWrite) (db : Database) : Database :=
  let db := { db with session := db.session.afterEvent w db.operations }
  if w.sessionStatus.any (·.isTerminal) then
    { db with
      recovery := db.recovery.map fun row =>
        { row with recoveryState := .recoveryNotRequired, resolvedAt := some w.createdAt } }
  else db

/-- The proof of an event, when it has one. -/
def applyRequestProof (w : EventWrite) (db : Database) : Except PersistenceError Database :=
  match w.requestProof with
  | some (requestId, proofState) =>
      transitionExecutorRequestState requestId proofState w.createdAt db
  | none => .ok db

/-- `persist_execution_event_inner`, inside its transaction. -/
def persistExecutionEventTx (ctx : StoreContext) (w : EventWrite) (db : Database) :
    Except PersistenceError (TxEnd Unit) := do
  Checked.require (w.event.payload = w.canonicalData
    ∧ w.event.payloadDigest = ctx.codec.blake3 (ctx.codec.payloadBytes w.canonicalData))
    .invalidExecution
  Checked.require (w.event.executionId = db.session.id) .sqlite
  Checked.require ((w.event.sequence : Int) = db.session.journalSequence + 1
    ∧ w.event.verify ctx.codec db.session.journalChainHead = true) .invalidExecution
  Checked.require (∀ row ∈ db.journal, row.sequence ≠ w.event.sequence) .sqlite
  Checked.require (∀ stepId ∈ w.event.stepId, ∃ op ∈ db.operations, op.id = stepId) .sqlite
  let db ← applyRequestIntent w { db with journal := db.journal ++ [w.event] }
  let db ← updateEventOperation w (updateEventSession w db)
  let db ← applyRequestProof w (refreshExecutionCounts db)
  return .commit (refreshExecutionRetention ctx w.createdAt db) ()

def Database.persistExecutionEvent (ctx : StoreContext) (w : EventWrite) (db : Database) :
    Except PersistenceError Unit × Database :=
  db.transact (persistExecutionEventTx ctx w)

/-! ## Recovery, control and cancellation -/

/-- What a recovery pass found. -/
structure AssessmentRecord where
  state : ExecutionRecoveryState
  verifiedAppliedItems : List RecoveryItem
  verifiedNotStartedItems : List RecoveryItem
  ambiguousItems : List RecoveryItem
  assessedAt : String
deriving DecidableEq

/-- The session status that goes with a recovery state. -/
def ExecutionRecoveryState.sessionStatus : ExecutionRecoveryState → OrganizationExecutionStatus
  | .recoveryNotRequired => .paused
  | .recoveryAvailable => .recoveryAvailable
  | .recoveryRequired => .recoveryRequired
  | .recoveryAmbiguous => .recoveryAmbiguous

/-- `persist_recovery_assessment`. -/
def Database.persistRecoveryAssessment (ctx : StoreContext) (r : AssessmentRecord)
    (db : Database) : Except PersistenceError Unit × Database :=
  db.transact fun db =>
    let db := { db with
      recovery := some
        { recoveryState := r.state
          notStartedCount := r.verifiedNotStartedItems.length
          appliedCount := r.verifiedAppliedItems.length
          ambiguousCount := r.ambiguousItems.length
          verifiedAppliedItems := r.verifiedAppliedItems
          verifiedNotStartedItems := r.verifiedNotStartedItems
          ambiguousItems := r.ambiguousItems
          assessedAt := r.assessedAt
          resolvedAt := none }
      session := { db.session with
        status := r.state.sessionStatus
        recoveryState := r.state } }
    .ok (.commit (refreshExecutionRetention ctx r.assessedAt (refreshExecutionCounts db)) ())

/-- `validate_execution_journal`: the events are a chain whose last digest is the stored head. -/
def Database.validateExecutionJournal (codec : Codec) (db : Database) : Bool :=
  chainValid codec db.journal && (db.session.journalChainHead = chainHead db.journal)

/-- `mark_execution_recovery_required`. -/
def Database.markExecutionRecoveryRequired (message : String) (db : Database) :
    Except PersistenceError Bool × Database :=
  db.transact fun db =>
    if db.session.status = .running ∨ db.session.status = .rollingBack then
      .ok (.commit { db with
        session := { db.session with
          status := .recoveryRequired
          recoveryState := .recoveryRequired
          currentOperation := none
          errorMessage := some (String.ofList (message.toList.take 2048)) } } true)
    else .ok (.commit db false)

/-- `mark_interrupted_executions_for_recovery`, for this execution. -/
def Database.markInterruptedForRecovery (db : Database) : Except PersistenceError Nat × Database :=
  db.transact fun db =>
    if db.session.status = .running ∨ db.session.status = .rollingBack then
      .ok (.commit { db with
        session := { db.session with
          status := .recoveryRequired
          recoveryState := .recoveryRequired
          errorMessage := db.session.errorMessage.or
            (some "Execution was interrupted before a durable terminal state.") } } 1)
    else .ok (.commit db 0)

/-- `set_execution_control`. -/
def Database.setExecutionControl (pause cancel : Bool) (db : Database) :
    Except PersistenceError Bool × Database :=
  db.transact fun db =>
    if db.session.status = .running then
      .ok (.commit { db with
        session := { db.session with
          pauseRequested := pause || db.session.pauseRequested
          cancelRequested := cancel || db.session.cancelRequested } } true)
    else .ok (.commit db false)

/-- `cancel_unstarted_execution`. -/
def Database.cancelUnstartedExecution (ctx : StoreContext) (completedAt : String)
    (db : Database) : Except PersistenceError Bool × Database :=
  db.transact fun db =>
    if (db.session.status = .awaitingConfirmation ∨ db.session.status = .approved
          ∨ db.session.status = .paused)
        ∧ db.session.summary.applied = 0
        ∧ ¬∃ op ∈ db.operations, op.status = .running ∨ op.status.isApplied = true then
      .ok (.commit (refreshExecutionRetention ctx completedAt
        { db with
          session := { db.session with
            status := .cancelled
            cancelRequested := true
            completedAt := some completedAt
            rollbackAvailable := false } }) true)
    else .ok (.commit db false)

/-- `add_execution_error`. -/
def Database.addExecutionError (row : ExecutionErrorRow) (db : Database) :
    Except PersistenceError Unit × Database :=
  db.transact fun db => .ok (.commit { db with errors := db.errors ++ [row] } ())

end Zemo
