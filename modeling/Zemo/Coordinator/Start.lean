import Zemo.Coordinator.Consent

set_option autoImplicit false

/-! # Executing an approved plan

`start_execution` consumes the consent of an approved execution and applies its operations one
after the other. For each it validates the preconditions, makes the intent of one executor request
durable, dispatches that request once, and verifies the postcondition before it goes on. -/

namespace Zemo

variable {χ : Type}

/-! ## Requests -/

/-- `prepare_executor_request_identity`. -/
def prepareExecutorRequestIdentity (hashes : Hashes) (session : ExecutorSessionIdentity)
    (operationId : OperationStepId) (direction : ExecutorRequestDirection)
    (requestSequence : Nat) (requestNonce : Bytes32) :
    Except ApprovedExecutorError ExecutorRequestIdentity :=
  if requestSequence = 0 ∨ requestNonce.isZero = true then
    .error (.ambiguous "executor request identity is invalid")
  else
    let requestId := hashes.requestId session.sessionId requestSequence requestNonce
    .ok
      { requestId := requestId
        sessionId := session.sessionId
        executionId := session.executionId
        operationId := operationId
        direction := direction
        requestSequence := requestSequence
        requestNonce := requestNonce
        requestDigestHex :=
          hashes.requestDigest session operationId direction requestSequence requestId requestNonce }

/-- `prepare_operation` of a session. -/
def prepareOperation (env : Env χ) (session : ExecutorSessionIdentity)
    (operationId : OperationStepId) (direction : ExecutorRequestDirection) :
    Coordinator χ ExecutorRequestIdentity := do
  let (requestSequence, requestNonce) ←
    ask fun x => env.executor.reserve x session operationId direction
  Prog.lift (raise .executor (prepareExecutorRequestIdentity env.hashes session operationId
    direction requestSequence requestNonce))

/-- Open a session and record it. -/
def openSession (env : Env χ) (detail : ExecutionDetail) (authorization : SessionAuthorization) :
    Coordinator χ ExecutorSessionIdentity := do
  let session ← ask fun x => env.executor.openSession x detail authorization
  let _ ← write env (.executorSession session)
  return session

/-- The outcome class and request state of an outcome. -/
def ExecutorOutcome.recorded : ExecutorOutcome → String × ExecutorRequestState
  | .success _ => ("success", .acknowledgedSuccess)
  | .provenNotApplied .. => ("proven_not_applied", .provenNotApplied)
  | .recoveryRequired .. => ("recovery_required", .recoveryRequired)
  | .protocolRefusal .. => ("protocol_refusal", .recoveryRequired)

def ExecutorOutcome.audit : ExecutorOutcome → Option ExecutorAttemptAudit
  | .success audit => some audit
  | .provenNotApplied _ _ audit => some audit
  | .recoveryRequired _ _ audit => some audit
  | .protocolRefusal .. => none

/-- `record_executor_response`. -/
def recordExecutorResponse (env : Env χ) (request : ExecutorRequestIdentity)
    (dispatch : ExecutorDispatchResult) : Coordinator χ Unit := do
  let recordedAt ← nowIso env
  let _ ← write env (.response
    { requestId := request.requestId
      responseDigestHex := dispatch.responseDigestHex
      outcomeClass := dispatch.outcome.recorded.1
      attemptCount := dispatch.outcome.audit.map (·.attemptCount)
      errorClass := dispatch.outcome.audit.bind (·.errorClass)
      state := dispatch.outcome.recorded.2
      recordedAt := recordedAt })
  return ()

/-- `transition_executor_request_proof`. -/
def transitionProof (env : Env χ) (request : ExecutorRequestIdentity)
    (proofState : ExecutorRequestState) : Coordinator χ Unit := do
  let recordedAt ← nowIso env
  let _ ← write env (.requestProof request.requestId proofState recordedAt)
  return ()

/-! ## One operation -/

/-- How the application of an operation ends when the coordinator goes on. -/
inductive ApplyScheduledOutcome where
  | applied (cursor : JournalCursor)
  | terminal (detail : ExecutionDetail)

/-- The execution failed before or without a mutation. -/
def failTerminal (env : Env χ) (executionId : ExecutionId) (op : ExecutionOperation)
    (category : ExecutionFailureCategory) (code message : String)
    (audit : Option ExecutorAttemptAudit) (cursor : JournalCursor) :
    Coordinator χ ExecutionDetail := do
  failOperation env executionId op category code message audit cursor
  readDetail

/-- The outcome of the request is unknown: recovery must classify it. -/
def recoverLater (env : Env χ) (executionId : ExecutionId) (direction : ExecutorRequestDirection)
    (op : ExecutionOperation) (code detail : String) (audit : Option ExecutorAttemptAudit)
    (cursor : JournalCursor) {α : Type} : Coordinator χ α := do
  markRecoveryRequired env executionId direction op code detail audit cursor
  Prog.fail .executionRecoveryRequired

/-- As `recoverLater`, and the request is marked too. -/
def recoverRequestLater (env : Env χ) (executionId : ExecutionId)
    (op : ExecutionOperation) (request : ExecutorRequestIdentity) (code detail : String)
    (audit : Option ExecutorAttemptAudit) (cursor : JournalCursor) {α : Type} :
    Coordinator χ α := do
  transitionProof env request .recoveryRequired
  recoverLater env executionId request.direction op code detail audit cursor

/-- After an outcome that says nothing was applied, when the preconditions still hold. -/
def acceptNotApplied (env : Env χ) (executionId : ExecutionId) (op : ExecutionOperation)
    (request : ExecutorRequestIdentity) (code detail : String)
    (audit : Option ExecutorAttemptAudit) (cursor : JournalCursor) :
    Coordinator χ ApplyScheduledOutcome := do
  transitionProof env request .provenNotStarted
  let detail ← failTerminal env executionId op .criticalExecutionFailure code detail audit cursor
  return .terminal detail

/-- Act on the second look after an outcome that says nothing was applied. -/
def afterNotApplied (env : Env χ) (executionId : ExecutionId) (op : ExecutionOperation)
    (request : ExecutorRequestIdentity) (code detail : String)
    (audit : Option ExecutorAttemptAudit) (cursor : JournalCursor)
    (looked : Except ApplicationError (Option FileFingerprint)) :
    Coordinator χ ApplyScheduledOutcome :=
  match looked, audit with
  | .ok _, _ => acceptNotApplied env executionId op request code detail audit cursor
  | .error e, some _ =>
      recoverRequestLater env executionId op request "proven_not_applied_contradicted"
        (env.describe e) audit cursor
  -- a refusal left the request in recovery already
  | .error e, none =>
      recoverLater env executionId .forward op "proven_not_applied_contradicted"
        (env.describe e) none cursor

/-- The draft of the event that ends the forward part of an operation. -/
def appliedDraft (executionId : ExecutionId) (op : ExecutionOperation)
    (request : ExecutorRequestIdentity) (audit : ExecutorAttemptAudit)
    (post : Option FileFingerprint) : EventDraft where
  executionId := executionId
  stepId := some op.id
  kind := .appliedObserved
  payload :=
    { event := "applied_observed"
      operationId := some op.id
      details := [("destination", .path op.destinationRelativePath),
        ("postcondition", .text "verified"), ("executor_audit", audit.value)] }
  operationStatus := some .applied
  sessionStatus := some .running
  postFingerprint := post
  requestProof := some (request.requestId, .provenApplied)

/-- The draft of the event that says the postcondition could not be verified. -/
def postconditionFailedDraft (env : Env χ) (executionId : ExecutionId) (op : ExecutionOperation)
    (audit : ExecutorAttemptAudit) (e : ApplicationError) : EventDraft where
  executionId := executionId
  stepId := some op.id
  kind := .stepFailed
  payload :=
    { event := "postcondition_failed"
      operationId := some op.id
      details := [("error", .text (env.describe e)), ("executor_audit", audit.value)] }
  operationStatus := some .running
  sessionStatus := some .recoveryRequired
  errorCode := some "postcondition_failed"
  errorMessage := some (env.describe e)

/-- Act on what was seen after a success was reported. -/
def afterSuccess (env : Env χ) (executionId : ExecutionId) (op : ExecutionOperation)
    (request : ExecutorRequestIdentity) (audit : ExecutorAttemptAudit) (cursor : JournalCursor)
    (looked : Except ApplicationError (Option FileFingerprint)) :
    Coordinator χ ApplyScheduledOutcome :=
  match looked with
  | .ok post => do
      let cursor ← persistEvent env (appliedDraft executionId op request audit post) cursor
      let _ ← readDetail
      return .applied cursor
  | .error e => do
      transitionProof env request .recoveryRequired
      let _ ← persistEvent env (postconditionFailedDraft env executionId op audit e) cursor
      Prog.fail .executionRecoveryRequired

/-- Look at the preconditions of the operation again. -/
def lookAgain (env : Env χ) (op : ExecutionOperation) :
    Coordinator χ (Except ApplicationError (Option FileFingerprint)) :=
  Prog.attempt (look fun o => revalidateOperation env.files o.tree op)

/-- Act on the executor's outcome. -/
def afterOutcome (env : Env χ) (executionId : ExecutionId) (op : ExecutionOperation)
    (request : ExecutorRequestIdentity) (cursor : JournalCursor) (outcome : ExecutorOutcome) :
    Coordinator χ ApplyScheduledOutcome :=
  match outcome with
  | .success audit =>
      Prog.attempt (look fun o => verifyPostcondition env.files o.tree op) >>=
        afterSuccess env executionId op request audit cursor
  | .provenNotApplied code detail audit =>
      lookAgain env op >>= afterNotApplied env executionId op request code detail (some audit) cursor
  | .protocolRefusal code detail =>
      lookAgain env op >>= afterNotApplied env executionId op request code detail none cursor
  | .recoveryRequired code detail audit =>
      recoverLater env executionId .forward op code detail (some audit) cursor

/-- Act on the executor's answer, or on its failure to answer. -/
def afterDispatch (env : Env χ) (executionId : ExecutionId) (op : ExecutionOperation)
    (request : ExecutorRequestIdentity) (cursor : JournalCursor)
    (dispatch : Except ApplicationError ExecutorDispatchResult) :
    Coordinator χ ApplyScheduledOutcome :=
  match dispatch with
  | .error e =>
      recoverRequestLater env executionId op request "executor_response_ambiguous"
        (env.describe e) none cursor
  | .ok dispatch => do
      recordExecutorResponse env request dispatch
      afterOutcome env executionId op request cursor dispatch.outcome

/-- The draft of the event that says an operation may start. -/
def preconditionsDraft (executionId : ExecutionId) (op : ExecutionOperation) : EventDraft where
  executionId := executionId
  stepId := some op.id
  kind := .preconditionsValidated
  payload :=
    { event := "preconditions_validated"
      operationId := some op.id
      details :=
        [("source", .ofOption .path op.sourceRelativePath),
          ("destination", .path op.destinationRelativePath),
          ("preconditions", .texts op.preconditions),
          ("expected_source_hash", .ofOption .text op.expectedSourceHash),
          ("expected_source_size", .ofOption (fun n => .number n) op.expectedSourceSize),
          ("expected_source_modified_at", .ofOption .text op.expectedSourceModifiedAt),
          ("live_fingerprint", .ofOption .fingerprint op.liveFingerprint)] }
  operationStatus := some .preflightOk
  sessionStatus := some .running

/-- The payload of the intent of an operation, before the request is named in it. -/
def intentPayload (op : ExecutionOperation) (current : Option FileFingerprint) : Payload where
  event := "intent_durable"
  operationId := some op.id
  details :=
    [("kind", .kind op.kind),
      ("source", .ofOption .path op.sourceRelativePath),
      ("destination", .path op.destinationRelativePath),
      ("rollback_destination", .ofOption .path op.sourceRelativePath),
      ("original_source", .ofOption .path op.originalSourceRelativePath),
      ("expected_source_state", .ofOption .fingerprint current),
      ("directory_existed_before", .ofOption .flag op.directoryExistedBefore)]

/-- The part of `apply_scheduled_operation` after the preconditions were seen to hold. -/
def attemptOperation (env : Env χ) (executionId : ExecutionId)
    (session : ExecutorSessionIdentity) (op : ExecutionOperation) (cursor : JournalCursor)
    (current : Option FileFingerprint) : Coordinator χ ApplyScheduledOutcome := do
  let cursor ← persistEvent env (preconditionsDraft executionId op) cursor
  let prepared ← prepareOperation env session op.id .forward
  let (binding, cursor) ←
    persistRequestIntent env .intentDurable (intentPayload op current) prepared session cursor
  let dispatch ← Prog.attempt (dispatchPrepared env prepared binding)
  afterDispatch env executionId op prepared cursor dispatch

/-- Act on the first look at the preconditions. -/
def applyLooked (env : Env χ) (executionId : ExecutionId) (session : ExecutorSessionIdentity)
    (op : ExecutionOperation) (cursor : JournalCursor)
    (looked : Except ApplicationError (Option FileFingerprint)) :
    Coordinator χ ApplyScheduledOutcome :=
  match looked with
  | .ok current => attemptOperation env executionId session op cursor current
  | .error e => do
      let detail ← failTerminal env executionId op .criticalExecutionFailure "execution_drift"
        (env.describe e) none cursor
      return .terminal detail

/-- `apply_scheduled_operation`. -/
def applyScheduledOperation (env : Env χ) (executionId : ExecutionId)
    (session : ExecutorSessionIdentity) (op : ExecutionOperation) (cursor : JournalCursor) :
    Coordinator χ ApplyScheduledOutcome :=
  lookAgain env op >>= applyLooked env executionId session op cursor

/-! ## The schedule -/

/-- What the loop over the operations carries. -/
structure Schedule where
  cursor : JournalCursor
  applied : List OperationStepId
  cycleGroupStarted : Bool

/-- The loop after an operation was applied. -/
def Schedule.after (s : Schedule) (op : ExecutionOperation) (cursor : JournalCursor) : Schedule where
  cursor := cursor
  applied := op.id :: s.applied
  cycleGroupStarted := s.cycleGroupStarted || op.kind = .internalStage

/-- The operations that must not be separated from the stages they belong to. -/
def cycleGroupIds (schedulable : List ExecutionOperation) : List OperationStepId :=
  let stageIds := (schedulable.filter (·.kind = .internalStage)).map (·.id)
  (schedulable.filter fun op => op.kind = .internalStage ∨ op.dependencies.any (· ∈ stageIds)).map
    (·.id)

/-- How the loop over the operations ends. -/
inductive ScheduleEnd where
  | finished (s : Schedule)
  | stopped (detail : ExecutionDetail)

/-- End the execution because the user asked for it. -/
def stopSchedule (env : Env χ) (executionId : ExecutionId) (cancel : Bool)
    (cursor : JournalCursor) : Coordinator χ ScheduleEnd := do
  let _ ← finishExecution env executionId (if cancel then .cancelled else .paused)
    (if cancel then "Execution cancelled after the current safe unit."
      else "Execution paused between operations.") cursor
  let detail ← readDetail
  return .stopped detail

/-- End the execution because an earlier operation was not applied. -/
def failDependency (env : Env χ) (executionId : ExecutionId) (op : ExecutionOperation)
    (cursor : JournalCursor) : Coordinator χ ScheduleEnd := do
  let detail ← failTerminal env executionId op .dependencyFailure "dependency_not_applied"
    "A required earlier operation was not applied." none cursor
  return .stopped detail

/-- Apply the operations in order. -/
def runSchedule (env : Env χ) (executionId : ExecutionId) (session : ExecutorSessionIdentity)
    (group : List OperationStepId) :
    List ExecutionOperation → Schedule → Coordinator χ ScheduleEnd
  | [], s => pure (.finished s)
  | op :: rest, s =>
      query (fun db => .ok (db.session.pauseRequested, db.session.cancelRequested)) >>= fun control =>
        if (control.2 ∨ control.1) ∧ ¬(s.cycleGroupStarted ∧ op.id ∈ group) then
          stopSchedule env executionId control.2 s.cursor
        else if op.dependencies.any (· ∉ s.applied) then
          failDependency env executionId op s.cursor
        else
          applyScheduledOperation env executionId session op s.cursor >>= fun outcome =>
            match outcome with
            | .applied cursor => runSchedule env executionId session group rest (s.after op cursor)
            | .terminal detail => pure (.stopped detail)

/-! ## Starting -/

/-- `verify_stored_consent_attestation`. -/
def verifyStoredConsentAttestation (env : Env χ) (detail : ExecutionDetail) :
    Coordinator χ Unit := do
  let consent := detail.consent.consent
  let nonce ← Prog.orFail consent.nonce .invalidExecution
  let issued ← Prog.orFail consent.issuedAtUnixMs .invalidExecution
  let expires ← Prog.orFail consent.expiresAtUnixMs .invalidExecution
  let material ← challengeMaterial env detail nonce issued expires
  let stored ← Prog.orFail consent.attestationMac .invalidExecution
  if env.authority.sign material = stored then pure ()
  else
    invalidateUnstartedConsent env "attestation_authentication_failed" >>= fun _ =>
      Prog.fail .invalidExecution

/-- The part of `start_execution_at` that turns an approval into a session. -/
def consumeApproval (env : Env χ) (detail : ExecutionDetail) (authorizationTimeUnixMs : Int) :
    Coordinator χ (ExecutorSessionIdentity × ExecutionDetail) := do
  let consent := detail.consent.consent
  Prog.ensure (consent.state = .attested) .executionApprovalRequired
  revalidateConsentContextOrInvalidate env detail
  verifyStoredConsentAttestation env detail
  let expires ← Prog.orFail consent.expiresAtUnixMs .invalidExecution
  requireInTime env authorizationTimeUnixMs expires
  let nonce ← Prog.orFail consent.nonce .invalidExecution
  let issued ← Prog.orFail consent.issuedAtUnixMs .invalidExecution
  let mac ← Prog.orFail consent.attestationMac .invalidExecution
  Prog.ensure (env.envelopeAccepted detail = true) .invalidExecution
  let session ← openSession env detail .forward
  let _ ← write env (.consumeConsent nonce issued expires mac authorizationTimeUnixMs)
  let detail ← readDetail
  return (session, detail)

/-- End an execution whose schedule is done. -/
def completeExecution (env : Env χ) (executionId : ExecutionId) (s : Schedule) :
    Coordinator χ ExecutionDetail := do
  let completed ← readDetail
  let summary := completed.session.summary
  let _ ← finishExecution env executionId
    (if 0 < summary.blocked ∨ 0 < summary.failed then .partial_ else .completed)
    "All scheduled safe operations reached a durable terminal state." s.cursor
  readDetail

/-- Act on the end of the schedule. -/
def afterSchedule (env : Env χ) (executionId : ExecutionId) (ended : ScheduleEnd) :
    Coordinator χ ExecutionDetail :=
  match ended with
  | .finished s => completeExecution env executionId s
  | .stopped detail => pure detail

/-- `start_execution_at`. -/
def startExecution (env : Env χ) (authorizationTimeUnixMs : Int) :
    Coordinator χ ExecutionDetail := do
  requireApplyGate env
  let detail ← readDetail
  Prog.ensure (detail.session.recoveryState = .recoveryNotRequired) .executionRecoveryRequired
  requireValidDatabaseJournal env
  synchronizeExternalJournal false
  Prog.ensure (detail.session.status = .approved) .invalidExecution
  let (session, detail) ← consumeApproval env detail authorizationTimeUnixMs
  let cursor ← journalCursor
  let applied := (detail.operations.filter (·.status.isApplied)).map (·.id)
  let schedulable := detail.operations.filter (·.status = .preflightOk)
  let ended ← runSchedule env detail.session.id session (cycleGroupIds schedulable) schedulable
    { cursor := cursor, applied := applied, cycleGroupStarted := false }
  afterSchedule env detail.session.id ended

end Zemo
