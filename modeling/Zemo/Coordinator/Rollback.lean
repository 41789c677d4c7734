import Zemo.Coordinator.Start

set_option autoImplicit false

/-! # Rolling back

`rollback_execution` undoes the applied operations of an execution that has stopped, the last one
first. Each is treated as a forward operation is, with one more look at the preconditions between
the durable intent and the dispatch. A precondition that no longer holds ends the rollback. -/

namespace Zemo

variable {χ : Type}

/-! ## Authorization -/

/-- The last event that says the operation was applied. -/
def appliedEvent (events : List OperationJournalEvent) (id : OperationStepId) :
    Option OperationJournalEvent :=
  events.reverse.find? fun event => event.stepId = some id ∧ event.kind = .appliedObserved

/-- What the executor is told about one operation to roll back. -/
def rollbackEligibility (events : List OperationJournalEvent) (op : ExecutionOperation) :
    Except ApplicationError RollbackEligibility := do
  Checked.require (op.kind.isDirectory = true ∨ op.postFingerprint ≠ none) .invalidExecution
  Checked.require (op.status.isApplied = true) .invalidExecution
  let event ← Checked.orError (appliedEvent events op.id) .invalidExecution
  return { operationId := op.id, state := op.status, appliedEvent := event.binding }

/-- The eligibilities of a list of operations, in order. -/
def rollbackEligibilities (events : List OperationJournalEvent) :
    List ExecutionOperation → Except ApplicationError (List RollbackEligibility)
  | [] => .ok []
  | op :: rest => do
      let first ← rollbackEligibility events op
      let others ← rollbackEligibilities events rest
      return first :: others

/-- `rollback_authorization`. -/
def rollbackAuthorization (rollback : List ExecutionOperation) :
    Coordinator χ SessionAuthorization := do
  let events ← readJournal
  let eligible ← Prog.lift (rollbackEligibilities events rollback)
  return .rollback eligible

/-! ## One operation -/

/-- How the rollback of an operation ends when the coordinator goes on. -/
inductive RollbackOutcome where
  | rolledBack (cursor : JournalCursor)
  | terminal (detail : ExecutionDetail)

/-- The draft of the event that says the rollback of an operation is blocked. -/
def rollbackBlockedDraft (executionId : ExecutionId) (op : ExecutionOperation)
    (details : List (String × PayloadValue)) (code message : String) : EventDraft where
  executionId := executionId
  stepId := some op.id
  kind := .conflict
  payload := { event := "rollback_blocked", operationId := some op.id, details := details }
  operationStatus := some .rollbackBlocked
  sessionStatus := some .rollbackPartial
  errorCode := some code
  errorMessage := some message

/-- End the rollback at an operation that could not be rolled back. -/
def blockRollback (env : Env χ) (executionId : ExecutionId) (op : ExecutionOperation)
    (details : List (String × PayloadValue)) (code message ending : String)
    (cursor : JournalCursor) : Coordinator χ RollbackOutcome := do
  let cursor ← persistEvent env (rollbackBlockedDraft executionId op details code message) cursor
  let _ ← finishExecution env executionId .rollbackPartial ending cursor
  let detail ← readDetail
  return .terminal detail

/-- End the rollback at an operation whose precondition failed. -/
def blockPrecondition (env : Env χ) (executionId : ExecutionId) (op : ExecutionOperation)
    (e : ApplicationError) (phase : List (String × PayloadValue)) (ending : String)
    (cursor : JournalCursor) : Coordinator χ RollbackOutcome :=
  blockRollback env executionId op (("error", .text (env.describe e)) :: phase)
    "rollback_precondition_failed" (env.describe e) ending cursor

/-- Look at the preconditions of a rollback. -/
def lookRollback (env : Env χ) (op : ExecutionOperation) :
    Coordinator χ (Except ApplicationError (Option FileFingerprint)) :=
  Prog.attempt (look fun o => revalidateRollback env.files o.tree op)

/-- Act on the second look after an outcome that says nothing was rolled back. -/
def afterNotRolledBack (env : Env χ) (executionId : ExecutionId) (op : ExecutionOperation)
    (request : ExecutorRequestIdentity) (code detail : String)
    (audit : Option ExecutorAttemptAudit) (cursor : JournalCursor)
    (looked : Except ApplicationError (Option FileFingerprint)) : Coordinator χ RollbackOutcome :=
  match looked, audit with
  | .ok _, _ => do
      transitionProof env request .provenNotStarted
      blockRollback env executionId op
        ([("code", .text code), ("detail", .text detail)]
          ++ (audit.map fun a => ("executor_audit", a.value)).toList)
        code detail "Rollback stopped after the executor proved no mutation occurred." cursor
  | .error e, some _ =>
      recoverRequestLater env executionId op request "proven_not_applied_contradicted"
        (env.describe e) audit cursor
  | .error e, none =>
      recoverLater env executionId .rollback op "proven_not_applied_contradicted"
        (env.describe e) none cursor

/-- The draft of the event that ends the rollback of an operation. -/
def rolledBackDraft (executionId : ExecutionId) (op : ExecutionOperation)
    (request : ExecutorRequestIdentity) (audit : ExecutorAttemptAudit) : EventDraft where
  executionId := executionId
  stepId := some op.id
  kind := .rolledBackObserved
  payload :=
    { event := "rolled_back_observed"
      operationId := some op.id
      details := [("postcondition", .text "verified"), ("executor_audit", audit.value)] }
  operationStatus := some .rolledBack
  sessionStatus := some .rollingBack
  requestProof := some (request.requestId, .provenApplied)

/-- Act on what was seen after a success was reported. -/
def afterRollbackSuccess (env : Env χ) (executionId : ExecutionId) (op : ExecutionOperation)
    (request : ExecutorRequestIdentity) (audit : ExecutorAttemptAudit) (cursor : JournalCursor)
    (looked : Except ApplicationError Unit) : Coordinator χ RollbackOutcome :=
  match looked with
  | .ok _ => do
      let cursor ← persistEvent env (rolledBackDraft executionId op request audit) cursor
      let _ ← readDetail
      return .rolledBack cursor
  | .error e =>
      recoverRequestLater env executionId op request "rollback_postcondition_failed"
        (env.describe e) (some audit) cursor

/-- Act on the executor's outcome. -/
def afterRollbackOutcome (env : Env χ) (executionId : ExecutionId) (op : ExecutionOperation)
    (request : ExecutorRequestIdentity) (cursor : JournalCursor) (outcome : ExecutorOutcome) :
    Coordinator χ RollbackOutcome :=
  match outcome with
  | .success audit =>
      Prog.attempt (look fun o => verifyRollbackPostcondition env.files o.tree op) >>=
        afterRollbackSuccess env executionId op request audit cursor
  | .provenNotApplied code detail audit =>
      lookRollback env op >>=
        afterNotRolledBack env executionId op request code detail (some audit) cursor
  | .protocolRefusal code detail =>
      lookRollback env op >>= afterNotRolledBack env executionId op request code detail none cursor
  | .recoveryRequired code detail audit =>
      recoverLater env executionId .rollback op code detail (some audit) cursor

/-- Act on the executor's answer, or on its failure to answer. -/
def afterRollbackDispatch (env : Env χ) (executionId : ExecutionId) (op : ExecutionOperation)
    (request : ExecutorRequestIdentity) (cursor : JournalCursor)
    (dispatch : Except ApplicationError ExecutorDispatchResult) : Coordinator χ RollbackOutcome :=
  match dispatch with
  | .error e =>
      recoverRequestLater env executionId op request "executor_response_ambiguous"
        (env.describe e) none cursor
  | .ok dispatch => do
      recordExecutorResponse env request dispatch
      afterRollbackOutcome env executionId op request cursor dispatch.outcome

/-- Act on the look between the durable intent and the dispatch. -/
def dispatchRollback (env : Env χ) (executionId : ExecutionId) (op : ExecutionOperation)
    (request : ExecutorRequestIdentity) (binding : CommittedJournalEventBinding)
    (cursor : JournalCursor) (looked : Except ApplicationError (Option FileFingerprint)) :
    Coordinator χ RollbackOutcome :=
  match looked with
  | .ok _ => do
      let dispatch ← Prog.attempt (dispatchPrepared env request binding)
      afterRollbackDispatch env executionId op request cursor dispatch
  | .error e => do
      transitionProof env request .provenNotStarted
      blockPrecondition env executionId op e
        [("phase", .text "immediately_before_worker_dispatch")]
        "Rollback stopped because the exact destination identity changed." cursor

/-- The draft of the event that says the rollback of an operation may start. -/
def rollbackPreconditionsDraft (executionId : ExecutionId) (op : ExecutionOperation)
    (preflight : Option FileFingerprint) : EventDraft where
  executionId := executionId
  stepId := some op.id
  kind := .preconditionsValidated
  payload :=
    { event := "rollback_preconditions_validated"
      operationId := some op.id
      details :=
        [("source", .path op.destinationRelativePath),
          ("destination", .ofOption .path op.sourceRelativePath),
          ("expected_applied_state", .ofOption .fingerprint preflight)] }
  operationStatus := some op.status
  sessionStatus := some .rollingBack

/-- The payload of the intent of a rollback, before the request is named in it. -/
def rollbackPayload (op : ExecutionOperation) : Payload where
  event := "rollback_intent"
  operationId := some op.id
  details :=
    [("source", .path op.destinationRelativePath),
      ("destination", .ofOption .path op.sourceRelativePath)]

/-- The rollback of an operation whose preconditions were seen to hold. -/
def attemptRollback (env : Env χ) (executionId : ExecutionId)
    (session : ExecutorSessionIdentity) (op : ExecutionOperation) (cursor : JournalCursor)
    (preflight : Option FileFingerprint) : Coordinator χ RollbackOutcome := do
  let cursor ← persistEvent env (rollbackPreconditionsDraft executionId op preflight) cursor
  let prepared ← prepareOperation env session op.id .rollback
  let (binding, cursor) ←
    persistRequestIntent env .rollbackIntent (rollbackPayload op) prepared session cursor
  let looked ← lookRollback env op
  dispatchRollback env executionId op prepared binding cursor looked

/-- Act on the first look at the preconditions. -/
def rollbackLooked (env : Env χ) (executionId : ExecutionId) (session : ExecutorSessionIdentity)
    (op : ExecutionOperation) (cursor : JournalCursor)
    (looked : Except ApplicationError (Option FileFingerprint)) : Coordinator χ RollbackOutcome :=
  match looked with
  | .ok preflight => attemptRollback env executionId session op cursor preflight
  | .error e =>
      blockPrecondition env executionId op e []
        "Rollback stopped because a live precondition was no longer safe." cursor

/-! ## The reverse pass -/

/-- How the reverse pass ends. -/
inductive RollbackEnd where
  | finished (cursor : JournalCursor)
  | stopped (detail : ExecutionDetail)

/-- Roll the operations back in the order they are given. -/
def runRollback (env : Env χ) (executionId : ExecutionId) (session : ExecutorSessionIdentity) :
    List ExecutionOperation → JournalCursor → Coordinator χ RollbackEnd
  | [], cursor => pure (.finished cursor)
  | op :: rest, cursor =>
      (lookRollback env op >>= rollbackLooked env executionId session op cursor) >>= fun outcome =>
        match outcome with
        | .rolledBack cursor => runRollback env executionId session rest cursor
        | .terminal detail => pure (.stopped detail)

/-- End the rollback with this message. -/
def completeRollback (env : Env χ) (executionId : ExecutionId) (message : String)
    (cursor : JournalCursor) : Coordinator χ ExecutionDetail := do
  let _ ← finishExecution env executionId .rolledBack message cursor
  readDetail

/-- Act on the end of the reverse pass. -/
def afterRollback (env : Env χ) (executionId : ExecutionId) (ended : RollbackEnd) :
    Coordinator χ ExecutionDetail :=
  match ended with
  | .finished cursor =>
      completeRollback env executionId "Rollback completed in reverse dependency order." cursor
  | .stopped detail => pure detail

/-- `execution_root`: the approved root is the active one and still valid. -/
def executionRoot (detail : ExecutionDetail) : Coordinator χ Unit :=
  look fun outside => do
    let rootId ← Checked.orError outside.activeRoot (.persistence .notFound)
    Checked.require (rootId = detail.session.rootId) .executionApprovalRequired
    Checked.require (outside.rootValid = true) (.safety .invalidRoot)

/-- The statuses an execution can be rolled back in. -/
def OrganizationExecutionStatus.mayRollBack : OrganizationExecutionStatus → Bool
  | .completed | .partial_ | .cancelled | .failed | .recoveryAvailable | .paused => true
  | _ => false

/-- The part of `rollback_execution` when there is something to roll back. -/
def rollbackOperations (env : Env χ) (detail : ExecutionDetail)
    (rollback : List ExecutionOperation) (cursor : JournalCursor) :
    Coordinator χ ExecutionDetail := do
  let authorization ← rollbackAuthorization rollback
  Prog.ensure (env.rollbackEnvelopeAccepted detail = true) .invalidExecution
  let session ← openSession env detail authorization
  let ended ← runRollback env detail.session.id session rollback cursor
  afterRollback env detail.session.id ended

/-- `rollback_execution`. -/
def rollbackExecution (env : Env χ) : Coordinator χ ExecutionDetail := do
  requireApplyGate env
  let detail ← readDetail
  Prog.ensure (detail.session.recoveryState ≠ .recoveryAmbiguous
    ∧ detail.session.status.mayRollBack = true) .executionRecoveryRequired
  requireValidDatabaseJournal env
  synchronizeExternalJournal false
  executionRoot detail
  let cursor ← journalCursor
  let rollback := detail.operations.reverse.filter (·.status.isApplied)
  if rollback = [] then
    completeRollback env detail.session.id
      "No journal-proven applied operation remained to roll back." cursor
  else rollbackOperations env detail rollback cursor

end Zemo
