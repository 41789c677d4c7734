import Zemo.Coordinator.World

set_option autoImplicit false

/-! # Keeping both journals

How the coordinator makes an event durable: it checks the chain in the database, commits the event
there with its effect on the rows, and brings the external journal up to date, which may miss at
most that one event. Whatever goes wrong on the way to the external journal is recorded as a
diagnostic, and a diagnostic locks every later mutation. -/

namespace Zemo

variable {χ : Type}

/-! ## Locks and gates -/

/-- `record_journal_diagnostic`. -/
def recordJournalDiagnostic (scope : JournalDiagnosticScope) (code message : String) :
    Coordinator χ Unit :=
  Prog.modifies fun w =>
    if w.diagnostics.any fun d => d.scope = scope && d.code = code then w
    else
      { w with
        diagnostics := w.diagnostics ++
          [{ scope := scope, code := code, message := message, detectedAtUnixMs := w.now }] }

/-- Record the diagnostic and give up. -/
def lockJournal (scope : JournalDiagnosticScope) (code message : String) : Coordinator χ Unit :=
  recordJournalDiagnostic scope code message >>= fun _ => Prog.fail .journalLocked

/-- `require_mutations_unlocked`. -/
def requireMutationsUnlocked : Coordinator χ Unit := do
  let diagnostics ← Prog.reads (·.diagnostics)
  Prog.ensure (diagnostics = []) .journalLocked

/-- `require_apply_gate`. -/
def requireApplyGate (env : Env χ) : Coordinator χ Unit := do
  requireMutationsUnlocked
  Prog.ensure (env.gateEnabled = true) .gateDisabled

/-- Act on the answer of `validate_execution_journal`. -/
def acceptJournal (valid : Except ApplicationError Bool) : Coordinator χ Unit :=
  match valid with
  | .ok true => pure ()
  | .ok false =>
      lockJournal .database "database_journal_chain_invalid"
        "The authenticated database execution journal chain is invalid."
  | .error _ =>
      lockJournal .database "database_journal_unavailable"
        "The authenticated database execution journal is unavailable."

/-- `require_valid_database_journal`. -/
def requireValidDatabaseJournal (env : Env χ) : Coordinator χ Unit :=
  Prog.attempt (query fun db => .ok (db.validateExecutionJournal env.store.codec)) >>= acceptJournal

/-! ## The external journal -/

def externalEvents : Coordinator χ (List OperationJournalEvent) :=
  effect .journalLocked fun w => (.ok w.external.events, w)

def externalAppend (event : OperationJournalEvent) : Coordinator χ Unit :=
  effect .journalLocked fun w =>
    (.ok (), { w with external := { w.external with events := w.external.events ++ [event] } })

def externalFlush : Coordinator χ Unit :=
  effect .journalLocked fun w =>
    (.ok (), { w with external := { w.external with flushed := w.external.events.length } })

/-- Give up with a diagnostic when a step of the external journal failed. -/
def orLock (code message : String) (r : Except ApplicationError Unit) : Coordinator χ Unit :=
  match r with
  | .ok _ => pure ()
  | .error _ => lockJournal .external code message

def appendEvent (event : OperationJournalEvent) : Coordinator χ Unit :=
  Prog.attempt (externalAppend event) >>= orLock "external_journal_append_failed"
    "The encrypted recovery journal could not durably append an event."

def flushJournal : Coordinator χ Unit :=
  Prog.attempt externalFlush >>= orLock "external_journal_flush_failed"
    "The encrypted recovery journal could not be flushed durably."

/-- The external journal holds other events than the first of the database. -/
def inconsistent (external databaseEvents : List OperationJournalEvent) : Prop :=
  external.length > databaseEvents.length
    ∨ ¬(external.zip databaseEvents).all fun pair => pair.1 = pair.2

instance (external databaseEvents : List OperationJournalEvent) :
    Decidable (inconsistent external databaseEvents) := by
  unfold inconsistent; exact inferInstance

/-- The part of `synchronize_external_journal` after both journals were read. -/
def synchronizeFrom (allowSingleAppend : Bool) (databaseEvents : List OperationJournalEvent)
    (external : Except ApplicationError (List OperationJournalEvent)) : Coordinator χ Unit :=
  match external with
  | .error _ =>
      lockJournal .external "external_journal_unavailable"
        "The encrypted recovery journal became unavailable."
  | .ok external =>
      let missing := databaseEvents.length - external.length
      if inconsistent external databaseEvents then
        lockJournal .external "external_journal_consistency_failed"
          "The encrypted recovery journal does not match the database journal."
      else if 0 < missing ∧ (allowSingleAppend = false ∨ missing ≠ 1) then
        lockJournal .external "external_journal_incomplete"
          ("The encrypted recovery journal is an authenticated but incomplete prefix; "
            ++ "no automatic repair was attempted.")
      else
        Prog.forEach appendEvent (databaseEvents.drop external.length) >>= fun _ => flushJournal

/-- `synchronize_external_journal`. -/
def synchronizeExternalJournal (allowSingleAppend : Bool) : Coordinator χ Unit := do
  let databaseEvents ← readJournal
  let external ← Prog.attempt externalEvents
  synchronizeFrom allowSingleAppend databaseEvents external

/-! ## Making an event durable -/

structure JournalCursor where
  sequence : Nat
  previous : Option Bytes32
deriving DecidableEq

/-- `journal_cursor`. -/
def journalCursor : Coordinator χ JournalCursor := do
  let events ← readJournal
  return { sequence := events.length, previous := chainHead events }

/-- What an event says, before it is put in the chain. -/
structure EventDraft where
  executionId : ExecutionId
  stepId : Option OperationStepId := none
  kind : JournalEventKind
  payload : Payload
  operationStatus : Option ExecutionOperationStatus := none
  sessionStatus : Option OrganizationExecutionStatus := none
  postFingerprint : Option FileFingerprint := none
  errorCode : Option String := none
  errorMessage : Option String := none
  requestIntent : Option ExecutorRequestIdentity := none
  requestProof : Option (String × ExecutorRequestState) := none

/-- The event of a draft at a cursor. -/
def EventDraft.event (draft : EventDraft) (codec : Codec) (cursor : JournalCursor) (now : Int) :
    OperationJournalEvent :=
  .new codec draft.executionId cursor.sequence draft.stepId draft.kind draft.payload
    cursor.previous now

/-- The arguments of the event transaction. -/
def EventDraft.write (draft : EventDraft) (event : OperationJournalEvent) (createdAt : String) :
    EventWrite where
  event := event
  canonicalData := draft.payload
  operationStatus := draft.operationStatus
  sessionStatus := draft.sessionStatus
  postFingerprint := draft.postFingerprint
  errorCode := draft.errorCode
  errorMessage := draft.errorMessage
  createdAt := createdAt
  requestIntent := draft.requestIntent
  requestProof := draft.requestProof

/-- Mark the execution for recovery when the external journal could not be brought up to date. -/
def orMark (env : Env χ) (message : String) (r : Except ApplicationError Unit) :
    Coordinator χ Unit :=
  match r with
  | .ok _ => pure ()
  | .error e => Prog.attempt (write env (.recoveryRequired message)) >>= fun _ => Prog.fail e

/-- The part `persist_event`, `persist_event_with_request_proof` and `persist_request_intent`
    share once the chain was validated. -/
def commitEvent (env : Env χ) (message : String) (draft : EventDraft) (cursor : JournalCursor) :
    Coordinator χ (CommittedJournalEventBinding × JournalCursor) := do
  let now ← nowUnixMs
  let createdAt ← nowIso env
  let event := draft.event env.store.codec cursor now
  let _ ← write env (.event (draft.write event createdAt))
  let synchronized ← Prog.attempt (synchronizeExternalJournal true)
  orMark env message synchronized
  return (event.binding, { sequence := cursor.sequence + 1, previous := some event.eventDigest })

/-- `persist_event` and `persist_event_with_request_proof`; the draft has the proof. -/
def persistEvent (env : Env χ) (draft : EventDraft) (cursor : JournalCursor) :
    Coordinator χ JournalCursor := do
  requireValidDatabaseJournal env
  let (_, cursor) ← commitEvent env
    ("The durable external journal could not be synchronized; recovery review is required.")
    draft cursor
  return cursor

/-- The `executor_session` member of an intent. -/
def ExecutorSessionIdentity.material (session : ExecutorSessionIdentity) :
    ExecutorSessionMaterial where
  sessionId := session.sessionId
  executionId := session.executionId
  planId := session.planId
  planDigest := session.planDigestHex
  purpose := session.purpose
  coordinatorPid := session.coordinatorPid
  childPid := session.childPid
  workerNonceHash := session.workerNonceHashHex
  coordinatorNonceHash := session.coordinatorNonceHashHex
  responseNonceHash := session.responseNonceHashHex

/-- The `executor_request` member of an intent. -/
def ExecutorRequestIdentity.material (request : ExecutorRequestIdentity) :
    ExecutorRequestMaterial where
  requestId := request.requestId
  sessionId := request.sessionId
  operationId := request.operationId
  direction := request.direction
  requestSequence := request.requestSequence
  requestNonce := request.requestNonce
  requestDigest := request.requestDigestHex

/-- The kind of the intent of a request. -/
def ExecutorRequestDirection.intentKind : ExecutorRequestDirection → JournalEventKind
  | .forward => .intentDurable
  | .rollback => .rollbackIntent

/-- The statuses an intent of this kind sets. -/
def intentStatuses : JournalEventKind → ExecutionOperationStatus × OrganizationExecutionStatus
  | .rollbackIntent => (.rollingBack, .rollingBack)
  | _ => (.running, .running)

/-- The draft of the intent of a request. -/
def intentDraft (kind : JournalEventKind) (payload : Payload) (request : ExecutorRequestIdentity)
    (session : ExecutorSessionIdentity) : EventDraft where
  executionId := request.executionId
  stepId := some request.operationId
  kind := kind
  payload := { payload with
    executorSession := some session.material, executorRequest := some request.material }
  operationStatus := some (intentStatuses kind).1
  sessionStatus := some (intentStatuses kind).2
  requestIntent := some request

/-- `persist_request_intent`. -/
def persistRequestIntent (env : Env χ) (kind : JournalEventKind) (payload : Payload)
    (request : ExecutorRequestIdentity) (session : ExecutorSessionIdentity)
    (cursor : JournalCursor) : Coordinator χ (CommittedJournalEventBinding × JournalCursor) := do
  requireValidDatabaseJournal env
  Prog.ensure (request.sessionId = session.sessionId ∧ kind = request.direction.intentKind)
    .invalidExecution
  commitEvent env
    ("The durable request intent could not be committed to both journals; "
      ++ "recovery review is required.")
    (intentDraft kind payload request session) cursor

/-! ## Ending an execution -/

/-- `finish_execution`. -/
def finishExecution (env : Env χ) (executionId : ExecutionId)
    (status : OrganizationExecutionStatus) (message : String) (cursor : JournalCursor) :
    Coordinator χ JournalCursor :=
  persistEvent env
    { executionId := executionId
      kind := .executionFinished
      payload :=
        { event := "execution_finished"
          details := [("status", .status status), ("message", .text message)] }
      sessionStatus := some status }
    cursor

/-- `add_execution_error` for an operation. -/
def addExecutionError (env : Env χ) (op : ExecutionOperation)
    (category : ExecutionFailureCategory) (code userMessage : String)
    (technicalDetails : Option String) : Coordinator χ Unit := do
  let createdAt ← nowIso env
  let _ ← write env (.executionError
    { operationId := some op.id, category := category, code := code, userMessage := userMessage,
      technicalDetails := technicalDetails, createdAt := createdAt })
  return ()

/-- The `executor_audit` member of a payload. -/
def ExecutorAttemptAudit.value (audit : ExecutorAttemptAudit) : PayloadValue :=
  .audit audit.attemptCount audit.errorClass

/-- `fail_operation`, and `fail_operation_with_executor_audit` with an audit. -/
def failOperation (env : Env χ) (executionId : ExecutionId) (op : ExecutionOperation)
    (category : ExecutionFailureCategory) (code message : String)
    (audit : Option ExecutorAttemptAudit) (cursor : JournalCursor) : Coordinator χ Unit := do
  let cursor ← persistEvent env
    { executionId := executionId
      stepId := some op.id
      kind := .stepFailed
      payload :=
        { event := "step_failed"
          operationId := some op.id
          details := [("category", .category category), ("code", .text code),
            ("message", .text message)]
              ++ (audit.map fun a => ("executor_audit", a.value)).toList }
      operationStatus := some .failed
      sessionStatus := some .failed
      errorCode := some code
      errorMessage := some message }
    cursor
  let _ ← finishExecution env executionId .failed
    (if audit.isSome then "Execution stopped after the executor proved no mutation occurred."
      else "Execution stopped before mutation because a critical precondition failed.") cursor
  addExecutionError env op category code message none

/-- `mark_executor_recovery_required` and `mark_rollback_recovery_required`. -/
def markRecoveryRequired (env : Env χ) (executionId : ExecutionId)
    (direction : ExecutorRequestDirection) (op : ExecutionOperation) (code detail : String)
    (audit : Option ExecutorAttemptAudit) (cursor : JournalCursor) : Coordinator χ Unit := do
  let rollback := direction = .rollback
  let _ ← persistEvent env
    { executionId := executionId
      stepId := some op.id
      kind := .stepFailed
      payload :=
        { event := "executor_outcome_ambiguous"
          operationId := some op.id
          details :=
            [("direction", .text (if rollback then "rollback" else "forward")),
              ("code", .text code), ("detail", .text detail),
              ("executor_audit", .ofOption ExecutorAttemptAudit.value audit)] }
      operationStatus := some (if rollback then .rollingBack else .running)
      sessionStatus := some .recoveryRequired
      errorCode := some code
      errorMessage := some detail }
    cursor
  addExecutionError env op .criticalExecutionFailure code
    (if rollback then "The isolated rollback outcome could not be proven."
      else "The isolated executor outcome could not be proven.")
    (some detail)

end Zemo
