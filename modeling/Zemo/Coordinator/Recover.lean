import Zemo.Coordinator.Rollback

set_option autoImplicit false

/-! # Recovering

`recover_execution` classifies every executor request whose outcome is unknown by looking at the
files, records what it found in the journal and in the rows, and says whether the execution can be
rolled back. It mutates no file. -/

namespace Zemo

variable {χ : Type}

/-! ## Requests and their intents -/

/-- `executor_request_binding_error`: the stored session, the intent event and its payload must all
    name the request as it is stored. -/
def executorRequestBindingError (hashes : Hashes) (request : ExecutorRequestRow)
    (sessions : List ExecutorSessionIdentity) (events : List OperationJournalEvent) :
    Option String :=
  match sessions.find? fun s =>
      s.sessionId = request.sessionId && s.purpose = request.direction.purpose with
  | none => some "Executor session identity is missing or direction-mismatched."
  | some session =>
  match events.find? (·.sequence = request.intentEventSequence) with
  | none => some "Intent event binding is missing from the authenticated journal."
  | some event =>
  if event.stepId ≠ some request.operationId ∨ event.kind ≠ request.direction.intentKind
      ∨ event.eventDigest ≠ request.intentEventDigest then
    some "Intent event binding does not match the executor request."
  else match event.payload.executorSession with
  | none => some "Intent event has no executor session identity."
  | some stored =>
  if stored ≠ session.material then
    some "Intent session identity does not match its session record."
  else match event.payload.executorRequest with
  | none => some "Intent event has no executor request identity."
  | some material =>
  if material.requestId ≠ request.requestId ∨ material.sessionId ≠ request.sessionId
      ∨ material.operationId ≠ request.operationId
      ∨ material.requestSequence ≠ request.requestSequence
      ∨ material.direction ≠ request.direction
      ∨ hashes.nonceHash material.requestNonce ≠ hashes.nonceHash request.requestNonce
      ∨ material.requestDigest ≠ request.requestDigest then
    some "Intent payload identity does not match its request record."
  else none

/-- `request_has_recovery_observation`. -/
def requestHasRecoveryObservation (events : List OperationJournalEvent) (requestId : String) :
    Bool :=
  events.any fun event =>
    event.payload.event = "recovery_observed" && event.payload.requestId = some requestId

/-! ## Observing -/

/-- What recovery makes of a request. -/
inductive RecoveredRequestClass where
  | skip
  | applied (item : RecoveryItem)
  | notStarted (item : RecoveryItem)
  | ambiguous (item : RecoveryItem)
deriving DecidableEq

/-- The item of an assessment for a request. -/
def ExecutorRequestRow.item (request : ExecutorRequestRow) (op : ExecutionOperation)
    (reason : String) : RecoveryItem where
  operationId := op.id
  direction := request.direction
  item := op.destinationRelativePath
  reason := some reason

/-- The draft of an event in which recovery records what it observed of a request. -/
def observedDraft (executionId : ExecutionId) (request : ExecutorRequestRow)
    (op : ExecutionOperation) (kind : JournalEventKind) (observation : String)
    (reason : Option String) : EventDraft where
  executionId := executionId
  stepId := some op.id
  kind := kind
  payload :=
    { event := "recovery_observed"
      operationId := some op.id
      requestId := some request.requestId
      details :=
        [("direction", .text (if request.direction = .rollback then "rollback" else "forward")),
          ("observation", .text observation)] ++ (reason.map fun r => ("reason", .text r)).toList }

/-- The draft of the event that makes a request ambiguous. -/
def ambiguousDraft (executionId : ExecutionId) (request : ExecutorRequestRow)
    (op : ExecutionOperation) (code reason : String) : EventDraft :=
  { observedDraft executionId request op .conflict "ambiguous" (some reason) with
    sessionStatus := some .recoveryAmbiguous
    errorCode := some code
    errorMessage := some reason
    requestProof := some (request.requestId, .ambiguous) }

/-- The draft of the event that proves a request did not start. -/
def notStartedDraft (executionId : ExecutionId) (request : ExecutorRequestRow)
    (op : ExecutionOperation) : EventDraft :=
  { observedDraft executionId request op .conflict "not_started" none with
    operationStatus := some (if request.direction = .rollback then .applied else .preflightOk)
    sessionStatus := some .recoveryRequired
    requestProof := some (request.requestId, .provenNotStarted) }

/-- The draft of the event that proves a request was applied. -/
def provenAppliedDraft (executionId : ExecutionId) (request : ExecutorRequestRow)
    (op : ExecutionOperation) (fingerprint : Option FileFingerprint) : EventDraft :=
  { observedDraft executionId request op .appliedObserved "applied" none with
    operationStatus := some (if request.direction = .rollback then .rolledBack else .recovered)
    sessionStatus := some .recoveryRequired
    postFingerprint := if request.direction = .rollback then none else fingerprint
    requestProof := some (request.requestId, .provenApplied) }

/-- What recovery decides about a request: its class, and the event that records it, if any. -/
structure RecoveryVerdict where
  found : RecoveredRequestClass
  draft : Option EventDraft

/-- The verdict that a request is ambiguous. -/
def ambiguousVerdict (executionId : ExecutionId) (request : ExecutorRequestRow)
    (op : ExecutionOperation) (code reason : String) : RecoveryVerdict where
  found := .ambiguous (request.item op reason)
  draft := some (ambiguousDraft executionId request op code reason)

/-- The verdict on a request after the files were observed. -/
def observedVerdict (executionId : ExecutionId) (request : ExecutorRequestRow)
    (op : ExecutionOperation) (observation : RecoveryObservation) : RecoveryVerdict :=
  match observation with
  | .notStarted =>
      if request.state = .provenApplied then
        ambiguousVerdict executionId request op "recovery_proof_contradicted"
          "Filesystem reality contradicts the stored applied proof."
      else
        { found := .notStarted (request.item op
            "Exact identity and both paths prove mutation did not start.")
          draft := some (notStartedDraft executionId request op) }
  | .applied fingerprint =>
      if request.state = .provenNotApplied ∨ request.state = .provenNotStarted then
        ambiguousVerdict executionId request op "recovery_proof_contradicted"
          "Filesystem reality contradicts the stored not-applied proof."
      else
        { found := .applied (request.item op
            "Exact native identity, metadata, and content prove mutation applied.")
          draft := some (provenAppliedDraft executionId request op fingerprint) }
  | .ambiguous reason => ambiguousVerdict executionId request op "ambiguous_recovery" reason

/-- The operation of the request is in flight in the request's direction. -/
def operationInterrupted (status : ExecutionOperationStatus)
    (direction : ExecutorRequestDirection) : Bool :=
  match status, direction with
  | .running, .forward => true
  | .rollingBack, .rollback => true
  | _, _ => false

/-- The states of a request that recovery has to look into. -/
def ExecutorRequestState.isOpen : ExecutorRequestState → Bool
  | .intentDurable | .acknowledgedSuccess | .recoveryRequired | .ambiguous => true
  | _ => false

/-- What recovery does with a request before it looks at any file: decide, or look. -/
inductive RecoveryTriage where
  | decided (verdict : RecoveryVerdict)
  | observe

/-- A verdict without an event. -/
def quietVerdict (found : RecoveredRequestClass) : RecoveryVerdict where
  found := found
  draft := none

/-- The part of `reconcile_one_interrupted_request` that looks at no file. -/
def triage (hashes : Hashes) (executionId : ExecutionId) (request : ExecutorRequestRow)
    (op : ExecutionOperation) (sessions : List ExecutorSessionIdentity)
    (events : List OperationJournalEvent) : RecoveryTriage :=
  match executorRequestBindingError hashes request sessions events with
  | some reason =>
      .decided (ambiguousVerdict executionId request op "executor_request_binding_invalid" reason)
  | none =>
      let interrupted := operationInterrupted op.status request.direction
      if (interrupted || request.state.isOpen
          || requestHasRecoveryObservation events request.requestId) = false then
        .decided (quietVerdict .skip)
      else
        match request.state, interrupted with
        | .provenNotApplied, false | .provenNotStarted, false =>
            .decided (quietVerdict (.notStarted (request.item op
              "Exact executor request was proven not applied.")))
        | .provenApplied, false =>
            .decided (quietVerdict (.applied (request.item op
              "Authenticated journal and postcondition proof recorded.")))
        | .ambiguous, _ =>
            .decided (quietVerdict (.ambiguous (request.item op
              "Executor request remains ambiguous.")))
        | _, _ => .observe

/-- The observation of the files in the direction of the request. -/
def observe (policy : FilePolicy) (tree : Tree) (request : ExecutorRequestRow)
    (op : ExecutionOperation) : Except ApplicationError RecoveryObservation :=
  if request.direction = .rollback then observeRollbackRecovery policy tree op
  else observeRecovery policy tree op

/-- Find the verdict of a triaged request. -/
def settleVerdict (env : Env χ) (executionId : ExecutionId) (request : ExecutorRequestRow)
    (op : ExecutionOperation) (triaged : RecoveryTriage) : Coordinator χ RecoveryVerdict :=
  match triaged with
  | .decided verdict => pure verdict
  | .observe => do
      let observation ← look fun o => observe env.files o.tree request op
      return observedVerdict executionId request op observation

/-- Record a verdict that has an event. -/
def recordVerdict (env : Env χ) (draft : Option EventDraft) (cursor : JournalCursor) :
    Coordinator χ JournalCursor :=
  match draft with
  | some draft => persistEvent env draft cursor
  | none => pure cursor

/-- `reconcile_one_interrupted_request`. -/
def reconcileOneInterruptedRequest (env : Env χ) (executionId : ExecutionId)
    (request : ExecutorRequestRow) (op : ExecutionOperation)
    (sessions : List ExecutorSessionIdentity) (events : List OperationJournalEvent)
    (cursor : JournalCursor) : Coordinator χ (RecoveredRequestClass × JournalCursor) := do
  let verdict ← settleVerdict env executionId request op
    (triage env.hashes executionId request op sessions events)
  let cursor ← recordVerdict env verdict.draft cursor
  return (verdict.found, cursor)

/-! ## The assessment -/

/-- The items found so far. -/
structure RecoveryItems where
  applied : List RecoveryItem := []
  notStarted : List RecoveryItem := []
  ambiguous : List RecoveryItem := []
deriving DecidableEq

/-- The items with the class of one more request. -/
def RecoveryItems.add (items : RecoveryItems) : RecoveredRequestClass → RecoveryItems
  | .skip => items
  | .applied item => { items with applied := items.applied ++ [item] }
  | .notStarted item => { items with notStarted := items.notStarted ++ [item] }
  | .ambiguous item => { items with ambiguous := items.ambiguous ++ [item] }

/-- Classify the requests in order. -/
def reconcileRequests (env : Env χ) (executionId : ExecutionId)
    (operations : List ExecutionOperation) (sessions : List ExecutorSessionIdentity)
    (events : List OperationJournalEvent) :
    List ExecutorRequestRow → JournalCursor → RecoveryItems → Coordinator χ RecoveryItems
  | [], _, items => pure items
  | request :: rest, cursor, items =>
      Prog.orFail (operations.find? (·.id = request.operationId)) .invalidExecution >>= fun op =>
        reconcileOneInterruptedRequest env executionId request op sessions events cursor >>=
          fun found =>
            reconcileRequests env executionId operations sessions events rest found.2
              (items.add found.1)

/-- The class of an operation no request exists for. -/
def classifyUnrequested (events : List OperationJournalEvent) (op : ExecutionOperation) :
    RecoveredRequestClass :=
  let item (direction : ExecutorRequestDirection) (reason : String) : RecoveryItem :=
    { operationId := op.id, direction := direction, item := op.destinationRelativePath,
      reason := some reason }
  match op.status with
  | .preflightOk => .notStarted (item .forward "No durable executor request exists.")
  | .applied | .recovered =>
      if events.any fun event => event.stepId = some op.id && event.kind = .appliedObserved then
        .applied (item .forward "Authenticated legacy applied event verified.")
      else .ambiguous (item .forward "Applied state has no authenticated request proof.")
  | .running =>
      .ambiguous (item .forward "Interrupted operation has no exact executor request identity.")
  | .rollingBack =>
      .ambiguous (item .rollback "Interrupted operation has no exact executor request identity.")
  | _ => .skip

/-- The items with the classes of the operations no request exists for. -/
def addUnrequested (requests : List ExecutorRequestRow) (events : List OperationJournalEvent)
    (operations : List ExecutionOperation) (items : RecoveryItems) : RecoveryItems :=
  (operations.filter fun op => requests.all (·.operationId ≠ op.id)).foldl
    (fun items op => items.add (classifyUnrequested events op)) items

/-- `RecoveryAssessment`. -/
structure RecoveryAssessment where
  executionId : ExecutionId
  state : ExecutionRecoveryState
  affectedCount : Nat
  notStarted : Nat
  applied : Nat
  ambiguous : Nat
  verifiedAppliedItems : List RecoveryItem
  verifiedNotStartedItems : List RecoveryItem
  ambiguousItems : List RecoveryItem
  rollbackAvailable : Bool
  executorSessions : List ExecutorSessionIdentity
  executorRequests : List ExecutorRequestRow
  journalDiagnostics : List JournalDiagnostic
  message : String

/-- The recovery state an assessment leaves. -/
def RecoveryItems.state (items : RecoveryItems) : ExecutionRecoveryState :=
  if items.ambiguous.length > 0 then .recoveryAmbiguous else .recoveryAvailable

def recoveryMessage (ambiguous : Nat) (rollbackAvailable : Bool) : String :=
  if ambiguous > 0 then "Recovery is ambiguous; no further mutation is allowed."
  else if rollbackAvailable then
    "Interrupted requests were reconciled; verified applied operations can be rolled back."
  else "Interrupted requests were proven not started; forward resume remains unavailable."

/-- The assessment of what was found, when the rows say whether a rollback is available. -/
def assessmentOf (executionId : ExecutionId) (items : RecoveryItems)
    (sessions : List ExecutorSessionIdentity) (requests : List ExecutorRequestRow)
    (diagnostics : List JournalDiagnostic) (available : Bool) : RecoveryAssessment :=
  let ambiguous := items.ambiguous.length
  let rollbackAvailable := ambiguous = 0 && available && 0 < items.applied.length
  { executionId := executionId
    state := items.state
    affectedCount := items.notStarted.length + items.applied.length + ambiguous
    notStarted := items.notStarted.length
    applied := items.applied.length
    ambiguous := ambiguous
    verifiedAppliedItems := items.applied
    verifiedNotStartedItems := items.notStarted
    ambiguousItems := items.ambiguous
    rollbackAvailable := rollbackAvailable
    executorSessions := sessions
    executorRequests := requests
    journalDiagnostics := diagnostics
    message := recoveryMessage ambiguous rollbackAvailable }

/-- The record of what was found. -/
def RecoveryItems.record (items : RecoveryItems) (assessedAt : String) : AssessmentRecord where
  state := items.state
  verifiedAppliedItems := items.applied
  verifiedNotStartedItems := items.notStarted
  ambiguousItems := items.ambiguous
  assessedAt := assessedAt

/-- `persist_recovery_assessment_result`. -/
def persistRecoveryAssessmentResult (env : Env χ) (executionId : ExecutionId)
    (items : RecoveryItems) (sessions : List ExecutorSessionIdentity)
    (requests : List ExecutorRequestRow) : Coordinator χ RecoveryAssessment := do
  let assessedAt ← nowIso env
  let _ ← write env (.assessment (items.record assessedAt))
  let reconciled ← readDetail
  let diagnostics ← Prog.reads (·.diagnostics)
  return assessmentOf executionId items sessions requests diagnostics
    reconciled.session.rollbackAvailable

/-- The statuses recovery applies to. -/
def OrganizationExecutionStatus.needsRecovery : OrganizationExecutionStatus → Bool
  | .recoveryRequired | .recoveryAvailable | .recoveryAmbiguous => true
  | _ => false

/-- `recover_execution`. -/
def recoverExecution (env : Env χ) : Coordinator χ RecoveryAssessment := do
  requireMutationsUnlocked
  let detail ← readDetail
  Prog.ensure (detail.session.status.needsRecovery = true) .invalidExecution
  requireValidDatabaseJournal env
  synchronizeExternalJournal false
  executionRoot detail
  let cursor ← journalCursor
  let events ← readJournal
  let sessions ← query fun db => .ok db.executorSessions
  let requests ← query fun db => .ok db.executorRequests
  let items ← reconcileRequests env detail.session.id detail.operations sessions events requests
    cursor {}
  let items := addUnrequested requests events detail.operations items
  let after ← query fun db => .ok db.executorRequests
  persistRecoveryAssessmentResult env detail.session.id items sessions after

end Zemo
