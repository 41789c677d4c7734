import Zemo.Persistence.Events

set_option autoImplicit false

/-! # What an event transaction does

`EventCommitted ctx w db db'` says everything the proofs use of an event transaction that took the
rows `db` to `db'`: the tests it passed and the columns it changed. It follows from a commit
(`persistExecutionEventTx_eq_commit`), and from the tests alone a commit follows
(`persistExecutionEventTx_of_accepted`). No later proof unfolds the transaction. -/

namespace Zemo

/-! ## The changed columns -/

/-- The operations after an event. -/
def EventWrite.operationsAfter (w : EventWrite) (operations : List ExecutionOperation) :
    List ExecutionOperation :=
  match w.event.stepId with
  | none => operations
  | some stepId => operations.map fun op => if op.id = stepId then op.afterEvent w else op

/-- The requests with the one an event intends. -/
def EventWrite.requestsIntended (w : EventWrite) (rows : List ExecutorRequestRow) :
    List ExecutorRequestRow :=
  rows ++ (w.requestIntent.map fun r => r.toRow w.event w.createdAt).toList

/-- The requests with the proof an event records. -/
def EventWrite.requestsProven (w : EventWrite) (rows : List ExecutorRequestRow) :
    List ExecutorRequestRow :=
  match w.requestProof with
  | none => rows
  | some (requestId, proofState) => rows.map fun row =>
      if row.requestId = requestId then row.withProof proofState w.createdAt else row

/-- The executor requests after an event: the one it intends is added, the one it proves moves. -/
def EventWrite.requestsAfter (w : EventWrite) (rows : List ExecutorRequestRow) :
    List ExecutorRequestRow :=
  w.requestsProven (w.requestsIntended rows)

/-- The tests on the intent of an event. -/
structure IntentAdmitted (db : Database) (w : EventWrite) (request : ExecutorRequestIdentity) :
    Prop where
  wellFormed : request.wellFormedFor w.event
  named : ∃ stored, w.canonicalData.executorRequest = some stored ∧ stored.names request
  session : ∃ session,
    db.executorSessions.find? (·.sessionId = request.sessionId) = some session
      ∧ session.purpose = request.direction.purpose
  admitted :
    admitsAttempt request.direction (db.priorRequests request.operationId request.direction)
  fresh : ∀ row ∈ db.executorRequests, row.requestId ≠ request.requestId
    ∧ ¬(row.sessionId = request.sessionId ∧ row.requestSequence = request.requestSequence)
    ∧ ¬(row.sessionId = request.sessionId ∧ row.requestNonce = request.requestNonce)

/-- The tests of an event transaction. -/
structure EventAccepted (ctx : StoreContext) (w : EventWrite) (db : Database) : Prop where
  payload : w.event.payload = w.canonicalData
  payloadDigest : w.event.payloadDigest = ctx.codec.blake3 (ctx.codec.payloadBytes w.canonicalData)
  executionId : w.event.executionId = db.session.id
  sequence : (w.event.sequence : Int) = db.session.journalSequence + 1
  linked : w.event.verify ctx.codec db.session.journalChainHead = true
  newSequence : ∀ row ∈ db.journal, row.sequence ≠ w.event.sequence
  operation : ∀ stepId ∈ w.event.stepId, ∃ op ∈ db.operations, op.id = stepId
  intent : ∀ request ∈ w.requestIntent, IntentAdmitted db w request
  proof : ∀ requestId proofState, w.requestProof = some (requestId, proofState) →
    ∃ row, (w.requestsIntended db.executorRequests).find? (·.requestId = requestId) = some row
      ∧ row.state.mayTransitionTo proofState = true

/-- The rows after an event transaction, in terms of those before. -/
structure EventEffect (w : EventWrite) (db db' : Database) : Prop where
  journal : db'.journal = db.journal ++ [w.event]
  operations : db'.operations = w.operationsAfter db.operations
  requests : db'.executorRequests = w.requestsAfter db.executorRequests
  sessions : db'.executorSessions = db.executorSessions
  consent : db'.consent = db.consent
  snapshot : db'.snapshot = db.snapshot
  errors : db'.errors = db.errors
  id : db'.session.id = db.session.id
  planId : db'.session.planId = db.session.planId
  planDigest : db'.session.planDigest = db.session.planDigest
  rootId : db'.session.rootId = db.session.rootId
  userConfirmed : db'.session.userConfirmed = db.session.userConfirmed
  approvedAt : db'.session.approvedAt = db.session.approvedAt
  preflightOk : db'.session.summary.preflightOk = db.session.summary.preflightOk
  journalSequence : db'.session.journalSequence = w.event.sequence
  chainHead : db'.session.journalChainHead = some w.event.eventDigest
  status : db'.session.status = w.sessionStatus.getD db.session.status
  recoveryState : db'.session.recoveryState =
    if w.sessionStatus.any (·.isTerminal) then .recoveryNotRequired else db.session.recoveryState
  rollbackAvailable : db'.session.rollbackAvailable =
    rollbackAvailableFor (w.sessionStatus.getD db.session.status)
      (w.operationsAfter db.operations)
  blocked : db'.session.summary.blocked =
    countOperations (fun s => s = .blocked || s = .stale) (w.operationsAfter db.operations)
  failed : db'.session.summary.failed =
    countOperations (· = .failed) (w.operationsAfter db.operations)
  pause : db'.session.pauseRequested = db.session.pauseRequested
  cancel : db'.session.cancelRequested = db.session.cancelRequested

structure EventCommitted (ctx : StoreContext) (w : EventWrite) (db db' : Database) : Prop where
  accepted : EventAccepted ctx w db
  effect : EventEffect w db db'

/-! ## The statements one by one -/

theorem insertRequestIntent_eq_ok {w : EventWrite} {request : ExecutorRequestIdentity}
    {db db' : Database} :
    insertRequestIntent w.event w.canonicalData w.createdAt request db = .ok db' ↔
      IntentAdmitted db w request ∧ db' = { db with
        executorRequests := db.executorRequests ++ [request.toRow w.event w.createdAt] } := by
  simp only [insertRequestIntent, Checked.bind_eq_ok, Checked.require_eq_ok,
    Checked.orError_eq_ok]
  constructor
  · rintro ⟨_, h1, stored, h2, _, h3, session, h4, _, h5, _, h6, _, h7, h8⟩
    exact ⟨⟨h1, ⟨stored, h2, h3⟩, ⟨session, h4, h5⟩, h6, h7⟩, (Except.ok.inj h8).symm⟩
  · rintro ⟨⟨h1, ⟨stored, h2, h3⟩, ⟨session, h4, h5⟩, h6, h7⟩, rfl⟩
    exact ⟨(), h1, stored, h2, (), h3, session, h4, (), h5, (), h6, (), h7, rfl⟩

theorem executorRequestState_eq_ok {db : Database} {requestId : String}
    {state : ExecutorRequestState} :
    executorRequestState db requestId = .ok state ↔
      ∃ row, db.executorRequests.find? (·.requestId = requestId) = some row
        ∧ row.state = state := by
  simp only [executorRequestState, Checked.bind_eq_ok, Checked.orError_eq_ok]
  constructor
  · rintro ⟨row, h, hs⟩
    exact ⟨row, h, Except.ok.inj hs⟩
  · rintro ⟨row, h, hs⟩
    exact ⟨row, h, hs ▸ rfl⟩

theorem transitionExecutorRequestState_eq_ok {requestId recordedAt : String}
    {next : ExecutorRequestState} {db db' : Database} :
    transitionExecutorRequestState requestId next recordedAt db = .ok db' ↔
      (∃ row, db.executorRequests.find? (·.requestId = requestId) = some row
        ∧ row.state.mayTransitionTo next = true) ∧
      db' = db.updateRequest requestId (·.withProof next recordedAt) := by
  simp only [transitionExecutorRequestState, Checked.bind_eq_ok, Checked.require_eq_ok,
    executorRequestState_eq_ok]
  constructor
  · rintro ⟨state, ⟨row, h, rfl⟩, _, hmay, h'⟩
    exact ⟨⟨row, h, hmay⟩, (Except.ok.inj h').symm⟩
  · rintro ⟨⟨row, h, hmay⟩, rfl⟩
    exact ⟨row.state, ⟨row, h, rfl⟩, (), hmay, rfl⟩

theorem insertRollbackRecord_operations (stepId : OperationStepId) (preparedAt : String)
    (db : Database) :
    ∃ records, insertRollbackRecord stepId preparedAt db
      = { db with rollbackRecords := records } := by
  unfold insertRollbackRecord
  split
  · exact ⟨_, rfl⟩
  · split
    · exact ⟨_, rfl⟩
    · exact ⟨_, rfl⟩

theorem updateEventOperation_eq_ok {w : EventWrite} {db db' : Database}
    (h : updateEventOperation w db = .ok db') :
    ∃ records, db' = { db with
      operations := w.operationsAfter db.operations, rollbackRecords := records } := by
  unfold updateEventOperation at h
  unfold EventWrite.operationsAfter
  cases hstep : w.event.stepId with
  | none =>
      rw [hstep] at h
      exact ⟨db.rollbackRecords, (Except.ok.inj h).symm⟩
  | some stepId =>
      rw [hstep] at h
      obtain ⟨_, -, h⟩ := Checked.bind_eq_ok.1 h
      obtain rfl := Except.ok.inj h
      split
      · obtain ⟨records, hr⟩ := insertRollbackRecord_operations stepId w.createdAt
          { db with operations := db.operations.map fun op =>
              if op.id = stepId then op.afterEvent w else op }
        exact ⟨records, hr⟩
      · exact ⟨db.rollbackRecords, rfl⟩

theorem updateEventOperation_of_mem {w : EventWrite} {db : Database}
    (h : ∀ stepId ∈ w.event.stepId, ∃ op ∈ db.operations, op.id = stepId) :
    ∃ db', updateEventOperation w db = .ok db' := by
  unfold updateEventOperation
  cases hstep : w.event.stepId with
  | none => exact ⟨db, rfl⟩
  | some stepId =>
      have hmem : ∃ op ∈ db.operations, op.id = stepId := h stepId (by simp [hstep])
      exact ⟨_, Checked.bind_ok (Checked.require_pos _ hmem)⟩

/-! ## The transaction -/

theorem applyRequestIntent_eq_ok {w : EventWrite} {db db' : Database} :
    applyRequestIntent w db = .ok db' ↔
      (∀ request ∈ w.requestIntent, IntentAdmitted db w request) ∧
        db' = { db with executorRequests := w.requestsIntended db.executorRequests } := by
  unfold applyRequestIntent EventWrite.requestsIntended
  cases w.requestIntent with
  | none =>
      simp only [Option.map_none, Option.toList_none, List.append_nil]
      exact ⟨fun h => ⟨by simp, (Except.ok.inj h).symm⟩, fun h => by rw [h.2]⟩
  | some request => simpa using insertRequestIntent_eq_ok

theorem applyRequestProof_eq_ok {w : EventWrite} {db db' : Database} :
    applyRequestProof w db = .ok db' ↔
      (∀ requestId proofState, w.requestProof = some (requestId, proofState) →
        ∃ row, db.executorRequests.find? (·.requestId = requestId) = some row
          ∧ row.state.mayTransitionTo proofState = true) ∧
      db' = { db with executorRequests := w.requestsProven db.executorRequests } := by
  unfold applyRequestProof EventWrite.requestsProven
  cases w.requestProof with
  | none => exact ⟨fun h => ⟨by simp, (Except.ok.inj h).symm⟩, fun h => by rw [h.2]⟩
  | some proof =>
      obtain ⟨requestId, proofState⟩ := proof
      refine transitionExecutorRequestState_eq_ok.trans (and_congr_left fun _ => ?_)
      constructor
      · rintro h _ _ ⟨⟩
        exact h
      · exact fun h => h requestId proofState rfl

theorem updateEventSession_eq (w : EventWrite) (db : Database) :
    ∃ recovery, updateEventSession w db = { db with
      session := db.session.afterEvent w db.operations, recovery := recovery } := by
  unfold updateEventSession
  split
  · exact ⟨_, rfl⟩
  · exact ⟨_, rfl⟩

/-- What the statements that follow the tests of an event leave. -/
private theorem eventEffect_of {w : EventWrite} {db db₂ : Database} {records recovery}
    (h : db₂ = { db with
      journal := db.journal ++ [w.event]
      executorRequests := w.requestsIntended db.executorRequests
      session := db.session.afterEvent w db.operations
      recovery := recovery
      operations := w.operationsAfter db.operations
      rollbackRecords := records }) (ctx : StoreContext) :
    EventEffect w db (refreshExecutionRetention ctx w.createdAt
      { refreshExecutionCounts db₂ with
        executorRequests := w.requestsProven db₂.executorRequests }) := by
  subst h
  constructor <;> rfl

/-- A commit of the event transaction passed every test and had exactly the effect. -/
theorem persistExecutionEventTx_eq_commit {ctx : StoreContext} {w : EventWrite}
    {db db' : Database} {u : Unit}
    (h : persistExecutionEventTx ctx w db = .ok (.commit db' u)) :
    EventCommitted ctx w db db' := by
  simp only [persistExecutionEventTx, Checked.bind_eq_ok, Checked.require_eq_ok,
    applyRequestIntent_eq_ok, applyRequestProof_eq_ok] at h
  obtain ⟨_, ⟨hp, hpd⟩, _, hid, _, ⟨hseq, hlink⟩, _, hnew, _, hop, _, ⟨hintent, rfl⟩, db₂, hupd,
    _, ⟨hproof, rfl⟩, h⟩ := h
  obtain ⟨rfl, -⟩ := TxEnd.commit.inj (Except.ok.inj h)
  obtain ⟨records, hrec⟩ := updateEventOperation_eq_ok hupd
  obtain ⟨recovery, hses⟩ := updateEventSession_eq w { db with
    journal := db.journal ++ [w.event]
    executorRequests := w.requestsIntended db.executorRequests }
  rw [hses] at hrec
  refine ⟨⟨hp, hpd, hid, hseq, hlink, hnew, hop, fun r hr => ?_, fun id st hs => ?_⟩,
    eventEffect_of hrec ctx⟩
  · obtain ⟨h1, h2, h3, h4, h5⟩ := hintent r hr
    exact ⟨h1, h2, h3, h4, h5⟩
  · obtain ⟨row, hrow, hmay⟩ := hproof id st hs
    subst hrec
    exact ⟨row, hrow, hmay⟩

/-- An event that passes the tests is committed. -/
theorem persistExecutionEventTx_of_accepted {ctx : StoreContext} {w : EventWrite} {db : Database}
    (h : EventAccepted ctx w db) : ∃ db', persistExecutionEventTx ctx w db = .ok (.commit db' ()) := by
  obtain ⟨hp, hpd, hid, hseq, hlink, hnew, hop, hintent, hproof⟩ := h
  obtain ⟨recovery, hses⟩ := updateEventSession_eq w { db with
    journal := db.journal ++ [w.event]
    executorRequests := w.requestsIntended db.executorRequests }
  obtain ⟨db₂, hupd⟩ : ∃ db₂, updateEventOperation w (updateEventSession w { db with
      journal := db.journal ++ [w.event]
      executorRequests := w.requestsIntended db.executorRequests }) = .ok db₂ :=
    updateEventOperation_of_mem (by rw [hses]; exact hop)
  obtain ⟨records, hrec⟩ := updateEventOperation_eq_ok hupd
  rw [hses] at hrec
  refine ⟨refreshExecutionRetention ctx w.createdAt { refreshExecutionCounts db₂ with
    executorRequests := w.requestsProven (refreshExecutionCounts db₂).executorRequests }, ?_⟩
  simp only [persistExecutionEventTx, Checked.bind_eq_ok, Checked.require_eq_ok,
    applyRequestIntent_eq_ok, applyRequestProof_eq_ok]
  refine ⟨(), ⟨hp, hpd⟩, (), hid, (), ⟨hseq, hlink⟩, (), hnew, (), hop, _,
    ⟨fun r hr => ?_, rfl⟩, db₂, hupd, _, ⟨fun id st hs => ?_, rfl⟩, rfl⟩
  · obtain ⟨h1, h2, h3, h4, h5⟩ := hintent r hr
    exact ⟨h1, h2, h3, h4, h5⟩
  · obtain ⟨row, hrow, hmay⟩ := hproof id st hs
    subst hrec
    exact ⟨row, hrow, hmay⟩

/-! ## The call -/

theorem persistExecutionEvent_eq_ok {ctx : StoreContext} {w : EventWrite} {db db' : Database}
    {u : Unit} (h : db.persistExecutionEvent ctx w = (.ok u, db')) :
    EventCommitted ctx w db db' := by
  unfold Database.persistExecutionEvent Database.transact at h
  split at h
  · rename_i db₁ _ heq
    obtain ⟨-, rfl⟩ := Prod.mk.inj h
    exact persistExecutionEventTx_eq_commit heq
  · rename_i heq
    exfalso
    simp only [persistExecutionEventTx, Checked.bind_eq_ok] at heq
    obtain ⟨_, -, _, -, _, -, _, -, _, -, _, -, _, -, _, -, heq⟩ := heq
    cases heq
  · simp at h

theorem persistExecutionEvent_of_accepted {ctx : StoreContext} {w : EventWrite} {db : Database}
    (h : EventAccepted ctx w db) :
    ∃ db', db.persistExecutionEvent ctx w = (.ok (), db') ∧ EventCommitted ctx w db db' := by
  obtain ⟨db', hdb'⟩ := persistExecutionEventTx_of_accepted h
  refine ⟨db', ?_, persistExecutionEventTx_eq_commit hdb'⟩
  unfold Database.persistExecutionEvent Database.transact
  rw [hdb']

/-- The rows after the call are the old ones or those of a committed event. -/
theorem persistExecutionEvent_cases (ctx : StoreContext) (w : EventWrite) (db : Database) :
    (db.persistExecutionEvent ctx w).2 = db ∨
      EventCommitted ctx w db (db.persistExecutionEvent ctx w).2 := by
  rcases db.transact_cases (persistExecutionEventTx ctx w) with h | ⟨u, h⟩
  · exact .inl h
  · exact .inr (persistExecutionEventTx_eq_commit h)

end Zemo
