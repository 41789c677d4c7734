import Zemo.Lib.Run
import Zemo.Persistence.EventSpec
import Zemo.Persistence.Prepared

set_option autoImplicit false

/-! # The retention row of an execution

An event, a recovery assessment and a cancellation each end with a refresh of the retention row. The
refresh reads the row as it was before, so the step that finalizes an execution with nothing to roll
back leaves a row that still says that the execution is not finalized. -/

namespace Zemo

variable {ctx : StoreContext} {db db' : Database}

/-! ## The row and the session -/

/-- The retention row agrees with the session. -/
structure RetentionAgrees (db : Database) : Prop where
  reason : db.retention.cleanupEligibilityReason = "execution_not_finalized" →
    db.retention.finalizedAt = none
  eligible : db.retention.cleanupEligibleAt.isSome ↔
    db.retention.finalizedAt.isSome ∧ db.session.recoveryState.isActive = false
      ∧ db.session.rollbackAvailable = false

theorem Prepared.retentionAgrees (h : Prepared db) : RetentionAgrees db := by
  obtain ⟨detail, h⟩ := h
  simp only [persistPreparedExecution, Checked.bind_eq_ok, Checked.require_eq_ok] at h
  obtain ⟨_, -, _, -, h⟩ := h
  obtain rfl := Except.ok.inj h
  exact ⟨fun _ => rfl, by simp [preparedRows]⟩

/-! ## The refresh -/

/-- What a refresh makes of a row depends on the columns of the session and the time. -/
structure Refresh where
  status : OrganizationExecutionStatus
  active : Bool
  available : Bool
  updatedAt : String
deriving DecidableEq

/-- The session or the old row gives the refresh what it needs: something keeps the evidence, or
    the execution is not over, or it was over before and the end of the retention is known. -/
def Refresh.Suits (ctx : StoreContext) (r : Refresh) (old : RetentionRow) : Prop :=
  r.active = true ∨ r.available = true ∨
    if old.finalizedAt.isSome then
      old.minimumRetainUntil.isSome ∨ (ctx.retainUntil r.updatedAt).isSome
    else r.status.isTerminal = false

/-- The refresh of a session. -/
def Database.refresh (db : Database) (updatedAt : String) : Refresh where
  status := db.session.status
  active := db.session.recoveryState.isActive
  available := db.session.rollbackAvailable
  updatedAt := updatedAt

/-- **A refresh leaves a row that agrees with the session exactly if it is suited.** -/
theorem refreshExecutionRetention_agrees_iff (updatedAt : String) :
    RetentionAgrees (refreshExecutionRetention ctx updatedAt db) ↔
      (db.refresh updatedAt).Suits ctx db.retention := by
  have hparts (db : Database) : RetentionAgrees db ↔
      (db.retention.cleanupEligibilityReason = "execution_not_finalized" →
        db.retention.finalizedAt = none) ∧
      (db.retention.cleanupEligibleAt.isSome ↔ db.retention.finalizedAt.isSome
        ∧ db.session.recoveryState.isActive = false ∧ db.session.rollbackAvailable = false) :=
    ⟨fun h => ⟨h.reason, h.eligible⟩, fun h => ⟨h.1, h.2⟩⟩
  rw [hparts]
  simp only [refreshExecutionRetention, Refresh.Suits, Database.refresh]
  cases db.session.recoveryState.isActive with
  | true => simp
  | false =>
    cases db.session.rollbackAvailable with
    | true => simp
    | false =>
      cases db.retention.finalizedAt with
      | none =>
        -- the reason tells the old column, the new one is set if the status is a last one
        cases db.session.status.isTerminal with
        | true => simp
        | false => simp
      | some finalizedAt => simp

/-! ## The calls that refresh the row -/

inductive RetentionCall where
  | event (w : EventWrite)
  | assessment (r : AssessmentRecord)
  | cancelUnstarted (completedAt : String)

/-- Nothing of the execution was begun. -/
def Database.Unstarted (db : Database) : Prop :=
  (db.session.status = .awaitingConfirmation ∨ db.session.status = .approved
      ∨ db.session.status = .paused)
    ∧ db.session.summary.applied = 0
    ∧ ¬∃ op ∈ db.operations, op.status = .running ∨ op.status.isApplied = true

namespace RetentionCall

/-- The rows after a call. -/
def step (ctx : StoreContext) : RetentionCall → Database → Database
  | .event w, db => (db.persistExecutionEvent ctx w).2
  | .assessment r, db => (db.persistRecoveryAssessment ctx r).2
  | .cancelUnstarted completedAt, db => (db.cancelUnstartedExecution ctx completedAt).2

/-- The tests of a call; a call that does not pass them changes nothing. -/
def Accepted (ctx : StoreContext) (db : Database) : RetentionCall → Prop
  | .event w => EventAccepted ctx w db
  | .assessment _ => True
  | .cancelUnstarted _ => db.Unstarted

/-- The refresh at the end of a call, told from the call and the rows before it. -/
def refresh (db : Database) : RetentionCall → Refresh
  | .event w =>
      { status := w.sessionStatus.getD db.session.status
        active := !w.sessionStatus.any (·.isTerminal) && db.session.recoveryState.isActive
        available := rollbackAvailableFor (w.sessionStatus.getD db.session.status)
          (w.operationsAfter db.operations)
        updatedAt := w.createdAt }
  | .assessment r =>
      { status := r.state.sessionStatus
        active := r.state.isActive
        available := rollbackAvailableFor r.state.sessionStatus db.operations
        updatedAt := r.assessedAt }
  | .cancelUnstarted completedAt =>
      { status := .cancelled
        active := db.session.recoveryState.isActive
        available := false
        updatedAt := completedAt }

/-- A call that passes its tests ends with a suited refresh. -/
def Keeps (ctx : StoreContext) (call : RetentionCall) (db : Database) : Prop :=
  call.Accepted ctx db → (call.refresh db).Suits ctx db.retention

end RetentionCall

/-! ## What a call does to the row -/

/-- The event transaction ends with a refresh of the old row. -/
theorem persistExecutionEventTx_refreshes {w : EventWrite} {u : Unit}
    (h : persistExecutionEventTx ctx w db = .ok (.commit db' u)) :
    ∃ db₁, db' = refreshExecutionRetention ctx w.createdAt db₁ ∧
      db₁.retention = db.retention := by
  simp only [persistExecutionEventTx, Checked.bind_eq_ok, Checked.require_eq_ok,
    applyRequestIntent_eq_ok, applyRequestProof_eq_ok] at h
  obtain ⟨_, -, _, -, _, -, _, -, _, -, _, ⟨-, rfl⟩, db₂, hupd, _, ⟨-, rfl⟩, h⟩ := h
  obtain ⟨rfl, -⟩ := TxEnd.commit.inj (Except.ok.inj h)
  obtain ⟨records, hrec⟩ := updateEventOperation_eq_ok hupd
  obtain ⟨recovery, hses⟩ := updateEventSession_eq w { db with
    journal := db.journal ++ [w.event]
    executorRequests := w.requestsIntended db.executorRequests }
  rw [hses] at hrec
  subst hrec
  exact ⟨_, rfl, rfl⟩

theorem recoveryState_afterEvent (terminal : Bool) (state : ExecutionRecoveryState) :
    (if terminal then ExecutionRecoveryState.recoveryNotRequired else state).isActive =
      (!terminal && state.isActive) := by
  cases terminal with
  | true => rfl
  | false => rfl

/-- **What a call does.** One that passes its tests refreshes the old row; any other changes
nothing. -/
theorem RetentionCall.step_cases (ctx : StoreContext) (call : RetentionCall) (db : Database) :
    (call.Accepted ctx db ∧ ∃ db₁ updatedAt,
      call.step ctx db = refreshExecutionRetention ctx updatedAt db₁ ∧
      db₁.retention = db.retention ∧ db₁.refresh updatedAt = call.refresh db) ∨
    (¬call.Accepted ctx db ∧ call.step ctx db = db) := by
  cases call with
  | event w =>
    by_cases haccepted : EventAccepted ctx w db
    · obtain ⟨db', hdb'⟩ := persistExecutionEventTx_of_accepted haccepted
      obtain ⟨db₁, rfl, hretention⟩ := persistExecutionEventTx_refreshes hdb'
      have heffect := (persistExecutionEventTx_eq_commit hdb').effect
      refine .inl ⟨haccepted, db₁, w.createdAt, ?_, hretention, ?_⟩
      · simp only [RetentionCall.step, Database.persistExecutionEvent, Database.transact, hdb']
      · have hstatus : db₁.session.status = _ := heffect.status
        have hrecovery : db₁.session.recoveryState = _ := heffect.recoveryState
        have havailable : db₁.session.rollbackAvailable = _ := heffect.rollbackAvailable
        simp only [Database.refresh, RetentionCall.refresh, hstatus, hrecovery, havailable,
          recoveryState_afterEvent]
    · rcases persistExecutionEvent_cases ctx w db with hsame | hcommitted
      · exact .inr ⟨haccepted, hsame⟩
      · exact absurd hcommitted.accepted haccepted
  | assessment r => exact .inl ⟨trivial, _, r.assessedAt, rfl, rfl, rfl⟩
  | cancelUnstarted completedAt =>
    have hstep : (RetentionCall.cancelUnstarted completedAt).step ctx db =
        (db.cancelUnstartedExecution ctx completedAt).2 := rfl
    rw [Database.cancelUnstartedExecution, Database.transact] at hstep
    by_cases hunstarted : db.Unstarted
    · have hguard := hunstarted
      rw [Database.Unstarted] at hguard
      rw [if_pos hguard] at hstep
      exact .inl ⟨hunstarted, _, completedAt, hstep, rfl, rfl⟩
    · have hguard := hunstarted
      rw [Database.Unstarted] at hguard
      rw [if_neg hguard] at hstep
      exact .inr ⟨hunstarted, hstep⟩

/-- A step from a row that agrees with the session. -/
theorem RetentionCall.step_agrees_iff (ctx : StoreContext) (call : RetentionCall) (db : Database)
    (h : RetentionAgrees db) : RetentionAgrees (call.step ctx db) ↔ call.Keeps ctx db := by
  rcases call.step_cases ctx db with
    ⟨haccepted, db₁, updatedAt, hstep, hretention, hrefresh⟩ | ⟨hrefused, hstep⟩
  · rw [hstep, refreshExecutionRetention_agrees_iff, hretention, hrefresh]
    exact ⟨fun hsuits _ => hsuits, fun hkeeps => hkeeps haccepted⟩
  · rw [hstep]
    exact ⟨fun _ haccepted => absurd haccepted hrefused, fun _ => h⟩

/-! ## Runs -/

/-- **Over the life of an execution the retention row agrees with the session after every event,
assessment and cancellation, exactly if each of those that pass their tests ends with a suited
refresh.** -/
theorem retention_agrees_iff (ctx : StoreContext) (h : Prepared db) (calls : List RetentionCall) :
    History.Each (fun before call =>
        RetentionAgrees (Run.after (RetentionCall.step ctx) db (before ++ [call]))) calls ↔
      History.Each (fun before call =>
        call.Keeps ctx (Run.after (RetentionCall.step ctx) db before)) calls :=
  Run.invariant_iff (fun call db => call.step_agrees_iff ctx db) calls h.retentionAgrees

/-- An assessment of an execution that was not finalized keeps the row in agreement. -/
theorem retention_agrees_iff_assessed :
    Prepared sampleRows ∧
    History.Each (fun before call =>
        RetentionAgrees (Run.after (RetentionCall.step sampleContext) sampleRows
          (before ++ [call])))
      [.assessment
        { state := .recoveryRequired, verifiedAppliedItems := [], verifiedNotStartedItems := []
          ambiguousItems := [], assessedAt := "t1" }] := by
  refine ⟨sampleRows_prepared, (retention_agrees_iff sampleContext sampleRows_prepared _).2 ?_⟩
  rw [← List.nil_append [_], History.each_concat_iff]
  exact ⟨History.each_nil, fun _ => .inl rfl⟩

/-- A prepared execution is cancelled: it is over, and its row says that it is not. -/
theorem cancelled_not_finalized :
    Prepared sampleRows ∧
    ∃ row, ((RetentionCall.cancelUnstarted "t1").step
        { sampleContext with retainUntil := fun _ => some "t30" } sampleRows).retention = row ∧
      row.finalizedAt = some "t1" ∧
      row.cleanupEligibilityReason = "execution_not_finalized" ∧
      row.cleanupEligibleAt = none ∧
      ¬RetentionAgrees ((RetentionCall.cancelUnstarted "t1").step
        { sampleContext with retainUntil := fun _ => some "t30" } sampleRows) :=
  ⟨sampleRows_prepared, _, rfl, by decide, by decide, by decide,
    fun h => absurd (h.reason (by decide)) (by decide)⟩

end Zemo
