import Zemo.Coordinator.Programs

set_option autoImplicit false

/-! # The programs that dispatch keep what is kept

The rules for a start, a rollback and a recovery. A look at the preconditions that returns shows
that the operation is observable in its direction, so its intent may be written; the intent makes
the request ready, and nothing that happens before its dispatch takes that away. -/

namespace Zemo

variable {χ α : Type} {env : Env χ} {forward : Bool} {P : World χ → Prop}

/-! ## Preconditions -/

theorem relativePath_valid {policy : FilePolicy} {path : RelPath} {key : PathKey}
    (h : relativePath policy path = .ok key) : validRelative path = true := by
  simp only [relativePath, Checked.bind_eq_ok, Checked.require_eq_ok] at h
  obtain ⟨_, hvalid, -⟩ := h
  exact hvalid

theorem expectFile_expected {policy : FilePolicy} {tree : Tree} {path : RelPath}
    {expected : Option FileFingerprint} {message : String} {found : FileFingerprint}
    (h : expectFile policy tree path expected message = .ok found) : expected ≠ none := by
  simp only [expectFile, Checked.bind_eq_ok, Checked.orError_eq_ok] at h
  obtain ⟨_, -, _, -, e, he, -⟩ := h
  simp [he]

/-- An operation whose preconditions hold is observable. -/
theorem revalidateOperation_observable {policy : FilePolicy} {tree : Tree}
    {op : ExecutionOperation} {current : Option FileFingerprint}
    (h : revalidateOperation policy tree op = .ok current) : op.Observable .forward := by
  unfold revalidateOperation at h
  split at h
  · rename_i hkind
    simp only [Checked.bind_eq_ok, revalidateRemoval, sourceKey, Checked.orError_eq_ok] at h
    obtain ⟨_, ⟨_, ⟨source, hs, hpath⟩, -⟩, -⟩ := h
    exact ⟨fun _ => ⟨source, hs, relativePath_valid hpath⟩, fun hk => absurd hkind hk,
      fun hk => by rw [hkind] at hk; cases hk⟩
  · rename_i hremove
    simp only [Checked.bind_eq_ok] at h
    obtain ⟨_, hdest, _, -, h⟩ := h
    split at h
    · rename_i hcreate
      exact ⟨fun hk => absurd hcreate hk, fun _ => relativePath_valid hdest,
        fun hk => by rw [hcreate] at hk; cases hk⟩
    · simp only [Checked.bind_eq_ok, Checked.orError_eq_ok] at h
      obtain ⟨source, hs, _, hpath, _, hfile, -⟩ := h
      exact ⟨fun _ => ⟨source, hs, relativePath_valid hpath⟩, fun _ => relativePath_valid hdest,
        fun _ => expectFile_expected hfile⟩

/-- An operation whose rollback preconditions hold is observable in that direction. -/
theorem revalidateRollback_observable {policy : FilePolicy} {tree : Tree}
    {op : ExecutionOperation} {current : Option FileFingerprint}
    (h : revalidateRollback policy tree op = .ok current) : op.Observable .rollback := by
  unfold revalidateRollback at h
  split at h
  · rename_i hkind
    simp only [Checked.bind_eq_ok, Checked.orError_eq_ok] at h
    obtain ⟨source, hs, _, hpath, -⟩ := h
    exact ⟨fun _ => ⟨source, hs, relativePath_valid hpath⟩, fun hk => absurd hkind hk,
      fun hk => by rw [hkind] at hk; cases hk⟩
  · rename_i hremove
    simp only [Checked.bind_eq_ok] at h
    obtain ⟨_, hdest, h⟩ := h
    split at h
    · rename_i hcreate
      exact ⟨fun hk => absurd hcreate hk, fun _ => relativePath_valid hdest,
        fun hk => by rw [hcreate] at hk; cases hk⟩
    · simp only [Checked.bind_eq_ok, Checked.orError_eq_ok] at h
      obtain ⟨_, hfile, source, hs, _, hpath, -⟩ := h
      exact ⟨fun _ => ⟨source, hs, relativePath_valid hpath⟩, fun _ => relativePath_valid hdest,
        fun _ => expectFile_expected hfile⟩

/-- What a look that returned an answer says. -/
def Looked {β : Type} (p : Prop) : Except ApplicationError β → Prop
  | .ok _ => p
  | .error _ => True

theorem attemptLook_triple {β : Type} (h : Still P) {f : Outside → Except ApplicationError β}
    {p : Prop} (hf : ∀ outside b, f outside = .ok b → p) :
    Prog.Triple P (Prog.attempt (look f)) (fun r world => P world ∧ Looked p r) P := by
  have hlook : Prog.Triple P (look f) (fun _ world => P world ∧ p) P :=
    effect_triple h.stable (fun world b hw heq => ⟨hw, hf world.outside b heq⟩) (fun _ hw => hw)
      fun _ hw => hw
  refine hlook.attempt.weaken (fun _ hw => hw) (fun r world hw => ?_) fun _ hw => hw
  cases r with
  | ok b => exact hw
  | error e => exact ⟨hw, trivial⟩

theorem lookAgain_triple (h : Still P) {op : ExecutionOperation} :
    Prog.Triple P (lookAgain env op)
      (fun r world => P world ∧ Looked (op.Observable .forward) r) P :=
  attemptLook_triple h fun _ _ => revalidateOperation_observable

theorem lookRollback_triple (h : Still P) {op : ExecutionOperation} :
    Prog.Triple P (lookRollback env op)
      (fun r world => P world ∧ Looked (op.Observable .rollback) r) P :=
  attemptLook_triple h fun _ _ => revalidateRollback_observable

/-- A pure fact in a precondition may be assumed. -/
theorem triple_of_pure {P : World χ → Prop} {p : Prop} {m : Coordinator χ α}
    {Q : α → World χ → Prop} {S : World χ → Prop} (h : p → Prog.Triple P m Q S) :
    Prog.Triple (fun world => P world ∧ p) m Q S :=
  fun world hw => h hw.2 world hw.1

theorem attemptLook_keeps {β : Type} (h : Still P) {f : Outside → Except ApplicationError β} :
    Prog.Keeps P (Prog.attempt (look f)) :=
  .attempt (look_keeps h.stable)

/-! ## Sessions and requests -/

theorem openSession_keeps (h : Quiet env P) {detail : ExecutionDetail}
    {authorization : SessionAuthorization} : Prog.Keeps P (openSession env detail authorization) :=
  .bind (ask_keeps h.toStill) fun _ => .bind (write_keeps h fun _ => by simp) fun _ => .pure

theorem recordExecutorResponse_keeps (h : Quiet env P)
    {request : ExecutorRequestIdentity} {dispatch : ExecutorDispatchResult} :
    Prog.Keeps P (recordExecutorResponse env request dispatch) :=
  .bind .reads fun _ => .bind (write_keeps h fun _ => by simp) fun _ => .pure

theorem transitionProof_keeps (h : Quiet env P) {request : ExecutorRequestIdentity}
    {proofState : ExecutorRequestState} : Prog.Keeps P (transitionProof env request proofState) :=
  .bind .reads fun _ => .bind (write_keeps h fun _ => by simp) fun _ => .pure

/-- A prepared request is about the operation and the direction it was asked for. -/
theorem prepareOperation_triple (h : Still P) {session : ExecutorSessionIdentity}
    {operationId : OperationStepId} {direction : ExecutorRequestDirection} :
    Prog.Triple P (prepareOperation env session operationId direction)
      (fun request world => P world ∧
        (request.operationId = operationId ∧ request.direction = direction)) P := by
  refine .bind (ask_keeps h).triple fun reserved => ?_
  refine .lift (fun world request hw heq => ⟨hw, ?_⟩) fun _ _ hw _ => hw
  simp only [raise_eq_ok, prepareExecutorRequestIdentity] at heq
  split at heq
  · simp at heq
  · obtain rfl := Except.ok.inj heq
    exact ⟨rfl, rfl⟩

theorem recoverLater_within (h : Kept env forward P) {executionId : ExecutionId}
    {direction : ExecutorRequestDirection} {op : ExecutionOperation} {code detail : String}
    {audit : Option ExecutorAttemptAudit} {cursor : JournalCursor} :
    Prog.Within P Synced
      (recoverLater env executionId direction op code detail audit cursor (α := α)) :=
  .bind (markRecoveryRequired_within h) fun _ => .fail

theorem recoverRequestLater_within (h : Kept env forward P) {executionId : ExecutionId}
    {op : ExecutionOperation} {request : ExecutorRequestIdentity} {code detail : String}
    {audit : Option ExecutorAttemptAudit} {cursor : JournalCursor} :
    Prog.Within P Synced
      (recoverRequestLater env executionId op request code detail audit cursor (α := α)) :=
  .bind (transitionProof_keeps h.synced).within fun _ => recoverLater_within h

/-! ## Starting -/

theorem failTerminal_within (h : Kept env forward P) {executionId : ExecutionId}
    {op : ExecutionOperation} {category : ExecutionFailureCategory} {code message : String}
    {audit : Option ExecutorAttemptAudit} {cursor : JournalCursor} :
    Prog.Within P Synced (failTerminal env executionId op category code message audit cursor) :=
  .bind (failOperation_within h) fun _ => readDetail_within h

theorem acceptNotApplied_within (h : Kept env forward P) {executionId : ExecutionId}
    {op : ExecutionOperation} {request : ExecutorRequestIdentity} {code detail : String}
    {audit : Option ExecutorAttemptAudit} {cursor : JournalCursor} :
    Prog.Within P Synced (acceptNotApplied env executionId op request code detail audit cursor) :=
  .bind (transitionProof_keeps h.synced).within fun _ => .bind (failTerminal_within h) fun _ => .pure

theorem afterNotApplied_within (h : Kept env forward P) {executionId : ExecutionId}
    {op : ExecutionOperation} {request : ExecutorRequestIdentity} {code detail : String}
    {audit : Option ExecutorAttemptAudit} {cursor : JournalCursor}
    {looked : Except ApplicationError (Option FileFingerprint)} :
    Prog.Within P Synced (afterNotApplied env executionId op request code detail audit cursor looked) := by
  unfold afterNotApplied
  split
  · exact acceptNotApplied_within h
  · exact recoverRequestLater_within h
  · exact recoverLater_within h

theorem afterSuccess_within (h : Kept env forward P) {executionId : ExecutionId}
    {op : ExecutionOperation} {request : ExecutorRequestIdentity} {audit : ExecutorAttemptAudit}
    {cursor : JournalCursor} {looked : Except ApplicationError (Option FileFingerprint)} :
    Prog.Within P Synced (afterSuccess env executionId op request audit cursor looked) := by
  unfold afterSuccess
  split
  · exact .bind (persistPlain_within h ⟨rfl, by simp [appliedDraft], by simp [appliedDraft], _, rfl,
      by simp⟩) fun _ => .bind (readDetail_within h) fun _ => .pure
  · exact .bind (transitionProof_keeps h.synced).within fun _ =>
      .bind (persistPlain_within h ⟨rfl, by simp [postconditionFailedDraft],
        by simp [postconditionFailedDraft], _, rfl, by simp⟩) fun _ => .fail

theorem afterOutcome_within (h : Kept env forward P) {executionId : ExecutionId}
    {op : ExecutionOperation} {request : ExecutorRequestIdentity} {cursor : JournalCursor}
    {outcome : ExecutorOutcome} :
    Prog.Within P Synced (afterOutcome env executionId op request cursor outcome) := by
  unfold afterOutcome
  split
  · exact .bind (attemptLook_keeps h.synced.toStill).within fun _ => afterSuccess_within h
  · exact .bind (attemptLook_keeps h.synced.toStill).within fun _ => afterNotApplied_within h
  · exact .bind (attemptLook_keeps h.synced.toStill).within fun _ => afterNotApplied_within h
  · exact recoverLater_within h

theorem afterDispatch_within (h : Kept env forward P) {executionId : ExecutionId}
    {op : ExecutionOperation} {request : ExecutorRequestIdentity} {cursor : JournalCursor}
    {dispatch : Except ApplicationError ExecutorDispatchResult} :
    Prog.Within P Synced (afterDispatch env executionId op request cursor dispatch) := by
  unfold afterDispatch
  split
  · exact recoverRequestLater_within h
  · exact .bind (recordExecutorResponse_keeps h.synced).within fun _ => afterOutcome_within h

/-- A ready request is dispatched, or is not; in either case the world is synced afterwards. -/
theorem attemptDispatch_triple (h : Kept env forward P) {request : ExecutorRequestIdentity}
    {binding : CommittedJournalEventBinding} :
    Prog.Triple
      (fun world => P world ∧ Ready env.store.codec request binding world.db world.external)
      (Prog.attempt (dispatchPrepared env request binding))
      (fun _ world => P world ∧ Synced world) P :=
  (dispatchPrepared_triple h (Ready.inert_of h.toInert)).attempt.forget.weaken (fun _ hw => hw)
    (fun r _ hw => by cases r <;> exact hw) fun _ hw => hw

/-- The operation is stored and can be looked at in this direction. -/
theorem observable_stored {op : ExecutionOperation} {operations : List ExecutionOperation}
    {direction : ExecutorRequestDirection} {db : Database} (hmem : op ∈ operations)
    (hknown : OpsKnown operations db) (hobs : op.Observable direction) :
    ∃ later ∈ db.operations, later.id = op.id ∧ later.Observable direction := by
  obtain ⟨later, hlater, hcont⟩ := hknown op hmem
  exact ⟨later, hlater, hcont.id, hobs.of_continues hcont⟩

section Start

variable {operations : List ExecutionOperation}

theorem attemptOperation_within (h : Kept env true P)
    (hops : ∀ world, P world → OpsKnown operations world.db) {executionId : ExecutionId}
    {session : ExecutorSessionIdentity} {op : ExecutionOperation} {cursor : JournalCursor}
    {current : Option FileFingerprint} (hmem : op ∈ operations) (hobs : op.Observable .forward) :
    Prog.Within P Synced (attemptOperation env executionId session op cursor current) := by
  refine Prog.Triple.bind (persistPlain_within h ⟨rfl, by simp [preconditionsDraft],
    by simp [preconditionsDraft], _, rfl, by simp⟩).triple fun cursor => ?_
  refine .bind (prepareOperation_triple h.synced.toStill).forget fun request =>
    triple_of_pure fun hreq => ?_
  refine .bind (persistRequestIntent_triple h (fun _ => rfl) fun world hw => ?_) fun r => ?_
  · rw [hreq.1, hreq.2]
    exact observable_stored hmem (hops world hw) hobs
  · exact .bind (attemptDispatch_triple h) fun _ => (afterDispatch_within h).triple

theorem applyScheduledOperation_within (h : Kept env true P)
    (hops : ∀ world, P world → OpsKnown operations world.db) {executionId : ExecutionId}
    {session : ExecutorSessionIdentity} {op : ExecutionOperation} {cursor : JournalCursor}
    (hmem : op ∈ operations) :
    Prog.Within P Synced (applyScheduledOperation env executionId session op cursor) := by
  refine Prog.Triple.bind (lookAgain_triple h.synced.toStill).forget fun looked => ?_
  refine triple_of_pure fun hlooked => Prog.Within.triple ?_
  unfold applyLooked
  split
  · exact attemptOperation_within h hops hmem hlooked
  · exact .bind (failTerminal_within h) fun _ => .pure

theorem runSchedule_within (h : Kept env true P)
    (hops : ∀ world, P world → OpsKnown operations world.db) {executionId : ExecutionId}
    {session : ExecutorSessionIdentity} {group : List OperationStepId} :
    ∀ {rest : List ExecutionOperation} {s : Schedule}, (∀ op ∈ rest, op ∈ operations) →
      Prog.Within P Synced (runSchedule env executionId session group rest s) := by
  intro rest
  induction rest with
  | nil => exact fun _ => .pure
  | cons op rest ih =>
      intro s hrest
      refine .bind (query_keeps h.synced.stable).within fun control => ?_
      split
      · exact .bind (finishExecution_within h (by split <;> simp)) fun _ =>
          .bind (readDetail_within h) fun _ => .pure
      · split
        · exact .bind (failTerminal_within h) fun _ => .pure
        · refine .bind (applyScheduledOperation_within h hops (hrest op (List.mem_cons_self ..)))
            fun outcome => ?_
          cases outcome with
          | applied cursor => exact ih fun op' hop' => hrest op' (List.mem_cons_of_mem _ hop')
          | terminal detail => exact .pure

end Start

theorem verifyStoredConsentAttestation_keeps (h : Quiet env P)
    {detail : ExecutionDetail} : Prog.Keeps P (verifyStoredConsentAttestation env detail) := by
  refine .bind .orFail fun _ => .bind .orFail fun _ => .bind .orFail fun _ =>
    .bind .orFail fun _ => .bind .orFail fun _ => ?_
  split
  · exact .pure
  · exact .bind (invalidateUnstartedConsent_keeps h) fun _ => .fail

theorem consumeApproval_triple (h : Quiet env P) {detail : ExecutionDetail} {time : Int} :
    Prog.Triple P (consumeApproval env detail time)
      (fun r world => P world ∧ r.2 = world.db.rows) P := by
  refine .bind (Prog.Keeps.ensure (I := P)).triple fun _ => ?_
  refine .bind (revalidateConsentContext_keeps h).triple fun _ => ?_
  refine .bind (verifyStoredConsentAttestation_keeps h).triple fun _ => ?_
  refine .bind (Prog.Keeps.orFail (I := P)).triple fun _ => ?_
  refine .bind (requireInTime_keeps h).triple fun _ => ?_
  refine .bind (Prog.Keeps.orFail (I := P)).triple fun _ => ?_
  refine .bind (Prog.Keeps.orFail (I := P)).triple fun _ => ?_
  refine .bind (Prog.Keeps.orFail (I := P)).triple fun _ => ?_
  refine .bind (Prog.Keeps.ensure (I := P)).triple fun _ => ?_
  refine .bind (openSession_keeps h).triple fun _ => ?_
  refine .bind (write_keeps h fun _ => by simp).triple fun _ => ?_
  exact .bind (readDetail_triple h.toStill) fun _ => .pure fun _ hw => hw

theorem afterSchedule_within (h : Kept env forward P) {executionId : ExecutionId}
    {ended : ScheduleEnd} : Prog.Within P Synced (afterSchedule env executionId ended) := by
  unfold afterSchedule
  split
  · exact .bind (readDetail_within h) fun _ =>
      .bind (finishExecution_within h (by split <;> simp)) fun _ => readDetail_within h
  · exact .pure

theorem startExecution_keeps (h : Kept env true P) {time : Int} :
    Prog.Keeps P (startExecution env time) := by
  refine .bind requireApplyGate_keeps fun _ => .bind (readDetail_keeps h.toStill) fun _ =>
    .bind .ensure fun _ => .bind (requireValidDatabaseJournal_keeps h.toStill) fun _ =>
    afterSynchronize_keeps h (.bind .ensure fun _ => ?_)
  refine Prog.Triple.bind (consumeApproval_triple h.synced).forget fun r => ?_
  have hr := h.and_preserved (OpsKnown.preserved env.store r.2.operations)
  refine Prog.Triple.weaken (Prog.Within.triple
    (I := fun world => P world ∧ OpsKnown r.2.operations world.db) (J := Synced) ?_)
    (fun _ hw => ⟨⟨hw.1.1, .of_rows hw.2⟩, hw.1.2⟩) (fun _ _ hw => ⟨hw.1.1, hw.2⟩) fun _ hw => hw.1
  exact .bind (journalCursor_within hr) fun _ =>
    .bind (runSchedule_within hr (fun _ hw => hw.2) fun op hop => (List.mem_filter.1 hop).1)
      fun _ => afterSchedule_within hr

/-! ## Rolling back -/

theorem blockRollback_within (h : Kept env forward P) {executionId : ExecutionId}
    {op : ExecutionOperation} {details : List (String × PayloadValue)}
    {code message ending : String} {cursor : JournalCursor} :
    Prog.Within P Synced (blockRollback env executionId op details code message ending cursor) :=
  .bind (persistPlain_within h ⟨rfl, by simp [rollbackBlockedDraft], by simp [rollbackBlockedDraft],
    _, rfl, by simp⟩) fun _ =>
  .bind (finishExecution_within h (by simp)) fun _ => .bind (readDetail_within h) fun _ => .pure

theorem afterNotRolledBack_within (h : Kept env forward P) {executionId : ExecutionId}
    {op : ExecutionOperation} {request : ExecutorRequestIdentity} {code detail : String}
    {audit : Option ExecutorAttemptAudit} {cursor : JournalCursor}
    {looked : Except ApplicationError (Option FileFingerprint)} :
    Prog.Within P Synced
      (afterNotRolledBack env executionId op request code detail audit cursor looked) := by
  unfold afterNotRolledBack
  split
  · exact .bind (transitionProof_keeps h.synced).within fun _ => blockRollback_within h
  · exact recoverRequestLater_within h
  · exact recoverLater_within h

theorem afterRollbackSuccess_within (h : Kept env forward P) {executionId : ExecutionId}
    {op : ExecutionOperation} {request : ExecutorRequestIdentity} {audit : ExecutorAttemptAudit}
    {cursor : JournalCursor} {looked : Except ApplicationError Unit} :
    Prog.Within P Synced (afterRollbackSuccess env executionId op request audit cursor looked) := by
  unfold afterRollbackSuccess
  split
  · exact .bind (persistPlain_within h ⟨rfl, by simp [rolledBackDraft], by simp [rolledBackDraft],
      _, rfl, by simp⟩) fun _ => .bind (readDetail_within h) fun _ => .pure
  · exact recoverRequestLater_within h

theorem afterRollbackOutcome_within (h : Kept env forward P) {executionId : ExecutionId}
    {op : ExecutionOperation} {request : ExecutorRequestIdentity} {cursor : JournalCursor}
    {outcome : ExecutorOutcome} :
    Prog.Within P Synced (afterRollbackOutcome env executionId op request cursor outcome) := by
  unfold afterRollbackOutcome
  split
  · exact .bind (attemptLook_keeps h.synced.toStill).within fun _ => afterRollbackSuccess_within h
  · exact .bind (attemptLook_keeps h.synced.toStill).within fun _ => afterNotRolledBack_within h
  · exact .bind (attemptLook_keeps h.synced.toStill).within fun _ => afterNotRolledBack_within h
  · exact recoverLater_within h

theorem afterRollbackDispatch_within (h : Kept env forward P) {executionId : ExecutionId}
    {op : ExecutionOperation} {request : ExecutorRequestIdentity} {cursor : JournalCursor}
    {dispatch : Except ApplicationError ExecutorDispatchResult} :
    Prog.Within P Synced (afterRollbackDispatch env executionId op request cursor dispatch) := by
  unfold afterRollbackDispatch
  split
  · exact recoverRequestLater_within h
  · exact .bind (recordExecutorResponse_keeps h.synced).within fun _ => afterRollbackOutcome_within h

/-- The look before the dispatch leaves a ready request ready. -/
theorem dispatchRollback_triple (h : Kept env forward P) {executionId : ExecutionId}
    {op : ExecutionOperation} {request : ExecutorRequestIdentity}
    {binding : CommittedJournalEventBinding} {cursor : JournalCursor}
    {looked : Except ApplicationError (Option FileFingerprint)} :
    Prog.Triple
      (fun world => P world ∧ Ready env.store.codec request binding world.db world.external)
      (dispatchRollback env executionId op request binding cursor looked)
      (fun _ world => P world ∧ Synced world) P := by
  unfold dispatchRollback
  split
  · exact .bind (attemptDispatch_triple h) fun _ => (afterRollbackDispatch_within h).triple
  · exact Prog.Triple.weaken (Prog.Within.triple (.bind (transitionProof_keeps h.synced).within
      fun _ => blockRollback_within h)) (fun _ hw => ⟨hw.1, hw.2.synced⟩) (fun _ _ hw => hw)
      fun _ hw => hw

theorem look_ready_triple {β : Type} (h : Inert P) {request : ExecutorRequestIdentity}
    {binding : CommittedJournalEventBinding} {f : Outside → Except ApplicationError β} :
    Prog.Triple
      (fun world => P world ∧ Ready env.store.codec request binding world.db world.external)
      (Prog.attempt (look f))
      (fun _ world => P world ∧ Ready env.store.codec request binding world.db world.external) P :=
  (Prog.Keeps.attempt (look_keeps (Ready.inert_of h))).triple.weaken (fun _ hw => hw)
    (fun _ _ hw => hw) fun _ hw => hw.1

section Rollback

variable {operations : List ExecutionOperation}

theorem attemptRollback_within (h : Kept env forward P)
    (hops : ∀ world, P world → OpsKnown operations world.db) {executionId : ExecutionId}
    {session : ExecutorSessionIdentity} {op : ExecutionOperation} {cursor : JournalCursor}
    {preflight : Option FileFingerprint} (hmem : op ∈ operations)
    (hobs : op.Observable .rollback) :
    Prog.Within P Synced (attemptRollback env executionId session op cursor preflight) := by
  refine Prog.Triple.bind (persistPlain_within h ⟨rfl, by simp [rollbackPreconditionsDraft],
    by simp [rollbackPreconditionsDraft], _, rfl, by simp⟩).triple fun cursor => ?_
  refine .bind (prepareOperation_triple h.synced.toStill).forget fun request =>
    triple_of_pure fun hreq => ?_
  refine .bind (persistRequestIntent_triple h (fun hd => ?_) fun world hw => ?_) fun r => ?_
  · rw [hreq.2] at hd
    cases hd
  · rw [hreq.1, hreq.2]
    exact observable_stored hmem (hops world hw) hobs
  · exact .bind (look_ready_triple h.toInert) fun _ => dispatchRollback_triple h

theorem rollbackLooked_within (h : Kept env forward P)
    (hops : ∀ world, P world → OpsKnown operations world.db) {executionId : ExecutionId}
    {session : ExecutorSessionIdentity} {op : ExecutionOperation} {cursor : JournalCursor}
    {looked : Except ApplicationError (Option FileFingerprint)} (hmem : op ∈ operations)
    (hlooked : Looked (op.Observable .rollback) looked) :
    Prog.Within P Synced (rollbackLooked env executionId session op cursor looked) := by
  unfold rollbackLooked
  split
  · exact attemptRollback_within h hops hmem hlooked
  · exact blockRollback_within h

theorem runRollback_within (h : Kept env forward P)
    (hops : ∀ world, P world → OpsKnown operations world.db) {executionId : ExecutionId}
    {session : ExecutorSessionIdentity} :
    ∀ {rest : List ExecutionOperation} {cursor : JournalCursor}, (∀ op ∈ rest, op ∈ operations) →
      Prog.Within P Synced (runRollback env executionId session rest cursor) := by
  intro rest
  induction rest with
  | nil => exact fun _ => .pure
  | cons op rest ih =>
      intro cursor hrest
      have hop := hrest op (List.mem_cons_self ..)
      refine .bind ?_ fun outcome => ?_
      · exact Prog.Triple.bind (lookRollback_triple h.synced.toStill).forget fun looked =>
          triple_of_pure fun hlooked => (rollbackLooked_within h hops hop hlooked).triple
      · cases outcome with
        | rolledBack cursor => exact ih fun op' hop' => hrest op' (List.mem_cons_of_mem _ hop')
        | terminal detail => exact .pure

end Rollback

theorem completeRollback_within (h : Kept env forward P) {executionId : ExecutionId}
    {message : String} {cursor : JournalCursor} :
    Prog.Within P Synced (completeRollback env executionId message cursor) :=
  .bind (finishExecution_within h (by simp)) fun _ => readDetail_within h

theorem afterRollback_within (h : Kept env forward P) {executionId : ExecutionId}
    {ended : RollbackEnd} : Prog.Within P Synced (afterRollback env executionId ended) := by
  unfold afterRollback
  split
  · exact completeRollback_within h
  · exact .pure

theorem rollbackOperations_within (h : Kept env forward P) {detail : ExecutionDetail}
    {rollback : List ExecutionOperation} {cursor : JournalCursor}
    (hops : ∀ world, P world → OpsKnown rollback world.db) :
    Prog.Within P Synced (rollbackOperations env detail rollback cursor) :=
  .bind (.bind (readJournal_within h) fun _ => .bind .lift fun _ => .pure) fun _ =>
  .bind .ensure fun _ =>
  .bind (openSession_keeps h.synced).within fun _ =>
  .bind (runRollback_within h hops fun _ hop => hop) fun _ => afterRollback_within h

theorem rollbackExecution_keeps (h : Kept env forward P) :
    Prog.Keeps P (rollbackExecution env) := by
  refine .bind requireApplyGate_keeps fun _ => afterReadDetail_keeps h fun detail hd => ?_
  refine .bind .ensure fun _ => .bind (requireValidDatabaseJournal_keeps hd.toStill) fun _ =>
    afterSynchronize_keeps hd <| .bind (look_keeps hd.synced.stable).within fun _ =>
    .bind (journalCursor_within hd) fun _ => ?_
  dsimp only
  split
  · exact completeRollback_within hd
  · refine rollbackOperations_within hd fun world hw op hop => hw.2 op ?_
    exact List.mem_reverse.1 (List.mem_filter.1 hop).1

/-! ## Recovering -/

/-- What recovery records is a plain event. -/
theorem triage_plain {hashes : Hashes} {executionId : ExecutionId} {request : ExecutorRequestRow}
    {op : ExecutionOperation} {sessions : List ExecutorSessionIdentity}
    {events : List OperationJournalEvent} {verdict : RecoveryVerdict}
    (h : triage hashes executionId request op sessions events = .decided verdict) :
    ∀ draft ∈ verdict.draft, draft.Plain := by
  intro draft hdraft
  unfold triage at h
  split at h
  · obtain rfl := RecoveryTriage.decided.inj h
    obtain rfl := Option.some.inj hdraft
    exact ⟨rfl, by simp [ambiguousDraft, observedDraft], by simp [ambiguousDraft, observedDraft],
      _, rfl, by simp⟩
  · have hquiet : verdict.draft = none := by
      simp only at h
      split at h
      · obtain rfl := RecoveryTriage.decided.inj h
        rfl
      · split at h <;> cases h <;> rfl
    rw [hquiet] at hdraft
    cases hdraft

theorem observedVerdict_plain {executionId : ExecutionId} {request : ExecutorRequestRow}
    {op : ExecutionOperation} {observation : RecoveryObservation} :
    ∀ draft ∈ (observedVerdict executionId request op observation).draft, draft.Plain := by
  intro draft hdraft
  have hambiguous : ∀ {code reason : String},
      (ambiguousDraft executionId request op code reason).Plain :=
    ⟨rfl, by simp [ambiguousDraft, observedDraft], by simp [ambiguousDraft, observedDraft],
      _, rfl, by simp⟩
  unfold observedVerdict at hdraft
  split at hdraft
  · split at hdraft
    · obtain rfl := Option.some.inj hdraft
      exact hambiguous
    · obtain rfl := Option.some.inj hdraft
      exact ⟨rfl, by simp [notStartedDraft, observedDraft], by simp [notStartedDraft, observedDraft],
        _, rfl, by simp⟩
  · split at hdraft
    · obtain rfl := Option.some.inj hdraft
      exact hambiguous
    · obtain rfl := Option.some.inj hdraft
      exact ⟨rfl, by simp [provenAppliedDraft, observedDraft],
        by simp [provenAppliedDraft, observedDraft], _, rfl, by simp⟩
  · obtain rfl := Option.some.inj hdraft
    exact hambiguous

theorem recordVerdict_within (h : Kept env forward P) {draft : Option EventDraft}
    {cursor : JournalCursor} (hplain : ∀ d ∈ draft, d.Plain) :
    Prog.Within P Synced (recordVerdict env draft cursor) := by
  unfold recordVerdict
  split
  · exact persistPlain_within h (hplain _ rfl)
  · exact .pure

theorem reconcileOne_within (h : Kept env forward P) {executionId : ExecutionId}
    {request : ExecutorRequestRow} {op : ExecutionOperation}
    {sessions : List ExecutorSessionIdentity} {events : List OperationJournalEvent}
    {cursor : JournalCursor} :
    Prog.Within P Synced
      (reconcileOneInterruptedRequest env executionId request op sessions events cursor) := by
  have hsettle : Prog.Triple (fun world => P world ∧ Synced world)
      (settleVerdict env executionId request op
        (triage env.hashes executionId request op sessions events))
      (fun verdict world => (P world ∧ Synced world) ∧ ∀ draft ∈ verdict.draft, draft.Plain)
      P := by
    cases htriage : triage env.hashes executionId request op sessions events with
    | decided verdict => exact .pure fun _ hw => ⟨hw, triage_plain htriage⟩
    | observe =>
        exact .bind (look_keeps h.synced.stable).within.triple fun _ =>
          .pure fun _ hw => ⟨hw, observedVerdict_plain⟩
  refine Prog.Triple.bind hsettle fun verdict => triple_of_pure fun hplain => ?_
  exact (Prog.Within.bind (recordVerdict_within h hplain) fun _ => .pure).triple

theorem reconcileRequests_within (h : Kept env forward P) {executionId : ExecutionId}
    {operations : List ExecutionOperation} {sessions : List ExecutorSessionIdentity}
    {events : List OperationJournalEvent} :
    ∀ {requests : List ExecutorRequestRow} {cursor : JournalCursor} {items : RecoveryItems},
      Prog.Within P Synced
        (reconcileRequests env executionId operations sessions events requests cursor items) := by
  intro requests
  induction requests with
  | nil => exact .pure
  | cons request rest ih =>
      exact .bind .orFail fun _ => .bind (reconcileOne_within h) fun _ => ih

theorem recoverExecution_keeps (h : Kept env forward P) : Prog.Keeps P (recoverExecution env) :=
  .bind requireMutationsUnlocked_keeps fun _ =>
  .bind (readDetail_keeps h.toStill) fun _ =>
  .bind .ensure fun _ =>
  .bind (requireValidDatabaseJournal_keeps h.toStill) fun _ =>
  afterSynchronize_keeps h <|
  .bind (look_keeps h.synced.stable).within fun _ =>
  .bind (journalCursor_within h) fun _ =>
  .bind (readJournal_within h) fun _ =>
  .bind (query_keeps h.synced.stable).within fun _ =>
  .bind (query_keeps h.synced.stable).within fun _ =>
  .bind (reconcileRequests_within h) fun _ =>
  .bind (query_keeps h.synced.stable).within fun _ =>
  .bind .reads fun _ =>
  .bind (write_keeps h.synced fun _ => by simp).within fun _ =>
  .bind (readDetail_within h) fun _ => .bind .reads fun _ => .pure

end Zemo
