import Zemo.Coordinator.Kept
import Zemo.Coordinator.Recover

set_option autoImplicit false

/-! # Every program keeps what is kept

One rule for each program of the coordinator, from the commit of a single event up to the calls of
the application. The rule of `persist_request_intent` is where a request becomes ready: when the
program returns, the intent is in both journals. -/

namespace Zemo

variable {χ α : Type} {env : Env χ} {forward : Bool} {P : World χ → Prop}

/-! ## One event -/

/-- Written in a world with `P₀`, the event leads to one with `P`. -/
structure Writes (env : Env χ) (w : EventWrite) (P₀ P : World χ → Prop) : Prop where
  stable : Stable P₀
  before : ∀ world, P₀ world → P world
  step : ∀ world, P₀ world → P (world.written env (.event w))

theorem Kept.writes (h : Kept env forward P) {w : EventWrite}
    (hpermitted : ∀ world, P world → Permitted forward world.db w) :
    Writes env w (fun world => P world ∧ Synced world) P where
  stable := (h.toInert.and Synced.inert).stable
  before _ hw := hw.1
  step world hw := h.write (.event w) world
    (fun ew heq => by cases heq; exact ⟨hpermitted world hw.1, hw.2⟩) hw.1

section Event

variable {P₀ : World χ → Prop}

/-- An event that was written was committed. -/
theorem writeEvent_triple {w : EventWrite} {R : Database → Prop} (h : Writes env w P₀ P)
    (hcommit : ∀ world db', P₀ world → EventCommitted env.store w world.db db' → R db') :
    Prog.Triple P₀ (write env (.event w)) (fun _ world => P world ∧ R world.db) P := by
  refine effect_triple h.stable (fun world a hw heq => ⟨h.step world hw, ?_⟩) h.step h.before
  refine hcommit world _ hw ?_
  simp only [raise_eq_ok, DbCall.run, yes] at heq
  show EventCommitted env.store w world.db (world.db.persistExecutionEvent env.store w).2
  rcases hrun : world.db.persistExecutionEvent env.store w with ⟨u | u, db'⟩
  · rw [hrun] at heq
    simp [Except.map] at heq
  · exact persistExecutionEvent_eq_ok hrun

/-- An event that is committed is in both journals when the program returns. -/
theorem commitEvent_triple (h : Quiet env P) (hi : Inert P) {message : String} {draft : EventDraft}
    {cursor : JournalCursor} {R : CommittedJournalEventBinding → Database → Prop}
    (hinert : ∀ binding, Inert fun world : World χ => R binding world.db)
    (hwrites : ∀ now createdAt,
      Writes env (draft.write (draft.event env.store.codec cursor now) createdAt) P₀ P)
    (hcommit : ∀ now createdAt world db', P₀ world →
      EventCommitted env.store (draft.write (draft.event env.store.codec cursor now) createdAt)
        world.db db' →
      R (draft.event env.store.codec cursor now).binding db') :
    Prog.Triple P₀ (commitEvent env message draft cursor)
      (fun r world => (P world ∧ R r.1 world.db ∧ r.2 =
        { sequence := cursor.sequence + 1, previous := some r.1.databaseEventDigest })
        ∧ Synced world) P := by
  have hbefore : ∀ world, P₀ world → P world := (hwrites 0 "").before
  refine .bind (.reads (Q := fun _ => P₀) fun _ hw => hw) fun now => ?_
  refine .bind (.reads (Q := fun _ => P₀) fun _ hw => hw) fun createdAt => ?_
  refine .bind (writeEvent_triple (hwrites now createdAt) (hcommit now createdAt))
    fun _ => ?_
  have hboth : Inert fun world : World χ =>
      P world ∧ R (draft.event env.store.codec cursor now).binding world.db :=
    hi.and (hinert _)
  refine .bind (Prog.Triple.weaken (synchronizeExternalJournal_triple hboth).attempt
    (fun _ hw => hw) (fun _ _ hw => hw) fun _ hw => hw.1) fun synchronized => ?_
  cases synchronized with
  | ok u =>
      refine .bind (Q := fun _ world => (P world ∧
        R (draft.event env.store.codec cursor now).binding world.db) ∧ Synced world)
        (.pure fun _ hw => hw) fun _ => .pure fun _ hw => ?_
      exact ⟨⟨hw.1.1, hw.1.2, rfl⟩, hw.2⟩
  | error e =>
      refine .bind (Q := fun _ _ => False) ?_ fun _ => fun _ hw => hw.elim
      refine .bind (Q := fun _ => P) ?_ fun _ => .fail fun _ hw => hw
      exact (Prog.Keeps.attempt (write_keeps h fun _ => by simp)).triple.weaken
        (fun _ hw => hw.1) (fun _ _ hw => hw) fun _ hw => hw

end Event

theorem commitEvent_within (h : Kept env forward P) {message : String} {draft : EventDraft}
    {cursor : JournalCursor}
    (hpermitted : ∀ now createdAt world, P world →
      Permitted forward world.db (draft.write (draft.event env.store.codec cursor now) createdAt)) :
    Prog.Within P Synced (commitEvent env message draft cursor) :=
  (commitEvent_triple h.quiet h.toInert (R := fun _ _ => True)
    (fun _ => .ofRows (I := fun _ => True) fun _ _ _ hw => hw)
    (fun now createdAt => h.writes (hpermitted now createdAt))
    fun _ _ _ _ _ _ => trivial).weaken (fun _ hw => hw) (fun _ _ hw => ⟨hw.1.1, hw.2⟩)
      fun _ hw => hw

theorem requireValidDatabaseJournal_within (h : Kept env forward P) :
    Prog.Within P Synced (requireValidDatabaseJournal env) :=
  (requireValidDatabaseJournal_keeps h.synced.toStill).within

theorem persistEvent_within (h : Kept env forward P) {draft : EventDraft} {cursor : JournalCursor}
    (hpermitted : ∀ now createdAt world, P world →
      Permitted forward world.db (draft.write (draft.event env.store.codec cursor now) createdAt)) :
    Prog.Within P Synced (persistEvent env draft cursor) :=
  .bind (requireValidDatabaseJournal_within h) fun _ =>
    .bind (commitEvent_within h hpermitted) fun _ => .pure

/-! ## What an event makes of the rows -/

/-- What every transaction that commits the event makes of the rows holds when its program
    returns, and so does what it says of the binding. -/
theorem commitEvent_rows {message : String} {draft : EventDraft} {cursor : JournalCursor}
    {S : Database → Prop} {R : CommittedJournalEventBinding → Database → Prop}
    (hs : Inert fun w : World χ => S w.db) (h : ∀ binding, Inert fun w : World χ => R binding w.db)
    (hcommit : ∀ now createdAt db db', JournalInvariant env.store.codec db → S db →
      EventCommitted env.store (draft.write (draft.event env.store.codec cursor now) createdAt)
        db db' → R (draft.event env.store.codec cursor now).binding db') :
    Prog.Triple (fun w => JournalInvariant env.store.codec w.db ∧ S w.db)
      (commitEvent env message draft cursor)
      (fun r w => (JournalInvariant env.store.codec w.db ∧ R r.1 w.db ∧ r.2 =
        { sequence := cursor.sequence + 1, previous := some r.1.databaseEventDigest }) ∧ Synced w)
      (fun w => JournalInvariant env.store.codec w.db) := by
  have hinert := Inert.ofPreserved (χ := χ) (JournalInvariant.preserved env.store)
  have hquiet : Quiet env fun w : World χ => JournalInvariant env.store.codec w.db :=
    { toStill := hinert.toStill
      quiet := fun call w _ hw => JournalInvariant.preserved env.store call w.db hw }
  refine commitEvent_triple hquiet hinert h (fun now createdAt => ?_)
    fun now createdAt w db' hw hc => hcommit now createdAt w.db db' hw.1 hw.2 hc
  exact ⟨(hinert.and hs).stable, fun _ hw => hw.1,
    fun w hw => JournalInvariant.preserved env.store _ w.db hw.1⟩

theorem persistEvent_rows {draft : EventDraft} {cursor : JournalCursor} {S R : Database → Prop}
    (hs : Inert fun w : World χ => S w.db) (h : Inert fun w : World χ => R w.db)
    (hcommit : ∀ now createdAt db db', S db →
      EventCommitted env.store (draft.write (draft.event env.store.codec cursor now) createdAt)
        db db' → R db') :
    Prog.Triple (fun w => JournalInvariant env.store.codec w.db ∧ S w.db)
      (persistEvent env draft cursor)
      (fun _ w => JournalInvariant env.store.codec w.db ∧ R w.db)
      (fun w => JournalInvariant env.store.codec w.db) := by
  have hboth := (Inert.ofPreserved (χ := χ) (JournalInvariant.preserved env.store)).and hs
  refine .bind (Prog.Triple.weaken (requireValidDatabaseJournal_keeps hboth.toStill).triple
    (fun _ hw => hw) (fun _ _ hw => hw) fun _ hw => hw.1) fun _ => ?_
  refine .bind (commitEvent_rows (R := fun _ => R) hs (fun _ => h)
    fun now createdAt db db' _ => hcommit now createdAt db db') fun _ => ?_
  exact .pure fun _ hw => ⟨hw.1.1, hw.1.2.1⟩

/-- The draft of a plain event. -/
structure EventDraft.Plain (draft : EventDraft) : Prop where
  noRequest : draft.requestIntent = none
  noApproval : draft.kind ≠ .approvedDurable
  noIntent : draft.kind ≠ .intentDurable
  started : ∃ s, draft.sessionStatus = some s ∧ s ≠ .awaitingConfirmation ∧ s ≠ .approved

theorem EventDraft.Plain.permitted {draft : EventDraft} (h : draft.Plain) {codec : Codec}
    {cursor : JournalCursor} {now : Int} {createdAt : String} {db : Database} :
    Permitted forward db (draft.write (draft.event codec cursor now) createdAt) :=
  .plain ⟨h.noRequest, h.noApproval, h.noIntent, h.started⟩

theorem persistPlain_within (h : Kept env forward P) {draft : EventDraft} {cursor : JournalCursor}
    (hplain : draft.Plain) : Prog.Within P Synced (persistEvent env draft cursor) :=
  persistEvent_within h fun _ _ _ _ => hplain.permitted

/-! ## One intent -/

/-- What an intent leaves in the rows when it was committed. -/
theorem intentStored_of_committed {kind : JournalEventKind} {payload : Payload}
    {request : ExecutorRequestIdentity} {session : ExecutorSessionIdentity}
    {cursor : JournalCursor} {now : Int} {createdAt : String} {db db' : Database}
    (hkind : kind = request.direction.intentKind) (hrows : JournalInvariant env.store.codec db)
    (h : EventCommitted env.store ((intentDraft kind payload request session).write
      ((intentDraft kind payload request session).event env.store.codec cursor now) createdAt)
      db db') :
    IntentStored env.store.codec request
      ((intentDraft kind payload request session).event env.store.codec cursor now).binding db' := by
  have hadmitted := h.accepted.intent request rfl
  have hnew : request.toRow
      ((intentDraft kind payload request session).event env.store.codec cursor now) createdAt
        ∈ db'.executorRequests := by
    rw [h.effect.requests]
    exact List.mem_append_right _ (List.mem_singleton_self _)
  refine ⟨?_, ⟨_, ?_, rfl, hkind, rfl, rfl⟩, ⟨_, hnew, rfl, rfl, rfl, rfl⟩, ?_⟩
  · exact (hrows.committed h).chained
  · rw [h.effect.journal]
    exact List.mem_append_right _ (List.mem_singleton_self _)
  · intro row hrow hop hdir hid
    rw [h.effect.requests] at hrow
    rcases List.mem_append.1 hrow with hrow | hrow
    · -- the guard saw every earlier request of the operation in this direction
      have hprior : row ∈ db.priorRequests request.operationId request.direction := by
        rw [Database.priorRequests, List.mem_filter]
        exact ⟨hrow, by simpa using ⟨hop, hdir⟩⟩
      obtain ⟨hforward, hproven⟩ := hadmitted.admitted
      refine ⟨?_, hproven row hprior⟩
      cases hd : request.direction with
      | forward =>
          rw [hforward hd] at hprior
          simp at hprior
      | rollback => rfl
    · obtain rfl := List.mem_singleton.1 hrow
      exact absurd rfl hid

theorem IntentStored.inert {request : ExecutorRequestIdentity}
    {binding : CommittedJournalEventBinding} :
    Inert fun world : World χ => IntentStored env.store.codec request binding world.db :=
  .ofRows fun _ _ _ h => ⟨h.chained, h.event, h.row, h.others⟩

/-- A request whose intent was persisted is ready. -/
theorem persistRequestIntent_triple (h : Kept env forward P) {kind : JournalEventKind}
    {payload : Payload} {request : ExecutorRequestIdentity} {session : ExecutorSessionIdentity}
    {cursor : JournalCursor}
    (hforward : request.direction = .forward → forward = true)
    (hop : ∀ world, P world → ∃ op ∈ world.db.operations,
      op.id = request.operationId ∧ op.Observable request.direction) :
    Prog.Triple (fun world => P world ∧ Synced world)
      (persistRequestIntent env kind payload request session cursor)
      (fun r world => P world ∧ Ready env.store.codec request r.1 world.db world.external) P := by
  refine .bind (requireValidDatabaseJournal_within h).triple fun _ => ?_
  refine .bind (.ensure
    (Q := fun _ world => (P world ∧ Synced world) ∧ kind = request.direction.intentKind)
    (fun _ hw hc => ⟨hw, hc.2⟩) fun _ hw _ => hw.1) fun _ => ?_
  by_cases hkind : kind = request.direction.intentKind
  · have hpermitted : ∀ (now : Int) (createdAt : String) (world : World χ), P world →
        Permitted forward world.db ((intentDraft kind payload request session).write
          ((intentDraft kind payload request session).event env.store.codec cursor now)
            createdAt) :=
      fun _ _ world hw => .intent request rfl hkind rfl hforward (hop world hw)
    refine (commitEvent_triple (R := IntentStored env.store.codec request) h.quiet h.toInert
      (fun _ => IntentStored.inert) (fun now createdAt => h.writes (hpermitted now createdAt))
      (fun _ _ world _ hw hcommit => intentStored_of_committed hkind (h.rows world hw.1) hcommit)).weaken
      (fun _ hw => hw.1) (fun r world hw => ?_) fun _ hw => hw
    obtain ⟨⟨hp, hstored, -⟩, hsynced⟩ := hw
    exact ⟨hp, { hsynced with toIntentStored := hstored }⟩
  · exact fun _ hw => absurd hw.2 hkind

theorem Ready.inert_of (h : Inert P) {request : ExecutorRequestIdentity}
    {binding : CommittedJournalEventBinding} :
    Stable fun world : World χ =>
      P world ∧ Ready env.store.codec request binding world.db world.external := by
  intro world turn rest hw
  refine ⟨h.stable world turn rest hw.1, ?_⟩
  have hstored : IntentStored env.store.codec request binding (world.meet turn).db :=
    IntentStored.inert.stable world turn rest hw.2.toIntentStored
  refine { toIntentStored := hstored, appended := ?_, flushed := hw.2.flushed }
  exact hw.2.appended.trans (world.meet_journal turn).symm

/-! ## Endings -/

theorem finishExecution_within (h : Kept env forward P) {executionId : ExecutionId}
    {status : OrganizationExecutionStatus} {message : String} {cursor : JournalCursor}
    (hs : status ≠ .awaitingConfirmation ∧ status ≠ .approved) :
    Prog.Within P Synced (finishExecution env executionId status message cursor) :=
  persistPlain_within h ⟨rfl, by simp, by simp, status, rfl, hs⟩

theorem addExecutionError_keeps (h : Quiet env P) {op : ExecutionOperation}
    {category : ExecutionFailureCategory} {code userMessage : String}
    {technicalDetails : Option String} :
    Prog.Keeps P (addExecutionError env op category code userMessage technicalDetails) :=
  .bind .reads fun _ => .bind (write_keeps h fun _ => by simp) fun _ => .pure

theorem failOperation_within (h : Kept env forward P) {executionId : ExecutionId}
    {op : ExecutionOperation} {category : ExecutionFailureCategory} {code message : String}
    {audit : Option ExecutorAttemptAudit} {cursor : JournalCursor} :
    Prog.Within P Synced (failOperation env executionId op category code message audit cursor) :=
  .bind (persistPlain_within h ⟨rfl, by simp, by simp, _, rfl, by simp⟩) fun _ =>
    .bind (finishExecution_within h (by simp)) fun _ => (addExecutionError_keeps h.synced).within

theorem markRecoveryRequired_within (h : Kept env forward P) {executionId : ExecutionId}
    {direction : ExecutorRequestDirection} {op : ExecutionOperation} {code detail : String}
    {audit : Option ExecutorAttemptAudit} {cursor : JournalCursor} :
    Prog.Within P Synced (markRecoveryRequired env executionId direction op code detail audit cursor) :=
  .bind (persistPlain_within h ⟨rfl, by simp, by simp, _, rfl, by simp⟩) fun _ =>
    (addExecutionError_keeps h.synced).within

/-! ## Reading the execution -/

/-- The detail that is read is what is stored. -/
theorem readDetail_triple (h : Still P) :
    Prog.Triple P readDetail (fun detail world => P world ∧ detail = world.db.rows) P := by
  refine effect_triple h.stable (fun world detail hw heq => ⟨hw, ?_⟩) (fun _ hw => hw)
    fun _ hw => hw
  rw [raise_eq_ok] at heq
  exact (Database.executionDetail_eq_ok heq).2

theorem OpsKnown.of_rows {detail : ExecutionDetail} {db : Database} (h : detail = db.rows) :
    OpsKnown detail.operations db := by
  rw [h]
  exact .refl db

/-- After the operations were read, `P` may be used together with `OpsKnown`. -/
theorem afterReadDetail_keeps (h : Kept env forward P) {f : ExecutionDetail → Coordinator χ α}
    (hf : ∀ detail, Kept env forward (fun world => P world ∧ OpsKnown detail.operations world.db) →
      Prog.Keeps (fun world => P world ∧ OpsKnown detail.operations world.db) (f detail)) :
    Prog.Keeps P (readDetail >>= f) := by
  refine Prog.Triple.keeps (.bind (readDetail_triple h.toStill) fun detail => ?_)
  exact (hf detail (h.and_preserved (OpsKnown.preserved env.store _))).triple.weaken
    (fun _ hw => ⟨hw.1, .of_rows hw.2⟩) (fun _ _ hw => hw.1) fun _ hw => hw.1

/-! ## Consent -/

theorem readDetail_within (h : Kept env forward P) : Prog.Within P Synced readDetail :=
  (readDetail_keeps h.synced.toStill).within

theorem readJournal_within (h : Kept env forward P) : Prog.Within P Synced readJournal :=
  (readJournal_keeps h.synced.toStill).within

theorem journalCursor_within (h : Kept env forward P) : Prog.Within P Synced journalCursor :=
  (journalCursor_keeps h.synced.toStill).within

/-- What follows a synchronization runs in a synced world. -/
theorem afterSynchronize_keeps (h : Kept env forward P) {allowSingleAppend : Bool}
    {f : Unit → Coordinator χ α} (hf : Prog.Within P Synced (f ())) :
    Prog.Keeps P (synchronizeExternalJournal allowSingleAppend >>= f) :=
  .bind_within (synchronizeExternalJournal_triple h.toInert) fun _ => hf

theorem invalidateUnstartedConsent_keeps (h : Quiet env P) {reason : String} :
    Prog.Keeps P (invalidateUnstartedConsent env reason) :=
  .bind .reads fun _ => .bind (write_keeps h fun _ => by simp) fun _ => .ensure

theorem revalidateConsentContext_keeps (h : Quiet env P) {detail : ExecutionDetail} :
    Prog.Keeps P (revalidateConsentContextOrInvalidate env detail) := by
  refine .bind (look_keeps h.stable) fun found => ?_
  unfold acceptContext
  split
  · exact .pure
  · exact .fail
  · exact .bind (invalidateUnstartedConsent_keeps h) fun _ => .fail

theorem requireInTime_keeps (h : Quiet env P) {now expires : Int} :
    Prog.Keeps P (requireInTime env now expires) := by
  unfold requireInTime
  split
  · exact .bind (write_keeps h fun _ => by simp) fun _ => .fail
  · exact .pure

theorem createExecutionConsentChallenge_keeps (h : Kept env forward P) {phrase : Option String}
    {nonce : Bytes32} {issued : Int} :
    Prog.Keeps P (createExecutionConsentChallenge env phrase nonce issued) :=
  .bind requireApplyGate_keeps fun _ =>
  .bind (readDetail_keeps h.toStill) fun _ =>
  .bind (requireValidDatabaseJournal_keeps h.toStill) fun _ =>
  .bind (synchronizeExternalJournal_keeps h.toInert) fun _ =>
  .bind .ensure fun _ =>
  .bind .ensure fun _ =>
  .bind (revalidateConsentContext_keeps h.quiet) fun _ =>
  .bind .orFail fun _ =>
  .bind (write_keeps h.quiet fun _ => by simp) fun _ =>
  .bind (readDetail_keeps h.toStill) fun _ => .pure

theorem recordApproval_within (h : Kept env forward P) {detail : ExecutionDetail}
    {challenge : ExecutionConsentChallenge} {events : List OperationJournalEvent} :
    Prog.Within P Synced (recordApproval env detail challenge events) := by
  unfold recordApproval
  split
  · exact .bind (persistEvent_within h fun _ _ _ _ => .approval rfl rfl rfl rfl) fun _ => .pure
  · exact .bind .ensure fun _ => (synchronizeExternalJournal_keeps h.toInert.synced).within

theorem finalizeExecutionConsent_keeps (h : Kept env forward P)
    {challenge : ExecutionConsentChallenge} {attestedAt : Int} :
    Prog.Keeps P (finalizeExecutionConsent env challenge attestedAt) :=
  .bind requireApplyGate_keeps fun _ =>
  .bind (requireValidDatabaseJournal_keeps h.toStill) fun _ =>
  afterSynchronize_keeps h <|
  .bind .ensure fun _ =>
  .bind (requireInTime_keeps h.synced).within fun _ =>
  .bind (readDetail_within h) fun _ =>
  .bind .ensure fun _ =>
  .bind (revalidateConsentContext_keeps h.synced).within fun _ =>
  .bind .orFail fun _ =>
  .bind .ensure fun _ =>
  .bind (write_keeps h.synced fun _ => by simp).within fun _ =>
  .bind (readDetail_within h) fun _ =>
  .bind (readJournal_within h) fun _ =>
  .bind (recordApproval_within h) fun _ => readDetail_within h

theorem discardExecutionConsentChallenge_keeps (h : Quiet env P)
    {challenge : ExecutionConsentChallenge} :
    Prog.Keeps P (discardExecutionConsentChallenge env challenge) :=
  .bind requireMutationsUnlocked_keeps fun _ =>
  .bind .ensure fun _ =>
  .bind .reads fun _ => write_keeps h fun _ => by simp

theorem pauseExecution_keeps (h : Quiet env P) : Prog.Keeps P (pauseExecution env) :=
  .bind requireMutationsUnlocked_keeps fun _ => write_keeps h fun _ => by simp

theorem invalidateCancelled_keeps (h : Quiet env P) :
    Prog.Keeps P (invalidateCancelled env) :=
  .bind .reads fun _ => .bind (write_keeps h fun _ => by simp) fun _ => .pure

theorem finishCancelled_within (h : Kept env forward P) {detail : ExecutionDetail} :
    Prog.Within P Synced (finishCancelled env detail) :=
  .bind (journalCursor_within h) fun _ =>
  .bind (finishExecution_within h (by simp)) fun _ => .pure

theorem cancelIn_keeps (h : Kept env forward P) {detail : ExecutionDetail} :
    Prog.Keeps P (cancelIn env detail) := by
  unfold cancelIn
  split
  · exact write_keeps h.quiet fun _ => by simp
  · exact .bind (invalidateCancelled_keeps h.quiet) fun _ =>
      .bind .reads fun _ => write_keeps h.quiet fun _ => by simp
  · exact afterSynchronize_keeps h <|
      .bind (invalidateCancelled_keeps h.synced).within fun _ => finishCancelled_within h
  · exact afterSynchronize_keeps h (finishCancelled_within h)
  · exact .pure

theorem cancelExecution_keeps (h : Kept env forward P) : Prog.Keeps P (cancelExecution env) :=
  .bind requireMutationsUnlocked_keeps fun _ =>
  .bind (readDetail_keeps h.toStill) fun _ => cancelIn_keeps h

end Zemo
