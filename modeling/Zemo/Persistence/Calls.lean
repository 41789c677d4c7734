import Zemo.Persistence.EventSpec
import Zemo.Persistence.Prepared

set_option autoImplicit false

/-! # The calls that write

Every call of the application that changes stored rows, as data. A property of the rows that all of
these calls preserve holds whatever the application does with them, in whatever order and wherever
it is stopped. `DbFrame` says what a call leaves alone when it is not an event. -/

namespace Zemo

inductive DbCall where
  | issueConsentChallenge (nonce : Bytes32) (issuedAtUnixMs expiresAtUnixMs : Int)
  | attestConsent (nonce : Bytes32) (issuedAtUnixMs expiresAtUnixMs : Int)
      (attestationMac : Bytes32) (attestedAtUnixMs : Int)
  | clearConsentChallenge (nonce : Bytes32) (issuedAtUnixMs expiresAtUnixMs nowUnixMs : Int)
  | expireConsent (nowUnixMs : Int)
  | invalidateConsent (reason : String) (nowUnixMs : Int)
  | consumeConsent (nonce : Bytes32) (issuedAtUnixMs expiresAtUnixMs : Int)
      (attestationMac : Bytes32) (consumedAtUnixMs : Int)
  | event (w : EventWrite)
  | requestProof (requestId : String) (proofState : ExecutorRequestState) (recordedAt : String)
  | response (r : ResponseRecord)
  | executorSession (identity : ExecutorSessionIdentity)
  | recoveryRequired (message : String)
  | interrupted
  | control (pause cancel : Bool)
  | cancelUnstarted (completedAt : String)
  | assessment (r : AssessmentRecord)
  | executionError (row : ExecutionErrorRow)

/-- The answer of a call as a truth value; a call that answers with nothing answers `true`. -/
def yes {α : Type} (result : Except PersistenceError α × Database) :
    Except PersistenceError Bool × Database :=
  (result.1.map fun _ => true, result.2)

@[simp] theorem yes_snd {α : Type} (result : Except PersistenceError α × Database) :
    (yes result).2 = result.2 := rfl

def DbCall.run (ctx : StoreContext) (call : DbCall) (db : Database) :
    Except PersistenceError Bool × Database :=
  match call with
  | .issueConsentChallenge nonce issued expires =>
      if expires ≤ issued then (.error .invalidExecution, db)
      else yes (db.transact (issueConsentTx nonce issued expires))
  | .attestConsent nonce issued expires mac at_ =>
      yes (db.transact (attestConsentTx nonce issued expires mac at_))
  | .clearConsentChallenge nonce issued expires now =>
      db.clearExecutionConsentChallenge nonce issued expires now
  | .expireConsent now => db.expireExecutionConsent now
  | .invalidateConsent reason now => db.invalidateExecutionConsent reason now
  | .consumeConsent nonce issued expires mac at_ =>
      yes (db.transact (consumeConsentTx nonce issued expires mac at_))
  | .event w => yes (db.persistExecutionEvent ctx w)
  | .requestProof requestId proofState at_ =>
      yes (db.transitionExecutorRequestProof requestId proofState at_)
  | .response r => yes (db.recordExecutorResponse r)
  | .executorSession identity => yes (db.persistExecutorSession identity)
  | .recoveryRequired message => db.markExecutionRecoveryRequired message
  | .interrupted => yes db.markInterruptedForRecovery
  | .control pause cancel => db.setExecutionControl pause cancel
  | .cancelUnstarted at_ => db.cancelUnstartedExecution ctx at_
  | .assessment r => yes (db.persistRecoveryAssessment ctx r)
  | .executionError row => yes (db.addExecutionError row)

/-- The rows after a call. -/
def DbCall.step (ctx : StoreContext) (call : DbCall) (db : Database) : Database :=
  (call.run ctx db).2

/-- What the intent of a request fixes of its row. -/
def ExecutorRequestRow.atIntent (row : ExecutorRequestRow) : ExecutorRequestRow :=
  { row with
    state := .intentDurable
    responseDigest := none
    outcomeClass := none
    attemptCount := none
    errorClass := none
    responseRecordedAt := none
    proofRecordedAt := none }

/-- The requests, without what answers and proofs add. -/
def Database.intendedRequests (db : Database) : List ExecutorRequestRow :=
  db.executorRequests.map (·.atIntent)

/-- What every call but an event leaves as it is. -/
structure DbFrame (db db' : Database) : Prop where
  journal : db'.journal = db.journal
  journalSequence : db'.session.journalSequence = db.session.journalSequence
  chainHead : db'.session.journalChainHead = db.session.journalChainHead
  operations : db'.operations = db.operations
  requests : db'.intendedRequests = db.intendedRequests
  id : db'.session.id = db.session.id
  planId : db'.session.planId = db.session.planId
  planDigest : db'.session.planDigest = db.session.planDigest
  rootId : db'.session.rootId = db.session.rootId
  materialVersion : db'.consent.materialVersion = db.consent.materialVersion
  destinationRoot : db'.consent.destinationRoot = db.consent.destinationRoot
  safetyPolicy : db'.consent.safetyPolicy = db.consent.safetyPolicy
  consentCheck : db.consent.check = true → db'.consent.check = true
  sessions : db.executorSessions <+: db'.executorSessions
  waits : db'.session.status.waits = true → db.session.status.waits = true

variable {ctx : StoreContext} {db db' : Database}

theorem DbFrame.refl (db : Database) : DbFrame db db := by
  constructor <;> first | rfl | exact fun h => h

theorem intendedRequests_updateRequest {requestId : String}
    {f : ExecutorRequestRow → ExecutorRequestRow} (hf : ∀ row, (f row).atIntent = row.atIntent) :
    (db.updateRequest requestId f).intendedRequests = db.intendedRequests := by
  simp only [Database.intendedRequests, Database.updateRequest, List.map_map]
  refine List.map_congr_left fun row _ => ?_
  simp only [Function.comp]
  split
  · exact hf row
  · rfl

theorem DbFrame.updateRequest {requestId : String} {f : ExecutorRequestRow → ExecutorRequestRow}
    (hf : ∀ row, (f row).atIntent = row.atIntent) : DbFrame db (db.updateRequest requestId f) := by
  constructor <;> first | rfl | exact fun h => h | exact intendedRequests_updateRequest hf

theorem waits_of_or {status : OrganizationExecutionStatus}
    (h : status = .awaitingConfirmation ∨ status = .approved) : status.waits = true := by
  rcases h with rfl | rfl <;> rfl

theorem ExecutionRecoveryState.not_waits (state : ExecutionRecoveryState) :
    ¬state.sessionStatus.waits = true := by
  cases state <;> decide

/-- A call that is not an event keeps the frame. -/
theorem DbCall.step_frame {call : DbCall} (hcall : ∀ w, call ≠ .event w) (db : Database) :
    DbFrame db (call.step ctx db) := by
  have frame : ∀ {α : Type} {tx : Database → Except PersistenceError (TxEnd α)},
      (∀ db' a, tx db = .ok (.commit db' a) → DbFrame db db') → DbFrame db (db.transact tx).2 := by
    intro α tx h
    rcases db.transact_cases tx with heq | ⟨a, heq⟩
    · rw [heq]
      exact .refl db
    · exact h _ a heq
  have frameYes : ∀ {α : Type} {tx : Database → Except PersistenceError (TxEnd α)},
      (∀ db' a, tx db = .ok (.commit db' a) → DbFrame db db') →
        DbFrame db (yes (db.transact tx)).2 := fun h => frame h
  unfold DbCall.step DbCall.run
  cases call with
  | issueConsentChallenge nonce issued expires =>
      simp only
      split
      · exact .refl db
      · refine frameYes fun db' u h => ?_
        obtain ⟨-, hstatus, -, hcheck, rfl⟩ := issueConsentTx_eq_commit h
        constructor <;> first | rfl | exact fun _ => hcheck | exact fun _ => by rw [hstatus]; rfl
  | attestConsent nonce issued expires mac at_ =>
      refine frameYes fun db' u h => ?_
      obtain ⟨-, hstatus, -, hcheck, rfl⟩ := attestConsentTx_eq_commit h
      constructor <;> first | rfl | exact fun _ => hcheck | exact fun _ => by rw [hstatus]; rfl
  | clearConsentChallenge nonce issued expires now =>
      exact frame fun db' b h => absurd (clearConsentTx_eq_ok h) (by simp)
  | expireConsent now =>
      refine frame fun db' b h => ?_
      rcases expireConsentTx_eq_commit h with ⟨-, rfl⟩ | ⟨-, -, hstatus, hcheck, rfl⟩
      · exact .refl _
      · constructor <;> first | rfl | exact fun _ => hcheck | exact fun _ => waits_of_or hstatus
  | invalidateConsent reason now =>
      simp only [Database.invalidateExecutionConsent]
      split
      · exact .refl db
      · refine frame fun db' b h => ?_
        rcases invalidateConsentTx_eq_commit h with ⟨-, rfl⟩ | ⟨-, -, hstatus, hcheck, rfl⟩
        · exact .refl _
        · constructor <;> first | rfl | exact fun _ => hcheck | exact fun _ => waits_of_or hstatus
  | consumeConsent nonce issued expires mac at_ =>
      refine frameYes fun db' u h => ?_
      obtain ⟨-, -, -, -, -, -, hstatus, hcheck, rfl⟩ := consumeConsentTx_eq_commit h
      constructor <;> first | rfl | exact fun _ => hcheck | exact fun h => nomatch h
  | event w => exact absurd rfl (hcall w)
  | requestProof requestId proofState at_ =>
      refine frameYes fun db' u h => ?_
      simp only [Checked.bind_eq_ok, Checked.require_eq_ok,
        transitionExecutorRequestState_eq_ok] at h
      obtain ⟨_, -, _, ⟨-, rfl⟩, h⟩ := h
      obtain ⟨rfl, -⟩ := TxEnd.commit.inj (Except.ok.inj h)
      exact .updateRequest fun _ => rfl
  | response r =>
      refine frameYes fun db' u h => ?_
      simp only [Checked.bind_eq_ok] at h
      obtain ⟨_, -, _, -, _, -, _, -, h⟩ := h
      obtain ⟨rfl, -⟩ := TxEnd.commit.inj (Except.ok.inj h)
      exact .updateRequest fun _ => rfl
  | executorSession identity =>
      refine frameYes fun db' u h => ?_
      simp only [Checked.bind_eq_ok] at h
      obtain ⟨_, -, _, -, _, -, h⟩ := h
      obtain ⟨rfl, -⟩ := TxEnd.commit.inj (Except.ok.inj h)
      constructor <;> first | rfl | exact fun h => h | exact List.prefix_append _ _
  | recoveryRequired message | control pause cancel | cancelUnstarted at_ =>
      refine frame fun db' b h => ?_
      split at h <;> obtain ⟨rfl, -⟩ := TxEnd.commit.inj (Except.ok.inj h) <;>
        constructor <;> first | rfl | exact fun h => h | exact fun h => nomatch h
  | interrupted =>
      refine frameYes fun db' n h => ?_
      split at h <;> obtain ⟨rfl, -⟩ := TxEnd.commit.inj (Except.ok.inj h) <;>
        constructor <;> first | rfl | exact fun h => h | exact fun h => nomatch h
  | assessment r =>
      refine frameYes fun db' u h => ?_
      obtain ⟨rfl, -⟩ := TxEnd.commit.inj (Except.ok.inj h)
      constructor <;> first | rfl | exact fun h => h | exact fun h => absurd h r.state.not_waits
  | executionError row =>
      refine frameYes fun db' u h => ?_
      obtain ⟨rfl, -⟩ := TxEnd.commit.inj (Except.ok.inj h)
      constructor <;> first | rfl | exact fun h => h

/-- An event changes nothing or is committed. -/
theorem DbCall.event_step_cases (w : EventWrite) (db : Database) :
    (DbCall.event w).step ctx db = db ∨ EventCommitted ctx w db ((DbCall.event w).step ctx db) :=
  persistExecutionEvent_cases ctx w db

end Zemo

/-! ## What every call preserves

`Preserved ctx I` says that no call of the database ends in rows without `I`. It is proved here of
the journal (a chain whose head and length the session row knows), of the readability of the rows,
and of the requests (distinct, of known operations, and at most one forward request for each). -/

namespace Zemo

variable {ctx : StoreContext} {db db' : Database}

/-- No call leads from rows with `I` to rows without. -/
def Preserved (ctx : StoreContext) (I : Database → Prop) : Prop :=
  ∀ call db, I db → I (DbCall.step ctx call db)

/-- A property is preserved when frames and events preserve it. -/
theorem preserved_of {I : Database → Prop} (hframe : ∀ db db', DbFrame db db' → I db → I db')
    (hevent : ∀ w db db', EventCommitted ctx w db db' → I db → I db') : Preserved ctx I := by
  intro call db h
  by_cases hcall : ∃ w, call = .event w
  · obtain ⟨w, rfl⟩ := hcall
    rcases @DbCall.event_step_cases ctx w db with heq | hw
    · rw [heq]
      exact h
    · exact hevent w db _ hw h
  · exact hframe db _ (DbCall.step_frame (fun w hw => hcall ⟨w, hw⟩) db) h

/-! ## The journal -/

/-- The journal is a chain, and the session row holds its length and its head. -/
structure JournalInvariant (codec : Codec) (db : Database) : Prop where
  chained : chainValid codec db.journal = true
  sequence : db.session.journalSequence + 1 = db.journal.length
  head : db.session.journalChainHead = chainHead db.journal

theorem JournalInvariant.validate {codec : Codec} (h : JournalInvariant codec db) :
    db.validateExecutionJournal codec = true := by
  simp [Database.validateExecutionJournal, h.chained, h.head]

theorem PreparedRows.journalInvariant (codec : Codec) (h : PreparedRows db) :
    JournalInvariant codec db where
  chained := by rw [h.journal]; rfl
  sequence := by rw [h.journal, h.journalSequence]; rfl
  head := by rw [h.journal, h.chainHead]; rfl

theorem JournalInvariant.framed {codec : Codec} (h : JournalInvariant codec db)
    (hf : DbFrame db db') : JournalInvariant codec db' := by
  refine ⟨?_, ?_, ?_⟩
  · rw [hf.journal]
    exact h.chained
  · rw [hf.journal, hf.journalSequence]
    exact h.sequence
  · rw [hf.journal, hf.chainHead]
    exact h.head

/-- A committed event has the number of events before it as its sequence number. -/
theorem JournalInvariant.event_sequence {w : EventWrite} (h : JournalInvariant ctx.codec db)
    (hw : EventAccepted ctx w db) : w.event.sequence = db.journal.length := by
  have hseq := hw.sequence
  rw [h.sequence] at hseq
  exact_mod_cast hseq

theorem JournalInvariant.committed {w : EventWrite} (h : JournalInvariant ctx.codec db)
    (hw : EventCommitted ctx w db db') : JournalInvariant ctx.codec db' := by
  have hseq := h.event_sequence hw.accepted
  refine ⟨?_, ?_, ?_⟩
  · rw [hw.effect.journal, chainValid_concat]
    exact ⟨h.chained, hseq, h.head ▸ hw.accepted.linked⟩
  · rw [hw.effect.journal, hw.effect.journalSequence, hseq, List.length_append]
    rfl
  · rw [hw.effect.journal, hw.effect.chainHead, chainHead_concat]

theorem JournalInvariant.preserved (ctx : StoreContext) :
    Preserved ctx (JournalInvariant ctx.codec) :=
  preserved_of (fun _ _ hf h => h.framed hf) fun _ _ _ hw h => h.committed hw

/-! ## Readability -/

/-- The consent row satisfies its constraints and has the binding of an approved plan. -/
structure ReadableRows (db : Database) : Prop where
  check : db.consent.check = true
  binding : db.consent.BindingValid

theorem PreparedRows.readable (h : PreparedRows db) : ReadableRows db := ⟨h.consentCheck, h.binding⟩

theorem ReadableRows.preserved (ctx : StoreContext) : Preserved ctx ReadableRows := by
  refine preserved_of (fun db db' hf h => ⟨hf.consentCheck h.check, ?_⟩) (fun w db db' hw h => ?_)
  · obtain ⟨b1, b2, b3, b4, b5, b6, b7⟩ := h.binding
    rw [← hf.materialVersion] at b1
    rw [← hf.destinationRoot] at b2 b3
    rw [← hf.safetyPolicy] at b4 b5 b6 b7
    exact ⟨b1, b2, b3, b4, b5, b6, b7⟩
  · have heq := hw.effect.consent
    exact ⟨heq ▸ h.check, heq ▸ h.binding⟩

/-! ## Requests -/

/-- The requests have distinct ids and known operations, and no operation has two forward ones. -/
structure RequestInvariant (db : Database) : Prop where
  operationIds : (db.operations.map (·.id)).Nodup
  requestIds : (db.intendedRequests.map (·.requestId)).Nodup
  known : ∀ row ∈ db.intendedRequests, row.operationId ∈ db.operations.map (·.id)
  forwardOnce : db.intendedRequests.Pairwise fun a b =>
    a.direction = .forward → b.direction = .forward → a.operationId ≠ b.operationId

theorem PreparedRows.requestInvariant (h : PreparedRows db) : RequestInvariant db := by
  have hrows : db.intendedRequests = [] := by rw [Database.intendedRequests, h.requests]; rfl
  exact
    { operationIds := h.ids
      requestIds := by rw [hrows]; exact List.nodup_nil
      known := by rw [hrows]; simp
      forwardOnce := by rw [hrows]; exact List.Pairwise.nil }

/-- An event adds at most the request it intends. -/
theorem EventEffect.intendedRequests {w : EventWrite} (h : EventEffect w db db') :
    db'.intendedRequests = w.requestsIntended db.intendedRequests := by
  unfold Database.intendedRequests
  rw [h.requests, EventWrite.requestsAfter]
  have hproven : ∀ rows : List ExecutorRequestRow,
      (w.requestsProven rows).map (·.atIntent) = rows.map (·.atIntent) := by
    intro rows
    unfold EventWrite.requestsProven
    split
    · rfl
    · rw [List.map_map]
      refine List.map_congr_left fun row _ => ?_
      simp only [Function.comp]
      split <;> rfl
  rw [hproven, EventWrite.requestsIntended, EventWrite.requestsIntended, List.map_append]
  cases w.requestIntent <;> rfl

/-- An event keeps the ids of the operations. -/
theorem EventEffect.operationIds {w : EventWrite} (h : EventEffect w db db') :
    db'.operations.map (·.id) = db.operations.map (·.id) := by
  rw [h.operations, EventWrite.operationsAfter]
  split
  · rfl
  · rw [List.map_map]
    refine List.map_congr_left fun op _ => ?_
    simp only [Function.comp]
    split <;> rfl

theorem RequestInvariant.preserved (ctx : StoreContext) : Preserved ctx RequestInvariant := by
  refine preserved_of (fun db db' hf h => ?_) (fun w db db' hw h => ?_)
  · obtain ⟨h1, h2, h3, h4⟩ := h
    rw [← hf.requests] at h2 h3 h4
    rw [← hf.operations] at h1 h3
    exact ⟨h1, h2, h3, h4⟩
  · have hrows := hw.effect.intendedRequests
    have hids := hw.effect.operationIds
    unfold EventWrite.requestsIntended at hrows
    cases hintent : w.requestIntent with
    | none =>
        rw [hintent] at hrows
        simp only [Option.map_none, Option.toList_none, List.append_nil] at hrows
        exact ⟨hids ▸ h.operationIds, hrows ▸ h.requestIds, by rw [hrows, hids]; exact h.known,
          hrows ▸ h.forwardOnce⟩
    | some request =>
        rw [hintent] at hrows
        simp only [Option.map_some, Option.toList_some] at hrows
        have hadmitted := hw.accepted.intent request (by simp [hintent])
        refine ⟨hids ▸ h.operationIds, ?_, ?_, ?_⟩
        · rw [hrows, List.map_append, List.nodup_append]
          refine ⟨h.requestIds, by simp, ?_⟩
          simp only [List.mem_map, Database.intendedRequests]
          rintro _ ⟨_, ⟨row, hrow, rfl⟩, rfl⟩ _ hnew rfl
          obtain ⟨_, hmem, hid⟩ := hnew
          obtain rfl := List.mem_singleton.1 hmem
          exact (hadmitted.fresh row hrow).1 hid.symm
        · rw [hrows, hids]
          intro row hrow
          rcases List.mem_append.1 hrow with hrow | hrow
          · exact h.known row hrow
          · obtain rfl := List.mem_singleton.1 hrow
            have hstep := hadmitted.wellFormed.2.1
            obtain ⟨op, hop, hid⟩ := hw.accepted.operation _ hstep
            exact List.mem_map.2 ⟨op, hop, hid⟩
        · rw [hrows, List.pairwise_append]
          refine ⟨h.forwardOnce, List.pairwise_singleton _ _, ?_⟩
          intro a ha b hb hda hdb heq
          obtain rfl := List.mem_singleton.1 hb
          simp only [Database.intendedRequests, List.mem_map] at ha
          obtain ⟨row, hrow, rfl⟩ := ha
          -- the guard found no earlier forward request of the operation
          have hprior := hadmitted.admitted.1 hdb
          have hmem : row ∈ db.priorRequests request.operationId request.direction := by
            rw [Database.priorRequests, List.mem_filter]
            exact ⟨hrow, by simpa using ⟨heq, hda.trans hdb.symm⟩⟩
          rw [hprior] at hmem
          simp at hmem

/-! ## Operations -/

/-- The operation is a later form of `op`: what the plan says of it is the same, and a post
    fingerprint that was there still is. -/
structure ExecutionOperation.Continues (op later : ExecutionOperation) : Prop where
  id : later.id = op.id
  kind : later.kind = op.kind
  source : later.sourceRelativePath = op.sourceRelativePath
  destination : later.destinationRelativePath = op.destinationRelativePath
  live : later.liveFingerprint = op.liveFingerprint
  post : op.postFingerprint ≠ none → later.postFingerprint ≠ none

theorem ExecutionOperation.Continues.refl (op : ExecutionOperation) : op.Continues op :=
  ⟨rfl, rfl, rfl, rfl, rfl, fun h => h⟩

theorem ExecutionOperation.Continues.trans {a b c : ExecutionOperation} (h : a.Continues b)
    (h' : b.Continues c) : a.Continues c :=
  ⟨h'.id.trans h.id, h'.kind.trans h.kind, h'.source.trans h.source,
    h'.destination.trans h.destination, h'.live.trans h.live, fun hp => h'.post (h.post hp)⟩

theorem ExecutionOperation.continues_afterEvent (op : ExecutionOperation) (w : EventWrite) :
    op.Continues (op.afterEvent w) := by
  refine ⟨rfl, rfl, rfl, rfl, rfl, fun hp => ?_⟩
  show w.postFingerprint.or op.postFingerprint ≠ none
  cases w.postFingerprint <;> simp [hp]

/-- An event leaves every operation in a later form. -/
theorem EventEffect.continues {w : EventWrite} (h : EventEffect w db db') {op : ExecutionOperation}
    (hop : op ∈ db.operations) : ∃ later ∈ db'.operations, op.Continues later := by
  rw [h.operations, EventWrite.operationsAfter]
  split
  · exact ⟨op, hop, .refl op⟩
  · refine ⟨_, List.mem_map_of_mem hop, ?_⟩
    split
    · exact op.continues_afterEvent w
    · exact .refl op

/-- Every one of these operations is stored in a later form. -/
def OpsKnown (operations : List ExecutionOperation) (db : Database) : Prop :=
  ∀ op ∈ operations, ∃ later ∈ db.operations, op.Continues later

theorem OpsKnown.refl (db : Database) : OpsKnown db.operations db :=
  fun op hop => ⟨op, hop, .refl op⟩

theorem OpsKnown.preserved (ctx : StoreContext) (operations : List ExecutionOperation) :
    Preserved ctx (OpsKnown operations) := by
  refine preserved_of (fun db db' hf h => ?_) (fun w db db' hw h op hop => ?_)
  · rw [OpsKnown, hf.operations]
    exact h
  · obtain ⟨stored, hstored, hcont⟩ := h op hop
    obtain ⟨later, hlater, hcont'⟩ := hw.effect.continues hstored
    exact ⟨later, hlater, hcont.trans hcont'⟩

end Zemo
