import Zemo.Consent.Challenge
import Zemo.Lib.Run
import Zemo.Persistence.EventSpec

set_option autoImplicit false

/-! # The life of a consent

The database calls that move the consent of an execution, in any order and at any times: issuing,
attesting, discarding, expiring, invalidating and consuming a challenge, and the transactions a
cancellation is made of. `ConsentEffect` says what a call that changed the rows did to them; every
result of this file is read off it.

The invariant ties the three rows together: a session that is approved has an attested consent, and
a session only runs once its consent is consumed, a state no call leaves. With the memory of the
last issued challenge it also says whose nonce, times and authenticator an attested consent
carries. -/

namespace Zemo

/-! ## Calls -/

inductive ConsentCall where
  | issue (nonce : Bytes32) (issuedAtUnixMs expiresAtUnixMs : Int)
  | attest (challenge : ExecutionConsentChallenge) (attestedAtUnixMs : Int)
  | discard (challenge : ExecutionConsentChallenge) (nowUnixMs : Int)
  | expire (nowUnixMs : Int)
  | invalidate (reason : String) (nowUnixMs : Int)
  | consume (nonce : Bytes32) (issuedAtUnixMs expiresAtUnixMs : Int) (attestationMac : Bytes32)
      (consumedAtUnixMs : Int)
  | requestCancel
  | cancelUnstarted (completedAt : String)
  | finishCancelled (event : OperationJournalEvent) (createdAt : String)
deriving DecidableEq

/-- The part of `finalize_execution_consent_at` that attests: the challenge must be authentic and
    the one of this plan. -/
def Database.attestChallenge (authority : ConsentAuthority) (db : Database)
    (challenge : ExecutionConsentChallenge) (attestedAtUnixMs : Int) :
    Except PersistenceError ExecutionDetail × Database :=
  match db.executionDetail with
  | .error e => (.error e, db)
  | .ok detail =>
      if challenge.authentic authority ∧
          consentAttestationMaterial authority detail challenge.material.consentNonce
            challenge.material.issuedAtUnixMs challenge.material.expiresAtUnixMs
            = some challenge.material then
        db.attestExecutionConsent challenge.material.consentNonce challenge.material.issuedAtUnixMs
          challenge.material.expiresAtUnixMs challenge.authenticator attestedAtUnixMs
      else (.error .invalidExecution, db)

/-- `discard_execution_consent_challenge`. -/
def Database.discardChallenge (authority : ConsentAuthority) (db : Database)
    (challenge : ExecutionConsentChallenge) (nowUnixMs : Int) :
    Except PersistenceError Bool × Database :=
  if challenge.authentic authority then
    db.clearExecutionConsentChallenge challenge.material.consentNonce
      challenge.material.issuedAtUnixMs challenge.material.expiresAtUnixMs nowUnixMs
  else (.error .invalidExecution, db)

/-- The event with which `cancel_execution` ends an approved or paused execution. -/
def cancelledWrite (event : OperationJournalEvent) (createdAt : String) : EventWrite where
  event := event
  canonicalData := event.payload
  sessionStatus := some .cancelled
  createdAt := createdAt

/-- The answer to a call that returns the execution is only that it returned. -/
def answered {α : Type} (result : Except PersistenceError α × Database) :
    Except PersistenceError Bool × Database :=
  (result.1.map fun _ => true, result.2)

def ConsentCall.run (authority : ConsentAuthority) (ctx : StoreContext) (call : ConsentCall)
    (db : Database) : Except PersistenceError Bool × Database :=
  match call with
  | .issue nonce issued expires =>
      answered (db.issueExecutionConsentChallenge nonce issued expires)
  | .attest challenge attestedAt => answered (db.attestChallenge authority challenge attestedAt)
  | .discard challenge now => db.discardChallenge authority challenge now
  | .expire now => db.expireExecutionConsent now
  | .invalidate reason now => db.invalidateExecutionConsent reason now
  | .consume nonce issued expires mac consumedAt =>
      answered (db.consumeExecutionConsent nonce issued expires mac consumedAt)
  | .requestCancel => db.setExecutionControl false true
  | .cancelUnstarted completedAt => db.cancelUnstartedExecution ctx completedAt
  | .finishCancelled event createdAt =>
      answered (db.persistExecutionEvent ctx (cancelledWrite event createdAt))

/-- The rows after a call. -/
def ConsentCall.step (authority : ConsentAuthority) (ctx : StoreContext) (call : ConsentCall)
    (db : Database) : Database :=
  (call.run authority ctx db).2

/-! ## What a call does -/

/-- The session a withdrawn approval leaves. -/
def SessionRow.unapproved (row : SessionRow) : SessionRow :=
  { row with status := .awaitingConfirmation, userConfirmed := false, approvedAt := none }

/-- What a call that changed the rows found and left of consent, session and snapshot. -/
inductive ConsentEffect (authority : ConsentAuthority) (db : Database) :
    ConsentCall → Database → Prop where
  | issued {nonce : Bytes32} {issued expires : Int} {db' : Database}
      (state : db.consent.consent.state = .pending ∨ db.consent.consent.state = .expired)
      (status : db.session.status = .awaitingConfirmation)
      (check : db'.consent.check = true)
      (consent : ∃ changed, db'.consent = { db.consent with
        consent :=
          { state := .pending, issuedAtUnixMs := some issued, expiresAtUnixMs := some expires,
            attestedAtUnixMs := none, consumedAtUnixMs := none, invalidatedAtUnixMs := none,
            invalidationReason := none, nonce := some nonce, attestationMac := none }
        stateChangedAtUnixMs := changed })
      (session : db'.session = db.session.unapproved)
      (snapshot : db'.snapshot = { db.snapshot with userConfirmed := false, approvedAt := none }) :
      ConsentEffect authority db (.issue nonce issued expires) db'
  | attested {challenge : ExecutionConsentChallenge} {now : Int} {db' : Database}
      (authentic : challenge.authentic authority)
      (material : ∃ detail, db.executionDetail = .ok detail ∧
        consentAttestationMaterial authority detail challenge.material.consentNonce
          challenge.material.issuedAtUnixMs challenge.material.expiresAtUnixMs
          = some challenge.material)
      (pending : db.consent.consent.awaits challenge)
      (status : db.session.status = .awaitingConfirmation)
      (check : db'.consent.check = true)
      (consent : ∃ changed, db'.consent = { db.consent with
        consent := { db.consent.consent with
          state := .attested, attestedAtUnixMs := some now,
          attestationMac := some challenge.authenticator }
        stateChangedAtUnixMs := changed })
      (session : db'.session = { db.session with
        status := .approved, userConfirmed := true, approvedAt := some (toString now) })
      (snapshot : db'.snapshot = { db.snapshot with
        userConfirmed := true, approvedAt := some (toString now) }) :
      ConsentEffect authority db (.attest challenge now) db'
  | withdrawn {call : ConsentCall} {db' : Database} (state : ExecutionConsentState)
      (isCall : (∃ now, call = .expire now ∧ state = .expired) ∨
        (∃ reason now, call = .invalidate reason now ∧ state = .invalidated))
      (status : db.session.status = .awaitingConfirmation ∨ db.session.status = .approved)
      (old : db.consent.consent.state ≠ .consumed)
      (check : db'.consent.check = true)
      (consent : ∃ invalidated reason changed, db'.consent = { db.consent with
        consent := { db.consent.consent with
          state := state, invalidatedAtUnixMs := invalidated, invalidationReason := reason }
        stateChangedAtUnixMs := changed })
      (session : db'.session = db.session.unapproved)
      (snapshot : db'.snapshot = { db.snapshot with userConfirmed := false, approvedAt := none }) :
      ConsentEffect authority db call db'
  | consumed {nonce mac : Bytes32} {issued expires now : Int} {db' : Database}
      (state : db.consent.consent.state = .attested)
      (nonceEq : db.consent.consent.nonce = some nonce)
      (issuedEq : db.consent.consent.issuedAtUnixMs = some issued)
      (expiresEq : db.consent.consent.expiresAtUnixMs = some expires)
      (macEq : db.consent.consent.attestationMac = some mac)
      (inTime : now ≤ expires)
      (status : db.session.status = .approved)
      (check : db'.consent.check = true)
      (consent : ∃ changed, db'.consent = { db.consent with
        consent := { db.consent.consent with state := .consumed, consumedAtUnixMs := some now }
        stateChangedAtUnixMs := changed })
      (session : ∃ started, db'.session = { db.session with
        status := .running, startedAt := started })
      (snapshot : db'.snapshot = db.snapshot) :
      ConsentEffect authority db (.consume nonce issued expires mac now) db'
  | controlled {call : ConsentCall} {db' : Database}
      (isCall : call = .requestCancel ∨ (∃ at_, call = .cancelUnstarted at_) ∨
        ∃ event at_, call = .finishCancelled event at_)
      (status : db'.session.status = .cancelled ∨ db'.session.status = db.session.status)
      (confirmed : db'.session.userConfirmed = db.session.userConfirmed)
      (consent : db'.consent = db.consent)
      (snapshot : db'.snapshot = db.snapshot)
      (ids : db'.session.id = db.session.id ∧ db'.session.rootId = db.session.rootId) :
      ConsentEffect authority db call db'

variable {authority : ConsentAuthority} {ctx : StoreContext} {db : Database}

/-- Reading the execution after a transaction changes nothing. -/
@[simp] theorem Database.thenDetail_snd (result : Except PersistenceError Unit × Database) :
    (Database.thenDetail result).2 = result.2 := by
  unfold Database.thenDetail
  split <;> rfl

/-- A call changes nothing or has its effect. -/
theorem ConsentCall.step_cases (authority : ConsentAuthority) (ctx : StoreContext)
    (call : ConsentCall) (db : Database) :
    call.step authority ctx db = db ∨
      ConsentEffect authority db call (call.step authority ctx db) := by
  unfold ConsentCall.step
  cases call with
  | issue nonce issued expires =>
      simp only [ConsentCall.run, answered, Database.issueExecutionConsentChallenge]
      split
      · exact .inl rfl
      · rw [Database.thenDetail_snd]
        refine (db.transact_cases _).imp_right fun ⟨u, h⟩ => ?_
        obtain ⟨state, status, -, check, heq⟩ := issueConsentTx_eq_commit h
        exact .issued state status check ⟨issued, congrArg _ heq⟩ (congrArg Database.session heq)
          (congrArg Database.snapshot heq)
  | attest challenge now =>
      simp only [ConsentCall.run, answered, Database.attestChallenge]
      split
      · exact .inl rfl
      · rename_i detail hdetail
        split
        · rename_i hok
          simp only [Database.attestExecutionConsent, Database.thenDetail_snd]
          refine (db.transact_cases _).imp_right fun ⟨u, h⟩ => ?_
          obtain ⟨pending, status, -, check, heq⟩ := attestConsentTx_eq_commit h
          exact .attested hok.1 ⟨detail, hdetail, hok.2⟩ pending status check
            ⟨now, congrArg _ heq⟩ (congrArg Database.session heq) (congrArg Database.snapshot heq)
        · exact .inl rfl
  | discard challenge now =>
      -- the transaction is dropped, whatever it answered
      refine .inl ?_
      simp only [ConsentCall.run, Database.discardChallenge]
      split
      · rcases db.transact_cases (clearConsentTx challenge.material.consentNonce
          challenge.material.issuedAtUnixMs challenge.material.expiresAtUnixMs now) with h | ⟨b, h⟩
        · exact h
        · exact absurd (clearConsentTx_eq_ok h) (by simp)
      · rfl
  | expire now =>
      simp only [ConsentCall.run, Database.expireExecutionConsent]
      rcases db.transact_cases (expireConsentTx now) with h | ⟨b, h⟩
      · exact .inl h
      · rcases expireConsentTx_eq_commit h with ⟨-, heq⟩ | ⟨-, hexp, status, check, heq⟩
        · exact .inl heq
        · refine .inr (.withdrawn .expired (.inl ⟨now, rfl, rfl⟩) status ?_ check
            ⟨_, _, now, congrArg Database.consent heq⟩ (congrArg Database.session heq)
            (congrArg Database.snapshot heq))
          intro hstate
          simp [ExecutionConsent.expiresBy, hstate] at hexp
  | invalidate reason now =>
      simp only [ConsentCall.run, Database.invalidateExecutionConsent]
      split
      · exact .inl rfl
      · rename_i hreason
        rcases db.transact_cases
          (invalidateConsentTx (String.ofList (reason.toList.take 256)) now) with h | ⟨b, h⟩
        · exact .inl h
        · rcases invalidateConsentTx_eq_commit h with ⟨-, heq⟩ | ⟨-, hstate, status, check, heq⟩
          · exact .inl heq
          · refine .inr (.withdrawn .invalidated (.inr ⟨reason, now, rfl, rfl⟩) status ?_ check
              ⟨_, _, now, congrArg Database.consent heq⟩ (congrArg Database.session heq)
              (congrArg Database.snapshot heq))
            rcases hstate with h | h | h <;> simp [h]
  | consume nonce issued expires mac now =>
      simp only [ConsentCall.run, answered, Database.consumeExecutionConsent,
        Database.thenDetail_snd]
      refine (db.transact_cases _).imp_right fun ⟨u, h⟩ => ?_
      obtain ⟨h1, h2, h3, h4, h5, h6, status, check, heq⟩ := consumeConsentTx_eq_commit h
      exact .consumed h1 h2 h3 h4 h5 h6 status check ⟨now, congrArg Database.consent heq⟩
        ⟨_, congrArg Database.session heq⟩ (by rw [heq])
  | requestCancel =>
      simp only [ConsentCall.run, Database.setExecutionControl]
      refine (db.transact_cases _).imp_right fun ⟨u, h⟩ => ?_
      split at h
      · obtain ⟨heq, -⟩ := TxEnd.commit.inj (Except.ok.inj h)
        exact .controlled (.inl rfl) (.inr (heq ▸ rfl)) (heq ▸ rfl) (heq ▸ rfl) (heq ▸ rfl)
          (heq ▸ ⟨rfl, rfl⟩)
      · obtain ⟨heq, -⟩ := TxEnd.commit.inj (Except.ok.inj h)
        exact .controlled (.inl rfl) (.inr (heq ▸ rfl)) (heq ▸ rfl) (heq ▸ rfl) (heq ▸ rfl)
          (heq ▸ ⟨rfl, rfl⟩)
  | cancelUnstarted completedAt =>
      simp only [ConsentCall.run, Database.cancelUnstartedExecution]
      refine (db.transact_cases _).imp_right fun ⟨u, h⟩ => ?_
      split at h
      · obtain ⟨heq, -⟩ := TxEnd.commit.inj (Except.ok.inj h)
        exact .controlled (.inr (.inl ⟨_, rfl⟩)) (.inl (heq ▸ rfl)) (heq ▸ rfl) (heq ▸ rfl)
          (heq ▸ rfl) (heq ▸ ⟨rfl, rfl⟩)
      · obtain ⟨heq, -⟩ := TxEnd.commit.inj (Except.ok.inj h)
        exact .controlled (.inr (.inl ⟨_, rfl⟩)) (.inr (heq ▸ rfl)) (heq ▸ rfl) (heq ▸ rfl)
          (heq ▸ rfl) (heq ▸ ⟨rfl, rfl⟩)
  | finishCancelled event createdAt =>
      simp only [ConsentCall.run, answered]
      refine (persistExecutionEvent_cases ctx _ db).imp_right fun h => ?_
      exact .controlled (.inr (.inr ⟨event, createdAt, rfl⟩)) (.inl h.effect.status)
        h.effect.userConfirmed h.effect.consent h.effect.snapshot ⟨h.effect.id, h.effect.rootId⟩

/-! ## The invariant -/

/-- The three rows agree. -/
structure ConsentInvariant (db : Database) : Prop where
  check : db.consent.check = true
  binding : db.consent.BindingValid
  approved : db.session.status = .approved →
    db.consent.consent.state = .attested ∧ db.session.userConfirmed = true
  awaiting : db.session.status = .awaitingConfirmation → db.session.userConfirmed = false
  running : db.session.status = .running → db.consent.consent.state = .consumed

theorem PreparedRows.consentInvariant (h : PreparedRows db) : ConsentInvariant db where
  check := h.consentCheck
  binding := h.binding
  approved := by simp [h.status]
  awaiting := fun _ => h.userConfirmed
  running := by simp [h.status]

theorem ConsentInvariant.valid (h : ConsentInvariant db) :
    validateStoredConsent db.consent = true :=
  validateStoredConsent_of_check h.binding h.check

theorem ConsentEffect.check {call : ConsentCall} {db' : Database}
    (h : ConsentEffect authority db call db') (hi : ConsentInvariant db) :
    db'.consent.check = true := by
  cases h with
  | issued _ _ check | attested _ _ _ _ check | withdrawn _ _ _ _ check
  | consumed _ _ _ _ _ _ _ check => exact check
  | controlled _ _ _ consent => rw [consent]; exact hi.check

/-- No call changes the plan binding of the consent row. -/
theorem ConsentEffect.binding {call : ConsentCall} {db' : Database}
    (h : ConsentEffect authority db call db') :
    db'.consent.materialVersion = db.consent.materialVersion ∧
      db'.consent.destinationRoot = db.consent.destinationRoot ∧
      db'.consent.safetyPolicy = db.consent.safetyPolicy := by
  cases h with
  | issued _ _ _ consent | attested _ _ _ _ _ consent | consumed _ _ _ _ _ _ _ _ consent =>
      obtain ⟨changed, heq⟩ := consent
      rw [heq]
      exact ⟨rfl, rfl, rfl⟩
  | withdrawn _ _ _ _ _ consent =>
      obtain ⟨_, _, _, heq⟩ := consent
      rw [heq]
      exact ⟨rfl, rfl, rfl⟩
  | controlled _ _ _ consent =>
      rw [consent]
      exact ⟨rfl, rfl, rfl⟩

theorem ConsentInvariant.effect {call : ConsentCall} {db' : Database} (hi : ConsentInvariant db)
    (h : ConsentEffect authority db call db') : ConsentInvariant db' := by
  have hbinding : db'.consent.BindingValid := by
    obtain ⟨h1, h2, h3⟩ := h.binding
    obtain ⟨b1, b2, b3, b4, b5, b6, b7⟩ := hi.binding
    rw [← h1] at b1
    rw [← h2] at b2 b3
    rw [← h3] at b4 b5 b6 b7
    exact ⟨b1, b2, b3, b4, b5, b6, b7⟩
  refine ⟨h.check hi, hbinding, ?_, ?_, ?_⟩
  all_goals intro hstatus
  · cases h with
    | issued _ _ _ _ session | withdrawn _ _ _ _ _ _ session =>
        rw [session] at hstatus
        simp [SessionRow.unapproved] at hstatus
    | attested _ _ _ _ _ consent session =>
        obtain ⟨_, consent⟩ := consent
        rw [consent, session]
        exact ⟨rfl, rfl⟩
    | consumed _ _ _ _ _ _ _ _ _ session =>
        obtain ⟨_, session⟩ := session
        rw [session] at hstatus
        simp at hstatus
    | controlled _ status confirmed consent =>
        rcases status with h | h
        · rw [h] at hstatus
          simp at hstatus
        · rw [consent, confirmed]
          exact hi.approved (h ▸ hstatus)
  · cases h with
    | issued _ _ _ _ session | withdrawn _ _ _ _ _ _ session =>
        rw [session]
        rfl
    | attested _ _ _ _ _ _ session =>
        rw [session] at hstatus
        simp at hstatus
    | consumed _ _ _ _ _ _ _ _ _ session =>
        obtain ⟨_, session⟩ := session
        rw [session] at hstatus
        simp at hstatus
    | controlled _ status confirmed =>
        rcases status with h | h
        · rw [h] at hstatus
          simp at hstatus
        · rw [confirmed]
          exact hi.awaiting (h ▸ hstatus)
  · cases h with
    | issued _ _ _ _ session | withdrawn _ _ _ _ _ _ session =>
        rw [session] at hstatus
        simp [SessionRow.unapproved] at hstatus
    | attested _ _ _ _ _ _ session =>
        rw [session] at hstatus
        simp at hstatus
    | consumed _ _ _ _ _ _ _ _ consent =>
        obtain ⟨_, consent⟩ := consent
        rw [consent]
    | controlled _ status _ consent =>
        rcases status with h | h
        · rw [h] at hstatus
          simp at hstatus
        · rw [consent]
          exact hi.running (h ▸ hstatus)

theorem ConsentInvariant.step (call : ConsentCall) (hi : ConsentInvariant db) :
    ConsentInvariant (call.step authority ctx db) := by
  rcases call.step_cases authority ctx db with h | h
  · rw [h]
    exact hi
  · exact hi.effect h

/-! ## A call that fails changes nothing -/

/-- The transaction a call runs can only fail before it commits: what it leaves can be read. -/
theorem Database.thenDetail_error {result : Except PersistenceError Unit × Database} {db : Database}
    {e : PersistenceError} (hread : validateStoredConsent result.2.consent = true)
    (hkeep : ∀ e, result.1 = .error e → result.2 = db)
    (h : (Database.thenDetail result).1 = .error e) : result.2 = db := by
  obtain ⟨r, db'⟩ := result
  cases r with
  | error e' => exact hkeep e' rfl
  | ok u => simp [Database.thenDetail, Database.executionDetail, hread] at h

theorem ConsentCall.run_error {call : ConsentCall} {e : PersistenceError}
    (hi : ConsentInvariant db) (h : (call.run authority ctx db).1 = .error e) :
    call.step authority ctx db = db := by
  have hstep : ConsentInvariant (call.step authority ctx db) := hi.step call
  have hvalid := hstep.valid
  have keep : ∀ {α : Type} {tx : Database → Except PersistenceError (TxEnd α)}
      (e : PersistenceError), (db.transact tx).1 = .error e → (db.transact tx).2 = db :=
    fun e he => Database.transact_error (Prod.ext he rfl)
  have answered_error : ∀ {α : Type} {r : Except PersistenceError α × Database},
      (answered r).1 = .error e → r.1 = .error e := by
    rintro α ⟨r, s⟩ hr
    cases r with
    | error e' => simpa [answered, Except.map] using hr
    | ok a => simp [answered, Except.map] at hr
  unfold ConsentCall.step at hvalid ⊢
  cases call with
  | issue nonce issued expires =>
      simp only [ConsentCall.run, Database.issueExecutionConsentChallenge] at h hvalid ⊢
      split at h
      · rw [if_pos ‹_›]
        rfl
      · rw [if_neg ‹_›] at hvalid ⊢
        simp only [answered, Database.thenDetail_snd] at hvalid ⊢
        exact Database.thenDetail_error hvalid keep (answered_error h)
  | attest challenge now =>
      simp only [ConsentCall.run, Database.attestChallenge] at h hvalid ⊢
      split at h
      · rfl
      · rename_i detail hdetail
        simp only [hdetail] at hvalid ⊢
        split at h
        · rw [if_pos ‹_›] at hvalid ⊢
          simp only [answered, Database.attestExecutionConsent, Database.thenDetail_snd]
            at hvalid ⊢
          exact Database.thenDetail_error hvalid keep (answered_error h)
        · rw [if_neg ‹_›]
          rfl
  | consume nonce issued expires mac now =>
      simp only [ConsentCall.run, answered, Database.consumeExecutionConsent,
        Database.thenDetail_snd] at hvalid ⊢
      exact Database.thenDetail_error hvalid keep (answered_error h)
  | discard challenge now =>
      simp only [ConsentCall.run, Database.discardChallenge] at h ⊢
      split at h
      · rw [if_pos ‹_›]
        exact keep e h
      · rw [if_neg ‹_›]
  | expire now => exact keep e h
  | invalidate reason now =>
      simp only [ConsentCall.run, Database.invalidateExecutionConsent] at h ⊢
      split at h
      · rw [if_pos ‹_›]
      · rw [if_neg ‹_›]
        exact keep e h
  | requestCancel => exact keep e h
  | cancelUnstarted completedAt => exact keep e h
  | finishCancelled event createdAt => exact keep e (answered_error h)

end Zemo

/-! ## Discarding a challenge

`clear_execution_consent_challenge` opens a transaction, clears the columns of the challenge and
returns without a commit, so the update is dropped while the answer says that a row was changed. A
discarded challenge is dead only where no discard finds anything to clear. -/

namespace Zemo

variable {authority : ConsentAuthority} {ctx : StoreContext} {db : Database}

/-- A discard changes no row, whatever it answers. -/
theorem discard_step (challenge : ExecutionConsentChallenge) (now : Int) :
    (ConsentCall.discard challenge now).step authority ctx db = db := by
  simp only [ConsentCall.step, ConsentCall.run, Database.discardChallenge]
  split
  · rcases db.transact_cases (clearConsentTx challenge.material.consentNonce
      challenge.material.issuedAtUnixMs challenge.material.expiresAtUnixMs now) with h | ⟨b, h⟩
    · exact h
    · exact absurd (clearConsentTx_eq_ok h) (by simp)
  · rfl

/-- The columns of a pending consent can be cleared. -/
theorem check_cleared {row : ConsentRow} {nonce : Bytes32} {issued expires : Int} (now : Int)
    (hc : row.check = true) (hp : row.consent.holdsPending nonce issued expires) :
    ConsentRow.check { row with
      consent := { row.consent with issuedAtUnixMs := none, expiresAtUnixMs := none, nonce := none }
      stateChangedAtUnixMs := now } = true := by
  obtain ⟨hstate, -, -, -, hmac⟩ := hp
  simp only [ConsentRow.check, Bool.and_eq_true] at hc ⊢
  obtain ⟨⟨-, -⟩, hs⟩ := hc
  have hattested : row.consent.attestedAtUnixMs = none := by
    simp only [ExecutionConsent.checkState, hstate, Bool.and_eq_true, Option.isNone_iff_eq_none]
      at hs
    exact hs.1.1
  refine ⟨⟨rfl, ?_⟩, ?_⟩
  · simp [ExecutionConsent.checkAttestation, hattested, hmac]
  · simpa only [ExecutionConsent.checkState, hstate] using hs

/-- A discard is answered with `true` exactly when the challenge is authentic and awaited. -/
theorem discard_answer_iff (hi : ConsentInvariant db) (challenge : ExecutionConsentChallenge)
    (now : Int) :
    ((ConsentCall.discard challenge now).run authority ctx db).1 = .ok true ↔
      challenge.authentic authority ∧ db.consent.consent.awaits challenge := by
  simp only [ConsentCall.run, Database.discardChallenge]
  by_cases hauth : challenge.authentic authority
  · simp only [hauth, true_and, Database.clearExecutionConsentChallenge,
      ExecutionConsent.awaits]
    by_cases hpending : db.consent.consent.holdsPending challenge.material.consentNonce
        challenge.material.issuedAtUnixMs challenge.material.expiresAtUnixMs
    · have hrow := check_cleared now hi.check hpending
      have htx : clearConsentTx challenge.material.consentNonce challenge.material.issuedAtUnixMs
          challenge.material.expiresAtUnixMs now db = .ok (.drop true) := by
        simp only [clearConsentTx, Checked.bind_eq_ok]
        exact ⟨_, updateWhere_eq_some.2 ⟨hpending, hrow, rfl⟩, rfl⟩
      simp [Database.transact, htx, hpending]
    · have htx : clearConsentTx challenge.material.consentNonce challenge.material.issuedAtUnixMs
          challenge.material.expiresAtUnixMs now db = .ok (.drop false) := by
        simp only [clearConsentTx, Checked.bind_eq_ok]
        exact ⟨_, updateWhere_eq_none.2 hpending, rfl⟩
      simp [Database.transact, htx, hpending]
  · simp [hauth]

/-- The challenge has been attested or consumed. -/
def ExecutionConsent.used (consent : ExecutionConsent) (challenge : ExecutionConsentChallenge) :
    Prop :=
  (consent.state = .attested ∨ consent.state = .consumed) ∧ consent.holds challenge

instance (consent : ExecutionConsent) (challenge : ExecutionConsentChallenge) :
    Decidable (consent.used challenge) := by
  unfold ExecutionConsent.used; exact inferInstance

/-- In a run, a challenge whose discard was answered with `true` is no longer stored, and no later
    call attests or consumes it. -/
def DiscardedStaysDead (authority : ConsentAuthority) (ctx : StoreContext) (start : Database)
    (calls : List ConsentCall) : Prop :=
  ∀ before challenge now after, calls = before ++ .discard challenge now :: after →
    let db := Run.after (ConsentCall.step authority ctx) start before
    let discarded := (ConsentCall.discard challenge now).step authority ctx db
    ((ConsentCall.discard challenge now).run authority ctx db).1 = .ok true →
      discarded.consent.consent.nonce ≠ some challenge.material.consentNonce ∧
      ∀ more, more <+: after →
        ¬(Run.after (ConsentCall.step authority ctx) discarded more).consent.consent.used challenge

/-- **A discarded challenge is dead** exactly in the runs in which every discard is of a challenge
    that is not authentic or not awaited. -/
theorem discarded_stays_dead_iff (authority : ConsentAuthority) (ctx : StoreContext)
    {start : Database} (h : Prepared start) (calls : List ConsentCall) :
    DiscardedStaysDead authority ctx start calls ↔
      ∀ before challenge now after, calls = before ++ .discard challenge now :: after →
        ¬(challenge.authentic authority ∧
          (Run.after (ConsentCall.step authority ctx) start before).consent.consent.awaits
            challenge) := by
  have hinv : ∀ before, ConsentInvariant (Run.after (ConsentCall.step authority ctx) start before) :=
    fun before => Run.invariant (fun call _ hi => hi.step call) before h.rows.consentInvariant
  constructor
  · rintro hdead before challenge now after hcalls hawaits
    have hanswer : ((ConsentCall.discard challenge now).run authority ctx
        (Run.after (ConsentCall.step authority ctx) start before)).1 = .ok true :=
      (discard_answer_iff (hinv before) challenge now).2 hawaits
    refine (hdead before challenge now after hcalls hanswer).1 ?_
    -- the dropped update left the nonce where it was
    rw [discard_step]
    exact hawaits.2.2.1
  · intro hno before challenge now after hcalls db discarded hanswer
    exact absurd ((discard_answer_iff (hinv before) challenge now).1 hanswer)
      (hno before challenge now after hcalls)

/-- A run that discards before anything was issued. -/
theorem discarded_stays_dead_iff_sample :
    DiscardedStaysDead sampleAuthority sampleContext sampleRows [.discard sampleChallenge 1] ↔
      ∀ before challenge now after,
        [ConsentCall.discard sampleChallenge 1] = before ++ .discard challenge now :: after →
        ¬(challenge.authentic sampleAuthority ∧
          (Run.after (ConsentCall.step sampleAuthority sampleContext) sampleRows
            before).consent.consent.awaits challenge) :=
  discarded_stays_dead_iff sampleAuthority sampleContext sampleRows_prepared _

/-- The challenge is issued, its discard is answered with `true`, and the user's confirmation is
    still attested with it. -/
theorem discarded_challenge_attested :
    Prepared sampleRows ∧
      ¬DiscardedStaysDead sampleAuthority sampleContext sampleRows
        [.issue (Bytes32.filled 4) 1 9, .discard sampleChallenge 2, .attest sampleChallenge 3] ∧
      (Run.after (ConsentCall.step sampleAuthority sampleContext) sampleRows
        [.issue (Bytes32.filled 4) 1 9, .discard sampleChallenge 2,
          .attest sampleChallenge 3]).consent.consent.used sampleChallenge := by
  have hused : (Run.after (ConsentCall.step sampleAuthority sampleContext) sampleRows
      [.issue (Bytes32.filled 4) 1 9, .discard sampleChallenge 2,
        .attest sampleChallenge 3]).consent.consent.used sampleChallenge := by
    decide
  refine ⟨sampleRows_prepared, fun hdead => ?_, hused⟩
  have hanswer := hdead [.issue (Bytes32.filled 4) 1 9] sampleChallenge 2 [.attest sampleChallenge 3]
    rfl (by decide)
  exact hanswer.2 [.attest sampleChallenge 3] (List.prefix_refl _) hused

end Zemo
