import Zemo.Persistence.Database

set_option autoImplicit false

/-! # The consent transactions

The updates of the three rows that record the user's consent: the consent itself, the session and
the approval snapshot. Each database call is one transaction; its statements are guarded by their
`WHERE` clauses, and the number of rows they changed decides whether the transaction goes on.

For every transaction an inversion lemma says what is known when it commits: the rows it found and
the rows it leaves. -/

namespace Zemo

/-! ## Reading an execution -/

/-- `validate_stored_consent`. -/
def validateStoredConsent (stored : ConsentRow) : Bool :=
  let consent := stored.consent
  let expiresTooEarly := match consent.expiresAtUnixMs, consent.issuedAtUnixMs with
    | some expires, some issued => decide (expires ≤ issued)
    | _, _ => false
  if stored.materialVersion = 0
      || stored.destinationRoot.canonicalPath.isEmpty
      || stored.destinationRoot.displayPath.isEmpty
      || stored.safetyPolicy.version.isEmpty
      || stored.safetyPolicy.digestHex.utf8ByteSize ≠ 64
      || stored.safetyPolicy.maximumRehashBytes = 0
      || stored.safetyPolicy.maximumRehashBytes > maxExecutionVerificationBytes
      || (!consent.challengeComplete && !consent.challengeEmpty)
      || expiresTooEarly
      || consent.attestedAtUnixMs.isSome ≠ consent.attestationMac.isSome then
    false
  else
    match consent.state with
    | .pending =>
        !(consent.attestedAtUnixMs.isSome || consent.consumedAtUnixMs.isSome
          || consent.invalidatedAtUnixMs.isSome)
    | .attested =>
        !(!consent.challengeComplete || consent.attestedAtUnixMs.isNone
          || consent.consumedAtUnixMs.isSome || consent.invalidatedAtUnixMs.isSome)
    | .consumed =>
        !(!consent.challengeComplete || consent.attestedAtUnixMs.isNone
          || consent.consumedAtUnixMs.isNone || consent.invalidatedAtUnixMs.isSome)
    | .expired =>
        !(!consent.challengeComplete || consent.consumedAtUnixMs.isSome
          || consent.invalidatedAtUnixMs.isSome)
    | .invalidated =>
        !(consent.invalidatedAtUnixMs.isNone || consent.invalidationReason.isNone
          || consent.consumedAtUnixMs.isSome)

/-- The parts of a consent row no transaction changes are those of an approved plan. -/
structure ConsentRow.BindingValid (stored : ConsentRow) : Prop where
  materialVersion : stored.materialVersion = executionPlanMaterialVersion
  canonicalPath : stored.destinationRoot.canonicalPath.isEmpty = false
  displayPath : stored.destinationRoot.displayPath.isEmpty = false
  version : stored.safetyPolicy.version.isEmpty = false
  digest : stored.safetyPolicy.digestHex.utf8ByteSize = 64
  positive : stored.safetyPolicy.maximumRehashBytes ≠ 0
  bounded : stored.safetyPolicy.maximumRehashBytes ≤ maxExecutionVerificationBytes

/-- A row with the binding of an approved plan that satisfies the constraints of the table is one
    the reader accepts. -/
theorem validateStoredConsent_of_check {stored : ConsentRow} (hb : stored.BindingValid)
    (hc : stored.check = true) : validateStoredConsent stored = true := by
  obtain ⟨h1, h2, h3, h4, h5, h6, h7⟩ := hb
  obtain ⟨version, root, policy, consent, changed⟩ := stored
  obtain ⟨state, issued, expires, attested, consumed, invalidated, reason, nonce, mac⟩ := consent
  simp only [ConsentRow.check, Bool.and_eq_true] at hc
  obtain ⟨⟨hch, hat⟩, hst⟩ := hc
  simp only at h1 h2 h3 h4 h5 h6 h7
  have hv : version ≠ 0 := by rw [h1]; decide
  have hcp : root.canonicalPath.isEmpty = false := by simpa using h2
  -- the challenge and attestation columns are each all set or all empty
  rcases issued with - | issued <;> rcases expires with - | expires <;>
    rcases nonce with - | nonce <;> simp [ExecutionConsent.checkChallenge] at hch <;>
    rcases attested with - | attested <;> rcases mac with - | mac <;>
    simp [ExecutionConsent.checkAttestation] at hat <;>
    rcases consumed with - | consumed <;> cases state <;>
    simp_all [validateStoredConsent, ExecutionConsent.checkState,
      ExecutionConsent.challengeComplete, ExecutionConsent.challengeEmpty]

/-- What `execution_detail` returns: the rows of the execution, read as one. -/
structure ExecutionDetail where
  session : SessionRow
  approval : ApprovalSnapshotRow
  consent : ConsentRow
  operations : List ExecutionOperation
deriving DecidableEq

/-- The rows as a detail, whether or not they can be read. -/
def Database.rows (db : Database) : ExecutionDetail where
  session := db.session
  approval := db.snapshot
  consent := db.consent
  operations := db.operations

/-- `execution_detail`: a stored consent that is not valid is not readable. -/
def Database.executionDetail (db : Database) : Except PersistenceError ExecutionDetail :=
  if validateStoredConsent db.consent then .ok db.rows else .error .invalidExecution

theorem Database.executionDetail_eq_ok {db : Database} {detail : ExecutionDetail}
    (h : db.executionDetail = .ok detail) :
    validateStoredConsent db.consent = true ∧ detail = db.rows := by
  unfold Database.executionDetail at h
  split at h
  · exact ⟨‹_›, (Except.ok.inj h).symm⟩
  · simp at h

/-- A committed transaction followed by a read of the execution. -/
def Database.thenDetail (result : Except PersistenceError Unit × Database) :
    Except PersistenceError ExecutionDetail × Database :=
  match result with
  | (.ok (), db) => (db.executionDetail, db)
  | (.error e, db) => (.error e, db)

/-! ## The transactions -/

/-- `reset_legacy_execution_approval`. -/
def resetLegacyExecutionApproval (db : Database) :
    Except PersistenceError (SessionRow × ApprovalSnapshotRow) := do
  let session ← updateWhere SessionRow.check
    (db.session.status = .awaitingConfirmation ∨ db.session.status = .approved)
    { db.session with status := .awaitingConfirmation, userConfirmed := false, approvedAt := none }
  let snapshot ← updateWhere ApprovalSnapshotRow.check True
    { db.snapshot with userConfirmed := false, approvedAt := none }
  let session ← changedOne session
  let snapshot ← changedOne snapshot
  return (session, snapshot)

def issueConsentTx (nonce : Bytes32) (issuedAtUnixMs expiresAtUnixMs : Int) (db : Database) :
    Except PersistenceError (TxEnd Unit) := do
  let consent ← updateWhere ConsentRow.check
    (db.consent.materialVersion = executionPlanMaterialVersion
      ∧ (db.consent.consent.state = .pending ∨ db.consent.consent.state = .expired))
    { db.consent with
      consent :=
        { state := .pending
          issuedAtUnixMs := some issuedAtUnixMs
          expiresAtUnixMs := some expiresAtUnixMs
          attestedAtUnixMs := none
          consumedAtUnixMs := none
          invalidatedAtUnixMs := none
          invalidationReason := none
          nonce := some nonce
          attestationMac := none }
      stateChangedAtUnixMs := issuedAtUnixMs }
  let consent ← changedOne consent
  let session ← updateWhere SessionRow.check
    (db.session.status = .awaitingConfirmation ∧ 0 < db.session.summary.preflightOk)
    { db.session with status := .awaitingConfirmation, userConfirmed := false, approvedAt := none }
  let snapshot ← updateWhere ApprovalSnapshotRow.check True
    { db.snapshot with userConfirmed := false, approvedAt := none }
  let session ← changedOne session
  let snapshot ← changedOne snapshot
  return .commit { db with consent, session, snapshot } ()

def Database.issueExecutionConsentChallenge (db : Database) (nonce : Bytes32)
    (issuedAtUnixMs expiresAtUnixMs : Int) : Except PersistenceError ExecutionDetail × Database :=
  if expiresAtUnixMs ≤ issuedAtUnixMs then (.error .invalidExecution, db)
  else Database.thenDetail (db.transact (issueConsentTx nonce issuedAtUnixMs expiresAtUnixMs))

/-- The stored challenge is the pending one with this nonce and these times, not attested. -/
def ExecutionConsent.holdsPending (consent : ExecutionConsent) (nonce : Bytes32)
    (issuedAtUnixMs expiresAtUnixMs : Int) : Prop :=
  consent.state = .pending ∧ consent.nonce = some nonce
    ∧ consent.issuedAtUnixMs = some issuedAtUnixMs
    ∧ consent.expiresAtUnixMs = some expiresAtUnixMs ∧ consent.attestationMac = none

instance (consent : ExecutionConsent) (nonce : Bytes32) (issued expires : Int) :
    Decidable (consent.holdsPending nonce issued expires) := by
  unfold ExecutionConsent.holdsPending; exact inferInstance

def attestConsentTx (nonce : Bytes32) (issuedAtUnixMs expiresAtUnixMs : Int)
    (attestationMac : Bytes32) (attestedAtUnixMs : Int) (db : Database) :
    Except PersistenceError (TxEnd Unit) := do
  let consent ← updateWhere ConsentRow.check
    (db.consent.consent.holdsPending nonce issuedAtUnixMs expiresAtUnixMs
      ∧ issuedAtUnixMs ≤ attestedAtUnixMs ∧ attestedAtUnixMs ≤ expiresAtUnixMs)
    { db.consent with
      consent :=
        { db.consent.consent with
          state := .attested
          attestedAtUnixMs := some attestedAtUnixMs
          attestationMac := some attestationMac }
      stateChangedAtUnixMs := attestedAtUnixMs }
  let consent ← changedOne consent
  let session ← updateWhere SessionRow.check
    (db.session.status = .awaitingConfirmation ∧ 0 < db.session.summary.preflightOk
      ∧ db.session.userConfirmed = false)
    { db.session with
      status := .approved
      userConfirmed := true
      approvedAt := some (toString attestedAtUnixMs) }
  let snapshot ← updateWhere ApprovalSnapshotRow.check (db.snapshot.userConfirmed = false)
    { db.snapshot with userConfirmed := true, approvedAt := some (toString attestedAtUnixMs) }
  let session ← changedOne session
  let snapshot ← changedOne snapshot
  return .commit { db with consent, session, snapshot } ()

def Database.attestExecutionConsent (db : Database) (nonce : Bytes32)
    (issuedAtUnixMs expiresAtUnixMs : Int) (attestationMac : Bytes32) (attestedAtUnixMs : Int) :
    Except PersistenceError ExecutionDetail × Database :=
  Database.thenDetail (db.transact
    (attestConsentTx nonce issuedAtUnixMs expiresAtUnixMs attestationMac attestedAtUnixMs))

/-- The only consent transaction that ends without a commit: the answer says whether the update
    selected the row. -/
def clearConsentTx (nonce : Bytes32) (issuedAtUnixMs expiresAtUnixMs nowUnixMs : Int)
    (db : Database) : Except PersistenceError (TxEnd Bool) := do
  let consent ← updateWhere ConsentRow.check
    (db.consent.consent.holdsPending nonce issuedAtUnixMs expiresAtUnixMs)
    { db.consent with
      consent :=
        { db.consent.consent with
          issuedAtUnixMs := none
          expiresAtUnixMs := none
          nonce := none }
      stateChangedAtUnixMs := nowUnixMs }
  return .drop consent.isSome

def Database.clearExecutionConsentChallenge (db : Database) (nonce : Bytes32)
    (issuedAtUnixMs expiresAtUnixMs nowUnixMs : Int) : Except PersistenceError Bool × Database :=
  db.transact (clearConsentTx nonce issuedAtUnixMs expiresAtUnixMs nowUnixMs)

/-- The stored consent can expire at `now`. -/
def ExecutionConsent.expiresBy (consent : ExecutionConsent) (nowUnixMs : Int) : Bool :=
  (consent.state = .pending || consent.state = .attested)
    && consent.expiresAtUnixMs.any (decide <| · ≤ nowUnixMs)

def expireConsentTx (nowUnixMs : Int) (db : Database) :
    Except PersistenceError (TxEnd Bool) := do
  let consent ← updateWhere ConsentRow.check (db.consent.consent.expiresBy nowUnixMs = true)
    { db.consent with
      consent := { db.consent.consent with state := .expired }
      stateChangedAtUnixMs := nowUnixMs }
  match consent with
  | some consent => do
      let (session, snapshot) ← resetLegacyExecutionApproval db
      return .commit { db with consent, session, snapshot } true
  | none => return .commit db false

def Database.expireExecutionConsent (db : Database) (nowUnixMs : Int) :
    Except PersistenceError Bool × Database :=
  db.transact (expireConsentTx nowUnixMs)

def invalidateConsentTx (reason : String) (nowUnixMs : Int) (db : Database) :
    Except PersistenceError (TxEnd Bool) := do
  let consent ← updateWhere ConsentRow.check
    (db.consent.consent.state = .pending ∨ db.consent.consent.state = .attested
      ∨ db.consent.consent.state = .expired)
    { db.consent with
      consent :=
        { db.consent.consent with
          state := .invalidated
          invalidatedAtUnixMs := some nowUnixMs
          invalidationReason := some reason }
      stateChangedAtUnixMs := nowUnixMs }
  match consent with
  | some consent => do
      let (session, snapshot) ← resetLegacyExecutionApproval db
      return .commit { db with consent, session, snapshot } true
  | none => return .commit db false

def Database.invalidateExecutionConsent (db : Database) (reason : String) (nowUnixMs : Int) :
    Except PersistenceError Bool × Database :=
  let reason := String.ofList (reason.toList.take 256)
  if reason.isEmpty then (.error .invalidExecution, db)
  else db.transact (invalidateConsentTx reason nowUnixMs)

def consumeConsentTx (nonce : Bytes32) (issuedAtUnixMs expiresAtUnixMs : Int)
    (attestationMac : Bytes32) (consumedAtUnixMs : Int) (db : Database) :
    Except PersistenceError (TxEnd Unit) := do
  let consent ← updateWhere ConsentRow.check
    (db.consent.consent.state = .attested ∧ db.consent.consent.nonce = some nonce
      ∧ db.consent.consent.issuedAtUnixMs = some issuedAtUnixMs
      ∧ db.consent.consent.expiresAtUnixMs = some expiresAtUnixMs
      ∧ db.consent.consent.attestationMac = some attestationMac
      ∧ consumedAtUnixMs ≤ expiresAtUnixMs)
    { db.consent with
      consent :=
        { db.consent.consent with
          state := .consumed
          consumedAtUnixMs := some consumedAtUnixMs }
      stateChangedAtUnixMs := consumedAtUnixMs }
  let consent ← changedOne consent
  let session ← updateWhere SessionRow.check (db.session.status = .approved)
    { db.session with
      status := .running
      startedAt := db.session.startedAt.or (some (toString consumedAtUnixMs)) }
  let session ← changedOne session
  return .commit { db with consent, session } ()

def Database.consumeExecutionConsent (db : Database) (nonce : Bytes32)
    (issuedAtUnixMs expiresAtUnixMs : Int) (attestationMac : Bytes32) (consumedAtUnixMs : Int) :
    Except PersistenceError ExecutionDetail × Database :=
  Database.thenDetail (db.transact
    (consumeConsentTx nonce issuedAtUnixMs expiresAtUnixMs attestationMac consumedAtUnixMs))

/-! ## What a transaction that commits did -/

theorem resetLegacyExecutionApproval_eq_ok {db : Database} {session : SessionRow}
    {snapshot : ApprovalSnapshotRow}
    (h : resetLegacyExecutionApproval db = .ok (session, snapshot)) :
    (db.session.status = .awaitingConfirmation ∨ db.session.status = .approved) ∧
      session = { db.session with
        status := .awaitingConfirmation, userConfirmed := false, approvedAt := none } ∧
      snapshot = { db.snapshot with userConfirmed := false, approvedAt := none } := by
  simp only [resetLegacyExecutionApproval, Checked.bind_eq_ok, changedOne_eq_ok] at h
  obtain ⟨_, hs, _, hn, s, rfl, n, rfl, h⟩ := h
  obtain ⟨hstatus, -, rfl⟩ := updateWhere_eq_some.1 hs
  obtain ⟨-, -, rfl⟩ := updateWhere_eq_some.1 hn
  obtain ⟨rfl, rfl⟩ := Prod.mk.inj (Except.ok.inj h)
  exact ⟨hstatus, rfl, rfl⟩

variable {db db' : Database} {nonce mac : Bytes32} {issued expires now : Int}

theorem issueConsentTx_eq_commit {u : Unit}
    (h : issueConsentTx nonce issued expires db = .ok (.commit db' u)) :
    (db.consent.consent.state = .pending ∨ db.consent.consent.state = .expired) ∧
      db.session.status = .awaitingConfirmation ∧ 0 < db.session.summary.preflightOk ∧
      db'.consent.check = true ∧
      db' = { db with
        consent := { db.consent with
          consent :=
            { state := .pending, issuedAtUnixMs := some issued, expiresAtUnixMs := some expires,
              attestedAtUnixMs := none, consumedAtUnixMs := none, invalidatedAtUnixMs := none,
              invalidationReason := none, nonce := some nonce, attestationMac := none }
          stateChangedAtUnixMs := issued }
        session := { db.session with
          status := .awaitingConfirmation, userConfirmed := false, approvedAt := none }
        snapshot := { db.snapshot with userConfirmed := false, approvedAt := none } } := by
  simp only [issueConsentTx, Checked.bind_eq_ok, changedOne_eq_ok] at h
  obtain ⟨_, hc, c, rfl, _, hs, _, hn, s, rfl, n, rfl, h⟩ := h
  obtain ⟨⟨-, hstate⟩, hcheck, rfl⟩ := updateWhere_eq_some.1 hc
  obtain ⟨⟨hstatus, hpre⟩, -, rfl⟩ := updateWhere_eq_some.1 hs
  obtain ⟨-, -, rfl⟩ := updateWhere_eq_some.1 hn
  obtain ⟨rfl, -⟩ := TxEnd.commit.inj (Except.ok.inj h)
  exact ⟨hstate, hstatus, hpre, hcheck, rfl⟩

theorem attestConsentTx_eq_commit {u : Unit}
    (h : attestConsentTx nonce issued expires mac now db = .ok (.commit db' u)) :
    db.consent.consent.holdsPending nonce issued expires ∧
      db.session.status = .awaitingConfirmation ∧ 0 < db.session.summary.preflightOk ∧
      db'.consent.check = true ∧
      db' = { db with
        consent := { db.consent with
          consent := { db.consent.consent with
            state := .attested, attestedAtUnixMs := some now, attestationMac := some mac }
          stateChangedAtUnixMs := now }
        session := { db.session with
          status := .approved, userConfirmed := true, approvedAt := some (toString now) }
        snapshot := { db.snapshot with
          userConfirmed := true, approvedAt := some (toString now) } } := by
  simp only [attestConsentTx, Checked.bind_eq_ok, changedOne_eq_ok] at h
  obtain ⟨_, hc, c, rfl, _, hs, _, hn, s, rfl, n, rfl, h⟩ := h
  obtain ⟨⟨hpending, -⟩, hcheck, rfl⟩ := updateWhere_eq_some.1 hc
  obtain ⟨⟨hstatus, hpre, -⟩, -, rfl⟩ := updateWhere_eq_some.1 hs
  obtain ⟨-, -, rfl⟩ := updateWhere_eq_some.1 hn
  obtain ⟨rfl, -⟩ := TxEnd.commit.inj (Except.ok.inj h)
  exact ⟨hpending, hstatus, hpre, hcheck, rfl⟩

/-- Clearing a challenge never commits; its answer says whether the challenge was pending. -/
theorem clearConsentTx_eq_ok {e : TxEnd Bool}
    (h : clearConsentTx nonce issued expires now db = .ok e) :
    e = .drop (decide (db.consent.consent.holdsPending nonce issued expires)) := by
  simp only [clearConsentTx, Checked.bind_eq_ok] at h
  obtain ⟨c, hc, h⟩ := h
  cases c with
  | some row => simp [(updateWhere_eq_some.1 hc).1, ← Except.ok.inj h]
  | none => simp [updateWhere_eq_none.1 hc, ← Except.ok.inj h]

theorem expireConsentTx_eq_commit {b : Bool}
    (h : expireConsentTx now db = .ok (.commit db' b)) :
    (b = false ∧ db' = db) ∨
    (b = true ∧ db.consent.consent.expiresBy now = true ∧
      (db.session.status = .awaitingConfirmation ∨ db.session.status = .approved) ∧
      db'.consent.check = true ∧
      db' = { db with
        consent := { db.consent with
          consent := { db.consent.consent with state := .expired }
          stateChangedAtUnixMs := now }
        session := { db.session with
          status := .awaitingConfirmation, userConfirmed := false, approvedAt := none }
        snapshot := { db.snapshot with userConfirmed := false, approvedAt := none } }) := by
  simp only [expireConsentTx, Checked.bind_eq_ok] at h
  obtain ⟨c, hc, h⟩ := h
  cases c with
  | none =>
      obtain ⟨rfl, rfl⟩ := TxEnd.commit.inj (Except.ok.inj h)
      exact .inl ⟨rfl, rfl⟩
  | some row =>
      obtain ⟨hexp, hcheck, rfl⟩ := updateWhere_eq_some.1 hc
      obtain ⟨⟨session, snapshot⟩, hreset, h⟩ := Checked.bind_eq_ok.1 h
      obtain ⟨hstatus, rfl, rfl⟩ := resetLegacyExecutionApproval_eq_ok hreset
      obtain ⟨rfl, rfl⟩ := TxEnd.commit.inj (Except.ok.inj h)
      exact .inr ⟨rfl, hexp, hstatus, hcheck, rfl⟩

theorem invalidateConsentTx_eq_commit {reason : String} {b : Bool}
    (h : invalidateConsentTx reason now db = .ok (.commit db' b)) :
    (b = false ∧ db' = db) ∨
    (b = true ∧
      (db.consent.consent.state = .pending ∨ db.consent.consent.state = .attested
        ∨ db.consent.consent.state = .expired) ∧
      (db.session.status = .awaitingConfirmation ∨ db.session.status = .approved) ∧
      db'.consent.check = true ∧
      db' = { db with
        consent := { db.consent with
          consent := { db.consent.consent with
            state := .invalidated, invalidatedAtUnixMs := some now,
            invalidationReason := some reason }
          stateChangedAtUnixMs := now }
        session := { db.session with
          status := .awaitingConfirmation, userConfirmed := false, approvedAt := none }
        snapshot := { db.snapshot with userConfirmed := false, approvedAt := none } }) := by
  simp only [invalidateConsentTx, Checked.bind_eq_ok] at h
  obtain ⟨c, hc, h⟩ := h
  cases c with
  | none =>
      obtain ⟨rfl, rfl⟩ := TxEnd.commit.inj (Except.ok.inj h)
      exact .inl ⟨rfl, rfl⟩
  | some row =>
      obtain ⟨hstate, hcheck, rfl⟩ := updateWhere_eq_some.1 hc
      obtain ⟨⟨session, snapshot⟩, hreset, h⟩ := Checked.bind_eq_ok.1 h
      obtain ⟨hstatus, rfl, rfl⟩ := resetLegacyExecutionApproval_eq_ok hreset
      obtain ⟨rfl, rfl⟩ := TxEnd.commit.inj (Except.ok.inj h)
      exact .inr ⟨rfl, hstate, hstatus, hcheck, rfl⟩

theorem consumeConsentTx_eq_commit {u : Unit}
    (h : consumeConsentTx nonce issued expires mac now db = .ok (.commit db' u)) :
    db.consent.consent.state = .attested ∧ db.consent.consent.nonce = some nonce ∧
      db.consent.consent.issuedAtUnixMs = some issued ∧
      db.consent.consent.expiresAtUnixMs = some expires ∧
      db.consent.consent.attestationMac = some mac ∧ now ≤ expires ∧
      db.session.status = .approved ∧ db'.consent.check = true ∧
      db' = { db with
        consent := { db.consent with
          consent := { db.consent.consent with
            state := .consumed, consumedAtUnixMs := some now }
          stateChangedAtUnixMs := now }
        session := { db.session with
          status := .running
          startedAt := db.session.startedAt.or (some (toString now)) } } := by
  simp only [consumeConsentTx, Checked.bind_eq_ok, changedOne_eq_ok] at h
  obtain ⟨_, hc, c, rfl, _, hs, s, rfl, h⟩ := h
  obtain ⟨⟨h1, h2, h3, h4, h5, h6⟩, hcheck, rfl⟩ := updateWhere_eq_some.1 hc
  obtain ⟨hstatus, -, rfl⟩ := updateWhere_eq_some.1 hs
  obtain ⟨rfl, -⟩ := TxEnd.commit.inj (Except.ok.inj h)
  exact ⟨h1, h2, h3, h4, h5, h6, hstatus, hcheck, rfl⟩

end Zemo
