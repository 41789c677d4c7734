import Zemo.Domain.Journal
import Zemo.Lib.Checked

set_option autoImplicit false

/-! # The stored rows of an execution

One row of each table that belongs to an execution, and the lists of its operations, journal
events, executor sessions and requests. The rows are restricted by the `CHECK` constraints of the
schema; the constraints on the length of texts are not modelled.

A statement of a transaction either fails, which drops the transaction, or yields the rows with
its effect. `Database.transact` publishes the rows of a transaction that commits and forgets those
of one that does not. -/

namespace Zemo

inductive PersistenceError where
  | invalidExecution
  | notFound
  | numericOverflow
  | sqlite
deriving DecidableEq, Repr

/-! ## Rows -/

structure SessionRow where
  id : ExecutionId
  planId : PlanId
  proposalId : ProposalId
  proposalRevisionId : OrganizationRevisionId
  proposalRevision : Nat
  sourceScanId : ScanId
  planDigest : String
  rootId : RootId
  status : OrganizationExecutionStatus
  recoveryState : ExecutionRecoveryState
  summary : ExecutionSummary
  confirmationPhraseRequired : Bool
  userConfirmed : Bool
  rollbackAvailable : Bool
  pauseRequested : Bool
  cancelRequested : Bool
  currentOperation : Option RelPath
  journalSequence : Int
  journalChainHead : Option Bytes32
  createdAt : String
  approvedAt : Option String
  startedAt : Option String
  completedAt : Option String
  rolledBackAt : Option String
  errorMessage : Option String
deriving DecidableEq

/-- `CHECK (approved_at IS NULL OR user_confirmed = 1)` and `CHECK (journal_sequence >= -1)`. -/
def SessionRow.check (row : SessionRow) : Bool :=
  (row.approvedAt.isNone || row.userConfirmed) && decide (-1 ≤ row.journalSequence)

structure ApprovalSnapshotRow where
  planId : PlanId
  proposalId : ProposalId
  proposalRevisionId : OrganizationRevisionId
  proposalRevision : Nat
  sourceSnapshotVersion : ScanId
  approvedOperationIds : List ProposalItemId
  operationCount : Nat
  userConfirmed : Bool
  approvedAt : Option String
  snapshotDigest : String
deriving DecidableEq

/-- `CHECK (approved_at IS NULL OR user_confirmed = 1)`. -/
def ApprovalSnapshotRow.check (row : ApprovalSnapshotRow) : Bool :=
  row.approvedAt.isNone || row.userConfirmed

structure ConsentRow where
  materialVersion : Nat
  destinationRoot : ExecutionRootBinding
  safetyPolicy : ExecutionSafetyPolicyBinding
  consent : ExecutionConsent
  stateChangedAtUnixMs : Int
deriving DecidableEq

/-- Issue time, expiry time and nonce are all there. -/
def ExecutionConsent.challengeComplete (consent : ExecutionConsent) : Bool :=
  consent.issuedAtUnixMs.isSome && consent.expiresAtUnixMs.isSome && consent.nonce.isSome

/-- Issue time, expiry time and nonce are all missing. -/
def ExecutionConsent.challengeEmpty (consent : ExecutionConsent) : Bool :=
  consent.issuedAtUnixMs.isNone && consent.expiresAtUnixMs.isNone && consent.nonce.isNone

/-- The challenge columns are all `NULL`, or all set with an expiry after the issue. -/
def ExecutionConsent.checkChallenge (consent : ExecutionConsent) : Bool :=
  match consent.issuedAtUnixMs, consent.expiresAtUnixMs, consent.nonce with
  | none, none, none => true
  | some issued, some expires, some _ => decide (issued < expires)
  | _, _, _ => false

/-- The attestation columns are both `NULL`, or both set with a time within the challenge. -/
def ExecutionConsent.checkAttestation (consent : ExecutionConsent) : Bool :=
  match consent.attestedAtUnixMs, consent.attestationMac with
  | none, none => true
  | some attested, some _ =>
      match consent.issuedAtUnixMs, consent.expiresAtUnixMs with
      | some issued, some expires => decide (issued ≤ attested) && decide (attested ≤ expires)
      | _, _ => false
  | _, _ => false

/-- The columns each state requires and excludes. -/
def ExecutionConsent.checkState (consent : ExecutionConsent) : Bool :=
  match consent.state with
  | .pending =>
      consent.attestedAtUnixMs.isNone && consent.consumedAtUnixMs.isNone
        && consent.invalidatedAtUnixMs.isNone
  | .attested =>
      consent.issuedAtUnixMs.isSome && consent.attestedAtUnixMs.isSome
        && consent.consumedAtUnixMs.isNone && consent.invalidatedAtUnixMs.isNone
  | .consumed =>
      match consent.attestedAtUnixMs, consent.consumedAtUnixMs with
      | some attested, some consumed =>
          consent.issuedAtUnixMs.isSome && decide (attested ≤ consumed)
            && consent.invalidatedAtUnixMs.isNone
      | _, _ => false
  | .expired =>
      consent.issuedAtUnixMs.isSome && consent.consumedAtUnixMs.isNone
        && consent.invalidatedAtUnixMs.isNone
  | .invalidated =>
      consent.consumedAtUnixMs.isNone && consent.invalidatedAtUnixMs.isSome
        && consent.invalidationReason.isSome

/-- The `CHECK` constraints of `local_execution_consents`. -/
def ConsentRow.check (row : ConsentRow) : Bool :=
  row.consent.checkChallenge && row.consent.checkAttestation && row.consent.checkState

structure ExecutorRequestRow where
  requestId : String
  sessionId : String
  operationId : OperationStepId
  direction : ExecutorRequestDirection
  requestSequence : Nat
  requestNonce : Bytes32
  requestDigest : String
  intentEventSequence : Nat
  intentEventDigest : Bytes32
  state : ExecutorRequestState
  responseDigest : Option String
  outcomeClass : Option String
  attemptCount : Option Nat
  errorClass : Option String
  preparedAt : String
  responseRecordedAt : Option String
  proofRecordedAt : Option String
deriving DecidableEq

structure RollbackRecordRow where
  operationId : OperationStepId
  rollbackOrder : Nat
  sourceRelativePath : RelPath
  destinationRelativePath : RelPath
  expectedFingerprint : Option FileFingerprint
  preparedAt : String
deriving DecidableEq

structure RecoveryRow where
  recoveryState : ExecutionRecoveryState
  notStartedCount : Nat
  appliedCount : Nat
  ambiguousCount : Nat
  verifiedAppliedItems : List RecoveryItem
  verifiedNotStartedItems : List RecoveryItem
  ambiguousItems : List RecoveryItem
  assessedAt : String
  resolvedAt : Option String
deriving DecidableEq

structure RetentionRow where
  finalizedAt : Option String
  journalRetentionReason : String
  rollbackRetentionReason : String
  minimumRetainUntil : Option String
  activeRecovery : Bool
  rollbackEligible : Bool
  cleanupEligibleAt : Option String
  cleanupEligibilityReason : String
  updatedAt : String
deriving DecidableEq

structure ExecutionErrorRow where
  operationId : Option OperationStepId
  category : ExecutionFailureCategory
  code : String
  userMessage : String
  technicalDetails : Option String
  createdAt : String
deriving DecidableEq

/-- Everything stored for one execution. -/
structure Database where
  session : SessionRow
  snapshot : ApprovalSnapshotRow
  consent : ConsentRow
  operations : List ExecutionOperation
  journal : List OperationJournalEvent
  executorSessions : List ExecutorSessionIdentity
  executorRequests : List ExecutorRequestRow
  rollbackRecords : List RollbackRecordRow
  recovery : Option RecoveryRow
  retention : RetentionRow
  errors : List ExecutionErrorRow
deriving DecidableEq

/-! ## Statements and transactions -/

/-- `UPDATE .. SET .. WHERE ..` on the one row a table has for the execution: nothing when the row
    is not selected, an error when the new row violates a constraint. -/
def updateWhere {ρ : Type} (check : ρ → Bool) (selected : Prop) [Decidable selected] (new : ρ) :
    Except PersistenceError (Option ρ) :=
  if selected then
    if check new then .ok (some new) else .error .sqlite
  else .ok none

/-- `if changed != 1 { return Err(InvalidExecution) }`. -/
def changedOne {ρ : Type} (changed : Option ρ) : Except PersistenceError ρ :=
  Checked.orError changed .invalidExecution

theorem updateWhere_eq_some {ρ : Type} {check : ρ → Bool} {selected : Prop} [Decidable selected]
    {new row : ρ} :
    updateWhere check selected new = .ok (some row) ↔ selected ∧ check new = true ∧ row = new := by
  by_cases hs : selected <;> by_cases hc : check new = true <;>
    simp [updateWhere, hs, hc, eq_comm]

theorem updateWhere_eq_none {ρ : Type} {check : ρ → Bool} {selected : Prop} [Decidable selected]
    {new : ρ} : updateWhere check selected new = .ok none ↔ ¬selected := by
  by_cases hs : selected <;> by_cases hc : check new = true <;> simp [updateWhere, hs, hc]

theorem changedOne_eq_ok {ρ : Type} {changed : Option ρ} {row : ρ} :
    changedOne changed = .ok row ↔ changed = some row :=
  Checked.orError_eq_ok

/-- How a transaction ends when no statement of it fails. -/
inductive TxEnd (α : Type) where
  | commit (db : Database) (value : α)
  | drop (value : α)

/-- Run a transaction. Only a commit changes the stored rows. -/
def Database.transact {α : Type} (db : Database)
    (tx : Database → Except PersistenceError (TxEnd α)) : Except PersistenceError α × Database :=
  match tx db with
  | .ok (.commit db' a) => (.ok a, db')
  | .ok (.drop a) => (.ok a, db)
  | .error e => (.error e, db)

/-- A transaction that fails leaves the rows as they were. -/
theorem Database.transact_error {α : Type} {db db' : Database}
    {tx : Database → Except PersistenceError (TxEnd α)} {e : PersistenceError}
    (h : db.transact tx = (.error e, db')) : db' = db := by
  unfold Database.transact at h
  split at h
  · simp at h
  · simp at h
  · exact (Prod.mk.inj h).2.symm

/-- The rows after a transaction are the old ones or those it committed. -/
theorem Database.transact_cases {α : Type} (db : Database)
    (tx : Database → Except PersistenceError (TxEnd α)) :
    (db.transact tx).2 = db ∨ ∃ a, tx db = .ok (.commit (db.transact tx).2 a) := by
  unfold Database.transact
  split
  · exact .inr ⟨_, ‹_›⟩
  · exact .inl rfl
  · exact .inl rfl

end Zemo
