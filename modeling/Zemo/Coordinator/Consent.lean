import Zemo.Coordinator.Journal

set_option autoImplicit false

/-! # Asking for consent

The calls around the user's confirmation: a challenge is created, finalized or discarded, and an
execution is paused or cancelled. Creating a challenge, finalizing it and starting the execution
all check first that the plan, the proposal, the policy, the root and the approved sources are
still those that were approved; a change invalidates the consent. -/

namespace Zemo

variable {χ : Type}

def executionConsentLifetimeMs : Int := 10 * 60 * 1000

def confirmationPhrase : String := "ORGANIZE"

/-! ## The context of a consent -/

/-- The check of one approved source. -/
def revalidateApprovedSource (policy : FilePolicy) (tree : Tree) (op : ExecutionOperation) :
    Except ApplicationError Unit := do
  let source ← Checked.orError (op.originalSourceRelativePath.or op.sourceRelativePath)
    .invalidExecution
  let _ ← relativePath policy source
  let _ ← expectFile policy tree source op.liveFingerprint
    "approved source changed after execution plan preparation"
  return ()

/-- The checks of a list of operations, in order. -/
def checkAll (f : ExecutionOperation → Except ApplicationError Unit) :
    List ExecutionOperation → Except ApplicationError Unit
  | [] => .ok ()
  | op :: rest => f op >>= fun _ => checkAll f rest

/-- `revalidate_approved_sources`. -/
def revalidateApprovedSources (policy : FilePolicy) (tree : Tree) (detail : ExecutionDetail) :
    Except ApplicationError Unit := do
  let approved := detail.approval.approvedOperationIds
  let operations := detail.operations.filter fun op => op.proposalOperationId.any (· ∈ approved)
  let observed := operations.filterMap (·.proposalOperationId)
  checkAll (revalidateApprovedSource policy tree) operations
  Checked.require (observed.Nodup ∧ approved.all (· ∈ observed)) .invalidExecution

/-- Why the context of a consent is not the approved one, with the error the caller gets. A reason
    invalidates the consent. -/
structure ContextFailure where
  reason : Option String
  error : ApplicationError

/-- What `revalidate_consent_context_or_invalidate` finds. -/
def consentContext (env : Env χ) (detail : ExecutionDetail) (outside : Outside) :
    Except ContextFailure Unit := do
  Checked.require (verifyPlanDigest env.hashes.plan detail = true)
    ⟨some "plan_digest_changed", .invalidExecution⟩
  Checked.require (outside.approvalCurrent = true)
    ⟨some "proposal_revision_changed", .executionApprovalRequired⟩
  let policyBinding ← Checked.orError env.policyBinding ⟨none, .invalidExecution⟩
  Checked.require (policyBinding = detail.consent.safetyPolicy)
    ⟨some "safety_policy_changed", .executionApprovalRequired⟩
  let rootId ← Checked.orError outside.rootById
    ⟨some "destination_root_unavailable", .persistence .notFound⟩
  Checked.require (rootId = detail.session.rootId)
    ⟨some "destination_root_changed", .executionApprovalRequired⟩
  Checked.require (outside.rootValid = true)
    ⟨some "destination_root_invalid", .safety .invalidRoot⟩
  let rootBinding ← Checked.orError outside.rootBinding
    ⟨some "destination_volume_unavailable", .platform (.precondition "")⟩
  Checked.require (rootBinding = detail.consent.destinationRoot)
    ⟨some "destination_root_identity_changed", .executionApprovalRequired⟩
  (revalidateApprovedSources env.files outside.tree detail).mapError fun e =>
    ⟨some "source_fingerprint_changed", e⟩

/-- `invalidate_unstarted_consent`. -/
def invalidateUnstartedConsent (env : Env χ) (reason : String) : Coordinator χ Unit := do
  let now ← nowUnixMs
  let changed ← write env (.invalidateConsent reason now)
  Prog.ensure (changed = true) .invalidExecution

/-- Act on what was found of the context. -/
def acceptContext (env : Env χ) (found : Except ContextFailure Unit) : Coordinator χ Unit :=
  match found with
  | .ok _ => pure ()
  | .error ⟨none, e⟩ => Prog.fail e
  | .error ⟨some reason, e⟩ => invalidateUnstartedConsent env reason >>= fun _ => Prog.fail e

/-- `revalidate_consent_context_or_invalidate`. -/
def revalidateConsentContextOrInvalidate (env : Env χ) (detail : ExecutionDetail) :
    Coordinator χ Unit :=
  look (fun outside => .ok (consentContext env detail outside)) >>= acceptContext env

/-! ## Challenges -/

/-- The material of a challenge, or an error when it is not valid. -/
def challengeMaterial (env : Env χ) (detail : ExecutionDetail) (nonce : Bytes32)
    (issuedAtUnixMs expiresAtUnixMs : Int) : Coordinator χ ConsentAttestationBinding :=
  Prog.orFail
    (consentAttestationMaterial env.authority detail nonce issuedAtUnixMs expiresAtUnixMs)
    .invalidExecution

/-- `plan_verification_code`. -/
def planVerificationCode (digest : String) : String :=
  let compact := (digest.toList.take 8).map Char.toUpper
  if compact.length = 8 then
    String.ofList (compact.take 4) ++ "-" ++ String.ofList (compact.drop 4)
  else "INVALID"

/-- `create_execution_consent_challenge_at`, with the phrase the user typed, trimmed, and the nonce
    that is drawn. -/
def createExecutionConsentChallenge (env : Env χ) (phrase : Option String)
    (nonce : Bytes32) (issuedAtUnixMs : Int) : Coordinator χ ExecutionConsentChallenge := do
  requireApplyGate env
  let detail ← readDetail
  requireValidDatabaseJournal env
  synchronizeExternalJournal false
  Prog.ensure (detail.session.status = .awaitingConfirmation
    ∧ (detail.consent.consent.state = .pending ∨ detail.consent.consent.state = .expired))
    .invalidExecution
  Prog.ensure (detail.approval.operationCount < env.largeBatchConfirmationThreshold
    ∨ phrase = some confirmationPhrase)
    (.safety .confirmationPhraseRequired)
  revalidateConsentContextOrInvalidate env detail
  let expiresAtUnixMs := issuedAtUnixMs + executionConsentLifetimeMs
  let material ← challengeMaterial env detail nonce issuedAtUnixMs expiresAtUnixMs
  let _ ← write env (.issueConsentChallenge nonce issuedAtUnixMs expiresAtUnixMs)
  let _ ← readDetail
  return { material := material, authenticator := env.authority.sign material,
           planVerificationCode := planVerificationCode detail.session.planDigest }

/-- Expire the consent when the challenge is late. -/
def requireInTime (env : Env χ) (now expiresAtUnixMs : Int) : Coordinator χ Unit :=
  if expiresAtUnixMs ≤ now then
    write env (.expireConsent now) >>= fun _ => Prog.fail .executionConsentExpired
  else pure ()

/-- The draft of the event that starts the journal of an execution. -/
def approvedDraft (detail : ExecutionDetail) (challenge : ExecutionConsentChallenge) :
    EventDraft where
  executionId := detail.session.id
  kind := .approvedDurable
  payload :=
    { event := "approved_durable"
      details :=
        [("plan_id", .number detail.session.planId),
          ("plan_digest", .text detail.session.planDigest),
          ("proposal_id", .number detail.approval.proposalId),
          ("proposal_revision", .number detail.approval.proposalRevision),
          ("approved_operation_ids", .ids detail.approval.approvedOperationIds),
          ("native_confirmation_attested", .flag true),
          ("consent_issued_at_unix_ms", .number challenge.material.issuedAtUnixMs),
          ("consent_expires_at_unix_ms", .number challenge.material.expiresAtUnixMs),
          ("plan_verification_code", .text challenge.planVerificationCode),
          ("large_batch_phrase_verified", .flag detail.session.confirmationPhraseRequired)] }
  sessionStatus := some .approved

/-- The part of `finalize_execution_consent_at` after the attestation: the journal starts with the
    approval. -/
def recordApproval (env : Env χ) (detail : ExecutionDetail)
    (challenge : ExecutionConsentChallenge) (events : List OperationJournalEvent) :
    Coordinator χ Unit :=
  match events with
  | [] => do
      let _ ← persistEvent env (approvedDraft detail challenge) { sequence := 0, previous := none }
      return ()
  | first :: _ => do
      Prog.ensure (first.kind = .approvedDurable) .invalidExecution
      synchronizeExternalJournal false

/-- `finalize_execution_consent_at`. -/
def finalizeExecutionConsent (env : Env χ) (challenge : ExecutionConsentChallenge)
    (attestedAtUnixMs : Int) : Coordinator χ ExecutionDetail := do
  requireApplyGate env
  requireValidDatabaseJournal env
  synchronizeExternalJournal false
  Prog.ensure (challenge.authentic env.authority) .invalidExecution
  requireInTime env attestedAtUnixMs challenge.material.expiresAtUnixMs
  let detail ← readDetail
  Prog.ensure (detail.session.status = .awaitingConfirmation
    ∧ detail.consent.consent.state = .pending) .invalidExecution
  revalidateConsentContextOrInvalidate env detail
  let expected ← challengeMaterial env detail challenge.material.consentNonce
    challenge.material.issuedAtUnixMs challenge.material.expiresAtUnixMs
  Prog.ensure (expected = challenge.material) .invalidExecution
  let _ ← write env (.attestConsent challenge.material.consentNonce
    challenge.material.issuedAtUnixMs challenge.material.expiresAtUnixMs challenge.authenticator
    attestedAtUnixMs)
  let detail ← readDetail
  let events ← readJournal
  recordApproval env detail challenge events
  readDetail

/-- `discard_execution_consent_challenge`. -/
def discardExecutionConsentChallenge (env : Env χ) (challenge : ExecutionConsentChallenge) :
    Coordinator χ Bool := do
  requireMutationsUnlocked
  Prog.ensure (challenge.authentic env.authority) .invalidExecution
  let now ← nowUnixMs
  write env (.clearConsentChallenge challenge.material.consentNonce
    challenge.material.issuedAtUnixMs challenge.material.expiresAtUnixMs now)

/-! ## Pausing and cancelling -/

/-- `pause_execution`. -/
def pauseExecution (env : Env χ) : Coordinator χ Bool := do
  requireMutationsUnlocked
  write env (.control true false)

/-- Invalidate the consent of an execution that is cancelled. -/
def invalidateCancelled (env : Env χ) : Coordinator χ Unit := do
  let now ← nowUnixMs
  let _ ← write env (.invalidateConsent "execution_cancelled" now)
  return ()

/-- End an approved or paused execution. -/
def finishCancelled (env : Env χ) (detail : ExecutionDetail) : Coordinator χ Bool := do
  let cursor ← journalCursor
  let _ ← finishExecution env detail.session.id .cancelled
    "Execution cancelled between safe operation units." cursor
  return true

/-- What `cancel_execution` does in each status. -/
def cancelIn (env : Env χ) (detail : ExecutionDetail) : Coordinator χ Bool :=
  match detail.session.status with
  | .running => write env (.control false true)
  | .awaitingConfirmation => do
      invalidateCancelled env
      let completedAt ← nowIso env
      write env (.cancelUnstarted completedAt)
  | .approved => do
      synchronizeExternalJournal false
      invalidateCancelled env
      finishCancelled env detail
  | .paused => do
      synchronizeExternalJournal false
      finishCancelled env detail
  | _ => pure false

/-- `cancel_execution`. -/
def cancelExecution (env : Env χ) : Coordinator χ Bool := do
  requireMutationsUnlocked
  let detail ← readDetail
  cancelIn env detail

end Zemo
