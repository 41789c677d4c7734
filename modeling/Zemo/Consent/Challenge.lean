import Zemo.Persistence.Prepared

set_option autoImplicit false

/-! # Consent challenges

What the user's confirmation is bound to, and the authenticator that proves a challenge was issued
by this application. The keyed signature is a parameter: nothing is assumed of it here except that
it is a function of the material. -/

namespace Zemo

/-- `ConsentAttestationBinding`: the plan, the root and policy it is approved for, and the nonce and
    times of one challenge. -/
structure ConsentAttestationBinding where
  materialVersion : Nat
  planDigest : String
  executionId : ExecutionId
  planId : PlanId
  proposalId : ProposalId
  proposalRevisionId : OrganizationRevisionId
  proposalRevision : Nat
  approvedOperationIds : List ProposalItemId
  approvedOperationCount : Nat
  sourceSnapshotVersion : ScanId
  rootId : RootId
  destinationRoot : ExecutionRootBinding
  safetyPolicy : ExecutionSafetyPolicyBinding
  consentNonce : Bytes32
  issuedAtUnixMs : Int
  expiresAtUnixMs : Int
deriving DecidableEq

/-- The key the application signs challenges with. `bindable` is the validation of the root and
    policy manifests, which does not look at the challenge. -/
structure ConsentAuthority where
  sign : ConsentAttestationBinding → Bytes32
  bindable : ExecutionRootBinding → ExecutionSafetyPolicyBinding → Bool

/-- `ConsentAttestationBinding::validate`, for the fields a challenge adds or counts. -/
def ConsentAttestationBinding.valid (authority : ConsentAuthority)
    (binding : ConsentAttestationBinding) : Bool :=
  binding.materialVersion = executionPlanMaterialVersion
    && !binding.consentNonce.isZero
    && decide (0 ≤ binding.issuedAtUnixMs)
    && decide (binding.issuedAtUnixMs < binding.expiresAtUnixMs)
    && !binding.approvedOperationIds.isEmpty
    && binding.approvedOperationCount = binding.approvedOperationIds.length
    && decide (binding.approvedOperationIds.Pairwise (· < ·))
    && authority.bindable binding.destinationRoot binding.safetyPolicy

/-- `consent_attestation_material`. -/
def consentAttestationMaterial (authority : ConsentAuthority) (detail : ExecutionDetail)
    (nonce : Bytes32) (issuedAtUnixMs expiresAtUnixMs : Int) :
    Option ConsentAttestationBinding :=
  let binding : ConsentAttestationBinding :=
    { materialVersion := detail.consent.materialVersion
      planDigest := detail.approval.snapshotDigest
      executionId := detail.session.id
      planId := detail.approval.planId
      proposalId := detail.approval.proposalId
      proposalRevisionId := detail.approval.proposalRevisionId
      proposalRevision := detail.approval.proposalRevision
      approvedOperationIds := detail.approval.approvedOperationIds
      approvedOperationCount := detail.approval.operationCount
      sourceSnapshotVersion := detail.approval.sourceSnapshotVersion
      rootId := detail.session.rootId
      destinationRoot := detail.consent.destinationRoot
      safetyPolicy := detail.consent.safetyPolicy
      consentNonce := nonce
      issuedAtUnixMs := issuedAtUnixMs
      expiresAtUnixMs := expiresAtUnixMs }
  if binding.valid authority then some binding else none

/-- A challenge as the application hands it out and gets it back. -/
structure ExecutionConsentChallenge where
  material : ConsentAttestationBinding
  authenticator : Bytes32
  /-- The code the user compares, the one member of the summary that is read again. -/
  planVerificationCode : String
deriving DecidableEq

/-- The authenticator of the challenge is the signature of its material. -/
def ExecutionConsentChallenge.authentic (authority : ConsentAuthority)
    (challenge : ExecutionConsentChallenge) : Prop :=
  authority.sign challenge.material = challenge.authenticator

instance (authority : ConsentAuthority) (challenge : ExecutionConsentChallenge) :
    Decidable (challenge.authentic authority) := by
  unfold ExecutionConsentChallenge.authentic; exact inferInstance

/-- The stored consent holds the nonce and times of the challenge. -/
def ExecutionConsent.holds (consent : ExecutionConsent) (challenge : ExecutionConsentChallenge) :
    Prop :=
  consent.nonce = some challenge.material.consentNonce
    ∧ consent.issuedAtUnixMs = some challenge.material.issuedAtUnixMs
    ∧ consent.expiresAtUnixMs = some challenge.material.expiresAtUnixMs

instance (consent : ExecutionConsent) (challenge : ExecutionConsentChallenge) :
    Decidable (consent.holds challenge) := by
  unfold ExecutionConsent.holds; exact inferInstance

/-- The stored consent is the challenge, still waiting for the user. -/
def ExecutionConsent.awaits (consent : ExecutionConsent) (challenge : ExecutionConsentChallenge) :
    Prop :=
  consent.holdsPending challenge.material.consentNonce challenge.material.issuedAtUnixMs
    challenge.material.expiresAtUnixMs

/-! ## A small challenge -/

def sampleAuthority : ConsentAuthority where
  sign := fun _ => Bytes32.filled 3
  bindable := fun _ _ => true

/-- The challenge of the sample execution that is issued at time 1 and expires at time 9. -/
def sampleChallenge : ExecutionConsentChallenge where
  material :=
    { materialVersion := executionPlanMaterialVersion
      planDigest := sampleDigest
      executionId := 1
      planId := 1
      proposalId := 1
      proposalRevisionId := 1
      proposalRevision := 1
      approvedOperationIds := [1]
      approvedOperationCount := 1
      sourceSnapshotVersion := 1
      rootId := 1
      destinationRoot := sampleRoot
      safetyPolicy := { version := "v2", maximumRehashBytes := 1
                        allowQualifiedCaseOnlyRename := false, digestHex := sampleDigest }
      consentNonce := Bytes32.filled 4
      issuedAtUnixMs := 1
      expiresAtUnixMs := 9 }
  authenticator := Bytes32.filled 3
  planVerificationCode := "DDDD-DDDD"

end Zemo
