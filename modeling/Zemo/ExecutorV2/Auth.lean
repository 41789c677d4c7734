import Mathlib.Algebra.Group.Int.Defs
import Mathlib.Algebra.Group.Nat.Defs
import Zemo.ExecutorV2.Model

set_option autoImplicit false

/-! # Executor protocol, version 2: authenticated messages

Every message carries a keyed MAC over all its other fields. The UUID parser, the encoding of the
material under a MAC and the keyed hash are parameters (`Wire`); the model says which fields are
under which MAC, and in which order a receiver checks them. -/

namespace Zemo.ExecutorV2

open Checked

def maxClockSkewMs : Int := 30000
def maxSessionLifetimeMs : Int := 15 * 60 * 1000
def maxMessageLifetimeMs : Int := 30000

def helloMacDomain : String := "com.workingname.operation-executor/v2/hello-mac\x00"
def openSessionMacDomain : String := "com.workingname.operation-executor/v2/open-session-mac\x00"
def sessionKeyDomain : String := "com.workingname.operation-executor/v2/session-key\x00"
def consentKeyDomain : String := "com.workingname.operation-executor/v2/consent-authority-key\x00"
def consentAttestationMacDomain : String :=
  "com.workingname.operation-executor/v2/consent-attestation-mac\x00"
def sessionOpenedMacDomain : String :=
  "com.workingname.operation-executor/v2/session-opened-mac\x00"
def requestMacDomain : String := "com.workingname.operation-executor/v2/request-mac\x00"
def responseMacDomain : String := "com.workingname.operation-executor/v2/response-mac\x00"
def refusalMacDomain : String := "com.workingname.operation-executor/v2/handshake-refusal-mac\x00"

/-! ## Errors -/

inductive AuthenticationError where
  | unsupportedVersion
  | invalidMac
  | invalidBinding
  | sequenceMismatch
  | nonceReplay
  | staleOrInvalidTime
  | serialization
  | validation (error : ValidationError)
deriving DecidableEq, Repr

namespace AuthenticationError

/-- The text of an authentication error. -/
def text : AuthenticationError → String
  | unsupportedVersion => "unsupported executor protocol version"
  | invalidMac => "executor message authentication failed"
  | invalidBinding => "executor message binding is invalid"
  | sequenceMismatch => "executor message sequence is invalid"
  | nonceReplay => "executor message nonce was replayed"
  | staleOrInvalidTime => "executor message is stale or has an invalid clock range"
  | serialization => "executor protocol material could not be serialized"
  | validation error => error.text

/-- `AuthenticationError::refusal_category`. -/
def refusalCategory : AuthenticationError → ProtocolRefusalCategory
  | invalidMac => .authentication
  | sequenceMismatch | nonceReplay => .replay
  | unsupportedVersion | invalidBinding | staleOrInvalidTime | serialization | validation _ =>
    .protocol

/-- `AuthenticationError::refusal_code`. -/
def refusalCode : AuthenticationError → String
  | unsupportedVersion => "unsupported_protocol"
  | invalidMac => "authentication_failed"
  | invalidBinding => "binding_mismatch"
  | sequenceMismatch => "sequence_replay"
  | nonceReplay => "message_nonce_replay"
  | staleOrInvalidTime => "stale_or_invalid_time"
  | serialization => "protocol_serialization_failed"
  | validation _ => "protocol_validation_failed"

end AuthenticationError

/-- A validation error reported as an authentication error. -/
def validated {α : Type} (result : Except ValidationError α) : Except AuthenticationError α :=
  result.mapError .validation

/-! ## What is under a MAC -/

structure HelloMacMaterial where
  protocolVersion : Nat
  schemaVersion : Nat
  workerPid : Nat
  workerNonce : Bytes32
  issuedAtUnixMs : Int
deriving DecidableEq

structure OpenSessionMacMaterial where
  protocolVersion : Nat
  schemaVersion : Nat
  childPid : Nat
  coordinatorPid : Nat
  workerNonce : Bytes32
  coordinatorNonce : Bytes32
  sessionId : Bytes32
  executionId : String
  planId : String
  planDigest : Bytes32
  issuedAtUnixMs : Int
  expiresAtUnixMs : Int
  authorization : SessionAuthorization
  envelope : ImmutableExecutionEnvelope
deriving DecidableEq

structure SessionKeyMaterial where
  protocolVersion : Nat
  schemaVersion : Nat
  workerPid : Nat
  coordinatorPid : Nat
  workerNonce : Bytes32
  coordinatorNonce : Bytes32
  sessionId : Bytes32
  executionId : String
  planId : String
  planDigest : Bytes32
  authorization : SessionAuthorization
deriving DecidableEq

structure SessionOpenedMacMaterial where
  protocolVersion : Nat
  schemaVersion : Nat
  sessionId : Bytes32
  workerPid : Nat
  coordinatorPid : Nat
  workerNonce : Bytes32
  coordinatorNonce : Bytes32
  responseNonce : Bytes32
  issuedAtUnixMs : Int
deriving DecidableEq

structure OperationRequestMacMaterial where
  protocolVersion : Nat
  schemaVersion : Nat
  sessionId : Bytes32
  sequence : Nat
  messageNonce : Bytes32
  sentAtUnixMs : Int
  expiresAtUnixMs : Int
  executionId : String
  planId : String
  planDigest : Bytes32
  operation : OperationBinding
deriving DecidableEq

structure OperationResponseMacMaterial extends OperationRequestMacMaterial where
  outcome : ExecutorOutcome
deriving DecidableEq

structure HandshakeRefusalMacMaterial where
  protocolVersion : Nat
  schemaVersion : Nat
  workerPid : Nat
  workerNonce : Bytes32
  responseNonce : Bytes32
  issuedAtUnixMs : Int
  refusal : ProtocolRefusal
deriving DecidableEq

/-- Everything the protocol takes a keyed hash of. -/
inductive MacMaterial where
  | consent (binding : ConsentAttestationBinding)
  | hello (material : HelloMacMaterial)
  | openSession (material : OpenSessionMacMaterial)
  | sessionKey (material : SessionKeyMaterial)
  | sessionOpened (material : SessionOpenedMacMaterial)
  | request (material : OperationRequestMacMaterial)
  | response (material : OperationResponseMacMaterial)
  | refusal (material : HandshakeRefusalMacMaterial)
deriving DecidableEq

/-- What the protocol takes from libraries: the UUID parser, the encoding of materials and the keyed
    hash. -/
structure Wire where
  parseUuid : String → Option Nat
  json : MacMaterial → List UInt8
  keyedHash : Bytes32 → List UInt8 → Bytes32

/-- `keyed_mac`. -/
def keyedMac (wire : Wire) (domain : String) (key : Bytes32) (material : MacMaterial) : Bytes32 :=
  wire.keyedHash key (domain.toUTF8.data.toList ++ wire.json material)

/-! ## Checks all messages share -/

/-- The bounds of an `i64`. -/
def saturate (n : Int) : Int := max (-2 ^ 63) (min (2 ^ 63 - 1) n)

/-- `require_mac`. -/
def requireMac (expected presented : Bytes32) : Except AuthenticationError Unit :=
  require (expected = presented) .invalidMac

/-- `require_versions`. -/
def requireVersions (protocolVersion schemaVersion : Nat) : Except AuthenticationError Unit :=
  require (protocolVersion = ExecutorV2.protocolVersion
    ∧ schemaVersion = ExecutorV2.schemaVersion) .unsupportedVersion

/-- `within_clock_window`. -/
def withinClockWindow (value now window : Int) : Prop :=
  saturate (now - window) ≤ value ∧ value ≤ saturate (now + window)

instance (value now window : Int) : Decidable (withinClockWindow value now window) :=
  inferInstanceAs (Decidable (_ ∧ _))

/-- `validate_session_time`. -/
def validateSessionTime (issuedAt expiresAt : Int) (authorization : SessionAuthorization)
    (envelope : ImmutableExecutionEnvelope) (now : Int) : Except AuthenticationError Unit :=
  require (0 ≤ issuedAt ∧ issuedAt < expiresAt
    ∧ saturate (expiresAt - issuedAt) ≤ maxSessionLifetimeMs
    ∧ withinClockWindow issuedAt now maxClockSkewMs ∧ now < expiresAt
    ∧ (authorization = .forward → expiresAt ≤ envelope.consent.expiresAtUnixMs))
    .staleOrInvalidTime

/-- `validate_message_time`. -/
def validateMessageTime (sentAt expiresAt sessionExpiresAt now : Int) :
    Except AuthenticationError Unit :=
  require (0 ≤ sentAt ∧ sentAt < expiresAt ∧ expiresAt ≤ sessionExpiresAt
    ∧ saturate (expiresAt - sentAt) ≤ maxMessageLifetimeMs
    ∧ withinClockWindow sentAt now maxClockSkewMs ∧ now < expiresAt) .staleOrInvalidTime

/-- `derive_consent_authority_key`. -/
def deriveConsentAuthorityKey (wire : Wire) (rootAuthorityKey : Bytes32) : Bytes32 :=
  wire.keyedHash rootAuthorityKey consentKeyDomain.toUTF8.data.toList

/-- `sign_consent_attestation`. -/
def signConsentAttestation (wire : Wire) (binding : ConsentAttestationBinding)
    (consentAuthorityKey : Bytes32) : Except AuthenticationError Bytes32 := do
  validated (binding.validate wire.parseUuid)
  .ok (keyedMac wire consentAttestationMacDomain consentAuthorityKey (.consent binding))

/-- `verify_envelope_consent`. -/
def verifyEnvelopeConsent (wire : Wire) (envelope : ImmutableExecutionEnvelope)
    (rootAuthorityKey : Bytes32) (now : Int) (requireUnexpired : Bool) :
    Except AuthenticationError Unit := do
  let binding := ConsentAttestationBinding.fromEnvelope envelope
  validated (binding.validate wire.parseUuid)
  let expected ← signConsentAttestation wire binding
    (deriveConsentAuthorityKey wire rootAuthorityKey)
  requireMac expected envelope.consent.attestationMac
  require (envelope.consent.issuedAtUnixMs ≤ envelope.consent.attestedAtUnixMs
    ∧ (requireUnexpired = true → now < envelope.consent.expiresAtUnixMs)) .staleOrInvalidTime

/-! ## The handshake -/

structure Hello extends HelloMacMaterial where
  mac : Bytes32
deriving DecidableEq

/-- `Hello::signed`. -/
def Hello.signed (wire : Wire) (workerPid : Nat) (workerNonce : Bytes32) (issuedAt : Int)
    (rootAuthorityKey : Bytes32) : Except AuthenticationError Hello := do
  require (workerPid ≠ 0 ∧ workerNonce.isZero = false ∧ 0 ≤ issuedAt) .invalidBinding
  let material : HelloMacMaterial :=
    { protocolVersion, schemaVersion, workerPid, workerNonce, issuedAtUnixMs := issuedAt }
  .ok { material with mac := keyedMac wire helloMacDomain rootAuthorityKey (.hello material) }

structure OpenSession extends OpenSessionMacMaterial where
  mac : Bytes32
deriving DecidableEq

namespace OpenSession

/-- `OpenSession::verify`. -/
def verify (wire : Wire) (open_ : OpenSession) (hello : Hello) (rootAuthorityKey : Bytes32)
    (now : Int) : Except AuthenticationError Unit := do
  requireVersions open_.protocolVersion open_.schemaVersion
  requireMac
    (keyedMac wire openSessionMacDomain rootAuthorityKey
      (.openSession open_.toOpenSessionMacMaterial)) open_.mac
  validated (open_.envelope.validate wire.parseUuid)
  validated (open_.authorization.validate wire.parseUuid open_.envelope)
  require (open_.childPid ≠ 0 ∧ open_.coordinatorPid ≠ 0 ∧ open_.workerNonce.isZero = false
    ∧ open_.coordinatorNonce.isZero = false ∧ open_.sessionId.isZero = false
    ∧ open_.childPid = hello.workerPid ∧ open_.workerNonce = hello.workerNonce
    ∧ open_.executionId = open_.envelope.executionId
    ∧ open_.planId = open_.envelope.plan.planId
    ∧ open_.planDigest = open_.envelope.plan.digest) .invalidBinding
  validateSessionTime open_.issuedAtUnixMs open_.expiresAtUnixMs open_.authorization
    open_.envelope now
  verifyEnvelopeConsent wire open_.envelope rootAuthorityKey now
    (open_.authorization = .forward)

end OpenSession

/-- `derive_session_key`. -/
def deriveSessionKey (wire : Wire) (rootAuthorityKey : Bytes32) (hello : Hello)
    (open_ : OpenSession) : Bytes32 :=
  keyedMac wire sessionKeyDomain rootAuthorityKey (.sessionKey
    { protocolVersion, schemaVersion
      workerPid := hello.workerPid
      coordinatorPid := open_.coordinatorPid
      workerNonce := hello.workerNonce
      coordinatorNonce := open_.coordinatorNonce
      sessionId := open_.sessionId
      executionId := open_.executionId
      planId := open_.planId
      planDigest := open_.planDigest
      authorization := open_.authorization })

structure SessionOpened extends SessionOpenedMacMaterial where
  mac : Bytes32
deriving DecidableEq

/-- `SessionOpened::signed`. -/
def SessionOpened.signed (wire : Wire) (open_ : OpenSession) (responseNonce : Bytes32)
    (issuedAt : Int) (sessionKey : Bytes32) : Except AuthenticationError SessionOpened := do
  require (responseNonce.isZero = false ∧ 0 ≤ issuedAt) .invalidBinding
  let material : SessionOpenedMacMaterial :=
    { protocolVersion, schemaVersion, sessionId := open_.sessionId, workerPid := open_.childPid,
      coordinatorPid := open_.coordinatorPid, workerNonce := open_.workerNonce,
      coordinatorNonce := open_.coordinatorNonce, responseNonce, issuedAtUnixMs := issuedAt }
  .ok { material with
        mac := keyedMac wire sessionOpenedMacDomain sessionKey (.sessionOpened material) }

structure HandshakeRefusal extends HandshakeRefusalMacMaterial where
  mac : Bytes32
deriving DecidableEq

/-- `HandshakeRefusal::signed`. -/
def HandshakeRefusal.signed (wire : Wire) (hello : Hello) (responseNonce : Bytes32)
    (issuedAt : Int) (refusal : ProtocolRefusal) (rootAuthorityKey : Bytes32) :
    Except AuthenticationError HandshakeRefusal := do
  validated refusal.validate
  require (responseNonce.isZero = false ∧ 0 ≤ issuedAt) .invalidBinding
  let material : HandshakeRefusalMacMaterial :=
    { protocolVersion, schemaVersion, workerPid := hello.workerPid,
      workerNonce := hello.workerNonce, responseNonce, issuedAtUnixMs := issuedAt, refusal }
  .ok { material with mac := keyedMac wire refusalMacDomain rootAuthorityKey (.refusal material) }

/-! ## Requests -/

structure AuthenticatedOperationRequest extends OperationRequestMacMaterial where
  mac : Bytes32
deriving DecidableEq

namespace AuthenticatedOperationRequest

/-- The MAC a holder of the session key puts on the request. -/
def expectedMac (wire : Wire) (sessionKey : Bytes32) (request : AuthenticatedOperationRequest) :
    Bytes32 :=
  keyedMac wire requestMacDomain sessionKey (.request request.toOperationRequestMacMaterial)

/-- The fields of a request for `operation` in the session. -/
def material (open_ : OpenSession) (sequence : Nat) (messageNonce : Bytes32)
    (sentAt expiresAt : Int) (operation : OperationBinding) : OperationRequestMacMaterial :=
  { protocolVersion, schemaVersion, sessionId := open_.sessionId, sequence, messageNonce,
    sentAtUnixMs := sentAt, expiresAtUnixMs := expiresAt, executionId := open_.executionId,
    planId := open_.planId, planDigest := open_.planDigest, operation }

/-- `AuthenticatedOperationRequest::signed`. -/
def signed (wire : Wire) (open_ : OpenSession) (sequence : Nat) (messageNonce : Bytes32)
    (sentAt expiresAt : Int) (operation : OperationBinding) (sessionKey : Bytes32) :
    Except AuthenticationError AuthenticatedOperationRequest := do
  validated (operation.validate wire.parseUuid)
  require (sequence ≠ 0 ∧ messageNonce.isZero = false) .invalidBinding
  validateMessageTime sentAt expiresAt open_.expiresAtUnixMs sentAt
  let material := material open_ sequence messageNonce sentAt expiresAt operation
  .ok { material with mac := keyedMac wire requestMacDomain sessionKey (.request material) }

/-- `AuthenticatedOperationRequest::verify`. -/
def verify (wire : Wire) (request : AuthenticatedOperationRequest) (open_ : OpenSession)
    (expectedSequence : Nat) (sessionKey : Bytes32) (now : Int) :
    Except AuthenticationError Unit := do
  requireVersions request.protocolVersion request.schemaVersion
  requireMac (request.expectedMac wire sessionKey) request.mac
  validated (request.operation.validate wire.parseUuid)
  require (request.sequence ≠ 0 ∧ request.messageNonce.isZero = false
    ∧ request.sessionId = open_.sessionId ∧ request.executionId = open_.executionId
    ∧ request.planId = open_.planId ∧ request.planDigest = open_.planDigest) .invalidBinding
  require (request.sequence = expectedSequence) .sequenceMismatch
  validateMessageTime request.sentAtUnixMs request.expiresAtUnixMs open_.expiresAtUnixMs now

end AuthenticatedOperationRequest

/-! ## Responses -/

structure AuthenticatedOperationResponse extends OperationResponseMacMaterial where
  mac : Bytes32
deriving DecidableEq

namespace AuthenticatedOperationResponse

/-- The MAC a holder of the session key puts on the response. -/
def expectedMac (wire : Wire) (sessionKey : Bytes32) (response : AuthenticatedOperationResponse) :
    Bytes32 :=
  keyedMac wire responseMacDomain sessionKey (.response response.toOperationResponseMacMaterial)

/-- `AuthenticatedOperationResponse::signed`. -/
def signed (wire : Wire) (open_ : OpenSession) (sequence : Nat) (messageNonce : Bytes32)
    (sentAt expiresAt : Int) (operation : OperationBinding) (outcome : ExecutorOutcome)
    (sessionKey : Bytes32) : Except AuthenticationError AuthenticatedOperationResponse := do
  validated (operation.validate wire.parseUuid)
  validated outcome.validate
  require (sequence ≠ 0 ∧ messageNonce.isZero = false) .invalidBinding
  validateMessageTime sentAt expiresAt open_.expiresAtUnixMs sentAt
  let material : OperationResponseMacMaterial :=
    { AuthenticatedOperationRequest.material open_ sequence messageNonce sentAt expiresAt operation
      with outcome }
  .ok { material with mac := keyedMac wire responseMacDomain sessionKey (.response material) }

/-- `AuthenticatedOperationResponse::verify`. -/
def verify (wire : Wire) (response : AuthenticatedOperationResponse) (open_ : OpenSession)
    (expectedSequence : Nat) (expectedOperation : OperationBinding) (sessionKey : Bytes32)
    (now : Int) : Except AuthenticationError Unit := do
  requireVersions response.protocolVersion response.schemaVersion
  requireMac (response.expectedMac wire sessionKey) response.mac
  validated (response.operation.validate wire.parseUuid)
  validated response.outcome.validate
  require (response.sequence ≠ 0 ∧ response.messageNonce.isZero = false
    ∧ response.sessionId = open_.sessionId ∧ response.executionId = open_.executionId
    ∧ response.planId = open_.planId ∧ response.planDigest = open_.planDigest
    ∧ response.operation = expectedOperation) .invalidBinding
  require (response.sequence = expectedSequence) .sequenceMismatch
  validateMessageTime response.sentAtUnixMs response.expiresAtUnixMs open_.expiresAtUnixMs now

end AuthenticatedOperationResponse

/-! ## The response verifier of the coordinator -/

structure CoordinatorResponseVerifier where
  nextSequence : Nat
  seenNonces : List Bytes32
deriving DecidableEq

namespace CoordinatorResponseVerifier

/-- `CoordinatorResponseVerifier::new`. -/
def new : CoordinatorResponseVerifier := { nextSequence := 1, seenNonces := [] }

/-- `CoordinatorResponseVerifier::verify_next`, with the verifier afterwards. -/
def verifyNext (wire : Wire) (verifier : CoordinatorResponseVerifier)
    (response : AuthenticatedOperationResponse) (open_ : OpenSession)
    (expectedOperation : OperationBinding) (sessionKey : Bytes32) (now : Int) :
    Except AuthenticationError ExecutorOutcome × CoordinatorResponseVerifier :=
  match response.verify wire open_ verifier.nextSequence expectedOperation sessionKey now with
  | .error error => (.error error, verifier)
  | .ok () =>
    if response.messageNonce ∈ verifier.seenNonces then (.error .nonceReplay, verifier)
    else
      let seen := { verifier with seenNonces := response.messageNonce :: verifier.seenNonces }
      if verifier.nextSequence + 1 < 2 ^ 64 then
        (.ok response.outcome, { seen with nextSequence := verifier.nextSequence + 1 })
      else (.error .sequenceMismatch, seen)

end CoordinatorResponseVerifier

/-! ## What a receiver knows -/

section

variable {wire : Wire} {open_ : OpenSession} {sessionKey : Bytes32} {now : Int} {sequence : Nat}

/-- What a request that verifies carries. -/
structure RequestVerified (wire : Wire) (open_ : OpenSession) (sequence : Nat)
    (sessionKey : Bytes32) (request : AuthenticatedOperationRequest) : Prop where
  mac : request.expectedMac wire sessionKey = request.mac
  sessionId : request.sessionId = open_.sessionId
  planDigest : request.planDigest = open_.planDigest
  sequence : request.sequence = sequence

theorem AuthenticatedOperationRequest.verify_ok {request : AuthenticatedOperationRequest}
    (h : request.verify wire open_ sequence sessionKey now = .ok ()) :
    RequestVerified wire open_ sequence sessionKey request := by
  simp only [verify, bind_eq_ok, requireMac, require_eq_ok] at h
  obtain ⟨_, _, _, hmac, _, _, _, ⟨_, _, hsession, _, _, hdigest⟩, _, hsequence, _⟩ := h
  exact ⟨hmac, hsession, hdigest, hsequence⟩

/-- What a response that verifies carries. -/
structure ResponseVerified (wire : Wire) (open_ : OpenSession) (sequence : Nat)
    (operation : OperationBinding) (sessionKey : Bytes32)
    (response : AuthenticatedOperationResponse) : Prop where
  mac : response.expectedMac wire sessionKey = response.mac
  sessionId : response.sessionId = open_.sessionId
  operation : response.operation = operation
  sequence : response.sequence = sequence

theorem AuthenticatedOperationResponse.verify_ok {response : AuthenticatedOperationResponse}
    {operation : OperationBinding}
    (h : response.verify wire open_ sequence operation sessionKey now = .ok ()) :
    ResponseVerified wire open_ sequence operation sessionKey response := by
  simp only [verify, bind_eq_ok, requireMac, require_eq_ok] at h
  obtain ⟨_, _, _, hmac, _, _, _, _, _, ⟨_, _, hsession, _, _, _, hoperation⟩, _, hsequence, _⟩ := h
  exact ⟨hmac, hsession, hoperation, hsequence⟩

/-- An outcome is given out for a verified response only, and then the next number is expected; an
    error leaves the expected number. -/
theorem CoordinatorResponseVerifier.verifyNext_cases (verifier : CoordinatorResponseVerifier)
    (response : AuthenticatedOperationResponse) (operation : OperationBinding) :
    (verifier.verifyNext wire response open_ operation sessionKey now).1 = .ok response.outcome ∧
      ResponseVerified wire open_ verifier.nextSequence operation sessionKey response ∧
      (verifier.verifyNext wire response open_ operation sessionKey now).2.nextSequence
        = verifier.nextSequence + 1 ∨
    (∃ error, (verifier.verifyNext wire response open_ operation sessionKey now).1 = .error error) ∧
      (verifier.verifyNext wire response open_ operation sessionKey now).2.nextSequence
        = verifier.nextSequence := by
  unfold verifyNext
  split
  · exact .inr ⟨⟨_, rfl⟩, rfl⟩
  next hverify =>
  split
  · exact .inr ⟨⟨_, rfl⟩, rfl⟩
  dsimp only
  split
  · exact .inl ⟨rfl, AuthenticatedOperationResponse.verify_ok hverify, rfl⟩
  · exact .inr ⟨⟨_, rfl⟩, rfl⟩

/-- A signed response carries what it was signed for, and its MAC is the expected one. -/
theorem AuthenticatedOperationResponse.signed_ok {messageNonce : Bytes32} {sentAt expiresAt : Int}
    {operation : OperationBinding} {outcome : ExecutorOutcome}
    {response : AuthenticatedOperationResponse}
    (h : signed wire open_ sequence messageNonce sentAt expiresAt operation outcome sessionKey
      = .ok response) :
    response.sequence = sequence ∧ response.operation = operation
      ∧ response.outcome = outcome ∧ response.sessionId = open_.sessionId := by
  simp only [signed, bind_eq_ok, require_eq_ok] at h
  obtain ⟨_, _, _, _, _, _, _, _, h⟩ := h
  cases h
  exact ⟨rfl, rfl, rfl, rfl⟩

/-- A signed request carries what it was signed for. -/
theorem AuthenticatedOperationRequest.signed_ok {messageNonce : Bytes32} {sentAt expiresAt : Int}
    {operation : OperationBinding} {request : AuthenticatedOperationRequest}
    (h : signed wire open_ sequence messageNonce sentAt expiresAt operation sessionKey
      = .ok request) :
    request.sequence = sequence ∧ request.operation = operation
      ∧ request.messageNonce = messageNonce ∧ request.sessionId = open_.sessionId := by
  simp only [signed, bind_eq_ok, require_eq_ok] at h
  obtain ⟨_, _, _, _, _, _, h⟩ := h
  cases h
  exact ⟨rfl, rfl, rfl, rfl⟩

/-- The MAC of an opened session is the one of the root authority. -/
theorem OpenSession.verify_mac {hello : Hello} {rootAuthorityKey : Bytes32}
    (h : open_.verify wire hello rootAuthorityKey now = .ok ()) :
    keyedMac wire openSessionMacDomain rootAuthorityKey
      (.openSession open_.toOpenSessionMacMaterial) = open_.mac := by
  simp only [OpenSession.verify, bind_eq_ok, requireMac, require_eq_ok] at h
  obtain ⟨_, _, _, hmac, _⟩ := h
  exact hmac

end

/-! ## A small session -/

/-- The value of the hexadecimal digits of a UUID text of 36 characters. -/
def sampleParseUuid (text : String) : Option Nat :=
  if text.length = 36 then
    some ((text.toList.filter (· ≠ '-')).foldl
      (fun n c => n * 16 + if c.isDigit then c.toNat - 48 else c.toNat - 87) 0)
  else none

/-- A hash that every byte of key and text enters, over the fields in which messages differ. -/
def sampleWire : Wire where
  parseUuid := sampleParseUuid
  json
    | .request m => 1 :: UInt8.ofNat m.sequence :: m.messageNonce.val
        ++ m.operation.operationId.toUTF8.data.toList
    | .response m => 2 :: UInt8.ofNat m.sequence :: m.messageNonce.val
        ++ m.operation.operationId.toUTF8.data.toList
    | .openSession m => 3 :: m.sessionId.val
    | .sessionKey m => 4 :: m.sessionId.val
    | .consent m => 5 :: m.consentNonce.val
    | _ => [6]
  keyedHash key text :=
    Bytes32.filled (text.foldl (fun hash byte => hash * 31 + byte) (key.val.headD 0))

def sampleRootKey : Bytes32 := Bytes32.filled 15

def sampleStepId (folder : Bool) : String :=
  if folder then "00000000-0000-0000-0000-000000000001" else "00000000-0000-0000-0000-000000000002"

/-- Create `docs`, then move `a.txt` into it. -/
def sampleOperations (volume : VolumeIdentity) : List ApprovedOperationManifest :=
  [ { operationId := sampleStepId true
      proposalOperationId := none
      sequence := 0
      dependencies := []
      primitive := .createDirectory "docs" },
    { operationId := sampleStepId false
      proposalOperationId := some "00000000-0000-0000-0000-000000000009"
      sequence := 1
      dependencies := [sampleStepId true]
      primitive := .sameVolumeMove
        { sourceRelativePath := "a.txt"
          destinationRelativePath := "docs/a.txt"
          originalSourceRelativePath := "a.txt"
          expectedSource :=
            { nativeIdentity :=
                { volume, objectKey := ⟨[1], by decide⟩, parentKey := ⟨[2], by decide⟩
                  leafName := { encoding := .unixBytes, bytes := ⟨[97], by decide⟩ }
                  linkCount := 1, reparseTag := none }
              byteSize := 1
              modifiedAtNs := some 1
              attributes := 0
              contentDigest := Bytes32.filled 1 } } } ]

def sampleObjectKey : HexBytes := ⟨[1], by decide⟩

def sampleParentKey : HexBytes := ⟨[2], by decide⟩

def sampleEnvelope : ImmutableExecutionEnvelope :=
  let volume : VolumeIdentity :=
    { platform := .linux, stableIdentifier := "v", filesystemType := none, caseSensitive := true
      removable := false, isLocal := true }
  let envelope : ImmutableExecutionEnvelope :=
    { schemaVersion
      executionId := "00000000-0000-0000-0000-000000000003"
      rootId := "00000000-0000-0000-0000-000000000004"
      plan :=
        { materialVersion := executionPlanMaterialVersion
          planId := "00000000-0000-0000-0000-000000000005"
          proposalId := "00000000-0000-0000-0000-000000000006"
          proposalRevisionId := "00000000-0000-0000-0000-000000000007"
          proposalRevision := 1
          sourceSnapshotVersion := "00000000-0000-0000-0000-000000000008"
          approvedOperationIds := ["00000000-0000-0000-0000-000000000009"]
          operationCount := 1
          approvalTimestamp := "t0"
          userConfirmed := true
          digest := Bytes32.filled 7 }
      rootBinding :=
        { canonicalPath := { encoding := .unixBytes, bytes := ⟨[47], by decide⟩ }
          displayPath := "/"
          volume }
      safetyPolicyBinding :=
        { version := executionSafetyPolicyVersion, maximumRehashBytes := 1
          allowQualifiedCaseOnlyRename := false, digest := Bytes32.filled 8 }
      consent :=
        { issuedAtUnixMs := 1000, expiresAtUnixMs := 300000, attestedAtUnixMs := 1000
          consentNonce := Bytes32.filled 9, attestationMac := Bytes32.filled 0 }
      operations := sampleOperations volume }
  { envelope with
    consent.attestationMac := keyedMac sampleWire consentAttestationMacDomain
      (deriveConsentAuthorityKey sampleWire sampleRootKey)
      (.consent (ConsentAttestationBinding.fromEnvelope envelope)) }

def sampleHello : Hello :=
  let material : HelloMacMaterial :=
    { protocolVersion, schemaVersion, workerPid := 41, workerNonce := Bytes32.filled 1
      issuedAtUnixMs := 2000 }
  { material with mac := keyedMac sampleWire helloMacDomain sampleRootKey (.hello material) }

/-- A forward session for the envelope. -/
def sampleOpenSession : OpenSession :=
  let material : OpenSessionMacMaterial :=
    { protocolVersion, schemaVersion, childPid := 41, coordinatorPid := 40
      workerNonce := Bytes32.filled 1, coordinatorNonce := Bytes32.filled 2
      sessionId := Bytes32.filled 3, executionId := sampleEnvelope.executionId
      planId := sampleEnvelope.plan.planId, planDigest := sampleEnvelope.plan.digest
      issuedAtUnixMs := 2000, expiresAtUnixMs := 200000, authorization := .forward
      envelope := sampleEnvelope }
  { material with
    mac := keyedMac sampleWire openSessionMacDomain sampleRootKey (.openSession material) }

def sampleSessionKey : Bytes32 :=
  deriveSessionKey sampleWire sampleRootKey sampleHello sampleOpenSession

def sampleIntent : CommittedJournalEventBinding where
  databaseSequence := 3
  databaseEventDigest := Bytes32.filled 4
  externalSequence := 3
  externalEventDigest := Bytes32.filled 4

/-- The request with this number for the folder or for the file. -/
def sampleRequest (sequence : Nat) (nonce : UInt8) (folder : Bool) :
    AuthenticatedOperationRequest :=
  let material := AuthenticatedOperationRequest.material sampleOpenSession sequence
    (Bytes32.filled nonce) 2000 32000
    { operationId := sampleStepId folder, direction := .forward, journalIntent := sampleIntent }
  { material with
    mac := keyedMac sampleWire requestMacDomain sampleSessionKey (.request material) }

example : sampleOpenSession.verify sampleWire sampleHello sampleRootKey 2001 = .ok () := by
  decide +kernel

end Zemo.ExecutorV2

/-! ## Executor protocol, version 2: frames

A frame is four bytes with the length of the payload, the highest first, and the payload. A stream
is what the calls of `Read::read` on it meet: bytes, interruptions, which every reader repeats, and
failures; after the last of them the stream has ended. The decoder of payloads is a parameter. -/

namespace Zemo.ExecutorV2

inductive FrameError where
  | oversized
  | truncated
  | decode
  | encode
  | io (message : String)
deriving DecidableEq, Repr

/-- `frame_error_code`. -/
def FrameError.code : FrameError → String
  | oversized => "frame_oversized"
  | truncated => "frame_truncated"
  | decode => "frame_invalid"
  | encode => "frame_encode_failed"
  | io _ => "pipe_io_failed"

/-- A frame from the executor. -/
inductive ExecutorFrame where
  | hello (hello : Hello)
  | sessionOpened (opened : SessionOpened)
  | handshakeRefusal (refusal : HandshakeRefusal)
  | operationResponse (response : AuthenticatedOperationResponse)
deriving DecidableEq

inductive ReadEvent where
  | byte (value : UInt8)
  | interrupted
  | failed (message : String)
deriving DecidableEq

/-- The first byte of a frame; none when the stream ended before it. -/
def readFirst : List ReadEvent → Except FrameError (Option UInt8) × List ReadEvent
  | [] => (.ok none, [])
  | .interrupted :: stream => readFirst stream
  | .failed message :: stream => (.error (.io message), stream)
  | .byte value :: stream => (.ok (some value), stream)

/-- `Read::read_exact` with the errors of a frame. -/
def readExact : List ReadEvent → Nat → Except FrameError (List UInt8) × List ReadEvent
  | stream, 0 => (.ok [], stream)
  | [], _ + 1 => (.error .truncated, [])
  | .interrupted :: stream, n + 1 => readExact stream (n + 1)
  | .failed message :: stream, _ + 1 => (.error (.io message), stream)
  | .byte value :: stream, n + 1 =>
    ((readExact stream n).1.map (value :: ·), (readExact stream n).2)

/-- `u32::from_be_bytes`. -/
def bigEndian (bytes : List UInt8) : Nat := bytes.foldl (fun n b => n * 256 + b.toNat) 0

/-- `read_frame`: the frame, or none when the stream ended before one, and what is left. -/
def readFrame {α : Type} (decode : List UInt8 → Option α) (stream : List ReadEvent) :
    Except FrameError (Option α) × List ReadEvent :=
  match readFirst stream with
  | (.error error, rest) => (.error error, rest)
  | (.ok none, rest) => (.ok none, rest)
  | (.ok (some first), rest) =>
    match readExact rest 3 with
    | (.error error, rest) => (.error error, rest)
    | (.ok others, rest) =>
      let length := bigEndian (first :: others)
      if length = 0 ∨ maxFrameBytes < length then (.error .oversized, rest)
      else
        match readExact rest length with
        | (.error error, rest) => (.error error, rest)
        | (.ok payload, rest) =>
          match decode payload with
          | some frame => (.ok (some frame), rest)
          | none => (.error .decode, rest)

end Zemo.ExecutorV2
