import Zemo.Lib.Checked

set_option autoImplicit false

/-! # Cloud egress

The ledger of consent grants and the gateway that hands a request to a cloud provider. A grant is
for one task, one provider and model, some artifacts and classes of data, and has a budget of calls
and bytes. The ledger is one map behind a mutex; it is not poisoned. Digests come from BLAKE3, which
the gateway itself never computes. -/

namespace Zemo.Cloud

open Checked

/-! ## Types -/

abbrev ConsentGrantId := Nat
abbrev WorkspaceId := Nat
abbrev ArtifactId := Nat
abbrev ModelReleaseId := Nat

/-- `[u8; 32]`. -/
abbrev Digest := List UInt8

inductive DataClass where
  | text
  | image
  | audio
  | video
  | metadata
deriving DecidableEq, Repr

inductive AiCapability where
  | textEmbedding
  | imageEmbedding
  | ocr
  | visionDescription
  | structuredClassification
  | entityAndFactExtraction
  | relationInference
  | queryPlanning
  | reranking
deriving DecidableEq, Repr

inductive ProcessingLocation where
  | localBundled
  | localExternal
  | cloud
deriving DecidableEq, Repr

inductive ExecutionPolicy where
  | localOnly
  | cloudOnce (grantId : ConsentGrantId)
deriving DecidableEq, Repr

structure ConsentGrant where
  id : ConsentGrantId
  workspaceId : WorkspaceId
  taskId : String
  requestDigest : Digest
  providerId : String
  modelReleaseId : ModelReleaseId
  purpose : String
  artifactDigests : List Digest
  allowedDataClasses : List DataClass
  maxBytes : UInt64
  maxCalls : UInt32
  expiresAtUnixMs : Int
deriving DecidableEq

structure EgressRequest where
  workspaceId : WorkspaceId
  taskId : String
  requestDigest : Digest
  providerId : String
  modelReleaseId : ModelReleaseId
  artifactId : ArtifactId
  artifactDigest : Digest
  dataClass : DataClass
  byteCount : UInt64
  nowUnixMs : Int
deriving DecidableEq

structure DisclosureReceipt where
  grantId : ConsentGrantId
  artifactId : ArtifactId
  providerId : String
  modelReleaseId : ModelReleaseId
  dataClass : DataClass
  byteCount : UInt64
  disclosedAtUnixMs : Int
deriving DecidableEq

inductive PrivacyError where
  | missingGrant
  | expired
  | scopeMismatch
  | byteBudgetExceeded
  | callBudgetExceeded
deriving DecidableEq, Repr

/-! ## The ledger -/

structure GrantState where
  grant : ConsentGrant
  callsUsed : UInt32
  bytesUsed : UInt64
  revoked : Bool
deriving DecidableEq

/-- `ConsentLedger`: the state of each grant. -/
abbrev ConsentLedger := ConsentGrantId → Option GrantState

/-- `ConsentLedger::default`. -/
def ConsentLedger.empty : ConsentLedger := fun _ => none

/-- `saturating_add` on 64 bits. -/
def saturatingAdd64 (a b : UInt64) : UInt64 :=
  if a.toNat + b.toNat < UInt64.size then a + b else UInt64.ofNat (UInt64.size - 1)

/-- `saturating_add(1)` on 32 bits. -/
def saturatingSucc32 (a : UInt32) : UInt32 :=
  if a.toNat + 1 < UInt32.size then a + 1 else a

/-- `ConsentLedger::grant`: a grant takes the place of one with its identifier. -/
def ConsentLedger.grant (ledger : ConsentLedger) (grant : ConsentGrant) : ConsentLedger :=
  Function.update ledger grant.id
    (some { grant := grant, callsUsed := 0, bytesUsed := 0, revoked := false })

/-- `ConsentLedger::revoke`. -/
def ConsentLedger.revoke (ledger : ConsentLedger) (grantId : ConsentGrantId) :
    Except PrivacyError ConsentLedger := do
  let state ← orError (ledger grantId) .missingGrant
  return Function.update ledger grantId (some { state with revoked := true })

/-- The grant is for the request. -/
def ConsentGrant.covers (grant : ConsentGrant) (request : EgressRequest) : Prop :=
  grant.workspaceId = request.workspaceId ∧ grant.taskId = request.taskId
    ∧ grant.requestDigest = request.requestDigest ∧ grant.providerId = request.providerId
    ∧ grant.modelReleaseId = request.modelReleaseId
    ∧ request.artifactDigest ∈ grant.artifactDigests
    ∧ request.dataClass ∈ grant.allowedDataClasses

instance (grant : ConsentGrant) (request : EgressRequest) : Decidable (grant.covers request) :=
  inferInstanceAs (Decidable (_ ∧ _))

/-- The state of a grant after a request it allowed. -/
def GrantState.used (state : GrantState) (request : EgressRequest) : GrantState :=
  { state with
    callsUsed := saturatingSucc32 state.callsUsed
    bytesUsed := saturatingAdd64 state.bytesUsed request.byteCount }

def receiptFor (grantId : ConsentGrantId) (request : EgressRequest) : DisclosureReceipt where
  grantId := grantId
  artifactId := request.artifactId
  providerId := request.providerId
  modelReleaseId := request.modelReleaseId
  dataClass := request.dataClass
  byteCount := request.byteCount
  disclosedAtUnixMs := request.nowUnixMs

/-- `ConsentLedger::authorize_once`. -/
def ConsentLedger.authorizeOnce (ledger : ConsentLedger) (grantId : ConsentGrantId)
    (request : EgressRequest) : Except PrivacyError (DisclosureReceipt × ConsentLedger) := do
  let state ← orError (ledger grantId) .missingGrant
  require (state.revoked = false) .missingGrant
  require (request.nowUnixMs ≤ state.grant.expiresAtUnixMs) .expired
  require (state.grant.covers request) .scopeMismatch
  require (state.callsUsed < state.grant.maxCalls) .callBudgetExceeded
  require (saturatingAdd64 state.bytesUsed request.byteCount ≤ state.grant.maxBytes)
    .byteBudgetExceeded
  return (receiptFor grantId request,
    Function.update ledger grantId (some (state.used request)))

/-! ## The gateway -/

structure SchemaRef where
  id : String
  version : String
  digest : Digest
deriving DecidableEq

/-- `ContentEnvelope<UntrustedText>`. -/
structure ContentEnvelope where
  artifactId : ArtifactId
  digest : Digest
  mediaType : String
  byteLength : UInt64
  dataClass : DataClass
  text : String
deriving DecidableEq

/-- `InferenceRequest<UntrustedText>`. -/
structure InferenceRequest where
  jobId : String
  capability : AiCapability
  input : ContentEnvelope
  outputSchema : SchemaRef
  policy : ExecutionPolicy
  deadlineMs : UInt64
deriving DecidableEq

structure ProviderDescriptor where
  providerId : String
  modelReleaseId : ModelReleaseId
  location : ProcessingLocation
  capabilities : List AiCapability
  maxInputBytes : UInt64
deriving DecidableEq

inductive GatewayError where
  | cloudNotAuthorized
  | unsupportedCapability
  | invalidOutput (message : String)
  | provider (message : String)
  | privacy (cause : PrivacyError)
deriving DecidableEq

/-- What is handed to the transport. -/
structure CloudBody where
  capability : AiCapability
  content : String
  schema : SchemaRef
deriving DecidableEq

/-- The bytes of a text. -/
def utf8Bytes (text : String) : List UInt8 := text.toUTF8.data.toList

/-- What the gateway asks the ledger to allow. -/
def egressRequest (descriptor : ProviderDescriptor) (workspaceId : WorkspaceId)
    (request : InferenceRequest) (nowUnixMs : Int) : EgressRequest where
  workspaceId := workspaceId
  taskId := request.jobId
  requestDigest := request.input.digest
  providerId := descriptor.providerId
  modelReleaseId := descriptor.modelReleaseId
  artifactId := request.input.artifactId
  artifactDigest := request.input.digest
  dataClass := request.input.dataClass
  byteCount := request.input.byteLength
  nowUnixMs := nowUnixMs

def cloudBody (request : InferenceRequest) : CloudBody where
  capability := request.capability
  content := request.input.text
  schema := request.outputSchema

/-- The grant a request names. -/
def cloudGrant (request : InferenceRequest) : Except GatewayError ConsentGrantId :=
  match request.policy with
  | .cloudOnce grantId => .ok grantId
  | .localOnly => .error .cloudNotAuthorized

/-- `invoke_once`, up to the transport: the grant, the receipt and the ledger after it. -/
def prepareCall (ledger : ConsentLedger) (descriptor : ProviderDescriptor)
    (workspaceId : WorkspaceId) (request : InferenceRequest) (nowUnixMs : Int) :
    Except GatewayError (ConsentGrantId × DisclosureReceipt × ConsentLedger) := do
  let grantId ← cloudGrant request
  require (descriptor.location = .cloud ∧ request.capability ∈ descriptor.capabilities)
    .unsupportedCapability
  require ((utf8Bytes request.input.text).length ≤ descriptor.maxInputBytes.toNat)
    (.provider "input exceeds the provider manifest")
  let (receipt, ledger) ← (ledger.authorizeOnce grantId
    (egressRequest descriptor workspaceId request nowUnixMs)).mapError .privacy
  return (grantId, receipt, ledger)

section

variable {ρ τ : Type}

structure CloudInference (τ : Type) where
  value : τ
  disclosure : DisclosureReceipt
  provider : ProviderDescriptor

/-- What the transport answers, and how its answer is read. -/
structure Transport (ρ τ : Type) where
  answer : CloudBody → Except GatewayError ρ
  decode : ρ → Except String τ

/-- What a call returns, what it handed to the transport, and the ledger it leaves. -/
structure CallOutcome (τ : Type) where
  result : Except GatewayError (CloudInference τ)
  handed : Option (ConsentGrantId × CloudBody)
  ledger : ConsentLedger

/-- The answer of the transport, as `invoke_once` returns it. -/
def readAnswer (transport : Transport ρ τ) (descriptor : ProviderDescriptor) (body : CloudBody)
    (disclosure : DisclosureReceipt) : Except GatewayError (CloudInference τ) := do
  let response ← transport.answer body
  let value ← (transport.decode response).mapError .invalidOutput
  return { value, disclosure, provider := descriptor }

/-- `CloudCapabilityGateway::invoke_once`. -/
def invokeOnce (ledger : ConsentLedger) (descriptor : ProviderDescriptor)
    (transport : Transport ρ τ) (workspaceId : WorkspaceId) (request : InferenceRequest)
    (nowUnixMs : Int) : CallOutcome τ :=
  match prepareCall ledger descriptor workspaceId request nowUnixMs with
  | .error cause => { result := .error cause, handed := none, ledger := ledger }
  | .ok (grantId, receipt, after) =>
      { result := readAnswer transport descriptor (cloudBody request) receipt
        handed := some (grantId, cloudBody request)
        ledger := after }

/-- A call that hands nothing to the transport leaves the ledger as it is. -/
theorem invokeOnce_refused {ledger : ConsentLedger} {descriptor : ProviderDescriptor}
    {transport : Transport ρ τ} {workspaceId : WorkspaceId} {request : InferenceRequest}
    {now : Int} (h : (invokeOnce ledger descriptor transport workspaceId request now).handed = none) :
    (invokeOnce ledger descriptor transport workspaceId request now).ledger = ledger := by
  unfold invokeOnce at h ⊢
  split at h
  · rfl
  · cases h

end

/-! ## Arithmetic -/

theorem saturatingAdd64_toNat {a b : UInt64} (h : a.toNat + b.toNat < UInt64.size) :
    (saturatingAdd64 a b).toNat = a.toNat + b.toNat := by
  rw [saturatingAdd64, if_pos h, UInt64.toNat_add]
  exact Nat.mod_eq_of_lt h

theorem saturatingSucc32_toNat {a b : UInt32} (h : a < b) :
    (saturatingSucc32 a).toNat = a.toNat + 1 := by
  have hlt : a.toNat < b.toNat := UInt32.lt_iff_toNat_lt.1 h
  have hb : b.toNat < UInt32.size := b.toNat_lt
  have hsize : a.toNat + 1 < UInt32.size := by omega
  rw [saturatingSucc32, if_pos hsize, UInt32.toNat_add]
  exact Nat.mod_eq_of_lt hsize

end Zemo.Cloud
