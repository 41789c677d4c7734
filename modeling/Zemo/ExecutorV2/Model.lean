import Mathlib.Data.List.DropRight
import Zemo.Domain.Execution
import Zemo.Lib.Checked

set_option autoImplicit false

/-! # Executor protocol, version 2: manifests

What the coordinator freezes into an execution envelope and what both sides check of it. Identifiers
travel as texts and are read by the UUID parser, which is a parameter; paths travel as texts below
the root of the execution. -/

namespace Zemo.ExecutorV2

open Checked

def protocolVersion : Nat := 2
def schemaVersion : Nat := 2
def maxManifests : Nat := 100000
def maxFrameBytes : Nat := 128 * 1024 * 1024
def maxRelativePathBytes : Nat := 4096
def maxNativePathBytes : Nat := 65536
def maxIdentityBytes : Nat := 4096
def maxTextBytes : Nat := 2048
def maxIdBytes : Nat := 128

inductive ValidationError where
  | unsupportedSchema
  | boundExceeded (label : String)
  | invalidField (label : String)
  | duplicateOrUnordered (label : String)
  | invalidHex
deriving DecidableEq, Repr

/-- The text of a validation error. -/
def ValidationError.text : ValidationError → String
  | .unsupportedSchema => "unsupported executor protocol schema"
  | .boundExceeded label => label ++ " exceeds its protocol bound"
  | .invalidField label => "invalid protocol field: " ++ label
  | .duplicateOrUnordered label => "duplicate or unordered protocol field: " ++ label
  | .invalidHex => "invalid hexadecimal encoding"

/-! ## Texts -/

/-- `validate_string`. -/
def validateString (value : String) (maximum : Nat) (label : String) :
    Except ValidationError Unit :=
  require (value ≠ "" ∧ value.utf8ByteSize ≤ maximum ∧ '\x00' ∉ value.toList)
    (.invalidField label)

/-- `validate_domain_id`; `parse` is the UUID parser. -/
def validateDomainId (parse : String → Option Nat) (value label : String) :
    Except ValidationError Nat := do
  validateString value maxIdBytes label
  orError (parse value) (.invalidField label)

/-- `is_windows_device_component`. -/
def isWindowsDeviceComponent (component : List Char) : Bool :=
  let stem := ((component.takeWhile (· ≠ '.')).rdropWhile (fun c => c = ' ' || c = '.')).map
    Char.toUpper
  stem ∈ ["CON".toList, "PRN".toList, "AUX".toList, "NUL".toList]
    || ["COM".toList, "LPT".toList].any fun device =>
      device.isPrefixOf stem && (stem.drop 3).length = 1
        && (stem.drop 3).all fun digit => '1' ≤ digit && digit ≤ '9'

/-- What `validate_relative_path` asks of one component. -/
def isPortableComponent (component : List Char) : Bool :=
  component ≠ [] && component ≠ ['.'] && component ≠ ['.', '.']
    && component.getLast? ≠ some ' ' && component.getLast? ≠ some '.'
    && !isWindowsDeviceComponent component

/-- The separators of a path, on either platform. -/
def isSeparator (c : Char) : Bool := c = '/' || c = '\\'

/-- `validate_relative_path`. -/
def validateRelativePath (value : String) : Except ValidationError Unit := do
  validateString value maxRelativePathBytes "relative path"
  require (value.toList.head?.all (!isSeparator ·) ∧ value.toList.getLast?.all (!isSeparator ·)
    ∧ ':' ∉ value.toList ∧ (value.toList.splitOnP isSeparator).all isPortableComponent)
    (.invalidField "relative path")

/-- `validate_code_and_detail`. -/
def validateCodeAndDetail (code detail : String) : Except ValidationError Unit := do
  validateString code 128 "response code"
  require (code.toList.all fun c => ('a' ≤ c && c ≤ 'z') || ('0' ≤ c && c ≤ '9') || c = '_')
    (.invalidField "response code")
  validateString detail maxTextBytes "response detail"

/-! ## Files and roots -/

/-- `HexBytes`: bytes no longer than a native path. -/
abbrev HexBytes := { bytes : List UInt8 // bytes.length ≤ maxNativePathBytes }

structure NativePathManifest where
  encoding : PathEncoding
  bytes : HexBytes
deriving DecidableEq

def NativePathManifest.validate (path : NativePathManifest) (label : String) :
    Except ValidationError Unit := do
  require (path.bytes.val ≠ [] ∧ path.bytes.val.length ≤ maxNativePathBytes) (.invalidField label)
  require (path.encoding = .windowsUtf16Le → path.bytes.val.length % 2 = 0) (.invalidField label)

/-- `VolumeIdentityManifest`, which has the fields of `VolumeIdentity`. -/
def validateVolume (volume : VolumeIdentity) : Except ValidationError Unit := do
  validateString volume.stableIdentifier maxTextBytes "volume stable identifier"
  match volume.filesystemType with
  | some value => validateString value 128 "filesystem type"
  | none => .ok ()
  require (volume.isLocal = true ∧ volume.removable = false) (.invalidField "root volume eligibility")

structure RootBindingManifest where
  canonicalPath : NativePathManifest
  displayPath : String
  volume : VolumeIdentity
deriving DecidableEq

def RootBindingManifest.validate (root : RootBindingManifest) : Except ValidationError Unit := do
  root.canonicalPath.validate "canonical root"
  validateString root.displayPath maxNativePathBytes "root display path"
  validateVolume root.volume

structure SafetyPolicyBindingManifest where
  version : String
  maximumRehashBytes : Nat
  allowQualifiedCaseOnlyRename : Bool
  digest : Bytes32
deriving DecidableEq

def SafetyPolicyBindingManifest.validate (policy : SafetyPolicyBindingManifest) :
    Except ValidationError Unit := do
  validateString policy.version maxTextBytes "safety policy version"
  require (policy.version = executionSafetyPolicyVersion ∧ policy.maximumRehashBytes ≠ 0
    ∧ policy.maximumRehashBytes ≤ maxExecutionVerificationBytes)
    (.invalidField "safety policy binding")

structure NativeFileIdentityManifest where
  volume : VolumeIdentity
  objectKey : HexBytes
  parentKey : HexBytes
  leafName : NativePathManifest
  linkCount : Nat
  reparseTag : Option Nat
deriving DecidableEq

def NativeFileIdentityManifest.validate (identity : NativeFileIdentityManifest)
    (rootVolume : VolumeIdentity) : Except ValidationError Unit := do
  validateVolume identity.volume
  require (identity.volume = rootVolume ∧ identity.objectKey.val ≠ []
    ∧ identity.objectKey.val.length ≤ maxIdentityBytes
    ∧ identity.parentKey.val.length ≤ maxIdentityBytes
    ∧ identity.linkCount = 1 ∧ identity.reparseTag = none)
    (.invalidField "expected native identity")
  identity.leafName.validate "expected native leaf name"

structure ExpectedFileStateManifest where
  nativeIdentity : NativeFileIdentityManifest
  byteSize : Nat
  modifiedAtNs : Option Int
  attributes : Nat
  contentDigest : Bytes32
deriving DecidableEq

/-! ## Operations -/

/-- The fields every operation on a file has. -/
structure FileOperationManifest where
  sourceRelativePath : String
  destinationRelativePath : String
  originalSourceRelativePath : String
  expectedSource : ExpectedFileStateManifest
deriving DecidableEq

inductive OperationPrimitiveManifest where
  | createDirectory (destinationRelativePath : String)
  | removeDirectoryIfEmpty (sourceRelativePath : String)
  | sameVolumeMove (file : FileOperationManifest)
  | sameVolumeRename (file : FileOperationManifest)
  | sameVolumeMoveAndRename (file : FileOperationManifest)
  | internalStage (file : FileOperationManifest)
deriving DecidableEq

/-- Where the planner parks a file that another one has to pass. -/
def stagingPrefix : String := ".supremacy-staging/"

/-- What `OperationPrimitiveManifest::validate` does for an operation on a file. -/
def FileOperationManifest.validate (file : FileOperationManifest) (internalStage : Bool)
    (rootVolume : VolumeIdentity) : Except ValidationError Unit := do
  validateRelativePath file.sourceRelativePath
  validateRelativePath file.destinationRelativePath
  validateRelativePath file.originalSourceRelativePath
  require (file.sourceRelativePath ≠ file.destinationRelativePath)
    (.invalidField "operation source and destination")
  require (internalStage = true →
      stagingPrefix.toList.isPrefixOf file.destinationRelativePath.toList = true)
    (.invalidField "internal staging destination")
  file.expectedSource.nativeIdentity.validate rootVolume

def OperationPrimitiveManifest.validate (rootVolume : VolumeIdentity) :
    OperationPrimitiveManifest → Except ValidationError Unit
  | .createDirectory destination => validateRelativePath destination
  | .removeDirectoryIfEmpty source => validateRelativePath source
  | .sameVolumeMove file => file.validate false rootVolume
  | .sameVolumeRename file => file.validate false rootVolume
  | .sameVolumeMoveAndRename file => file.validate false rootVolume
  | .internalStage file => file.validate true rootVolume

structure ApprovedOperationManifest where
  operationId : String
  proposalOperationId : Option String
  sequence : Nat
  dependencies : List String
  primitive : OperationPrimitiveManifest
deriving DecidableEq

/-- The check at the end of the loop over the operations: what the planner added itself names no
    proposal operation, and a move or rename names one. -/
def ApprovedOperationManifest.proposalBinding (operation : ApprovedOperationManifest) :
    Except ValidationError Unit :=
  match operation.primitive with
  | .createDirectory _ | .internalStage _ =>
    require (operation.proposalOperationId = none)
      (.invalidField "internal operation proposal binding")
  | .sameVolumeMove _ | .sameVolumeRename _ | .sameVolumeMoveAndRename _ =>
    require (operation.proposalOperationId ≠ none)
      (.invalidField "approved operation proposal binding")
  | .removeDirectoryIfEmpty _ => .ok ()

/-! ## The envelope -/

structure FrozenPlanManifest where
  materialVersion : Nat
  planId : String
  proposalId : String
  proposalRevisionId : String
  proposalRevision : Nat
  sourceSnapshotVersion : String
  approvedOperationIds : List String
  operationCount : Nat
  approvalTimestamp : String
  userConfirmed : Bool
  digest : Bytes32
deriving DecidableEq

structure AttestedConsentManifest where
  issuedAtUnixMs : Int
  expiresAtUnixMs : Int
  attestedAtUnixMs : Int
  consentNonce : Bytes32
  attestationMac : Bytes32
deriving DecidableEq

def AttestedConsentManifest.validate (consent : AttestedConsentManifest) :
    Except ValidationError Unit :=
  require (0 ≤ consent.issuedAtUnixMs ∧ consent.issuedAtUnixMs ≤ consent.attestedAtUnixMs
    ∧ consent.attestedAtUnixMs < consent.expiresAtUnixMs) (.invalidField "consent time range")

structure ImmutableExecutionEnvelope where
  schemaVersion : Nat
  executionId : String
  rootId : String
  plan : FrozenPlanManifest
  rootBinding : RootBindingManifest
  safetyPolicyBinding : SafetyPolicyBindingManifest
  consent : AttestedConsentManifest
  operations : List ApprovedOperationManifest
deriving DecidableEq

/-- Each approved identifier is greater than the one before it. -/
def validateApprovedIds (parse : String → Option Nat) :
    Option Nat → List String → List String → Except ValidationError Unit
  | _, _, [] => .ok ()
  | previous, seen, id :: rest => do
    let parsed ← validateDomainId parse id "approved operation id"
    require (previous.all (· < parsed) = true ∧ id ∉ seen)
      (.duplicateOrUnordered "approved operation ids")
    validateApprovedIds parse (some parsed) (id :: seen) rest

/-- Each dependency is an operation before this one and is named once. -/
def validateDependencies (parse : String → Option Nat) (operationIds : List String) :
    List String → List String → Except ValidationError Unit
  | _, [] => .ok ()
  | seen, dependency :: rest => do
    let _ ← validateDomainId parse dependency "dependency id"
    require (dependency ∈ operationIds ∧ dependency ∉ seen) (.invalidField "operation dependency")
    validateDependencies parse operationIds (dependency :: seen) rest

/-- The approved operation an operation carries out, if it carries out one. -/
def validateProposal (parse : String → Option Nat) (approvedIds : List String) :
    Option String → Except ValidationError Unit
  | none => .ok ()
  | some id => do
    let _ ← validateDomainId parse id "proposal operation id"
    require (id ∈ approvedIds) (.invalidField "operation outside approved set")

/-- The loop over the operations: `index` counts them and `operationIds` are those before this
    one. -/
def validateOperations (parse : String → Option Nat) (approvedIds : List String)
    (rootVolume : VolumeIdentity) : Nat → List String → List ApprovedOperationManifest →
      Except ValidationError Unit
  | _, _, [] => .ok ()
  | index, operationIds, operation :: rest => do
    let _ ← validateDomainId parse operation.operationId "operation id"
    require (operation.sequence = index ∧ operation.operationId ∉ operationIds)
      (.duplicateOrUnordered "operation manifests")
    require (operation.dependencies.length ≤ maxManifests)
      (.boundExceeded "operation dependencies")
    -- the source has inserted the operation's own id by now
    validateDependencies parse (operation.operationId :: operationIds) [] operation.dependencies
    validateProposal parse approvedIds operation.proposalOperationId
    operation.primitive.validate rootVolume
    operation.proposalBinding
    validateOperations parse approvedIds rootVolume (index + 1)
      (operation.operationId :: operationIds) rest

namespace ImmutableExecutionEnvelope

/-- `ImmutableExecutionEnvelope::validate`. -/
def validate (parse : String → Option Nat) (envelope : ImmutableExecutionEnvelope) :
    Except ValidationError Unit := do
  require (envelope.schemaVersion = ExecutorV2.schemaVersion) .unsupportedSchema
  let _ ← validateDomainId parse envelope.executionId "execution id"
  let _ ← validateDomainId parse envelope.rootId "root id"
  let _ ← validateDomainId parse envelope.plan.planId "plan id"
  let _ ← validateDomainId parse envelope.plan.proposalId "proposal id"
  let _ ← validateDomainId parse envelope.plan.proposalRevisionId "proposal revision id"
  let _ ← validateDomainId parse envelope.plan.sourceSnapshotVersion "source snapshot version"
  require (envelope.plan.materialVersion = executionPlanMaterialVersion
    ∧ envelope.plan.userConfirmed = true ∧ envelope.plan.digest.isZero = false)
    (.invalidField "approved plan state")
  validateString envelope.plan.approvalTimestamp maxTextBytes "approval timestamp"
  require (envelope.plan.approvedOperationIds ≠ []
    ∧ envelope.plan.approvedOperationIds.length ≤ maxManifests
    ∧ envelope.operations ≠ [] ∧ envelope.operations.length ≤ maxManifests
    ∧ envelope.plan.operationCount = envelope.plan.approvedOperationIds.length)
    (.boundExceeded "operation manifests")
  validateApprovedIds parse none [] envelope.plan.approvedOperationIds
  envelope.rootBinding.validate
  envelope.safetyPolicyBinding.validate
  require (envelope.safetyPolicyBinding.digest.isZero = false)
    (.invalidField "safety policy digest")
  envelope.consent.validate
  validateOperations parse envelope.plan.approvedOperationIds envelope.rootBinding.volume 0 []
    envelope.operations
  require (∀ id ∈ envelope.plan.approvedOperationIds,
      (envelope.operations.filterMap (·.proposalOperationId)).count id = 1)
    (.invalidField "exact approved operation set")

/-- `ImmutableExecutionEnvelope::operation`. -/
def operation (envelope : ImmutableExecutionEnvelope) (operationId : String) :
    Option ApprovedOperationManifest :=
  envelope.operations.find? (·.operationId = operationId)

theorem operation_eq_some {envelope : ImmutableExecutionEnvelope} {operationId : String}
    {operation : ApprovedOperationManifest}
    (h : envelope.operation operationId = some operation) :
    operation ∈ envelope.operations ∧ operation.operationId = operationId :=
  ⟨List.mem_of_find?_eq_some h, by simpa using List.find?_some h⟩

end ImmutableExecutionEnvelope

/-! ## The consent attestation -/

structure ConsentAttestationBinding where
  materialVersion : Nat
  planDigest : Bytes32
  executionId : String
  planId : String
  proposalId : String
  proposalRevisionId : String
  proposalRevision : Nat
  approvedOperationIds : List String
  approvedOperationCount : Nat
  sourceSnapshotVersion : String
  rootId : String
  destinationRoot : RootBindingManifest
  safetyPolicy : SafetyPolicyBindingManifest
  consentNonce : Bytes32
  issuedAtUnixMs : Int
  expiresAtUnixMs : Int
deriving DecidableEq

namespace ConsentAttestationBinding

/-- `ConsentAttestationBinding::from_envelope`. -/
def fromEnvelope (envelope : ImmutableExecutionEnvelope) : ConsentAttestationBinding where
  materialVersion := envelope.plan.materialVersion
  planDigest := envelope.plan.digest
  executionId := envelope.executionId
  planId := envelope.plan.planId
  proposalId := envelope.plan.proposalId
  proposalRevisionId := envelope.plan.proposalRevisionId
  proposalRevision := envelope.plan.proposalRevision
  approvedOperationIds := envelope.plan.approvedOperationIds
  approvedOperationCount := envelope.plan.operationCount
  sourceSnapshotVersion := envelope.plan.sourceSnapshotVersion
  rootId := envelope.rootId
  destinationRoot := envelope.rootBinding
  safetyPolicy := envelope.safetyPolicyBinding
  consentNonce := envelope.consent.consentNonce
  issuedAtUnixMs := envelope.consent.issuedAtUnixMs
  expiresAtUnixMs := envelope.consent.expiresAtUnixMs

/-- `ConsentAttestationBinding::validate`. -/
def validate (parse : String → Option Nat) (binding : ConsentAttestationBinding) :
    Except ValidationError Unit := do
  let _ ← validateDomainId parse binding.executionId "execution id"
  let _ ← validateDomainId parse binding.planId "plan id"
  let _ ← validateDomainId parse binding.proposalId "proposal id"
  let _ ← validateDomainId parse binding.proposalRevisionId "proposal revision id"
  let _ ← validateDomainId parse binding.sourceSnapshotVersion "source snapshot version"
  let _ ← validateDomainId parse binding.rootId "root id"
  require (binding.materialVersion = executionPlanMaterialVersion
    ∧ binding.planDigest.isZero = false ∧ binding.consentNonce.isZero = false
    ∧ 0 ≤ binding.issuedAtUnixMs ∧ binding.issuedAtUnixMs < binding.expiresAtUnixMs
    ∧ binding.approvedOperationIds ≠ [] ∧ binding.approvedOperationIds.length ≤ maxManifests
    ∧ binding.approvedOperationCount = binding.approvedOperationIds.length)
    (.invalidField "consent attestation binding")
  validateApprovedIds parse none [] binding.approvedOperationIds
  binding.destinationRoot.validate
  binding.safetyPolicy.validate
  require (binding.safetyPolicy.digest.isZero = false) (.invalidField "safety policy digest")

end ConsentAttestationBinding

/-! ## Sessions, requests and outcomes -/

inductive OperationDirection where
  | forward
  | rollback
deriving DecidableEq, Repr

/-- `CommittedJournalEventBinding::validate`. -/
def validateJournalIntent (intent : CommittedJournalEventBinding) :
    Except ValidationError Unit :=
  require (intent.databaseSequence = intent.externalSequence
    ∧ intent.databaseEventDigest = intent.externalEventDigest
    ∧ intent.databaseEventDigest.isZero = false) (.invalidField "durable journal event binding")

inductive RollbackEligibilityState where
  | applied
  | recovered
deriving DecidableEq, Repr

structure RollbackEligibility where
  operationId : String
  state : RollbackEligibilityState
  appliedEvent : CommittedJournalEventBinding
deriving DecidableEq

def RollbackEligibility.validate (parse : String → Option Nat) (eligibility : RollbackEligibility)
    (envelope : ImmutableExecutionEnvelope) : Except ValidationError Unit := do
  let _ ← validateDomainId parse eligibility.operationId "rollback operation id"
  validateJournalIntent eligibility.appliedEvent
  require ((envelope.operation eligibility.operationId).isSome = true)
    (.invalidField "rollback operation outside envelope")

inductive SessionAuthorization where
  | forward
  | rollback (eligibleOperations : List RollbackEligibility)
deriving DecidableEq

namespace SessionAuthorization

/-- The loop over the eligible operations; `ids` are those before this one. -/
def validateEligible (parse : String → Option Nat) (envelope : ImmutableExecutionEnvelope) :
    List String → List RollbackEligibility → Except ValidationError Unit
  | _, [] => .ok ()
  | ids, eligibility :: rest => do
    eligibility.validate parse envelope
    require (eligibility.operationId ∉ ids) (.duplicateOrUnordered "rollback eligible operations")
    validateEligible parse envelope (eligibility.operationId :: ids) rest

/-- `SessionAuthorization::validate`. -/
def validate (parse : String → Option Nat) (authorization : SessionAuthorization)
    (envelope : ImmutableExecutionEnvelope) : Except ValidationError Unit :=
  match authorization with
  | .forward => .ok ()
  | .rollback eligible => do
    require (eligible ≠ [] ∧ eligible.length ≤ maxManifests)
      (.boundExceeded "rollback eligible operations")
    validateEligible parse envelope [] eligible

/-- `SessionAuthorization::permits`. -/
def permits (authorization : SessionAuthorization) (operationId : String)
    (direction : OperationDirection) : Bool :=
  match authorization, direction with
  | .forward, .forward => true
  | .rollback eligible, .rollback => eligible.any (·.operationId = operationId)
  | _, _ => false

/-- `SessionAuthorization::rollback_eligible_ids`. -/
def rollbackEligibleIds : SessionAuthorization → List String
  | .forward => []
  | .rollback eligible => eligible.map (·.operationId)

end SessionAuthorization

structure OperationBinding where
  operationId : String
  direction : OperationDirection
  journalIntent : CommittedJournalEventBinding
deriving DecidableEq

def OperationBinding.validate (parse : String → Option Nat) (binding : OperationBinding) :
    Except ValidationError Unit := do
  let _ ← validateDomainId parse binding.operationId "operation binding"
  validateJournalIntent binding.journalIntent

inductive ProtocolRefusalCategory where
  | protocol
  | authentication
  | replay
deriving DecidableEq, Repr

structure ProtocolRefusal where
  category : ProtocolRefusalCategory
  code : String
  detail : String
deriving DecidableEq

def ProtocolRefusal.validate (refusal : ProtocolRefusal) : Except ValidationError Unit :=
  validateCodeAndDetail refusal.code refusal.detail

inductive ExecutorErrorClass where
  | sharingViolation
  | lockViolation
  | permissionDenied
  | diskFull
  | destinationCollision
  | sourceMissing
  | pathPolicyRefusal
  | precondition
  | verificationLimit
  | cancelled
  | unsupported
  | inputOutput
  | ambiguousMutationOutcome
deriving DecidableEq, Repr

structure ExecutorAttemptAudit where
  attemptCount : Nat
  errorClass : Option ExecutorErrorClass
deriving DecidableEq

def ExecutorAttemptAudit.validate (audit : ExecutorAttemptAudit) : Except ValidationError Unit :=
  require (audit.attemptCount ≠ 0 ∧ audit.attemptCount ≤ 3)
    (.invalidField "executor attempt count")

inductive ExecutorOutcome where
  | success (appliedAtUnixMs : Int) (observedStateDigest : Bytes32) (audit : ExecutorAttemptAudit)
  | provenNotApplied (code detail : String) (audit : ExecutorAttemptAudit)
  | recoveryRequired (code detail : String) (audit : ExecutorAttemptAudit)
  | protocolRefusal (refusal : ProtocolRefusal)
deriving DecidableEq

def ExecutorOutcome.validate : ExecutorOutcome → Except ValidationError Unit
  | .success appliedAtUnixMs _ audit => do
    require (0 ≤ appliedAtUnixMs) (.invalidField "applied timestamp")
    audit.validate
  | .provenNotApplied code detail audit | .recoveryRequired code detail audit => do
    validateCodeAndDetail code detail
    audit.validate
  | .protocolRefusal refusal => refusal.validate

end Zemo.ExecutorV2
