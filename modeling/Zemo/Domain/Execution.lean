import Mathlib.Data.List.Basic
import Mathlib.Data.Prod.Basic

set_option autoImplicit false

/-! # Executions: identifiers, states and records

The data an execution of an approved organization plan is made of: the states its session, its
operations, its consent and its executor requests go through, and the records that carry them.

Identifiers are numbers; what matters of them is equality and, for operations, the order the
scheduler breaks ties with. A relative path is the list of its components. Text times are the
strings the database stores, Unix times are milliseconds as integers. -/

namespace Zemo

abbrev ExecutionId := Nat
abbrev PlanId := Nat
abbrev ProposalId := Nat
abbrev OrganizationRevisionId := Nat
abbrev ProposalItemId := Nat
abbrev RootId := Nat
abbrev WorkspaceId := Nat
abbrev ScanId := Nat
abbrev OperationStepId := Nat

/-- A `[u8; 32]`: a digest, a nonce or a message authentication code. -/
abbrev Bytes32 := { bytes : List UInt8 // bytes.length = 32 }

instance Bytes32.lawfulBEq : LawfulBEq Bytes32 := inferInstance

namespace Bytes32

/-- The value whose bytes are all `b`. -/
def filled (b : UInt8) : Bytes32 := ⟨List.replicate 32 b, List.length_replicate⟩

/-- All 32 bytes are zero. -/
def isZero (v : Bytes32) : Bool := v.val.all (· = 0)

end Bytes32

/-- A path below the root of the execution, as its components. -/
abbrev RelPath := List String

def executionPlanMaterialVersion : Nat := 2

def executionSafetyPolicyVersion : String := "execution-safety-v2"

def maxExecutionVerificationBytes : Nat := 64 * 1024 * 1024 * 1024

/-! ## States -/

inductive OrganizationExecutionStatus where
  | prepared
  | awaitingConfirmation
  | approved
  | running
  | paused
  | cancelled
  | completed
  | partial_
  | failed
  | recoveryRequired
  | recoveryAvailable
  | recoveryAmbiguous
  | rollingBack
  | rolledBack
  | rollbackPartial
deriving DecidableEq, Repr

/-- The statuses the database treats as the end of an execution or of its rollback. -/
def OrganizationExecutionStatus.isTerminal : OrganizationExecutionStatus → Bool
  | .completed | .partial_ | .failed | .cancelled | .rolledBack | .rollbackPartial => true
  | _ => false

/-- The statuses of an execution that was not started yet. -/
def OrganizationExecutionStatus.waits : OrganizationExecutionStatus → Bool
  | .awaitingConfirmation | .approved => true
  | _ => false

inductive ExecutionOperationKind where
  | createDirectory
  | removeDirectoryIfEmpty
  | move
  | rename
  | moveAndRename
  | internalStage
deriving DecidableEq, Repr

/-- The operation creates or removes a directory; every other kind renames a file. -/
def ExecutionOperationKind.isDirectory : ExecutionOperationKind → Bool
  | .createDirectory | .removeDirectoryIfEmpty => true
  | _ => false

inductive ExecutionOperationStatus where
  | planned
  | preflightOk
  | blocked
  | running
  | applied
  | failed
  | skipped
  | stale
  | recovered
  | rollingBack
  | rolledBack
  | rollbackBlocked
  | rollbackFailed
deriving DecidableEq, Repr

/-- The statuses of an operation whose effect is on disk and can be undone. -/
def ExecutionOperationStatus.isApplied : ExecutionOperationStatus → Bool
  | .applied | .recovered => true
  | _ => false

inductive ExecutionRecoveryState where
  | recoveryNotRequired
  | recoveryAvailable
  | recoveryRequired
  | recoveryAmbiguous
deriving DecidableEq, Repr

inductive ExecutionFailureCategory where
  | isolatedFailure
  | dependencyFailure
  | criticalExecutionFailure
deriving DecidableEq, Repr

inductive ExecutionConsentState where
  | pending
  | attested
  | consumed
  | expired
  | invalidated
deriving DecidableEq, Repr

inductive ExecutorSessionPurpose where
  | forward
  | rollback
deriving DecidableEq, Repr

inductive ExecutorRequestDirection where
  | forward
  | rollback
deriving DecidableEq, Repr

/-- The purpose a session must have for requests of this direction. -/
def ExecutorRequestDirection.purpose : ExecutorRequestDirection → ExecutorSessionPurpose
  | .forward => .forward
  | .rollback => .rollback

inductive ExecutorRequestState where
  | intentDurable
  | acknowledgedSuccess
  | provenNotApplied
  | recoveryRequired
  | provenNotStarted
  | provenApplied
  | ambiguous
deriving DecidableEq, Repr

/-- The transitions of a request that the domain allows. -/
def ExecutorRequestState.mayTransitionTo (self next : ExecutorRequestState) : Bool :=
  self = next ||
    match self, next with
    | .intentDurable, .acknowledgedSuccess => true
    | .intentDurable, .provenNotApplied => true
    | .intentDurable, .recoveryRequired => true
    | .intentDurable, .provenNotStarted => true
    | .intentDurable, .provenApplied => true
    | .intentDurable, .ambiguous => true
    | .acknowledgedSuccess, .provenApplied => true
    | .acknowledgedSuccess, .recoveryRequired => true
    | .acknowledgedSuccess, .ambiguous => true
    | .recoveryRequired, .provenNotStarted => true
    | .recoveryRequired, .provenApplied => true
    | .recoveryRequired, .ambiguous => true
    | .provenNotApplied, .recoveryRequired => true
    | .provenNotApplied, .provenNotStarted => true
    | .provenNotApplied, .ambiguous => true
    | .provenNotStarted, .ambiguous => true
    | .provenApplied, .ambiguous => true
    | _, _ => false

/-- Every state may become ambiguous, and an ambiguous request stays so. -/
theorem ExecutorRequestState.mayTransitionTo_ambiguous (s : ExecutorRequestState) :
    s.mayTransitionTo .ambiguous := by
  cases s <;> rfl

/-! ## Records -/

inductive PlatformKind where
  | windows
  | macOs
  | linux
  | other
deriving DecidableEq, Repr

inductive PathEncoding where
  | windowsUtf16Le
  | unixBytes
deriving DecidableEq, Repr

/-- A path as the platform writes it. -/
structure NativePath where
  encoding : PathEncoding
  bytes : List UInt8
deriving DecidableEq

/-- `NativePath::is_empty`. -/
def NativePath.isEmpty (path : NativePath) : Bool := path.bytes.isEmpty

structure VolumeIdentity where
  platform : PlatformKind
  stableIdentifier : String
  filesystemType : Option String
  caseSensitive : Bool
  removable : Bool
  isLocal : Bool
deriving DecidableEq

/-- What is known of a regular file: the identity of the object (`NativeFileIdentity`) and its
    observed metadata and content. -/
structure FileFingerprint where
  volume : VolumeIdentity
  objectKey : List UInt8
  parentKey : List UInt8
  leafName : NativePath
  linkCount : Nat
  reparseTag : Option Nat
  byteSize : Nat
  modifiedAtNs : Option Int
  createdAtNs : Option Int
  attributes : Nat
  quickDigest : Option Bytes32
  contentDigest : Option Bytes32
deriving DecidableEq

/-- `stable_for_apply`. -/
def FileFingerprint.stableForApply (fingerprint : FileFingerprint) : Bool :=
  fingerprint.linkCount = 1 && fingerprint.reparseTag.isNone && fingerprint.contentDigest.isSome

/-- `same_file_state`: the observed file is the expected one, on a volume of the same name, with one
    link, no reparse tag and the same content. Where the file is does not matter. -/
def sameFileState (expected observed : FileFingerprint) : Bool :=
  expected.volume.stableIdentifier = observed.volume.stableIdentifier
    && expected.objectKey = observed.objectKey
    && observed.linkCount = 1
    && observed.reparseTag.isNone
    && expected.byteSize = observed.byteSize
    && expected.modifiedAtNs = observed.modifiedAtNs
    && expected.attributes = observed.attributes
    && expected.contentDigest = observed.contentDigest
    && expected.contentDigest.isSome

structure ExecutionOperation where
  id : OperationStepId
  proposalOperationId : Option ProposalItemId
  kind : ExecutionOperationKind
  sourceRelativePath : Option RelPath
  destinationRelativePath : RelPath
  originalSourceRelativePath : Option RelPath
  expectedSourceHash : Option String
  expectedSourceSize : Option Nat
  expectedSourceModifiedAt : Option String
  liveFingerprint : Option FileFingerprint
  postFingerprint : Option FileFingerprint
  preconditions : List String
  dependencies : List OperationStepId
  sequence : Nat
  status : ExecutionOperationStatus
  directoryExistedBefore : Option Bool
  reason : Option String
  errorCode : Option String
  errorMessage : Option String
  startedAt : Option String
  completedAt : Option String
  rolledBackAt : Option String
deriving DecidableEq

structure ExecutionConsent where
  state : ExecutionConsentState
  issuedAtUnixMs : Option Int
  expiresAtUnixMs : Option Int
  attestedAtUnixMs : Option Int
  consumedAtUnixMs : Option Int
  invalidatedAtUnixMs : Option Int
  invalidationReason : Option String
  nonce : Option Bytes32
  attestationMac : Option Bytes32
deriving DecidableEq

/-- The consent of an execution nobody was asked about yet. -/
def ExecutionConsent.pending : ExecutionConsent where
  state := .pending
  issuedAtUnixMs := none
  expiresAtUnixMs := none
  attestedAtUnixMs := none
  consumedAtUnixMs := none
  invalidatedAtUnixMs := none
  invalidationReason := none
  nonce := none
  attestationMac := none

structure ExecutionSafetyPolicyBinding where
  version : String
  maximumRehashBytes : Nat
  allowQualifiedCaseOnlyRename : Bool
  digestHex : String
deriving DecidableEq

/-- The root a plan was approved for, and the volume it is on. -/
structure ExecutionRootBinding where
  canonicalPath : NativePath
  displayPath : String
  volume : VolumeIdentity
deriving DecidableEq

structure ExecutionSummary where
  affectedFiles : Nat
  foldersToCreate : Nat
  preflightOk : Nat
  applied : Nat
  blocked : Nat
  skipped : Nat
  failed : Nat
  rolledBack : Nat
  rollbackBlocked : Nat
  rollbackFailed : Nat
deriving DecidableEq

/-- An executor session as the coordinator records it. -/
structure ExecutorSessionIdentity where
  sessionId : String
  executionId : ExecutionId
  planId : PlanId
  planDigestHex : String
  purpose : ExecutorSessionPurpose
  coordinatorPid : Nat
  childPid : Option Nat
  workerNonceHashHex : String
  coordinatorNonceHashHex : String
  responseNonceHashHex : Option String
  openedAtUnixMs : Int
deriving DecidableEq

/-- An executor request before it is dispatched. -/
structure ExecutorRequestIdentity where
  requestId : String
  sessionId : String
  executionId : ExecutionId
  operationId : OperationStepId
  direction : ExecutorRequestDirection
  requestSequence : Nat
  requestNonce : Bytes32
  requestDigestHex : String
deriving DecidableEq

/-- A committed event as an executor request names it, once for each journal. -/
structure CommittedJournalEventBinding where
  databaseSequence : Nat
  databaseEventDigest : Bytes32
  externalSequence : Nat
  externalEventDigest : Bytes32
deriving DecidableEq

inductive JournalDiagnosticScope where
  | database
  | external
deriving DecidableEq, Repr

structure JournalDiagnostic where
  scope : JournalDiagnosticScope
  code : String
  message : String
  detectedAtUnixMs : Int
deriving DecidableEq

structure RecoveryItem where
  operationId : OperationStepId
  direction : ExecutorRequestDirection
  item : RelPath
  reason : Option String
deriving DecidableEq

end Zemo
