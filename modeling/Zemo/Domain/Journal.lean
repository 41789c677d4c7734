import Mathlib.Algebra.Group.Int.Defs
import Mathlib.Algebra.Group.Nat.Defs
import Zemo.Domain.Execution
import Zemo.Lib.ChainedLog

set_option autoImplicit false

/-! # Journal events

The hash-chained events of an execution. An event carries its canonical payload, the digest of
that payload, the digest of the event before it and its own digest over all of these. The encoding
of identifiers and payloads as bytes and the digest function itself are parameters (`Codec`): the
model computes which bytes are hashed, in which order, and compares the results. -/

namespace Zemo

inductive JournalEventKind where
  | approvedDurable
  | intentDurable
  | preconditionsValidated
  | appliedObserved
  | stepFailed
  | executionFinished
  | rollbackIntent
  | rolledBackObserved
  | conflict
deriving DecidableEq, Repr

/-- `kind as u8`. -/
def JournalEventKind.toByte : JournalEventKind → UInt8
  | .approvedDurable => 0
  | .intentDurable => 1
  | .preconditionsValidated => 2
  | .appliedObserved => 3
  | .stepFailed => 4
  | .executionFinished => 5
  | .rollbackIntent => 6
  | .rolledBackObserved => 7
  | .conflict => 8

/-! ## Payloads -/

/-- The `executor_session` member of an intent payload. -/
structure ExecutorSessionMaterial where
  sessionId : String
  executionId : ExecutionId
  planId : PlanId
  planDigest : String
  purpose : ExecutorSessionPurpose
  coordinatorPid : Nat
  childPid : Option Nat
  workerNonceHash : String
  coordinatorNonceHash : String
  responseNonceHash : Option String
deriving DecidableEq

/-- The `executor_request` member of an intent payload. -/
structure ExecutorRequestMaterial where
  requestId : String
  sessionId : String
  operationId : OperationStepId
  direction : ExecutorRequestDirection
  requestSequence : Nat
  requestNonce : Bytes32
  requestDigest : String
deriving DecidableEq

/-- A member of a payload that no reader of the journal looks at. -/
inductive PayloadValue where
  | null
  | flag (value : Bool)
  | number (value : Int)
  | text (value : String)
  | texts (values : List String)
  | path (value : RelPath)
  | ids (values : List Nat)
  | kind (value : ExecutionOperationKind)
  | status (value : OrganizationExecutionStatus)
  | category (value : ExecutionFailureCategory)
  | fingerprint (value : FileFingerprint)
  | audit (attemptCount : Nat) (errorClass : Option String)
deriving DecidableEq

/-- An optional member; an absent value is written as `null`. -/
def PayloadValue.ofOption {α : Type} (f : α → PayloadValue) : Option α → PayloadValue
  | some a => f a
  | none => .null

/-- The canonical data of an event: the members some reader uses, and the others under their
    names. -/
structure Payload where
  event : String
  operationId : Option OperationStepId := none
  requestId : Option String := none
  executorSession : Option ExecutorSessionMaterial := none
  executorRequest : Option ExecutorRequestMaterial := none
  details : List (String × PayloadValue) := []
deriving DecidableEq

/-! ## Events -/

/-- The encodings the event digests are computed with. -/
structure Codec where
  blake3 : List UInt8 → Bytes32
  payloadBytes : Payload → List UInt8
  executionIdBytes : ExecutionId → List UInt8
  stepIdBytes : OperationStepId → List UInt8

/-- The `width` low bytes of `n`, the lowest first. -/
def leBytes (width n : Nat) : List UInt8 :=
  (List.range width).map fun i => UInt8.ofNat (n / 256 ^ i)

/-- `i64::to_le_bytes`. -/
def leBytesInt (n : Int) : List UInt8 := leBytes 8 (n % 2 ^ 64).toNat

structure OperationJournalEvent where
  executionId : ExecutionId
  sequence : Nat
  stepId : Option OperationStepId
  kind : JournalEventKind
  payload : Payload
  payloadDigest : Bytes32
  previousEventDigest : Option Bytes32
  eventDigest : Bytes32
  occurredAtUnixMs : Int
deriving DecidableEq

/-- The bytes an event digest is taken of. -/
def eventMaterial (codec : Codec) (executionId : ExecutionId) (sequence : Nat)
    (stepId : Option OperationStepId) (kind : JournalEventKind) (payloadDigest : Bytes32)
    (previous : Option Bytes32) (occurredAtUnixMs : Int) : List UInt8 :=
  codec.executionIdBytes executionId ++ leBytes 8 sequence
    ++ stepId.elim [] codec.stepIdBytes ++ [kind.toByte] ++ payloadDigest.val
    ++ previous.elim [] (·.val) ++ leBytesInt occurredAtUnixMs

namespace OperationJournalEvent

def new (codec : Codec) (executionId : ExecutionId) (sequence : Nat)
    (stepId : Option OperationStepId) (kind : JournalEventKind) (payload : Payload)
    (previousEventDigest : Option Bytes32) (occurredAtUnixMs : Int) : OperationJournalEvent :=
  let payloadDigest := codec.blake3 (codec.payloadBytes payload)
  { executionId, sequence, stepId, kind, payload, payloadDigest, previousEventDigest,
    eventDigest := codec.blake3 (eventMaterial codec executionId sequence stepId kind payloadDigest
      previousEventDigest occurredAtUnixMs),
    occurredAtUnixMs }

/-- The event is linked to `expectedPrevious` and its digests are those of its contents. -/
def verify (codec : Codec) (event : OperationJournalEvent)
    (expectedPrevious : Option Bytes32) : Bool :=
  if event.previousEventDigest ≠ expectedPrevious then false
  else
    let rebuilt := new codec event.executionId event.sequence event.stepId event.kind event.payload
      event.previousEventDigest event.occurredAtUnixMs
    rebuilt.payloadDigest = event.payloadDigest && rebuilt.eventDigest = event.eventDigest

variable {codec : Codec} {executionId : ExecutionId} {sequence : Nat}
  {stepId : Option OperationStepId} {kind : JournalEventKind} {payload : Payload}
  {previous : Option Bytes32} {now : Int}

/-- A new event verifies against the digest it was built on. -/
@[simp] theorem verify_new :
    (new codec executionId sequence stepId kind payload previous now).verify codec previous
      = true := by
  simp [verify, new]

end OperationJournalEvent

/-! ## Chains of events -/

/-- An event is accepted at position `index` after an event with digest `previous`. -/
def eventLinked (codec : Codec) (index : Nat) (previous : Option Bytes32)
    (event : OperationJournalEvent) : Bool :=
  event.sequence = index && event.verify codec previous

/-- The events are numbered from zero and each is linked to the one before it. -/
def chainValid (codec : Codec) (events : List OperationJournalEvent) : Bool :=
  ChainedLog.valid (eventLinked codec) (·.eventDigest) events

/-- The digest the next event is linked to. -/
def chainHead (events : List OperationJournalEvent) : Option Bytes32 :=
  ChainedLog.head (·.eventDigest) events

@[simp] theorem chainHead_concat (events : List OperationJournalEvent)
    (event : OperationJournalEvent) : chainHead (events ++ [event]) = some event.eventDigest :=
  ChainedLog.head_concat _ _

theorem chainValid_concat (codec : Codec) (events : List OperationJournalEvent)
    (event : OperationJournalEvent) :
    chainValid codec (events ++ [event]) = true ↔
      chainValid codec events = true ∧ event.sequence = events.length ∧
        event.verify codec (chainHead events) = true := by
  rw [chainValid, ChainedLog.valid_concat, eventLinked, Bool.and_eq_true, decide_eq_true_eq]
  exact Iff.rfl

/-- The events of a chain are numbered below its length. -/
theorem sequence_lt_of_chainValid {codec : Codec} {events : List OperationJournalEvent}
    (h : chainValid codec events = true) : ∀ event ∈ events, event.sequence < events.length := by
  induction events using List.reverseRecOn with
  | nil => simp
  | append_singleton events last ih =>
      obtain ⟨hbefore, hseq, -⟩ := (chainValid_concat codec events last).1 h
      intro event hmem
      rw [List.length_append, List.length_singleton]
      rcases List.mem_append.1 hmem with hmem | hmem
      · have := ih hbefore event hmem
        omega
      · obtain rfl := List.mem_singleton.1 hmem
        omega

end Zemo
