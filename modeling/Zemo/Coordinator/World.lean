import Zemo.Consent.Challenge
import Zemo.Coordinator.Checks
import Zemo.Coordinator.PlanMaterial
import Zemo.Lib.Prog
import Zemo.Persistence.Calls

set_option autoImplicit false

/-! # The world the coordinator acts in

The coordinator reads and writes three things it shares with nobody else (the database rows, the
encrypted external journal and the diagnostics in memory), looks at the file system, and hands
requests to the executor. A `World` is the state of all of them.

Between any two of its steps other threads may ask for a pause or a cancellation, the files may
change and time passes; a step may fail, or the process may crash in it, before or after it took
effect. A `Turn` is what happens at one step, and a world carries the turns to come: when none is
left, nothing interferes any more.

The trace records, for the proofs only, each request whose intent became durable and each request
that was dispatched, with what was stored at that moment. -/

namespace Zemo

/-! ## The executor -/

/-- The binding of an event that is in both journals. -/
def OperationJournalEvent.binding (event : OperationJournalEvent) : CommittedJournalEventBinding where
  databaseSequence := event.sequence
  databaseEventDigest := event.eventDigest
  externalSequence := event.sequence
  externalEventDigest := event.eventDigest

structure RollbackEligibility where
  operationId : OperationStepId
  state : ExecutionOperationStatus
  appliedEvent : CommittedJournalEventBinding
deriving DecidableEq

inductive SessionAuthorization where
  | forward
  | rollback (eligibleOperations : List RollbackEligibility)
deriving DecidableEq

structure ExecutorAttemptAudit where
  attemptCount : Nat
  errorClass : Option String
deriving DecidableEq

inductive ExecutorOutcome where
  | success (audit : ExecutorAttemptAudit)
  | provenNotApplied (code detail : String) (audit : ExecutorAttemptAudit)
  | recoveryRequired (code detail : String) (audit : ExecutorAttemptAudit)
  | protocolRefusal (code detail : String)
deriving DecidableEq

structure ExecutorDispatchResult where
  outcome : ExecutorOutcome
  responseDigestHex : String
deriving DecidableEq

/-- The executor client and its sessions, as a machine with states `χ`. Reserving yields the
    sequence number and nonce of a new request; only a dispatch changes the files. -/
structure Executor (χ : Type) where
  openSession : χ → ExecutionDetail → SessionAuthorization →
    Except ApprovedExecutorError ExecutorSessionIdentity × χ
  reserve : χ → ExecutorSessionIdentity → OperationStepId → ExecutorRequestDirection →
    Except ApprovedExecutorError (Nat × Bytes32) × χ
  dispatch : χ → ExecutorRequestIdentity → CommittedJournalEventBinding → Tree →
    Except ApprovedExecutorError ExecutorDispatchResult × χ × Tree

/-! ## What does not change -/

/-- The hashes that name plans, requests and nonces. -/
structure Hashes where
  plan : PlanHash
  requestId : String → Nat → Bytes32 → String
  requestDigest : ExecutorSessionIdentity → OperationStepId → ExecutorRequestDirection → Nat →
    String → Bytes32 → String
  nonceHash : Bytes32 → String

/-- The configuration of the service. `envelopeAccepted` and `rollbackEnvelopeAccepted` say whether
    the manifest handed to the executor can be built from the rows. -/
structure Env (χ : Type) where
  store : StoreContext
  authority : ConsentAuthority
  hashes : Hashes
  files : FilePolicy
  policyBinding : Option ExecutionSafetyPolicyBinding
  largeBatchConfirmationThreshold : Nat
  gateEnabled : Bool
  envelopeAccepted : ExecutionDetail → Bool
  rollbackEnvelopeAccepted : ExecutionDetail → Bool
  executor : Executor χ
  /-- The text of a time. -/
  iso : Int → String
  /-- The text of an error. -/
  describe : ApplicationError → String

/-! ## What does -/

/-- The journal outside the database, with the number of events a crash cannot lose. -/
structure ExternalJournal where
  events : List OperationJournalEvent
  flushed : Nat
deriving DecidableEq

/-- What a crash leaves of the external journal: all that was flushed, and at most `kept` events. -/
def ExternalJournal.afterCrash (external : ExternalJournal) (kept : Nat) : ExternalJournal :=
  let events := external.events.take (max external.flushed kept)
  { events := events, flushed := events.length }

/-- What the coordinator reads and does not own: the proposal, the root, and the files below it. -/
structure Outside where
  approvalCurrent : Bool
  rootById : Option RootId
  activeRoot : Option RootId
  rootValid : Bool
  rootBinding : Option ExecutionRootBinding
  tree : Tree

/-- How a step goes wrong. -/
inductive Fault where
  | fail
  | failAfter
  | crash
  | crashAfter
deriving DecidableEq, Repr

/-- What happens at a step: what others do before it, and whether it goes wrong. -/
structure Turn where
  outside : Option Outside := none
  now : Option Int := none
  pause : Bool := false
  cancel : Bool := false
  fault : Option Fault := none

inductive TraceEntry where
  /-- The intent of the request was committed to rows that were these before. -/
  | intended (request : ExecutorRequestIdentity) (before : Database)
  /-- The request was handed to the executor. -/
  | dispatched (request : ExecutorRequestIdentity) (binding : CommittedJournalEventBinding)
      (db : Database) (external : ExternalJournal)

structure World (χ : Type) where
  db : Database
  external : ExternalJournal
  diagnostics : List JournalDiagnostic
  outside : Outside
  executor : χ
  now : Int
  turns : List Turn
  trace : List TraceEntry

/-- A program of the coordinator. -/
abbrev Coordinator (χ α : Type) := Prog (World χ) ApplicationError α

variable {χ α : Type}

/-! ## Steps -/

/-- What others do before a step. -/
def World.meet (w : World χ) (turn : Turn) : World χ :=
  { w with
    outside := turn.outside.getD w.outside
    now := turn.now.getD w.now
    db := if turn.pause || turn.cancel then (w.db.setExecutionControl turn.pause turn.cancel).2
      else w.db }

/-- A step without faults. -/
def settle (r : Except ApplicationError α × World χ) : Exit ApplicationError α × World χ :=
  match r with
  | (.ok a, w) => (.ok a, w)
  | (.error e, w) => (.error e, w)

/-- A step that may go wrong. -/
def suffer (e : ApplicationError) (f : World χ → Except ApplicationError α × World χ)
    (fault : Option Fault) (w : World χ) : Exit ApplicationError α × World χ :=
  match fault with
  | none => settle (f w)
  | some .fail => (.error e, w)
  | some .failAfter => (.error e, (f w).2)
  | some .crash => (.crash, w)
  | some .crashAfter => (.crash, (f w).2)

/-- A step that takes a turn; `e` is the error it fails with when the turn makes it fail. -/
def effect (e : ApplicationError) (f : World χ → Except ApplicationError α × World χ) :
    Coordinator χ α := fun w =>
  match w.turns with
  | [] => settle (f w)
  | turn :: rest => suffer e f turn.fault { w.meet turn with turns := rest }

/-- Read the stored rows. -/
def query (f : Database → Except PersistenceError α) : Coordinator χ α :=
  effect (.persistence .sqlite) fun w => (raise .persistence (f w.db), w)

/-- What a call adds to the trace. -/
def DbCall.noted (call : DbCall) (answer : Except PersistenceError Bool) (before : Database) :
    List TraceEntry :=
  match call, answer with
  | .event w, .ok _ => (w.requestIntent.map fun request => .intended request before).toList
  | _, _ => []

/-- The world after a call of the database. -/
def World.written (env : Env χ) (call : DbCall) (w : World χ) : World χ :=
  { w with
    db := call.step env.store w.db
    trace := w.trace ++ call.noted (call.run env.store w.db).1 w.db }

/-- Write to the database. -/
def write (env : Env χ) (call : DbCall) : Coordinator χ Bool :=
  effect (.persistence .sqlite) fun w =>
    (raise .persistence (call.run env.store w.db).1, w.written env call)

/-- Look at the file system or at what else is outside. -/
def look (f : Outside → Except ApplicationError α) : Coordinator χ α :=
  effect (.io .notFound) fun w => (f w.outside, w)

/-- Ask the executor, without a dispatch. -/
def ask (f : χ → Except ApprovedExecutorError α × χ) : Coordinator χ α :=
  effect (.executor (.unavailable "")) fun w =>
    (raise .executor (f w.executor).1, { w with executor := (f w.executor).2 })

/-- The world after a request was dispatched. -/
def World.dispatched (env : Env χ) (request : ExecutorRequestIdentity)
    (binding : CommittedJournalEventBinding) (w : World χ) : World χ :=
  let answer := env.executor.dispatch w.executor request binding w.outside.tree
  { w with
    executor := answer.2.1
    outside := { w.outside with tree := answer.2.2 }
    trace := w.trace ++ [.dispatched request binding w.db w.external] }

/-- `dispatch_prepared`. -/
def dispatchPrepared (env : Env χ) (request : ExecutorRequestIdentity)
    (binding : CommittedJournalEventBinding) : Coordinator χ ExecutorDispatchResult :=
  effect (.executor (.ambiguous "")) fun w =>
    (raise .executor (env.executor.dispatch w.executor request binding w.outside.tree).1,
      w.dispatched env request binding)

/-- `execution_now_unix_ms`. -/
def nowUnixMs : Coordinator χ Int := Prog.reads (·.now)

/-- `execution_now_iso`. -/
def nowIso (env : Env χ) : Coordinator χ String := Prog.reads fun w => env.iso w.now

/-- `execution_detail`. -/
def readDetail : Coordinator χ ExecutionDetail := query (·.executionDetail)

/-- `execution_journal_events`. -/
def readJournal : Coordinator χ (List OperationJournalEvent) := query fun db => .ok db.journal

/-! ## Rules -/

/-- `P` does not depend on what others do. -/
def Stable (P : World χ → Prop) : Prop :=
  ∀ (w : World χ) (turn : Turn) (rest : List Turn), P w → P { w.meet turn with turns := rest }

section Rules

variable {P S : World χ → Prop} {Q : α → World χ → Prop} {e : ApplicationError}
  {f : World χ → Except ApplicationError α × World χ}

theorem effect_of_nil {w : World χ} (h : w.turns = []) : effect e f w = settle (f w) := by
  unfold effect
  rw [h]

/-- What a step guarantees when it returns, and what holds of the world wherever it is stopped. -/
theorem effect_triple (hstable : Stable P) (hok : ∀ w a, P w → (f w).1 = .ok a → Q a (f w).2)
    (hafter : ∀ w, P w → S (f w).2) (hbefore : ∀ w, P w → S w) :
    Prog.Triple P (effect e f) Q S := by
  have hsettle : Prog.Triple P (fun w => settle (f w)) Q S := by
    intro w hw
    have h1 := hok w
    have h2 := hafter w hw
    rcases hf : f w with ⟨a | a, t⟩
    · simp only [settle, hf]
      rwa [hf] at h2
    · simp only [settle, hf]
      rw [hf] at h1
      exact h1 a hw rfl
  have hsuffer : ∀ fault, Prog.Triple P (suffer e f fault) Q S := by
    intro fault w hw
    rcases fault with - | fault
    · exact hsettle w hw
    · cases fault
      · exact hbefore w hw
      · exact hafter w hw
      · exact hbefore w hw
      · exact hafter w hw
  intro w hw
  cases hturns : w.turns with
  | nil =>
      rw [effect_of_nil hturns]
      exact hsettle w hw
  | cons turn rest =>
      simp only [effect, hturns]
      exact hsuffer turn.fault _ (hstable w turn rest hw)

theorem effect_keeps (hstable : Stable P) (hf : ∀ w, P w → P (f w).2) :
    Prog.Keeps P (effect e f) :=
  (effect_triple (Q := fun _ => P) hstable (fun w _ hw _ => hf w hw) hf fun _ hw => hw).keeps

theorem query_keeps {g : Database → Except PersistenceError α} (hstable : Stable P) :
    Prog.Keeps P (query g) :=
  effect_keeps hstable fun _ hw => hw

theorem look_keeps {g : Outside → Except ApplicationError α} (hstable : Stable P) :
    Prog.Keeps P (look g) :=
  effect_keeps hstable fun _ hw => hw

end Rules

end Zemo
