import Zemo.Coordinator.Dispatching
import Zemo.Lib.Run

set_option autoImplicit false

/-! # The service over its whole life

A machine is the world together with whether the service is running in it. Its steps are the calls
of the application and restarts. A call may crash, and then nothing happens until a restart, which
loses what was not flushed of the external journal, checks both journals and recovers an
interrupted execution. `Kept.step` is the rule for one step, and over a run it is used with
`Run.invariant`. -/

namespace Zemo

variable {χ : Type}

/-! ## Calls -/

/-- The calls of the application on an execution. -/
inductive Call where
  | createChallenge (phrase : Option String) (nonce : Bytes32) (issuedAtUnixMs : Int)
  | finalize (challenge : ExecutionConsentChallenge) (attestedAtUnixMs : Int)
  | discard (challenge : ExecutionConsentChallenge)
  | start (authorizationTimeUnixMs : Int)
  | pause
  | cancel
  | rollback
  | recover

/-- Forget the answer of a call. -/
def unanswered {α : Type} (m : Coordinator χ α) : Coordinator χ Unit := m >>= fun _ => pure ()

def Call.exec (env : Env χ) : Call → Coordinator χ Unit
  | .createChallenge phrase nonce issued =>
      unanswered (createExecutionConsentChallenge env phrase nonce issued)
  | .finalize challenge attestedAt => unanswered (finalizeExecutionConsent env challenge attestedAt)
  | .discard challenge => unanswered (discardExecutionConsentChallenge env challenge)
  | .start time => unanswered (startExecution env time)
  | .pause => unanswered (pauseExecution env)
  | .cancel => unanswered (cancelExecution env)
  | .rollback => unanswered (rollbackExecution env)
  | .recover => unanswered (recoverExecution env)

/-! ## Restarts -/

/-- Record what the start of the service found of the database journal. -/
def noteDatabaseJournal (valid : Except ApplicationError Bool) : Coordinator χ Unit :=
  match valid with
  | .ok true => pure ()
  | .ok false =>
      recordJournalDiagnostic .database "database_journal_chain_invalid"
        "The authenticated database execution journal chain is invalid."
  | .error _ =>
      recordJournalDiagnostic .database "database_journal_unavailable"
        "The authenticated database execution journal is unavailable."

/-- Record that the journals could not be brought together. -/
def noteExternalJournal (synchronized : Except ApplicationError Unit) : Coordinator χ Unit :=
  match synchronized with
  | .ok _ => pure ()
  | .error _ =>
      recordJournalDiagnostic .external "external_journal_consistency_failed"
        "The encrypted recovery journal does not match the database journal."

/-- `construct`, for this execution; `diagnostics` are those the external journal was opened
    with. -/
def construct (env : Env χ) (diagnostics : List JournalDiagnostic) : Coordinator χ Unit := do
  Prog.modifies fun w => { w with diagnostics := diagnostics }
  let withJournal ← query fun db => .ok (decide (0 ≤ db.session.journalSequence))
  if withJournal then
    Prog.attempt (query fun db => .ok (db.validateExecutionJournal env.store.codec)) >>=
      noteDatabaseJournal
    let diagnostics ← Prog.reads (·.diagnostics)
    if diagnostics = [] then
      Prog.attempt (synchronizeExternalJournal false) >>= noteExternalJournal
    else pure ()
  else pure ()

/-- The statuses `recovery_execution_ids` selects. -/
def OrganizationExecutionStatus.inRecovery : OrganizationExecutionStatus → Bool
  | .running | .rollingBack | .recoveryRequired | .recoveryAvailable | .recoveryAmbiguous => true
  | _ => false

/-- `reconcile_interrupted_executions`. -/
def reconcileInterruptedExecutions (env : Env χ) : Coordinator χ Unit := do
  let diagnostics ← Prog.reads (·.diagnostics)
  if diagnostics = [] then
    let _ ← write env .interrupted
    let recovering ← query fun db => .ok db.session.status.inRecovery
    if recovering then
      let _ ← Prog.attempt (recoverExecution env)
      pure ()
    else pure ()
  else pure ()

/-- `ExecutionApplicationService::new`. -/
def newService (env : Env χ) (diagnostics : List JournalDiagnostic) : Coordinator χ Unit := do
  construct env diagnostics
  reconcileInterruptedExecutions env

/-! ## Machines -/

structure Machine (χ : Type) where
  world : World χ
  up : Bool

/-- A step of a machine, with the turns that happen during it. -/
inductive MachineStep (χ : Type) where
  | call (call : Call) (turns : List Turn)
  | restart (kept : Nat) (diagnostics : List JournalDiagnostic) (executor : χ) (turns : List Turn)

/-- Run a program to its end; the turns that are left over do not matter any more. -/
def World.perform (w : World χ) (turns : List Turn) (m : Coordinator χ Unit) :
    Exit ApplicationError Unit × World χ :=
  let r := m { w with turns := turns }
  (r.1, { r.2 with turns := [] })

/-- The world a new process finds. -/
def World.afterCrash (w : World χ) (kept : Nat) (executor : χ) : World χ :=
  { w with external := w.external.afterCrash kept, executor := executor }

def Machine.step (env : Env χ) : MachineStep χ → Machine χ → Machine χ
  | .call call turns, m =>
      if m.up then
        let r := m.world.perform turns (call.exec env)
        { world := r.2, up := decide (r.1 ≠ .crash) }
      else m
  | .restart kept diagnostics executor turns, m =>
      let r := (m.world.afterCrash kept executor).perform turns (newService env diagnostics)
      { world := r.2, up := decide (r.1 = .ok ()) }

/-- The machine after a list of steps. -/
def Machine.after (env : Env χ) (m : Machine χ) (steps : List (MachineStep χ)) : Machine χ :=
  Run.after (Machine.step env) m steps

/-- A machine in which the execution was just prepared. -/
structure Machine.Initial (m : Machine χ) : Prop where
  prepared : Prepared m.world.db
  trace : m.world.trace = []

/-! ## What is kept over a run -/

variable {env : Env χ} {P : World χ → Prop}

/-- Only a start writes forward intents. -/
def Call.forward : Call → Bool
  | .start _ => true
  | _ => false

theorem unanswered_keeps {α : Type} {m : Coordinator χ α} (h : Prog.Keeps P m) :
    Prog.Keeps P (unanswered m) :=
  .bind h fun _ => .pure

theorem Call.exec_keeps (call : Call) (h : Kept env call.forward P) :
    Prog.Keeps P (call.exec env) := by
  cases call with
  | createChallenge => exact unanswered_keeps (createExecutionConsentChallenge_keeps h)
  | finalize => exact unanswered_keeps (finalizeExecutionConsent_keeps h)
  | discard => exact unanswered_keeps (discardExecutionConsentChallenge_keeps h.quiet)
  | start => exact unanswered_keeps (startExecution_keeps h)
  | pause => exact unanswered_keeps (pauseExecution_keeps h.quiet)
  | cancel => exact unanswered_keeps (cancelExecution_keeps h)
  | rollback => exact unanswered_keeps (rollbackExecution_keeps h)
  | recover => exact unanswered_keeps (recoverExecution_keeps h)

theorem construct_keeps (h : Still P)
    (hsync : Prog.Keeps P (synchronizeExternalJournal (χ := χ) false))
    {diagnostics : List JournalDiagnostic} : Prog.Keeps P (construct env diagnostics) := by
  refine .bind (.modifies fun w hw => h.diagnostics w diagnostics hw) fun _ =>
    .bind (query_keeps h.stable) fun withJournal => ?_
  split
  · refine .bind (.bind (.attempt (query_keeps h.stable)) fun valid => ?_) fun _ =>
      .bind .reads fun diagnostics => ?_
    · unfold noteDatabaseJournal
      split
      · exact .pure
      · exact recordJournalDiagnostic_keeps h
      · exact recordJournalDiagnostic_keeps h
    · split
      · refine .bind (.attempt hsync) fun synchronized => ?_
        unfold noteExternalJournal
        split
        · exact .pure
        · exact recordJournalDiagnostic_keeps h
      · exact .pure
  · exact .pure

theorem reconcileInterruptedExecutions_keeps (h : Quiet env P)
    (hrecover : Prog.Keeps P (recoverExecution env)) :
    Prog.Keeps P (reconcileInterruptedExecutions env) := by
  refine .bind .reads fun diagnostics => ?_
  split
  · refine .bind (write_keeps h fun _ => by simp) fun _ =>
      .bind (query_keeps h.stable) fun recovering => ?_
    split
    · exact .bind (.attempt hrecover) fun _ => .pure
    · exact .pure
  · exact .pure

theorem newService_keeps {forward : Bool} (h : Kept env forward P)
    {diagnostics : List JournalDiagnostic} : Prog.Keeps P (newService env diagnostics) :=
  .bind (construct_keeps h.toStill (synchronizeExternalJournal_keeps h.toInert)) fun _ =>
    reconcileInterruptedExecutions_keeps h.quiet (recoverExecution_keeps h)

/-- A stable property does not look at the turns. -/
theorem Still.turns (h : Still P) {w : World χ} (turns : List Turn) (hw : P w) :
    P { w with turns := turns } :=
  h.stable w {} turns hw

theorem Still.perform (h : Still P) {w : World χ} {turns : List Turn} {m : Coordinator χ Unit}
    (hm : Prog.Keeps P m) (hw : P w) : P (w.perform turns m).2 :=
  h.turns [] (hm _ (h.turns turns hw))

/-- The events a step may write. -/
def MachineStep.forward : MachineStep χ → Bool
  | .call c _ => c.forward
  | .restart .. => false

/-- A step of the machine keeps what is kept. -/
theorem Kept.step (step : MachineStep χ) (h : Kept env step.forward P) {m : Machine χ}
    (hm : P m.world) : P (m.step env step).world := by
  cases step with
  | call call turns =>
      simp only [Machine.step]
      split
      · exact h.toStill.perform (call.exec_keeps h) hm
      · exact hm
  | restart kept diagnostics executor turns =>
      refine h.toStill.perform (newService_keeps h) ?_
      exact h.executor _ executor (h.lost _ kept hm)

/-- What survives a start survives every run. -/
theorem Kept.after (h : Kept env true P) {m : Machine χ} (hm : P m.world)
    (steps : List (MachineStep χ)) : P (m.after env steps).world := by
  refine Run.invariant (I := fun m : Machine χ => P m.world) (fun step m hm => ?_) steps hm
  refine Kept.step step ?_ hm
  cases hforward : step.forward with
  | true => exact h
  | false => exact h.backward

/-! ## A small machine

The sample execution in a folder with the one file it renames, and an executor that does what it is
asked. -/

/-- The session an executor opens for a detail. -/
def sampleSession (detail : ExecutionDetail) (authorization : SessionAuthorization) :
    ExecutorSessionIdentity where
  sessionId := match authorization with
    | .forward => sampleDigest
    | .rollback _ => String.ofList (List.replicate 64 'e')
  executionId := detail.session.id
  planId := detail.session.planId
  planDigestHex := detail.session.planDigest
  purpose := match authorization with
    | .forward => .forward
    | .rollback _ => .rollback
  coordinatorPid := 1
  childPid := none
  workerNonceHashHex := sampleDigest
  coordinatorNonceHashHex := sampleDigest
  responseNonceHashHex := none
  openedAtUnixMs := 0

/-- An executor that performs the request on the tree, for the detail its session was opened with. -/
def sampleExecutor (policy : FilePolicy) : Executor (Option ExecutionDetail) where
  openSession := fun _ detail authorization =>
    (.ok (sampleSession detail authorization), some detail)
  reserve := fun x _ _ _ => (.ok (1, Bytes32.filled 5), x)
  dispatch := fun x request _ tree =>
    let operation := x.bind fun detail => detail.operations.find? (·.id = request.operationId)
    match operation.bind fun op => op.mutate policy request.direction tree with
    | some after =>
        (.ok { outcome := .success { attemptCount := 1, errorClass := none }
               responseDigestHex := sampleDigest }, x, after)
    | none =>
        (.ok { outcome := .provenNotApplied "precondition" "" { attemptCount := 1, errorClass := none }
               responseDigestHex := sampleDigest }, x, tree)

def samplePolicy : FilePolicy where
  lower := id
  maximumRehashBytes := 1

def sampleEnv : Env (Option ExecutionDetail) where
  store := sampleContext
  authority := sampleAuthority
  hashes :=
    { plan := { json := fun _ => [], hash := fun _ => sampleDigest }
      requestId := fun sessionId _ _ => sessionId
      requestDigest := fun _ _ _ _ _ _ => sampleDigest
      nonceHash := fun _ => sampleDigest }
  files := samplePolicy
  policyBinding := some sampleDetail.consent.safetyPolicy
  largeBatchConfirmationThreshold := 100
  gateEnabled := true
  envelopeAccepted := fun _ => true
  rollbackEnvelopeAccepted := fun _ => true
  executor := sampleExecutor samplePolicy
  iso := fun _ => "t"
  describe := fun _ => "error"

/-- The folder with the file at `a`. -/
def sampleTree : Tree where
  entries := Finmap.singleton ["a"] (.leaf (.file sampleFingerprint))
  rootless := by decide
  closed := by
    intro p x h
    rw [Finmap.mem_singleton] at h
    left
    simpa using congrArg List.dropLast h

def sampleMachine : Machine (Option ExecutionDetail) where
  world :=
    { db := sampleRows
      external := { events := [], flushed := 0 }
      diagnostics := []
      outside :=
        { approvalCurrent := true
          rootById := some 1
          activeRoot := some 1
          rootValid := true
          rootBinding := some sampleDetail.consent.destinationRoot
          tree := sampleTree }
      executor := none
      now := 2
      turns := []
      trace := [] }
  up := true

theorem sampleMachine_initial : sampleMachine.Initial := ⟨sampleRows_prepared, rfl⟩

/-- The challenge the application creates at time 1. -/
def createdChallenge : ExecutionConsentChallenge :=
  { sampleChallenge with
    material := { sampleChallenge.material with expiresAtUnixMs := 1 + executionConsentLifetimeMs } }

/-- The user confirms the plan, and it is executed. -/
def sampleSteps : List (MachineStep (Option ExecutionDetail)) :=
  [.call (.createChallenge none (Bytes32.filled 4) 1) [], .call (.finalize createdChallenge 2) [],
    .call (.start 3) []]

end Zemo
