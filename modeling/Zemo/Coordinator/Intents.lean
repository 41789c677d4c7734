import Zemo.Coordinator.System

set_option autoImplicit false

/-! # Intents and dispatches

What every run of the service keeps about executor requests, whatever fails or crashes in it: a
request is dispatched only when its intent is in both journals and flushed, no operation gets a
second forward request, and a rollback request follows only those that are proven not applied.

All of it is read off the trace. The trace grows in two places, and each comes with what makes the
new entry right: a committed event passed the guards of its transaction, and a dispatched request
was ready. -/

namespace Zemo

variable {χ : Type}

/-! ## The trace -/

/-- What names an attempt. -/
abbrev AttemptKey := String × OperationStepId × ExecutorRequestDirection

def ExecutorRequestIdentity.attempt (request : ExecutorRequestIdentity) : AttemptKey :=
  (request.requestId, request.operationId, request.direction)

def ExecutorRequestRow.attempt (row : ExecutorRequestRow) : AttemptKey :=
  (row.requestId, row.operationId, row.direction)

/-- The request whose intent an entry records. -/
def TraceEntry.intends : TraceEntry → Option ExecutorRequestIdentity
  | .intended request _ => some request
  | .dispatched .. => none

/-- The request an entry says was dispatched. -/
def TraceEntry.dispatches : TraceEntry → Option ExecutorRequestIdentity
  | .intended .. => none
  | .dispatched request .. => some request

/-- The attempts that were made durable in a run, in order. -/
def World.attempts (w : World χ) : List AttemptKey :=
  (w.trace.filterMap (·.intends)).map (·.attempt)

/-- What holds of the trace and the rows in every run. -/
structure TraceInvariant (codec : Codec) (w : World χ) : Prop where
  journal : JournalInvariant codec w.db
  requests : RequestInvariant w.db
  recorded : w.attempts = w.db.executorRequests.map (·.attempt)
  admitted : ∀ request before, .intended request before ∈ w.trace →
    admitsAttempt request.direction (before.priorRequests request.operationId request.direction)
  ready : ∀ request binding db external, .dispatched request binding db external ∈ w.trace →
    Ready codec request binding db external ∧ RequestInvariant db

/-- A database call is no event, an event that fails, or an event that is committed and noted. -/
theorem World.written_cases (env : Env χ) (call : DbCall) (w : World χ) :
    (w.written env call).trace = w.trace ∧
        ((w.written env call).db = w.db ∨ DbFrame w.db (w.written env call).db) ∨
      ∃ ew, call = .event ew ∧ EventCommitted env.store ew w.db (w.written env call).db ∧
        (w.written env call).trace =
          w.trace ++ (ew.requestIntent.map fun request => .intended request w.db).toList := by
  by_cases hcall : ∃ ew, call = .event ew
  · obtain ⟨ew, rfl⟩ := hcall
    rcases hrun : w.db.persistExecutionEvent env.store ew with ⟨e | u, db'⟩
    · -- a transaction that fails is forgotten
      obtain rfl := w.db.transact_error hrun
      left
      simp [World.written, DbCall.step, DbCall.run, DbCall.noted, yes, hrun, Except.map]
    · right
      refine ⟨ew, rfl, ?_, ?_⟩
      · simpa [World.written, DbCall.step, DbCall.run, yes, hrun] using
          persistExecutionEvent_eq_ok hrun
      · simp [World.written, DbCall.run, DbCall.noted, yes, hrun, Except.map]
  · left
    have hne : ∀ ew, call ≠ .event ew := fun ew heq => hcall ⟨ew, heq⟩
    refine ⟨?_, .inr (DbCall.step_frame hne w.db)⟩
    have hnoted : ∀ answer, call.noted answer w.db = [] := by
      intro answer
      cases call with
      | event ew => exact absurd rfl (hne ew)
      | _ => rfl
    simp only [World.written, hnoted, List.append_nil]

theorem attempts_of_intended {db db' : Database}
    (h : db'.intendedRequests = db.intendedRequests) :
    db'.executorRequests.map (·.attempt) = db.executorRequests.map (·.attempt) := by
  have key : ∀ db : Database,
      db.executorRequests.map (·.attempt) = db.intendedRequests.map (·.attempt) := fun db => by
    rw [Database.intendedRequests, List.map_map]
    rfl
  rw [key, key, h]

/-- A committed event adds the attempt it intends. -/
theorem EventEffect.attempts {ew : EventWrite} {db db' : Database} (h : EventEffect ew db db') :
    db'.executorRequests.map (·.attempt) =
      db.executorRequests.map (·.attempt) ++ (ew.requestIntent.map (·.attempt)).toList := by
  have key : ∀ db : Database,
      db.executorRequests.map (·.attempt) = db.intendedRequests.map (·.attempt) := fun db => by
    rw [Database.intendedRequests, List.map_map]
    rfl
  rw [key, key, h.intendedRequests, EventWrite.requestsIntended, List.map_append]
  cases ew.requestIntent <;> rfl

theorem TraceInvariant.inert {codec : Codec} : Inert (TraceInvariant (χ := χ) codec) where
  stable w turn rest h := by
    have hrequests : (w.meet turn).db.executorRequests = w.db.executorRequests := by
      rcases w.meet_db turn with heq | ⟨pause, cancel, heq⟩ <;> rw [heq]
    refine ⟨?_, ?_, ?_, h.admitted, h.ready⟩
    · exact (Inert.ofRows (χ := χ) (I := JournalInvariant codec) fun _ _ _ h =>
        ⟨h.chained, h.sequence, h.head⟩).stable w turn rest h.journal
    · exact (Inert.ofRows (χ := χ) (I := RequestInvariant) fun _ _ _ h =>
        ⟨h.operationIds, h.requestIds, h.known, h.forwardOnce⟩).stable w turn rest h.requests
    · exact h.recorded.trans (congrArg _ hrequests.symm)
  diagnostics _ _ h := ⟨h.journal, h.requests, h.recorded, h.admitted, h.ready⟩
  advanced _ _ _ h := ⟨h.journal, h.requests, h.recorded, h.admitted, h.ready⟩
  lost _ _ h := ⟨h.journal, h.requests, h.recorded, h.admitted, h.ready⟩
  executor _ _ h := ⟨h.journal, h.requests, h.recorded, h.admitted, h.ready⟩

theorem TraceInvariant.kept (env : Env χ) : Kept env true (TraceInvariant env.store.codec) where
  toInert := TraceInvariant.inert
  rows _ h := h.journal
  write call w _ h := by
    have hjournal := JournalInvariant.preserved env.store call w.db h.journal
    have hrequests := RequestInvariant.preserved env.store call w.db h.requests
    rcases w.written_cases env call with ⟨htrace, hdb⟩ | ⟨ew, -, hcommitted, htrace⟩
    · refine ⟨hjournal, hrequests, ?_, htrace ▸ h.admitted, htrace ▸ h.ready⟩
      rw [World.attempts, htrace]
      refine h.recorded.trans ?_
      rcases hdb with hdb | hdb
      · rw [hdb]
      · exact (attempts_of_intended hdb.requests).symm
    · refine ⟨hjournal, hrequests, ?_, ?_, ?_⟩
      · rw [World.attempts, htrace, hcommitted.effect.attempts, List.filterMap_append,
          List.map_append]
        refine congrArg₂ (· ++ ·) h.recorded ?_
        cases ew.requestIntent <;> rfl
      · intro request before hmem
        rw [htrace] at hmem
        rcases List.mem_append.1 hmem with hmem | hmem
        · exact h.admitted request before hmem
        · rw [Option.mem_toList, Option.map_eq_some_iff] at hmem
          obtain ⟨r, hr, heq⟩ := hmem
          obtain ⟨rfl, rfl⟩ := TraceEntry.intended.inj heq
          exact (hcommitted.accepted.intent r hr).admitted
      · intro request binding db external hmem
        rw [htrace] at hmem
        rcases List.mem_append.1 hmem with hmem | hmem
        · exact h.ready request binding db external hmem
        · simp at hmem
  dispatched request binding w h hready := by
    refine ⟨h.journal, h.requests, ?_, fun r before hmem => ?_, fun r b db external hmem => ?_⟩
    · show ((w.trace ++ _).filterMap _).map _ = _
      rw [List.filterMap_append, List.map_append]
      exact (List.append_nil _).trans h.recorded
    · rcases List.mem_append.1 hmem with hmem | hmem
      · exact h.admitted r before hmem
      · simp at hmem
    · rcases List.mem_append.1 hmem with hmem | hmem
      · exact h.ready r b db external hmem
      · simp only [List.mem_singleton, TraceEntry.dispatched.injEq] at hmem
        obtain ⟨rfl, rfl, rfl, rfl⟩ := hmem
        exact ⟨hready, h.requests⟩

theorem TraceInvariant.initial {codec : Codec} {m : Machine χ} (h : m.Initial) :
    TraceInvariant codec m.world where
  journal := h.prepared.rows.journalInvariant codec
  requests := h.prepared.rows.requestInvariant
  recorded := by rw [World.attempts, h.trace, h.prepared.rows.requests]; rfl
  admitted := by rw [h.trace]; simp
  ready := by rw [h.trace]; simp

/-- The trace of every run is right. -/
theorem traceInvariant_after (env : Env χ) {m : Machine χ} (h : m.Initial)
    (steps : List (MachineStep χ)) :
    TraceInvariant env.store.codec (m.after env steps).world :=
  (TraceInvariant.kept env).after (.initial h) steps

/-! ## Intent before effect -/

/-- The intent of the request is in both journals, which are equal, valid and flushed. -/
structure IntentDurableInBoth (codec : Codec) (request : ExecutorRequestIdentity)
    (db : Database) (external : ExternalJournal) : Prop where
  equal : external.events = db.journal
  flushed : external.flushed = external.events.length
  valid : chainValid codec db.journal = true
  intent : ∃ event ∈ db.journal,
    event.kind = request.direction.intentKind ∧ event.stepId = some request.operationId ∧
    event.payload.executorRequest = some request.material

theorem Ready.intentDurableInBoth {codec : Codec} {request : ExecutorRequestIdentity}
    {binding : CommittedJournalEventBinding} {db : Database} {external : ExternalJournal}
    (h : Ready codec request binding db external) :
    IntentDurableInBoth codec request db external where
  equal := h.appended
  flushed := h.flushed
  valid := h.chained
  intent := by
    obtain ⟨event, hmem, -, hkind, hstep, hnames⟩ := h.event
    exact ⟨event, hmem, hkind, hstep, hnames⟩

/-- **Intent before effect.** Whatever fails or crashes, a request that is dispatched has its intent
    in both journals at that moment. -/
theorem intent_before_effect (env : Env χ) {m : Machine χ} (h : m.Initial)
    (steps : List (MachineStep χ)) :
    ∀ request binding db external,
      .dispatched request binding db external ∈ (m.after env steps).world.trace →
      IntentDurableInBoth env.store.codec request db external :=
  fun request binding db external hmem =>
    ((traceInvariant_after env h steps).ready request binding db external hmem).1.intentDurableInBoth

/-- In the sample run one request is dispatched, after its intent. -/
theorem intent_before_effect_sample :
    (sampleMachine.after sampleEnv sampleSteps).world.trace.filterMap
        (fun entry => entry.dispatches.map (·.attempt)) = [(sampleDigest, 1, .forward)] ∧
      ∀ request binding db external,
        .dispatched request binding db external ∈
          (sampleMachine.after sampleEnv sampleSteps).world.trace →
        IntentDurableInBoth sampleEnv.store.codec request db external :=
  ⟨by decide +kernel, intent_before_effect sampleEnv sampleMachine_initial sampleSteps⟩

/-! ## One outstanding attempt -/

/-- A request of this operation in this direction may still have an effect, or had one. -/
def ExecutorRequestState.blocks (state : ExecutorRequestState) : Prop :=
  state ≠ .provenNotApplied ∧ state ≠ .provenNotStarted

/-- What holds of the attempts of a run. -/
structure OneAttempt (w : World χ) : Prop where
  /-- No operation has two forward requests. -/
  forwardOnce : w.attempts.Pairwise fun a b =>
    a.2.2 = .forward → b.2.2 = .forward → a.2.1 ≠ b.2.1
  /-- A rollback request is made durable when no earlier one of the operation blocks. -/
  rollbackAfter : ∀ request before, .intended request before ∈ w.trace →
    request.direction = .rollback → ∀ row ∈ before.executorRequests,
      row.operationId = request.operationId → row.direction = .rollback → ¬row.state.blocks
  /-- A request is dispatched from its intent, when no other of its operation blocks. -/
  dispatched : ∀ request binding db external,
    .dispatched request binding db external ∈ w.trace → ∀ row ∈ db.executorRequests,
      row.operationId = request.operationId → row.direction = request.direction →
        row.state.blocks → row.requestId = request.requestId ∧ row.state = .intentDurable

/-- The request of a ready dispatch is the only one that may have an effect. -/
theorem Ready.unblocked {codec : Codec} {request : ExecutorRequestIdentity}
    {binding : CommittedJournalEventBinding} {db : Database} {external : ExternalJournal}
    (h : Ready codec request binding db external) (hrows : RequestInvariant db) :
    ∀ row ∈ db.executorRequests, row.operationId = request.operationId →
      row.direction = request.direction → row.state.blocks →
        row.requestId = request.requestId ∧ row.state = .intentDurable := by
  intro row hrow hop hdir hblocks
  by_cases hid : row.requestId = request.requestId
  · refine ⟨hid, ?_⟩
    obtain ⟨own, hown, hownId, -, -, hstate⟩ := h.row
    -- request ids are distinct, so the row is the one the intent inserted
    have hnodup : (db.executorRequests.map (·.requestId)).Nodup := by
      have := hrows.requestIds
      rwa [Database.intendedRequests, List.map_map] at this
    rw [List.inj_on_of_nodup_map hnodup hrow hown (hid.trans hownId.symm)]
    exact hstate
  · rcases (h.others row hrow hop hdir hid).2 with hs | hs
    · exact absurd hs hblocks.1
    · exact absurd hs hblocks.2

/-- **At most one attempt is outstanding.** Over every run of calls, crashes and restarts, at most
    one forward request of an operation becomes durable, a rollback request only after those that
    are proven not applied, and nothing else is ever dispatched. -/
theorem one_attempt_outstanding (env : Env χ) {m : Machine χ} (h : m.Initial)
    (steps : List (MachineStep χ)) : OneAttempt (m.after env steps).world := by
  have hinv := traceInvariant_after env h steps
  refine ⟨?_, fun request before hmem hdir row hrow hop hrowDir hblocks => ?_,
    fun request binding db external hmem => ?_⟩
  · rw [hinv.recorded]
    have hforward := hinv.requests.forwardOnce
    rw [Database.intendedRequests, List.pairwise_map] at hforward
    exact List.pairwise_map.2 (hforward.imp fun hab => hab)
  · have hprior : row ∈ before.priorRequests request.operationId request.direction := by
      rw [Database.priorRequests, List.mem_filter]
      exact ⟨hrow, by simpa using ⟨hop, hrowDir.trans hdir.symm⟩⟩
    rcases (hinv.admitted request before hmem).2 row hprior with hs | hs
    · exact hblocks.1 hs
    · exact hblocks.2 hs
  · obtain ⟨hready, hrows⟩ := hinv.ready request binding db external hmem
    exact hready.unblocked hrows

/-- The sample run makes one attempt. -/
theorem one_attempt_outstanding_sample :
    (sampleMachine.after sampleEnv sampleSteps).world.attempts = [(sampleDigest, 1, .forward)] ∧
      OneAttempt (sampleMachine.after sampleEnv sampleSteps).world :=
  ⟨by decide +kernel, one_attempt_outstanding sampleEnv sampleMachine_initial sampleSteps⟩

end Zemo
