import Zemo.Coordinator.Intents

set_option autoImplicit false

/-! # The external journal follows the database

An event is committed to the database first and appended to the external journal after that, and
either step may fail. What every run keeps is that the external journal is a prefix of the journal
in the database and misses at most its last event, also after a crash: all events but the last were
flushed before the last one was written.

A journal that misses an event is never repaired. Every call that writes events or dispatches
requests brings the journals together first, and refuses to work when it finds them apart. -/

namespace Zemo

variable {χ : Type} {env : Env χ}

/-! ## The invariant -/

/-- The external journal misses at most the last event, and a crash loses at most that one. -/
structure Lagging (w : World χ) : Prop where
  known : w.external.events <+: w.db.journal
  lag : w.db.journal.length ≤ w.external.flushed + 1
  flushed : w.external.flushed ≤ w.external.events.length

theorem Lagging.of_synced {w : World χ} (h : Synced w) : Lagging w where
  known := by rw [h.appended]
  lag := by
    have := h.flushed
    have := congrArg List.length h.appended
    omega
  flushed := h.flushed.le

/-- Only the journals matter. -/
theorem Lagging.congr {w w' : World χ} (h : Lagging w) (hjournal : w'.db.journal = w.db.journal)
    (hexternal : w'.external = w.external) : Lagging w' where
  known := by rw [hjournal, hexternal]; exact h.known
  lag := by rw [hjournal, hexternal]; exact h.lag
  flushed := by rw [hexternal]; exact h.flushed

theorem Lagging.inert : Inert (Lagging (χ := χ)) where
  stable w turn _ h := h.congr (w.meet_journal turn) rfl
  diagnostics _ _ h := ⟨h.known, h.lag, h.flushed⟩
  executor _ _ h := ⟨h.known, h.lag, h.flushed⟩
  advanced w external hx h := by
    have hgrows := hx.grows.length_le
    have hlag := h.lag
    have hflushed := h.flushed
    refine ⟨hx.known, ?_, ?_⟩
    · show w.db.journal.length ≤ external.flushed + 1
      rcases hx.flushed with hf | hf <;> omega
    · show external.flushed ≤ external.events.length
      rcases hx.flushed with hf | hf <;> omega
  lost w kept h := by
    have hlag := h.lag
    have hflushed := h.flushed
    refine ⟨(List.take_prefix _ _).trans h.known, ?_, le_refl _⟩
    -- the events that were flushed are all kept
    show w.db.journal.length ≤ (w.external.events.take (max w.external.flushed kept)).length + 1
    rw [List.length_take]
    omega

/-- An event that is committed when the journals are equal is the one the external journal
    misses. -/
theorem Lagging.of_committed {w : World χ} {ew : EventWrite} {db : Database} (h : Synced w)
    (hw : EventCommitted env.store ew w.db db) {trace : List TraceEntry} :
    Lagging { w with db := db, trace := trace } where
  known := by
    show w.external.events <+: db.journal
    rw [hw.effect.journal, h.appended]
    exact List.prefix_append _ _
  lag := by
    show db.journal.length ≤ w.external.flushed + 1
    rw [hw.effect.journal, h.flushed, h.appended, List.length_append]
    exact le_refl _
  flushed := h.flushed.le

theorem Lagging.kept (env : Env χ) :
    Kept env true fun w => JournalInvariant env.store.codec w.db ∧ Lagging w where
  toInert := (Inert.ofPreserved (JournalInvariant.preserved env.store)).and Lagging.inert
  rows _ h := h.1
  dispatched _ _ _ h _ := ⟨h.1, h.2.known, h.2.lag, h.2.flushed⟩
  write call w hcall h := by
    refine ⟨JournalInvariant.preserved env.store call _ h.1, ?_⟩
    by_cases hevent : ∃ ew, call = .event ew
    · obtain ⟨ew, rfl⟩ := hevent
      rcases @DbCall.event_step_cases env.store ew w.db with heq | hw
      · exact h.2.congr (congrArg Database.journal heq) rfl
      · exact .of_committed (hcall ew rfl).2 hw
    · exact h.2.congr (DbCall.step_frame (fun ew heq => hevent ⟨ew, heq⟩) w.db).journal rfl

/-- Nothing was written outside the database yet. -/
def Machine.Unwritten (m : Machine χ) : Prop := m.world.external = { events := [], flushed := 0 }

theorem Lagging.initial {m : Machine χ} (h : m.Initial) (hx : m.Unwritten) :
    JournalInvariant env.store.codec m.world.db ∧ Lagging m.world := by
  refine ⟨h.prepared.rows.journalInvariant _, .of_synced ⟨?_, ?_⟩⟩
  · rw [hx, h.prepared.rows.journal]
  · rw [hx]
    rfl

theorem lagging_after (env : Env χ) {m : Machine χ} (h : m.Initial) (hx : m.Unwritten)
    (steps : List (MachineStep χ)) :
    JournalInvariant env.store.codec (m.after env steps).world.db ∧
      Lagging (m.after env steps).world :=
  (Lagging.kept env).after (Lagging.initial h hx) steps

/-! ## What a persisted event leaves -/

/-- The cursor after all events of the database. -/
def Database.cursorAtEnd (db : Database) : JournalCursor where
  sequence := db.journal.length
  previous := db.journal.getLast?.map (·.eventDigest)

theorem chainHead_eq_getLast? (events : List OperationJournalEvent) :
    chainHead events = events.getLast?.map (·.eventDigest) := by
  induction events using List.reverseRecOn with
  | nil => rfl
  | append_singleton events event => simp

/-- The last event of the rows is the one with this binding. -/
def EndsAt (sequence : Nat) (binding : CommittedJournalEventBinding) (db : Database) : Prop :=
  db.journal.length = sequence + 1 ∧ chainHead db.journal = some binding.databaseEventDigest

theorem commitEvent_ends {message : String} {draft : EventDraft} {cursor : JournalCursor} :
    Prog.Triple (fun w => JournalInvariant env.store.codec w.db)
      (commitEvent env message draft cursor)
      (fun r w => Synced w ∧ r.2 = w.db.cursorAtEnd)
      (fun w => JournalInvariant env.store.codec w.db) := by
  refine (commitEvent_rows (S := fun _ => True) (R := EndsAt cursor.sequence)
    (.ofRows (I := fun _ => True) fun _ _ _ h => h) (fun _ => .ofRows fun _ _ _ h => h) ?_).weaken
    (fun _ hw => ⟨hw, trivial⟩) (fun r w hw => ?_) fun _ hw => hw
  · intro now createdAt db db' hrows _ hw
    -- the event takes the place the cursor names, which is the end of the journal
    have hsequence : cursor.sequence = db.journal.length := hrows.event_sequence hw.accepted
    refine ⟨?_, ?_⟩
    · rw [hw.effect.journal, List.length_append, hsequence]
      rfl
    · rw [hw.effect.journal, chainHead_concat]
      rfl
  · obtain ⟨⟨-, hends, hcursor⟩, hsynced⟩ := hw
    refine ⟨hsynced, ?_⟩
    rw [hcursor, Database.cursorAtEnd, hends.1, ← chainHead_eq_getLast?, hends.2]

theorem persistEvent_ends {draft : EventDraft} {cursor : JournalCursor} :
    Prog.Triple (fun w => JournalInvariant env.store.codec w.db) (persistEvent env draft cursor)
      (fun cursor w => Synced w ∧ cursor = w.db.cursorAtEnd)
      (fun w => JournalInvariant env.store.codec w.db) :=
  .bind (requireValidDatabaseJournal_keeps
      (Inert.ofPreserved (JournalInvariant.preserved env.store)).toStill).triple fun _ =>
    .bind commitEvent_ends fun _ => .pure fun _ hw => hw

theorem persistRequestIntent_ends {kind : JournalEventKind} {payload : Payload}
    {request : ExecutorRequestIdentity} {session : ExecutorSessionIdentity}
    {cursor : JournalCursor} :
    Prog.Triple (fun w => JournalInvariant env.store.codec w.db)
      (persistRequestIntent env kind payload request session cursor)
      (fun r w => Synced w ∧ r.2 = w.db.cursorAtEnd)
      (fun w => JournalInvariant env.store.codec w.db) :=
  .bind (requireValidDatabaseJournal_keeps
      (Inert.ofPreserved (JournalInvariant.preserved env.store)).toStill).triple fun _ =>
    .bind (.ensure (fun _ hw _ => hw) fun _ hw _ => hw) fun _ => commitEvent_ends

/-! ## Journals that are apart -/

/-- The requests that were dispatched, in order. -/
def World.dispatches (w : World χ) : List ExecutorRequestIdentity :=
  w.trace.filterMap (·.dispatches)

/-- Nothing was written to either journal since they held these events, and nothing was
    dispatched. -/
structure Apart (stored written : List OperationJournalEvent)
    (requests : List ExecutorRequestIdentity) (w : World χ) : Prop where
  journal : w.db.journal = stored
  external : w.external.events = written
  dispatches : w.dispatches = requests

section Apart

variable {stored written : List OperationJournalEvent}
  {requests : List ExecutorRequestIdentity}

theorem Apart.still : Still (Apart (χ := χ) stored written requests) where
  stable w turn _ h := ⟨(w.meet_journal turn).trans h.journal, h.external, h.dispatches⟩
  diagnostics _ _ h := ⟨h.journal, h.external, h.dispatches⟩
  executor _ _ h := ⟨h.journal, h.external, h.dispatches⟩

theorem Apart.quiet : Quiet env (Apart (χ := χ) stored written requests) where
  toStill := Apart.still
  quiet call w hcall h := by
    refine ⟨(DbCall.step_frame hcall w.db).journal.trans h.journal, h.external, ?_⟩
    have hnoted : call.noted (call.run env.store w.db).1 w.db = [] := by
      cases call with
      | event ew => exact absurd rfl (hcall ew)
      | _ => rfl
    show (w.trace ++ _).filterMap _ = requests
    rw [hnoted, List.append_nil]
    exact h.dispatches

/-- Events that were read and differ are refused, unless one may be appended. -/
theorem synchronizeFrom_refuses {P : World χ → Prop} (h : Still P) (hne : written ≠ stored) :
    Prog.Triple P (synchronizeFrom false stored (.ok written)) (fun _ _ => False) P := by
  simp only [synchronizeFrom]
  by_cases hcons : inconsistent written stored
  · rw [if_pos hcons]
    exact lockJournal_triple h
  · rw [if_neg hcons]
    have hall := append_drop_of_consistent hcons
    have hmissing : 0 < stored.length - written.length := by
      by_contra hnone
      have hdrop : stored.drop written.length = [] := List.drop_eq_nil_of_le (by omega)
      rw [hdrop, List.append_nil] at hall
      exact hne hall
    rw [if_pos ⟨hmissing, .inl trivial⟩]
    exact lockJournal_triple h

/-- A synchronization that may not append never returns when the journals are apart. -/
theorem Apart.synchronize (hne : written ≠ stored) :
    Prog.Triple (Apart (χ := χ) stored written requests) (synchronizeExternalJournal false)
      (fun _ _ => False) (Apart stored written requests) := by
  refine .bind (readJournal_triple Apart.still) fun databaseEvents => ?_
  have hevents : Prog.Triple (Apart (χ := χ) stored written requests) externalEvents
      (fun events w => Apart stored written requests w ∧ events = written)
      (Apart stored written requests) :=
    effect_triple Apart.still.stable
      (fun w events hw heq => ⟨hw, (Except.ok.inj heq).symm.trans hw.external⟩) (fun _ hw => hw)
      fun _ hw => hw
  intro w hw
  obtain rfl : databaseEvents = stored := hw.2.symm.trans hw.1.journal
  refine Prog.Triple.bind hevents.attempt (fun read => ?_) w hw.1
  cases read with
  | ok events =>
      exact triple_of_pure fun heq => by
        rw [heq]
        exact synchronizeFrom_refuses Apart.still hne
  | error e => exact lockJournal_triple Apart.still

theorem Apart.synchronize_keeps (hne : written ≠ stored) :
    Prog.Keeps (Apart (χ := χ) stored written requests) (synchronizeExternalJournal false) :=
  ((Apart.synchronize hne).weaken (T := fun _ => Apart stored written requests)
    (fun _ hw => hw) (fun _ _ hw => hw.elim) fun _ hw => hw).keeps

/-- A program that first brings the journals together does nothing when they are apart. -/
theorem Apart.refused {α : Type} (hne : written ≠ stored) {f : Unit → Coordinator χ α} :
    Prog.Keeps (Apart stored written requests) (synchronizeExternalJournal false >>= f) :=
  Prog.Triple.keeps (.bind (Apart.synchronize hne) fun _ _ hw => hw.elim)

theorem Apart.recoverExecution (hne : written ≠ stored) :
    Prog.Keeps (Apart stored written requests) (recoverExecution env) :=
  .bind requireMutationsUnlocked_keeps fun _ =>
  .bind (readDetail_keeps Apart.still) fun _ =>
  .bind .ensure fun _ =>
  .bind (requireValidDatabaseJournal_keeps Apart.still) fun _ => Apart.refused hne

theorem Apart.cancelIn (hne : written ≠ stored) {detail : ExecutionDetail} :
    Prog.Keeps (Apart stored written requests) (cancelIn env detail) := by
  unfold Zemo.cancelIn
  split
  · exact write_keeps Apart.quiet fun _ => by simp
  · exact .bind (invalidateCancelled_keeps Apart.quiet) fun _ =>
      .bind .reads fun _ => write_keeps Apart.quiet fun _ => by simp
  · exact Apart.refused hne
  · exact Apart.refused hne
  · exact .pure

/-- No call writes an event or dispatches a request while the journals are apart. -/
theorem Apart.exec (hne : written ≠ stored) (call : Call) :
    Prog.Keeps (Apart stored written requests) (call.exec env) := by
  cases call with
  | createChallenge =>
      exact unanswered_keeps (.bind requireApplyGate_keeps fun _ =>
        .bind (readDetail_keeps Apart.still) fun _ =>
        .bind (requireValidDatabaseJournal_keeps Apart.still) fun _ => Apart.refused hne)
  | finalize =>
      exact unanswered_keeps (.bind requireApplyGate_keeps fun _ =>
        .bind (requireValidDatabaseJournal_keeps Apart.still) fun _ => Apart.refused hne)
  | discard => exact unanswered_keeps (discardExecutionConsentChallenge_keeps Apart.quiet)
  | start =>
      exact unanswered_keeps (.bind requireApplyGate_keeps fun _ =>
        .bind (readDetail_keeps Apart.still) fun _ => .bind .ensure fun _ =>
        .bind (requireValidDatabaseJournal_keeps Apart.still) fun _ => Apart.refused hne)
  | pause => exact unanswered_keeps (pauseExecution_keeps Apart.quiet)
  | cancel =>
      exact unanswered_keeps (.bind requireMutationsUnlocked_keeps fun _ =>
        .bind (readDetail_keeps Apart.still) fun _ => Apart.cancelIn hne)
  | rollback =>
      exact unanswered_keeps (.bind requireApplyGate_keeps fun _ =>
        .bind (readDetail_keeps Apart.still) fun _ => .bind .ensure fun _ =>
        .bind (requireValidDatabaseJournal_keeps Apart.still) fun _ => Apart.refused hne)
  | recover => exact unanswered_keeps (Apart.recoverExecution hne)

theorem Apart.newService (hne : written ≠ stored) {diagnostics : List JournalDiagnostic} :
    Prog.Keeps (Apart stored written requests) (newService env diagnostics) :=
  .bind (construct_keeps Apart.still (Apart.synchronize_keeps hne)) fun _ =>
    reconcileInterruptedExecutions_keeps Apart.quiet (Apart.recoverExecution hne)

end Apart

/-- The external journal misses an event, and nothing was written or dispatched since. -/
structure Stuck (events : List OperationJournalEvent)
    (requests : List ExecutorRequestIdentity) (w : World χ) : Prop where
  journal : w.db.journal = events
  known : w.external.events <+: events
  apart : w.external.events ≠ events
  dispatches : w.dispatches = requests

theorem Stuck.step {events : List OperationJournalEvent}
    {requests : List ExecutorRequestIdentity} (step : MachineStep χ) {m : Machine χ}
    (h : Stuck events requests m.world) : Stuck events requests (m.step env step).world := by
  have hkeeps : ∀ {written : List OperationJournalEvent} {w : World χ},
      written <+: events → written ≠ events → Apart events written requests w →
      Stuck events requests w := fun hknown hne hw =>
    ⟨hw.journal, hw.external.symm ▸ hknown, hw.external.symm ▸ hne, hw.dispatches⟩
  cases step with
  | call call turns =>
      simp only [Machine.step]
      split
      · exact hkeeps h.known h.apart
          (Apart.still.perform (Apart.exec h.apart call) ⟨h.journal, rfl, h.dispatches⟩)
      · exact h
  | restart kept diagnostics executor turns =>
      -- a crash cannot make the external journal longer
      have hknown : (m.world.external.afterCrash kept).events <+: events :=
        (List.take_prefix _ _).trans h.known
      have hne : (m.world.external.afterCrash kept).events ≠ events := by
        intro heq
        have hlen : (m.world.external.afterCrash kept).events.length ≤
            m.world.external.events.length := (List.take_prefix _ _).length_le
        rw [heq] at hlen
        exact h.apart (h.known.eq_of_length (le_antisymm h.known.length_le hlen))
      exact hkeeps hknown hne
        (Apart.still.perform (Apart.newService hne) ⟨h.journal, rfl, h.dispatches⟩)

/-! ## The external journal is a prefix -/

/-- What every run of the service keeps of the external journal. -/
structure ExternalPrefix (env : Env χ) (m : Machine χ) : Prop where
  /-- It is a prefix of the journal in the database and misses at most one event. -/
  lags : ∀ steps,
    (m.after env steps).world.external.events <+: (m.after env steps).world.db.journal ∧
      (m.after env steps).world.db.journal.length ≤
        (m.after env steps).world.external.events.length + 1
  /-- An event that is persisted is in both journals, and the cursor is behind it. -/
  persisted : ∀ steps (w w' : World χ) draft cursor cursor',
    w.db = (m.after env steps).world.db → persistEvent env draft cursor w = (.ok cursor', w') →
      w'.external.events = w'.db.journal ∧ cursor' = w'.db.cursorAtEnd
  /-- So is an intent. -/
  intended : ∀ steps (w w' : World χ) kind payload request session cursor r,
    w.db = (m.after env steps).world.db →
      persistRequestIntent env kind payload request session cursor w = (.ok r, w') →
      w'.external.events = w'.db.journal ∧ r.2 = w'.db.cursorAtEnd
  /-- Once the journals are apart between two steps, no event is persisted and no request is
      dispatched any more. -/
  stuck : ∀ steps later,
    (m.after env steps).world.external.events ≠ (m.after env steps).world.db.journal →
      (m.after env (steps ++ later)).world.db.journal = (m.after env steps).world.db.journal ∧
      (m.after env (steps ++ later)).world.dispatches = (m.after env steps).world.dispatches

/-- **The external journal is always a prefix.** The turns of a run may let any step fail or crash,
    so a run can stop at every moment of a call, and the bound holds there too. -/
theorem external_journal_prefix (env : Env χ) {m : Machine χ} (h : m.Initial)
    (hx : m.Unwritten) : ExternalPrefix env m where
  lags steps := by
    obtain ⟨-, hlag⟩ := lagging_after env h hx steps
    exact ⟨hlag.known, hlag.lag.trans (Nat.succ_le_succ hlag.flushed)⟩
  persisted steps w w' draft cursor cursor' hdb hrun := by
    have hrows : JournalInvariant env.store.codec w.db := hdb ▸ (lagging_after env h hx steps).1
    have hends := @persistEvent_ends _ env draft cursor w hrows
    rw [hrun] at hends
    exact ⟨hends.1.appended, hends.2⟩
  intended steps w w' kind payload request session cursor r hdb hrun := by
    have hrows : JournalInvariant env.store.codec w.db := hdb ▸ (lagging_after env h hx steps).1
    have hends := @persistRequestIntent_ends _ env kind payload request session cursor w hrows
    rw [hrun] at hends
    exact ⟨hends.1.appended, hends.2⟩
  stuck steps later hapart := by
    obtain ⟨-, hlag⟩ := lagging_after env h hx steps
    have hstuck : Stuck _ _ (Run.after (Machine.step env) (m.after env steps) later).world :=
      Run.invariant (I := fun m' : Machine χ => Stuck (m.after env steps).world.db.journal
        (m.after env steps).world.dispatches m'.world) (fun step _ hm => hm.step step) later
        ⟨rfl, hlag.known, hapart, rfl⟩
    rw [Machine.after, Run.after_append]
    exact ⟨hstuck.journal, hstuck.dispatches⟩

/-- The approval is committed to the database, and its append to the external journal fails. -/
def lostAppend : List (MachineStep (Option ExecutionDetail)) :=
  [.call (.createChallenge none (Bytes32.filled 4) 1) [],
    .call (.finalize createdChallenge 2)
      (List.replicate 13 { fault := none } ++ [{ fault := some .fail }])]

/-- In the sample run the external journal misses the one event there is. -/
theorem external_journal_prefix_sample :
    ((sampleMachine.after sampleEnv lostAppend).world.external.events.length = 0 ∧
      (sampleMachine.after sampleEnv lostAppend).world.db.journal.length = 1) ∧
      ExternalPrefix sampleEnv sampleMachine :=
  ⟨by decide +kernel, external_journal_prefix sampleEnv sampleMachine_initial rfl⟩

end Zemo
