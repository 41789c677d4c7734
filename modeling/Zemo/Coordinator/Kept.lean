import Zemo.Coordinator.Journal

set_option autoImplicit false

/-! # What the coordinator keeps

`Kept env forward P` says that a property `P` of the world survives every step the coordinator can
take. An event it writes is `Permitted`, and only a start, which has `forward`, writes forward
intents; the external journal is `Synced` when it does. A request is dispatched only when it is
`Ready`: its intent is in both journals and no other attempt of the same operation is open. From
this alone it follows, program by program, that `P` survives every run, whatever fails or crashes.

A program that writes events runs `Within` the synced worlds: it starts in one and returns in one,
and an event that did not reach the external journal ends it. -/

namespace Zemo

variable {χ α : Type}

/-! ## What an event may be -/

/-- The fingerprint recovery compares with in a direction. -/
def ExecutionOperation.expectedIn (op : ExecutionOperation) :
    ExecutorRequestDirection → Option FileFingerprint
  | .forward => op.liveFingerprint
  | .rollback => op.postFingerprint

/-- The operation has the paths and the fingerprint recovery looks at in the direction. -/
structure ExecutionOperation.Observable (op : ExecutionOperation)
    (direction : ExecutorRequestDirection) : Prop where
  source : op.kind ≠ .createDirectory →
    ∃ source, op.sourceRelativePath = some source ∧ validRelative source = true
  destination : op.kind ≠ .removeDirectoryIfEmpty → validRelative op.destinationRelativePath = true
  expected : op.kind.isDirectory = false → op.expectedIn direction ≠ none

theorem ExecutionOperation.Observable.of_continues {op later : ExecutionOperation}
    {direction : ExecutorRequestDirection} (h : op.Observable direction) (hc : op.Continues later) :
    later.Observable direction := by
  refine ⟨fun hk => ?_, fun hk => ?_, fun hk => ?_⟩
  · rw [hc.source]
    exact h.source (hc.kind ▸ hk)
  · rw [hc.destination]
    exact h.destination (hc.kind ▸ hk)
  · have hexpected := h.expected (hc.kind ▸ hk)
    cases direction with
    | forward =>
        show later.liveFingerprint ≠ none
        rw [hc.live]
        exact hexpected
    | rollback => exact hc.post hexpected

/-- The event names no request, no approval and no forward intent, and it takes the session out of
    the statuses an execution waits in. -/
structure EventWrite.Plain (w : EventWrite) : Prop where
  noRequest : w.requestIntent = none
  noApproval : w.event.kind ≠ .approvedDurable
  noIntent : w.event.kind ≠ .intentDurable
  started : ∃ s, w.sessionStatus = some s ∧ s ≠ .awaitingConfirmation ∧ s ≠ .approved

/-- The events the coordinator writes. -/
inductive Permitted (forward : Bool) (db : Database) (w : EventWrite) : Prop where
  | plain (h : w.Plain)
  | approval (kind : w.event.kind = .approvedDurable) (first : w.event.sequence = 0)
      (noRequest : w.requestIntent = none) (noStep : w.event.stepId = none)
  | intent (request : ExecutorRequestIdentity) (names : w.requestIntent = some request)
      (kind : w.event.kind = request.direction.intentKind)
      (started : w.sessionStatus = some (intentStatuses w.event.kind).2)
      (allowed : request.direction = .forward → forward = true)
      (observable : ∃ op ∈ db.operations,
        op.id = request.operationId ∧ op.Observable request.direction)

/-! ## Readiness -/

/-- The intent of the request is committed, and the request is the only open attempt. -/
structure IntentStored (codec : Codec) (request : ExecutorRequestIdentity)
    (binding : CommittedJournalEventBinding) (db : Database) : Prop where
  chained : chainValid codec db.journal = true
  event : ∃ event ∈ db.journal, event.binding = binding ∧
    event.kind = request.direction.intentKind ∧ event.stepId = some request.operationId ∧
    event.payload.executorRequest = some request.material
  row : ∃ row ∈ db.executorRequests, row.requestId = request.requestId ∧
    row.operationId = request.operationId ∧ row.direction = request.direction ∧
    row.state = .intentDurable
  others : ∀ row ∈ db.executorRequests, row.operationId = request.operationId →
    row.direction = request.direction → row.requestId ≠ request.requestId →
    request.direction = .rollback ∧ (row.state = .provenNotApplied ∨ row.state = .provenNotStarted)

/-- A request may be dispatched. -/
structure Ready (codec : Codec) (request : ExecutorRequestIdentity)
    (binding : CommittedJournalEventBinding) (db : Database) (external : ExternalJournal) : Prop
    extends IntentStored codec request binding db where
  appended : external.events = db.journal
  flushed : external.flushed = external.events.length

/-! ## Steps that keep a property -/

/-- The external journal has all events of the database, and a crash loses none of them. -/
structure Synced (w : World χ) : Prop where
  appended : w.external.events = w.db.journal
  flushed : w.external.flushed = w.external.events.length

/-- The external journal takes over events of the database, or is flushed. -/
structure ExternalJournal.Advances (journal : List OperationJournalEvent)
    (external later : ExternalJournal) : Prop where
  grows : external.events <+: later.events
  known : later.events <+: journal
  flushed : later.flushed = external.flushed ∨ later.flushed = later.events.length

/-- The property survives what others do, what the executor does without a dispatch, and every
    change of the diagnostics. -/
structure Still (P : World χ → Prop) : Prop where
  stable : Stable P
  diagnostics : ∀ w diagnostics, P w → P { w with diagnostics := diagnostics }
  executor : ∀ w x, P w → P { w with executor := x }

/-- The property also survives every call of the database that is not an event. -/
structure Quiet (env : Env χ) (P : World χ → Prop) : Prop extends Still P where
  quiet : ∀ call w, (∀ ew, call ≠ .event ew) → P w → P (w.written env call)

/-- The property also survives every change of the external journal. -/
structure Inert (P : World χ → Prop) : Prop extends Still P where
  advanced : ∀ w external, w.external.Advances w.db.journal external → P w →
    P { w with external := external }
  lost : ∀ w kept, P w → P { w with external := w.external.afterCrash kept }

/-- The property survives every step of the coordinator. -/
structure Kept (env : Env χ) (forward : Bool) (P : World χ → Prop) : Prop extends Inert P where
  write : ∀ call w, (∀ ew, call = .event ew → Permitted forward w.db ew ∧ Synced w) → P w →
    P (w.written env call)
  dispatched : ∀ request binding w, P w → Ready env.store.codec request binding w.db w.external →
    P (w.dispatched env request binding)
  rows : ∀ w, P w → JournalInvariant env.store.codec w.db

variable {env : Env χ} {forward : Bool} {P : World χ → Prop}

theorem Still.and {Q : World χ → Prop} (hP : Still P) (hQ : Still Q) :
    Still fun w => P w ∧ Q w where
  stable w turn rest h := ⟨hP.stable w turn rest h.1, hQ.stable w turn rest h.2⟩
  diagnostics w d h := ⟨hP.diagnostics w d h.1, hQ.diagnostics w d h.2⟩
  executor w x h := ⟨hP.executor w x h.1, hQ.executor w x h.2⟩

theorem Inert.and {Q : World χ → Prop} (hP : Inert P) (hQ : Inert Q) :
    Inert fun w => P w ∧ Q w where
  toStill := hP.toStill.and hQ.toStill
  advanced w x hx h := ⟨hP.advanced w x hx h.1, hQ.advanced w x hx h.2⟩
  lost w kept h := ⟨hP.lost w kept h.1, hQ.lost w kept h.2⟩

theorem Quiet.and {Q : World χ → Prop} (hP : Quiet env P) (hQ : Quiet env Q) :
    Quiet env fun w => P w ∧ Q w where
  toStill := hP.toStill.and hQ.toStill
  quiet call w hcall h := ⟨hP.quiet call w hcall h.1, hQ.quiet call w hcall h.2⟩

/-- Others only touch the control flags of the rows. -/
theorem World.meet_db (w : World χ) (turn : Turn) :
    (w.meet turn).db = w.db ∨
      ∃ pause cancel, (w.meet turn).db = { w.db with
        session := { w.db.session with pauseRequested := pause, cancelRequested := cancel } } := by
  unfold World.meet
  simp only
  split
  · unfold Database.setExecutionControl Database.transact
    by_cases h : w.db.session.status = .running
    · exact .inr ⟨turn.pause || w.db.session.pauseRequested,
        turn.cancel || w.db.session.cancelRequested, by simp only [h, if_true]⟩
    · exact .inl (by simp only [h, if_false])
  · exact .inl rfl

/-- A property of the rows that does not look at the control flags is inert. -/
theorem Inert.ofRows {I : Database → Prop}
    (h : ∀ db pause cancel, I db → I { db with
      session := { db.session with pauseRequested := pause, cancelRequested := cancel } }) :
    Inert fun w : World χ => I w.db where
  stable w turn rest hw := by
    show I (w.meet turn).db
    rcases w.meet_db turn with heq | ⟨pause, cancel, heq⟩
    · rwa [heq]
    · rw [heq]
      exact h _ _ _ hw
  diagnostics _ _ hw := hw
  advanced _ _ _ hw := hw
  lost _ _ hw := hw
  executor _ _ hw := hw

/-- A property of the rows that every call preserves does not look at the control flags, and is
    kept whatever the coordinator does. -/
theorem Inert.ofPreserved {I : Database → Prop} {ctx : StoreContext} (h : Preserved ctx I) :
    Inert fun w : World χ => I w.db where
  stable w turn rest hw := by
    show I (w.meet turn).db
    unfold World.meet
    simp only
    split
    · exact h (.control turn.pause turn.cancel) w.db hw
    · exact hw
  diagnostics _ _ hw := hw
  advanced _ _ _ hw := hw
  lost _ _ hw := hw
  executor _ _ hw := hw

theorem Kept.ofPreserved {I : Database → Prop} (h : Preserved env.store I) :
    Kept env forward fun w => JournalInvariant env.store.codec w.db ∧ I w.db where
  toInert := (Inert.ofPreserved (JournalInvariant.preserved env.store)).and (Inert.ofPreserved h)
  write call _ _ hw := ⟨JournalInvariant.preserved env.store call _ hw.1, h call _ hw.2⟩
  dispatched _ _ _ hw _ := hw
  rows _ hw := hw.1

/-- A kept property together with a property of the rows every call preserves. -/
theorem Kept.and_preserved {I : Database → Prop} (hP : Kept env forward P) (h : Preserved env.store I) :
    Kept env forward fun w => P w ∧ I w.db where
  toInert := hP.toInert.and (Inert.ofPreserved h)
  write call w hE hw := ⟨hP.write call w hE hw.1, h call _ hw.2⟩
  dispatched request binding w hw hr := ⟨hP.dispatched request binding w hw.1 hr, hw.2⟩
  rows w hw := hP.rows w hw.1

/-- What survives a start survives the other programs. -/
theorem Kept.backward (h : Kept env forward P) : Kept env false P where
  toInert := h.toInert
  write call w hcall hw := by
    refine h.write call w (fun ew heq => ?_) hw
    obtain ⟨hpermitted, hsynced⟩ := hcall ew heq
    refine ⟨?_, hsynced⟩
    cases hpermitted with
    | plain hp => exact .plain hp
    | approval kind first noRequest noStep => exact .approval kind first noRequest noStep
    | intent request names kind started allowed observable =>
        exact .intent request names kind started (fun hd => absurd (allowed hd) (by decide))
          observable
  dispatched := h.dispatched
  rows := h.rows

/-! ## Synced worlds -/

theorem World.meet_journal (w : World χ) (turn : Turn) :
    (w.meet turn).db.journal = w.db.journal := by
  rcases w.meet_db turn with heq | ⟨pause, cancel, heq⟩ <;> rw [heq]

theorem Synced.inert : Inert (Synced (χ := χ)) where
  stable w turn _ h := ⟨h.appended.trans (w.meet_journal turn).symm, h.flushed⟩
  diagnostics _ _ h := ⟨h.appended, h.flushed⟩
  advanced w external hx h := by
    -- an external journal that already has everything cannot take over more
    have hgrows := hx.grows
    rw [h.appended] at hgrows
    have hequal : external.events = w.db.journal :=
      hx.known.eq_of_length (le_antisymm hx.known.length_le hgrows.length_le)
    refine ⟨hequal, ?_⟩
    rcases hx.flushed with hf | hf
    · show external.flushed = external.events.length
      rw [hf, h.flushed, h.appended, hequal]
    · exact hf
  lost w kept h := by
    have htake : w.external.events.take (max w.external.flushed kept) = w.external.events := by
      rw [List.take_of_length_le]
      have := h.flushed
      omega
    exact ⟨htake.trans h.appended, rfl⟩
  executor _ _ h := ⟨h.appended, h.flushed⟩

theorem Synced.quiet : Quiet env (Synced (χ := χ)) where
  toStill := Synced.inert.toStill
  quiet call w hcall h := by
    have hframe : (w.written env call).db.journal = w.db.journal :=
      (DbCall.step_frame hcall w.db).journal
    exact ⟨h.appended.trans hframe.symm, h.flushed⟩

theorem Kept.quiet (h : Kept env forward P) : Quiet env P where
  toStill := h.toStill
  quiet call w hcall := h.write call w fun ew heq => absurd heq (hcall ew)

theorem Kept.synced (h : Kept env forward P) : Quiet env fun w => P w ∧ Synced w :=
  h.quiet.and Synced.quiet

theorem Inert.synced (h : Inert P) : Inert fun w => P w ∧ Synced w := h.and Synced.inert

/-! ## The primitives -/

theorem write_keeps {call : DbCall} (h : Quiet env P) (hcall : ∀ ew, call ≠ .event ew) :
    Prog.Keeps P (write env call) :=
  effect_keeps h.stable fun w hw => h.quiet call w hcall hw

theorem ask_keeps (h : Still P) {f : χ → Except ApprovedExecutorError α × χ} :
    Prog.Keeps P (ask f) :=
  effect_keeps h.stable fun w hw => h.executor w _ hw

theorem readDetail_keeps (h : Still P) : Prog.Keeps P readDetail := query_keeps h.stable

theorem readJournal_keeps (h : Still P) : Prog.Keeps P readJournal := query_keeps h.stable

/-- A journal that was read is still the stored one. -/
theorem readJournal_triple (h : Still P) :
    Prog.Triple P readJournal (fun events w => P w ∧ w.db.journal = events) P :=
  effect_triple h.stable (fun w events hw heq => ⟨hw, by simpa [raise, Except.mapError] using heq⟩)
    (fun _ hw => hw) fun _ hw => hw

theorem Ready.synced {codec : Codec} {request : ExecutorRequestIdentity}
    {binding : CommittedJournalEventBinding} {w : World χ}
    (h : Ready codec request binding w.db w.external) : Synced w :=
  ⟨h.appended, h.flushed⟩

/-- A ready request is dispatched, or is not; in either case the world is synced afterwards. -/
theorem dispatchPrepared_triple {request : ExecutorRequestIdentity}
    {binding : CommittedJournalEventBinding} (h : Kept env forward P)
    (hstable : Stable fun w => P w ∧ Ready env.store.codec request binding w.db w.external) :
    Prog.Triple (fun w => P w ∧ Ready env.store.codec request binding w.db w.external)
      (dispatchPrepared env request binding) (fun _ w => P w ∧ Synced w)
      (fun w => P w ∧ Synced w) := by
  have hstep : ∀ w, P w ∧ Ready env.store.codec request binding w.db w.external →
      P (w.dispatched env request binding) ∧ Synced (w.dispatched env request binding) :=
    fun w hw => ⟨h.dispatched request binding w hw.1 hw.2, hw.2.appended, hw.2.flushed⟩
  exact effect_triple hstable (fun w _ hw _ => hstep w hw) hstep fun _ hw => ⟨hw.1, hw.2.synced⟩

/-! ## Locks and gates -/

theorem recordJournalDiagnostic_keeps (h : Still P) {scope : JournalDiagnosticScope}
    {code message : String} : Prog.Keeps P (recordJournalDiagnostic scope code message) := by
  refine Prog.Keeps.modifies fun w hw => ?_
  split
  · exact hw
  · exact h.diagnostics w _ hw

theorem lockJournal_keeps (h : Still P) {scope : JournalDiagnosticScope} {code message : String} :
    Prog.Keeps P (lockJournal scope code message) :=
  .bind (recordJournalDiagnostic_keeps h) fun _ => .fail

/-- A lock never returns. -/
theorem lockJournal_triple (h : Still P) {scope : JournalDiagnosticScope} {code message : String}
    {Q : Unit → World χ → Prop} : Prog.Triple P (lockJournal scope code message) Q P :=
  .bind (recordJournalDiagnostic_keeps h).triple fun _ => .fail fun _ hw => hw

theorem requireMutationsUnlocked_keeps : Prog.Keeps P requireMutationsUnlocked :=
  .bind .reads fun _ => .ensure

theorem requireApplyGate_keeps : Prog.Keeps P (requireApplyGate env) :=
  .bind requireMutationsUnlocked_keeps fun _ => .ensure

theorem acceptJournal_keeps (h : Still P) {valid : Except ApplicationError Bool} :
    Prog.Keeps P (acceptJournal valid) := by
  unfold acceptJournal
  split
  · exact .pure
  · exact lockJournal_keeps h
  · exact lockJournal_keeps h

theorem requireValidDatabaseJournal_keeps (h : Still P) :
    Prog.Keeps P (requireValidDatabaseJournal env) :=
  .bind (.attempt (query_keeps h.stable)) fun _ => acceptJournal_keeps h

/-! ## The external journal -/

/-- The external journal holds these events. -/
def Appended (events : List OperationJournalEvent) (w : World χ) : Prop :=
  w.external.events = events

theorem orLock_triple (h : Still P) {code message : String} {r : Except ApplicationError Unit}
    {Q : World χ → Prop} :
    Prog.Triple (fun w => match r with | .ok _ => Q w | .error _ => P w) (orLock code message r)
      (fun _ => Q) P := by
  cases r with
  | ok u => exact .pure fun _ hw => hw
  | error e => exact lockJournal_triple h

theorem appendEvent_triple (h : Inert P) {events : List OperationJournalEvent}
    {event : OperationJournalEvent} (hknown : ∀ w, P w → events ++ [event] <+: w.db.journal) :
    Prog.Triple (fun w => P w ∧ Appended events w) (appendEvent event)
      (fun _ w => P w ∧ Appended (events ++ [event]) w) P := by
  have happend : Prog.Triple (fun w => P w ∧ Appended events w) (externalAppend event)
      (fun _ w => P w ∧ Appended (events ++ [event]) w) P := by
    have hstep : ∀ w, P w ∧ Appended events w → P { w with external :=
        { w.external with events := w.external.events ++ [event] } } := fun w hw => by
      refine h.advanced w _ ⟨List.prefix_append .., ?_, .inl rfl⟩ hw.1
      have hevents : w.external.events = events := hw.2
      simpa only [hevents] using hknown w hw.1
    refine effect_triple (fun w turn rest hw => ⟨h.stable w turn rest hw.1, hw.2⟩)
      (fun w _ hw _ => ⟨hstep w hw, ?_⟩) hstep fun _ hw => hw.1
    exact congrArg (· ++ [event]) hw.2
  refine .bind happend.attempt fun r => ?_
  exact (orLock_triple h.toStill (r := r)).weaken (fun w hw => by cases r <;> exact hw) (fun _ _ hw => hw)
    fun _ hw => hw

theorem forEach_appendEvent_triple (h : Inert P) {events : List OperationJournalEvent} :
    ∀ missing : List OperationJournalEvent, (∀ w, P w → events ++ missing <+: w.db.journal) →
      Prog.Triple (fun w => P w ∧ Appended events w) (Prog.forEach appendEvent missing)
        (fun _ w => P w ∧ Appended (events ++ missing) w) P := by
  intro missing
  induction missing generalizing events with
  | nil => exact fun _ => .pure fun _ hw => by rwa [List.append_nil]
  | cons event missing ih =>
      intro hknown
      have hrest := @ih (events ++ [event])
      rw [List.append_assoc] at hrest
      have hfirst : ∀ w, P w → events ++ [event] <+: w.db.journal := fun w hw =>
        List.IsPrefix.trans ⟨missing, by rw [List.append_assoc]; rfl⟩ (hknown w hw)
      exact .bind (appendEvent_triple h hfirst) fun _ => hrest hknown

/-- The external journal holds the events and a crash loses none of them. -/
def Durable (events : List OperationJournalEvent) (w : World χ) : Prop :=
  Appended events w ∧ w.external.flushed = w.external.events.length

theorem flushJournal_triple (h : Inert P) {events : List OperationJournalEvent}
    (hknown : ∀ w, P w → events <+: w.db.journal) :
    Prog.Triple (fun w => P w ∧ Appended events w) flushJournal
      (fun _ w => P w ∧ Durable events w) P := by
  have hflush : Prog.Triple (fun w => P w ∧ Appended events w) externalFlush
      (fun _ w => P w ∧ Durable events w) P := by
    have hstep : ∀ w, P w ∧ Appended events w → P { w with external :=
        { w.external with flushed := w.external.events.length } } := fun w hw => by
      refine h.advanced w _ ⟨List.prefix_rfl, ?_, .inr rfl⟩ hw.1
      have hevents : w.external.events = events := hw.2
      simpa only [hevents] using hknown w hw.1
    exact effect_triple (fun w turn rest hw => ⟨h.stable w turn rest hw.1, hw.2⟩)
      (fun w _ hw _ => ⟨hstep w hw, hw.2, rfl⟩) hstep fun _ hw => hw.1
  refine .bind hflush.attempt fun r => ?_
  exact (orLock_triple h.toStill (r := r)).weaken (fun w hw => by cases r <;> exact hw) (fun _ _ hw => hw)
    fun _ hw => hw

/-- Journals that are not inconsistent agree as far as the external one goes. -/
theorem append_drop_of_consistent {external databaseEvents : List OperationJournalEvent}
    (h : ¬inconsistent external databaseEvents) :
    external ++ databaseEvents.drop external.length = databaseEvents := by
  rw [inconsistent, not_or, not_not] at h
  obtain ⟨hlen, hzip⟩ := h
  rw [not_lt] at hlen
  have htake : external = databaseEvents.take external.length := by
    refine List.ext_getElem (by rw [List.length_take]; omega) fun i h1 h2 => ?_
    have h3 : i < databaseEvents.length := by omega
    have hmem : (external[i], databaseEvents[i]) ∈ external.zip databaseEvents := by
      rw [List.mem_iff_getElem]
      exact ⟨i, by rw [List.length_zip]; omega, List.getElem_zip⟩
    have := List.all_eq_true.1 hzip _ hmem
    rw [List.getElem_take]
    exact of_decide_eq_true this
  calc external ++ databaseEvents.drop external.length
      = databaseEvents.take external.length ++ databaseEvents.drop external.length := by rw [← htake]
    _ = databaseEvents := List.take_append_drop _ _

theorem synchronizeFrom_triple (h : Inert P) {allowSingleAppend : Bool}
    {databaseEvents : List OperationJournalEvent}
    {external : Except ApplicationError (List OperationJournalEvent)}
    (hstored : ∀ w, P w → w.db.journal = databaseEvents) :
    Prog.Triple
      (fun w => P w ∧ match external with | .ok events => Appended events w | .error _ => True)
      (synchronizeFrom allowSingleAppend databaseEvents external)
      (fun _ w => P w ∧ Durable databaseEvents w) P := by
  unfold synchronizeFrom
  cases external with
  | error e => exact (lockJournal_triple h.toStill).weaken (fun _ hw => hw.1) (fun _ _ hw => hw) fun _ hw => hw
  | ok external =>
      simp only
      by_cases hcons : inconsistent external databaseEvents
      · rw [if_pos hcons]
        exact (lockJournal_triple h.toStill).weaken (fun _ hw => hw.1) (fun _ _ hw => hw) fun _ hw => hw
      · rw [if_neg hcons]
        have hall := append_drop_of_consistent hcons
        split
        · exact (lockJournal_triple h.toStill).weaken (fun _ hw => hw.1) (fun _ _ hw => hw) fun _ hw => hw
        · refine .bind (forEach_appendEvent_triple h _ fun w hw => ?_) fun _ => ?_
          · rw [hall, hstored w hw]
          · rw [hall]
            exact flushJournal_triple h fun w hw => by rw [hstored w hw]

/-- A synchronization that returns leaves both journals equal and flushed. -/
theorem synchronizeExternalJournal_triple (h : Inert P) {allowSingleAppend : Bool} :
    Prog.Triple P (synchronizeExternalJournal allowSingleAppend)
      (fun _ w => P w ∧ Synced w) P := by
  refine .bind (readJournal_triple h.toStill) fun databaseEvents => ?_
  have hstored : Inert fun w : World χ => w.db.journal = databaseEvents :=
    Inert.ofRows (I := fun db => db.journal = databaseEvents) fun _ _ _ hw => hw
  have hP := h.and hstored
  have hevents : Prog.Triple (fun w : World χ => P w ∧ w.db.journal = databaseEvents)
      externalEvents (fun events w => (P w ∧ w.db.journal = databaseEvents) ∧ Appended events w)
      (fun w => P w ∧ w.db.journal = databaseEvents) :=
    effect_triple hP.stable (fun w events hw heq => ⟨hw, Except.ok.inj heq⟩) (fun _ hw => hw)
      fun _ hw => hw
  have hrest : Prog.Triple (fun w : World χ => P w ∧ w.db.journal = databaseEvents)
      (Prog.attempt externalEvents >>= synchronizeFrom allowSingleAppend databaseEvents)
      (fun _ w => (P w ∧ w.db.journal = databaseEvents) ∧ Durable databaseEvents w)
      (fun w => P w ∧ w.db.journal = databaseEvents) := by
    refine .bind hevents.attempt fun external => ?_
    refine (@synchronizeFrom_triple _ _ hP allowSingleAppend databaseEvents external
      fun _ hw => hw.2).weaken (fun w hw => ?_) (fun _ _ hw => hw) fun _ hw => hw
    cases external with
    | error e => exact ⟨hw, trivial⟩
    | ok events => exact hw
  exact hrest.weaken (fun _ hw => hw) (fun _ w hw => ⟨hw.1.1, hw.2.1.trans hw.1.2.symm, hw.2.2⟩)
    fun _ hw => hw.1

theorem synchronizeExternalJournal_keeps (h : Inert P) {allowSingleAppend : Bool} :
    Prog.Keeps P (synchronizeExternalJournal allowSingleAppend) :=
  ((synchronizeExternalJournal_triple h).weaken (T := fun _ => P) (fun _ hw => hw)
    (fun _ _ hw => hw.1) fun _ hw => hw).keeps

theorem journalCursor_keeps (h : Still P) : Prog.Keeps P journalCursor :=
  .bind (readJournal_keeps h) fun _ => .pure

end Zemo
