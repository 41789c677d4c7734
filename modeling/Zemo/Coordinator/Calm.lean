import Zemo.Coordinator.Kept

set_option autoImplicit false

/-! # Calm worlds

A world is calm when nothing interferes any more and both journals agree. In a calm world every
program is a function of what is stored and seen, and this file says which: reads return, the
checks of the journals pass, and an event is persisted exactly when its transaction accepts it. -/

namespace Zemo

variable {χ α : Type} {env : Env χ} {w : World χ}

/-- No turns are left, and the journals agree. -/
structure Calm (env : Env χ) (w : World χ) : Prop where
  turns : w.turns = []
  journal : JournalInvariant env.store.codec w.db
  synced : w.external.events = w.db.journal

/-! ## Single steps -/

theorem query_calm {g : Database → Except PersistenceError α} {a : α} (h : w.turns = [])
    (hg : g w.db = .ok a) : query g w = (.ok a, w) := by
  rw [query, effect_of_nil h, hg]
  rfl

theorem query_calm_eq_ok {g : Database → Except PersistenceError α} {a : α} {w' : World χ}
    (h : w.turns = []) (hq : query g w = (.ok a, w')) : g w.db = .ok a ∧ w' = w := by
  rw [query, effect_of_nil h] at hq
  cases hg : g w.db with
  | ok b =>
      rw [hg] at hq
      obtain ⟨h1, rfl⟩ := Prod.mk.inj hq
      exact ⟨congrArg Except.ok (Exit.ok.inj h1), rfl⟩
  | error e =>
      rw [hg] at hq
      cases (Prod.mk.inj hq).1

theorem look_calm {f : Outside → Except ApplicationError α} {a : α} (h : w.turns = [])
    (hf : f w.outside = .ok a) : look f w = (.ok a, w) := by
  rw [look, effect_of_nil h, hf]
  rfl

theorem look_calm_eq_ok {f : Outside → Except ApplicationError α} {a : α} {w' : World χ}
    (h : w.turns = []) (hl : look f w = (.ok a, w')) : f w.outside = .ok a ∧ w' = w := by
  rw [look, effect_of_nil h] at hl
  cases hf : f w.outside with
  | ok b =>
      rw [hf] at hl
      obtain ⟨h1, rfl⟩ := Prod.mk.inj hl
      exact ⟨congrArg Except.ok (Exit.ok.inj h1), rfl⟩
  | error e =>
      rw [hf] at hl
      cases (Prod.mk.inj hl).1

theorem write_calm {call : DbCall} {b : Bool} {db' : Database} (h : w.turns = [])
    (hcall : call.run env.store w.db = (.ok b, db')) :
    write env call w = (.ok b, w.written env call) := by
  rw [write, effect_of_nil h, hcall]
  rfl

theorem write_calm_eq_ok {call : DbCall} {b : Bool} {w' : World χ} (h : w.turns = [])
    (hw : write env call w = (.ok b, w')) :
    call.run env.store w.db = (.ok b, call.step env.store w.db) ∧ w' = w.written env call := by
  rw [write, effect_of_nil h] at hw
  cases hrun : (call.run env.store w.db).1 with
  | ok c =>
      rw [hrun] at hw
      obtain ⟨h1, rfl⟩ := Prod.mk.inj hw
      obtain rfl := Exit.ok.inj h1
      exact ⟨Prod.ext hrun rfl, rfl⟩
  | error e =>
      rw [hrun] at hw
      cases (Prod.mk.inj hw).1

/-! ## The journals -/

theorem requireValidDatabaseJournal_calm (h : w.turns = [])
    (hjournal : JournalInvariant env.store.codec w.db) :
    requireValidDatabaseJournal env w = (.ok (), w) := by
  have hquery : query (fun db => .ok (db.validateExecutionJournal env.store.codec)) w
      = (.ok (w.db.validateExecutionJournal env.store.codec), w) := query_calm h rfl
  refine (Prog.bind_ok (Prog.attempt_ok hquery)).trans ?_
  rw [hjournal.validate]
  rfl

/-- The world after its journals were brought together. -/
def World.synchronized (w : World χ) : World χ :=
  { w with external := { events := w.db.journal, flushed := w.db.journal.length } }

theorem externalAppend_calm {event : OperationJournalEvent} (h : w.turns = []) :
    externalAppend event w =
      (.ok (), { w with external :=
        { w.external with events := w.external.events ++ [event] } }) := by
  rw [externalAppend, effect_of_nil h]
  rfl

theorem flushJournal_calm (h : w.turns = []) :
    flushJournal w = (.ok (), { w with external :=
      { w.external with flushed := w.external.events.length } }) := by
  have hflush : externalFlush w = (.ok (), { w with external :=
      { w.external with flushed := w.external.events.length } }) := by
    rw [externalFlush, effect_of_nil h]
    rfl
  rw [flushJournal, Prog.bind_ok (Prog.attempt_ok hflush)]
  rfl

/-- A prefix is consistent with what it is a prefix of. -/
theorem not_inconsistent {external events : List OperationJournalEvent}
    (h : external <+: events) : ¬inconsistent external events := by
  obtain ⟨rest, rfl⟩ := h
  rw [inconsistent, not_or, not_not]
  refine ⟨by simp, List.all_eq_true.2 fun pair hmem => ?_⟩
  obtain ⟨i, hi, rfl⟩ := List.mem_iff_getElem.1 hmem
  rw [List.length_zip] at hi
  rw [List.getElem_zip, decide_eq_true_eq, List.getElem_append_left]

/-- The journals are brought together when the external one misses nothing, or one event that may
    be appended. -/
theorem synchronizeExternalJournal_calm {allowSingleAppend : Bool}
    {missing : List OperationJournalEvent} (h : w.turns = [])
    (hevents : w.db.journal = w.external.events ++ missing)
    (hmissing : missing = [] ∨ allowSingleAppend = true ∧ ∃ event, missing = [event]) :
    synchronizeExternalJournal allowSingleAppend w = (.ok (), w.synchronized) := by
  have hread : readJournal w = (.ok w.db.journal, w) := query_calm h rfl
  have hexternal : externalEvents w = (.ok w.external.events, w) := by
    rw [externalEvents, effect_of_nil h]
    rfl
  have hconsistent : ¬inconsistent w.external.events w.db.journal :=
    not_inconsistent ⟨missing, hevents.symm⟩
  have hdrop : w.db.journal.drop w.external.events.length = missing := by
    rw [hevents, List.drop_left]
  have hlength : w.db.journal.length - w.external.events.length = missing.length := by
    rw [hevents, List.length_append, Nat.add_sub_cancel_left]
  have hallowed : ¬(0 < missing.length ∧ (allowSingleAppend = false ∨ missing.length ≠ 1)) := by
    rcases hmissing with rfl | ⟨rfl, event, rfl⟩ <;> simp
  refine (Prog.bind_ok hread).trans ((Prog.bind_ok (Prog.attempt_ok hexternal)).trans ?_)
  simp only [synchronizeFrom, if_neg hconsistent, hlength, if_neg hallowed, hdrop]
  rcases hmissing with rfl | ⟨-, event, rfl⟩
  · rw [List.append_nil] at hevents
    refine (Prog.bind_ok (Prog.pure_apply () w)).trans ((flushJournal_calm h).trans ?_)
    rw [World.synchronized, hevents]
  · have happend : appendEvent event w = (.ok (), { w with external :=
        { w.external with events := w.external.events ++ [event] } }) :=
      Prog.bind_ok (Prog.attempt_ok (externalAppend_calm h))
    have hall : Prog.forEach appendEvent [event] w = (.ok (), { w with external :=
        { w.external with events := w.external.events ++ [event] } }) := Prog.bind_ok happend
    refine (Prog.bind_ok hall).trans ((flushJournal_calm (w := { w with external :=
      { w.external with events := w.external.events ++ [event] } }) h).trans ?_)
    rw [World.synchronized, hevents]

/-! ## Events -/

/-- The cursor at the end of the journal. -/
def Database.cursor (db : Database) : JournalCursor where
  sequence := db.journal.length
  previous := chainHead db.journal

theorem journalCursor_calm (h : w.turns = []) : journalCursor w = (.ok w.db.cursor, w) :=
  Prog.bind_ok (query_calm (g := fun db => .ok db.journal) h rfl)

/-- The write of a draft in this world. -/
def EventDraft.writeIn (draft : EventDraft) (env : Env χ) (cursor : JournalCursor) (w : World χ) :
    EventWrite :=
  draft.write (draft.event env.store.codec cursor w.now) (env.iso w.now)

/-- The world after a draft was persisted. -/
def World.persisted (w : World χ) (env : Env χ) (ew : EventWrite) : World χ :=
  (w.written env (.event ew)).synchronized

theorem eventRun_eq_ok {ew : EventWrite} {b : Bool} {db db' : Database}
    (h : (DbCall.event ew).run env.store db = (.ok b, db')) :
    b = true ∧ EventCommitted env.store ew db db' := by
  simp only [DbCall.run, yes] at h
  rcases hrun : db.persistExecutionEvent env.store ew with ⟨e | u, db''⟩
  · rw [hrun] at h
    cases (Prod.mk.inj h).1
  · rw [hrun] at h
    obtain ⟨h1, rfl⟩ := Prod.mk.inj h
    exact ⟨(Except.ok.inj h1).symm, persistExecutionEvent_eq_ok hrun⟩

theorem eventRun_of_accepted {ew : EventWrite} {db : Database}
    (h : EventAccepted env.store ew db) :
    (DbCall.event ew).run env.store db = (.ok true, (DbCall.event ew).step env.store db) ∧
      EventCommitted env.store ew db ((DbCall.event ew).step env.store db) := by
  obtain ⟨db', hrun, hcommitted⟩ := persistExecutionEvent_of_accepted h
  have hstep : (DbCall.event ew).run env.store db = (.ok true, db') := by
    simp only [DbCall.run, yes, hrun]
    rfl
  have : (DbCall.event ew).step env.store db = db' := by rw [DbCall.step, hstep]
  rw [this]
  exact ⟨hstep, hcommitted⟩

/-- Once its event was committed, the commit of a draft returns. -/
private theorem commitEvent_of_committed {message : String} {draft : EventDraft}
    {cursor : JournalCursor} (h : Calm env w)
    (hrun : (DbCall.event (draft.writeIn env cursor w)).run env.store w.db
      = (.ok true, (DbCall.event (draft.writeIn env cursor w)).step env.store w.db))
    (hcommitted : EventCommitted env.store (draft.writeIn env cursor w) w.db
      ((DbCall.event (draft.writeIn env cursor w)).step env.store w.db)) :
    commitEvent env message draft cursor w =
      (.ok ((draft.event env.store.codec cursor w.now).binding,
        { sequence := cursor.sequence + 1
          previous := some (draft.event env.store.codec cursor w.now).eventDigest }),
        w.persisted env (draft.writeIn env cursor w)) := by
  have hsync : synchronizeExternalJournal true (w.written env (.event (draft.writeIn env cursor w)))
      = (.ok (), w.persisted env (draft.writeIn env cursor w)) := by
    have hevents : (w.written env (.event (draft.writeIn env cursor w))).db.journal
        = w.external.events ++ [draft.event env.store.codec cursor w.now] :=
      hcommitted.effect.journal.trans (congrArg (· ++ _) h.synced.symm)
    exact synchronizeExternalJournal_calm h.turns hevents (.inr ⟨rfl, _, rfl⟩)
  refine (Prog.bind_ok (Prog.reads_apply _ w)).trans ((Prog.bind_ok (Prog.reads_apply _ w)).trans ?_)
  refine (Prog.bind_ok (write_calm h.turns hrun)).trans ?_
  exact (Prog.bind_ok (Prog.attempt_ok hsync)).trans (Prog.bind_ok (Prog.pure_apply () _))

/-- An event that is accepted is persisted. -/
theorem persistEvent_calm {draft : EventDraft} {cursor : JournalCursor} (h : Calm env w)
    (haccepted : EventAccepted env.store (draft.writeIn env cursor w) w.db) :
    persistEvent env draft cursor w =
      (.ok { sequence := cursor.sequence + 1
             previous := some (draft.event env.store.codec cursor w.now).eventDigest },
        w.persisted env (draft.writeIn env cursor w)) := by
  obtain ⟨hrun, hcommitted⟩ := eventRun_of_accepted haccepted
  refine (Prog.bind_ok (requireValidDatabaseJournal_calm h.turns h.journal)).trans ?_
  exact (Prog.bind_ok (commitEvent_of_committed h hrun hcommitted)).trans rfl

/-- An event that was persisted was committed, and left both journals at its end. -/
theorem persistEvent_calm_eq_ok {draft : EventDraft} {cursor cursor' : JournalCursor}
    {w' : World χ} (h : Calm env w) (hp : persistEvent env draft cursor w = (.ok cursor', w')) :
    EventCommitted env.store (draft.writeIn env cursor w) w.db w'.db ∧
      w' = w.persisted env (draft.writeIn env cursor w) := by
  have hp' := (Prog.bind_ok (requireValidDatabaseJournal_calm h.turns h.journal)).symm.trans hp
  obtain ⟨r, w₁, hcommit, hrest⟩ := Prog.bind_eq_ok hp'
  obtain ⟨-, rfl⟩ := Prod.mk.inj hrest
  have hcommit' := (Prog.bind_ok (Prog.reads_apply _ w)).symm.trans hcommit
  have hcommit'' := (Prog.bind_ok (Prog.reads_apply _ w)).symm.trans hcommit'
  obtain ⟨b, w₂, hwrite, -⟩ := Prog.bind_eq_ok hcommit''
  obtain ⟨hrun, -⟩ := write_calm_eq_ok h.turns hwrite
  obtain ⟨rfl, hcommitted⟩ := eventRun_eq_ok hrun
  have heq := hcommit.symm.trans (commitEvent_of_committed h hrun hcommitted)
  obtain rfl := (Prod.mk.inj heq).2
  exact ⟨hcommitted, rfl⟩

/-- What stays the same when a draft is persisted. -/
theorem Calm.persisted {draft : EventDraft} (h : Calm env w)
    (hcommitted : EventCommitted env.store (draft.writeIn env w.db.cursor w) w.db
      (w.persisted env (draft.writeIn env w.db.cursor w)).db) :
    Calm env (w.persisted env (draft.writeIn env w.db.cursor w)) where
  turns := h.turns
  journal := h.journal.committed hcommitted
  synced := rfl

/-- The cursor that is handed on is at the end of the journal. -/
theorem cursor_committed {draft : EventDraft} {db' : Database}
    (hcommitted : EventCommitted env.store (draft.writeIn env w.db.cursor w) w.db db') :
    ({ sequence := w.db.cursor.sequence + 1
       previous := some (draft.event env.store.codec w.db.cursor w.now).eventDigest } :
        JournalCursor) = db'.cursor := by
  show _ = JournalCursor.mk db'.journal.length (chainHead db'.journal)
  rw [hcommitted.effect.journal, List.length_append, chainHead_concat]
  rfl

/-- A draft at the end of the journal is accepted when it is about this execution and a stored
    operation, records no intent, and its proof moves a stored request as it may. -/
theorem EventDraft.accepted {draft : EventDraft} (h : JournalInvariant env.store.codec w.db)
    (hexecution : draft.executionId = w.db.session.id)
    (hstep : ∀ stepId ∈ draft.stepId, ∃ op ∈ w.db.operations, op.id = stepId)
    (hintent : draft.requestIntent = none)
    (hproof : ∀ requestId proofState, draft.requestProof = some (requestId, proofState) →
      ∃ row, w.db.executorRequests.find? (·.requestId = requestId) = some row ∧
        row.state.mayTransitionTo proofState = true) :
    EventAccepted env.store (draft.writeIn env w.db.cursor w) w.db where
  payload := rfl
  payloadDigest := rfl
  executionId := hexecution
  sequence := by
    rw [h.sequence]
    rfl
  linked := by
    rw [h.head]
    exact OperationJournalEvent.verify_new
  newSequence row hrow := (sequence_lt_of_chainValid h.chained row hrow).ne
  operation := hstep
  intent request hrequest := by
    have : draft.requestIntent = some request := hrequest
    rw [hintent] at this
    cases this
  proof requestId proofState hp := by
    have hnone : (draft.writeIn env w.db.cursor w).requestIntent = none := hintent
    rw [EventWrite.requestsIntended, hnone]
    simpa using hproof requestId proofState hp

end Zemo
