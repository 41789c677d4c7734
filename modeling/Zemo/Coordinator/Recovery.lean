import Zemo.Coordinator.Pass

set_option autoImplicit false

/-! # Recovery in a calm world

When nothing interferes, `recover_execution` is a pass over the requests followed by the record of
what it found. `recoverExecution_calm_eq_ok` takes a recovery that returned apart, and
`recoverExecution_calm` says that recovery returns when each verdict can be found and recorded. -/

namespace Zemo

variable {χ : Type} {env : Env χ} {w w' : World χ}

/-- Recovery gets as far as the requests. -/
structure Recoverable (w : World χ) : Prop where
  diagnostics : w.diagnostics = []
  status : w.db.session.status.needsRecovery = true
  synced : w.external.events = w.db.journal
  root : w.outside.activeRoot = some w.db.session.rootId
  rootValid : w.outside.rootValid = true

/-- What recovery finds, from the classes of the requests. -/
def itemsOf (db : Database) (classes : List RecoveredRequestClass) : RecoveryItems :=
  addUnrequested db.executorRequests db.journal db.operations (classes.foldl RecoveryItems.add {})

/-! ## The steps before the pass -/

theorem requireMutationsUnlocked_eq_ok (h : requireMutationsUnlocked w = (.ok (), w')) :
    w.diagnostics = [] ∧ w' = w := by
  obtain ⟨diagnostics, w₁, hread, hensure⟩ := Prog.bind_eq_ok h
  obtain ⟨h1, rfl⟩ := Prod.mk.inj hread
  obtain rfl := Exit.ok.inj h1
  exact Prog.ensure_eq_ok hensure

/-- A synchronization that may append nothing returns only when nothing was missing. -/
theorem synchronizeExternalJournal_calm_eq_ok (h : w.turns = [])
    (hs : synchronizeExternalJournal false w = (.ok (), w')) :
    w.external.events = w.db.journal ∧ w' = w.synchronized := by
  have hread : readJournal w = (.ok w.db.journal, w) := query_calm h rfl
  have hexternal : externalEvents w = (.ok w.external.events, w) := by
    rw [externalEvents, effect_of_nil h]
    rfl
  have hfrom : synchronizeFrom false w.db.journal (.ok w.external.events) w = (.ok (), w') :=
    (Prog.bind_ok (Prog.attempt_ok hexternal)).symm.trans ((Prog.bind_ok hread).symm.trans hs)
  have hsynced : w.external.events = w.db.journal := by
    simp only [synchronizeFrom] at hfrom
    by_cases hinconsistent : inconsistent w.external.events w.db.journal
    · rw [if_pos hinconsistent] at hfrom
      cases (Prod.mk.inj hfrom).1
    · rw [if_neg hinconsistent] at hfrom
      split at hfrom
      · cases (Prod.mk.inj hfrom).1
      · rename_i hmissing
        have happend := append_drop_of_consistent hinconsistent
        rw [List.drop_eq_nil_of_le (by simp only [true_or, and_true] at hmissing; omega),
          List.append_nil] at happend
        exact happend
  have hcalm : synchronizeExternalJournal false w = (.ok (), w.synchronized) :=
    synchronizeExternalJournal_calm h (by rw [hsynced, List.append_nil]) (.inl rfl)
  exact ⟨hsynced, (Prod.mk.inj (hs.symm.trans hcalm)).2⟩

theorem executionRoot_calm_eq_ok {detail : ExecutionDetail} (h : w.turns = [])
    (hr : executionRoot detail w = (.ok (), w')) :
    w.outside.activeRoot = some detail.session.rootId ∧ w.outside.rootValid = true ∧ w' = w := by
  obtain ⟨hlook, rfl⟩ := look_calm_eq_ok h hr
  simp only [Checked.bind_eq_ok, Checked.orError_eq_ok, Checked.require_eq_ok] at hlook
  obtain ⟨rootId, hroot, _, rfl, hvalid⟩ := hlook
  exact ⟨hroot, hvalid, rfl⟩

/-! ## The record -/

/-- The world after recovery recorded what it found. -/
def World.assessed (w : World χ) (env : Env χ) (items : RecoveryItems) : World χ :=
  w.written env (.assessment (items.record (env.iso w.now)))

/-- Recording an assessment changes the session, the recovery row and the retention row. -/
structure Assessed (items : RecoveryItems) (db db' : Database) : Prop where
  journal : db'.journal = db.journal
  operations : db'.operations = db.operations
  requests : db'.executorRequests = db.executorRequests
  sessions : db'.executorSessions = db.executorSessions
  consent : db'.consent = db.consent
  id : db'.session.id = db.session.id
  rootId : db'.session.rootId = db.session.rootId
  journalSequence : db'.session.journalSequence = db.session.journalSequence
  chainHead : db'.session.journalChainHead = db.session.journalChainHead
  status : db'.session.status = items.state.sessionStatus
  rollbackAvailable : db'.session.rollbackAvailable =
    rollbackAvailableFor items.state.sessionStatus db.operations

theorem assessed (w : World χ) (env : Env χ) (items : RecoveryItems) :
    Assessed items w.db (w.assessed env items).db := by
  constructor <;> rfl

/-- The record is always made, and the assessment says what the rows say after it. -/
theorem persistRecoveryAssessmentResult_calm {executionId : ExecutionId} {items : RecoveryItems}
    {sessions : List ExecutorSessionIdentity} {requests : List ExecutorRequestRow}
    (h : w.turns = []) (hread : validateStoredConsent w.db.consent = true) :
    persistRecoveryAssessmentResult env executionId items sessions requests w =
      (.ok (assessmentOf executionId items sessions requests w.diagnostics
        (rollbackAvailableFor items.state.sessionStatus w.db.operations)),
        w.assessed env items) := by
  have hwrite : write env (.assessment (items.record (env.iso w.now))) w
      = (.ok true, w.assessed env items) := write_calm h rfl
  have hdetail : readDetail (w.assessed env items)
      = (.ok (w.assessed env items).db.rows, w.assessed env items) :=
    query_calm (w := w.assessed env items) h (if_pos hread)
  refine (Prog.bind_ok (Prog.reads_apply _ w)).trans ((Prog.bind_ok hwrite).trans ?_)
  exact (Prog.bind_ok hdetail).trans rfl

/-! ## The whole recovery -/

/-- A recovery from `w` found these classes, and left `w₁` when it had gone through the requests. -/
structure Recovered (env : Env χ) (w : World χ) (classes : List RecoveredRequestClass)
    (w₁ : World χ) : Prop where
  recoverable : Recoverable w
  readable : validateStoredConsent w.db.consent = true
  pass : Pass env w.db.session.id w.db.operations w.db.executorSessions w.db.journal
    w.db.executorRequests w.synchronized classes w₁
  calm : Calm env w₁

variable {classes : List RecoveredRequestClass} {w₁ : World χ}

/-- The assessment of a recovery. -/
def assessmentFor (w : World χ) (classes : List RecoveredRequestClass) (w₁ : World χ) :
    RecoveryAssessment :=
  assessmentOf w.db.session.id (itemsOf w.db classes) w.db.executorSessions
    w₁.db.executorRequests w₁.diagnostics
    (rollbackAvailableFor (itemsOf w.db classes).state.sessionStatus w₁.db.operations)

theorem since_synchronized (w : World χ) : Since [] w w.synchronized :=
  { Since.refl w with outside := rfl, now := rfl, diagnostics := rfl }

/-- What a recovery found of each request, and what it left as it was. -/
theorem Recovered.classified (h : Recovered env w classes w₁) (hkeyed : Keyed w.db) :
    List.Forall₂ (ClassOf env w₁) w.db.executorRequests classes ∧
      ∃ done, Since done w w₁ ∧ ∀ r ∈ done, r ∈ w.db.executorRequests := by
  obtain ⟨hclasses, more, hmore, hmem⟩ := h.pass.classified hkeyed (since_synchronized w)
    (fun r hr => hr) hkeyed.requests (by simp)
  exact ⟨hclasses, _, (since_synchronized w).trans hmore, hmem⟩

/-- There is a verdict on the request that can be recorded. -/
def HasSoundVerdict (env : Env χ) (w : World χ) (request : ExecutorRequestRow) : Prop :=
  ∃ op v, w.db.operations.find? (·.id = request.operationId) = some op ∧
    verdictOn env w.outside.tree w.db.session.id w.db.executorSessions w.db.journal request op
      = .ok v ∧ v.Sound request

/-- A recovery found a sound verdict on each request. -/
theorem Recovered.sound (h : Recovered env w classes w₁) (hkeyed : Keyed w.db) :
    ∀ request ∈ w.db.executorRequests, HasSoundVerdict env w request := by
  have hsound := h.pass.sound hkeyed (since_synchronized w) (fun r hr => hr) hkeyed.requests
    (by simp)
  have hboth : List.Forall₂ (fun request _ => HasSoundVerdict env w request ∧ True)
      w.db.executorRequests classes :=
    hsound.imp fun request c ⟨op, v, hfound, hverdict, hmay, _⟩ =>
      ⟨⟨op, v, hfound, hverdict, hmay⟩, trivial⟩
  exact ((List.forall₂_and_left _ _).1 hboth).1

section Reads

variable (h : w.turns = [])
include h

theorem readJournal_calm : readJournal w = (.ok w.db.journal, w) := query_calm h rfl

theorem readSessions_calm :
    query (fun db => .ok db.executorSessions) w = (.ok w.db.executorSessions, w) :=
  query_calm h rfl

theorem readRequests_calm :
    query (fun db => .ok db.executorRequests) w = (.ok w.db.executorRequests, w) :=
  query_calm h rfl

end Reads

/-- A recovery that returned was a pass over the requests and the record of what it found. -/
theorem recoverExecution_calm_eq_ok {a : RecoveryAssessment} (hturns : w.turns = [])
    (hjournal : JournalInvariant env.store.codec w.db) (hkeyed : Keyed w.db)
    (h : recoverExecution env w = (.ok a, w')) :
    ∃ classes w₁, Recovered env w classes w₁ ∧ a = assessmentFor w classes w₁ ∧
      w' = w₁.assessed env (itemsOf w.db classes) := by
  obtain ⟨_, w, hlocks, h1⟩ := Prog.bind_eq_ok h
  obtain ⟨hdiagnostics, rfl⟩ := requireMutationsUnlocked_eq_ok hlocks
  obtain ⟨detail, w, hdetail, h2⟩ := Prog.bind_eq_ok h1
  obtain ⟨hread, rfl⟩ := query_calm_eq_ok hturns hdetail
  obtain ⟨hreadable, rfl⟩ := Database.executionDetail_eq_ok hread
  obtain ⟨_, w, hensure, h3⟩ := Prog.bind_eq_ok h2
  obtain ⟨hstatus, rfl⟩ := Prog.ensure_eq_ok hensure
  have h4 := (Prog.bind_ok (requireValidDatabaseJournal_calm hturns hjournal)).symm.trans h3
  obtain ⟨_, u, hsync, h5⟩ := Prog.bind_eq_ok h4
  obtain ⟨hsynced, rfl⟩ := synchronizeExternalJournal_calm_eq_ok hturns hsync
  have hcalm : Calm env w.synchronized := ⟨hturns, hjournal, rfl⟩
  obtain ⟨_, u, hroot, h6⟩ := Prog.bind_eq_ok h5
  obtain ⟨hactive, hvalid, hu⟩ := executionRoot_calm_eq_ok hcalm.turns hroot
  rw [hu] at h6
  -- the reads between the checks and the pass
  have h7 := (Prog.bind_ok (journalCursor_calm hcalm.turns)).symm.trans h6
  have h8 := (Prog.bind_ok (readJournal_calm hcalm.turns)).symm.trans h7
  have h9 := (Prog.bind_ok (readSessions_calm hcalm.turns)).symm.trans h8
  have h10 := (Prog.bind_ok (readRequests_calm hcalm.turns)).symm.trans h9
  obtain ⟨items, w₁, hreconcile, h11⟩ := Prog.bind_eq_ok h10
  obtain ⟨classes, hpass, rfl, hcalm₁⟩ := reconcileRequests_calm_eq_ok hcalm hreconcile
  have hrecovered : Recovered env w classes w₁ :=
    ⟨⟨hdiagnostics, hstatus, hsynced, hactive, hvalid⟩, hreadable, hpass, hcalm₁⟩
  have h12 := (Prog.bind_ok (readRequests_calm hcalm₁.turns)).symm.trans h11
  obtain ⟨-, done, hsince, -⟩ := hrecovered.classified hkeyed
  have hread₁ : validateStoredConsent w₁.db.consent = true := by
    rw [hsince.consent]
    exact hreadable
  obtain ⟨h13, rfl⟩ := Prod.mk.inj (h12.symm.trans
    (persistRecoveryAssessmentResult_calm hcalm₁.turns hread₁))
  exact ⟨classes, w₁, hrecovered, Exit.ok.inj h13, rfl⟩

/-- Recovery returns when there is a sound verdict on each request. -/
theorem recoverExecution_calm (hturns : w.turns = [])
    (hjournal : JournalInvariant env.store.codec w.db) (hkeyed : Keyed w.db)
    (hread : validateStoredConsent w.db.consent = true) (hrecoverable : Recoverable w)
    (hsound : ∀ request ∈ w.db.executorRequests, HasSoundVerdict env w request) :
    ∃ a w', recoverExecution env w = (.ok a, w') := by
  have hcalm : Calm env w.synchronized := ⟨hturns, hjournal, rfl⟩
  obtain ⟨items, w₁, hreconcile⟩ : ∃ items w₁, reconcileRequests env w.db.session.id
      w.db.operations w.db.executorSessions w.db.journal w.db.executorRequests
      w.synchronized.db.cursor {} w.synchronized = (.ok items, w₁) :=
    reconcileRequests_calm hcalm hkeyed (since_synchronized w) (fun r hr => hr) hkeyed.requests
      (by simp) hsound
  obtain ⟨classes, hpass, rfl, hcalm₁⟩ := reconcileRequests_calm_eq_ok hcalm hreconcile
  have hrecovered : Recovered env w classes w₁ := ⟨hrecoverable, hread, hpass, hcalm₁⟩
  obtain ⟨-, done, hsince, -⟩ := hrecovered.classified hkeyed
  have hread₁ : validateStoredConsent w₁.db.consent = true := by
    rw [hsince.consent]
    exact hread
  have hlocks : requireMutationsUnlocked w = (.ok (), w) := by
    refine (Prog.bind_ok (Prog.reads_apply _ w)).trans ?_
    exact congrFun (Prog.ensure_pos _ hrecoverable.diagnostics) w
  have hdetail : readDetail w = (.ok w.db.rows, w) :=
    query_calm hturns (if_pos hread)
  have hstatus : (Prog.ensure (w.db.rows.session.status.needsRecovery = true) .invalidExecution :
      Coordinator χ Unit) w = (.ok (), w) :=
    congrFun (Prog.ensure_pos _ hrecoverable.status) w
  have hsync : synchronizeExternalJournal false w = (.ok (), w.synchronized) :=
    synchronizeExternalJournal_calm hturns (by rw [hrecoverable.synced, List.append_nil]) (.inl rfl)
  have hroot : executionRoot w.db.rows w.synchronized = (.ok (), w.synchronized) := by
    refine look_calm hcalm.turns ?_
    simp only [Checked.bind_eq_ok, Checked.orError_eq_ok, Checked.require_eq_ok]
    exact ⟨_, hrecoverable.root, (), rfl, hrecoverable.rootValid⟩
  refine ⟨assessmentFor w classes w₁, w₁.assessed env (itemsOf w.db classes), ?_⟩
  refine (Prog.bind_ok hlocks).trans ((Prog.bind_ok hdetail).trans ((Prog.bind_ok hstatus).trans ?_))
  refine (Prog.bind_ok (requireValidDatabaseJournal_calm hturns hjournal)).trans
    ((Prog.bind_ok hsync).trans ((Prog.bind_ok hroot).trans ?_))
  refine (Prog.bind_ok (journalCursor_calm hcalm.turns)).trans
    ((Prog.bind_ok (readJournal_calm hcalm.turns)).trans
      ((Prog.bind_ok (readSessions_calm hcalm.turns)).trans
        ((Prog.bind_ok (readRequests_calm hcalm.turns)).trans ?_)))
  refine (Prog.bind_ok hreconcile).trans ((Prog.bind_ok (readRequests_calm hcalm₁.turns)).trans ?_)
  exact persistRecoveryAssessmentResult_calm hcalm₁.turns hread₁

end Zemo
