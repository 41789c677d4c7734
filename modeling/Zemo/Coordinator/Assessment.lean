import Zemo.Coordinator.Recovery
import Zemo.Coordinator.System

set_option autoImplicit false

/-! # When recovery reaches an assessment

Recovery looks at the files of each request that is in flight or without a proof. It returns exactly
when every such look gives an answer it can record: a look at something else than a file or nothing
at an end of a move fails, and so does recording that an acknowledged request did not start. Both
leave an execution without an assessment. -/

namespace Zemo

variable {χ : Type}

/-! ## What a look can answer -/

/-- A look at the path finds something, or finds that nothing is there. -/
def Tree.Answers (t : Tree) (key : PathKey) : Prop :=
  ∀ e, t.metadata key = .error e → e = .notFound

/-- At the path is nothing, or a regular file that is small enough to be read. -/
def FilePolicy.FileOrNothing (policy : FilePolicy) (t : Tree) (key : PathKey) : Prop :=
  t.metadata key = .error .notFound ∨
    ∃ file, t.metadata key = .ok (.leaf (.file file)) ∧ policy.Readable file

namespace ExecutionOperation

variable (op : ExecutionOperation)

/-- Where the file of a move is before a mutation in this direction. -/
def startIn : ExecutorRequestDirection → RelPath
  | .forward => op.sourceRelativePath.getD []
  | .rollback => op.destinationRelativePath

/-- Where it is afterwards. -/
def stopIn : ExecutorRequestDirection → RelPath
  | .forward => op.destinationRelativePath
  | .rollback => op.sourceRelativePath.getD []

/-- The paths of the operation can be looked at: those of a move hold nothing but files. -/
def Assessable (policy : FilePolicy) (tree : Tree) : Prop :=
  match op.kind with
  | .createDirectory => tree.Answers (policy.key op.destinationRelativePath)
  | .removeDirectoryIfEmpty => tree.Answers (policy.key (op.sourceRelativePath.getD []))
  | _ => policy.FileOrNothing tree (policy.key (op.sourceRelativePath.getD [])) ∧
      policy.FileOrNothing tree (policy.key op.destinationRelativePath)

/-- The files are as they were before a mutation in this direction. -/
def LooksNotStarted (policy : FilePolicy) (tree : Tree) (direction : ExecutorRequestDirection) :
    Prop :=
  match op.kind, direction with
  | .createDirectory, .forward =>
      tree.metadata (policy.key op.destinationRelativePath) = .error .notFound
  | .createDirectory, .rollback => tree.metadata (policy.key op.destinationRelativePath) = .ok .dir
  | .removeDirectoryIfEmpty, .forward =>
      tree.metadata (policy.key (op.sourceRelativePath.getD [])) = .ok .dir
  | .removeDirectoryIfEmpty, .rollback =>
      tree.metadata (policy.key (op.sourceRelativePath.getD [])) = .error .notFound
  | _, _ =>
      (∃ file expected, tree.metadata (policy.key (op.startIn direction)) = .ok (.leaf (.file file)) ∧
        op.expectedIn direction = some expected ∧ sameFileState expected file = true) ∧
      tree.metadata (policy.key (op.stopIn direction)) = .error .notFound

end ExecutionOperation

variable {policy : FilePolicy} {tree : Tree} {key start stop : PathKey}

theorem observeDirectory_isOk {present absent : RecoveryObservation} {unexpected : String} :
    (∃ o, observeDirectory tree key present absent unexpected = .ok o) ↔ tree.Answers key := by
  unfold observeDirectory Tree.Answers
  cases h : tree.metadata key with
  | ok n => cases n <;> simp
  | error e => cases e <;> simp

theorem observeDirectory_present {unexpected : String} :
    observeDirectory tree key .notStarted (.applied none) unexpected = .ok .notStarted ↔
      tree.metadata key = .ok .dir := by
  unfold observeDirectory
  cases tree.metadata key with
  | ok n => cases n <;> simp
  | error e => cases e <;> simp

theorem observeDirectory_absent {unexpected : String} :
    observeDirectory tree key (.applied none) .notStarted unexpected = .ok .notStarted ↔
      tree.metadata key = .error .notFound := by
  unfold observeDirectory
  cases tree.metadata key with
  | ok n => cases n <;> simp
  | error e => cases e <;> simp

theorem fingerprintIfPresent_eq_none :
    fingerprintIfPresent policy tree key = .ok none ↔ tree.metadata key = .error .notFound := by
  unfold fingerprintIfPresent
  split
  · rename_i file h
    cases hf : policy.fingerprintStreaming file <;> simp [h, raise, Except.mapError, Except.map]
  · simp_all
  · simp_all
  · simp_all

theorem fingerprintIfPresent_eq_some {file : FileFingerprint} :
    fingerprintIfPresent policy tree key = .ok (some file) ↔
      tree.metadata key = .ok (.leaf (.file file)) ∧ policy.Readable file := by
  unfold fingerprintIfPresent
  split
  · rename_i found h
    cases hf : policy.fingerprintStreaming found with
    | ok observed =>
        obtain ⟨hreadable, rfl⟩ := FilePolicy.fingerprintStreaming_eq_ok.1 hf
        simp only [h, raise, Except.mapError, Except.map, Except.ok.injEq, Option.some.injEq,
          PathNode.leaf.injEq, FileEntry.file.injEq]
        exact ⟨fun heq => ⟨heq, heq ▸ hreadable⟩, fun heq => heq.1⟩
    | error e =>
        have hno : ¬policy.Readable found := fun hreadable => by
          rw [FilePolicy.fingerprintStreaming_eq_ok.2 ⟨hreadable, rfl⟩] at hf
          cases hf
        simp only [h, raise, Except.mapError, Except.map, Except.ok.injEq, reduceCtorEq, false_iff,
          not_and, PathNode.leaf.injEq, FileEntry.file.injEq]
        rintro rfl
        exact hno
  · simp_all
  · simp_all
  · simp_all

theorem fingerprintIfPresent_isOk :
    (∃ found, fingerprintIfPresent policy tree key = .ok found) ↔ policy.FileOrNothing tree key := by
  constructor
  · rintro ⟨_ | file, h⟩
    · exact .inl (fingerprintIfPresent_eq_none.1 h)
    · exact .inr ⟨file, fingerprintIfPresent_eq_some.1 h⟩
  · rintro (h | ⟨file, h⟩)
    · exact ⟨none, fingerprintIfPresent_eq_none.2 h⟩
    · exact ⟨some file, fingerprintIfPresent_eq_some.2 h⟩

section Move

variable {expected : FileFingerprint} {both neither other : String}

/-- The observation of a move, from what is at its ends. -/
theorem observeMove_eq_ok {o : RecoveryObservation} :
    observeMove policy tree start stop (some expected) both neither other = .ok o ↔
      ∃ atStart atStop, fingerprintIfPresent policy tree start = .ok atStart ∧
        fingerprintIfPresent policy tree stop = .ok atStop ∧
        o = match atStart, atStop with
          | some file, none =>
              if sameFileState expected file then .notStarted else .ambiguous other
          | none, some file =>
              if sameFileState expected file then .applied file else .ambiguous other
          | some _, some _ => .ambiguous both
          | none, none => .ambiguous neither := by
  simp only [observeMove, Checked.orError, Checked.bind_eq_ok]
  constructor
  · rintro ⟨_, hexpected, atStart, hstart, atStop, hstop, h⟩
    obtain rfl := Except.ok.inj hexpected
    exact ⟨atStart, atStop, hstart, hstop, (Except.ok.inj h).symm⟩
  · rintro ⟨atStart, atStop, hstart, hstop, rfl⟩
    exact ⟨expected, rfl, atStart, hstart, atStop, hstop, rfl⟩

theorem observeMove_isOk :
    (∃ o, observeMove policy tree start stop (some expected) both neither other = .ok o) ↔
      policy.FileOrNothing tree start ∧ policy.FileOrNothing tree stop := by
  simp only [observeMove_eq_ok]
  constructor
  · rintro ⟨_, atStart, atStop, hstart, hstop, -⟩
    exact ⟨fingerprintIfPresent_isOk.1 ⟨_, hstart⟩, fingerprintIfPresent_isOk.1 ⟨_, hstop⟩⟩
  · rintro ⟨hstart, hstop⟩
    obtain ⟨atStart, hstart⟩ := fingerprintIfPresent_isOk.2 hstart
    obtain ⟨atStop, hstop⟩ := fingerprintIfPresent_isOk.2 hstop
    exact ⟨_, atStart, atStop, hstart, hstop, rfl⟩

theorem observeMove_notStarted :
    observeMove policy tree start stop (some expected) both neither other = .ok .notStarted ↔
      (∃ file, tree.metadata start = .ok (.leaf (.file file)) ∧ policy.Readable file ∧
        sameFileState expected file = true) ∧ tree.metadata stop = .error .notFound := by
  rw [observeMove_eq_ok]
  constructor
  · rintro ⟨atStart, atStop, hstart, hstop, h⟩
    split at h
    · split at h
      · obtain ⟨hfile, hreadable⟩ := fingerprintIfPresent_eq_some.1 hstart
        exact ⟨⟨_, hfile, hreadable, ‹_›⟩, fingerprintIfPresent_eq_none.1 hstop⟩
      · cases h
    · split at h <;> cases h
    · cases h
    · cases h
  · rintro ⟨⟨file, hfile, hreadable, hsame⟩, hstop⟩
    refine ⟨some file, none, fingerprintIfPresent_eq_some.2 ⟨hfile, hreadable⟩,
      fingerprintIfPresent_eq_none.2 hstop, ?_⟩
    simp only [hsame, if_true]

end Move

/-! ## The look at the files of a request -/

section Observe

variable {request : ExecutorRequestRow} {op : ExecutionOperation}

/-- The source of an operation that can be observed. -/
theorem sourceKey_of_observable (h : op.Observable request.direction)
    (hkind : op.kind ≠ .createDirectory) :
    sourceKey policy op = .ok (policy.key (op.sourceRelativePath.getD [])) := by
  obtain ⟨source, hsource, hvalid⟩ := h.source hkind
  simp only [sourceKey, hsource, Checked.orError, relativePath]
  exact Checked.bind_ok (Checked.require_pos _ hvalid)

theorem relativePath_of_observable (h : op.Observable request.direction)
    (hkind : op.kind ≠ .removeDirectoryIfEmpty) :
    relativePath policy op.destinationRelativePath
      = .ok (policy.key op.destinationRelativePath) :=
  Checked.bind_ok (Checked.require_pos _ (h.destination hkind))

theorem observe_create (h : op.Observable request.direction) (hkind : op.kind = .createDirectory) :
    observe policy tree request op =
      match request.direction with
      | .forward => observeDirectory tree (policy.key op.destinationRelativePath) (.applied none)
          .notStarted "Directory path contains an unexpected entry."
      | .rollback => observeDirectory tree (policy.key op.destinationRelativePath) .notStarted
          (.applied none) "Rollback directory path contains an unexpected entry." := by
  have hpath : relativePath policy op.destinationRelativePath
      = .ok (policy.key op.destinationRelativePath) :=
    relativePath_of_observable h (by simp [hkind])
  unfold observe
  cases hd : request.direction with
  | forward =>
      simp only [reduceCtorEq, if_false, observeRecovery, hkind, hpath]
      rfl
  | rollback =>
      simp only [if_true, observeRollbackRecovery, hkind, hpath]
      rfl

theorem observe_remove (h : op.Observable request.direction)
    (hkind : op.kind = .removeDirectoryIfEmpty) :
    observe policy tree request op =
      match request.direction with
      | .forward => observeDirectory tree (policy.key (op.sourceRelativePath.getD [])) .notStarted
          (.applied none) "Cleanup source path contains an unexpected entry."
      | .rollback => observeDirectory tree (policy.key (op.sourceRelativePath.getD []))
          (.applied none) .notStarted "Rollback cleanup path contains an unexpected entry." := by
  have hpath : sourceKey policy op = .ok (policy.key (op.sourceRelativePath.getD [])) :=
    sourceKey_of_observable h (by simp [hkind])
  unfold observe
  cases hd : request.direction with
  | forward =>
      simp only [reduceCtorEq, if_false, observeRecovery, hkind, if_true, hpath]
      rfl
  | rollback =>
      simp only [if_true, observeRollbackRecovery, hkind, hpath]
      rfl

theorem observe_move (h : op.Observable request.direction) (hkind : op.kind.isDirectory = false) :
    ∃ expected both neither other, op.expectedIn request.direction = some expected ∧
      observe policy tree request op =
        observeMove policy tree (policy.key (op.startIn request.direction))
          (policy.key (op.stopIn request.direction)) (some expected) both neither other := by
  obtain ⟨expected, hexpected⟩ := Option.ne_none_iff_exists'.1 (h.expected hkind)
  have hcreate : op.kind ≠ .createDirectory := fun heq => by
    rw [heq] at hkind
    cases hkind
  have hremove : op.kind ≠ .removeDirectoryIfEmpty := fun heq => by
    rw [heq] at hkind
    cases hkind
  have hsource : sourceKey policy op = .ok (policy.key (op.sourceRelativePath.getD [])) :=
    sourceKey_of_observable h hcreate
  have hpath : relativePath policy op.destinationRelativePath
      = .ok (policy.key op.destinationRelativePath) :=
    relativePath_of_observable h hremove
  unfold observe
  cases hd : request.direction with
  | forward =>
      rw [hd] at hexpected
      refine ⟨expected, "Both source and destination exist.",
        "Neither source nor destination exists.",
        "Observed file identity or content does not match the journal.", hexpected, ?_⟩
      simp only [reduceCtorEq, if_false, observeRecovery, hcreate, hremove, hpath, hsource,
        ← hexpected]
      rfl
  | rollback =>
      rw [hd] at hexpected
      refine ⟨expected, "Both applied and restored paths exist during rollback recovery.",
        "Neither applied nor restored path exists during rollback recovery.",
        "Rollback file identity or content does not match the journal.", hexpected, ?_⟩
      simp only [if_true, if_false, observeRollbackRecovery, hcreate, hremove, hpath, hsource,
        ← hexpected]
      rfl

/-- The look at the files of a request returns exactly when its operation is assessable. -/
theorem observe_isOk (h : op.Observable request.direction) :
    (∃ o, observe policy tree request op = .ok o) ↔ op.Assessable policy tree := by
  unfold ExecutionOperation.Assessable
  cases hkind : op.kind
  case createDirectory =>
    rw [observe_create h hkind]
    cases request.direction <;> exact observeDirectory_isOk
  case removeDirectoryIfEmpty =>
    rw [observe_remove h hkind]
    cases request.direction <;> exact observeDirectory_isOk
  all_goals
    obtain ⟨expected, both, neither, other, -, heq⟩ :=
      @observe_move policy tree _ _ h (by rw [hkind]; rfl)
    rw [heq, observeMove_isOk]
    cases request.direction
    · exact Iff.rfl
    · exact and_comm

/-- The look finds that nothing was started exactly when the files look so. -/
theorem observe_notStarted (h : op.Observable request.direction)
    (hassessable : op.Assessable policy tree) :
    observe policy tree request op = .ok .notStarted ↔
      op.LooksNotStarted policy tree request.direction := by
  unfold ExecutionOperation.LooksNotStarted
  cases hkind : op.kind
  case createDirectory =>
    rw [observe_create h hkind]
    cases request.direction
    · exact observeDirectory_absent
    · exact observeDirectory_present
  case removeDirectoryIfEmpty =>
    rw [observe_remove h hkind]
    cases request.direction
    · exact observeDirectory_present
    · exact observeDirectory_absent
  all_goals
    obtain ⟨expected, both, neither, other, hexpected, heq⟩ :=
      @observe_move policy tree _ _ h (by rw [hkind]; rfl)
    have hstart : policy.FileOrNothing tree (policy.key (op.startIn request.direction)) := by
      have hends := (observe_isOk h).2 hassessable
      rw [heq, observeMove_isOk] at hends
      exact hends.1
    rw [heq, observeMove_notStarted, hexpected]
    refine and_congr_left fun _ => ⟨?_, ?_⟩
    · rintro ⟨file, hfile, -, hsame⟩
      exact ⟨file, expected, hfile, rfl, hsame⟩
    · rintro ⟨file, wanted, hfile, hwanted, hsame⟩
      obtain rfl := Option.some.inj hwanted
      rcases hstart with habsent | ⟨found, hfound, hreadable⟩
      · rw [hfile] at habsent
        cases habsent
      · rw [hfile] at hfound
        obtain rfl : file = found := by simpa using hfound
        exact ⟨file, hfile, hreadable, hsame⟩

end Observe

/-! ## Sound verdicts -/

section Sound

variable {executionId : ExecutionId} {request : ExecutorRequestRow} {op : ExecutionOperation}
  {sessions : List ExecutorSessionIdentity} {events : List OperationJournalEvent} {env : Env χ}

theorem RecoveryVerdict.Quiet.sound {v : RecoveryVerdict} (h : v.Quiet request op executionId) :
    v.Sound request := by
  rcases h with hnone | ⟨code, reason, rfl⟩
  · exact fun hdraft => absurd hnone hdraft
  · exact fun _ => request.state.mayTransitionTo_ambiguous

/-- What was observed can be recorded, unless an acknowledged request looks as if it had not
    started. -/
theorem observedVerdict_sound {observation : RecoveryObservation}
    (hstate : request.state ≠ .ambiguous) :
    (observedVerdict executionId request op observation).Sound request ↔
      ¬(request.state = .acknowledgedSuccess ∧ observation = .notStarted) := by
  unfold observedVerdict RecoveryVerdict.Sound
  cases observation <;> cases hs : request.state <;>
    simp_all [ambiguousVerdict, RecoveredRequestClass.standing, Standing.proofState,
      ExecutorRequestState.mayTransitionTo]

/-- There is a sound verdict on a request exactly when it is settled, or its operation is assessable
    and it is not an acknowledged request that looks as if it had not started. -/
theorem verdictOn_sound (h : op.Observable request.direction) :
    (∃ v, verdictOn env tree executionId sessions events request op = .ok v ∧ v.Sound request) ↔
      (NeedsLook env.hashes sessions events request op → op.Assessable env.files tree ∧
        ¬(request.state = .acknowledgedSuccess ∧
          op.LooksNotStarted env.files tree request.direction)) := by
  by_cases hlook : NeedsLook env.hashes sessions events request op
  · simp only [hlook, true_imp_iff, verdictOn_of_needsLook hlook]
    constructor
    · rintro ⟨v, hv, hsound⟩
      cases hobserved : observe env.files tree request op with
      | error e =>
          rw [hobserved] at hv
          cases hv
      | ok o =>
          rw [hobserved] at hv
          obtain rfl := Except.ok.inj hv
          have hassessable := (observe_isOk h).1 ⟨o, hobserved⟩
          refine ⟨hassessable, ?_⟩
          rw [← observe_notStarted h hassessable, hobserved]
          intro hno
          exact (observedVerdict_sound hlook.2.1).1 hsound ⟨hno.1, Except.ok.inj hno.2⟩
    · rintro ⟨hassessable, hno⟩
      obtain ⟨o, hobserved⟩ := (observe_isOk h).2 hassessable
      rw [← observe_notStarted h hassessable, hobserved] at hno
      refine ⟨_, by rw [hobserved]; rfl, (observedVerdict_sound hlook.2.1).2 fun hack => ?_⟩
      exact hno ⟨hack.1, congrArg _ hack.2⟩
  · simp only [hlook, false_imp_iff, iff_true]
    obtain ⟨s, hsettled⟩ := settled_or_needsLook.resolve_right hlook
    obtain ⟨v, hv, -, hquiet, -⟩ := verdictOn_of_settled hsettled
    exact ⟨v, hv, hquiet.sound⟩

end Sound

/-! ## What runs reach -/

/-- The operation of every request is stored, and can be observed in the request's direction. -/
def ObservableRequests (db : Database) : Prop :=
  ∀ row ∈ db.intendedRequests, ∃ op ∈ db.operations,
    op.id = row.operationId ∧ op.Observable row.direction

/-- The rows a run reaches. -/
structure ReachedRows (codec : Codec) (db : Database) : Prop where
  journal : JournalInvariant codec db
  readable : ReadableRows db
  requests : RequestInvariant db
  observable : ObservableRequests db

theorem ObservableRequests.committed {ctx : StoreContext} {db db' : Database} {w : EventWrite}
    {forward : Bool} (h : ObservableRequests db) (hw : EventCommitted ctx w db db')
    (hpermitted : Permitted forward db w) : ObservableRequests db' := by
  -- an operation that can be observed is stored in a later form, which can be observed too
  have hlater : ∀ op ∈ db.operations, ∀ direction, op.Observable direction →
      ∃ later ∈ db'.operations, later.id = op.id ∧ later.Observable direction := by
    intro op hop direction hobs
    obtain ⟨later, hmem, hcont⟩ := hw.effect.continues hop
    exact ⟨later, hmem, hcont.id, hobs.of_continues hcont⟩
  have hold : ∀ row ∈ db.intendedRequests, ∃ op ∈ db'.operations,
      op.id = row.operationId ∧ op.Observable row.direction := by
    intro row hrow
    obtain ⟨op, hop, hid, hobs⟩ := h row hrow
    obtain ⟨later, hmem, hlaterId, hlaterObs⟩ := hlater op hop _ hobs
    exact ⟨later, hmem, hlaterId.trans hid, hlaterObs⟩
  intro row hrow
  rw [hw.effect.intendedRequests, EventWrite.requestsIntended] at hrow
  rcases List.mem_append.1 hrow with hrow | hrow
  · exact hold row hrow
  · cases hpermitted with
    | plain hplain =>
        rw [hplain.noRequest] at hrow
        cases hrow
    | approval _ _ hnone _ =>
        rw [hnone] at hrow
        cases hrow
    | intent request hnames _ _ _ hobservable =>
        rw [hnames] at hrow
        obtain rfl := List.mem_singleton.1 hrow
        obtain ⟨op, hop, hid, hobs⟩ := hobservable
        obtain ⟨later, hmem, hlaterId, hlaterObs⟩ := hlater op hop _ hobs
        exact ⟨later, hmem, hlaterId.trans hid, hlaterObs⟩

theorem ReachedRows.kept (env : Env χ) :
    Kept env true fun w => ReachedRows env.store.codec w.db where
  toInert := .ofRows fun db pause cancel h =>
    ⟨⟨h.journal.chained, h.journal.sequence, h.journal.head⟩, ⟨h.readable.check, h.readable.binding⟩,
      ⟨h.requests.operationIds, h.requests.requestIds, h.requests.known, h.requests.forwardOnce⟩,
      h.observable⟩
  rows _ h := h.journal
  dispatched _ _ _ h _ := h
  write call w hcall h := by
    refine ⟨JournalInvariant.preserved env.store call _ h.journal,
      ReadableRows.preserved env.store call _ h.readable,
      RequestInvariant.preserved env.store call _ h.requests, ?_⟩
    by_cases hevent : ∃ ew, call = .event ew
    · obtain ⟨ew, rfl⟩ := hevent
      rcases @DbCall.event_step_cases env.store ew w.db with heq | hw
      · show ObservableRequests (DbCall.step env.store (.event ew) w.db)
        rw [heq]
        exact h.observable
      · exact h.observable.committed hw (hcall ew rfl).1
    · have hf := @DbCall.step_frame env.store _ (fun ew heq => hevent ⟨ew, heq⟩) w.db
      show ObservableRequests (DbCall.step env.store call w.db)
      rw [ObservableRequests, hf.requests, hf.operations]
      exact h.observable

theorem ReachedRows.after (env : Env χ) {m : Machine χ} (h : m.Initial)
    (steps : List (MachineStep χ)) : ReachedRows env.store.codec (m.after env steps).world.db := by
  have hrows := h.prepared.rows
  refine (ReachedRows.kept env).after (P := fun w => ReachedRows env.store.codec w.db) ?_ steps
  refine ⟨hrows.journalInvariant _, hrows.readable, hrows.requestInvariant, ?_⟩
  intro row hrow
  rw [Database.intendedRequests, hrows.requests] at hrow
  cases hrow

/-- The request that is stored and its operation, as recovery finds them. -/
theorem ReachedRows.find {codec : Codec} {db : Database} (h : ReachedRows codec db)
    {request : ExecutorRequestRow} (hrequest : request ∈ db.executorRequests) :
    ∃ op, db.operations.find? (·.id = request.operationId) = some op ∧ op ∈ db.operations ∧
      op.id = request.operationId ∧ op.Observable request.direction := by
  obtain ⟨op, hop, hid, hobs⟩ := h.observable request.atIntent (List.mem_map_of_mem hrequest)
  obtain ⟨found, hfound⟩ : ∃ found, db.operations.find? (·.id = request.operationId) = some found := by
    rw [← Option.isSome_iff_exists, List.find?_isSome]
    exact ⟨op, hop, decide_eq_true hid⟩
  obtain ⟨hmem, hfoundId⟩ := mem_of_find_id hfound
  obtain rfl := eq_of_mem_of_key h.requests.operationIds hmem hop (hfoundId.trans hid.symm)
  exact ⟨found, hfound, hmem, hfoundId, hobs⟩

/-- The world of a machine between two steps, with this outside, and nobody interfering. -/
def Machine.rest (m : Machine χ) (outside : Outside) : World χ :=
  { m.world with outside := outside, turns := [] }

/-- What recovery finds at the files of each request it has to look at can be recorded. -/
def Recordable (env : Env χ) (w : World χ) : Prop :=
  ∀ request ∈ w.db.executorRequests, ∀ op ∈ w.db.operations, op.id = request.operationId →
    NeedsLook env.hashes w.db.executorSessions w.db.journal request op →
      op.Assessable env.files w.outside.tree ∧
        ¬(request.state = .acknowledgedSuccess ∧
          op.LooksNotStarted env.files w.outside.tree request.direction)

/-- The outside of the sample machine with a directory where its file is to go. -/
def blockedOutside : Outside :=
  { sampleMachine.world.outside with tree := (sampleTree.mkdir ["b"]).getD sampleTree }

/-- The sample execution crashes in a start, at its `n`-th step, and the next process finds the
    outside so. -/
def interruptedSteps (n : Nat) (outside : Outside) : List (MachineStep (Option ExecutionDetail)) :=
  [.call (.createChallenge none (Bytes32.filled 4) 1) [], .call (.finalize createdChallenge 2) [],
    .call (.start 3) (List.replicate n { fault := none } ++ [{ fault := some .crash }]),
    .restart 0 [] none [{ outside := some outside }]]

/-- The world of the sample machine after that, when the outside is so now. -/
def interruptedWorld (n : Nat) (outside now : Outside) : World (Option ExecutionDetail) :=
  (sampleMachine.after sampleEnv (interruptedSteps n outside)).rest now

/-- Recovery fails, though the journal is valid and the requests are bound. -/
def FailsBound (env : Env χ) (w : World χ) : Prop :=
  Recoverable w ∧
    (∀ request ∈ w.db.executorRequests,
      Bound env.hashes w.db.executorSessions w.db.journal request) ∧
    ¬∃ a w', recoverExecution env w = (.ok a, w')

end Zemo
