import Zemo.Coordinator.Assessment

set_option autoImplicit false

/-! # Which rollback recovery offers

An assessment offers a rollback when nothing is ambiguous, an operation is applied, and recovery
itself classified something as applied. The last condition is one too many: operations whose
request was proven applied before the interruption are skipped by the classification, so a rollback
that exists is not offered when all that recovery looked at was not started. -/

namespace Zemo

variable {χ : Type}

/-! ## What recovery shows -/

/-- The statuses of an operation without a request that recovery finds nothing to say about, or
    that it was not started. -/
def ExecutionOperationStatus.untouched : ExecutionOperationStatus → Bool
  | .applied | .recovered | .running | .rollingBack => false
  | _ => true

section Shows

variable (env : Env χ) (w : World χ)

/-- Recovery passes the request over, or finds that it was not started. -/
def ShowsNotApplied (request : ExecutorRequestRow) (op : ExecutionOperation) : Prop :=
  Settled env.hashes w.db.executorSessions w.db.journal request op .skipped ∨
    Settled env.hashes w.db.executorSessions w.db.journal request op .notStarted ∨
    (NeedsLook env.hashes w.db.executorSessions w.db.journal request op ∧
      request.state ≠ .provenApplied ∧
      op.LooksNotStarted env.files w.outside.tree request.direction)

/-- Nothing recovery looks into was applied, as far as the rows and the files show. -/
def NothingShownApplied : Prop :=
  (∀ request ∈ w.db.executorRequests, ∀ op ∈ w.db.operations, op.id = request.operationId →
    ShowsNotApplied env w request op) ∧
  ∀ op ∈ w.db.operations, (∀ request ∈ w.db.executorRequests, request.operationId ≠ op.id) →
    op.status.untouched = true

end Shows

/-- The requests of the operation that recovery looks at. -/
def lookedAt (hashes : Hashes) (sessions : List ExecutorSessionIdentity)
    (events : List OperationJournalEvent) (requests : List ExecutorRequestRow)
    (op : ExecutionOperation) : List ExecutorRequestRow :=
  requests.filter fun request =>
    request.operationId = op.id ∧ NeedsLook hashes sessions events request op

/-- The operation is applied when all that recovery looks at was not started: a rollback of it was
    not started, or it was applied and recovery does not look at it. -/
def endsApplied (env : Env χ) (w : World χ) (op : ExecutionOperation) : Bool :=
  match (lookedAt env.hashes w.db.executorSessions w.db.journal w.db.executorRequests op).getLast? with
  | some request => request.direction = .rollback
  | none => op.status.isApplied

/-! ## The standings a pass finds -/

section Standings

variable {env : Env χ} {w : World χ} {request : ExecutorRequestRow} {op : ExecutionOperation}
  {executionId : ExecutionId}

theorem observedVerdict_standing {observation : RecoveryObservation} :
    ((observedVerdict executionId request op observation).found.standing = .skipped ∨
      (observedVerdict executionId request op observation).found.standing = .notStarted) ↔
      observation = .notStarted ∧ request.state ≠ .provenApplied := by
  unfold observedVerdict
  cases observation <;> simp only [reduceCtorEq, false_and, true_and, iff_false]
  · split <;> simp_all [ambiguousVerdict, RecoveredRequestClass.standing]
  · split <;> simp [ambiguousVerdict, RecoveredRequestClass.standing]
  · simp [ambiguousVerdict, RecoveredRequestClass.standing]

/-- A verdict finds nothing applied exactly when the request shows it. -/
theorem standing_iff_shows {v : RecoveryVerdict} (hobservable : op.Observable request.direction)
    (h : verdictOn env w.outside.tree executionId w.db.executorSessions w.db.journal request op
      = .ok v) :
    (v.found.standing = .skipped ∨ v.found.standing = .notStarted) ↔
      ShowsNotApplied env w request op := by
  constructor
  · intro hstanding
    cases (verdictOn_cases h).1 with
    | settled hsettled _ =>
        rcases hstanding with heq | heq <;> rw [heq] at hsettled
        · exact .inl hsettled
        · exact .inr (.inl hsettled)
    | seen observation hlook hobserved heq =>
        subst heq
        obtain ⟨rfl, hstate⟩ := observedVerdict_standing.1 hstanding
        have hassessable := (observe_isOk hobservable).1 ⟨_, hobserved⟩
        exact .inr (.inr ⟨hlook, hstate, (observe_notStarted hobservable hassessable).1 hobserved⟩)
  · have settled : ∀ s, Settled env.hashes w.db.executorSessions w.db.journal request op s →
        v.found.standing = s := by
      intro s hs
      obtain ⟨v', hv', rfl, -⟩ :=
        @verdictOn_of_settled _ _ _ _ _ executionId env w.outside.tree _ hs
      rw [Except.ok.inj (h.symm.trans hv')]
    rintro (hs | hs | ⟨hlook, hstate, hfiles⟩)
    · exact .inl (settled _ hs)
    · exact .inr (settled _ hs)
    · rw [verdictOn_of_needsLook hlook] at h
      cases hobserved : observe env.files w.outside.tree request op with
      | error e =>
          rw [hobserved] at h
          cases h
      | ok observation =>
          rw [hobserved] at h
          obtain rfl := Except.ok.inj h
          have hassessable := (observe_isOk hobservable).1 ⟨_, hobserved⟩
          have hnot := (observe_notStarted hobservable hassessable).2 hfiles
          obtain rfl := Except.ok.inj (hobserved.symm.trans hnot)
          exact observedVerdict_standing.2 ⟨rfl, hstate⟩

/-- A request recovery passes over or finds proven not started needs no look. -/
theorem not_needsLook_of_settled {hashes : Hashes} {sessions : List ExecutorSessionIdentity}
    {events : List OperationJournalEvent} {s : Standing}
    (h : Settled hashes sessions events request op s) (hs : s = .skipped ∨ s = .notStarted) :
    ¬NeedsLook hashes sessions events request op := by
  rintro ⟨-, -, hlook⟩
  rcases hs with rfl | rfl
  · obtain ⟨-, hexamined⟩ := h
    rw [examined, Bool.or_eq_false_iff, Bool.or_eq_false_iff] at hexamined
    rcases hlook with hlook | hlook
    · rw [hexamined.1.1] at hlook
      cases hlook
    · rw [hexamined.1.2] at hlook
      cases hlook
  · obtain ⟨-, -, hstate, hidle⟩ := h
    rcases hlook with hlook | hlook
    · rw [hidle] at hlook
      cases hlook
    · rcases hstate with hstate | hstate <;> rw [hstate] at hlook <;> cases hlook

end Standings

/-! ## The items a recovery finds -/

/-- Nothing applied and nothing ambiguous was found. -/
def RecoveryItems.Bare (items : RecoveryItems) : Prop := items.applied = [] ∧ items.ambiguous = []

/-- The class adds nothing applied and nothing ambiguous. -/
def RecoveredRequestClass.Bare (c : RecoveredRequestClass) : Prop :=
  c.standing = .skipped ∨ c.standing = .notStarted

theorem RecoveryItems.bare_add {items : RecoveryItems} {c : RecoveredRequestClass} :
    (items.add c).Bare ↔ items.Bare ∧ c.Bare := by
  cases c <;> simp [RecoveryItems.Bare, RecoveryItems.add, RecoveredRequestClass.Bare,
    RecoveredRequestClass.standing]

theorem RecoveryItems.bare_foldl {classes : List RecoveredRequestClass} {items : RecoveryItems} :
    (classes.foldl RecoveryItems.add items).Bare ↔ items.Bare ∧ ∀ c ∈ classes, c.Bare := by
  induction classes generalizing items with
  | nil => simp
  | cons c rest ih =>
      rw [List.foldl_cons, ih, RecoveryItems.bare_add, List.forall_mem_cons, and_assoc]

theorem classifyUnrequested_bare {events : List OperationJournalEvent} {op : ExecutionOperation} :
    (classifyUnrequested events op).Bare ↔ op.status.untouched = true := by
  unfold classifyUnrequested RecoveredRequestClass.Bare
  cases op.status <;> simp only [] <;> (try split) <;>
    simp [RecoveredRequestClass.standing, ExecutionOperationStatus.untouched]

theorem itemsOf_bare {db : Database} {classes : List RecoveredRequestClass} :
    (itemsOf db classes).Bare ↔ (∀ c ∈ classes, c.Bare) ∧
      ∀ op ∈ db.operations, (∀ request ∈ db.executorRequests, request.operationId ≠ op.id) →
        op.status.untouched = true := by
  have hempty : RecoveryItems.Bare {} := ⟨rfl, rfl⟩
  have hfold : itemsOf db classes =
      ((db.operations.filter fun op => db.executorRequests.all (·.operationId ≠ op.id)).map
        (classifyUnrequested db.journal)).foldl RecoveryItems.add
          (classes.foldl RecoveryItems.add {}) := by
    rw [List.foldl_map]
    rfl
  rw [hfold, RecoveryItems.bare_foldl, RecoveryItems.bare_foldl]
  simp only [hempty, true_and, List.forall_mem_map, List.mem_filter, classifyUnrequested_bare,
    List.all_eq_true, ne_eq, decide_not, Bool.not_eq_eq_eq_not, Bool.not_true,
    decide_eq_false_iff_not, and_imp]

/-- What two related lists say of their members. -/
theorem forall_iff_of_forall₂ {α β : Type} {R : α → β → Prop} {P : α → Prop} {Q : β → Prop}
    {l : List α} {m : List β} (h : List.Forall₂ R l m) (hiff : ∀ a b, R a b → (P a ↔ Q b)) :
    (∀ a ∈ l, P a) ↔ ∀ b ∈ m, Q b := by
  induction h with
  | nil => simp
  | cons hab _ ih => rw [List.forall_mem_cons, List.forall_mem_cons, hiff _ _ hab, ih]

/-- A recovery finds nothing applied and nothing ambiguous exactly when nothing shows it. -/
theorem Recovered.bare_iff {env : Env χ} {w w₁ : World χ} {classes : List RecoveredRequestClass}
    (h : Recovered env w classes w₁) (hreached : ReachedRows env.store.codec w.db) :
    (itemsOf w.db classes).Bare ↔ NothingShownApplied env w := by
  have hkeyed := hreached.requests.keyed
  have hsound := h.pass.sound hkeyed (since_synchronized w) (fun r hr => hr) hkeyed.requests
    (by simp)
  have hboth := (List.forall₂_and_left _ _).2 ⟨fun request hrequest => hrequest, hsound⟩
  rw [itemsOf_bare, NothingShownApplied]
  refine and_congr_left fun _ => (forall_iff_of_forall₂ hboth fun request c hclass => ?_).symm
  obtain ⟨hrequest, op, v, hfound, hverdict, -, rfl⟩ := hclass
  obtain ⟨stored, hstored, hmem, hid, hobservable⟩ := hreached.find hrequest
  obtain rfl := Option.some.inj (hstored.symm.trans hfound)
  rw [RecoveredRequestClass.Bare, standing_iff_shows hobservable hverdict]
  constructor
  · exact fun hall => hall stored hmem hid
  · intro hshows op hop hopId
    obtain rfl := eq_of_mem_of_key hkeyed.operations hop hmem (hopId.trans hid.symm)
    exact hshows

/-! ## The statuses a pass leaves -/

/-- The status of an operation when these of its requests were found not started. -/
def landed (looked : List ExecutorRequestRow) (status : ExecutionOperationStatus) :
    ExecutionOperationStatus :=
  match looked.getLast? with
  | some request => if request.direction = .rollback then .applied else .preflightOk
  | none => status

theorem landed_append (looked later : List ExecutorRequestRow) (status : ExecutionOperationStatus) :
    landed (looked ++ later) status = landed later (landed looked status) := by
  unfold landed
  rw [List.getLast?_append]
  cases later.getLast? <;> rfl

theorem landed_isApplied {looked : List ExecutorRequestRow} {status : ExecutionOperationStatus} :
    (landed looked status).isApplied = match looked.getLast? with
      | some request => decide (request.direction = .rollback)
      | none => status.isApplied := by
  unfold landed
  cases looked.getLast? with
  | none => rfl
  | some request => cases hd : request.direction <;> simp [hd, ExecutionOperationStatus.isApplied]

section Lands

variable {env : Env χ} {executionId : ExecutionId} {operations : List ExecutionOperation}
  {sessions : List ExecutorSessionIdentity} {events : List OperationJournalEvent}
  {requests : List ExecutorRequestRow} {request : ExecutorRequestRow} {op : ExecutionOperation}
  {w w' : World χ} {classes : List RecoveredRequestClass}

/-- The operations `g` gives are those that stood before, each with the status it lands in. -/
def Lands (hashes : Hashes) (operations : List ExecutionOperation)
    (sessions : List ExecutorSessionIdentity) (events : List OperationJournalEvent)
    (requests : List ExecutorRequestRow) (g : ExecutionOperation → ExecutionOperation) : Prop :=
  ∀ op ∈ operations, ∀ stored : ExecutionOperation, stored.id = op.id →
    (g stored).id = op.id ∧
      (g stored).status = landed (lookedAt hashes sessions events requests op) stored.status

theorem lookedAt_cons {hashes : Hashes} :
    lookedAt hashes sessions events (request :: requests) op =
      lookedAt hashes sessions events [request] op ++ lookedAt hashes sessions events requests op := by
  rw [lookedAt, lookedAt, lookedAt, ← List.filter_append, List.singleton_append]

/-- What one verdict leaves of the operations when it finds nothing applied. -/
theorem Recorded.lands (hkeyed : (operations.map (·.id)).Nodup)
    (hfound : operations.find? (·.id = request.operationId) = some op) {v : RecoveryVerdict}
    (hverdict : verdictOn env w.outside.tree executionId sessions events request op = .ok v)
    (hbare : v.found.Bare) (hrecorded : Recorded env w v.draft w') :
    ∃ g, w'.db.operations = w.db.operations.map g ∧
      Lands env.hashes operations sessions events [request] g := by
  obtain ⟨hmem, hid⟩ := mem_of_find_id hfound
  cases (verdictOn_cases hverdict).1 with
  | settled hsettled hquiet =>
      have hnone : v.draft = none := by
        rcases hquiet with hnone | ⟨code, reason, rfl⟩
        · exact hnone
        · rcases hbare with hbare | hbare <;> cases hbare
      rw [hnone] at hrecorded
      obtain rfl := hrecorded
      refine ⟨fun stored => stored, (List.map_id' _).symm, fun other hother stored hstored => ?_⟩
      have hnil : lookedAt env.hashes sessions events [request] other = [] := by
        rw [lookedAt, List.filter_eq_nil_iff]
        intro r hr
        obtain rfl := List.mem_singleton.1 hr
        rw [decide_eq_true_eq]
        rintro ⟨hop, hlook⟩
        obtain rfl := eq_of_mem_of_key hkeyed hother hmem (hop.symm.trans hid.symm)
        exact not_needsLook_of_settled hsettled hbare hlook
      rw [hnil]
      exact ⟨hstored, rfl⟩
  | seen observation hlook hobserved heq =>
      subst heq
      obtain ⟨rfl, hstate⟩ := observedVerdict_standing.1 hbare
      have hd : RecoveryDraft executionId request op (notStartedDraft executionId request op)
          .notStarted := .notStarted
      have hdraft : (observedVerdict executionId request op .notStarted).draft
          = some (notStartedDraft executionId request op) := by
        simp only [observedVerdict, if_neg hstate]
      rw [hdraft] at hrecorded
      refine ⟨_, hd.operations_eq hrecorded, fun other hother stored hstored => ?_⟩
      by_cases hsame : other.id = op.id
      · obtain rfl := eq_of_mem_of_key hkeyed hother hmem hsame
        have hone : lookedAt env.hashes sessions events [request] other = [request] := by
          rw [lookedAt, List.filter_eq_self]
          intro r hr
          obtain rfl := List.mem_singleton.1 hr
          exact decide_eq_true ⟨hid.symm, hlook⟩
        rw [if_pos hstored, hone]
        exact ⟨hstored, @RecoveryDraft.status_after _ env w _ _ _ _ _ hd stored⟩
      · have hnil : lookedAt env.hashes sessions events [request] other = [] := by
          rw [lookedAt, List.filter_eq_nil_iff]
          intro r hr
          obtain rfl := List.mem_singleton.1 hr
          rw [decide_eq_true_eq]
          exact fun hop => hsame (hop.1.symm.trans hid.symm)
        rw [if_neg (fun heq => hsame (hstored.symm.trans heq)), hnil]
        exact ⟨hstored, rfl⟩

/-- What a whole pass leaves of the operations when it finds nothing applied. -/
theorem Pass.lands (hkeyed : (operations.map (·.id)).Nodup)
    (h : Pass env executionId operations sessions events requests w classes w')
    (hbare : ∀ c ∈ classes, c.Bare) :
    ∃ g, w'.db.operations = w.db.operations.map g ∧
      Lands env.hashes operations sessions events requests g := by
  induction h with
  | nil w => exact ⟨fun stored => stored, (List.map_id' _).symm, fun _ _ _ hid => ⟨hid, rfl⟩⟩
  | @cons request op v rest classes w w₁ w₂ found verdict recorded later ih =>
      obtain ⟨g, hops, hg⟩ :=
        recorded.lands hkeyed found verdict (hbare _ (List.mem_cons_self ..))
      obtain ⟨g', hops', hg'⟩ := ih fun c hc => hbare c (List.mem_cons_of_mem _ hc)
      refine ⟨g' ∘ g, by rw [hops', hops, List.map_map], fun other hother stored hstored => ?_⟩
      obtain ⟨hid, hstatus⟩ := hg other hother stored hstored
      obtain ⟨hid', hstatus'⟩ := hg' other hother (g stored) hid
      refine ⟨hid', ?_⟩
      rw [lookedAt_cons, landed_append, ← hstatus]
      exact hstatus'

end Lands

/-! ## The offer -/

/-- The assessment offers a rollback exactly when nothing is ambiguous and an operation is
    applied. -/
def OffersExisting (a : RecoveryAssessment) (db : Database) : Prop :=
  a.rollbackAvailable = true ↔
    a.ambiguous = 0 ∧ ∃ op ∈ db.operations, op.status.isApplied = true

theorem assessmentFor_rollbackAvailable {w w₁ : World χ} {classes : List RecoveredRequestClass} :
    (assessmentFor w classes w₁).rollbackAvailable = true ↔
      (itemsOf w.db classes).ambiguous = [] ∧
        (∃ op ∈ w₁.db.operations, op.status.isApplied = true) ∧
        (itemsOf w.db classes).applied ≠ [] := by
  simp only [assessmentFor, assessmentOf, Bool.and_eq_true, decide_eq_true_eq,
    List.length_eq_zero_iff, List.length_pos_iff, and_assoc]
  refine and_congr_right fun hnone => and_congr_left fun _ => ?_
  rw [RecoveryItems.state, hnone]
  simp [ExecutionRecoveryState.sessionStatus, rollbackAvailableFor]

/-- **Recovery offers the rollback that exists**, except when nothing it looks into was applied
    though an operation is. -/
theorem rollback_offered_iff (env : Env χ) {m : Machine χ} (h : m.Initial)
    (steps : List (MachineStep χ)) (outside : Outside) {a : RecoveryAssessment} {w' : World χ}
    (hrun : recoverExecution env ((m.after env steps).rest outside) = (.ok a, w')) :
    OffersExisting a w'.db ↔
      ¬(NothingShownApplied env ((m.after env steps).rest outside) ∧
        ∃ op ∈ ((m.after env steps).rest outside).db.operations,
          endsApplied env ((m.after env steps).rest outside) op = true) := by
  have hreached : ReachedRows env.store.codec ((m.after env steps).rest outside).db :=
    ReachedRows.after env h steps
  have hturns : ((m.after env steps).rest outside).turns = [] := rfl
  revert hreached hturns hrun
  generalize (m.after env steps).rest outside = w
  intro hrun hreached hturns
  have hkeyed := hreached.requests.keyed
  obtain ⟨classes, w₁, hrecovered, rfl, rfl⟩ :=
    recoverExecution_calm_eq_ok hturns hreached.journal hkeyed hrun
  have hbare := hrecovered.bare_iff hreached
  -- when nothing was found, an operation is applied afterwards exactly when it ends applied
  have happlied : (itemsOf w.db classes).Bare →
      ((∃ op ∈ w₁.db.operations, op.status.isApplied = true) ↔
        ∃ op ∈ w.db.operations, endsApplied env w op = true) := by
    intro hb
    obtain ⟨g, hops, hg⟩ := hrecovered.pass.lands hkeyed.operations (itemsOf_bare.1 hb).1
    rw [hops]
    simp only [List.mem_map, exists_exists_and_eq_and]
    refine exists_congr fun op => and_congr_right fun hop => ?_
    rw [(hg op hop op rfl).2, landed_isApplied]
    exact Iff.rfl
  have hcount : (assessmentFor w classes w₁).ambiguous = 0 ↔
      (itemsOf w.db classes).ambiguous = [] := List.length_eq_zero_iff
  rw [OffersExisting, assessmentFor_rollbackAvailable, hcount, (assessed w₁ env _).operations,
    ← hbare]
  constructor
  · rintro hoffers ⟨hb, hends⟩
    exact (hoffers.2 ⟨hb.2, (happlied hb).2 hends⟩).2.2 hb.1
  · intro hno
    refine ⟨fun hoffered => ⟨hoffered.1, hoffered.2.1⟩, fun hexists => ⟨hexists.1, hexists.2, ?_⟩⟩
    intro hnone
    have hb : (itemsOf w.db classes).Bare := ⟨hnone, hexists.1⟩
    exact hno ⟨hb, (happlied hb).1 hexists.2⟩

/-- The sample execution was completed, and crashes in its rollback before the request of it is
    dispatched; the service is started again. -/
def crashedRollbackSteps : List (MachineStep (Option ExecutionDetail)) :=
  sampleSteps ++ [.call .rollback (List.replicate 24 { fault := none } ++ [{ fault := some .crash }]),
    .restart 0 [] none []]

/-- The world of the sample machine after that. -/
def crashedRollbackWorld : World (Option ExecutionDetail) :=
  (sampleMachine.after sampleEnv crashedRollbackSteps).rest
    (sampleMachine.after sampleEnv crashedRollbackSteps).world.outside

/-- An execution that was interrupted before its only request was dispatched. -/
theorem rollback_offered_iff_sample :
    ∃ a w', recoverExecution sampleEnv
        (interruptedWorld 26 blockedOutside sampleMachine.world.outside) = (.ok a, w') ∧
      (OffersExisting a w'.db ↔
        ¬(NothingShownApplied sampleEnv
            (interruptedWorld 26 blockedOutside sampleMachine.world.outside) ∧
          ∃ op ∈ (interruptedWorld 26 blockedOutside sampleMachine.world.outside).db.operations,
            endsApplied sampleEnv
              (interruptedWorld 26 blockedOutside sampleMachine.world.outside) op = true)) := by
  obtain ⟨a, w', hrun⟩ : ∃ a w', recoverExecution sampleEnv
      (interruptedWorld 26 blockedOutside sampleMachine.world.outside) = (.ok a, w') :=
    Prog.exists_of_isOk (by decide +kernel)
  exact ⟨a, w', hrun, rollback_offered_iff sampleEnv sampleMachine_initial
    (interruptedSteps 26 blockedOutside) sampleMachine.world.outside hrun⟩

/-- What an assessment says about a rollback, with the rows it leaves. -/
def offer (r : Exit ApplicationError RecoveryAssessment × World (Option ExecutionDetail)) :
    Option (Bool × Nat × Bool) :=
  match r with
  | (.ok a, w) =>
      some (a.rollbackAvailable, a.ambiguous, w.db.operations.any fun op => op.status.isApplied)
  | _ => none

/-- No rollback is offered though the operation is applied and nothing is ambiguous. -/
theorem applied_operation_not_offered :
    sampleMachine.Initial ∧ ∃ a w', recoverExecution sampleEnv crashedRollbackWorld = (.ok a, w') ∧
      ¬OffersExisting a w'.db := by
  refine ⟨sampleMachine_initial, ?_⟩
  have hoffer : offer (recoverExecution sampleEnv crashedRollbackWorld) = some (false, 0, true) := by
    decide +kernel
  rcases hrun : recoverExecution sampleEnv crashedRollbackWorld with ⟨a | e | _, w'⟩
  · rw [hrun] at hoffer
    obtain ⟨hflag, hrest⟩ := Prod.mk.inj (Option.some.inj hoffer)
    obtain ⟨hcount, happlied⟩ := Prod.mk.inj hrest
    refine ⟨a, w', rfl, fun hoffers => ?_⟩
    have hoffered := hoffers.2 ⟨hcount, List.any_eq_true.1 happlied⟩
    rw [hflag] at hoffered
    cases hoffered
  · rw [hrun] at hoffer
    cases hoffer
  · rw [hrun] at hoffer
    cases hoffer

end Zemo
